import DeployMonster.Webhooks.Receiver

/-!
# Replays of a webhook delivery

`HandleWebhook` drops a delivery that it has seen in the last 600 seconds. The key of a delivery is
an id in a header that no signature covers, and it is looked up and recorded in two operations.
-/

namespace DeployMonster.Webhooks

open Clock DB Program StepMachine List Pool

def HookEvent.of (webhookID : String) : HookEvent → Bool
  | received id .. => id = webhookID
  | rotated _ => false

def HookWorld.publishedOf (w : HookWorld) (webhookID : String) : ℕ :=
  w.published.countP (HookEvent.of webhookID)

namespace Replay

abbrev Handling := Hooks HookReply

abbrev State := HookWorld × List Handling

def Records (key : String) : HookCall → Prop
  | .kvSet bucket key' _ _ => bucket = webhookDedupBucket ∧ key' = key
  | _ => False

instance (key : String) (c : HookCall) : Decidable (Records key c) := by
  unfold Records
  split <;> infer_instance

def InWindow (start : ℤ) (key : String) (s : State) (a : ℕ × HookChoice) : Prop :=
  ∀ p ∈ s.2[a.1]?, ∀ c ∈ p.next?, Records key c →
    unix (s.1.now + a.2.elapsed) < unix start + webhookDedupTTLSeconds
  deriving Decidable

def Undisturbed (key : String) (s : State) (a : ℕ × HookChoice) : Prop :=
  ∀ p ∈ s.2[a.1]?, ∀ c ∈ p.next?, Records key c → a.2.fails = none ∧
    s.1.kv.get (unix (s.1.now + a.2.elapsed)) webhookDedupBucket key ≠ .ok (.seen true)
  deriving Decidable

/-! ## The protocol of a delivery -/

/-- How far a delivery to the webhook has come: before it records its key, with its key recorded, or
published. Deliveries to other webhooks are `foreign`. -/
inductive Stage
  | waiting | recorded | published | foreign
  deriving DecidableEq

/-- The calls that write nothing. -/
def Reads : HookCall → Prop
  | .now | .getWebhookSecret _ | .kvGet _ _ => True
  | .kvSet .. | .publish _ => False

/-- What deliveries to other webhooks write: their keys, and events of their own. -/
def Foreign (webhookID : String) : HookCall → Prop
  | .kvSet bucket _ value ttlSeconds =>
    bucket = webhookDedupBucket ∧ value = .seen true ∧ ttlSeconds = webhookDedupTTLSeconds
  | .publish event => event.of webhookID = false
  | .now | .getWebhookSecret _ | .kvGet _ _ => True

/-- How a call moves a delivery on. -/
inductive Next (webhookID key : String) : Stage → (c : HookCall) → HookAnswer c → Stage → Prop
  | read {c : HookCall} {r : HookAnswer c} (hc : Reads c) :
      Next webhookID key .waiting c r .waiting
  | record {r : Except String Unit} :
      Next webhookID key .waiting
        (.kvSet webhookDedupBucket key (.seen true) webhookDedupTTLSeconds) r .recorded
  | publish {event : HookEvent} {r : Unit} :
      Next webhookID key .recorded (.publish event) r .published
  | foreign {c : HookCall} {r : HookAnswer c} (hc : Foreign webhookID c) :
      Next webhookID key .foreign c r .foreign

def AnyReply (_ : Stage) (_ : HookReply) : Prop := True

variable {recv : Receiver} {webhookID key : String} {body : List UInt8} {r : Headers}

lemma follows_publishPayload : Follows (Next webhookID key) AnyReply
    (publishPayload recv webhookID body r) .recorded := by
  unfold publishPayload
  split
  · exact trivial
  · split
    · exact fun _ => ⟨_, .publish, trivial⟩
    · exact trivial

lemma follows_receiveOnce (hkey : key ≠ "") (hbody : deliveryDedupKey webhookID body r = key) :
    Follows (Next webhookID key) AnyReply (receiveOnce recv webhookID body r) .waiting := by
  subst hbody
  simp only [receiveOnce, if_pos hkey, Hooks.kvGet, Hooks.kvSet, Prog.perform_bind]
  intro found
  refine ⟨_, .read trivial, ?_⟩
  dsimp only
  split
  · exact trivial
  · exact fun _ => ⟨_, .record, follows_publishPayload⟩

lemma follows_handleWebhook (hkv : recv.kv = true) (hkey : key ≠ "") {req : HookRequest}
    (hbody : ∀ bytes, req.body = .ok bytes →
      deliveryDedupKey req.webhookID (bytes.take maxBody) req.headers = key) :
    Follows (Next req.webhookID key) AnyReply (handleWebhook recv req) .waiting := by
  obtain ⟨webhookID, body, r⟩ := req
  by_cases hid : webhookID = ""
  · simp only [handleWebhook, if_pos hid]
    exact trivial
  cases body with
  | error e =>
    simp only [handleWebhook, if_neg hid]
    exact trivial
  | ok bytes =>
    rw [handleWebhook_eq hkv hid]
    intro answer
    refine ⟨_, .read trivial, ?_⟩
    rcases answer with e | secret
    · exact trivial
    · dsimp only
      split
      · exact follows_receiveOnce hkey (hbody bytes rfl)
      · exact trivial

lemma foreign_handleWebhook {req : HookRequest} (hne : req.webhookID ≠ webhookID) :
    AllCalls (Foreign webhookID) (handleWebhook recv req) :=
  allCalls_handleWebhook (fun _ => trivial) (fun _ => ⟨rfl, rfl, rfl⟩) trivial
    fun _ => decide_eq_false hne

/-! ## The invariant -/

/-- The key is recorded until the window that begins at `start` is over. -/
def Recorded (start : ℤ) (key : String) (w : HookWorld) : Prop :=
  ∃ expiresAt, w.kv webhookDedupBucket key = some ⟨.seen true, expiresAt⟩ ∧
    unix start + webhookDedupTTLSeconds ≤ expiresAt

/-- From the world `w0` on: what is published, and what is recorded and may still be published, is
at most one delivery; and from the first one on the key is recorded. -/
structure Once (w0 : HookWorld) (webhookID key : String) (w : HookWorld) (stages : List Stage) :
    Prop where
  later : w0.now ≤ w.now
  once : w.publishedOf webhookID + stages.countP (· = .recorded) ≤ w0.publishedOf webhookID + 1
  recorded : w0.publishedOf webhookID < w.publishedOf webhookID + stages.countP (· = .recorded) →
    Recorded w0.now key w

variable {w0 w w' : HookWorld} {stages : List Stage} {o : HookChoice} {start : ℤ}

lemma Recorded.get_eq {now : ℤ} (h : Recorded start key w)
    (hnow : unix now < unix start + webhookDedupTTLSeconds) :
    w.kv.get (unix now) webhookDedupBucket key = .ok (.seen true) := by
  obtain ⟨expiresAt, hentry, hexpiry⟩ := h
  exact KVStore.get_of_lt hentry (Int.lt_of_lt_of_le hnow hexpiry)

lemma recorded_set {now : ℤ} (hnow : start ≤ now)
    (hkv : w'.kv = w.kv.set (unix now) webhookDedupBucket key (.seen true) webhookDedupTTLSeconds) :
    Recorded start key w' := by
  refine ⟨unix now + webhookDedupTTLSeconds, ?_, Int.add_le_add_right (unix_mono hnow) _⟩
  rw [hkv, KVStore.set_self]
  rfl

lemma publishedOf_eq {c : HookCall} (h : w'.published = w.published ++ publishes c) :
    w'.publishedOf webhookID =
      w.publishedOf webhookID + (publishes c).countP (HookEvent.of webhookID) := by
  rw [HookWorld.publishedOf, h, countP_append]
  rfl

lemma Once.frame (h : Once w0 webhookID key w stages) (hlater : w.now ≤ w'.now)
    (hpublished : w'.publishedOf webhookID = w.publishedOf webhookID)
    (hrecorded : Recorded w0.now key w → Recorded w0.now key w') :
    Once w0 webhookID key w' stages where
  later := h.later.trans hlater
  once := hpublished ▸ h.once
  recorded := fun hlt => hrecorded (h.recorded (hpublished ▸ hlt))

lemma Recorded.congr (hkv : w'.kv = w.kv) (h : Recorded start key w) : Recorded start key w' := by
  rwa [Recorded, hkv]

lemma Recorded.set {key' : String} (hlater : start ≤ w'.now)
    (hkv : w'.kv = w.kv.set (unix w'.now) webhookDedupBucket key' (.seen true)
      webhookDedupTTLSeconds) (h : Recorded start key w) : Recorded start key w' := by
  by_cases hkey : key' = key
  · subst hkey
    exact recorded_set hlater hkv
  · obtain ⟨expiresAt, hentry, hexpiry⟩ := h
    refine ⟨expiresAt, ?_, hexpiry⟩
    rw [hkv, KVStore.set_of_ne _ _ _ _ (.inr (Ne.symm hkey))]
    exact hentry

lemma Once.record (h : Once w0 webhookID key w stages) {i : ℕ} (hi : stages[i]? = some .waiting)
    (hlater : w.now ≤ w'.now) (hpublished : w'.publishedOf webhookID = w.publishedOf webhookID)
    (hfresh : ¬ Recorded w0.now key w) (hrecorded : Recorded w0.now key w') :
    Once w0 webhookID key w' (stages.set i .recorded) := by
  have hcount : (stages.set i .recorded).countP (· = Stage.recorded) =
      stages.countP (· = Stage.recorded) + 1 := countP_set hi rfl _
  have hnone := mt h.recorded hfresh
  refine ⟨h.later.trans hlater, ?_, fun _ => hrecorded⟩
  rw [hcount, hpublished]
  omega

lemma Once.publish (h : Once w0 webhookID key w stages) {i : ℕ} (hi : stages[i]? = some .recorded)
    (hlater : w.now ≤ w'.now) (hkv : w'.kv = w.kv)
    (hpublished : w'.publishedOf webhookID ≤ w.publishedOf webhookID + 1) :
    Once w0 webhookID key w' (stages.set i .published) := by
  have hcount : (stages.set i .published).countP (· = Stage.recorded) + 1 =
      stages.countP (· = Stage.recorded) := by
    obtain ⟨hlt, hget⟩ := List.getElem?_eq_some_iff.mp hi
    have hpos : 0 < stages.countP (· = Stage.recorded) :=
      countP_pos_iff.mpr ⟨_, mem_of_getElem? hi, rfl⟩
    rw [countP_set hlt, hget]
    simp only [decide_true, if_true, reduceCtorEq, decide_false, Bool.false_eq_true, if_false]
    omega
  have hbefore := h.once
  refine ⟨h.later.trans hlater, by omega, fun hlt => (h.recorded ?_).congr hkv⟩
  omega

/-- **Every undisturbed step within the window keeps `Once`.** -/
theorem once_step {s : State} {a : ℕ × HookChoice} {c : HookCall} {k : HookAnswer c → Handling}
    {r : HookAnswer c} {g g' : Stage} (h : Once w0 webhookID key s.1 stages)
    (hwindow : InWindow w0.now key s a) (hundisturbed : Undisturbed key s a)
    (hi : s.2[a.1]? = some (.call c k)) (hg : stages[a.1]? = some g)
    (hexec : hookExec c s.1 a.2 = some (r, w')) (hnext : Next webhookID key g c r g') :
    Once w0 webhookID key w' (stages.set a.1 g') := by
  obtain ⟨hnow, hstore, hevents⟩ := effects_of_hookExec hexec
  have hlater : s.1.now ≤ w'.now := by omega
  have hpublished : w'.publishedOf webhookID = _ := publishedOf_eq hevents
  cases hnext with
  | read hc =>
    rw [set_self hg]
    cases hstore with
    | none hkv =>
      refine h.frame hlater ?_ (Recorded.congr hkv)
      cases c with
      | publish => exact absurd hc id
      | _ => exact hpublished
    | set => exact absurd hc id
  | record =>
    have hrecords : Records key
        (.kvSet webhookDedupBucket key (.seen true) webhookDedupTTLSeconds) := ⟨rfl, rfl⟩
    obtain ⟨hfails, hfresh⟩ := hundisturbed _ hi _ rfl hrecords
    have hbefore := hwindow _ hi _ rfl hrecords
    cases hstore with
    | none _ hc => exact absurd rfl (hc hfails _ _ _ _)
    | set hkv =>
      exact h.record hg hlater hpublished (fun hrec => hfresh (hrec.get_eq hbefore))
        (recorded_set (h.later.trans hlater) hkv)
  | @publish event =>
    cases hstore with
    | none hkv =>
      refine h.publish hg hlater hkv ?_
      rw [hpublished]
      exact Nat.add_le_add_left countP_le_length _
  | foreign hc =>
    rw [set_self hg]
    have hsame : w'.publishedOf webhookID = s.1.publishedOf webhookID := by
      rw [hpublished]
      cases c with
      | publish event => simp [publishes, show event.of webhookID = false from hc]
      | _ => rfl
    cases hstore with
    | none hkv => exact h.frame hlater hsame (Recorded.congr hkv)
    | set hkv =>
      obtain ⟨rfl, rfl, rfl⟩ := hc
      exact h.frame hlater hsame (Recorded.set (h.later.trans hlater) hkv)

/-! ## At most once -/

def Stage.initial (webhookID : String) (req : HookRequest) : Stage :=
  if req.webhookID = webhookID then .waiting else .foreign

lemma once_start (w : HookWorld) (webhookID key : String) (requests : List HookRequest) :
    Once w webhookID key w (requests.map (Stage.initial webhookID)) := by
  have hnone : (requests.map (Stage.initial webhookID)).countP (· = .recorded) = 0 := by
    refine countP_eq_zero.mpr (forall_mem_map.mpr fun req _ => ?_)
    unfold Stage.initial
    split <;> exact of_decide_eq_false rfl
  constructor
  case later => exact le_rfl
  case once => omega
  case recorded => exact fun hlt => absurd hlt (by omega)

/-- **Deliveries to a webhook that have one key are published at most once**, in every interleaving,
when the key is recorded within the window and only while it is not recorded. -/
theorem published_once (recv : Receiver) (hkv : recv.kv = true) (w : HookWorld)
    (requests : List HookRequest) (webhookID key : String) (hkey : key ≠ "")
    (hsame : ∀ req ∈ requests, req.webhookID = webhookID → ∀ bytes, req.body = .ok bytes →
      deliveryDedupKey webhookID (bytes.take maxBody) req.headers = key)
    (schedule : List (ℕ × HookChoice)) (s : State)
    (hguard : Along (poolStep hookExec) (fun s a => InWindow w.now key s a ∧ Undisturbed key s a)
      (w, requests.map (handleWebhook recv)) schedule)
    (hrun : run (poolStep hookExec) (w, requests.map (handleWebhook recv)) schedule = some s) :
    s.1.publishedOf webhookID ≤ w.publishedOf webhookID + 1 := by
  have htracks : Tracks (Next webhookID key) AnyReply (requests.map (handleWebhook recv))
      (requests.map (Stage.initial webhookID)) := by
    refine tracks_map fun req hreq => ?_
    unfold Stage.initial
    split
    case isTrue hid =>
      subst hid
      exact follows_handleWebhook hkv hkey (hsame req hreq rfl)
    case isFalse hne =>
      exact (foreign_handleWebhook hne).follows (fun _ hc _ => .foreign hc)
        (.of_forall (fun _ => trivial) _)
  obtain ⟨stages, -, honce⟩ := Tracks.of_along (I := Once w webhookID key)
    (fun s a t stages c k r g g' h hG hi hg _ hexec hnext =>
      once_step h hG.1 hG.2 hi hg hexec hnext)
    htracks (once_start w webhookID key requests) hguard hrun
  exact (Nat.le_add_right _ _).trans honce.once

/-- A delivery of GitLab with the token of the webhook, and with an id that the token says nothing
about. -/
def tokenPush (delivery : String) : HookRequest where
  webhookID := "app1"
  body := .ok emptyObject
  headers
    | .gitlabEvent => "Push Hook"
    | .gitlabToken => "k"
    | .gitlabEventUUID => delivery
    | _ => ""

/-- One after the other, the second copy is dropped. -/
theorem published_once_oneByOne : ∃ s, run (poolStep hookExec)
      (configuredHook, [tokenPush "d1", tokenPush "d1"].map (handleWebhook smallReceiver))
      ([0, 0, 0, 0, 1, 1].map (·, {})) = some s ∧
    s.2.map Prog.result? = [some .received, some .duplicate] ∧
    s.1.publishedOf "app1" ≤ configuredHook.publishedOf "app1" + 1 := by
  refine exists_of_run_and (by decide +kernel) fun s hrun _ => ?_
  refine published_once _ rfl _ _ _ "app1:d1" (by decide) ?_ _ s (by decide +kernel) hrun
  intro req hreq _ bytes _
  obtain rfl : req = tokenPush "d1" := by simpa using hreq
  rfl

/-- **Authenticated copies of one body are published twice**: with two ids, one after the other; and with
one id, when both look it up before either records it. -/
theorem replayed_published_twice : (∃ s, run (poolStep hookExec)
      (configuredHook, [tokenPush "d1", tokenPush "d2"].map (handleWebhook smallReceiver))
      ([0, 0, 0, 0, 1, 1, 1, 1].map (·, {})) = some s ∧ s.1.publishedOf "app1" = 2) ∧
    (∃ s, run (poolStep hookExec)
      (configuredHook, [tokenPush "d1", tokenPush "d1"].map (handleWebhook smallReceiver))
      ([0, 0, 1, 1, 0, 0, 1, 1].map (·, {})) = some s ∧ s.1.publishedOf "app1" = 2) ∧
    configuredHook.publishedOf "app1" = 0 ∧
    ∀ delivery, Proves "k" (emptyObject.take maxBody) (tokenPush delivery).headers := by
  refine ⟨by decide +kernel, by decide +kernel, rfl, ?_⟩
  exact fun delivery => rfl

end Replay

end DeployMonster.Webhooks
