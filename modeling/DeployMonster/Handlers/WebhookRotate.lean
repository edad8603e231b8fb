import DeployMonster.Core.Id
import DeployMonster.Webhooks.Receiver

/-!
# Rotation of webhook secrets

`Rotate` and `persistSecret` of `internal/api/handlers/event_webhooks.go`. Only the SHA-256 hash of
a new secret is stored, and the receiver takes the stored hash for the secret.
-/

namespace DeployMonster.Handlers.WebhookRotate

open DB DeployMonster.Core Webhooks Program StepMachine Option Function KVStore

variable (secret : String)

def hashSecret : String := SHA256.hex (SHA256.sum (SHA256.utf8 secret))

def webhookSecretsBucket : String := "webhooks"

/-- The value of the store decoded as `webhookSecretRecord`. The fields of a wrapped record are not
at their place, so that none of them is found. -/
def recordOf : HookValue → Except String WebhookSecretRecord
  | .secret record => .ok record
  | .wrapped _ => .ok {}
  | .seen _ | .malformed => .error "unmarshal value"

/-- The record that `persistSecret` starts from: an empty one when there is none. -/
def storedRecord : Except KVError HookValue → Except String WebhookSecretRecord
  | .error .notFound => .ok {}
  | .error .failed => .error "get webhook secret"
  | .ok value => recordOf value

def rotatedRecord (record : WebhookSecretRecord) (appID secret : String) (now : ℤ) :
    WebhookSecretRecord where
  id := if record.id = "" then appID else record.id
  appID := appID
  secretHash := hashSecret secret
  status := "active"
  createdAt := if record.id = "" then some now else record.createdAt
  updatedAt := some now

def persistSecret (kv : Bool) (appID secret : String) : Hooks (Except String Unit) := do
  if kv = false then return .error "webhook secret store not configured"
  match storedRecord (← Hooks.kvGet webhookSecretsBucket appID) with
  | .error e => return .error e
  | .ok record =>
    let now ← Hooks.now
    Hooks.kvSet webhookSecretsBucket appID (.secret (rotatedRecord record appID secret now)) 0

/-- `Rotate` for an app of the tenant, with the 32 bytes that are drawn: the secret that is shown,
or an error. -/
def rotate (kv events : Bool) (appID : String) (drawn : List UInt8) : Hooks (Except String String) := do
  let newSecret := generateSecret drawn
  match ← persistSecret kv appID newSecret with
  | .error _ => return .error "failed to rotate webhook secret"
  | .ok () =>
    if events then Hooks.publish (.rotated appID)
    return .ok newSecret

/-- A rotation, with the bytes it draws, or a delivery; each with the choices of the environment. -/
inductive HookAction
  | rotate (appID : String) (drawn : List UInt8) (hdrawn : drawn.length = 32) (os : List HookChoice)
  | deliver (req : HookRequest) (os : List HookChoice)

/-- The world, and the secret of each app that was shown last. -/
abbrev HookState := HookWorld × (String → Option String)

variable (recv : Receiver)

def hookStep (s : HookState) : HookAction → Option HookState
  | .rotate appID drawn _ os =>
    (solo hookExec (rotate recv.kv recv.events appID drawn) s.1 os).map fun (answer, w) =>
      match answer with
      | .ok secret => (w, update s.2 appID (some secret))
      | .error _ => (w, s.2)
  | .deliver req os => (solo hookExec (handleWebhook recv req) s.1 os).map fun (_, w) => (w, s.2)

/-- The stored secret of an app is the hash of the secret that was shown last, which was generated
from 32 bytes. -/
def Shown (s : HookState) : Prop :=
  ∀ appID secret, s.2 appID = some secret →
    s.1.secret? appID = .ok (hashSecret secret) ∧ secret.length = 44

/-! ## What is stored -/

variable {w w' : HookWorld} {o : HookChoice}

lemma secret?_congr {appID : String} (h : w'.kv "webhooks" appID = w.kv "webhooks" appID) :
    w'.secret? appID = w.secret? appID := by
  rw [HookWorld.secret?, HookWorld.secret?, h]

def LeavesSecrets : HookCall → Prop
  | .kvSet bucket _ _ _ => bucket ≠ "webhooks"
  | _ => True

lemma secrets_of_leaves {c : HookCall} {r : HookAnswer c} (hc : LeavesSecrets c)
    (h : hookExec c w o = some (r, w')) : w'.kv "webhooks" = w.kv "webhooks" := by
  cases (effects_of_hookExec h).2.1 with
  | none hkv => rw [hkv]
  | set hkv =>
    funext k
    rw [hkv]
    exact set_of_ne _ _ _ _ (.inl (Ne.symm hc))

lemma secrets_of_kvSet {appID : String} {record : WebhookSecretRecord} {r : Except String Unit}
    (h : hookExec (.kvSet "webhooks" appID (.secret record) 0) w o = some (r, w')) :
    (∃ e, r = .error e ∧ w'.kv "webhooks" = w.kv "webhooks") ∨ (r = .ok () ∧
      w'.kv "webhooks" = update (w.kv "webhooks") appID (some ⟨.secret record, 0⟩)) := by
  obtain ⟨e, -, rfl, rfl⟩ | ⟨-, rfl, rfl⟩ := attempt_eq_some h
  · exact .inl ⟨e, rfl, rfl⟩
  refine .inr ⟨rfl, funext fun k => ?_⟩
  rcases eq_or_ne k appID with rfl | hne
  · rw [update_self]
    exact set_self ..
  · rw [update_of_ne hne]
    exact set_of_ne _ _ _ _ (.inr hne)

lemma wp_persistSecret (kv : Bool) (appID secret : String) (w : HookWorld) :
    Wp hookExec (persistSecret kv appID secret) (fun answer w' =>
      (∃ e, answer = .error e ∧ w'.kv "webhooks" = w.kv "webhooks") ∨ (answer = .ok () ∧
        ∃ record, record.secretHash = hashSecret secret ∧
          w'.kv "webhooks" = update (w.kv "webhooks") appID (some ⟨.secret record, 0⟩))) w := by
  simp only [persistSecret, Hooks.kvGet, Hooks.now, Prog.perform_bind]
  split
  · exact .inl ⟨_, rfl, rfl⟩
  intro o answer w1 hget
  have hw1 := secrets_of_leaves (c := .kvGet webhookSecretsBucket appID) trivial hget
  dsimp only
  split
  case h_1 => exact .inl ⟨_, rfl, hw1⟩
  case h_2 record _ =>
    intro o2 now w2 hnow o3 answer w3 hset
    have hw2 := (secrets_of_leaves (c := .now) trivial hnow).trans hw1
    obtain ⟨e, rfl, hw3⟩ | ⟨rfl, hw3⟩ := secrets_of_kvSet hset
    · exact .inl ⟨e, rfl, hw3.trans hw2⟩
    · exact .inr ⟨rfl, _, rfl, hw2 ▸ hw3⟩

lemma wp_rotate (kv events : Bool) (appID : String) (drawn : List UInt8) (w : HookWorld) :
    Wp hookExec (rotate kv events appID drawn) (fun answer w' =>
      (∃ e, answer = .error e ∧ w'.kv "webhooks" = w.kv "webhooks") ∨
        (answer = .ok (generateSecret drawn) ∧
          ∃ record, record.secretHash = hashSecret (generateSecret drawn) ∧
            w'.kv "webhooks" = update (w.kv "webhooks") appID (some ⟨.secret record, 0⟩)))
      w := by
  unfold rotate
  rw [wp_bind]
  refine (wp_persistSecret kv appID (generateSecret drawn) w).mono ?_
  rintro answer w1 (⟨e, rfl, hw1⟩ | ⟨rfl, hw1⟩)
  · exact .inl ⟨_, rfl, hw1⟩
  dsimp only
  split
  · intro o _ w2 hpublish
    have hw2 := secrets_of_leaves (c := .publish (.rotated appID)) trivial hpublish
    exact .inr ⟨rfl, by rw [hw2]; exact hw1⟩
  · exact .inr ⟨rfl, hw1⟩

/-! ## Runs -/

variable {recv : Receiver} {s s' : HookState} {a : HookAction}

lemma length_hashSecret : (hashSecret secret).length = 64 := by
  simp [hashSecret]

lemma hashSecret_ne_empty : hashSecret secret ≠ "" := by
  intro h
  have hlength := length_hashSecret secret
  rw [h] at hlength
  cases hlength

lemma shown_step (hs : Shown s) (hstep : hookStep recv s a = some s') : Shown s' := by
  cases a with
  | deliver req os =>
    obtain ⟨⟨reply, w⟩, hrun, rfl⟩ := map_eq_some_iff.mp hstep
    have hcalls : AllCalls LeavesSecrets (handleWebhook recv req) :=
      allCalls_handleWebhook (fun _ => trivial)
        (fun _ => (by decide : webhookDedupBucket ≠ "webhooks")) trivial fun _ => trivial
    have hkept : w.kv "webhooks" = s.1.kv "webhooks" :=
      of_solo (Q := fun _ w => w.kv "webhooks" = s.1.kv "webhooks")
        (hcalls.wp (I := fun w => w.kv "webhooks" = s.1.kv "webhooks")
          (fun c w o r w' hc hw hexec => (secrets_of_leaves hc hexec).trans hw) rfl) hrun
    intro appID secret hshown
    rw [secret?_congr (congrFun hkept appID)]
    exact hs appID secret hshown
  | rotate appID drawn hdrawn os =>
    obtain ⟨⟨answer, w⟩, hrun, hs'⟩ := map_eq_some_iff.mp hstep
    obtain ⟨e, rfl, hw⟩ | ⟨rfl, record, hhash, hw⟩ :=
      of_solo (wp_rotate recv.kv recv.events appID drawn s.1) hrun
    · obtain rfl : (w, s.2) = s' := hs'
      intro appID' secret hshown
      rw [secret?_congr (congrFun hw appID')]
      exact hs appID' secret hshown
    obtain rfl : (w, update s.2 appID (some (generateSecret drawn))) = s' := hs'
    intro appID' secret hshown
    dsimp only at hshown ⊢
    rcases eq_or_ne appID' appID with rfl | hne
    · rw [update_self] at hshown
      cases hshown
      have hrow : w.kv "webhooks" appID' = some ⟨.secret record, 0⟩ := by
        rw [hw, update_self]
      refine ⟨?_, ?_⟩
      · simp only [HookWorld.secret?, hrow, HookValue.secret?, hhash]
        exact if_neg (hashSecret_ne_empty _)
      · rw [generateSecret, length_base64URL, hdrawn]
    · rw [update_of_ne hne] at hshown
      have hrow : w.kv "webhooks" appID' = s.1.kv "webhooks" appID' := by
        rw [hw, update_of_ne hne]
      rw [secret?_congr hrow]
      exact hs appID' secret hshown

/-- The delivery is authenticated by a signing provider with the secret: the body is signed with it,
or it is sent as the token. -/
def AuthenticatedWith (bytes : List UInt8) (r : Headers) : Prop :=
  (detectProvider r).signs = true ∧ Proves secret bytes r
  deriving Decidable

/-- The receiver, keyed with the hash, expects the signature that the provider has made with the
secret; no token will do. -/
def HashServes (bytes : List UInt8) (r : Headers) : Prop :=
  detectProvider r ≠ .gitlab ∧
    signPayload (bytes.take maxBody) (hashSecret secret) = signPayload bytes secret

/-- Under the hash, the delivery proves what it proves with the secret exactly when the signatures
agree. -/
lemma proves_hashSecret_iff {secret : String} {bytes : List UInt8} {r : Headers}
    (hlength : secret.length = 44) (hauth : AuthenticatedWith secret bytes r) :
    Proves (hashSecret secret) (bytes.take maxBody) r ↔ HashServes secret bytes r := by
  obtain ⟨hsigns, hproves⟩ := hauth
  unfold Proves at hproves ⊢
  unfold HashServes
  cases hprovider : detectProvider r with
  | github =>
    rw [hprovider] at hproves
    rw [hproves, String.append_right_inj]
    simp [eq_comm]
  | gitlab =>
    rw [hprovider] at hproves
    refine iff_of_false (fun htoken => ?_) (fun h => h.1 rfl)
    have := length_hashSecret secret
    rw [← htoken, hproves, hlength] at this
    cases this
  | gitea | gogs =>
    rw [hprovider] at hproves
    rw [hproves]
    simp [eq_comm]
  | bitbucket | generic => simp [hprovider, Provider.signs] at hsigns

/-- **When a delivery that is authenticated with the shown secret passes**: for GitHub, Gitea and
Gogs when the hash of the secret happens to give the signature of the secret, for GitLab never. -/
theorem rotated_passes_iff (recv : Receiver) (w0 w' : HookWorld) (as : List HookAction) (s : HookState)
    (appID secret : String) (bytes : List UInt8) (r : Headers) (o : HookChoice)
    (os : List HookChoice) (reply : HookReply) (hkv : recv.kv = true) (hid : appID ≠ "")
    (hrun : run (hookStep recv) (w0, fun _ => none) as = some s) (hshown : s.2 appID = some secret)
    (hauth : AuthenticatedWith secret bytes r) (ho : o.fails = none)
    (hdelivery : solo hookExec (handleWebhook recv ⟨appID, .ok bytes, r⟩) s.1 (o :: os) =
      some (reply, w')) :
    reply.passed = true ↔ HashServes secret bytes r := by
  have hstart : Shown (w0, fun _ => none) := nofun
  obtain ⟨hsecret, hlength⟩ :=
    invariant_of_run (fun _ _ _ hs hstep => shown_step hs hstep) hstart hrun appID secret hshown
  rw [handleWebhook_passed_iff hkv hid hsecret ho hdelivery,
    or_iff_left (not_unsigned_of_signs hauth.1)]
  exact proves_hashSecret_iff hlength hauth

def shownSecret : String := "AAAAAAAAAAAAAAAAAAAAAAAAAAAAAAAAAAAAAAAAAAA="

def oneRotation : List HookAction :=
  [.rotate "app1" (List.replicate 32 0) (by decide) [{}, {}, {}, {}]]

/-- Deliveries of the body `{}`, authenticated with that secret by GitHub and by GitLab. -/
def fromGitHub : Headers
  | .gitHubEvent => "push"
  | .hubSignature256 => "sha256=063c647e6ad0db1995d5fab7d13930f96886a86f214ebb4f38c660ee59d6dd98"
  | .gitHubDelivery => "d1"
  | _ => ""

def fromGitLab : Headers
  | .gitlabEvent => "Push Hook"
  | .gitlabToken => shownSecret
  | _ => ""

def emptyStore : HookWorld where
  now := 0
  kv := fun _ _ => none
  published := []

theorem rotated_passes_iff_fromGitLab : ∃ s reply w',
    run (hookStep smallReceiver) (emptyStore, fun _ => none) oneRotation = some s ∧
      solo hookExec (handleWebhook smallReceiver ⟨"app1", .ok emptyObject, fromGitLab⟩) s.1 [{}] =
        some (reply, w') ∧
      (reply.passed = true ↔ HashServes shownSecret emptyObject fromGitLab) := by
  obtain ⟨s, hrun, hshown, ⟨reply, w'⟩, hdelivery⟩ : ∃ s,
      run (hookStep smallReceiver) (emptyStore, fun _ => none) oneRotation = some s ∧
        s.2 "app1" = some shownSecret ∧ ∃ x, solo hookExec
          (handleWebhook smallReceiver ⟨"app1", .ok emptyObject, fromGitLab⟩) s.1 [{}] = some x := by
    decide +kernel
  exact ⟨s, reply, w', hrun, hdelivery, rotated_passes_iff _ _ w' _ s _ _ _ _ {} [] _ rfl (by
    decide) hrun hshown (by decide +kernel) rfl hdelivery⟩

/-- **A delivery that GitHub signs with the shown secret is refused.** -/
theorem fromGitHub_refused : ∃ s,
    run (hookStep smallReceiver) (emptyStore, fun _ => none) oneRotation = some s ∧
      s.2 "app1" = some shownSecret ∧ AuthenticatedWith shownSecret emptyObject fromGitHub ∧
      ∃ w', solo hookExec (handleWebhook smallReceiver ⟨"app1", .ok emptyObject, fromGitHub⟩) s.1 [{}] =
        some (.invalidSignature, w') := by
  decide +kernel

end DeployMonster.Handlers.WebhookRotate
