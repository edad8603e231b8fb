import DeployMonster.Billing.StripeWebhook

/-!
# Replays of a Stripe event

`Handle` looks the id of an event up, dispatches the event and marks the id. Deliveries of one event
that are handled together may both look the id up before either marks it.
-/

namespace DeployMonster.Billing.Replay

open Program StepMachine List Option Pool Prog

/-- What a delivery does to the outside: the tenant is written, or an internal event is emitted. -/
inductive Effect
  | tenantUpdate | subscriptionUpdated | subscriptionCanceled | invoiceGenerated | paymentReceived
  | paymentFailed | checkoutCompleted
  deriving DecidableEq

def effectOf : BillingEvent → Effect
  | .subscriptionUpdated .. => .subscriptionUpdated
  | .subscriptionCanceled .. => .subscriptionCanceled
  | .invoiceGenerated .. => .invoiceGenerated
  | .paymentReceived .. => .paymentReceived
  | .paymentFailed .. => .paymentFailed
  | .checkoutCompleted .. => .checkoutCompleted

variable (event : BillingEvent)

lemma effectOf_ne_tenantUpdate : effectOf event ≠ .tenantUpdate := by
  cases event <;> exact nofun

/-- The effect of a call that was answered with `r`: a failed write has none. -/
def effect? : (c : StripeCall) → StripeAnswer c → Option Effect
  | .updateTenant _, .ok () => some .tenantUpdate
  | .emit event, _ => some (effectOf event)
  | _, _ => none

/-- The world of the handler, and what was observed so far: the effects with the id of the event
that had them, and the marks with their times. -/
structure Observed where
  world : BillingWorld
  effects : List (String × Effect) := []
  marks : List (String × ℤ) := []

/-- The calls of a delivery are labelled with the id of its event. -/
abbrev LabelledCall := String × StripeCall

abbrev HandlerProg := Prog LabelledCall (fun c => StripeAnswer c.2) Handled

abbrev State := Observed × List HandlerProg

def marksOf (id : String) : StripeCall → ℤ → List (String × ℤ)
  | .markProcessed _, now => [(id, now)]
  | _, _ => []

lemma marksOf_of_ne {id : String} {c : StripeCall} {now : ℤ} (hc : ∀ e, c ≠ .markProcessed e) :
    marksOf id c now = [] := by
  cases c with
  | markProcessed e => exact absurd rfl (hc e)
  | _ => rfl

def observedExec (seenTTL : ℤ) (c : LabelledCall) (s : Observed) (o : StripeChoice) :
    Option (StripeAnswer c.2 × Observed) :=
  (stripeExec seenTTL c.2 s.world o).map fun (r, w) =>
    (r, { world := w
          effects := s.effects ++ ((effect? c.2 r).map (c.1, ·)).toList
          marks := s.marks ++ marksOf c.1 c.2 w.now })

def Observed.effectsOf (s : Observed) (id : String) : List Effect :=
  s.effects.filterMap fun e => if e.1 = id then some e.2 else none

/-- The id of the event that a request delivers; empty when it cannot be decoded. -/
def eventID (d : Delivery) : String :=
  match d.envelope with
  | .ok env => env.id
  | .error _ => ""

def start (h : StripeEventHandler) (ds : List Delivery) (w : BillingWorld) : State :=
  ({ world := w }, ds.map fun d => (handle h d).label (eventID d))

def LooksUp (id : String) (s : State) (i : ℕ) : Prop :=
  ∃ p ∈ s.2[i]?, p.next? = some (id, .alreadyProcessed id)
  deriving Decidable

/-- The event is looked up while no delivery of it is between its lookup and its mark. -/
def Serialized (id : String) (s : State) (a : ℕ × StripeChoice) : Prop :=
  LooksUp id s a.1 → ∀ p ∈ s.2, ∀ c ∈ p.next?, c.1 = id → c.2 = .alreadyProcessed id
  deriving Decidable

def Retained (seenTTL : ℤ) (id : String) (s : State) (a : ℕ × StripeChoice) : Prop :=
  LooksUp id s a.1 → ∀ m ∈ s.1.marks, m.1 = id → 0 < seenTTL →
    s.1.world.now + a.2.elapsed - seenTTL ≤ m.2
  deriving Decidable

/-! ## The protocol of a delivery -/

/-- How far a delivery has come: before its lookup, dispatched with the effects so far, or marked or
suppressed. -/
inductive Stage
  | waiting
  | dispatching (effects : List Effect)
  | finished

/-- How a call moves a delivery of the event `id` on. -/
inductive Next (id : String) : Stage → (c : StripeCall) → StripeAnswer c → Stage → Prop
  | suppress : Next id .waiting (.alreadyProcessed id) true .finished
  | pass : Next id .waiting (.alreadyProcessed id) false (.dispatching [])
  | idle {es : List Effect} {c : StripeCall} {r : StripeAnswer c}
      (hlookup : ∀ id, c ≠ .alreadyProcessed id) (hmark : ∀ id, c ≠ .markProcessed id)
      (heffect : effect? c r = none) : Next id (.dispatching es) c r (.dispatching es)
  | act {es : List Effect} {c : StripeCall} {r : StripeAnswer c} {e : Effect}
      (heffect : effect? c r = some e) (hnew : e ∉ es) :
      Next id (.dispatching es) c r (.dispatching (es ++ [e]))
  | mark {es : List Effect} : Next id (.dispatching es) (.markProcessed id) () .finished

/-- What a delivery may return at each stage. A dispatch that has failed had no effect. -/
def Done (id : String) : Stage → Handled → Prop
  | .waiting, result => result ≠ .ok ()
  | .dispatching es, result => id ≠ "" → es = [] ∧ result ≠ .ok ()
  | .finished, result => result = .ok ()

/-- What a handler of an event type may return: when it fails it had no effect. -/
def Dispatched : Stage → Handled → Prop
  | .dispatching es, result => result = .ok () ∨ es = []
  | _, _ => False

variable {h : StripeEventHandler} {env : Envelope} {id : String} {es : List Effect}

lemma follows_emit {α : Type} {done : Stage → α → Prop}
    (hnew : effectOf event ∉ es) {f : Unit → Stripe α}
    (hf : ∀ es', es' = es ∨ es' = es ++ [effectOf event] →
      Follows (Next id) done (f ()) (.dispatching es')) :
    Follows (Next id) done (emit h event >>= f) (.dispatching es) := by
  unfold emit
  split
  · exact fun _ => ⟨_, .act rfl hnew, hf _ (.inr rfl)⟩
  · exact hf _ (.inl rfl)

variable (tenantID : String)

lemma follows_changeTenant (change : StripeMetadata → ℤ → StripeMetadata)
    (plan : StripeMetadata → Option Plan) (event : Tenant → StripeMetadata → BillingEvent) :
    Follows (Next id) Dispatched (changeTenant h tenantID change plan event) (.dispatching []) := by
  simp only [changeTenant, loadTenant, Stripe.getTenant, Stripe.now, perform_bind, call_bind]
  intro r
  refine ⟨_, .idle nofun nofun rfl, ?_⟩
  rcases r with e | tenant
  · exact .inr rfl
  dsimp only
  cases getStripeMetadata tenant with
  | error e => exact .inr rfl
  | ok md =>
    intro now
    refine ⟨_, .idle nofun nofun rfl, ?_⟩
    simp only [saveTenant, Stripe.updateTenant, perform_bind]
    split
    case h_1 => exact .inr rfl
    case h_2 saved _ =>
      rintro (e | ⟨⟩)
      · exact ⟨_, .idle nofun nofun rfl, .inr rfl⟩
      refine ⟨_, .act rfl not_mem_nil, ?_⟩
      refine follows_emit _ ?_ fun es' _ => .inl rfl
      simpa using effectOf_ne_tenantUpdate _

lemma follows_notePayment (note : StripeMetadata → ℤ → StripeMetadata) :
    Follows (Next id) (fun g result => ∃ es, g = .dispatching es ∧ es ⊆ [.tenantUpdate] ∧
      (result = .ok () ∨ es = [])) (notePayment tenantID note) (.dispatching []) := by
  simp only [notePayment, Stripe.getTenant, Stripe.now, Stripe.updateTenant, perform_bind]
  split
  · exact ⟨[], rfl, nil_subset _, .inr rfl⟩
  intro r
  refine ⟨_, .idle nofun nofun rfl, ?_⟩
  rcases r with e | tenant
  · exact ⟨[], rfl, nil_subset _, .inr rfl⟩
  dsimp only
  cases getStripeMetadata tenant with
  | error e => exact ⟨[], rfl, nil_subset _, .inr rfl⟩
  | ok md =>
    intro now
    refine ⟨_, .idle nofun nofun rfl, ?_⟩
    dsimp only
    split
    · exact ⟨[], rfl, nil_subset _, .inr rfl⟩
    · exact ⟨[], rfl, nil_subset _, .inr rfl⟩
    rintro (e | ⟨⟩)
    · exact ⟨_, .idle nofun nofun rfl, [], rfl, nil_subset _, .inr rfl⟩
    · exact ⟨_, .act rfl not_mem_nil, _, rfl, List.Subset.refl _, .inl rfl⟩

lemma follows_handleInvoicePaid :
    Follows (Next id) Dispatched (handleInvoicePaid h env) (.dispatching []) := by
  unfold handleInvoicePaid
  split
  case h_1 => exact .inr rfl
  case h_2 inv _ =>
    refine (follows_notePayment _ _).bind ?_
    rintro _ result ⟨es, rfl, hes, hresult⟩
    cases result with
    | error e => exact .inr (hresult.resolve_left nofun)
    | ok =>
      refine follows_emit _ (fun hmem => ?_) fun es' hes' => ?_
      · cases mem_singleton.mp (hes hmem)
      refine follows_emit _ (fun hmem => ?_) fun _ _ => .inl rfl
      rcases hes' with rfl | rfl
      · cases mem_singleton.mp (hes hmem)
      · rcases mem_append.mp hmem with hmem | hmem
        · cases mem_singleton.mp (hes hmem)
        · cases mem_singleton.mp hmem

lemma follows_handleInvoicePaymentFailed :
    Follows (Next id) Dispatched (handleInvoicePaymentFailed h env) (.dispatching []) := by
  unfold handleInvoicePaymentFailed
  split
  case h_1 => exact .inr rfl
  case h_2 inv _ =>
    refine (follows_notePayment _ _).bind ?_
    rintro _ result ⟨es, rfl, hes, hresult⟩
    cases result with
    | error e => exact .inr (hresult.resolve_left nofun)
    | ok =>
      refine follows_emit _ (fun hmem => ?_) fun _ _ => .inl rfl
      cases mem_singleton.mp (hes hmem)

lemma follows_dispatch (type : EventType) :
    Follows (Next id) Dispatched (dispatch h env type) (.dispatching []) := by
  cases type with
  | subscriptionCreated | subscriptionUpdated =>
    simp only [dispatch, handleSubscriptionUpdated]
    split
    · exact .inr rfl
    split
    · exact .inr rfl
    · split
      · exact .inr rfl
      · exact follows_changeTenant _ _ _ _
  | subscriptionDeleted =>
    simp only [dispatch, handleSubscriptionCanceled]
    split
    · exact .inr rfl
    · split
      · exact .inr rfl
      · exact follows_changeTenant _ _ _ _
  | invoicePaid => exact follows_handleInvoicePaid
  | invoicePaymentFailed => exact follows_handleInvoicePaymentFailed
  | paymentIntentSucceeded =>
    simp only [dispatch, handlePaymentIntentSucceeded]
    split
    · exact .inr rfl
    · exact follows_emit _ not_mem_nil fun _ _ => .inl rfl
  | checkoutSessionCompleted =>
    simp only [dispatch, handleCheckoutCompleted]
    split
    · exact .inr rfl
    · exact follows_emit _ not_mem_nil fun _ _ => .inl rfl
  | unhandled => exact .inr rfl

lemma follows_process (type : EventType) :
    Follows (Next env.id) (Done env.id) (process h env type) (.dispatching []) := by
  refine (follows_dispatch type).bind ?_
  intro g result hg
  match g, hg with
  | .dispatching es, hg =>
    cases result with
    | error e => exact fun _ => ⟨hg.resolve_left nofun, nofun⟩
    | ok =>
      dsimp only
      split
      case isTrue => exact fun _ => ⟨_, .mark, rfl⟩
      case isFalse hid => exact fun hne => absurd hne hid

lemma follows_handleEvent (hid : env.id ≠ "") :
    Follows (Next env.id) (Done env.id) (handleEvent h env) .waiting := by
  cases htype : env.type with
  | none =>
    simp only [handleEvent, htype]
    rintro ⟨⟩
  | some type =>
    rw [handleEvent_eq htype hid]
    rintro (_ | _)
    · exact ⟨_, .pass, follows_process type⟩
    · exact ⟨_, .suppress, rfl⟩

/-- The stage of a delivery before it is handled. An event without an id is not looked up. -/
def Stage.initial (id : String) : Stage := if id = "" then .dispatching [] else .waiting

lemma follows_handle (h : StripeEventHandler) (d : Delivery) :
    Follows (Next (eventID d)) (Done (eventID d)) (handle h d) (.initial (eventID d)) := by
  have hrefused (e : StripeError) : Done (eventID d) (.initial (eventID d)) (.error e) := by
    unfold Stage.initial
    split
    case isTrue hid => exact fun hne => absurd hid hne
    case isFalse => exact nofun
  unfold handle
  split
  case isFalse => exact hrefused _
  case isTrue =>
    split
    case h_1 => exact hrefused _
    case h_2 env henv =>
      have heventID : eventID d = env.id := by simp [eventID, henv]
      rw [heventID] at hrefused ⊢
      by_cases hid : env.id = ""
      · cases htype : env.type with
        | none =>
          simp only [handleEvent, htype]
          exact hrefused _
        | some type =>
          rw [handleEvent_of_no_id htype hid, Stage.initial, if_pos hid]
          exact follows_process type
      · rw [Stage.initial, if_neg hid]
        exact follows_handleEvent hid

/-! ## What the calls do to the observations -/

variable {seenTTL : ℤ} {s s' : Observed} {o : StripeChoice} {w' : BillingWorld}

lemma now_of_stripeExec {c : StripeCall} {w : BillingWorld} {r : StripeAnswer c}
    (h : stripeExec seenTTL c w o = some (r, w')) : w'.now = w.now + o.elapsed := by
  cases c with
  | getTenant => rw [(stripeExec_getTenant h).1]; rfl
  | updateTenant =>
    obtain ⟨e, -, -, rfl⟩ | ⟨-, -, rfl⟩ := attempt_eq_some h <;> rfl
  | _ =>
    cases h
    rfl

lemma seen_of_stripeExec {c : StripeCall} {w : BillingWorld} {r : StripeAnswer c}
    (hc : ∀ e, c ≠ .markProcessed e) (h : stripeExec seenTTL c w o = some (r, w')) :
    w'.seen = w.seen ∨ w'.seen = ((w.wait o.elapsed).sweep seenTTL).seen := by
  cases c with
  | now | emit =>
    cases h
    exact .inl rfl
  | alreadyProcessed e =>
    cases h
    exact .inr rfl
  | markProcessed e => exact absurd rfl (hc e)
  | getTenant => exact .inl (by rw [(stripeExec_getTenant h).1]; rfl)
  | updateTenant =>
    obtain ⟨e, -, -, rfl⟩ | ⟨-, -, rfl⟩ := attempt_eq_some h <;> exact .inl rfl

lemma seen_of_markProcessed {e : String} {w : BillingWorld} {r : Unit}
    (h : stripeExec seenTTL (.markProcessed e) w o = some (r, w')) (id : String) :
    w'.seen id =
      if id = e then some w'.now else ((w.wait o.elapsed).sweep seenTTL).seen id := by
  cases h
  rfl

lemma sweep_seen_of_retained {w : BillingWorld} {t ts : ℤ} (hseen : w.seen id = some ts)
    (hts : t ≤ ts) (ht : 0 < seenTTL → w.now - seenTTL ≤ t) :
    (w.sweep seenTTL).seen id = some ts := by
  simp only [BillingWorld.sweep, hseen]
  split
  · rfl
  rename_i hpos
  have := ht (by omega)
  simp only [filter_some, decide_eq_true_eq]
  rw [if_pos (by omega)]

variable {c : LabelledCall} {r : StripeAnswer c.2}

lemma observedExec_eq_some (h : observedExec seenTTL c s o = some (r, s')) :
    stripeExec seenTTL c.2 s.world o = some (r, s'.world) ∧
      s'.effects = s.effects ++ ((effect? c.2 r).map (c.1, ·)).toList ∧
      s'.marks = s.marks ++ marksOf c.1 c.2 s'.world.now := by
  obtain ⟨⟨r', w⟩, hexec, hs'⟩ := map_eq_some_iff.mp h
  cases hs'
  exact ⟨hexec, rfl, rfl⟩

lemma effectsOf_of_observedExec (id : String) (h : observedExec seenTTL c s o = some (r, s')) :
    s'.effectsOf id = s.effectsOf id ++ if c.1 = id then (effect? c.2 r).toList else [] := by
  rw [Observed.effectsOf, (observedExec_eq_some h).2.1, filterMap_append]
  congr 1
  cases effect? c.2 r with
  | none => simp
  | some e => by_cases hc : c.1 = id <;> simp [hc]

/-- The id of the event is remembered for as long as a mark of it is retained. -/
def Remembered (seenTTL : ℤ) (id : String) (s : Observed) : Prop :=
  ∀ m ∈ s.marks, m.1 = id → m.2 ≤ s.world.now ∧
    ((0 < seenTTL → s.world.now - seenTTL ≤ m.2) → ∃ ts, s.world.seen id = some ts ∧ m.2 ≤ ts)

lemma Remembered.exec (hrem : Remembered seenTTL id s)
    (hlabel : ∀ e, c.2 = .markProcessed e → e = c.1)
    (h : observedExec seenTTL c s o = some (r, s')) : Remembered seenTTL id s' := by
  obtain ⟨hexec, -, hmarks⟩ := observedExec_eq_some h
  have hnow : s'.world.now = s.world.now + o.elapsed := now_of_stripeExec hexec
  have hkept (m) (hm : m ∈ s.marks) (hid : m.1 = id)
      (hret : 0 < seenTTL → s'.world.now - seenTTL ≤ m.2) :
      ∃ ts, s.world.seen id = some ts ∧
        ((s.world.wait o.elapsed).sweep seenTTL).seen id = some ts ∧ m.2 ≤ ts := by
    rw [hnow] at hret
    obtain ⟨ts, hts, hle⟩ := (hrem m hm hid).2 fun hpos => by have := hret hpos; omega
    exact ⟨ts, hts, sweep_seen_of_retained (w := s.world.wait o.elapsed) hts hle hret, hle⟩
  intro m hm hid
  rw [hmarks] at hm
  by_cases hmark : ∃ e, c.2 = .markProcessed e
  case pos =>
    obtain ⟨l, c⟩ := c
    obtain ⟨e, rfl⟩ := hmark
    obtain rfl := hlabel e rfl
    have hseen := seen_of_markProcessed hexec id
    rcases mem_append.mp hm with hm | hm
    · have hle := (hrem m hm hid).1
      refine ⟨by omega, fun hret => ?_⟩
      rw [hseen]
      split
      · exact ⟨_, rfl, by omega⟩
      · obtain ⟨ts, -, hts, hle⟩ := hkept m hm hid hret
        exact ⟨ts, hts, hle⟩
    · obtain rfl := mem_singleton.mp hm
      exact ⟨le_rfl, fun _ => ⟨_, by rw [hseen, if_pos hid.symm], le_rfl⟩⟩
  case neg =>
    have hmark : ∀ e, c.2 ≠ .markProcessed e := fun e he => hmark ⟨e, he⟩
    rw [marksOf_of_ne hmark, append_nil] at hm
    have hle := (hrem m hm hid).1
    refine ⟨by omega, fun hret => ?_⟩
    obtain ⟨ts, hts, hts', hle⟩ := hkept m hm hid hret
    rcases seen_of_stripeExec hmark hexec with heq | heq
    · exact ⟨ts, by rw [heq, hts], hle⟩
    · exact ⟨ts, by rw [heq, hts'], hle⟩

/-! ## The deliveries together -/

/-- The delivery `i` of the event is between its lookup and its mark. -/
def InFlight (id : String) (s : State) (stages : List (String × Stage)) (i : ℕ) (es : List Effect) :
    Prop :=
  stages[i]? = some (id, .dispatching es) ∧ ∃ c k, s.2[i]? = some (.call c k)

/-- At most one delivery of the event is between its lookup and its mark, the effects of the event
are those of this delivery, and no delivery is dispatched after a mark that is retained. -/
structure Once (seenTTL : ℤ) (id : String) (s : State) (stages : List (String × Stage)) : Prop where
  alone : ∀ i j es es', InFlight id s stages i es → InFlight id s stages j es' → i = j
  effects : ∀ i es, InFlight id s stages i es → s.1.effectsOf id = es
  nodup : (s.1.effectsOf id).Nodup
  settled : s.1.effectsOf id ≠ [] →
    (∃ i es, InFlight id s stages i es) ∨ ∃ m ∈ s.1.marks, m.1 = id
  remembered : Remembered seenTTL id s.1

/-- Each delivery keeps to the protocol from its stage on. -/
abbrev Delivers (progs : List HandlerProg) (stages : List (String × Stage)) : Prop :=
  Tracks (Labelled Next) (fun g result => Done g.1 g.2 result) progs stages

variable {s s' : State} {a : ℕ × StripeChoice} {stages : List (String × Stage)} {p p' : HandlerProg}
  {g g' : String × Stage}

lemma nonempty_answer : ∀ c : StripeCall, Nonempty (StripeAnswer c)
  | .now => ⟨(0 : ℤ)⟩
  | .alreadyProcessed _ => ⟨false⟩
  | .markProcessed _ | .emit _ => ⟨()⟩
  | .getTenant _ => ⟨.error ""⟩
  | .updateTenant _ => ⟨.ok ()⟩

lemma InFlight.exists_next (ht : Delivers s.2 stages) {i : ℕ} (hi : InFlight id s stages i es) :
    ∃ p ∈ s.2, ∃ c ∈ p.next?, c.1 = id ∧ c.2 ≠ .alreadyProcessed id := by
  obtain ⟨hstage, c, k, hp⟩ := hi
  obtain ⟨r⟩ := nonempty_answer c.2
  obtain ⟨⟨l', g'⟩, ⟨hlabel, -, hnext⟩, -⟩ := ht.follows i _ _ hp hstage r
  refine ⟨_, mem_of_getElem? hp, c, rfl, hlabel, fun hc => ?_⟩
  obtain ⟨l, c⟩ := c
  cases hnext with
  | idle hlookup => exact hlookup id hc
  | act heffect =>
    obtain rfl : c = _ := hc
    cases heffect
  | mark => cases hc

lemma InFlight.set_of_ne (hs' : s'.2 = s.2.set a.1 p') {i : ℕ}
    (hne : i ≠ a.1) : InFlight id s' (stages.set a.1 g') i es ↔ InFlight id s stages i es := by
  rw [InFlight, InFlight, hs', getElem?_set_ne hne.symm, getElem?_set_ne hne.symm]

lemma Once.frame (ho : Once seenTTL id s stages) (hs' : s'.2 = s.2.set a.1 p')
    (hg : stages[a.1]? = some g) (hbefore : ∀ es, g ≠ (id, .dispatching es))
    (hafter : ∀ es, g' ≠ (id, .dispatching es)) (heffects : s'.1.effectsOf id = s.1.effectsOf id)
    (hmarks : s.1.marks ⊆ s'.1.marks) (hrem : Remembered seenTTL id s'.1) :
    Once seenTTL id s' (stages.set a.1 g') := by
  have hne {i : ℕ} {es : List Effect} (hi : InFlight id s stages i es) : i ≠ a.1 := by
    rintro rfl
    exact hbefore es (some.inj (hg.symm.trans hi.1))
  have hold {i : ℕ} {es : List Effect} (hi : InFlight id s' (stages.set a.1 g') i es) :
      InFlight id s stages i es := by
    rcases eq_or_ne i a.1 with rfl | hne
    · exact absurd (some.inj ((getElem?_set_self hg g').symm.trans hi.1)) (hafter es)
    · exact (InFlight.set_of_ne hs' hne).mp hi
  constructor
  case alone => exact fun i j es es' hi hj => ho.alone i j es es' (hold hi) (hold hj)
  case effects => exact fun i es hi => heffects.trans (ho.effects i es (hold hi))
  case nodup => exact heffects ▸ ho.nodup
  case settled =>
    intro hsome
    rcases ho.settled (heffects ▸ hsome) with ⟨i, es, hi⟩ | ⟨m, hm, hid⟩
    · exact .inl ⟨i, es, (InFlight.set_of_ne hs' (hne hi)).mpr hi⟩
    · exact .inr ⟨m, hmarks hm, hid⟩
  case remembered => exact hrem

lemma Once.only (hid : id ≠ "") (ht' : Delivers s'.2 (stages.set a.1 g'))
    (hs' : s'.2 = s.2.set a.1 p') (hi : s.2[a.1]? = some p) (hg : stages[a.1]? = some g)
    (halone : ∀ i es, InFlight id s stages i es → i = a.1) (hnodup : (s'.1.effectsOf id).Nodup)
    (hg' : g' = (id, .dispatching (s'.1.effectsOf id)) ∨
      g' = (id, .finished) ∧ ∃ m ∈ s'.1.marks, m.1 = id)
    (hrem : Remembered seenTTL id s'.1) : Once seenTTL id s' (stages.set a.1 g') := by
  have hstage := getElem?_set_self hg g'
  have hprog : s'.2[a.1]? = some p' := by rw [hs', getElem?_set_self hi]
  have hself {i : ℕ} {es : List Effect} (hi : InFlight id s' (stages.set a.1 g') i es) :
      i = a.1 := by
    by_contra hne
    exact hne (halone i es ((InFlight.set_of_ne hs' hne).mp hi))
  constructor
  case alone => exact fun i j es es' hi hj => (hself hi).trans (hself hj).symm
  case effects =>
    intro i es hi
    obtain rfl := hself hi
    cases hstage.symm.trans hi.1
    rcases hg' with hg' | ⟨hg', -⟩
    · exact (Stage.dispatching.inj (Prod.mk.inj hg').2).symm
    · cases hg'
  case nodup => exact hnodup
  case settled =>
    intro hsome
    rcases hg' with rfl | ⟨-, hmark⟩
    · cases hp' : p' with
      | call c' k' => exact .inl ⟨a.1, _, hstage, c', k', hp' ▸ hprog⟩
      | ret result =>
        have hdone := ht'.follows a.1 _ _ hprog hstage
        rw [hp'] at hdone
        exact absurd (hdone hid).1 hsome
    · exact .inr hmark
  case remembered => exact hrem

lemma Next.of_mark {e : String} {g g' : Stage} {r : Unit}
    (h : Next id g (.markProcessed e) r g') : e = id ∧ g' = .finished := by
  cases h with
  | idle _ hmark => exact absurd rfl (hmark e)
  | act heffect => cases heffect
  | mark => exact ⟨rfl, rfl⟩

lemma Once.fresh (ho : Once seenTTL id s stages) (ht : Delivers s.2 stages)
    {k : Bool → HandlerProg} (hi : s.2[a.1]? = some (.call (id, .alreadyProcessed id) k))
    (hser : Serialized id s a) (hret : Retained seenTTL id s a)
    (hexec : observedExec seenTTL (id, .alreadyProcessed id) s.1 a.2 = some (false, s'.1)) :
    (∀ i es, ¬ InFlight id s stages i es) ∧ s.1.effectsOf id = [] := by
  have hlooks : LooksUp id s a.1 := ⟨_, hi, rfl⟩
  have hnone : ∀ i es, ¬ InFlight id s stages i es := by
    intro i es hflight
    obtain ⟨p, hp, c, hc, hlabel, hne⟩ := hflight.exists_next ht
    exact hne (hser hlooks p hp c hc hlabel)
  refine ⟨hnone, by_contra fun hsome => ?_⟩
  rcases ho.settled hsome with ⟨i, es, hflight⟩ | ⟨m, hm, hid⟩
  · exact hnone i es hflight
  have hretained := hret hlooks m hm hid
  obtain ⟨hanswer, hworld⟩ := answer_inj (observedExec_eq_some hexec).1
  obtain ⟨ts, hts, hle⟩ := (ho.remembered m hm hid).2 fun hpos => by
    have := hretained hpos
    omega
  have hkept := sweep_seen_of_retained (w := s.1.world.wait a.2.elapsed) hts hle hretained
  rw [hkept] at hanswer
  cases hanswer

/-- Every step keeps the invariant when lookups of the event are serialized and within the
retention. -/
lemma once_step (hid : id ≠ "") (ho : Once seenTTL id s stages) (ht : Delivers s.2 stages)
    (hser : Serialized id s a) (hret : Retained seenTTL id s a)
    (hstep : poolStep (observedExec seenTTL) s a = some s') :
    ∃ stages', Delivers s'.2 stages' ∧ Once seenTTL id s' stages' := by
  obtain ⟨l, c, k, r, g, g', hi, hg, hexec, hs', hnext, -, ht'⟩ := ht.step_labelled hstep
  refine ⟨_, ht', ?_⟩
  have heffects := effectsOf_of_observedExec id hexec
  have hmarks := (observedExec_eq_some hexec).2.2
  have hrem : Remembered seenTTL id s'.1 := ho.remembered.exec
    (fun e he => by obtain rfl : c = _ := he; exact hnext.of_mark.1) hexec
  by_cases hl : l = id
  case neg =>
    rw [if_neg hl, append_nil] at heffects
    exact ho.frame hs' hg (fun _ h => hl (Prod.mk.inj h).1) (fun _ h => hl (Prod.mk.inj h).1) heffects
      (hmarks ▸ subset_append_left _ _) hrem
  case pos =>
    subst hl
    rw [if_pos rfl] at heffects
    cases hnext with
    | suppress =>
      refine ho.frame hs' hg nofun nofun ?_ ?_ hrem
      · rw [heffects]
        exact append_nil _
      · exact hmarks ▸ subset_append_left _ _
    | pass =>
      obtain ⟨hnone, hnil⟩ := ho.fresh ht hi hser hret hexec
      have hnil' : s'.1.effectsOf l = [] := by
        rw [heffects, hnil]
        rfl
      refine Once.only hid ht' hs' hi hg (fun i es hflight => absurd hflight (hnone i es)) ?_ ?_ hrem
      · exact hnil' ▸ nodup_nil
      · exact .inl (by rw [hnil'])
    | @idle es _ _ hlookup hmark heffect =>
      have hflight : InFlight l s stages a.1 es := ⟨hg, _, k, hi⟩
      have hsame : s'.1.effectsOf l = es := by
        rw [heffects, heffect, ho.effects _ _ hflight]
        exact append_nil _
      refine Once.only hid ht' hs' hi hg (fun i es' hi' => ho.alone _ _ _ _ hi' hflight) ?_ ?_ hrem
      · exact hsame ▸ ho.effects _ _ hflight ▸ ho.nodup
      · exact .inl (by rw [hsame])
    | @act es _ _ e heffect hnew =>
      have hflight : InFlight l s stages a.1 es := ⟨hg, _, k, hi⟩
      have hes := ho.effects _ _ hflight
      have hmore : s'.1.effectsOf l = es ++ [e] := by
        rw [heffects, heffect, hes]
        rfl
      refine Once.only hid ht' hs' hi hg (fun i es' hi' => ho.alone _ _ _ _ hi' hflight) ?_ ?_ hrem
      · rw [hmore, nodup_append]
        refine ⟨hes ▸ ho.nodup, nodup_singleton e, ?_⟩
        rintro x hx y hy rfl
        obtain rfl := mem_singleton.mp hy
        exact hnew hx
      · exact .inl (by rw [hmore])
    | @mark es =>
      have hflight : InFlight l s stages a.1 es := ⟨hg, _, k, hi⟩
      have hsame : s'.1.effectsOf l = s.1.effectsOf l := by
        rw [heffects]
        exact append_nil _
      refine Once.only hid ht' hs' hi hg (fun i es' hi' => ho.alone _ _ _ _ hi' hflight) ?_ ?_ hrem
      · exact hsame ▸ ho.nodup
      · exact .inr ⟨rfl, (l, s'.1.world.now), by rw [hmarks]; simp [marksOf], rfl⟩

def Succeeded (ds : List Delivery) (id : String) (s : State) : Prop :=
  ∃ (i : ℕ) (d : Delivery), ds[i]? = some d ∧ eventID d = id ∧ s.2[i]? = some (.ret (.ok ()))

variable {ds : List Delivery}

lemma eq_ret_of_finished {l : String}
    (hp : Follows (Labelled Next) (fun g result => Done g.1 g.2 result) p (l, .finished)) :
    p = .ret (.ok ()) := by
  cases p with
  | ret result => exact congrArg _ hp
  | call c k =>
    obtain ⟨l', c⟩ := c
    obtain ⟨r⟩ := nonempty_answer c
    obtain ⟨⟨l'', g'⟩, ⟨-, -, hnext⟩, -⟩ := hp r
    cases hnext

/-- The deliveries with their stages; an id that is among the processed ones is there because a
delivery of it has succeeded. -/
def Credited (ds : List Delivery) (id : String) (s : State) : Prop :=
  ∃ stages, Delivers s.2 stages ∧
    (∀ (i : ℕ) (g : String × Stage), stages[i]? = some g → ∃ d, ds[i]? = some d ∧ g.1 = eventID d) ∧
    (s.1.world.seen id ≠ none → Succeeded ds id s)

lemma seen_step (hs : Credited ds id s) (hstep : poolStep (observedExec seenTTL) s a = some s') :
    Credited ds id s' := by
  obtain ⟨stages, ht, hlabels, hseen⟩ := hs
  obtain ⟨l, c, k, r, g, g', hi, hg, hexec, hs', hnext, hk, ht'⟩ := ht.step_labelled hstep
  obtain ⟨d, hd, hlabel⟩ := hlabels a.1 _ hg
  refine ⟨stages.set a.1 (l, g'), ht', ?_, ?_⟩
  · intro i q hq
    rcases getElem?_set hq with ⟨rfl, rfl⟩ | ⟨-, hq⟩
    · exact ⟨d, hd, hlabel⟩
    · exact hlabels i q hq
  intro hsome
  have hkept (hbefore : s.1.world.seen id ≠ none) : Succeeded ds id s' := by
    obtain ⟨i, d', hd', hid, hret⟩ := hseen hbefore
    have hne : i ≠ a.1 := by
      rintro rfl
      cases some.inj (hret.symm.trans hi)
    exact ⟨i, d', hd', hid, hs' ▸ getElem?_set_of_ne hne _ hret⟩
  have hcall := (observedExec_eq_some hexec).1
  have hswept : ((s.1.world.wait a.2.elapsed).sweep seenTTL).seen id ≠ none →
      s.1.world.seen id ≠ none := by
    intro hne hnone
    refine hne ?_
    simp [BillingWorld.sweep, hnone]
  by_cases hmark : ∃ e, c = .markProcessed e
  · obtain ⟨e, rfl⟩ := hmark
    rw [seen_of_markProcessed hcall] at hsome
    split at hsome
    case isFalse => exact hkept (hswept hsome)
    case isTrue he =>
      obtain ⟨rfl, rfl⟩ := hnext.of_mark
      refine ⟨a.1, d, hd, hlabel.symm.trans he.symm, ?_⟩
      rw [hs', getElem?_set_self hi, eq_ret_of_finished hk]
  · rcases seen_of_stripeExec (fun e he => hmark ⟨e, he⟩) hcall with heq | heq
    · exact hkept (heq ▸ hsome)
    · exact hkept (hswept (heq ▸ hsome))

lemma dispatched_of_not_seen {type : EventType} (htype : env.type = some type) (hid : env.id ≠ "")
    (hseen : s.1.world.seen env.id = none) (hstep : poolStep (observedExec seenTTL) s a = some s')
    (hi : s.2[a.1]? = some ((handleEvent h env).label env.id)) :
    s'.2[a.1]? = some ((process h env type).label env.id) := by
  obtain ⟨c, k, r, hi', hexec, hs'⟩ := poolStep_eq_some hstep
  rw [handleEvent_eq htype hid] at hi
  obtain ⟨rfl, hk⟩ := call.inj (some.inj (hi'.symm.trans hi))
  obtain rfl := eq_of_heq hk
  obtain ⟨hanswer, -⟩ := answer_inj (observedExec_eq_some hexec).1
  obtain rfl : false = r := by
    rw [← hanswer]
    simp [BillingWorld.sweep, hseen]
  rw [hs', getElem?_set_self hi']
  rfl

/-! ## Runs -/

variable {w : BillingWorld} {as : List (ℕ × StripeChoice)}

def initialStages (ds : List Delivery) : List (String × Stage) :=
  ds.map fun d => (eventID d, .initial (eventID d))

lemma delivers_start : Delivers (start h ds w).2 (initialStages ds) :=
  tracks_map fun d _ => (follows_handle h d).label

lemma once_start (hid : id ≠ "") : Once h.seenTTL id (start h ds w) (initialStages ds) := by
  have hnone : ∀ i es, ¬ InFlight id (start h ds w) (initialStages ds) i es := by
    rintro i es ⟨hstage, -⟩
    simp only [initialStages, getElem?_map, map_eq_some_iff] at hstage
    obtain ⟨d, -, hd⟩ := hstage
    obtain ⟨rfl, hstage⟩ := Prod.mk.inj hd
    rw [Stage.initial, if_neg hid] at hstage
    cases hstage
  constructor
  case alone => exact fun i j es es' hi => absurd hi (hnone i es)
  case effects => exact fun i es hi => absurd hi (hnone i es)
  case nodup => exact nodup_nil
  case settled => exact fun hne => absurd rfl hne
  case remembered => exact nofun

/-- **Serialized deliveries of an event take effect at most once**, within the retention of its id;
and until a delivery of the event has succeeded, the next one is dispatched. -/
theorem handled_once (h : StripeEventHandler) (ds : List Delivery) (w : BillingWorld) (id : String)
    (hid : id ≠ "") (as : List (ℕ × StripeChoice)) (s' : State)
    (hrun : run (poolStep (observedExec h.seenTTL)) (start h ds w) as = some s') :
    (Along (poolStep (observedExec h.seenTTL))
        (fun s a => Serialized id s a ∧ Retained h.seenTTL id s a) (start h ds w) as →
      (s'.1.effectsOf id).Nodup) ∧
    (w.seen id = none → ¬ Succeeded ds id s' → ∀ env type, env.id = id → env.type = some type →
      ∀ a s'', poolStep (observedExec h.seenTTL) s' a = some s'' →
        s'.2[a.1]? = some ((handleEvent h env).label id) →
        s''.2[a.1]? = some ((process h env type).label id)) := by
  constructor
  · intro halong
    obtain ⟨stages, -, ho⟩ := invariant_of_along
      (I := fun s : State => ∃ stages, Delivers s.2 stages ∧ Once h.seenTTL id s stages)
      (fun s a t ⟨stages, ht, ho⟩ hG hstep => once_step hid ho ht hG.1 hG.2 hstep)
      ⟨_, delivers_start, once_start hid⟩ halong hrun
    exact ho.nodup
  · rintro hunseen hfailed env type rfl htype a s'' hstep hi
    have hstart : Credited ds env.id (start h ds w) := by
      refine ⟨initialStages ds, delivers_start, ?_, fun hne => absurd hunseen hne⟩
      intro i g hg
      simp only [initialStages, getElem?_map, map_eq_some_iff] at hg
      obtain ⟨d, hd, rfl⟩ := hg
      exact ⟨d, hd, rfl⟩
    obtain ⟨-, -, -, hseen⟩ := invariant_of_run (fun _ _ _ hs hstep => seen_step hs hstep) hstart hrun
    exact dispatched_of_not_seen htype hid (by_contra fun hne => hfailed (hseen hne)) hstep hi

def paymentEvent : Envelope where
  id := "evt_1"
  type := some .paymentIntentSucceeded
  created := 1
  object := { paymentIntent := .ok ⟨"pi_1", 500, "usd", "cus_1", "t1"⟩ }

def paymentDelivery : Delivery where
  payload := SHA256.utf8
    ("\x7b\"id\":\"evt_1\",\"type\":\"payment_intent.succeeded\",\"created\":1" ++
      ",\"data\":\x7b\"object\":\x7b\"id\":\"pi_1\",\"amount\":500,\"currency\":\"usd\"" ++
      ",\"customer\":\"cus_1\",\"metadata\":\x7b\"tenant_id\":\"t1\"\x7d\x7d\x7d\x7d")
  envelope := .ok paymentEvent
  signature := "t=1,v1=40a9bcfc43c07cc290cdd63cae88c286acc971148445672a9726211be468d82b"

def paymentHandler : StripeEventHandler where
  webhookKey := some "whsec"
  plans := []
  events := true

def emptyWorld : BillingWorld where
  now := 0
  tenants := ⟨[], by decide⟩
  seen := fun _ => none
  emitted := []

lemma handle_paymentDelivery :
    handle paymentHandler paymentDelivery = handleEvent paymentHandler paymentEvent :=
  handle_of_signed rfl (by decide +kernel) rfl

lemma start_paymentDelivery :
    start paymentHandler [paymentDelivery, paymentDelivery] emptyWorld =
      ({ world := emptyWorld },
        replicate 2 ((handleEvent paymentHandler paymentEvent).label "evt_1")) := by
  simp only [start, map_cons, map_nil, handle_paymentDelivery]
  rfl

theorem handled_once_oneByOne : ∃ s', run (poolStep (observedExec defaultStripeSeenTTL))
      (start paymentHandler [paymentDelivery, paymentDelivery] emptyWorld)
      [(0, {}), (0, {}), (0, {}), (1, {})] = some s' ∧ (s'.1.effectsOf "evt_1").Nodup := by
  have hguard : Along (poolStep (observedExec defaultStripeSeenTTL))
      (fun s a => Serialized "evt_1" s a ∧ Retained defaultStripeSeenTTL "evt_1" s a)
      (start paymentHandler [paymentDelivery, paymentDelivery] emptyWorld)
      [(0, {}), (0, {}), (0, {}), (1, {})] := by
    rw [start_paymentDelivery]
    decide +kernel
  refine exists_of_run_imp (P := fun _ => True) ?_ fun s' hrun _ => ?_
  · rw [start_paymentDelivery]
    decide +kernel
  · exact (handled_once paymentHandler _ _ _ (by decide) _ s' hrun).1 hguard

/-- **Two deliveries of a payment that are handled together both take effect.** -/
theorem paymentDelivery_twice : ∃ s', run (poolStep (observedExec defaultStripeSeenTTL))
      (start paymentHandler [paymentDelivery, paymentDelivery] emptyWorld)
      [(0, {}), (1, {}), (0, {}), (1, {}), (0, {}), (1, {})] = some s' ∧
      s'.1.effectsOf "evt_1" = [.paymentReceived, .paymentReceived] ∧
      s'.2.map result? = [some (.ok ()), some (.ok ())] := by
  rw [start_paymentDelivery]
  decide +kernel

end DeployMonster.Billing.Replay
