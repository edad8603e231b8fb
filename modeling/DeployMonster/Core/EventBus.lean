import DeployMonster.Library.Pool
import DeployMonster.Library.Semaphore
import DeployMonster.Library.StepMachine

/-!
# The event bus and its asynchronous handlers

`internal/core/events.go`. An asynchronous handler gets a slot of the semaphore and a goroutine;
when its first call fails, it gives the slot back, backs off and takes a slot again.
-/

namespace DeployMonster.Core

open List Option

structure Subscription where
  (id eventType name : String)
  async : Bool

def cutSuffix (s suffix : String) : String × Bool :=
  if suffix.toList.isSuffixOf s.toList then
    (String.ofList (s.toList.take (s.length - suffix.length)), true)
  else (s, false)

variable (sub : Subscription)

/-- The pattern of a subscription matches an event type: everything, the type itself, or `app.*`
on the types that start with `app.`. -/
def Subscription.isMatch (eventType : String) : Bool :=
  if sub.eventType = "*" then true
  else if sub.eventType = eventType then true
  else match cutSuffix sub.eventType ".*" with
    | (pre, true) =>
      decide (eventType.length > pre.length) &&
        decide (eventType.toList.take pre.length = pre.toList) &&
        decide (eventType.toList[pre.length]? = some '.')
    | (_, false) => false

/-- An event: the fields `Publish` reads. A zero timestamp is an unset one. -/
structure Event where
  (id type : String)
  timestamp : ℤ

/-- The defaults `Publish` fills in, from a generated id and the current time. -/
def Event.withDefaults (event : Event) (generatedID : String) (now : ℤ) : Event :=
  { event with
    id := if event.id = "" then generatedID else event.id
    timestamp := if event.timestamp = 0 then now else event.timestamp }

def defaultAsyncWorkers : ℕ := 64

structure EventBus where
  subscriptions : List Subscription
  asyncSem : Semaphore
  asyncWG : ℤ
  (publishCount errorCount : ℕ)

def newEventBus : EventBus := ⟨[], .make defaultAsyncWorkers, 0, 0, 0⟩

variable (eb : EventBus)

namespace EventBus

/-- `SubscribeNamed`, with the id it generates. -/
def subscribeNamed (sub : Subscription) : EventBus :=
  { eb with subscriptions := eb.subscriptions ++ [sub] }

/-- `Unsubscribe`: the last subscription takes the place of the removed one. -/
def unsubscribe (subID : String) : EventBus × Bool :=
  match eb.subscriptions.findIdx? (fun sub => sub.id = subID), eb.subscriptions.getLast? with
  | some i, some last =>
    ({ eb with subscriptions := (eb.subscriptions.set i last).dropLast }, true)
  | _, _ => (eb, false)

def matchSubscriptions (eventType : String) : List Subscription :=
  eb.subscriptions.filter fun sub => sub.isMatch eventType

end EventBus

/-- How a handler ends. -/
inductive Outcome
  | ok | err | panic
  deriving DecidableEq

/-- A `Publish`: the event, the subscriptions still to be served, and how it returned. -/
structure PublishCall where
  event : Event
  rest : List Subscription
  result : Option Outcome

/-- Where the goroutine of an asynchronous handler stands. -/
inductive HandlerPhase
  /-- In the first call of the handler. -/
  | first
  /-- The first call has failed: about to give the slot back. -/
  | giveBack
  /-- In the `select` on the back-off timer and the context. -/
  | backoff
  /-- The timer has fired: about to take a slot again. -/
  | reacquire
  /-- In the second call of the handler. -/
  | retry
  /-- In the deferred function that recovers and gives the slot back. -/
  | deferred
  /-- About to call `asyncWG.Done`. -/
  | wgDone
  | finished
  deriving DecidableEq

/-- The goroutine of an asynchronous handler. The last two fields record the slots taken for it
and not given back, and whether its back-off timer has fired. -/
structure Handler where
  sub : Subscription
  cancelled : Bool
  phase : HandlerPhase
  slotReleased : Bool
  held : ℕ
  timerFired : Bool

def newHandler : Handler := ⟨sub, false, .first, false, 1, false⟩

/-- The next subscription of a `Publish`: a synchronous handler ends with `outcome`, an
asynchronous one gets a slot (the publisher blocks without one) and a goroutine. -/
def publishAdvance (p : PublishCall) (outcome : Outcome) :
    Option (EventBus × PublishCall × Option Handler) :=
  match p.result, p.rest with
  | some _, _ => none
  | none, [] => some (eb, { p with result := some .ok }, none)
  | none, sub :: rest =>
    if sub.async then
      eb.asyncSem.acquire.map fun asyncSem =>
        ({ eb with asyncSem, asyncWG := eb.asyncWG + 1 }, { p with rest }, some (newHandler sub))
    else
      match outcome with
      | .ok => some (eb, { p with rest }, none)
      | .err =>
        some ({ eb with errorCount := eb.errorCount + 1 },
          { p with rest, result := some .err }, none)
      | .panic => some (eb, { p with rest, result := some .panic }, none)

inductive HandlerAction
  | cancel
  | firstEnds (outcome : Outcome)
  | giveBack | timer | ctxDone | reacquire
  | retryEnds (outcome : Outcome)
  | deferred | wgDone
  deriving DecidableEq

def handlerAdvance (g : Handler) (a : HandlerAction) : Option (EventBus × Handler) :=
  match a, g.phase with
  | .cancel, _ => some (eb, { g with cancelled := true })
  | .firstEnds .ok, .first => some (eb, { g with phase := .deferred })
  | .firstEnds .err, .first => some (eb, { g with phase := .giveBack })
  | .firstEnds .panic, .first =>
    some ({ eb with errorCount := eb.errorCount + 1 }, { g with phase := .deferred })
  | .giveBack, .giveBack =>
    eb.asyncSem.release.map fun asyncSem =>
      ({ eb with asyncSem }, { g with phase := .backoff, slotReleased := true, held := g.held - 1 })
  | .timer, .backoff => some (eb, { g with phase := .reacquire, timerFired := true })
  | .ctxDone, .backoff =>
    if g.cancelled then
      some ({ eb with errorCount := eb.errorCount + 1 }, { g with phase := .deferred })
    else none
  | .reacquire, .reacquire =>
    eb.asyncSem.acquire.map fun asyncSem =>
      ({ eb with asyncSem }, { g with phase := .retry, held := g.held + 1 })
  | .retryEnds .ok, .retry => some (eb, { g with phase := .deferred })
  | .retryEnds _, .retry =>
    some ({ eb with errorCount := eb.errorCount + 1 }, { g with phase := .deferred })
  | .deferred, .deferred =>
    if g.slotReleased then some (eb, { g with phase := .wgDone })
    else
      eb.asyncSem.release.map fun asyncSem =>
        ({ eb with asyncSem }, { g with phase := .wgDone, held := g.held - 1 })
  | .wgDone, .wgDone => some ({ eb with asyncWG := eb.asyncWG - 1 }, { g with phase := .finished })
  | _, _ => none

structure BusState where
  bus : EventBus
  publishes : List PublishCall
  handlers : List Handler

def BusState.start : BusState := ⟨newEventBus, [], []⟩

inductive BusAction
  | subscribe (sub : Subscription)
  | unsubscribe (subID : String)
  | publish (event : Event) (generatedID : String) (now : ℤ)
  | publishNext (p : ℕ) (outcome : Outcome)
  | handler (i : ℕ) (a : HandlerAction)

/-- Some publisher or handler takes its next operation, or a new call is made. -/
def busStep (s : BusState) : BusAction → Option BusState
  | .subscribe sub => some { s with bus := s.bus.subscribeNamed sub }
  | .unsubscribe subID => some { s with bus := (s.bus.unsubscribe subID).1 }
  | .publish event generatedID now =>
    let call : PublishCall :=
      ⟨event.withDefaults generatedID now, s.bus.matchSubscriptions event.type, none⟩
    some { s with
      bus := { s.bus with publishCount := s.bus.publishCount + 1 }
      publishes := s.publishes ++ [call] }
  | .publishNext p outcome =>
    s.publishes[p]?.bind fun c => (publishAdvance s.bus c outcome).map fun r =>
      { bus := r.1, publishes := s.publishes.set p r.2.1, handlers := s.handlers ++ r.2.2.toList }
  | .handler i a =>
    s.handlers[i]?.bind fun g => (handlerAdvance s.bus g a).map fun r =>
      { s with bus := r.1, handlers := s.handlers.set i r.2 }

/-! ## What one operation does -/

/-- The slots a goroutine holds in each phase. After its back-off timer has fired and the retry has
taken a slot, nothing gives that slot back: `slotReleased` is still set. -/
def Handler.slots (g : Handler) : ℕ :=
  match g.phase with
  | .first | .giveBack | .retry => 1
  | .backoff | .reacquire => 0
  | .deferred => if g.slotReleased then g.timerFired.toNat else 1
  | .wgDone | .finished => g.timerFired.toNat

/-- The values of the two flags in each phase. -/
def Handler.Flags (g : Handler) : Prop :=
  match g.phase with
  | .first | .giveBack => g.slotReleased = false ∧ g.timerFired = false
  | .backoff => g.slotReleased = true ∧ g.timerFired = false
  | .reacquire | .retry => g.slotReleased = true ∧ g.timerFired = true
  | .deferred => g.slotReleased = true ∨ g.timerFired = false
  | .wgDone | .finished => True

structure Handler.Ok (g : Handler) : Prop where
  held : g.held = g.slots
  flags : g.Flags

lemma newHandler_ok : (newHandler sub).Ok := ⟨rfl, rfl, rfl⟩

def HandlerAction.isTimer : HandlerAction → Bool
  | .timer => true
  | _ => false

def BusAction.isTimer : BusAction → Bool
  | .handler _ a => a.isTimer
  | _ => false

/-- One operation of a goroutine moves only the slots it holds. -/
structure HandlerAdvanced (eb : EventBus) (g : Handler) (a : HandlerAction) (eb' : EventBus)
    (g' : Handler) : Prop where
  ok : g'.Ok
  cap : eb'.asyncSem.cap = eb.asyncSem.cap
  len : eb'.asyncSem.len + g.held = eb.asyncSem.len + g'.held
  timer : g'.timerFired.toNat = g.timerFired.toNat + a.isTimer.toNat

lemma handlerAdvance_spec {eb eb' : EventBus} {g g' : Handler} {a : HandlerAction} (hg : g.Ok)
    (h : handlerAdvance eb g a = some (eb', g')) : HandlerAdvanced eb g a eb' g' := by
  obtain ⟨hheld, hflags⟩ := hg
  unfold Handler.slots at hheld
  unfold Handler.Flags at hflags
  unfold handlerAdvance at h
  split at h <;> rename_i hp
  case h_1 =>
    cases h
    exact ⟨⟨hheld, hflags⟩, rfl, rfl, rfl⟩
  case h_13 => cases h
  all_goals simp only [hp] at hheld hflags
  case h_2 | h_4 =>
    cases h
    exact ⟨⟨by simp [Handler.slots, hheld, hflags.1], .inr hflags.2⟩, rfl, rfl, rfl⟩
  case h_3 =>
    cases h
    exact ⟨⟨hheld, hflags⟩, rfl, rfl, rfl⟩
  case h_5 =>
    obtain ⟨sem, hsem, h⟩ := map_eq_some_iff.mp h
    obtain ⟨-, hcap, hlen⟩ := Semaphore.release_eq_some hsem
    cases h
    exact ⟨⟨by simp [Handler.slots, hheld], rfl, hflags.2⟩, hcap, by dsimp only; omega, rfl⟩
  case h_6 =>
    cases h
    exact ⟨⟨hheld, hflags.1, rfl⟩, rfl, rfl, by simp [hflags.2, HandlerAction.isTimer]⟩
  case h_7 =>
    split at h <;> cases h
    exact ⟨⟨by simp [Handler.slots, hheld, hflags], .inl hflags.1⟩, rfl, rfl, rfl⟩
  case h_8 =>
    obtain ⟨sem, hsem, h⟩ := map_eq_some_iff.mp h
    obtain ⟨-, hcap, hlen⟩ := Semaphore.acquire_eq_some hsem
    cases h
    exact ⟨⟨by simp [Handler.slots, hheld], hflags⟩, hcap, by dsimp only; omega, rfl⟩
  case h_9 | h_10 =>
    cases h
    exact ⟨⟨by simp [Handler.slots, hheld, hflags], .inl hflags.1⟩, rfl, rfl, rfl⟩
  case h_11 =>
    split at h
    · rename_i hrel
      cases h
      exact ⟨⟨by simpa [Handler.slots, hrel] using hheld, trivial⟩, rfl, rfl, rfl⟩
    rename_i hrel
    obtain ⟨sem, hsem, h⟩ := map_eq_some_iff.mp h
    obtain ⟨-, hcap, hlen⟩ := Semaphore.release_eq_some hsem
    cases h
    rw [if_neg hrel] at hheld
    have hfired : g.timerFired = false := hflags.resolve_left hrel
    exact ⟨⟨by simp [Handler.slots, hheld, hfired], trivial⟩, hcap, by dsimp only; omega, rfl⟩
  case h_12 =>
    cases h
    exact ⟨⟨hheld, trivial⟩, rfl, rfl, rfl⟩

lemma publishAdvance_spec {eb eb' : EventBus} {p p' : PublishCall} {outcome : Outcome}
    {g : Option Handler} (h : publishAdvance eb p outcome = some (eb', p', g)) :
    eb'.asyncSem.cap = eb.asyncSem.cap ∧ (∀ g' ∈ g.toList, g'.Ok ∧ g'.timerFired = false) ∧
      eb'.asyncSem.len = eb.asyncSem.len + Pool.total Handler.held g.toList := by
  unfold publishAdvance at h
  split at h
  · cases h
  · cases h
    simp
  split at h
  · obtain ⟨sem, hsem, h⟩ := map_eq_some_iff.mp h
    obtain ⟨-, hcap, hlen⟩ := Semaphore.acquire_eq_some hsem
    cases h
    refine ⟨hcap, ?_, hlen⟩
    intro g' hg'
    obtain rfl := mem_singleton.mp hg'
    exact ⟨newHandler_ok _, rfl⟩
  · split at h <;> cases h <;> simp

open StepMachine Pool

/-- The occupied slots are those the goroutines hold, and the timers that have fired are those of
the actions so far. -/
structure BusState.Inv (as : List BusAction) (s : BusState) : Prop where
  ok : ∀ g ∈ s.handlers, g.Ok
  cap : s.bus.asyncSem.cap = defaultAsyncWorkers
  len : s.bus.asyncSem.len = total Handler.held s.handlers
  timers : total (fun g => g.timerFired.toNat) s.handlers = as.countP BusAction.isTimer

lemma busInv_start : BusState.start.Inv [] := ⟨by simp [BusState.start], rfl, rfl, rfl⟩

lemma busInv_step (as : List BusAction) (s : BusState) (a : BusAction) (s' : BusState)
    (hs : s.Inv as) (h : busStep s a = some s') : s'.Inv (as ++ [a]) := by
  cases a with
  | subscribe | publish =>
    cases h
    exact { hs with timers := by simpa [BusAction.isTimer] using hs.timers }
  | unsubscribe subID =>
    cases h
    have hbus : (s.bus.unsubscribe subID).1.asyncSem = s.bus.asyncSem := by
      unfold EventBus.unsubscribe
      split <;> rfl
    exact ⟨hs.ok, hbus ▸ hs.cap, hbus ▸ hs.len, by simpa [BusAction.isTimer] using hs.timers⟩
  | publishNext p outcome =>
    obtain ⟨c, -, h⟩ := bind_eq_some_iff.mp h
    obtain ⟨⟨eb', p', g⟩, hr, rfl⟩ := map_eq_some_iff.mp h
    obtain ⟨hcap, hnew, hlen⟩ := publishAdvance_spec hr
    refine ⟨?_, hcap.trans hs.cap, ?_, ?_⟩
    · intro g' hg'
      exact (mem_append.mp hg').elim (hs.ok g') fun hg' => (hnew g' hg').1
    · rw [total_append, ← hs.len]
      exact hlen
    have hz : total (fun g => g.timerFired.toNat) g.toList = 0 :=
      total_eq_zero fun g' hg' => by simp [(hnew g' hg').2]
    rw [total_append, hs.timers, hz]
    simp [BusAction.isTimer]
  | handler i a =>
    obtain ⟨g, hi, h⟩ := bind_eq_some_iff.mp h
    obtain ⟨⟨eb', g'⟩, hr, rfl⟩ := map_eq_some_iff.mp h
    have hadv := handlerAdvance_spec (hs.ok g (mem_of_getElem? hi)) hr
    refine ⟨forall_set hs.ok hadv.ok, hadv.cap.trans hs.cap, ?_, ?_⟩
    · have := sum_set Handler.held hi g'
      have := hs.len
      have := hadv.len
      dsimp only
      omega
    have hsum := sum_set (fun g : Handler => g.timerFired.toNat) hi g'
    have htimer := hadv.timer
    have := hs.timers
    have hcount : (as ++ [BusAction.handler i a]).countP BusAction.isTimer =
        as.countP BusAction.isTimer + a.isTimer.toNat := by
      cases ha : a.isTimer <;> simp [BusAction.isTimer, ha]
    dsimp only at hsum htimer ⊢
    omega

lemma busInv_run {as : List BusAction} {s : BusState}
    (h : run busStep BusState.start as = some s) : s.Inv as :=
  history_of_run busInv_start busInv_step h

/-! ## Occupied slots and live goroutines -/

/-- The goroutines that were dispatched and have not finished. The publisher's acquire, its
`asyncWG.Add` and the `go` statement are one dispatch: nothing blocks in between. -/
def BusState.live (s : BusState) : ℕ := s.handlers.countP fun g => g.phase ≠ .finished

variable {as : List BusAction} {s s' : BusState}

lemma timerFired_eq_false (hs : s.Inv as) (has : ∀ a ∈ as, a.isTimer = false) :
    ∀ g ∈ s.handlers, g.timerFired = false := by
  intro g hg
  have hz : total (fun g => g.timerFired.toNat) s.handlers = 0 := by
    rw [hs.timers, countP_eq_zero]
    exact fun a ha => by simp [has a ha]
  simpa using eq_zero_of_total hz hg

lemma slots_le_live (hs : s.Inv as) (has : ∀ a ∈ as, a.isTimer = false) :
    s.bus.asyncSem.len ≤ s.live := by
  rw [hs.len]
  refine sum_le_countP fun g hg => ?_
  have hfired := timerFired_eq_false hs has g hg
  rw [(hs.ok g hg).held, Handler.slots]
  cases hp : g.phase <;> simp [hfired]
  split <;> simp

lemma finished_of_live (hs : s.live = 0) : ∀ g ∈ s.handlers, g.phase = .finished := by
  intro g hg
  simpa using countP_eq_zero.mp hs g hg

lemma slots_eq_timers (hs : s.Inv as) (hlive : s.live = 0) :
    s.bus.asyncSem.len = as.countP BusAction.isTimer := by
  rw [hs.len, ← hs.timers]
  refine congrArg List.sum (map_congr_left fun g hg => ?_)
  rw [(hs.ok g hg).held, Handler.slots, finished_of_live hlive g hg]

lemma publishNext_isSome {p : ℕ} {c : PublishCall} (hp : s.publishes[p]? = some c)
    (hc : c.result = none) (hlen : s.bus.asyncSem.len < s.bus.asyncSem.cap) (outcome : Outcome) :
    (busStep s (.publishNext p outcome)).isSome := by
  simp only [busStep, hp, bind_some, isSome_map, publishAdvance, hc]
  split
  · simp_all
  · rfl
  · split
    · simpa [Semaphore.isSome_acquire] using hlen
    · cases outcome <;> rfl

/-- **The async semaphore over every run**: as long as no back-off timer fires, the occupied slots
are at most the live goroutines; and once these have finished, the slots still occupied are as many
as the timers that fired. -/
theorem asyncSem_run (as : List BusAction) (s : BusState)
    (h : run busStep BusState.start as = some s) :
    ((∀ a ∈ as, a.isTimer = false) → s.bus.asyncSem.len ≤ s.live ∧
      (s.live = 0 → s.bus.asyncSem.len = 0 ∧ ∀ p c outcome, s.publishes[p]? = some c →
        c.result = none → (busStep s (.publishNext p outcome)).isSome)) ∧
      (s.live = 0 → s.bus.asyncSem.len = as.countP BusAction.isTimer) := by
  have hs := busInv_run h
  refine ⟨fun has => ?_, slots_eq_timers hs⟩
  have hle := slots_le_live hs has
  refine ⟨hle, fun hlive => ?_⟩
  have hzero : s.bus.asyncSem.len = 0 := by omega
  refine ⟨hzero, fun p c outcome hp hc => publishNext_isSome hp hc ?_ outcome⟩
  rw [hzero, hs.cap]
  decide

def asyncSub : Subscription := ⟨"s", "*", "", true⟩

/-- Its handler fails with a cancelled context, and gives up its retry. -/
def abandonedRetry : List BusAction :=
  [.subscribe asyncSub, .publish ⟨"", "app.created", 0⟩ "e" 1, .publishNext 0 .ok,
    .handler 0 (.firstEnds .err), .handler 0 .giveBack, .handler 0 .cancel, .handler 0 .ctxDone,
    .handler 0 .deferred, .handler 0 .wgDone, .publish ⟨"", "app.deleted", 0⟩ "f" 2]

theorem asyncSem_run_abandonedRetry : ∃ s, run busStep BusState.start abandonedRetry = some s ∧
    s.live = 0 ∧ s.bus.asyncSem.len = 0 ∧ (busStep s (.publishNext 1 .ok)).isSome := by
  have h := (asyncSem_run abandonedRetry _ rfl).1 (by decide)
  exact ⟨_, rfl, rfl, (h.2 rfl).1, (h.2 rfl).2 1 _ .ok rfl rfl⟩

def retriedOnce : List BusAction :=
  [.subscribe asyncSub, .publish ⟨"", "app.created", 0⟩ "e" 1, .publishNext 0 .ok,
    .handler 0 (.firstEnds .err), .handler 0 .giveBack, .handler 0 .timer, .handler 0 .reacquire,
    .handler 0 (.retryEnds .ok), .handler 0 .deferred, .handler 0 .wgDone]

/-- One retry leaves a slot occupied with no goroutine alive. -/
theorem asyncSem_leaks : ∃ s, run busStep BusState.start retriedOnce = some s ∧
    s.live = 0 ∧ s.bus.asyncSem.len = 1 ∧ ¬ s.bus.asyncSem.len ≤ s.live :=
  ⟨_, rfl, rfl, rfl, by decide⟩

end DeployMonster.Core
