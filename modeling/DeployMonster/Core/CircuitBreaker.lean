import DeployMonster.Core.Clock
import DeployMonster.Library.Pool
import DeployMonster.Library.StepMachine

/-!
# The circuit breaker of the external service clients

`internal/core/circuitbreaker.go`. A function that panics skips `afterCall`, and an error marked
against retrying is not counted. Times and durations are nanoseconds, counted from the zero time.
-/

namespace DeployMonster.Core

open Clock StepMachine

inductive CircuitState
  | circuitClosed | circuitOpen | circuitHalfOpen
  deriving DecidableEq

open CircuitState

def errCircuitOpen : String := "circuit breaker is open"

structure CircuitBreakerConfig where
  (failureThreshold resetTimeout halfOpenMaxCalls : ℤ)

def defaultCircuitBreakerConfig : CircuitBreakerConfig where
  failureThreshold := 5
  resetTimeout := 30 * second
  halfOpenMaxCalls := 1

/-- The breaker. Its thresholds are positive, as the constructor makes them. -/
structure CircuitBreaker where
  name : String
  state : CircuitState
  (failures successes lastFailure failureThreshold resetTimeout halfOpenMax halfOpenCalls : ℤ)
  failureThreshold_pos : 0 < failureThreshold
  resetTimeout_pos : 0 < resetTimeout
  halfOpenMax_pos : 0 < halfOpenMax
  deriving DecidableEq

def newCircuitBreaker (name : String) (cfg : CircuitBreakerConfig) : CircuitBreaker where
  name := name
  state := circuitClosed
  failures := 0
  successes := 0
  lastFailure := 0
  failureThreshold := if cfg.failureThreshold ≤ 0 then 5 else cfg.failureThreshold
  resetTimeout := if cfg.resetTimeout ≤ 0 then 30 * second else cfg.resetTimeout
  halfOpenMax := if cfg.halfOpenMaxCalls ≤ 0 then 1 else cfg.halfOpenMaxCalls
  halfOpenCalls := 0
  failureThreshold_pos := by split <;> omega
  resetTimeout_pos := by
    split
    · decide
    · omega
  halfOpenMax_pos := by split <;> omega

/-- The error of a call: whether `errors.As` finds a `noRetryError` in it. -/
inductive CallError
  | retryable | noRetry

namespace CircuitBreaker

/-- The effective state: an open circuit is half-open once its timeout has run out. -/
def currentState (cb : CircuitBreaker) (now : ℤ) : CircuitState :=
  if cb.state = circuitOpen then
    if now - cb.lastFailure ≥ cb.resetTimeout then circuitHalfOpen else cb.state
  else cb.state

/-- `beforeCall`: the breaker afterwards, and the error of a rejected call. -/
def beforeCall (cb : CircuitBreaker) (now : ℤ) : CircuitBreaker × Option String :=
  match cb.currentState now with
  | circuitClosed => (cb, none)
  | circuitOpen => (cb, some (cb.name ++ ": " ++ errCircuitOpen))
  | circuitHalfOpen =>
    if cb.halfOpenCalls ≥ cb.halfOpenMax then (cb, some (cb.name ++ ": " ++ errCircuitOpen))
    else ({ cb with halfOpenCalls := cb.halfOpenCalls + 1 }, none)

def reset (cb : CircuitBreaker) : CircuitBreaker :=
  { cb with state := circuitClosed, failures := 0, successes := 0, halfOpenCalls := 0 }

def onSuccess (cb : CircuitBreaker) : CircuitState → CircuitBreaker
  | circuitHalfOpen =>
    let cb := { cb with successes := cb.successes + 1 }
    if cb.successes ≥ cb.halfOpenMax then cb.reset else cb
  | circuitClosed => { cb with failures := 0 }
  | circuitOpen => cb

def onFailure (cb : CircuitBreaker) (now : ℤ) (state : CircuitState) : CircuitBreaker :=
  let cb := { cb with failures := cb.failures + 1, lastFailure := now }
  match state with
  | circuitClosed =>
    if cb.failures ≥ cb.failureThreshold then { cb with state := circuitOpen } else cb
  | circuitHalfOpen => { cb with state := circuitOpen, halfOpenCalls := 0, successes := 0 }
  | circuitOpen => cb

def afterCall (cb : CircuitBreaker) (now : ℤ) : Option CallError → CircuitBreaker
  | none => cb.onSuccess (cb.currentState now)
  | some .noRetry => cb
  | some .retryable => cb.onFailure now (cb.currentState now)

def Admits (cb : CircuitBreaker) (t : ℤ) : Prop := (cb.beforeCall t).2 = none
  deriving Decidable

end CircuitBreaker

/-- How the function given to `Execute` ends. -/
inductive CallEnd
  | returned (err : Option CallError)
  | panicked

/-- An admitted call of `Execute`. `probe` tells that the half-open count still holds it: it was
admitted as a probe, and the count has not gone back to zero since. -/
structure Execution where
  (live probe : Bool)

/-- The breaker with its calls, the clock, and the time at which the breaker last changed. -/
structure BreakerState where
  breaker : CircuitBreaker
  now : ℤ
  calls : List Execution
  changedAt : ℤ

inductive BreakerAction
  | tick (d : ℕ)
  | beginCall
  | endCall (i : ℕ) (e : CallEnd)
  | reset

namespace BreakerState

def start (name : String) (cfg : CircuitBreakerConfig) (t : ℕ) : BreakerState :=
  ⟨newCircuitBreaker name cfg, t, [], t⟩

/-- The breaker becomes `cb`. A half-open count of zero holds no call. -/
def update (s : BreakerState) (cb : CircuitBreaker) : BreakerState where
  breaker := cb
  now := s.now
  calls := if cb.halfOpenCalls = 0 then s.calls.map fun c => { c with probe := false } else s.calls
  changedAt := if cb = s.breaker then s.changedAt else s.now

def inFlight (s : BreakerState) : ℕ := s.calls.countP Execution.live

/-- With no call in flight the breaker admits one when the reset timeout has elapsed since the
breaker last changed. -/
def Recovers (s : BreakerState) : Prop :=
  s.inFlight = 0 → ∀ t, s.changedAt + s.breaker.resetTimeout ≤ t → s.breaker.Admits t

end BreakerState

/-- One step: time passes, a call of `Execute` is admitted or rejected, the function of an admitted
call ends, or `Reset` is called. -/
def breakerStep (s : BreakerState) : BreakerAction → Option BreakerState
  | .tick d => some { s with now := s.now + d }
  | .beginCall =>
    match s.breaker.beforeCall s.now with
    | (_, some _) => some s
    | (cb, none) =>
      let probe := decide (s.breaker.currentState s.now = circuitHalfOpen)
      let s : BreakerState := { s with calls := s.calls ++ [⟨true, probe⟩] }
      some (s.update cb)
  | .endCall i e =>
    match s.calls[i]? with
    | some ⟨true, probe⟩ =>
      let s : BreakerState := { s with calls := s.calls.set i ⟨false, probe⟩ }
      match e with
      | .returned err => some (s.update (s.breaker.afterCall s.now err))
      | .panicked => some s
    | _ => none
  | .reset => some (s.update s.breaker.reset)

/-- An end that `afterCall` hears of and records. -/
def CallEnd.isRecorded : CallEnd → Bool
  | .returned (some .noRetry) => false
  | .returned _ => true
  | .panicked => false

/-- No call that the half-open count holds ends unrecorded. -/
def Reported (s : BreakerState) : BreakerAction → Prop
  | .endCall i e => ∀ c ∈ s.calls[i]?, c.probe = true → e.isRecorded = true
  | _ => True

instance (s : BreakerState) (a : BreakerAction) : Decidable (Reported s a) := by
  unfold Reported
  split <;> infer_instance

/-! ## Accounting for the half-open count -/

def Execution.probes (c : Execution) : ℕ := if c.live && c.probe then 1 else 0

def BreakerState.probes (s : BreakerState) : ℕ := Pool.total Execution.probes s.calls

/-- A breaker at time `now` with `n` counted probes in flight: each admitted probe has succeeded or
is still in flight, and probes are in flight only in half-open state. -/
structure Accounted (cb : CircuitBreaker) (now : ℤ) (n : ℕ) : Prop where
  stored : cb.state ≠ circuitHalfOpen
  covered : cb.halfOpenCalls ≤ cb.successes + n
  successes_nonneg : 0 ≤ cb.successes
  successes_lt : cb.successes < cb.halfOpenMax
  probing : 0 < n → cb.currentState now = circuitHalfOpen

namespace CircuitBreaker

variable {cb : CircuitBreaker} {now : ℤ} {n : ℕ}

lemma currentState_eq_halfOpen (h : cb.state ≠ circuitHalfOpen) :
    cb.currentState now = circuitHalfOpen ↔
      cb.state = circuitOpen ∧ cb.resetTimeout ≤ now - cb.lastFailure := by
  unfold currentState
  split_ifs with hopen helapsed
  · simp [hopen, helapsed]
  · simp [hopen, helapsed]
  · simp [hopen, h]

lemma accounted_new (name : String) (cfg : CircuitBreakerConfig) (now : ℤ) :
    Accounted (newCircuitBreaker name cfg) now 0 :=
  ⟨by simp [newCircuitBreaker], by simp [newCircuitBreaker], by simp [newCircuitBreaker],
    (newCircuitBreaker name cfg).halfOpenMax_pos, by simp⟩

lemma accounted_tick (h : Accounted cb now n) (d : ℕ) : Accounted cb (now + d) n where
  stored := h.stored
  covered := h.covered
  successes_nonneg := h.successes_nonneg
  successes_lt := h.successes_lt
  probing := by
    intro hn
    obtain ⟨hopen, helapsed⟩ := (currentState_eq_halfOpen h.stored).mp (h.probing hn)
    exact (currentState_eq_halfOpen h.stored).mpr ⟨hopen, by omega⟩

lemma accounted_reset (cb : CircuitBreaker) (now : ℤ) : Accounted cb.reset now 0 :=
  ⟨by simp [reset], by simp [reset], by simp [reset], cb.halfOpenMax_pos, by simp⟩

lemma accounted_beforeCall (h : Accounted cb now n) (hok : (cb.beforeCall now).2 = none) :
    Accounted (cb.beforeCall now).1 now
      (n + if cb.currentState now = circuitHalfOpen then 1 else 0) := by
  unfold beforeCall at hok ⊢
  cases hstate : cb.currentState now with
  | circuitClosed => simpa [hstate] using h
  | circuitOpen => simp [hstate] at hok
  | circuitHalfOpen =>
    simp only [hstate] at hok ⊢
    split_ifs at hok ⊢ with hfull
    refine ⟨h.stored, ?_, h.successes_nonneg, h.successes_lt, fun _ => hstate⟩
    have := h.covered
    push_cast
    omega

lemma accounted_collapse (h : Accounted cb now n) :
    Accounted cb now (if cb.halfOpenCalls = 0 then 0 else n) := by
  split_ifs with hzero
  · refine ⟨h.stored, ?_, h.successes_nonneg, h.successes_lt, by simp⟩
    have := h.successes_nonneg
    push_cast
    omega
  · exact h

lemma probes_eq_zero (h : Accounted cb now n) (hstate : cb.currentState now ≠ circuitHalfOpen) :
    n = 0 :=
  Nat.eq_zero_of_not_pos fun hn => hstate (h.probing hn)

variable {k : ℕ} (h : Accounted cb now (n + k))
include h

lemma accounted_onSuccess (hk : k ≤ 1) :
    Accounted (cb.onSuccess (cb.currentState now)) now
      (if (cb.onSuccess (cb.currentState now)).halfOpenCalls = 0 then 0 else n) := by
  by_cases hstate : cb.currentState now = circuitHalfOpen
  · rw [hstate]
    by_cases hfull : cb.halfOpenMax ≤ cb.successes + 1
    · have hreset : cb.onSuccess circuitHalfOpen = cb.reset := by
        simp [onSuccess, hfull, reset]
      rw [hreset]
      exact accounted_reset cb now
    have hmore : cb.onSuccess circuitHalfOpen = { cb with successes := cb.successes + 1 } := by
      simp [onSuccess, hfull]
    have hcovered := h.covered
    have hnonneg := h.successes_nonneg
    rw [hmore]
    exact accounted_collapse ⟨h.stored, by dsimp only; omega, by dsimp only; omega,
      by dsimp only; omega, fun _ => hstate⟩
  · obtain ⟨rfl, rfl⟩ := Nat.add_eq_zero_iff.mp (probes_eq_zero h hstate)
    refine accounted_collapse ?_
    cases hcur : cb.currentState now with
    | circuitClosed => exact { h with probing := by simp }
    | circuitOpen => exact h
    | circuitHalfOpen => exact absurd hcur hstate

lemma accounted_onFailure :
    Accounted (cb.onFailure now (cb.currentState now)) now
      (if (cb.onFailure now (cb.currentState now)).halfOpenCalls = 0 then 0 else n) := by
  by_cases hstate : cb.currentState now = circuitHalfOpen
  · rw [hstate]
    exact ⟨by simp [onFailure], by simp [onFailure], by simp [onFailure], cb.halfOpenMax_pos,
      by simp [onFailure]⟩
  obtain ⟨rfl, rfl⟩ := Nat.add_eq_zero_iff.mp (probes_eq_zero h hstate)
  refine accounted_collapse ?_
  cases hcur : cb.currentState now with
  | circuitClosed =>
    simp only [onFailure]
    split_ifs
    · exact { h with stored := by simp, probing := by simp }
    · exact { h with probing := by simp }
  | circuitOpen => exact { h with probing := by simp }
  | circuitHalfOpen => exact absurd hcur hstate

lemma accounted_afterCall (hk : k ≤ 1)
    {err : Option CallError} (hrec : (CallEnd.returned err).isRecorded = false → k = 0) :
    Accounted (cb.afterCall now err) now
      (if (cb.afterCall now err).halfOpenCalls = 0 then 0 else n) := by
  match err with
  | none => exact accounted_onSuccess h hk
  | some .retryable => exact accounted_onFailure h
  | some .noRetry =>
    obtain rfl := hrec rfl
    exact accounted_collapse h

omit h

lemma lastFailure_afterCall (cb : CircuitBreaker) (now : ℤ) (err : Option CallError) :
    (cb.afterCall now err).lastFailure = cb.lastFailure ∨
      (cb.afterCall now err).lastFailure = now := by
  match err with
  | none =>
    refine .inl ?_
    cases hcur : cb.currentState now <;> simp only [afterCall, onSuccess, hcur]
    split_ifs <;> rfl
  | some .retryable =>
    refine .inr ?_
    cases hcur : cb.currentState now <;> simp only [afterCall, onFailure, hcur]
    split_ifs <;> rfl
  | some .noRetry => exact .inl rfl

lemma lastFailure_beforeCall (cb : CircuitBreaker) (now : ℤ) :
    (cb.beforeCall now).1.lastFailure = cb.lastFailure := by
  unfold beforeCall
  cases cb.currentState now with
  | circuitClosed => rfl
  | circuitOpen => rfl
  | circuitHalfOpen =>
    simp only
    split_ifs <;> rfl

lemma admits_of_elapsed (h : Accounted cb now 0) {t : ℤ}
    (ht : cb.lastFailure + cb.resetTimeout ≤ t) : cb.Admits t := by
  have hcovered := h.covered
  have hlt := h.successes_lt
  push_cast at hcovered
  cases hstate : cb.state with
  | circuitHalfOpen => exact absurd hstate h.stored
  | circuitClosed => simp [Admits, beforeCall, currentState, hstate]
  | circuitOpen =>
    have hcur := (currentState_eq_halfOpen h.stored).mpr
      ⟨hstate, show cb.resetTimeout ≤ t - cb.lastFailure by omega⟩
    have hroom : ¬ cb.halfOpenMax ≤ cb.halfOpenCalls := by omega
    simp [Admits, beforeCall, hcur, hroom]

lemma not_admits_of_full (hopen : cb.state = circuitOpen)
    (hfull : cb.halfOpenMax ≤ cb.halfOpenCalls) (t : ℤ) : ¬ cb.Admits t := by
  by_cases ht : cb.resetTimeout ≤ t - cb.lastFailure
  · simp [Admits, beforeCall, currentState, hopen, hfull, ht]
  · simp [Admits, beforeCall, currentState, hopen, ht]

end CircuitBreaker

/-! ## Every run of calls -/

/-- The invariant of a run in which every probe is reported. -/
structure BreakerInv (s : BreakerState) : Prop where
  accounted : Accounted s.breaker s.now s.probes
  lastFailure_le : s.breaker.lastFailure ≤ s.changedAt
  changedAt_le : s.changedAt ≤ s.now

lemma probes_le_one (c : Execution) : c.probes ≤ 1 := by
  unfold Execution.probes
  split <;> omega

lemma probes_update (s : BreakerState) (cb : CircuitBreaker) :
    (s.update cb).probes = if cb.halfOpenCalls = 0 then 0 else s.probes := by
  unfold BreakerState.probes BreakerState.update
  dsimp only
  split_ifs
  · exact Pool.total_eq_zero (List.forall_mem_map.mpr fun c _ => by simp [Execution.probes])
  · rfl

variable {s : BreakerState}

lemma changedAt_update {cb : CircuitBreaker}
    (hfail : s.breaker.lastFailure ≤ s.changedAt) (hle : s.changedAt ≤ s.now)
    (hcb : cb.lastFailure = s.breaker.lastFailure ∨ cb.lastFailure = s.now) :
    cb.lastFailure ≤ (s.update cb).changedAt ∧ (s.update cb).changedAt ≤ s.now := by
  unfold BreakerState.update
  dsimp only
  split_ifs with heq
  · subst heq
    exact ⟨hfail, hle⟩
  · refine ⟨?_, le_refl _⟩
    rcases hcb with hcb | hcb <;> omega

lemma breakerInv_start (name : String) (cfg : CircuitBreakerConfig) (t : ℕ) :
    BreakerInv (BreakerState.start name cfg t) where
  accounted := CircuitBreaker.accounted_new name cfg t
  lastFailure_le := Int.natCast_nonneg t
  changedAt_le := le_refl _

lemma breakerInv_update {cb : CircuitBreaker}
    (hacc : Accounted cb s.now (if cb.halfOpenCalls = 0 then 0 else s.probes))
    (hfail : s.breaker.lastFailure ≤ s.changedAt) (hle : s.changedAt ≤ s.now)
    (hcb : cb.lastFailure = s.breaker.lastFailure ∨ cb.lastFailure = s.now) :
    BreakerInv (s.update cb) where
  accounted := by
    rw [probes_update]
    exact hacc
  lastFailure_le := (changedAt_update hfail hle hcb).1
  changedAt_le := (changedAt_update hfail hle hcb).2

lemma breakerInv_beginCall {s' : BreakerState} (hs : BreakerInv s)
    (h : breakerStep s .beginCall = some s') : BreakerInv s' := by
  simp only [breakerStep] at h
  have hacc := @CircuitBreaker.accounted_beforeCall s.breaker s.now s.probes hs.accounted
  have hfail := CircuitBreaker.lastFailure_beforeCall s.breaker s.now
  split at h
  next => exact Option.some.inj h ▸ hs
  next cb hok =>
    rw [hok] at hacc hfail
    cases h
    refine breakerInv_update (CircuitBreaker.accounted_collapse ?_) hs.lastFailure_le
      hs.changedAt_le (.inl hfail)
    simpa [BreakerState.probes, Execution.probes] using hacc rfl

/-- **Every step in which no counted probe ends unrecorded keeps the count covered.** -/
theorem breakerInv_step (s : BreakerState) (a : BreakerAction) (s' : BreakerState)
    (hs : BreakerInv s) (ha : Reported s a) (h : breakerStep s a = some s') : BreakerInv s' := by
  cases a with
  | tick d =>
    cases h
    have := hs.changedAt_le
    exact ⟨CircuitBreaker.accounted_tick hs.accounted d, hs.lastFailure_le, by dsimp only; omega⟩
  | beginCall => exact breakerInv_beginCall hs h
  | reset =>
    cases h
    exact breakerInv_update (CircuitBreaker.accounted_reset _ _) hs.lastFailure_le hs.changedAt_le
      (.inl rfl)
  | endCall i e =>
    simp only [breakerStep] at h
    split at h
    next probe hi =>
      have hsum : Pool.total Execution.probes (s.calls.set i ⟨false, probe⟩) +
          Execution.probes ⟨true, probe⟩ = s.probes := by
        rw [Pool.sum_set Execution.probes hi ⟨false, probe⟩]
        simp [BreakerState.probes, Execution.probes]
      have hacc := hsum ▸ hs.accounted
      have hrec : e.isRecorded = false → Execution.probes ⟨true, probe⟩ = 0 := by
        intro he
        have hprobe : probe ≠ true := fun hp => by simp [ha ⟨true, probe⟩ hi hp] at he
        simp [Execution.probes, hprobe]
      cases e with
      | returned err =>
        cases h
        exact breakerInv_update
          (CircuitBreaker.accounted_afterCall hacc (probes_le_one _) hrec)
          hs.lastFailure_le hs.changedAt_le (CircuitBreaker.lastFailure_afterCall _ _ _)
      | panicked =>
        cases h
        rw [hrec rfl, Nat.add_zero] at hacc
        exact ⟨hacc, hs.lastFailure_le, hs.changedAt_le⟩
    next => cases h

lemma probes_eq_zero_of_idle (h : s.inFlight = 0) : s.probes = 0 := by
  refine Pool.total_eq_zero fun c hc => ?_
  have hlive : ¬ c.live = true := List.countP_eq_zero.mp h c hc
  simp [Execution.probes, hlive]

lemma recovers_of_inv (hs : BreakerInv s) : s.Recovers := by
  intro hidle t ht
  have hfail := hs.lastFailure_le
  have hacc := hs.accounted
  rw [probes_eq_zero_of_idle hidle] at hacc
  exact CircuitBreaker.admits_of_elapsed hacc (by omega)

/-- **The breaker recovers.** Along every run in which no counted probe panics or ends with a
no-retry error, it admits a call once none is in flight and the reset timeout has elapsed. -/
theorem breaker_recovers (name : String) (cfg : CircuitBreakerConfig) (t : ℕ)
    (as : List BreakerAction) (s : BreakerState)
    (has : Along breakerStep Reported (BreakerState.start name cfg t) as)
    (h : run breakerStep (BreakerState.start name cfg t) as = some s) : s.Recovers :=
  recovers_of_inv (invariant_of_along breakerInv_step (breakerInv_start name cfg t) has h)

/-- Five failures open the circuit, the timeout runs out, and a probe is admitted. -/
def probing : List BreakerAction :=
  (List.range 5).flatMap (fun i => [.beginCall, .endCall i (.returned (some .retryable))]) ++
    [.tick 30000000000, .beginCall]

def probeReported : List BreakerAction :=
  probing ++ [.endCall 5 (.returned none), .beginCall, .endCall 6 (.returned (some .noRetry))]

def probeLost : List BreakerAction := probing ++ [.endCall 5 (.returned (some .noRetry))]

def providerBreaker : BreakerState := .start "hetzner" defaultCircuitBreakerConfig 0

theorem breaker_recovers_probeReported :
    ∃ s, run breakerStep providerBreaker probeReported = some s ∧
      s.inFlight = 0 ∧ s.breaker.Admits (60 * second) := by
  refine exists_of_run_imp (P := fun s => s.inFlight = 0 ∧
    s.changedAt + s.breaker.resetTimeout ≤ 60 * second) (by decide) fun s hrun ⟨hidle, helapsed⟩ => ?_
  exact ⟨hidle, breaker_recovers _ _ _ _ s (by decide) hrun hidle _ helapsed⟩

/-- After the lost probe no call is in flight, and the breaker rejects at every time. -/
theorem breaker_rejects_forever : ∃ s, run breakerStep providerBreaker probeLost = some s ∧
    s.inFlight = 0 ∧ (∀ t, ¬ s.breaker.Admits t) ∧ ¬ s.Recovers := by
  refine exists_of_run_imp (P := fun s => s.inFlight = 0 ∧ s.breaker.state = circuitOpen ∧
    s.breaker.halfOpenMax ≤ s.breaker.halfOpenCalls) (by decide) fun s _ ⟨hidle, hopen, hfull⟩ => ?_
  have hreject := CircuitBreaker.not_admits_of_full hopen hfull
  exact ⟨hidle, hreject, fun hrec => hreject _ (hrec hidle _ (le_refl _))⟩

/-!
# Probes of the circuit breaker

In half-open state `beforeCall` counts the calls it admits. The count goes back to zero when the
breaker leaves the state, also by a call from the time before the circuit opened.
-/

open CircuitState List CircuitBreaker

/-- The breaker with its history. -/
structure ProbeState where
  base : BreakerState
  /-- The calls that were admitted in half-open state and have not ended, by their numbers. -/
  probing : List ℕ
  /-- The calls that were admitted since the breaker became half-open; 0 in the other states. -/
  admitted : ℕ

def BreakerState.halfOpen (s : BreakerState) : Prop :=
  s.breaker.currentState s.now = circuitHalfOpen
  deriving Decidable

namespace ProbeState

def start (name : String) (cfg : CircuitBreakerConfig) (t : ℕ) : ProbeState :=
  ⟨.start name cfg t, [], 0⟩

/-- The call that the action begins in half-open state, if the breaker admits it. -/
def newProbe (s : ProbeState) : BreakerAction → List ℕ
  | .beginCall =>
    if s.base.halfOpen ∧ s.base.breaker.Admits s.base.now then [s.base.calls.length] else []
  | _ => []

def remaining (s : ProbeState) : BreakerAction → List ℕ
  | .endCall i _ => s.probing.filter (· ≠ i)
  | _ => s.probing

end ProbeState

/-- A step of the breaker, with what it adds to the history. -/
def probeStep (s : ProbeState) (a : BreakerAction) : Option ProbeState :=
  (breakerStep s.base a).map fun base =>
    { base
      probing := s.remaining a ++ s.newProbe a
      admitted := if base.halfOpen then s.admitted + (s.newProbe a).length else 0 }

namespace CircuitBreaker

/-- The report sets the half-open count back: a failure in half-open state, or the last success that
is needed there. -/
def Drops (cb : CircuitBreaker) (now : ℤ) : Option CallError → Prop
  | none => cb.currentState now = circuitHalfOpen ∧ cb.halfOpenMax ≤ cb.successes + 1
  | some .retryable => cb.currentState now = circuitHalfOpen
  | some .noRetry => False

instance (cb : CircuitBreaker) (now : ℤ) (err : Option CallError) : Decidable (cb.Drops now err) := by
  unfold Drops
  split <;> infer_instance

variable {cb : CircuitBreaker} {now : ℤ}

lemma currentState_of_failed (hstored : cb.state ≠ circuitHalfOpen) (hnow : cb.lastFailure = now) :
    cb.currentState now ≠ circuitHalfOpen := by
  rw [Ne, currentState_eq_halfOpen hstored, hnow]
  rintro ⟨-, helapsed⟩
  have := cb.resetTimeout_pos
  omega

structure Reports (cb : CircuitBreaker) (now : ℤ) (dropped : Prop) (cb' : CircuitBreaker) : Prop where
  stored : cb'.state ≠ circuitHalfOpen
  max_eq : cb'.halfOpenMax = cb.halfOpenMax
  effect : cb'.halfOpenCalls = cb.halfOpenCalls ∨
    (dropped ∧ cb'.halfOpenCalls = 0 ∧ cb'.currentState now ≠ circuitHalfOpen)

variable (hstored : cb.state ≠ circuitHalfOpen)
include hstored

lemma reports_onSuccess :
    Reports cb now (cb.Drops now none) (cb.onSuccess (cb.currentState now)) := by
  cases hcur : cb.currentState now with
  | circuitClosed | circuitOpen => exact ⟨hstored, rfl, .inl rfl⟩
  | circuitHalfOpen =>
    simp only [onSuccess]
    split
    case isTrue hfull =>
      exact ⟨by rintro ⟨⟩, rfl, .inr ⟨⟨hcur, hfull⟩, rfl, by simp [currentState, reset]⟩⟩
    case isFalse => exact ⟨hstored, rfl, .inl rfl⟩

lemma reports_onFailure :
    Reports cb now (cb.Drops now (some .retryable))
      (cb.onFailure now (cb.currentState now)) := by
  cases hcur : cb.currentState now with
  | circuitClosed =>
    simp only [onFailure]
    split
    · exact ⟨by rintro ⟨⟩, rfl, .inl rfl⟩
    · exact ⟨hstored, rfl, .inl rfl⟩
  | circuitOpen => exact ⟨hstored, rfl, .inl rfl⟩
  | circuitHalfOpen => exact ⟨by rintro ⟨⟩, rfl, .inr ⟨hcur, rfl, currentState_of_failed (by rintro ⟨⟩) rfl⟩⟩

/-- **A report keeps the half-open count, or the breaker leaves half-open state with it.** -/
theorem afterCall_effect (now : ℤ) (err : Option CallError) :
    Reports cb now (cb.Drops now err) (cb.afterCall now err) := by
  match err with
  | none => exact reports_onSuccess hstored
  | some .retryable => exact reports_onFailure hstored
  | some .noRetry => exact ⟨hstored, rfl, .inl rfl⟩

omit hstored

lemma beforeCall_of_admits (h : cb.Admits now) :
    (cb.currentState now = circuitHalfOpen ∧ cb.halfOpenCalls < cb.halfOpenMax ∧
      cb.beforeCall now = ({ cb with halfOpenCalls := cb.halfOpenCalls + 1 }, none)) ∨
    (cb.currentState now ≠ circuitHalfOpen ∧ cb.beforeCall now = (cb, none)) := by
  unfold Admits at h
  unfold beforeCall at h ⊢
  cases hcur : cb.currentState now with
  | circuitClosed => exact .inr ⟨nofun, rfl⟩
  | circuitOpen => simp [hcur] at h
  | circuitHalfOpen =>
    simp only [hcur] at h ⊢
    split at h
    · cases h
    case isFalse hroom => exact .inl ⟨trivial, Int.not_le.mp hroom, if_neg hroom⟩

end CircuitBreaker

/-! ## The invariants -/

/-- The history is within the count, and the count within the maximum `m`. -/
structure ProbeInv (m : ℤ) (s : ProbeState) : Prop where
  stored : s.base.breaker.state ≠ circuitHalfOpen
  max_eq : s.base.breaker.halfOpenMax = m
  nonneg : 0 ≤ s.base.breaker.halfOpenCalls
  le_max : s.base.breaker.halfOpenCalls ≤ m
  admitted_le : (s.admitted : ℤ) ≤ s.base.breaker.halfOpenCalls

def Counted (s : ProbeState) : Prop :=
  (s.probing.length : ℤ) ≤ s.base.breaker.halfOpenCalls

/-- The count is set back only when no other half-open call is in flight. -/
def Undisturbed (s : ProbeState) : BreakerAction → Prop
  | .endCall i (.returned err) =>
    s.base.breaker.Drops s.base.now err → ∀ j ∈ s.probing, j = i
  | .reset => s.probing = []
  | _ => True

instance (s : ProbeState) (a : BreakerAction) : Decidable (Undisturbed s a) := by
  unfold Undisturbed
  split <;> infer_instance

variable {m : ℤ} {s s' : ProbeState} {base : BreakerState}

/-- What a step does, as far as the half-open count goes. -/
inductive ProbeMove (s : ProbeState) : BreakerAction → BreakerState → Prop
  /-- No half-open call is admitted, and the count stays. -/
  | keep {a : BreakerAction} {base : BreakerState} (hnew : s.newProbe a = [])
      (hstored : base.breaker.state ≠ circuitHalfOpen)
      (hmax : base.breaker.halfOpenMax = s.base.breaker.halfOpenMax)
      (hcalls : base.breaker.halfOpenCalls = s.base.breaker.halfOpenCalls) : ProbeMove s a base
  | probe {base : BreakerState} (hhalf : s.base.halfOpen) (hhalf' : base.halfOpen)
      (hnew : s.newProbe .beginCall = [s.base.calls.length])
      (hstored : base.breaker.state ≠ circuitHalfOpen)
      (hmax : base.breaker.halfOpenMax = s.base.breaker.halfOpenMax)
      (hroom : s.base.breaker.halfOpenCalls < s.base.breaker.halfOpenMax)
      (hcalls : base.breaker.halfOpenCalls = s.base.breaker.halfOpenCalls + 1) :
      ProbeMove s .beginCall base
  /-- The breaker leaves half-open state, and the count is set back. -/
  | drop {a : BreakerAction} {base : BreakerState} (hnew : s.newProbe a = [])
      (hstored : base.breaker.state ≠ circuitHalfOpen)
      (hmax : base.breaker.halfOpenMax = s.base.breaker.halfOpenMax)
      (hcalls : base.breaker.halfOpenCalls = 0) (hleft : ¬base.halfOpen)
      (halone : Undisturbed s a → s.remaining a = []) : ProbeMove s a base

variable (hstored : s.base.breaker.state ≠ circuitHalfOpen)
include hstored

lemma probeMove_beginCall
    (h : breakerStep s.base .beginCall = some base) : ProbeMove s .beginCall base := by
  simp only [breakerStep] at h
  split at h
  case h_1 cb e hrejected =>
    cases h
    have hnot : ¬s.base.breaker.Admits s.base.now := by simp [CircuitBreaker.Admits, hrejected]
    exact .keep (if_neg fun h => hnot h.2) hstored rfl rfl
  case h_2 cb hok =>
    cases h
    have hadmits : s.base.breaker.Admits s.base.now := by simp [CircuitBreaker.Admits, hok]
    rcases beforeCall_of_admits hadmits with
      ⟨hhalf, hroom, hcall⟩ | ⟨hnot, hcall⟩
    · obtain rfl := (Prod.mk.inj (hcall.symm.trans hok)).1
      exact .probe hhalf hhalf (if_pos ⟨hhalf, hadmits⟩) hstored rfl hroom rfl
    · obtain rfl := (Prod.mk.inj (hcall.symm.trans hok)).1
      exact .keep (if_neg fun h => hnot h.1) hstored rfl rfl

lemma probeMove_endCall {i : ℕ} {e : CallEnd}
    (h : breakerStep s.base (.endCall i e) = some base) : ProbeMove s (.endCall i e) base := by
  simp only [breakerStep] at h
  split at h
  case h_2 => cases h
  case h_1 =>
    cases e with
    | panicked =>
      cases h
      exact .keep rfl hstored rfl rfl
    | returned err =>
      cases h
      obtain ⟨hstored', hmax, heffect⟩ := afterCall_effect hstored s.base.now err
      rcases heffect with hcalls | ⟨hdropped, hcalls, hleft⟩
      · exact .keep rfl hstored' hmax hcalls
      · refine .drop rfl hstored' hmax hcalls hleft fun halone => ?_
        exact filter_eq_nil_iff.mpr fun j hj => by simpa using halone hdropped j hj

variable {a : BreakerAction}

/-- **What a step can do to the half-open count.** -/
theorem probeMove_of_step (h : breakerStep s.base a = some base) : ProbeMove s a base := by
  cases a with
  | tick d =>
    cases h
    exact .keep rfl hstored rfl rfl
  | beginCall => exact probeMove_beginCall hstored h
  | endCall i e => exact probeMove_endCall hstored h
  | reset =>
    cases h
    refine .drop rfl nofun rfl rfl ?_ id
    simp [BreakerState.halfOpen, BreakerState.update, CircuitBreaker.reset,
      CircuitBreaker.currentState]

omit hstored

lemma probeStep_eq_some (h : probeStep s a = some s') :
    breakerStep s.base a = some s'.base ∧ s'.probing = s.remaining a ++ s.newProbe a ∧
      s'.admitted = if s'.base.halfOpen then s.admitted + (s.newProbe a).length else 0 := by
  obtain ⟨base, hbase, rfl⟩ := Option.map_eq_some_iff.mp h
  exact ⟨hbase, rfl, rfl⟩

/-- **Every step keeps the calls of a half-open state counted**, up to the maximum. -/
theorem probeInv_step (s : ProbeState) (a : BreakerAction) (s' : ProbeState) (hs : ProbeInv m s)
    (h : probeStep s a = some s') : ProbeInv m s' := by
  obtain ⟨hbase, -, hadmitted⟩ := probeStep_eq_some h
  obtain ⟨hstored, hm, hnonneg, hle, hadm⟩ := hs
  cases probeMove_of_step hstored hbase with
  | keep hnew hstored' hmax hcalls =>
    refine ⟨hstored', hmax.trans hm, by omega, by omega, ?_⟩
    rw [hadmitted, hnew]
    split
    · simpa [hcalls] using hadm
    · simpa [hcalls] using hnonneg
  | probe _ hhalf' hnew hstored' hmax hroom hcalls =>
    refine ⟨hstored', hmax.trans hm, by omega, by omega, ?_⟩
    rw [hadmitted, hnew, if_pos hhalf', hcalls]
    simpa using hadm
  | drop _ hstored' hmax hcalls hleft =>
    refine ⟨hstored', hmax.trans hm, by omega, by omega, ?_⟩
    rw [hadmitted, if_neg hleft, hcalls]
    rfl

lemma length_remaining_le (s : ProbeState) (a : BreakerAction) :
    (s.remaining a).length ≤ s.probing.length := by
  cases a with
  | endCall i e => exact length_filter_le _ _
  | _ => exact le_refl _

/-- **Every step that does not set the count back too early keeps the half-open calls in flight
counted.** -/
theorem counted_step (hs : ProbeInv m s) (hcounted : Counted s)
    (ha : Undisturbed s a) (h : probeStep s a = some s') : Counted s' := by
  obtain ⟨hbase, hprobing, -⟩ := probeStep_eq_some h
  have hremaining := length_remaining_le s a
  unfold Counted at hcounted ⊢
  rw [hprobing, length_append]
  cases probeMove_of_step hs.stored hbase with
  | keep hnew _ _ hcalls =>
    rw [hnew, hcalls, length_nil]
    omega
  | probe _ _ hnew _ _ _ hcalls =>
    rw [hnew, hcalls, length_singleton]
    push_cast
    omega
  | drop hnew _ _ hcalls _ halone =>
    rw [hnew, hcalls, halone ha]
    rfl

/-- The `HalfOpenMaxCalls` of a configuration, with the default that the constructor puts in. -/
def CircuitBreakerConfig.halfOpenMax (cfg : CircuitBreakerConfig) : ℤ :=
  if cfg.halfOpenMaxCalls ≤ 0 then 1 else cfg.halfOpenMaxCalls

lemma probeInv_start (name : String) (cfg : CircuitBreakerConfig) (t : ℕ) :
    ProbeInv cfg.halfOpenMax (.start name cfg t) where
  stored := nofun
  max_eq := rfl
  nonneg := le_refl _
  le_max := (newCircuitBreaker name cfg).halfOpenMax_pos.le
  admitted_le := le_refl _

/-- **The probes of the breaker.** Each time it is half-open it admits at most `HalfOpenMaxCalls`
calls. As many are in flight at most, when no step sets the half-open count back while another is in
flight. -/
theorem halfOpen_bounded (name : String) (cfg : CircuitBreakerConfig) (t : ℕ)
    (as : List BreakerAction) (s : ProbeState) (h : run probeStep (.start name cfg t) as = some s) :
    (s.admitted : ℤ) ≤ cfg.halfOpenMax ∧
      (Along probeStep Undisturbed (.start name cfg t) as →
        (s.probing.length : ℤ) ≤ cfg.halfOpenMax) := by
  have hinv := invariant_of_run probeInv_step (probeInv_start name cfg t) h
  refine ⟨hinv.admitted_le.trans hinv.le_max, fun has => ?_⟩
  have hboth : ProbeInv cfg.halfOpenMax s ∧ Counted s := by
    refine invariant_of_along (I := fun s => ProbeInv cfg.halfOpenMax s ∧ Counted s) ?_
      ⟨probeInv_start name cfg t, le_refl _⟩ has h
    intro s a s' hs ha hstep
    exact ⟨probeInv_step s a s' hs.1 hstep, counted_step hs.1 hs.2 ha hstep⟩
  exact hboth.2.trans hinv.le_max

def slowCall : List BreakerAction :=
  .beginCall :: (List.range 5).flatMap fun i =>
    [.beginCall, .endCall (i + 1) (.returned (some .retryable))]

/-- The timeout runs out, and a probe is admitted; the slow call ends well and the probe does not. -/
def probeAlone : List BreakerAction :=
  [.endCall 0 (.returned none), .tick 30000000000, .beginCall,
    .endCall 6 (.returned (some .retryable)), .tick 30000000000, .beginCall]

def providerProbes : ProbeState := .start "hetzner" defaultCircuitBreakerConfig 0

theorem halfOpen_bounded_probeAlone :
    ∃ s, run probeStep providerProbes (slowCall ++ probeAlone) = some s ∧
      s.admitted = 1 ∧ s.probing = [7] ∧ (s.probing.length : ℤ) ≤ 1 := by
  refine exists_of_run_imp (P := fun s => s.admitted = 1 ∧ s.probing = [7]) (by decide)
    fun s hrun ⟨hadmitted, hprobing⟩ => ⟨hadmitted, hprobing, ?_⟩
  exact (halfOpen_bounded _ _ _ _ s hrun).2 (by decide)

def probeForgotten : List BreakerAction :=
  [.tick 30000000000, .beginCall, .endCall 0 (.returned (some .retryable)), .tick 30000000000,
    .beginCall]

/-- The next half-open state admits a second probe beside the first, where one is allowed. -/
theorem halfOpen_exceeded :
    ∃ s, run probeStep providerProbes (slowCall ++ probeForgotten) = some s ∧
      s.probing = [6, 7] ∧ ¬(s.probing.length : ℤ) ≤ defaultCircuitBreakerConfig.halfOpenMax :=
  by decide

end DeployMonster.Core
