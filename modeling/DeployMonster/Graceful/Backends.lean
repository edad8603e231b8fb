import Mathlib

/-!
# Connection counts and draining

`internal/deploy/graceful/connection.go`: the active connections of each backend, and the backends
that are being drained.
-/

namespace DeployMonster.Graceful

/-- The connection counts; a backend without a counter has none. -/
structure ConnectionTracker where
  conns : String → ℕ

def newConnectionTracker : ConnectionTracker := ⟨fun _ => 0⟩

variable {b : String}

namespace ConnectionTracker

variable (ct : ConnectionTracker)

def increment (containerID : String) : ConnectionTracker :=
  ⟨Function.update ct.conns containerID (ct.conns containerID + 1)⟩

def decrement (containerID : String) : ConnectionTracker :=
  if ct.conns containerID > 0 then
    ⟨Function.update ct.conns containerID (ct.conns containerID - 1)⟩
  else ct

def active (containerID : String) : ℕ := ct.conns containerID

lemma active_increment (b b' : String) :
    (ct.increment b').active b = ct.active b + (b' == b).toNat := by
  unfold increment active
  by_cases hb : b' = b
  · subst hb
    simp
  · simp [hb, Ne.symm hb]

lemma active_decrement {ct : ConnectionTracker} {b' : String} (h : (b' == b).toNat ≤ ct.active b) :
    (ct.decrement b').active b + (b' == b).toNat = ct.active b := by
  by_cases hb : b' = b
  · subst hb
    have hpos : 0 < ct.conns b' := Nat.lt_of_lt_of_le Nat.one_pos (by simpa [active] using h)
    simp only [decrement, active, hpos, if_true, Function.update_self, beq_self_eq_true,
      Bool.toNat_true]
    omega
  · unfold decrement active
    split <;> simp [hb, Ne.symm hb]

end ConnectionTracker

/-- The drain manager: the keys of its map, the backends that are draining. -/
structure DrainManager where
  draining : String → Bool

def newDrainManager : DrainManager := ⟨fun _ => false⟩

namespace DrainManager

variable (dm : DrainManager)

/-- `StartDrain`; the Boolean tells whether it returns a channel, that is, whether the container
was not draining already. -/
def startDrain (containerID : String) : DrainManager × Bool :=
  if dm.draining containerID then (dm, false)
  else (⟨Function.update dm.draining containerID true⟩, true)

def completeDrain (containerID : String) : DrainManager :=
  ⟨Function.update dm.draining containerID false⟩

def isDraining (containerID : String) : Bool := dm.draining containerID

lemma startDrain_of_isDraining {dm : DrainManager} (h : dm.isDraining b = true) :
    dm.startDrain b = (dm, false) :=
  if_pos h

lemma startDrain_of_not_isDraining {dm : DrainManager} (h : dm.isDraining b = false) :
    dm.startDrain b = (⟨Function.update dm.draining b true⟩, true) :=
  if_neg (by simpa [isDraining] using h)

lemma isDraining_startDrain (b b' : String) :
    (dm.startDrain b').1.isDraining b = (b' == b || dm.isDraining b) := by
  cases h : dm.isDraining b' with
  | true =>
    rw [startDrain_of_isDraining h]
    by_cases hb : b' = b
    · simp [← hb, h]
    · simp [hb]
  | false =>
    rw [startDrain_of_not_isDraining h]
    by_cases hb : b' = b
    · simp [isDraining, hb]
    · simp [isDraining, hb, Ne.symm hb]

lemma isDraining_completeDrain (b b' : String) :
    (dm.completeDrain b').isDraining b = (!(b' == b) && dm.isDraining b) := by
  by_cases hb : b' = b
  · simp [completeDrain, isDraining, hb]
  · simp [completeDrain, isDraining, hb, Ne.symm hb]

end DrainManager

def errDrainTimeout : String := "drain timeout: connections still active"

/-!
# The per-backend circuit breakers

`internal/deploy/graceful/circuit.go`. Only `AllowRequest` takes an open circuit to half-open;
`State` reports the stored state.
-/

open Function

inductive CircuitState
  | circuitClosed | circuitOpen | circuitHalfOpen
  deriving DecidableEq

open CircuitState

structure CircuitConfig where
  (failureThreshold successThreshold timeout : ℤ)

/-- `DefaultCircuitConfig`, the timeout in nanoseconds. -/
def defaultCircuitConfig : CircuitConfig where
  failureThreshold := 5
  successThreshold := 2
  timeout := 30000000000

structure CircuitBreaker where
  state : CircuitState
  (failureCount successCount lastFailTime lastStateChange : ℤ)
  config : CircuitConfig

/-- `NewCircuitBreaker`, with `lastFailTime` at the zero time. -/
def newCircuitBreaker (config : CircuitConfig) (now : ℤ) : CircuitBreaker where
  state := circuitClosed
  failureCount := 0
  successCount := 0
  lastFailTime := 0
  lastStateChange := now
  config := config

namespace CircuitBreaker

variable (cb : CircuitBreaker)

def recordSuccess (now : ℤ) : CircuitBreaker :=
  match cb.state with
  | circuitClosed => { cb with failureCount := 0 }
  | circuitHalfOpen =>
    let cb := { cb with successCount := cb.successCount + 1 }
    if cb.successCount ≥ cb.config.successThreshold then
      { cb with
        state := circuitClosed, failureCount := 0, successCount := 0, lastStateChange := now }
    else cb
  | circuitOpen => cb

def recordFailure (now : ℤ) : CircuitBreaker :=
  let cb := { cb with lastFailTime := now }
  match cb.state with
  | circuitClosed =>
    let cb := { cb with failureCount := cb.failureCount + 1 }
    if cb.failureCount ≥ cb.config.failureThreshold then
      { cb with state := circuitOpen, lastStateChange := now }
    else cb
  | circuitHalfOpen => { cb with state := circuitOpen, successCount := 0, lastStateChange := now }
  | circuitOpen => cb

variable {cb : CircuitBreaker}

@[simp] lemma config_recordSuccess (now : ℤ) : (cb.recordSuccess now).config = cb.config := by
  unfold recordSuccess
  cases cb.state with
  | circuitClosed => rfl
  | circuitOpen => rfl
  | circuitHalfOpen =>
    dsimp only
    split_ifs <;> rfl

@[simp] lemma config_recordFailure (now : ℤ) : (cb.recordFailure now).config = cb.config := by
  unfold recordFailure
  cases cb.state with
  | circuitClosed =>
    dsimp only
    split_ifs <;> rfl
  | circuitOpen => rfl
  | circuitHalfOpen => rfl

lemma state_recordSuccess (h : cb.state ≠ circuitHalfOpen) (now : ℤ) :
    (cb.recordSuccess now).state = cb.state := by
  unfold recordSuccess
  split
  · rfl
  · contradiction
  · rfl

lemma state_recordFailure (h : cb.state ≠ circuitHalfOpen) (now : ℤ) :
    (cb.recordFailure now).state =
      if cb.config.failureThreshold ≤ cb.failureCount + 1 then circuitOpen else cb.state := by
  unfold recordFailure
  cases hstate : cb.state with
  | circuitClosed =>
    dsimp only
    split_ifs <;> simp_all
  | circuitOpen => simp
  | circuitHalfOpen => contradiction

end CircuitBreaker

/-- The manager: a breaker for each backend that has needed one. -/
structure CircuitBreakerManager where
  breakers : String → Option CircuitBreaker
  config : CircuitConfig

/-- What a request tells the circuit of its backend. -/
inductive Outcome
  | success | failure
  deriving DecidableEq

namespace CircuitBreakerManager

variable (m : CircuitBreakerManager)

def breaker (backend : String) (now : ℤ) : CircuitBreaker :=
  (m.breakers backend).getD (newCircuitBreaker m.config now)

def recordSuccess (backend : String) (now : ℤ) : CircuitBreakerManager :=
  match m.breakers backend with
  | some cb => { m with breakers := update m.breakers backend (cb.recordSuccess now) }
  | none => m

def recordFailure (backend : String) (now : ℤ) : CircuitBreakerManager :=
  let cb := (m.breaker backend now).recordFailure now
  { m with breakers := update m.breakers backend cb }

def state (backend : String) : CircuitState :=
  match m.breakers backend with
  | none => circuitClosed
  | some cb => cb.state

def isOpen (backend : String) : Bool :=
  m.state backend = circuitOpen

def record (now : ℤ) : Option (String × Outcome) → CircuitBreakerManager
  | none => m
  | some (backend, .success) => m.recordSuccess backend now
  | some (backend, .failure) => m.recordFailure backend now

/-- The failures of a backend since its last success, as its closed circuit counts them. -/
def failureCount (backend : String) : ℤ :=
  match m.breakers backend with
  | none => 0
  | some cb => cb.failureCount

def Trips (backend : String) (r : Option (String × Outcome)) : Prop :=
  r = some (backend, .failure) ∧ m.config.failureThreshold ≤ m.failureCount backend + 1
  deriving Decidable

/-- A manager that `AllowRequest` was never called on: no circuit is half-open. -/
structure NeverProbed (m : CircuitBreakerManager) : Prop where
  state_ne : ∀ b, m.state b ≠ circuitHalfOpen
  config_eq : ∀ b cb, m.breakers b = some cb → cb.config = m.config

variable {m : CircuitBreakerManager} {b : String} {now : ℤ}

lemma state_eq_breaker (b : String) (now : ℤ) : m.state b = (m.breaker b now).state := by
  unfold state breaker
  cases m.breakers b <;> rfl

lemma failureCount_eq_breaker (b : String) (now : ℤ) :
    m.failureCount b = (m.breaker b now).failureCount := by
  unfold failureCount breaker
  cases m.breakers b <;> rfl

lemma NeverProbed.breaker_config (h : m.NeverProbed) (b : String) (now : ℤ) :
    (m.breaker b now).config = m.config := by
  unfold breaker
  cases hb : m.breakers b with
  | none => rfl
  | some cb => exact h.config_eq b cb hb

lemma state_recordFailure (b b' : String) (now : ℤ) : (m.recordFailure b now).state b' =
      if b' = b then ((m.breaker b now).recordFailure now).state else m.state b' := by
  unfold recordFailure state breaker
  by_cases hb : b' = b
  · subst hb
    simp
  · simp [hb]

lemma state_recordSuccess (b b' : String) (now : ℤ) : (m.recordSuccess b now).state b' =
      if b' = b then ((m.breaker b now).recordSuccess now).state else m.state b' := by
  unfold recordSuccess state breaker
  by_cases hb : b' = b
  · subst hb
    cases hget : m.breakers b' <;> simp [hget, newCircuitBreaker, CircuitBreaker.recordSuccess]
  · cases hget : m.breakers b <;> simp [hb]

/-- Without probes an open circuit stays open under every record, and only a tripping failure opens
one. -/
lemma NeverProbed.state_record (h : m.NeverProbed) (now : ℤ) (r : Option (String × Outcome))
    (b : String) : (m.record now r).state b = if m.Trips b r then circuitOpen else m.state b := by
  have hbreaker : ∀ b, (m.breaker b now).state ≠ circuitHalfOpen := fun b =>
    m.state_eq_breaker b now ▸ h.state_ne b
  match r with
  | none => simp [record, Trips]
  | some (b', .success) =>
    have htrips : ¬ m.Trips b (some (b', .success)) := by simp [Trips]
    rw [record, CircuitBreakerManager.state_recordSuccess, if_neg htrips]
    by_cases hb : b = b'
    · rw [if_pos hb, CircuitBreaker.state_recordSuccess (hbreaker b'), ← m.state_eq_breaker, hb]
    · rw [if_neg hb]
  | some (b', .failure) =>
    rw [record, CircuitBreakerManager.state_recordFailure]
    by_cases hb : b = b'
    · subst hb
      rw [if_pos rfl, CircuitBreaker.state_recordFailure (hbreaker b), h.breaker_config,
        ← m.state_eq_breaker, ← m.failureCount_eq_breaker]
      simp [Trips]
    · have htrips : ¬ m.Trips b (some (b', .failure)) := by
        rintro ⟨heq, -⟩
        simp [Ne.symm hb] at heq
      rw [if_neg hb, if_neg htrips]

lemma config_record (now : ℤ) (r : Option (String × Outcome)) :
    (m.record now r).config = m.config := by
  match r with
  | none => rfl
  | some (b', .success) =>
    simp only [record, recordSuccess]
    cases m.breakers b' <;> rfl
  | some (b', .failure) => rfl

lemma NeverProbed.record (h : m.NeverProbed) (now : ℤ) (r : Option (String × Outcome)) :
    (m.record now r).NeverProbed where
  state_ne := by
    intro b
    rw [h.state_record]
    split_ifs
    · simp
    · exact h.state_ne b
  config_eq := by
    intro b cb hb
    rw [config_record]
    match r with
    | none => exact h.config_eq b cb hb
    | some (b', .success) =>
      simp only [CircuitBreakerManager.record, recordSuccess] at hb
      cases hget : m.breakers b' with
      | none => exact h.config_eq b cb (by simpa [hget] using hb)
      | some cb' =>
        simp only [hget, update_apply] at hb
        split_ifs at hb
        · cases hb
          rw [CircuitBreaker.config_recordSuccess]
          exact h.config_eq b' cb' hget
        · exact h.config_eq b cb hb
    | some (b', .failure) =>
      simp only [CircuitBreakerManager.record, recordFailure, update_apply] at hb
      split_ifs at hb
      · cases hb
        rw [CircuitBreaker.config_recordFailure]
        exact h.breaker_config b' now
      · exact h.config_eq b cb hb

end CircuitBreakerManager

end DeployMonster.Graceful
