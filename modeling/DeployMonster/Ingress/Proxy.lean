import DeployMonster.Graceful.Backends
import DeployMonster.Library.Pool
import DeployMonster.Library.StepMachine

/-!
# The reverse proxy

`ServeHTTP` of `internal/ingress/proxy.go`, with the drain calls of the same file. Each access to
shared state is a step of its own, so that requests, drains and the clock interleave in any order.
-/

namespace DeployMonster.Ingress

open Graceful Option

/-- The round-robin strategy: the number of calls so far, in 64 bits. -/
structure RoundRobin where
  counter : ℕ

/-- `Next`. It is called with a nonempty list only. -/
def RoundRobin.next (rr : RoundRobin) (backends : List String) : RoundRobin × String :=
  (⟨(rr.counter + 1) % 2 ^ 64⟩, backends.getD (rr.counter % backends.length) "")

/-- The shared state of the proxy, with the clock. -/
structure ReverseProxy where
  now : ℤ
  tracker : ConnectionTracker
  drainer : DrainManager
  circuit : CircuitBreakerManager
  lb : RoundRobin

def newReverseProxy (config : CircuitConfig) (now : ℤ) : ReverseProxy where
  now := now
  tracker := newConnectionTracker
  drainer := newDrainManager
  circuit := ⟨fun _ => none, config⟩
  lb := ⟨0⟩

structure ResponseTracker where
  backend : String
  status : ℕ
  written : Bool
  deriving DecidableEq

namespace ResponseTracker

/-- `WriteHeader`: the first status is recorded. -/
def writeHeader (rt : ResponseTracker) (status : ℕ) : ResponseTracker × Option Outcome :=
  if !rt.written then
    ({ rt with status := status, written := true },
      some (if status ≥ 500 then .failure else .success))
  else (rt, none)

/-- `Write`: a body without a header counts as status 200. -/
def write (rt : ResponseTracker) : ResponseTracker × Option Outcome :=
  if !rt.written then ({ rt with status := 200, written := true }, some .success)
  else (rt, none)

end ResponseTracker

/-- Where a call of `ServeHTTP` stands. -/
inductive Request
  /-- In the loop of `filterHealthyBackends`, with the backends that are left; `cleared` when the
  first of them has passed the draining test. -/
  | filtering (backends : List String) (cleared : Bool) (healthy : List String)
  | chosen (backend : String)
  /-- The connection is counted. -/
  | tracked (backend : String)
  /-- In the standard library's `ServeHTTP`. -/
  | serving (rt : ResponseTracker)
  /-- In the error handler, which has recorded its failure and is about to reply. -/
  | failing (rt : ResponseTracker)
  /-- About to run the deferred `Decrement`. -/
  | closing (backend : String)
  | returned
  deriving DecidableEq

/-- What a request does next, where it has a choice. -/
inductive RequestEvent
  | next | parseError
  | writeHeader (status : ℕ)
  | write | transportError | finish

namespace Request

/-- The next program point of a request. -/
def advance (rp : ReverseProxy) : Request → RequestEvent → Option Request
  | filtering (b :: bs) false healthy, .next =>
    if rp.drainer.isDraining b then some (filtering bs false healthy)
    else some (filtering (b :: bs) true healthy)
  | filtering (b :: bs) true healthy, .next =>
    if rp.circuit.isOpen b then some (filtering bs false healthy)
    else some (filtering bs false (healthy ++ [b]))
  | filtering [] _ healthy, .next =>
    if healthy.length = 0 then some returned else some (chosen (rp.lb.next healthy).2)
  | chosen b, .next => some (tracked b)
  | tracked b, .next => some (serving ⟨b, 0, false⟩)
  | tracked b, .parseError => some (closing b)
  | serving rt, .writeHeader status => some (serving (rt.writeHeader status).1)
  | serving rt, .write => some (serving rt.write.1)
  | serving rt, .transportError => some (failing rt)
  | serving rt, .finish => some (closing rt.backend)
  | failing rt, .next => some (closing rt.backend)
  | closing _, .next => some returned
  | _, _ => none

def recorded : Request → RequestEvent → Option (String × Outcome)
  | tracked b, .parseError => some (b, .failure)
  | serving rt, .writeHeader status => (rt.writeHeader status).2.map (rt.backend, ·)
  | serving rt, .write => rt.write.2.map (rt.backend, ·)
  | serving rt, .transportError => some (rt.backend, .failure)
  | failing rt, .next => (rt.writeHeader 502).2.map (rt.backend, ·)
  | _, _ => none

/-- The connection counts after the request has moved on. -/
def track (tracker : ConnectionTracker) : Request → RequestEvent → ConnectionTracker
  | chosen b, .next => tracker.increment b
  | closing b, .next => tracker.decrement b
  | _, _ => tracker

def balance (lb : RoundRobin) : Request → RequestEvent → RoundRobin
  | filtering [] _ healthy, .next => if healthy.length = 0 then lb else (lb.next healthy).1
  | _, _ => lb

end Request

/-- Where a call of `WaitForDrain` stands, for which backend. -/
inductive Waiter
  | waiting (backend : String)
  /-- About to run the deferred `CompleteDrain` and return. -/
  | completing (backend : String) (err : Option String)
  | returned (backend : String) (err : Option String)
  deriving DecidableEq

inductive WaiterEvent
  | ticker | deadline | complete

structure ProxyState where
  proxy : ReverseProxy
  requests : List Request
  waiters : List Waiter

def ProxyState.start (config : CircuitConfig) (now : ℤ) : ProxyState :=
  ⟨newReverseProxy config now, [], []⟩

inductive ProxyAction
  | serveHTTP (backends : List String)
  | request (i : ℕ) (e : RequestEvent)
  | startDrain (backend : String)
  | waitForDrain (backend : String)
  | waiter (j : ℕ) (e : WaiterEvent)
  | tick (d : ℕ)

/-- One step of a call of `WaitForDrain`. `CompleteDrain` is the last thing that it does. -/
def Waiter.advance (rp : ReverseProxy) : Waiter → WaiterEvent → Option (DrainManager × Waiter)
  | .waiting b, .ticker =>
    some (rp.drainer, if rp.tracker.active b = 0 then .completing b none else .waiting b)
  | .waiting b, .deadline => some (rp.drainer, .completing b (some errDrainTimeout))
  | .completing b err, .complete => some (rp.drainer.completeDrain b, .returned b err)
  | _, _ => none

def proxyStep (s : ProxyState) : ProxyAction → Option ProxyState
  | .serveHTTP backends => some { s with requests := s.requests ++ [.filtering backends false []] }
  | .request i e => do
    let r ← s.requests[i]?
    let r' ← r.advance s.proxy e
    some
      { s with
        proxy :=
          { s.proxy with
            tracker := r.track s.proxy.tracker e
            circuit := s.proxy.circuit.record s.proxy.now (r.recorded e)
            lb := r.balance s.proxy.lb e }
        requests := s.requests.set i r' }
  | .startDrain b =>
    some { s with proxy := { s.proxy with drainer := (s.proxy.drainer.startDrain b).1 } }
  | .waitForDrain b =>
    match s.proxy.drainer.startDrain b with
    | (_, false) => some { s with waiters := s.waiters ++ [.returned b none] }
    | (drainer, true) =>
      some
        { s with
          proxy := { s.proxy with drainer := drainer }
          waiters := s.waiters ++ [.waiting b] }
  | .waiter j e => do
    let w ← s.waiters[j]?
    let (drainer, w') ← w.advance s.proxy e
    some
      { s with
        proxy := { s.proxy with drainer := drainer }
        waiters := s.waiters.set j w' }
  | .tick d => some { s with proxy := { s.proxy with now := s.proxy.now + d } }

def ProxyState.recorded (s : ProxyState) : ProxyAction → Option (String × Outcome)
  | .request i e => s.requests[i]?.bind fun r => r.recorded e
  | _ => none

variable {s s' : ProxyState}

lemma request_eq_some {i : ℕ} {e : RequestEvent} (h : proxyStep s (.request i e) = some s') :
    ∃ r r', s.requests[i]? = some r ∧ r.advance s.proxy e = some r' ∧
      s' =
        { s with
          proxy :=
            { s.proxy with
              tracker := r.track s.proxy.tracker e
              circuit := s.proxy.circuit.record s.proxy.now (r.recorded e)
              lb := r.balance s.proxy.lb e }
          requests := s.requests.set i r' } := by
  obtain ⟨r, hr, h⟩ := bind_eq_some_iff.mp h
  obtain ⟨r', hr', h⟩ := bind_eq_some_iff.mp h
  exact ⟨r, r', hr, hr', (some.inj h).symm⟩

lemma waiter_eq_some {j : ℕ} {e : WaiterEvent} (h : proxyStep s (.waiter j e) = some s') :
    ∃ w drainer w', s.waiters[j]? = some w ∧ w.advance s.proxy e = some (drainer, w') ∧
      s' =
        { s with
          proxy := { s.proxy with drainer := drainer }
          waiters := s.waiters.set j w' } := by
  obtain ⟨w, hw, h⟩ := bind_eq_some_iff.mp h
  obtain ⟨⟨drainer, w'⟩, hw', h⟩ := bind_eq_some_iff.mp h
  exact ⟨w, drainer, w', hw, hw', (some.inj h).symm⟩

lemma circuit_proxyStep {a : ProxyAction} (h : proxyStep s a = some s') :
    s'.proxy.circuit = s.proxy.circuit.record s.proxy.now (s.recorded a) := by
  cases a with
  | serveHTTP | startDrain | tick =>
    cases h
    rfl
  | request i e =>
    obtain ⟨r, r', hr, -, rfl⟩ := request_eq_some h
    simp [ProxyState.recorded, hr]
  | waitForDrain b =>
    simp only [proxyStep] at h
    split at h
    · cases h
      rfl
    · cases h
      rfl
  | waiter j e =>
    obtain ⟨w, drainer, w', -, -, rfl⟩ := waiter_eq_some h
    rfl

/-!
# Eligibility of a tripped backend

`filterHealthyBackends` leaves a backend out while its circuit is open. The step to half-open
belongs to `AllowRequest`, which no request calls.
-/

open StepMachine

/-- However far the clock advances, the circuit of `b` does not exclude it once more than the
timeout has elapsed since its last recorded failure. -/
def ProxyState.Eligible (s : ProxyState) (b : String) : Prop :=
  ∀ d s' cb, proxyStep s (.tick d) = some s' →
    s'.proxy.circuit.breakers b = some cb →
    cb.config.timeout < s'.proxy.now - cb.lastFailTime → s'.proxy.circuit.isOpen b = false

/-- The step does not bring the failures of `b` to the threshold. -/
def Untripped (b : String) (s : ProxyState) (a : ProxyAction) : Prop :=
  ¬ s.proxy.circuit.Trips b (s.recorded a)
  deriving Decidable

lemma neverProbed_start (config : CircuitConfig) (now : ℤ) :
    (ProxyState.start config now).proxy.circuit.NeverProbed :=
  ⟨by simp [ProxyState.start, newReverseProxy, CircuitBreakerManager.state],
    by simp [ProxyState.start, newReverseProxy]⟩

lemma neverProbed_step (s : ProxyState) (a : ProxyAction) (s' : ProxyState)
    (hs : s.proxy.circuit.NeverProbed) (h : proxyStep s a = some s') :
    s'.proxy.circuit.NeverProbed := by
  rw [circuit_proxyStep h]
  exact hs.record _ _

lemma isOpen_proxyStep (b : String) (s : ProxyState) (a : ProxyAction) (s' : ProxyState)
    (hs : s.proxy.circuit.NeverProbed) (h : proxyStep s a = some s') :
    s'.proxy.circuit.isOpen b = false ↔ s.proxy.circuit.isOpen b = false ∧ Untripped b s a := by
  simp only [CircuitBreakerManager.isOpen, circuit_proxyStep h, hs.state_record, Untripped]
  split_ifs with htrips <;> simp [htrips]

lemma exists_breaker_of_isOpen {m : CircuitBreakerManager} {b : String}
    (h : m.isOpen b = true) : ∃ cb, m.breakers b = some cb := by
  cases hb : m.breakers b with
  | none => simp [CircuitBreakerManager.isOpen, CircuitBreakerManager.state, hb] at h
  | some cb => exact ⟨cb, rfl⟩

lemma eligible_iff (s : ProxyState) (b : String) :
    s.Eligible b ↔ s.proxy.circuit.isOpen b = false := by
  constructor
  · intro h
    by_contra hopen
    obtain ⟨cb, hcb⟩ := exists_breaker_of_isOpen (Bool.eq_true_of_not_eq_false hopen)
    let d := (cb.config.timeout + cb.lastFailTime - s.proxy.now + 1).toNat
    have hstep : proxyStep s (.tick d) =
      some { s with proxy := { s.proxy with now := s.proxy.now + d } } := rfl
    have hclosed := h d _ cb hstep hcb (by dsimp only; omega)
    exact hopen hclosed
  · rintro hclosed d s' cb hstep - -
    cases hstep
    exact hclosed

/-- **A tripped backend never comes back.** For every configuration and run, a backend is eligible
again after the timeout exactly when no step recorded the failure that trips its circuit. -/
theorem eligible_iff_untripped (config : CircuitConfig) (now : ℤ) (b : String)
    (as : List ProxyAction) (s : ProxyState)
    (h : run proxyStep (ProxyState.start config now) as = some s) :
    s.Eligible b ↔ Along proxyStep (Untripped b) (ProxyState.start config now) as := by
  have hrun := along_iff_of_run (I := fun s => s.proxy.circuit.NeverProbed) neverProbed_step
    (isOpen_proxyStep b) (neverProbed_start config now) h
  have hstart : (ProxyState.start config now).proxy.circuit.isOpen b = false := rfl
  rw [eligible_iff, hrun]
  exact and_iff_right hstart

/-- The `i`-th request, to one backend that replies with the given status. -/
def proxied (i : ℕ) (b : String) (status : ℕ) : List ProxyAction :=
  .serveHTTP [b] :: (List.replicate 5 (.request i .next)) ++
    [.request i (.writeHeader status), .request i .finish, .request i .next]

/-- One failed request. -/
theorem eligible_of_one_failure :
    ∃ s, run proxyStep (.start defaultCircuitConfig 0) (proxied 0 "10.0.0.5:8080" 503) = some s ∧
      s.Eligible "10.0.0.5:8080" := by
  exact exists_of_run_imp (P := fun _ => True) (by decide) fun s hrun _ =>
    (eligible_iff_untripped _ _ _ _ s hrun).mpr (by decide)

/-- Five failed requests, half a minute and a second of waiting, and a sixth request. -/
def trippedThenIdle : List ProxyAction :=
  (List.range 5).flatMap (fun i => proxied i "10.0.0.5:8080" 503) ++
    [.tick 31000000000, .serveHTTP ["10.0.0.5:8080"]] ++ List.replicate 3 (.request 5 .next)

/-- The sixth request finds no healthy backend, although the timeout has elapsed. -/
theorem tripped_excluded : ∃ s,
    run proxyStep (.start defaultCircuitConfig 0) trippedThenIdle = some s ∧
      s.proxy.circuit.isOpen "10.0.0.5:8080" = true ∧
      (∃ cb ∈ s.proxy.circuit.breakers "10.0.0.5:8080",
        cb.config.timeout < s.proxy.now - cb.lastFailTime) ∧
      s.requests[5]? = some .returned ∧ ¬ s.Eligible "10.0.0.5:8080" := by
  simp only [eligible_iff]
  decide

/-!
# Draining a backend

A request tests whether a backend is draining and counts its connection in two separate steps.
`WaitForDrain` waits until the count of the connections is zero.
-/

open StepMachine List Pool Bool

variable (b : String)

namespace Request

def conns : Request → ℕ
  | tracked b' | closing b' => (b' == b).toNat
  | serving rt | failing rt => (rt.backend == b).toNat
  | _ => 0

/-- The request has chosen `b`: it is in flight on it, or about to be forwarded to it. -/
def holds : Request → Bool
  | chosen b' | tracked b' | closing b' => b' == b
  | serving rt | failing rt => rt.backend == b
  | _ => false

/-- The request has passed the draining test for `b`, and its connection is not counted. -/
def pending : Request → Bool
  | filtering bs cleared healthy => (cleared && bs.head? == some b) || healthy.contains b
  | chosen b' => b' == b
  | _ => false

end Request

def ReturnsNil (s : ProxyState) : ProxyAction → Prop
  | .waitForDrain b' => b' = b ∧ s.proxy.drainer.isDraining b = true
  | .waiter j .complete => s.waiters[j]? = some (.completing b none)
  | _ => False

/-- No wait begins on a backend that is draining already, and no wait reads a count of zero while a
request is between the draining test and the count. -/
def Orderly (s : ProxyState) : ProxyAction → Prop
  | .waitForDrain b => s.proxy.drainer.isDraining b = false
  | .waiter j .ticker =>
    match s.waiters[j]? with
    | some (.waiting b) =>
      s.proxy.tracker.active b = 0 → ∀ r ∈ s.requests, r.pending b = false
    | _ => True
  | _ => True

instance (s : ProxyState) (a : ProxyAction) : Decidable (Orderly s a) := by
  unfold Orderly
  split
  · infer_instance
  · split <;> infer_instance
  · infer_instance

/-! ## One step of a request -/

lemma next_mem (rr : RoundRobin) {backends : List String} (h : backends.length ≠ 0) :
    (rr.next backends).2 ∈ backends := by
  have hlt : rr.counter % backends.length < backends.length :=
    Nat.mod_lt _ (Nat.pos_of_ne_zero h)
  simp only [RoundRobin.next, getD_eq_getElem _ _ hlt]
  exact getElem_mem hlt

/-- What a request that moves on does to the backend `b`: the count follows its connection, it
passes the draining test only when `b` is not draining, and it holds `b` only after that. -/
structure Moved (rp : ReverseProxy) (r : Request) (e : RequestEvent) (r' : Request) (b : String) :
    Prop where
  conns_eq : r.conns b ≤ rp.tracker.active b →
    (r.track rp.tracker e).active b + r.conns b = rp.tracker.active b + r'.conns b
  pending_of : r'.pending b = true → r.pending b = true ∨ rp.drainer.isDraining b = false
  holds_of : r'.holds b = true → r.holds b = true ∨ r.pending b = true

variable {e : RequestEvent} {r : Request}

lemma Moved.of_counted {rp : ReverseProxy} {r' : Request} {b : String}
    (htrack : r.track rp.tracker e = rp.tracker) (hconns : r'.conns b = r.conns b)
    (hpending : r'.pending b = false) (hholds : r'.holds b = r.holds b) : Moved rp r e r' b where
  conns_eq := fun _ => by rw [htrack, hconns]
  pending_of := by simp [hpending]
  holds_of := fun h => .inl (hholds ▸ h)

variable (rt : ResponseTracker)

@[simp] lemma backend_writeHeader (status : ℕ) :
    (rt.writeHeader status).1.backend = rt.backend := by
  unfold ResponseTracker.writeHeader
  split <;> rfl

@[simp] lemma backend_write : rt.write.1.backend = rt.backend := by
  unfold ResponseTracker.write
  split <;> rfl

lemma advance_moved {rp : ReverseProxy} {r' : Request}
    (h : r.advance rp e = some r') (b : String) : Moved rp r e r' b := by
  unfold Request.advance at h
  split at h
  case h_1 b' bs healthy =>
    split_ifs at h with hdrain
    · cases h
      refine ⟨fun _ => rfl, fun hp => .inl ?_, by simp [Request.holds]⟩
      simpa [Request.pending] using hp
    · cases h
      refine ⟨fun _ => rfl, fun hp => ?_, by simp [Request.holds]⟩
      by_cases hb : b' = b
      · exact .inr (by simpa [hb] using hdrain)
      · exact .inl (by simpa [Request.pending, hb] using hp)
  case h_2 b' bs healthy =>
    split_ifs at h with hopen
    · cases h
      refine ⟨fun _ => rfl, fun hp => .inl ?_, by simp [Request.holds]⟩
      have hp : b ∈ healthy := by simpa [Request.pending] using hp
      simp [Request.pending, hp]
    · cases h
      refine ⟨fun _ => rfl, fun hp => .inl ?_, by simp [Request.holds]⟩
      have hp : b ∈ healthy ∨ b = b' := by simpa [Request.pending] using hp
      rcases hp with hp | rfl
      · simp [Request.pending, hp]
      · simp [Request.pending]
  case h_3 cleared healthy =>
    split_ifs at h with hlen
    · cases h
      exact ⟨fun _ => rfl, by simp [Request.pending], by simp [Request.holds]⟩
    cases h
    have hcleared : (rp.lb.next healthy).2 = b →
        (Request.filtering [] cleared healthy).pending b = true := by
      rintro rfl
      simp [Request.pending, next_mem rp.lb hlen]
    refine ⟨fun _ => rfl, fun hp => .inl (hcleared ?_), fun hp => .inr (hcleared ?_)⟩
    · simpa [Request.pending] using hp
    · simpa [Request.holds] using hp
  case h_4 b' =>
    cases h
    exact ⟨fun _ => by simp [Request.track, Request.conns, ConnectionTracker.active_increment],
      by simp [Request.pending], .inl⟩
  case h_5 | h_6 | h_9 | h_10 | h_11 =>
    cases h
    exact .of_counted rfl rfl rfl rfl
  case h_7 | h_8 =>
    cases h
    exact .of_counted rfl (by simp [Request.conns]) rfl (by simp [Request.holds])
  case h_12 b' =>
    cases h
    exact ⟨ConnectionTracker.active_decrement, by simp [Request.pending], by simp [Request.holds]⟩
  case h_13 => cases h

/-! ## Every run of requests and drains -/

/-- The call of `WaitForDrain` has marked `b` as draining and has not returned. -/
def Waiter.active : Waiter → ℕ
  | .waiting b' | .completing b' _ => (b' == b).toNat
  | .returned _ _ => 0

/-- The invariant of orderly runs. A wait that is about to return nil has seen the last request that
could hold its backend. -/
structure DrainInv (s : ProxyState) : Prop where
  counted : ∀ b, s.proxy.tracker.active b = total (Request.conns b) s.requests
  one_waiter : ∀ b, total (Waiter.active b) s.waiters ≤ (s.proxy.drainer.isDraining b).toNat
  settled : ∀ b, .completing b none ∈ s.waiters →
    ∀ r ∈ s.requests, r.holds b = false ∧ r.pending b = false

variable {s s' : ProxyState} {b : String}

lemma DrainInv.isDraining_of_mem (hs : DrainInv s) {w : Waiter} (hw : w ∈ s.waiters)
    (hb : 0 < w.active b) : s.proxy.drainer.isDraining b = true := by
  have hle := Nat.le_trans (le_total (Waiter.active b) hw) (hs.one_waiter b)
  cases hdrain : s.proxy.drainer.isDraining b with
  | true => rfl
  | false =>
    rw [hdrain, toNat_false] at hle
    omega

lemma Request.pending_or_conns_of_holds (h : r.holds b = true) :
    r.pending b = true ∨ 0 < r.conns b := by
  cases r with
  | filtering | returned => simp [holds] at h
  | chosen b' => exact .inl h
  | tracked b' | closing b' | serving rt | failing rt =>
    right
    simp only [holds] at h
    simp [conns, h]

lemma drainInv_start (config : CircuitConfig) (now : ℤ) :
    DrainInv (ProxyState.start config now) :=
  ⟨fun _ => rfl, fun _ => Nat.zero_le _, by simp [ProxyState.start]⟩

lemma drainInv_request (hs : DrainInv s) {i : ℕ}
    (h : proxyStep s (.request i e) = some s') : DrainInv s' := by
  obtain ⟨r, r', hr, hadv, rfl⟩ := request_eq_some h
  refine ⟨fun b => ?_, hs.one_waiter, fun b hw => ?_⟩
  · have hmoved := advance_moved hadv b
    have hle := le_total (Request.conns b) (mem_of_getElem? hr)
    have hset := sum_set (Request.conns b) hr r'
    have hcount := hs.counted b
    have hconns := hmoved.conns_eq (by omega)
    dsimp only
    omega
  · have hmoved := advance_moved hadv b
    have hdrain := hs.isDraining_of_mem hw (b := b) (by simp [Waiter.active])
    obtain ⟨hholds, hpending⟩ := hs.settled b hw r (mem_of_getElem? hr)
    refine forall_set (hs.settled b hw) ⟨?_, ?_⟩
    · by_contra hne
      simpa [hholds, hpending] using hmoved.holds_of (eq_true_of_not_eq_false hne)
    · by_contra hne
      simpa [hpending, hdrain] using hmoved.pending_of (eq_true_of_not_eq_false hne)

lemma drainInv_waitForDrain (hs : DrainInv s) {b' : String}
    (hb' : s.proxy.drainer.isDraining b' = false)
    (h : proxyStep s (.waitForDrain b') = some s') : DrainInv s' := by
  have hstart := DrainManager.startDrain_of_not_isDraining hb'
  simp only [proxyStep, hstart] at h
  cases h
  refine ⟨hs.counted, fun b => ?_, fun b hw => hs.settled b (by simpa using hw)⟩
  have hone := hs.one_waiter b
  have hdrain := s.proxy.drainer.isDraining_startDrain b b'
  rw [hstart] at hdrain
  simp only [total_append, total_cons, total_nil, Waiter.active, hdrain]
  by_cases hb : b' = b
  · subst hb
    rw [hb', toNat_false] at hone
    simp
    omega
  · have hbeq : (b' == b) = false := by simpa using hb
    simpa [hbeq] using hone

lemma DrainInv.holds_eq_false (hs : DrainInv s) (hzero : s.proxy.tracker.active b = 0)
    (hpending : ∀ r ∈ s.requests, r.pending b = false) : ∀ r ∈ s.requests, r.holds b = false := by
  intro r hr
  by_contra hne
  rcases Request.pending_or_conns_of_holds (eq_true_of_not_eq_false hne) with hp | hpos
  · rw [hpending r hr] at hp
    cases hp
  · have hle := le_total (Request.conns b) hr
    have hcount := hs.counted b
    omega

lemma drainInv_waiter (hs : DrainInv s) {j : ℕ} {e : WaiterEvent}
    (ha : Orderly s (.waiter j e)) (h : proxyStep s (.waiter j e) = some s') : DrainInv s' := by
  obtain ⟨w, drainer, w', hw, hadv, rfl⟩ := waiter_eq_some h
  have hset := fun b => sum_set (Waiter.active b) hw w'
  have hold : ∀ b, .completing b none ∈ s.waiters.set j w' → w' ≠ .completing b none →
      .completing b none ∈ s.waiters := by
    intro b hmem hne
    rcases mem_or_eq_of_mem_set hmem with hmem | heq
    · exact hmem
    · exact absurd heq.symm hne
  match w, e with
  | .waiting b', .ticker =>
    cases hadv
    refine ⟨hs.counted, fun b => ?_, fun b hmem => ?_⟩
    · have hactive : (if s.proxy.tracker.active b' = 0 then Waiter.completing b' none
          else .waiting b').active b = (Waiter.waiting b').active b := by
        split_ifs <;> rfl
      have hone := hs.one_waiter b
      have hsetb := hset b
      dsimp only
      omega
    · by_cases hzero : s.proxy.tracker.active b' = 0
      · by_cases hb : b' = b
        · subst hb
          have hpending : ∀ r ∈ s.requests, r.pending b' = false := by
            simp only [Orderly, hw] at ha
            exact ha hzero
          exact fun r hr => ⟨hs.holds_eq_false hzero hpending r hr, hpending r hr⟩
        · exact hs.settled b (hold b hmem (by simp [hzero, hb]))
      · exact hs.settled b (hold b hmem (by simp [hzero]))
  | .waiting b', .deadline =>
    cases hadv
    refine ⟨hs.counted, fun b => ?_, fun b hmem => hs.settled b (hold b hmem (by simp))⟩
    have hone := hs.one_waiter b
    have hsetb := hset b
    simp only [Waiter.active] at hsetb
    dsimp only
    omega
  | .completing b' err, .complete =>
    cases hadv
    refine ⟨hs.counted, fun b => ?_, fun b hmem => hs.settled b (hold b hmem (by simp))⟩
    have hone := hs.one_waiter b
    have hsetb := hset b
    have hle : (s.proxy.drainer.isDraining b).toNat ≤ 1 := toNat_le _
    simp only [Waiter.active] at hsetb
    dsimp only
    rw [DrainManager.isDraining_completeDrain]
    by_cases hb : b' = b
    · subst hb
      simp only [beq_self_eq_true, toNat_true] at hsetb
      omega
    · have hbeq : (b' == b) = false := by simpa using hb
      simp only [hbeq, Bool.toNat_false, Bool.not_false, Bool.true_and] at hsetb ⊢
      omega

/-- **Orderly steps keep the invariant.** -/
theorem drainInv_step (s : ProxyState) (a : ProxyAction) (s' : ProxyState) (hs : DrainInv s)
    (ha : Orderly s a) (h : proxyStep s a = some s') : DrainInv s' := by
  cases a with
  | serveHTTP backends =>
    cases h
    refine ⟨fun b => ?_, hs.one_waiter, fun b hw => ?_⟩
    · simpa [Request.conns] using hs.counted b
    · exact forall_snoc (hs.settled b hw) ⟨rfl, by simp [Request.pending]⟩
  | request i e => exact drainInv_request hs h
  | startDrain b' =>
    cases h
    refine ⟨hs.counted, fun b => ?_, hs.settled⟩
    have hone := hs.one_waiter b
    dsimp only
    rw [DrainManager.isDraining_startDrain]
    cases hdrain : s.proxy.drainer.isDraining b with
    | true => simpa [hdrain] using hone
    | false =>
      rw [hdrain, toNat_false] at hone
      omega
  | waitForDrain b' => exact drainInv_waitForDrain hs ha h
  | waiter j e => exact drainInv_waiter hs ha h
  | tick d =>
    cases h
    exact { hs with }

/-- **Drains that return nil.** In every orderly run of requests, `StartDrain` and `WaitForDrain`
calls, a step in which a wait for a backend returns nil leaves no request in flight on it or about
to be forwarded to it. -/
theorem drained_of_returnsNil (config : CircuitConfig) (now : ℤ) (as : List ProxyAction)
    (s : ProxyState) (hs : run proxyStep (ProxyState.start config now) as = some s)
    (has : Along proxyStep Orderly (ProxyState.start config now) as) (a : ProxyAction)
    (s' : ProxyState) (h : proxyStep s a = some s') (ha : Orderly s a) (b : String)
    (hnil : ReturnsNil b s a) : ∀ r ∈ s'.requests, r.holds b = false := by
  have hinv := invariant_of_along drainInv_step (drainInv_start config now) has hs
  match a with
  | .waitForDrain b' =>
    obtain ⟨rfl, hdrain⟩ := hnil
    rw [show s.proxy.drainer.isDraining b' = false from ha] at hdrain
    cases hdrain
  | .waiter j .complete =>
    obtain ⟨w, drainer, w', hw, -, rfl⟩ := waiter_eq_some h
    have hmem := mem_of_getElem? (show s.waiters[j]? = some (.completing b none) from hnil)
    exact fun r hr => (hinv.settled b hmem r hr).1

/-- A request is served while its backend drains; a second request finds no backend, and the wait
ends after the first. -/
def orderlyDrain : List ProxyAction :=
  .serveHTTP ["10.0.0.5:8080"] :: replicate 5 (.request 0 .next) ++
    [.waitForDrain "10.0.0.5:8080", .waiter 0 .ticker, .serveHTTP ["10.0.0.5:8080"],
      .request 1 .next, .request 1 .next, .request 0 (.writeHeader 200), .request 0 .finish,
      .request 0 .next, .waiter 0 .ticker]

theorem drained_of_returnsNil_orderlyDrain : ∃ s s',
    run proxyStep (.start defaultCircuitConfig 0) orderlyDrain = some s ∧
      proxyStep s (.waiter 0 .complete) = some s' ∧
      ReturnsNil "10.0.0.5:8080" s (.waiter 0 .complete) ∧
      s'.requests = [.returned, .returned] ∧
      ∀ r ∈ s'.requests, r.holds "10.0.0.5:8080" = false := by
  obtain ⟨s, hs, hnil, s', hs', hreq⟩ : ∃ s,
      run proxyStep (.start defaultCircuitConfig 0) orderlyDrain = some s ∧
        s.waiters[0]? = some (.completing "10.0.0.5:8080" none) ∧
        ∃ s', proxyStep s (.waiter 0 .complete) = some s' ∧ s'.requests = [.returned, .returned] := by
    decide
  exact ⟨s, s', hs, hs', hnil, hreq,
    drained_of_returnsNil _ _ _ s hs (by decide) _ s' hs' trivial _ hnil⟩

def drainUnderWay : List ProxyAction :=
  .serveHTTP ["10.0.0.5:8080"] :: replicate 5 (.request 0 .next) ++
    [.startDrain "10.0.0.5:8080"]

/-- A wait that begins now returns nil at once, with the request in flight. -/
theorem returnsNil_inFlight : ∃ s s',
    run proxyStep (.start defaultCircuitConfig 0) drainUnderWay = some s ∧
      proxyStep s (.waitForDrain "10.0.0.5:8080") = some s' ∧
      ReturnsNil "10.0.0.5:8080" s (.waitForDrain "10.0.0.5:8080") ∧
      ∃ r ∈ s'.requests, r.holds "10.0.0.5:8080" = true := by
  simp only [ReturnsNil]
  decide

end DeployMonster.Ingress
