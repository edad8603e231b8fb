import DeployMonster.Library.Pool
import DeployMonster.Library.Semaphore
import DeployMonster.Library.StepMachine

/-!
# The per-tenant build queue

`internal/build/tenant_queue.go`. Submits, jobs and shutdowns interleave at every channel operation
and every critical section, and every `select` may take any ready case.
-/

namespace DeployMonster.Build

open List Option

/-- The fields of the queue. A channel is its buffer, the stop channel whether it is closed. -/
structure TenantQueue where
  (globalCap perTenant : ℤ)
  global : Semaphore
  tenant : String → Option Semaphore
  (closed stopCh : Bool)
  wg : ℤ

/-- `NewTenantQueue`: caps below 1 become 1. -/
def newTenantQueue (globalCap perTenantCap : ℤ) : TenantQueue :=
  let globalCap := if globalCap < 1 then 1 else globalCap
  let perTenantCap := if perTenantCap < 1 then 1 else perTenantCap
  { globalCap := globalCap
    perTenant := perTenantCap
    global := .make globalCap.toNat
    tenant := fun _ => none
    closed := false
    stopCh := false
    wg := 0 }

variable (q : TenantQueue)

namespace TenantQueue

def tenantSlot (tenantID : String) : Semaphore :=
  (q.tenant tenantID).getD (.make q.perTenant.toNat)

/-- The queue after `tenantSlot` has created the semaphore on first use, or after an operation on
it. -/
def setTenantSlot (tenantID : String) (slot : Semaphore) : TenantQueue :=
  { q with tenant := Function.update q.tenant tenantID (some slot) }

@[simp] lemma tenantSlot_setTenantSlot_self (t : String) (slot : Semaphore) :
    (q.setTenantSlot t slot).tenantSlot t = slot := by
  simp [setTenantSlot, tenantSlot]

lemma tenantSlot_setTenantSlot_of_ne {t t' : String} (h : t' ≠ t)
    (slot : Semaphore) : (q.setTenantSlot t slot).tenantSlot t' = q.tenantSlot t' := by
  simp [setTenantSlot, tenantSlot, Function.update_of_ne h]

end TenantQueue

/-! ## A `Submit` and its job -/

/-- The error a `Submit` returns: `ErrTenantQueueClosed` or `ctx.Err()`. -/
inductive SubmitError
  | queueClosed | ctx
  deriving DecidableEq

/-- Where a `Submit`, and after its return the goroutine it started, stands. -/
inductive Phase
  /-- Before the critical section. -/
  | enter
  /-- In the first `select`. -/
  | tenantWait
  /-- In the second `select`, with the tenant slot. -/
  | globalWait
  /-- Failed in the second `select`: about to receive from the tenant slot. -/
  | undoTenant (err : SubmitError)
  /-- About to call `wg.Done` and return the error. -/
  | undoWait (err : SubmitError)
  | failed (err : SubmitError)
  /-- With both slots, before the `go` statement. -/
  | dispatch
  /-- `Submit` has returned nil; the goroutine has not called `fn` yet. -/
  | spawned
  /-- In `fn`. -/
  | running
  /-- The deferred function, before each of its three operations. -/
  | releaseGlobal
  | releaseTenant | jobDone
  /-- The goroutine has ended. -/
  | finished
  deriving DecidableEq

/-- One `Submit`. The last three fields count the global and tenant slots it has taken and not
given back, and the calls of `fn`. -/
structure Call where
  tenantID : String
  cancelled : Bool
  phase : Phase
  (globalHeld tenantHeld runs : ℕ)

def newCall (tenantID : String) : Call := ⟨tenantID, false, .enter, 0, 0, 0⟩

/-- The next operation of a `Submit` or of its goroutine: which case of a `select` is taken, and
how `fn` ends. `cancel` is the caller's context being cancelled. -/
inductive CallAction
  | cancel | lock | acquireTenant | stopTenant | ctxTenant | acquireGlobal | stopGlobal | ctxGlobal
  | undoTenant | undoWait | go | callFn
  | endFn (panicked : Bool)
  | releaseGlobal | releaseTenant | jobDone
  deriving DecidableEq

/-- One operation of a `Submit` or of its goroutine, on the queue and on the call itself. -/
def advance (c : Call) (a : CallAction) : Option (TenantQueue × Call) :=
  match a, c.phase with
  | .cancel, _ => some (q, { c with cancelled := true })
  | .lock, .enter =>
    if q.closed then some (q, { c with phase := .failed .queueClosed })
    else
      let q := q.setTenantSlot c.tenantID (q.tenantSlot c.tenantID)
      some ({ q with wg := q.wg + 1 }, { c with phase := .tenantWait })
  | .acquireTenant, .tenantWait =>
    (q.tenantSlot c.tenantID).acquire.map fun slot =>
      (q.setTenantSlot c.tenantID slot,
        { c with phase := .globalWait, tenantHeld := c.tenantHeld + 1 })
  | .stopTenant, .tenantWait =>
    if q.stopCh then some (q, { c with phase := .undoWait .queueClosed }) else none
  | .ctxTenant, .tenantWait =>
    if c.cancelled then some (q, { c with phase := .undoWait .ctx }) else none
  | .acquireGlobal, .globalWait =>
    q.global.acquire.map fun global =>
      ({ q with global }, { c with phase := .dispatch, globalHeld := c.globalHeld + 1 })
  | .stopGlobal, .globalWait =>
    if q.stopCh then some (q, { c with phase := .undoTenant .queueClosed }) else none
  | .ctxGlobal, .globalWait =>
    if c.cancelled then some (q, { c with phase := .undoTenant .ctx }) else none
  | .undoTenant, .undoTenant err =>
    (q.tenantSlot c.tenantID).release.map fun slot =>
      (q.setTenantSlot c.tenantID slot,
        { c with phase := .undoWait err, tenantHeld := c.tenantHeld - 1 })
  | .undoWait, .undoWait err => some ({ q with wg := q.wg - 1 }, { c with phase := .failed err })
  | .go, .dispatch => some (q, { c with phase := .spawned })
  | .callFn, .spawned => some (q, { c with phase := .running, runs := c.runs + 1 })
  | .endFn _, .running => some (q, { c with phase := .releaseGlobal })
  | .releaseGlobal, .releaseGlobal =>
    q.global.release.map fun global =>
      ({ q with global }, { c with phase := .releaseTenant, globalHeld := c.globalHeld - 1 })
  | .releaseTenant, .releaseTenant =>
    (q.tenantSlot c.tenantID).release.map fun slot =>
      (q.setTenantSlot c.tenantID slot,
        { c with phase := .jobDone, tenantHeld := c.tenantHeld - 1 })
  | .jobDone, .jobDone => some ({ q with wg := q.wg - 1 }, { c with phase := .finished })
  | _, _ => none

/-- Where a `Shutdown` stands: before its critical section, in its `select` (with whether `done` is
closed), or returned (nil or `ctx.Err()`). -/
inductive ShutdownPhase
  | enter
  | waiting (done : Bool)
  | returned (isNil : Bool)
  deriving DecidableEq

structure ShutdownCall where
  cancelled : Bool
  phase : ShutdownPhase

inductive ShutdownAction
  | cancel | lock | closeDone | returnNil | returnCtx
  deriving DecidableEq

/-- One operation of a `Shutdown`, or of the goroutine it starts. -/
def shutdownAdvance (d : ShutdownCall) (a : ShutdownAction) : Option (TenantQueue × ShutdownCall) :=
  match a, d.phase with
  | .cancel, _ => some (q, { d with cancelled := true })
  | .lock, .enter =>
    some ({ q with closed := true, stopCh := true }, { d with phase := .waiting false })
  | .closeDone, .waiting false =>
    if q.wg = 0 then some (q, { d with phase := .waiting true }) else none
  | .returnNil, .waiting true => some (q, { d with phase := .returned true })
  | .returnCtx, .waiting _ =>
    if d.cancelled then some (q, { d with phase := .returned false }) else none
  | _, _ => none

structure QueueState where
  queue : TenantQueue
  calls : List Call
  shutdowns : List ShutdownCall

def QueueState.start (globalCap perTenantCap : ℤ) : QueueState :=
  ⟨newTenantQueue globalCap perTenantCap, [], []⟩

inductive QueueAction
  | submit (tenantID : String)
  | call (i : ℕ) (a : CallAction)
  | shutdown
  | shutdownCall (j : ℕ) (a : ShutdownAction)

/-- Some `Submit`, job or `Shutdown` takes its next operation, or a new call is made. -/
def step (s : QueueState) : QueueAction → Option QueueState
  | .submit tenantID => some { s with calls := s.calls ++ [newCall tenantID] }
  | .call i a =>
    s.calls[i]?.bind fun c => (advance s.queue c a).map fun r =>
      { s with queue := r.1, calls := s.calls.set i r.2 }
  | .shutdown => some { s with shutdowns := s.shutdowns ++ [⟨false, .enter⟩] }
  | .shutdownCall j a =>
    s.shutdowns[j]?.bind fun d => (shutdownAdvance s.queue d a).map fun r =>
      { s with queue := r.1, shutdowns := s.shutdowns.set j r.2 }

/-! ## What one operation does -/

/-- The slots and the wait group count a `Submit` holds in each phase, and the calls of `fn` made
by then. -/
def Phase.globalSlots : Phase → ℕ
  | .dispatch | .spawned | .running | .releaseGlobal => 1
  | _ => 0

def Phase.tenantSlots : Phase → ℕ
  | .globalWait | .undoTenant _ | .dispatch | .spawned | .running | .releaseGlobal
  | .releaseTenant => 1
  | _ => 0

def Phase.waitCount : Phase → ℕ
  | .enter | .failed _ | .finished => 0
  | _ => 1

def Phase.fnCalls : Phase → ℕ
  | .running | .releaseGlobal | .releaseTenant | .jobDone | .finished => 1
  | _ => 0

structure Call.Ok (c : Call) : Prop where
  global : c.globalHeld = c.phase.globalSlots
  tenant : c.tenantHeld = c.phase.tenantSlots
  runs : c.runs = c.phase.fnCalls

lemma newCall_ok (t : String) : (newCall t).Ok := ⟨rfl, rfl, rfl⟩

def Call.heldOf (t : String) (c : Call) : ℕ := if c.tenantID = t then c.tenantHeld else 0

/-- One operation of a call: it moves the call's own slots and wait count in or out of the shared
state and touches nothing else. -/
structure Advanced (q : TenantQueue) (c : Call) (q' : TenantQueue) (c' : Call) : Prop where
  ok : c'.Ok
  tenantID : c'.tenantID = c.tenantID
  globalCap : q'.globalCap = q.globalCap
  perTenant : q'.perTenant = q.perTenant
  closed : q'.closed = q.closed
  cap : q'.global.cap = q.global.cap
  slotCap : ∀ t, (q'.tenantSlot t).cap = (q.tenantSlot t).cap
  global : q'.global.len + c.globalHeld = q.global.len + c'.globalHeld
  slot : ∀ t, (q'.tenantSlot t).len + c.heldOf t = (q.tenantSlot t).len + c'.heldOf t
  wait : q'.wg + c.phase.waitCount = q.wg + c'.phase.waitCount

variable {c c' : Call}

lemma Advanced.of_wait {q : TenantQueue} {wg : ℤ} (ht : c'.tenantID = c.tenantID)
    (hg : c'.globalHeld = c.globalHeld) (hs : c'.tenantHeld = c.tenantHeld) (hok : c'.Ok)
    (hw : wg + c.phase.waitCount = q.wg + c'.phase.waitCount) :
    Advanced q c { q with wg := wg } c' where
  ok := hok
  tenantID := ht
  globalCap := rfl
  perTenant := rfl
  closed := rfl
  cap := rfl
  slotCap _ := rfl
  global := by rw [hg]
  slot t := by rw [Call.heldOf, Call.heldOf, ht, hs]; rfl
  wait := hw

lemma Advanced.of_local {q : TenantQueue} (ht : c'.tenantID = c.tenantID)
    (hg : c'.globalHeld = c.globalHeld) (hs : c'.tenantHeld = c.tenantHeld) (hok : c'.Ok)
    (hw : c'.phase.waitCount = c.phase.waitCount) : Advanced q c q c' :=
  .of_wait ht hg hs hok (by rw [hw])

lemma Advanced.of_tenantSlot {q : TenantQueue} {slot : Semaphore} (ht : c'.tenantID = c.tenantID)
    (hg : c'.globalHeld = c.globalHeld) (hok : c'.Ok)
    (hcap : slot.cap = (q.tenantSlot c.tenantID).cap)
    (hlen : slot.len + c.tenantHeld = (q.tenantSlot c.tenantID).len + c'.tenantHeld)
    (hw : c'.phase.waitCount = c.phase.waitCount) :
    Advanced q c (q.setTenantSlot c.tenantID slot) c' where
  ok := hok
  tenantID := ht
  globalCap := rfl
  perTenant := rfl
  closed := rfl
  cap := rfl
  slotCap t := by
    by_cases h : t = c.tenantID
    · subst h
      simpa using hcap
    · rw [q.tenantSlot_setTenantSlot_of_ne h]
  global := by rw [hg]; rfl
  slot t := by
    by_cases h : t = c.tenantID
    · subst h
      simpa [Call.heldOf, ht] using hlen
    · simp [q.tenantSlot_setTenantSlot_of_ne h, Call.heldOf, ht, Ne.symm h]
  wait := by rw [hw]; rfl

lemma Advanced.of_global {q : TenantQueue} {slot : Semaphore} (ht : c'.tenantID = c.tenantID)
    (hs : c'.tenantHeld = c.tenantHeld) (hok : c'.Ok) (hcap : slot.cap = q.global.cap)
    (hlen : slot.len + c.globalHeld = q.global.len + c'.globalHeld)
    (hw : c'.phase.waitCount = c.phase.waitCount) : Advanced q c { q with global := slot } c' where
  ok := hok
  tenantID := ht
  globalCap := rfl
  perTenant := rfl
  closed := rfl
  cap := hcap
  slotCap _ := rfl
  global := hlen
  slot t := by rw [Call.heldOf, Call.heldOf, ht, hs]; rfl
  wait := by rw [hw]

variable {q' : TenantQueue}

lemma Advanced.trans {q q'' : TenantQueue} {c'' : Call} (h : Advanced q c q' c')
    (h' : Advanced q' c' q'' c'') : Advanced q c q'' c'' where
  ok := h'.ok
  tenantID := h'.tenantID.trans h.tenantID
  globalCap := h'.globalCap.trans h.globalCap
  perTenant := h'.perTenant.trans h.perTenant
  closed := h'.closed.trans h.closed
  cap := h'.cap.trans h.cap
  slotCap t := (h'.slotCap t).trans (h.slotCap t)
  global := by have := h.global; have := h'.global; omega
  slot t := by have := h.slot t; have := h'.slot t; omega
  wait := by have := h.wait; have := h'.wait; omega

variable {a : CallAction}

/-- Every operation of a `Submit` or its goroutine moves only what the call holds. In each branch of
`advance` the counters of the old phase determine those of the new. -/
lemma advance_spec {q : TenantQueue} (hc : c.Ok)
    (h : advance q c a = some (q', c')) : Advanced q c q' c' := by
  obtain ⟨hcg, hct, hcr⟩ := hc
  unfold advance at h
  split at h
  case h_1 =>
    cases h
    exact .of_local rfl rfl rfl ⟨hcg, hct, hcr⟩ rfl
  case h_2 hp =>
    rw [hp] at hcg hct hcr
    split at h
    · cases h
      exact .of_local rfl rfl rfl ⟨hcg, hct, hcr⟩ (by rw [hp]; rfl)
    cases h
    have hslot : Advanced q c (q.setTenantSlot c.tenantID (q.tenantSlot c.tenantID)) c :=
      .of_tenantSlot rfl rfl ⟨by rw [hp]; exact hcg, by rw [hp]; exact hct,
        by rw [hp]; exact hcr⟩ rfl rfl rfl
    refine hslot.trans (.of_wait rfl rfl rfl ⟨hcg, hct, hcr⟩ ?_)
    rw [hp]
    simp [Phase.waitCount]
  case h_3 hp =>
    rw [hp] at hcg hct hcr
    obtain ⟨slot, hslot, h⟩ := map_eq_some_iff.mp h
    obtain ⟨-, hcap, hlen⟩ := Semaphore.acquire_eq_some hslot
    cases h
    exact .of_tenantSlot rfl rfl ⟨hcg, by rw [hct]; rfl, hcr⟩ hcap (by dsimp only; omega)
      (by rw [hp]; rfl)
  case h_4 hp | h_5 hp | h_7 hp | h_8 hp =>
    rw [hp] at hcg hct hcr
    split at h <;> cases h
    exact .of_local rfl rfl rfl ⟨hcg, hct, hcr⟩ (by rw [hp]; rfl)
  case h_6 hp =>
    rw [hp] at hcg hct hcr
    obtain ⟨slot, hslot, h⟩ := map_eq_some_iff.mp h
    obtain ⟨-, hcap, hlen⟩ := Semaphore.acquire_eq_some hslot
    cases h
    exact .of_global rfl rfl ⟨by rw [hcg]; rfl, hct, hcr⟩ hcap (by dsimp only; omega)
      (by rw [hp]; rfl)
  case h_9 _ hp | h_15 hp =>
    rw [hp] at hcg hct hcr
    obtain ⟨slot, hslot, h⟩ := map_eq_some_iff.mp h
    obtain ⟨-, hcap, hlen⟩ := Semaphore.release_eq_some hslot
    cases h
    exact .of_tenantSlot rfl rfl ⟨hcg, by rw [hct]; rfl, hcr⟩ hcap
      (by rw [hct]; simp only [Phase.tenantSlots]; omega) (by rw [hp]; rfl)
  case h_10 _ hp | h_16 hp =>
    rw [hp] at hcg hct hcr
    cases h
    exact .of_wait rfl rfl rfl ⟨hcg, hct, hcr⟩ (by rw [hp]; simp [Phase.waitCount])
  case h_11 hp | h_13 hp =>
    rw [hp] at hcg hct hcr
    cases h
    exact .of_local rfl rfl rfl ⟨hcg, hct, hcr⟩ (by rw [hp]; rfl)
  case h_12 hp =>
    rw [hp] at hcg hct hcr
    cases h
    exact .of_local rfl rfl rfl ⟨hcg, hct, by rw [hcr]; rfl⟩ (by rw [hp]; rfl)
  case h_14 hp =>
    rw [hp] at hcg hct hcr
    obtain ⟨slot, hslot, h⟩ := map_eq_some_iff.mp h
    obtain ⟨-, hcap, hlen⟩ := Semaphore.release_eq_some hslot
    cases h
    exact .of_global rfl rfl ⟨by rw [hcg]; rfl, hct, hcr⟩ hcap
      (by rw [hcg]; simp only [Phase.globalSlots]; omega) (by rw [hp]; rfl)
  case h_17 => cases h

lemma advance_of_closed {q : TenantQueue} (hq : q.closed = true)
    (hc : c.phase.waitCount = 0) (h : advance q c a = some (q', c')) :
    q'.closed = true ∧ c'.phase.waitCount = 0 ∧ c'.runs = c.runs := by
  unfold advance at h
  split at h <;> rename_i hp
  case h_1 =>
    cases h
    exact ⟨hq, hc, rfl⟩
  case h_2 =>
    rw [if_pos hq] at h
    cases h
    exact ⟨hq, rfl, rfl⟩
  case h_17 => cases h
  all_goals
    rw [hp] at hc
    cases hc

/-! ## The invariant of the queue -/

open StepMachine Pool

/-- The caps are fixed, each semaphore and the wait group hold exactly what the calls have put
there, and a `Shutdown` that has seen the wait group empty has closed the queue. -/
structure QueueState.Inv (globalCap perTenantCap : ℤ) (s : QueueState) : Prop where
  ok : ∀ c ∈ s.calls, c.Ok
  globalCap_eq : s.queue.globalCap = (newTenantQueue globalCap perTenantCap).globalCap
  perTenant_eq : s.queue.perTenant = (newTenantQueue globalCap perTenantCap).perTenant
  cap : s.queue.global.cap = s.queue.globalCap.toNat
  slotCap : ∀ t, (s.queue.tenantSlot t).cap = s.queue.perTenant.toNat
  global : s.queue.global.len = total Call.globalHeld s.calls
  slot : ∀ t, (s.queue.tenantSlot t).len = total (Call.heldOf t) s.calls
  wait : s.queue.wg = total (fun c => c.phase.waitCount) s.calls
  closed : ∀ d ∈ s.shutdowns, d.phase ≠ .enter → s.queue.closed = true
  drained : ∀ d ∈ s.shutdowns, d.phase = .waiting true ∨ d.phase = .returned true → s.queue.wg = 0

lemma inv_start (globalCap perTenantCap : ℤ) :
    (QueueState.start globalCap perTenantCap).Inv globalCap perTenantCap where
  ok := by simp [QueueState.start]
  globalCap_eq := rfl
  perTenant_eq := rfl
  cap := rfl
  slotCap _ := rfl
  global := rfl
  slot _ := rfl
  wait := rfl
  closed := by simp [QueueState.start]
  drained := by simp [QueueState.start]

variable {globalCap perTenantCap : ℤ} {s s' : QueueState} (hs : s.Inv globalCap perTenantCap)
include hs

lemma inv_submit (t : String) :
    QueueState.Inv globalCap perTenantCap { s with calls := s.calls ++ [newCall t] } where
  ok := forall_snoc hs.ok (newCall_ok t)
  globalCap_eq := hs.globalCap_eq
  perTenant_eq := hs.perTenant_eq
  cap := hs.cap
  slotCap := hs.slotCap
  global := by simpa [newCall] using hs.global
  slot t' := by simpa [newCall, Call.heldOf] using hs.slot t'
  wait := by simpa [newCall, Phase.waitCount] using hs.wait
  closed := hs.closed
  drained := hs.drained

variable {i : ℕ}

lemma inv_call (hi : s.calls[i]? = some c) (h : advance s.queue c a = some (q', c')) :
    QueueState.Inv globalCap perTenantCap { s with queue := q', calls := s.calls.set i c' } := by
  have hadv := advance_spec (hs.ok c (mem_of_getElem? hi)) h
  have hwait : (q'.wg : ℤ) = total (fun c => c.phase.waitCount) (s.calls.set i c') := by
    have := sum_set (fun c : Call => c.phase.waitCount) hi c'
    have := hs.wait
    have := hadv.wait
    omega
  refine ⟨forall_set hs.ok hadv.ok, hadv.globalCap.trans hs.globalCap_eq,
    hadv.perTenant.trans hs.perTenant_eq, ?_, fun t => ?_, ?_, fun t => ?_, hwait, ?_, ?_⟩
  · rw [hadv.cap, hadv.globalCap, hs.cap]
  · rw [hadv.slotCap, hadv.perTenant, hs.slotCap]
  · have := sum_set Call.globalHeld hi c'
    have := hs.global
    have := hadv.global
    dsimp only
    omega
  · have := sum_set (Call.heldOf t) hi c'
    have := hs.slot t
    have := hadv.slot t
    dsimp only
    omega
  · intro d hd hp
    exact hadv.closed.trans (hs.closed d hd hp)
  intro d hd hp
  have hq : s.queue.closed = true := hs.closed d hd (by rcases hp with hp | hp <;> simp [hp])
  have hwg := hs.drained d hd hp
  have hz : total (fun c => c.phase.waitCount) s.calls = 0 := by
    have := hs.wait
    omega
  have hc := eq_zero_of_total hz (mem_of_getElem? hi)
  have := (advance_of_closed hq hc h).2.1
  have := hadv.wait
  dsimp only at hc ⊢
  omega

lemma inv_shutdownCall {j : ℕ} {d d' : ShutdownCall} {a : ShutdownAction}
    (hj : s.shutdowns[j]? = some d) (h : shutdownAdvance s.queue d a = some (q', d')) :
    QueueState.Inv globalCap perTenantCap
      { s with queue := q', shutdowns := s.shutdowns.set j d' } := by
  have hd := mem_of_getElem? hj
  unfold shutdownAdvance at h
  split at h <;> rename_i hp
  · cases h
    exact { hs with
      closed := forall_set hs.closed (hs.closed d hd)
      drained := forall_set hs.drained (hs.drained d hd) }
  · cases h
    exact { hs with
      closed := fun _ _ _ => rfl
      drained := forall_set hs.drained (by simp) }
  · split at h <;> cases h
    exact { hs with
      closed := forall_set hs.closed fun _ => hs.closed d hd (by simp [hp])
      drained := fun _ _ _ => ‹_› }
  · cases h
    exact { hs with
      closed := forall_set hs.closed fun _ => hs.closed d hd (by simp [hp])
      drained := forall_set hs.drained fun _ => hs.drained d hd (.inl hp) }
  · split at h <;> cases h
    exact { hs with
      closed := forall_set hs.closed fun _ => hs.closed d hd (by simp [hp])
      drained := forall_set hs.drained (by simp) }
  · cases h

omit hs

lemma invariant_step (s : QueueState) (a : QueueAction) (s' : QueueState)
    (hs : s.Inv globalCap perTenantCap) (h : step s a = some s') :
    s'.Inv globalCap perTenantCap := by
  cases a with
  | submit t =>
    cases h
    exact inv_submit hs t
  | call i a =>
    obtain ⟨c, hi, h⟩ := bind_eq_some_iff.mp h
    obtain ⟨r, hr, rfl⟩ := map_eq_some_iff.mp h
    exact inv_call hs hi hr
  | shutdown =>
    cases h
    exact { hs with
      closed := forall_snoc hs.closed (by simp)
      drained := forall_snoc hs.drained (by simp) }
  | shutdownCall j a =>
    obtain ⟨d, hj, h⟩ := bind_eq_some_iff.mp h
    obtain ⟨r, hr, rfl⟩ := map_eq_some_iff.mp h
    exact inv_shutdownCall hs hj hr

lemma inv_run {as : List QueueAction}
    (h : run step (QueueState.start globalCap perTenantCap) as = some s) :
    s.Inv globalCap perTenantCap :=
  invariant_of_run invariant_step (inv_start globalCap perTenantCap) h

/-! ## What the queue promises -/

/-- `Submit` has returned nil: its job is scheduled, running or done. -/
def Phase.returnedNil : Phase → Bool
  | .spawned | .running | .releaseGlobal | .releaseTenant | .jobDone | .finished => true
  | _ => false

def Phase.returnedError : Phase → Bool
  | .failed _ => true
  | _ => false

/-- Neither the `Submit` nor its job is active any more. -/
def Phase.ended : Phase → Bool
  | .failed _ | .finished => true
  | _ => false

/-- The receive a goroutine or a failed `Submit` is about to do, if any. -/
def Phase.giveBack : Phase → Option CallAction
  | .undoTenant _ => some .undoTenant
  | .releaseGlobal => some .releaseGlobal
  | .releaseTenant => some .releaseTenant
  | _ => none

variable {p : Phase}

lemma Phase.fnCalls_of_returnedNil (h : p.returnedNil = true) :
    p.fnCalls = 1 ∨ p.fnCalls = 0 ∧ p = .spawned := by
  cases p <;> simp_all [Phase.returnedNil, Phase.fnCalls]

lemma Phase.fnCalls_of_not_returnedNil (h : p.returnedNil = false) : p.fnCalls = 0 := by
  cases p <;> simp_all [Phase.returnedNil, Phase.fnCalls]

lemma Phase.slots_of_ended (h : p.ended = true) : p.globalSlots = 0 ∧ p.tenantSlots = 0 := by
  cases p <;> simp_all [Phase.ended, Phase.globalSlots, Phase.tenantSlots]

def QueueState.running (s : QueueState) : ℕ := s.calls.countP fun c => c.phase = .running

def QueueState.runningOf (s : QueueState) (t : String) : ℕ :=
  s.calls.countP fun c => c.phase = .running ∧ c.tenantID = t

/-- **What the queue promises** in a state it has reached. -/
structure QueueState.Safe (globalCap perTenantCap : ℤ) (s : QueueState) : Prop where
  /-- At most `globalCap` jobs run at once. -/
  global_bound : (s.running : ℤ) ≤ (newTenantQueue globalCap perTenantCap).globalCap
  /-- At most `perTenant` jobs of each tenant run at once. -/
  tenant_bound : ∀ t, (s.runningOf t : ℤ) ≤ (newTenantQueue globalCap perTenantCap).perTenant
  /-- A `Submit` that returned nil has run its job, or its goroutine is about to and nothing blocks
  it; the job never runs twice. -/
  runs_once : ∀ i c, s.calls[i]? = some c → c.phase.returnedNil = true →
    c.runs = 1 ∨ c.runs = 0 ∧ c.phase = .spawned ∧ (step s (.call i .callFn)).isSome
  /-- Until that `Submit` returns, its job has not run, and it never runs after an error. -/
  runs_never : ∀ (i : ℕ) (c : Call), s.calls[i]? = some c → c.phase.returnedNil = false →
    c.runs = 0 ∧ (c.phase.returnedError = true → ∀ bs s', run step s bs = some s' →
      ∃ c', s'.calls[i]? = some c' ∧ c'.phase = c.phase ∧ c'.runs = 0)
  wait_holds_none : ∀ c ∈ s.calls, c.phase = .tenantWait → c.globalHeld = 0
  /-- Giving a slot back never blocks,. -/
  give_back : ∀ i c a, s.calls[i]? = some c →
    c.phase.giveBack = some a → (step s (.call i a)).isSome
  ended_holds_none : ∀ c ∈ s.calls, c.phase.ended = true → c.globalHeld = 0 ∧ c.tenantHeld = 0
  /-- And when every `Submit` and every job has ended all semaphores are empty. -/
  idle_empty : (∀ c ∈ s.calls, c.phase.ended = true) →
    s.queue.global.len = 0 ∧ ∀ t, (s.queue.tenantSlot t).len = 0
  /-- Once a `Shutdown` has returned nil no job is running, and none ever starts. -/
  shutdown_nil : ∀ d ∈ s.shutdowns, d.phase = .returned true → s.running = 0 ∧
    ∀ bs s', run step s bs = some s' →
      s'.running = 0 ∧ total Call.runs s'.calls = total Call.runs s.calls

variable {bs : List QueueAction}

lemma failed_stable {err : SubmitError} (hc : s.calls[i]? = some c)
    (hp : c.phase = .failed err) (h : run step s bs = some s') :
    ∃ c', s'.calls[i]? = some c' ∧ c'.phase = c.phase ∧ c'.runs = c.runs := by
  refine invariant_of_run (I := fun t => ∃ c', t.calls[i]? = some c' ∧ c'.phase = c.phase ∧
    c'.runs = c.runs) (fun t a t' ht hstep => ?_) ⟨c, hc, rfl, rfl⟩ h
  obtain ⟨d, hd, hdp, hdr⟩ := ht
  have hi : i < t.calls.length := (List.getElem?_eq_some_iff.mp hd).1
  cases a with
  | submit u =>
    cases hstep
    exact ⟨d, by rw [getElem?_append_left hi]; exact hd, hdp, hdr⟩
  | shutdown =>
    cases hstep
    exact ⟨d, hd, hdp, hdr⟩
  | shutdownCall j a =>
    obtain ⟨e, -, hstep⟩ := bind_eq_some_iff.mp hstep
    obtain ⟨r, -, rfl⟩ := map_eq_some_iff.mp hstep
    exact ⟨d, hd, hdp, hdr⟩
  | call k a =>
    obtain ⟨e, he, hstep⟩ := bind_eq_some_iff.mp hstep
    obtain ⟨r, hr, rfl⟩ := map_eq_some_iff.mp hstep
    by_cases hk : k = i
    · subst hk
      obtain rfl : e = d := some.inj (he.symm.trans hd)
      refine ⟨r.2, by simp [hi], ?_⟩
      unfold advance at hr
      rw [hdp, hp] at hr
      cases a <;> cases hr
      exact ⟨hp.symm, hdr⟩
    · exact ⟨d, by rw [getElem?_set_ne hk]; exact hd, hdp, hdr⟩

lemma drained_stable (hq : s.queue.closed = true) (hc : ∀ c ∈ s.calls, c.phase.waitCount = 0)
    (h : run step s bs = some s') : (∀ c ∈ s'.calls, c.phase.waitCount = 0) ∧
      total Call.runs s'.calls = total Call.runs s.calls := by
  refine (invariant_of_run (I := fun t => t.queue.closed = true ∧
    (∀ c ∈ t.calls, c.phase.waitCount = 0) ∧ total Call.runs t.calls = total Call.runs s.calls)
    (fun t a t' ht hstep => ?_) ⟨hq, hc, rfl⟩ h).2
  obtain ⟨htq, htc, htr⟩ := ht
  cases a with
  | submit u =>
    cases hstep
    exact ⟨htq, forall_snoc htc rfl, by simpa [newCall] using htr⟩
  | shutdown =>
    cases hstep
    exact ⟨htq, htc, htr⟩
  | shutdownCall j a =>
    obtain ⟨d, -, hstep⟩ := bind_eq_some_iff.mp hstep
    obtain ⟨r, hr, rfl⟩ := map_eq_some_iff.mp hstep
    refine ⟨?_, htc, htr⟩
    unfold shutdownAdvance at hr
    split at hr <;> (try split at hr) <;> cases hr <;> first | exact htq | rfl
  | call i a =>
    obtain ⟨c, hi, hstep⟩ := bind_eq_some_iff.mp hstep
    obtain ⟨r, hr, rfl⟩ := map_eq_some_iff.mp hstep
    obtain ⟨hcl, hw, hruns⟩ := advance_of_closed htq (htc c (mem_of_getElem? hi)) hr
    refine ⟨hcl, forall_set htc hw, ?_⟩
    have := sum_set Call.runs hi r.2
    dsimp only
    omega

variable (hs : s.Inv globalCap perTenantCap)
include hs

lemma running_le_global : s.running ≤ s.queue.global.len := by
  rw [hs.global]
  refine countP_le_sum fun c hc hp => ?_
  rw [(hs.ok c hc).global, of_decide_eq_true hp]
  rfl

lemma runningOf_le_slot (t : String) :
    s.runningOf t ≤ (s.queue.tenantSlot t).len := by
  rw [hs.slot t]
  refine countP_le_sum fun c hc hp => ?_
  obtain ⟨hp, ht⟩ := of_decide_eq_true hp
  rw [Call.heldOf, if_pos ht, (hs.ok c hc).tenant, hp]
  rfl

omit hs in
lemma newTenantQueue_caps (globalCap perTenantCap : ℤ) :
    0 < (newTenantQueue globalCap perTenantCap).globalCap ∧
      0 < (newTenantQueue globalCap perTenantCap).perTenant := by
  constructor <;> dsimp only [newTenantQueue] <;> split <;> omega

lemma giveBack_isSome
    (hi : s.calls[i]? = some c) (ha : c.phase.giveBack = some a) : (step s (.call i a)).isSome := by
  have hmem := mem_of_getElem? hi
  have hglobal := le_total Call.globalHeld hmem
  have hslot := le_total (Call.heldOf c.tenantID) hmem
  rw [← hs.global, (hs.ok c hmem).global] at hglobal
  rw [← hs.slot, Call.heldOf, if_pos rfl, (hs.ok c hmem).tenant] at hslot
  simp only [step, hi, bind_some, isSome_map]
  cases hp : c.phase <;> rw [hp] at ha hglobal hslot <;> cases ha
  · have hlen : 0 < (s.queue.tenantSlot c.tenantID).len := hslot
    simpa [advance, hp, Semaphore.isSome_release] using hlen
  · have hlen : 0 < s.queue.global.len := hglobal
    simpa [advance, hp, Semaphore.isSome_release] using hlen
  · have hlen : 0 < (s.queue.tenantSlot c.tenantID).len := hslot
    simpa [advance, hp, Semaphore.isSome_release] using hlen

lemma drained_of_shutdown {d : ShutdownCall}
    (hd : d ∈ s.shutdowns) (hp : d.phase = .returned true) :
    s.queue.closed = true ∧ ∀ c ∈ s.calls, c.phase.waitCount = 0 := by
  refine ⟨hs.closed d hd (by simp [hp]), fun c hc => ?_⟩
  have hz : total (fun c => c.phase.waitCount) s.calls = 0 := by
    have := hs.drained d hd (.inr hp)
    have := hs.wait
    omega
  exact eq_zero_of_total hz hc

omit hs

lemma running_eq_zero (h : ∀ c ∈ s.calls, c.phase.waitCount = 0) : s.running = 0 := by
  refine countP_eq_zero.mpr fun c hc hp => ?_
  have := h c hc
  rw [of_decide_eq_true hp] at this
  cases this

/-- **The tenant queue under every interleaving** of submits, cancellations, jobs that return or
panic, and shutdowns. -/
theorem queue_safe (globalCap perTenantCap : ℤ) (as : List QueueAction) (s : QueueState)
    (h : run step (QueueState.start globalCap perTenantCap) as = some s) :
    s.Safe globalCap perTenantCap := by
  have hs := inv_run h
  have hcaps := newTenantQueue_caps globalCap perTenantCap
  refine ⟨?_, fun t => ?_, fun i c hi hp => ?_, fun i c hi hp => ?_, fun c hc hp => ?_,
    fun i c a hi ha => giveBack_isSome hs hi ha, fun c hc hp => ?_, fun hend => ?_,
    fun d hd hp => ?_⟩
  · have := running_le_global hs
    have := s.queue.global.len_le
    have := hs.cap
    have := hs.globalCap_eq
    omega
  · have := runningOf_le_slot hs t
    have := (s.queue.tenantSlot t).len_le
    have := hs.slotCap t
    have := hs.perTenant_eq
    omega
  · rw [(hs.ok c (mem_of_getElem? hi)).runs]
    refine (Phase.fnCalls_of_returnedNil hp).imp_right fun ⟨hruns, hspawned⟩ => ?_
    exact ⟨hruns, hspawned, by simp [step, hi, advance, hspawned]⟩
  · have hruns : c.runs = 0 := by
      rw [(hs.ok c (mem_of_getElem? hi)).runs, Phase.fnCalls_of_not_returnedNil hp]
    refine ⟨hruns, fun herr bs s' hrun => ?_⟩
    cases hcp : c.phase <;> rw [hcp] at herr <;> cases herr
    obtain ⟨c', hi', hp', hr'⟩ := failed_stable hi hcp hrun
    exact ⟨c', hi', by rw [hp', hcp], by rw [hr', hruns]⟩
  · rw [(hs.ok c hc).global, hp]
    rfl
  · rw [(hs.ok c hc).global, (hs.ok c hc).tenant]
    exact Phase.slots_of_ended hp
  · refine ⟨?_, fun t => ?_⟩
    · rw [hs.global]
      refine total_eq_zero fun c hc => ?_
      rw [(hs.ok c hc).global, (Phase.slots_of_ended (hend c hc)).1]
    · rw [hs.slot t]
      refine total_eq_zero fun c hc => ?_
      rw [Call.heldOf, (hs.ok c hc).tenant, (Phase.slots_of_ended (hend c hc)).2, ite_self]
  · obtain ⟨hclosed, hw⟩ := drained_of_shutdown hs hd hp
    refine ⟨running_eq_zero hw, fun bs s' hrun => ?_⟩
    obtain ⟨hw', hruns⟩ := drained_stable hclosed hw hrun
    exact ⟨running_eq_zero hw', hruns⟩

/-- Two tenants on a queue with one slot each: a job panics, a second `Submit` is cancelled while
it waits, and a `Shutdown` returns nil. -/
def queueTrace : List QueueAction :=
  [.submit "a", .submit "a", .call 0 .lock, .call 1 .lock, .call 0 .acquireTenant,
    .call 0 .acquireGlobal, .call 0 .go, .call 0 .callFn, .call 1 .cancel, .call 1 .ctxTenant,
    .shutdown, .shutdownCall 0 .lock, .call 0 (.endFn true), .call 0 .releaseGlobal,
    .call 0 .releaseTenant, .call 1 .undoWait, .call 0 .jobDone, .shutdownCall 0 .closeDone,
    .shutdownCall 0 .returnNil]

theorem queue_safe_trace : ∃ s, run step (QueueState.start 1 0) queueTrace = some s ∧
    s.Safe 1 0 ∧ s.shutdowns.map (·.phase) = [.returned true] ∧
    s.calls.map (·.phase) = [.finished, .failed .ctx] :=
  ⟨_, rfl, queue_safe 1 0 queueTrace _ rfl, rfl, rfl⟩

end DeployMonster.Build
