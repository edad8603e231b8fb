import DeployMonster.Library.StepMachine

/-!
# Health checks of backends

`internal/discovery/health.go`. A sweep takes a snapshot of the registered backends, probes them one
after the other without a lock, and commits the results by the names of the backends.
-/

namespace DeployMonster.Discovery

open StepMachine List Option Function

structure HealthCheck where
  healthy : Bool
  (failures threshold : ℕ)

/-- The check of a new registration: healthy until proven otherwise. -/
def newHealthCheck : HealthCheck := ⟨true, 0, 3⟩

/-- What the commit makes of a result; `failed` when the probe returned an error. -/
def HealthCheck.record (c : HealthCheck) (failed : Bool) : HealthCheck :=
  if failed then
    { c with
      failures := c.failures + 1
      healthy := if c.failures + 1 ≥ c.threshold && c.healthy then false else c.healthy }
  else { c with healthy := true, failures := 0 }

structure Probe where
  backend : String
  registration : ℕ

/-- Where a call of `checkAll` stands. -/
structure Sweep where
  todo : List String
  probing : Option Probe
  results : List (Probe × Bool)

/-- The checks and the sweep that is under way. The registrations of each backend are counted, and
the results of the probes of the current one are kept, newest first. -/
structure HealthChecker where
  checks : String → Option HealthCheck
  sweep : Option Sweep
  registrations : String → ℕ
  log : String → List Bool

def newHealthChecker : HealthChecker := ⟨fun _ => none, none, fun _ => 0, fun _ => []⟩

variable (hc : HealthChecker)

def HealthChecker.isHealthy (backend : String) : Bool :=
  match hc.checks backend with
  | none => true
  | some check => check.healthy

/-- One turn of the loop that commits the results: a backend that is gone is passed over. -/
def commitResult (result : Probe × Bool) : HealthChecker :=
  let b := result.1.backend
  match hc.checks b with
  | none => hc
  | some c =>
    { hc with
      checks := update hc.checks b (some (c.record result.2))
      log :=
        if result.1.registration = hc.registrations b then
          update hc.log b (result.2 :: hc.log b)
        else hc.log }

inductive HealthAction
  | register (backend : String)
  | deregister (backend : String)
  /-- A sweep begins, with the backends in the order of the map's iteration. -/
  | snapshot (backends : List String)
  | startProbe
  | endProbe (failed : Bool)
  | commit

def healthStep : HealthAction → Option HealthChecker
  | .register b =>
    some
      { hc with
        checks := update hc.checks b (some newHealthCheck)
        registrations := update hc.registrations b (hc.registrations b + 1)
        log := update hc.log b [] }
  | .deregister b => some { hc with checks := update hc.checks b none }
  | .snapshot bs =>
    if hc.sweep = none ∧ bs.Nodup ∧ ∀ b ∈ bs, (hc.checks b).isSome then
      some { hc with sweep := some ⟨bs, none, []⟩ }
    else none
  | .startProbe =>
    match hc.sweep with
    | some ⟨b :: todo, none, results⟩ =>
      some { hc with sweep := some ⟨todo, some ⟨b, hc.registrations b⟩, results⟩ }
    | _ => none
  | .endProbe failed =>
    match hc.sweep with
    | some ⟨todo, some p, results⟩ =>
      some { hc with sweep := some ⟨todo, none, results ++ [(p, failed)]⟩ }
    | _ => none
  | .commit =>
    match hc.sweep with
    | some ⟨[], none, results⟩ => some { results.foldl commitResult hc with sweep := none }
    | _ => none

/-! ## What is reported -/

/-- A registered backend is reported unhealthy when the last three results of its registration, or
more, are failures. -/
def Reports : Prop :=
  ∀ b, (hc.checks b).isSome →
    (hc.isHealthy b = false ↔ 3 ≤ ((hc.log b).takeWhile id).length)

def HealthChecker.started : List Probe :=
  match hc.sweep with
  | none => []
  | some sweep => sweep.probing.toList ++ sweep.results.map Prod.fst

/-- No backend is registered while a sweep has probed it and not yet committed. -/
def Undisturbed : HealthAction → Prop
  | .register b => ∀ p ∈ hc.started, p.backend ≠ b
  | _ => True

instance (hc : HealthChecker) (a : HealthAction) : Decidable (Undisturbed hc a) := by
  unfold Undisturbed
  split <;> infer_instance

def Counted : Prop :=
  ∀ b c, hc.checks b = some c → c.threshold = 3 ∧
    c.failures = ((hc.log b).takeWhile id).length ∧ (c.healthy = false ↔ 3 ≤ c.failures)

/-- The probes of the sweep are of the current registrations. -/
def Fresh : Prop :=
  ∀ p ∈ hc.started, p.registration = hc.registrations p.backend

lemma counted_commitResult {hc : HealthChecker} {result : Probe × Bool} (hcounted : Counted hc)
    (hfresh : result.1.registration = hc.registrations result.1.backend) :
    Counted (commitResult hc result) := by
  unfold commitResult
  dsimp only
  split
  · exact hcounted
  case h_2 c hc' =>
    obtain ⟨hthreshold, hfailures, hhealthy⟩ := hcounted _ c hc'
    rw [if_pos hfresh]
    intro b c' hb
    by_cases hbackend : b = result.1.backend
    · subst hbackend
      simp only [update_self] at hb ⊢
      cases hb
      cases result.2 with
      | false => simp [HealthCheck.record, hthreshold]
      | true =>
        simp only [HealthCheck.record, hthreshold, takeWhile_cons, id_eq, if_true,
          length_cons, hfailures, true_and]
        rw [hfailures] at hhealthy
        cases hh : c.healthy with
        | false =>
          have := hhealthy.mp hh
          simp only [Bool.and_false, Bool.false_eq_true, if_false, true_iff]
          omega
        | true => simp
    · simp only [update_of_ne hbackend] at hb ⊢
      exact hcounted b c' hb

lemma registrations_commitResult (result : Probe × Bool) :
    (commitResult hc result).registrations = hc.registrations := by
  unfold commitResult
  dsimp only
  split <;> rfl

lemma counted_commit {hc : HealthChecker} (results : List (Probe × Bool)) (hcounted : Counted hc)
    (hfresh : ∀ r ∈ results, r.1.registration = hc.registrations r.1.backend) :
    Counted (results.foldl commitResult hc) := by
  induction results generalizing hc with
  | nil => exact hcounted
  | cons r results ih =>
    refine ih (counted_commitResult hcounted (hfresh r mem_cons_self)) fun r' hr' => ?_
    rw [registrations_commitResult]
    exact hfresh r' (mem_cons_of_mem _ hr')

lemma counted_step (a : HealthAction) (hc' : HealthChecker)
    (h : Counted hc ∧ Fresh hc) (ha : Undisturbed hc a) (hstep : healthStep hc a = some hc') :
    Counted hc' ∧ Fresh hc' := by
  obtain ⟨hcounted, hfresh⟩ := h
  cases a with
  | register b =>
    cases hstep
    refine ⟨fun b' c hb' => ?_, fun p hp => ?_⟩
    · by_cases hb : b' = b
      · subst hb
        simp only [update_self] at hb' ⊢
        cases hb'
        simp [newHealthCheck]
      · simp only [update_of_ne hb] at hb' ⊢
        exact hcounted b' c hb'
    · rw [hfresh p hp]
      exact (update_of_ne (ha p hp) _ _).symm
  | deregister b =>
    cases hstep
    refine ⟨fun b' c hb' => ?_, hfresh⟩
    by_cases hb : b' = b
    · subst hb
      simp at hb'
    · simp only [update_of_ne hb] at hb'
      exact hcounted b' c hb'
  | snapshot bs =>
    obtain ⟨-, rfl⟩ := ite_some_none_eq_some.mp hstep
    exact ⟨hcounted, fun p hp => nomatch hp⟩
  | startProbe =>
    simp only [healthStep] at hstep
    split at hstep
    case h_1 b todo results hsweep =>
      cases hstep
      refine ⟨hcounted, forall_mem_cons.mpr ⟨rfl, fun p hp => ?_⟩⟩
      exact hfresh p (by simpa [HealthChecker.started, hsweep] using hp)
    case h_2 => cases hstep
  | endProbe failed =>
    simp only [healthStep] at hstep
    split at hstep
    case h_1 todo p results hsweep =>
      cases hstep
      refine ⟨hcounted, fun p' hp' => hfresh p' ?_⟩
      simpa [HealthChecker.started, hsweep, or_comm] using hp'
    case h_2 => cases hstep
  | commit =>
    simp only [healthStep] at hstep
    split at hstep
    case h_1 results hsweep =>
      cases hstep
      refine ⟨counted_commit results hcounted fun r hr => hfresh r.1 ?_, fun p hp => nomatch hp⟩
      rw [HealthChecker.started, hsweep]
      exact mem_map_of_mem hr
    case h_2 => cases hstep

/-- **Health reports.** A registered backend is reported unhealthy exactly when the last three
results of its registration, or more, are failures: when no backend is registered between the start
of its probe and the commit. -/
theorem reports_of_undisturbed (as : List HealthAction) (hc : HealthChecker)
    (has : Along healthStep Undisturbed newHealthChecker as)
    (hrun : run healthStep newHealthChecker as = some hc) : Reports hc := by
  have hstart : Counted newHealthChecker ∧ Fresh newHealthChecker :=
    ⟨fun _ _ h => (nomatch h), fun _ h => (nomatch h)⟩
  obtain ⟨hcounted, -⟩ := invariant_of_along counted_step hstart has hrun
  intro b hb
  obtain ⟨c, hc'⟩ := isSome_iff_exists.mp hb
  obtain ⟨-, hfailures, hhealthy⟩ := hcounted b c hc'
  rw [HealthChecker.isHealthy, hc', ← hfailures]
  exact hhealthy

def failedSweep (b : String) : List HealthAction :=
  [.snapshot [b], .startProbe, .endProbe true, .commit]

theorem reports_threeFailures :
    ∃ hc, run healthStep newHealthChecker (.register "web:80" :: failedSweep "web:80" ++
        failedSweep "web:80" ++ failedSweep "web:80") = some hc ∧
      hc.isHealthy "web:80" = false ∧ Reports hc :=
  exists_of_run_and (by decide) fun hc hrun _ => reports_of_undisturbed _ hc (by decide) hrun

/-- A backend is registered anew while it is probed, and the result counts for the new
registration: it is unhealthy after two failures of its own. -/
theorem stale_result_counts :
    ∃ hc, run healthStep newHealthChecker ([.register "web:80", .snapshot ["web:80"], .startProbe,
        .deregister "web:80", .register "web:80", .endProbe true, .commit] ++
        failedSweep "web:80" ++ failedSweep "web:80") = some hc ∧
      (hc.isHealthy "web:80" = false ∧ hc.log "web:80" = [true, true]) ∧ ¬ Reports hc := by
  refine exists_of_run_imp (P := fun hc => hc.isHealthy "web:80" = false ∧
    hc.log "web:80" = [true, true] ∧ (hc.checks "web:80").isSome = true) (by decide)
    fun hc _ ⟨hhealthy, hlog, hsome⟩ => ⟨⟨hhealthy, hlog⟩, fun h => ?_⟩
  have := (h "web:80" hsome).mp hhealthy
  rw [hlog] at this
  exact absurd this (by decide)

end DeployMonster.Discovery
