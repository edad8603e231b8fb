import DeployMonster.Core.Scheduler
import DeployMonster.Library.StepMachine

/-!
# The cron executor

`internal/cron/module.go`. The scheduler lock is taken for each call and released in between, so
refreshes interleave with ticks, with the ends of executions and with each other.
-/

namespace DeployMonster.Cron

open DeployMonster.Core StepMachine Option Clock

/-- `jobConfig`, a persisted job: the fields that a refresh reads. -/
structure JobConfig where
  (id schedule command : String)
  enabled : Bool
  deriving DecidableEq

def jobID (appID : String) (cfg : JobConfig) : String := "appcron:" ++ appID ++ ":" ++ cfg.id

/-- The new object of `attach`. -/
def attached (appID : String) (cfg : JobConfig) : CronJob where
  id := jobID appID cfg
  schedule := cfg.schedule
  lastRun := 0
  nextRun := 0
  running := false
  enabled := true

/-- The jobs that a refresh attaches, in order: those that are enabled and have a schedule and a
command. -/
def wanted (apps : List (String × List JobConfig)) : List (String × JobConfig) :=
  apps.flatMap fun (appID, cfgs) =>
    (cfgs.filter fun cfg => cfg.enabled && cfg.schedule ≠ "" && cfg.command ≠ "").map (appID, ·)

/-- Where a call of `refresh` stands. -/
inductive Refresh
  | attaching (todo : List (String × JobConfig)) (desired : List String)
  | removing (stale : List String)
  | returned
  deriving DecidableEq

structure CronState where
  now : ℤ
  scheduler : Scheduler
  refreshes : List Refresh

def CronState.start (now : ℤ) : CronState := ⟨now, newScheduler, []⟩

inductive CronAction
  | advance (d : ℕ)
  /-- `Add` with a new object. -/
  | addNew (job : CronJob) (generated : String)
  /-- `Add` with an object that was added before. -/
  | add (ref : ℕ)
  | remove (id : String)
  | tick
  /-- The handler of an execution has returned or panicked. -/
  | endJob (i : ℕ)
  | stop
  /-- A refresh that reads these jobs of these apps. -/
  | refresh (apps : List (String × List JobConfig))
  | refreshNext (k : ℕ)

/-- The next step of a refresh: attach a job, compare with `Jobs()`, or remove a stale one. -/
def Refresh.advance (next : String → ℤ → ℤ) (now : ℤ) (s : Scheduler) :
    Refresh → Option (Scheduler × Refresh)
  | attaching ((appID, cfg) :: todo) desired =>
    some (s.addNew next now (attached appID cfg) "",
      attaching todo (desired ++ [jobID appID cfg]))
  | attaching [] desired =>
    let stale := s.jobIDs.filter fun id =>
      "appcron:".toList.isPrefixOf id.toList && !desired.contains id
    some (s, removing stale)
  | removing (id :: stale) => some (s.remove id, removing stale)
  | removing [] => some (s, returned)
  | returned => none

def cronStep (next : String → ℤ → ℤ) (s : CronState) : CronAction → Option CronState
  | .advance d => some { s with now := s.now + d }
  | .addNew job generated =>
    if generated = "" then none
    else some { s with scheduler := s.scheduler.addNew next s.now job generated }
  | .add ref =>
    if ref < s.scheduler.allocated then
      some { s with scheduler := s.scheduler.add next s.now ref "" }
    else none
  | .remove id => some { s with scheduler := s.scheduler.remove id }
  | .tick => some { s with scheduler := s.scheduler.tick s.now }
  | .endJob i => (s.scheduler.endJob next s.now i).map fun sch => { s with scheduler := sch }
  | .stop => some { s with scheduler := s.scheduler.stop }
  | .refresh apps => some { s with refreshes := s.refreshes ++ [.attaching (wanted apps) []] }
  | .refreshNext k => do
    let r ← s.refreshes[k]?
    let (scheduler, r') ← r.advance next s.now s.scheduler
    some { s with scheduler := scheduler, refreshes := s.refreshes.set k r' }

/-! ## Re-binding an id -/

def binds (s : CronState) : CronAction → Option (ℕ × String)
  | .addNew job generated =>
    some (s.scheduler.allocated, if job.id = "" then generated else job.id)
  | .add ref => some (ref, (s.scheduler.heap ref).id)
  | .refreshNext k =>
    match s.refreshes[k]? with
    | some (.attaching ((appID, cfg) :: _) _) => some (s.scheduler.allocated, jobID appID cfg)
    | _ => none
  | _ => none

/-- The action binds an id only to the object of every live execution of that id: in particular it
binds no new object to the id of a live execution. -/
def KeepsBinding (s : CronState) (a : CronAction) : Prop :=
  ∀ b ∈ binds s a, ∀ r ∈ s.scheduler.runs, r.live = true → s.scheduler.idOf r = b.2 → r.ref = b.1
  deriving Decidable

variable {next : String → ℤ → ℤ} {s s' : CronState}

lemma jobID_ne (appID : String) (cfg : JobConfig) : jobID appID cfg ≠ "" := by
  simp [jobID]

lemma guarded_addNew (hs : s.scheduler.Guarded) {job : CronJob} {generated : String}
    (hne : (if job.id = "" then generated else job.id) ≠ "")
    (hbind : ∀ r ∈ s.scheduler.runs, r.live = true →
      s.scheduler.idOf r = (if job.id = "" then generated else job.id) →
        r.ref = s.scheduler.allocated) :
    (s.scheduler.addNew next s.now job generated).Guarded := by
  refine hs.addNew hne fun r hr hlive heq => ?_
  have hlt := hs.run_lt r hr
  have heq := hbind r hr hlive heq
  omega

lemma guarded_refreshNext (hs : s.scheduler.Guarded) {k : ℕ} (ha : KeepsBinding s (.refreshNext k))
    (h : cronStep next s (.refreshNext k) = some s') : s'.scheduler.Guarded := by
  obtain ⟨r, hr, h⟩ := bind_eq_some_iff.mp h
  obtain ⟨⟨scheduler, r'⟩, hadv, h⟩ := bind_eq_some_iff.mp h
  cases h
  match r with
  | .attaching ((appID, cfg) :: todo) desired =>
    cases hadv
    have hid : (if (attached appID cfg).id = "" then "" else (attached appID cfg).id) =
        jobID appID cfg := if_neg (jobID_ne appID cfg)
    refine guarded_addNew hs (hid ▸ jobID_ne appID cfg) ?_
    rw [hid]
    exact ha (s.scheduler.allocated, jobID appID cfg) (by simp [binds, hr])
  | .attaching [] desired =>
    cases hadv
    exact hs
  | .removing (id :: stale) =>
    cases hadv
    exact hs.remove id
  | .removing [] =>
    cases hadv
    exact hs

/-- **Every step that re-binds no executing id keeps the running flags guarding the ids.** -/
theorem guarded_step (s : CronState) (a : CronAction) (s' : CronState) (hs : s.scheduler.Guarded)
    (ha : KeepsBinding s a) (h : cronStep next s a = some s') : s'.scheduler.Guarded := by
  cases a with
  | advance | refresh =>
    cases h
    exact hs
  | addNew job generated =>
    obtain ⟨hgen, h⟩ := ite_none_left_eq_some.mp h
    cases h
    refine guarded_addNew hs ?_ (ha _ rfl)
    split_ifs with hid
    · exact hgen
    · exact hid
  | add ref =>
    obtain ⟨href, rfl⟩ := ite_some_none_eq_some.mp h
    exact hs.add href "" (ha _ rfl)
  | remove id =>
    cases h
    exact hs.remove id
  | tick =>
    cases h
    exact hs.tick s.now
  | endJob i =>
    obtain ⟨scheduler, hend, rfl⟩ := map_eq_some_iff.mp h
    exact hs.endJob hend
  | stop =>
    cases h
    exact { hs with }
  | refreshNext k => exact guarded_refreshNext hs ha h

/-- **No job runs twice at the same time**, along every interleaving in which no call binds the id
of a live execution to another object. -/
theorem executions_exclusive (next : String → ℤ → ℤ) (now : ℤ) (as : List CronAction)
    (s : CronState) (has : Along (cronStep next) KeepsBinding (.start now) as)
    (h : run (cronStep next) (.start now) as = some s) : s.scheduler.Exclusive :=
  (invariant_of_along (I := fun (s : CronState) => s.scheduler.Guarded) guarded_step
    Scheduler.guarded_newScheduler has h).exclusive

/-- A server on universal time. -/
def utc : TimeEnv where
  parseDuration s := if s = "5m" then some (5 * minute) else none
  date now total := now / day * day + total * minute

def persisted : List (String × List JobConfig) := [("web", [⟨"1", "@every 5m", "sync", true⟩])]

def wholeRefresh (k : ℕ) : List CronAction :=
  .refresh persisted :: List.replicate 3 (.refreshNext k)

def refreshedIdle : List CronAction :=
  wholeRefresh 0 ++ [.advance 300000000000, .tick, .endJob 0] ++ wholeRefresh 1 ++
    [.advance 300000000000, .tick]

theorem executions_exclusive_refreshedIdle : ∃ s,
    run (cronStep (calcNextRun utc)) (.start 0) refreshedIdle = some s ∧
      s.scheduler.runs = [⟨0, false⟩, ⟨1, true⟩] ∧ s.scheduler.Exclusive :=
  exists_of_run_and (by decide +kernel) fun s hs _ =>
    executions_exclusive _ _ _ s (by decide +kernel) hs

/-- A refresh adds the job again while it executes, and the next tick starts it a second time. -/
def refreshedRunning : List CronAction :=
  wholeRefresh 0 ++ [.advance 300000000000, .tick] ++ wholeRefresh 1 ++
    [.advance 300000000000, .tick]

theorem executions_overlap : ∃ s,
    run (cronStep (calcNextRun utc)) (.start 0) refreshedRunning = some s ∧
      s.scheduler.runs = [⟨0, true⟩, ⟨1, true⟩] ∧
      s.scheduler.idOf ⟨0, true⟩ = "appcron:web:1" ∧ s.scheduler.idOf ⟨1, true⟩ = "appcron:web:1" ∧
      ¬ s.scheduler.Exclusive := by
  refine exists_of_run_imp (P := fun s => s.scheduler.runs = [⟨0, true⟩, ⟨1, true⟩] ∧
    s.scheduler.idOf ⟨0, true⟩ = "appcron:web:1" ∧ s.scheduler.idOf ⟨1, true⟩ = "appcron:web:1")
    (by decide +kernel) fun s hs ⟨hruns, hid0, hid1⟩ => ⟨hruns, hid0, hid1, fun hex => ?_⟩
  have heq := hex 0 1 ⟨0, true⟩ ⟨1, true⟩ (by simp [hruns]) (by simp [hruns]) rfl rfl
    (hid0.trans hid1.symm)
  cases heq

/-!
# Refreshes of unchanged jobs

A refresh adds every persisted job anew: a new object, idle, whose next run is computed from the
time of the refresh.
-/

open List

/-- When a job is due next, and whether it is running. -/
def timing (s : Scheduler) (id : String) : Option (ℤ × Bool) :=
  (s.jobs.find? fun p => p.1 = id).map fun p => ((s.heap p.2).nextRun, (s.heap p.2).running)

/-- A step of a refresh at the time `now`, while the scheduler is left alone otherwise. -/
def refreshStep (env : TimeEnv) (c : Scheduler × Refresh) (now : ℤ) : Option (Scheduler × Refresh) :=
  c.2.advance (calcNextRun env) now c.1

def cronID (id : String) : Bool := "appcron:".toList.isPrefixOf id.toList

/-- The id of a job that a refresh wants. -/
def wantedID (x : String × JobConfig) : String := jobID x.1 x.2

/-- A zone whose offset does not change. -/
def FixedOffset (env : TimeEnv) (offset : ℤ) : Prop :=
  ∀ now total, env.date now total = (now + offset) / day * day - offset + total * minute

/-- A job that was timed at `since` is timed alike at `now`: an interval at the same instant only, a
daily job until it is due. -/
def Unmoved (env : TimeEnv) (schedule : String) (since now : ℤ) : Prop :=
  match readSchedule env schedule with
  | .every _ => since = now
  | .daily _ => now < calcNextRun env schedule since

instance (env : TimeEnv) (schedule : String) (since now : ℤ) :
    Decidable (Unmoved env schedule since now) := by
  unfold Unmoved
  split <;> infer_instance

variable {env : TimeEnv} {s s' : Scheduler} {now : ℤ} {appID : String} {cfg : JobConfig}

lemma total_of_readSchedule {schedule : String} {total : ℤ}
    (h : readSchedule env schedule = .daily total) : 0 ≤ total ∧ total < 1440 := by
  unfold readSchedule at h
  split_ifs at h
  cases hparse : parseHHMM schedule with
  | none =>
    rw [hparse] at h
    cases h
  | some total' =>
    rw [hparse] at h
    cases h
    simp only [parseHHMM, Option.bind_eq_bind, bind_eq_some_iff, ite_none_left_eq_some] at hparse
    obtain ⟨hour, -, minutes, -, hrange, hparse⟩ := hparse
    have htotal := some.inj hparse
    push Not at hrange
    omega

/-- The first times with one minute of the day, after two times. -/
lemma daily_eq_iff {since offset total q q' n n' : ℤ} (hle : since ≤ now)
    (htotal : 0 ≤ total ∧ total < 1440)
    (hq : 0 ≤ since + offset - q * day ∧ since + offset - q * day < day)
    (hq' : 0 ≤ now + offset - q' * day ∧ now + offset - q' * day < day)
    (hn : n = q * day - offset + total * minute) (hn' : n' = q' * day - offset + total * minute) :
    (if n ≤ since then n + day else n) = (if n' ≤ now then n' + day else n') ↔
      now < if n ≤ since then n + day else n := by
  have hday : day = 86400000000000 := rfl
  have hminute : minute = 60000000000 := rfl
  rw [hday] at hq hq' hn hn' ⊢
  rw [hminute] at hn hn'
  split_ifs <;> omega

lemma calcNextRun_eq_iff {offset : ℤ} (hoffset : FixedOffset env offset) {schedule : String}
    {since : ℤ} (hle : since ≤ now) :
    calcNextRun env schedule since = calcNextRun env schedule now ↔ Unmoved env schedule since now := by
  unfold Unmoved calcNextRun
  cases hread : readSchedule env schedule with
  | every duration =>
    dsimp only
    omega
  | daily total =>
    have htotal := total_of_readSchedule hread
    have hmod (t : ℤ) : 0 ≤ (t + offset) - (t + offset) / day * day ∧
        (t + offset) - (t + offset) / day * day < day := by
      rw [mul_comm, ← Int.emod_def]
      exact ⟨Int.emod_nonneg _ (by decide), Int.emod_lt_of_pos _ (by decide)⟩
    exact daily_eq_iff hle htotal (hmod since) (hmod now) (hoffset since total) (hoffset now total)

lemma addNew_attached {next : String → ℤ → ℤ} :
    s.addNew next now (attached appID cfg) "" =
      { s with
        heap := Function.update s.heap s.allocated
          { attached appID cfg with nextRun := next cfg.schedule now }
        allocated := s.allocated + 1
        jobs := (s.jobs.filter fun p => p.1 ≠ jobID appID cfg) ++
          [(jobID appID cfg, s.allocated)] } := by
  simp [Scheduler.addNew, Scheduler.add, jobID_ne, attached]

/-- What the pairs say of their keys is what was said before exactly when each pair says it. -/
lemma overridden_eq_iff {α β : Type} {key : α → String} {val : α → β} {ps : List α}
    (hnodup : (ps.map key).Nodup) {f : String → Option β} :
    (∀ id, ((ps.find? fun p => key p = id).map val).or (f id) = f id) ↔
      ∀ p ∈ ps, f (key p) = some (val p) := by
  constructor
  · intro h p hp
    obtain ⟨q, hq⟩ : ∃ q, ps.find? (fun q => key q = key p) = some q :=
      Option.isSome_iff_exists.mp (find?_isSome.mpr ⟨p, hp, decide_eq_true rfl⟩)
    have hsame := find?_some hq
    obtain rfl : q = p :=
      inj_on_of_nodup_map hnodup (mem_of_find?_eq_some hq) hp (of_decide_eq_true hsame)
    rw [← h, hq]
    rfl
  · intro h id
    cases hfind : ps.find? fun p => key p = id with
    | none => rfl
    | some p =>
      have hid := find?_some hfind
      obtain rfl := of_decide_eq_true hid
      exact (h p (mem_of_find?_eq_some hfind)).symm

variable (hlt : ∀ p ∈ s.jobs, p.2 < s.allocated)
include hlt

lemma heap_addNew {p : String × ℕ} (hp : p ∈ s.jobs)
    (job : CronJob) : Function.update s.heap s.allocated job p.2 = s.heap p.2 :=
  Function.update_of_ne (Nat.ne_of_lt (hlt p hp)) _ _

lemma timing_addNew (id : String) :
    timing (s.addNew (calcNextRun env) now (attached appID cfg) "") id =
      if id = jobID appID cfg then some (calcNextRun env cfg.schedule now, false)
      else timing s id := by
  rw [addNew_attached]
  simp only [timing, find?_append]
  split_ifs with hid
  · have hnone : (s.jobs.filter fun p => p.1 ≠ jobID appID cfg).find? (fun p => p.1 = id) = none :=
      find?_eq_none.mpr fun p hp => by simpa [hid] using (mem_filter.mp hp).2
    rw [hnone, Option.none_or]
    simp [hid, attached]
  have hfilter : (s.jobs.filter fun p => p.1 ≠ jobID appID cfg).find? (fun p => p.1 = id) =
      s.jobs.find? fun p => p.1 = id := by
    rw [find?_filter]
    congr 1
    funext p
    by_cases hp : p.1 = id
    · simp [hp, hid]
    · simp [hp]
  rw [hfilter]
  cases hfind : s.jobs.find? fun p => p.1 = id with
  | none => simp [Ne.symm hid]
  | some p => simp [heap_addNew hlt (mem_of_find?_eq_some hfind)]

lemma mem_jobIDs_addNew {next : String → ℤ → ℤ} {id : String}
    (h : id ∈ (s.addNew next now (attached appID cfg) "").jobIDs) :
    id ∈ s.jobIDs ∨ id = jobID appID cfg := by
  rw [addNew_attached] at h
  obtain ⟨p, hp, rfl⟩ := mem_map.mp h
  rcases mem_append.mp hp with hp | hp
  · have hp := mem_of_mem_filter hp
    exact .inl (mem_map.mpr ⟨p, hp, congrArg CronJob.id (heap_addNew hlt hp _).symm⟩)
  · obtain rfl := mem_singleton.mp hp
    exact .inr (by simp [attached])

/-- What a whole refresh makes of the timings: each job that it adds has a new one, the others keep
theirs. -/
lemma timing_of_run {todo : List (String × JobConfig)} {desired : List String} {times : List ℤ}
    (hcovers : ∀ id ∈ s.jobIDs, cronID id = true → id ∈ desired ∨ id ∈ todo.map wantedID)
    (hnodup : (todo.map wantedID).Nodup)
    (hrun : run (refreshStep env) (s, .attaching todo desired) times = some (s', .returned)) :
    todo.length ≤ times.length ∧ ∀ id, timing s' id =
      (((todo.zip times).find? fun p => wantedID p.1 = id).map fun p =>
        (calcNextRun env p.1.2.schedule p.2, false)).or (timing s id) := by
  induction todo generalizing s desired times with
  | nil =>
    have hstale : (s.jobIDs.filter fun id =>
        "appcron:".toList.isPrefixOf id.toList && !desired.contains id) = [] := by
      refine filter_eq_nil_iff.mpr fun id hid => ?_
      simp only [Bool.and_eq_true, Bool.not_eq_true', not_and, Bool.not_eq_false]
      intro hcron
      simpa using hcovers id hid hcron
    rcases times with _ | ⟨t, _ | ⟨t', times⟩⟩
    · cases hrun
    · cases hrun
    · simp only [run_cons, refreshStep, Refresh.advance, hstale, Option.bind_some] at hrun
      cases times with
      | nil =>
        cases hrun
        exact ⟨Nat.zero_le _, fun id => rfl⟩
      | cons => cases hrun
  | cons x todo ih =>
    obtain ⟨hx, hnodup⟩ := nodup_cons.mp hnodup
    cases times with
    | nil => cases hrun
    | cons t times =>
      have hlt' : ∀ p ∈ (s.addNew (calcNextRun env) t (attached x.1 x.2) "").jobs,
          p.2 < (s.addNew (calcNextRun env) t (attached x.1 x.2) "").allocated := by
        rw [addNew_attached]
        exact forall_mem_append.mpr ⟨fun p hp => Nat.lt_succ_of_lt (hlt p (mem_of_mem_filter hp)),
          forall_mem_singleton.mpr (Nat.lt_succ_self _)⟩
      obtain ⟨hlength, htiming⟩ := @ih _ hlt' (desired ++ [wantedID x]) times (fun id hid hcron => by
        rcases mem_jobIDs_addNew hlt hid with hold | rfl
        · rcases hcovers id hold hcron with h | h
          · exact .inl (mem_append_left _ h)
          · exact (mem_cons.mp h).imp (fun h => mem_append_right _ (mem_singleton.mpr h)) fun h => h
        · exact .inl (mem_append_right _ (mem_singleton_self _))) hnodup hrun
      refine ⟨Nat.succ_le_succ hlength, fun id => ?_⟩
      rw [htiming, timing_addNew hlt, zip_cons_cons, find?_cons]
      by_cases hid : wantedID x = id
      · have hnone : (todo.zip times).find? (fun p => wantedID p.1 = id) = none := by
          refine find?_eq_none.mpr fun p hp heq => hx ?_
          rw [hid, ← of_decide_eq_true heq]
          exact mem_map_of_mem (of_mem_zip hp).1
        simp only [hnone, hid, decide_true, Option.map_none, Option.none_or, Option.map_some,
          Option.some_or]
        exact if_pos hid.symm
      · have hne : id ≠ jobID x.1 x.2 := Ne.symm hid
        simp only [hid, decide_false, if_neg hne]

/-- **A refresh of unchanged jobs** keeps the next run and the running flag of every job exactly when
each job that it adds is idle and timed alike at the time of the refresh: a job with an interval only
if it was timed at that instant, so that every later refresh postpones it. -/
theorem refresh_keeps_timing_iff {offset : ℤ} (hoffset : FixedOffset env offset)
    (apps : List (String × List JobConfig)) (hnodup : ((wanted apps).map wantedID).Nodup)
    (hsame : ∀ id ∈ s.jobIDs, cronID id = true → id ∈ (wanted apps).map wantedID)
    (since : String → ℤ) (htimed : ∀ x ∈ wanted apps, (timing s (wantedID x)).map Prod.fst =
      some (calcNextRun env x.2.schedule (since (wantedID x)))) (times : List ℤ)
    (hpast : ∀ p ∈ (wanted apps).zip times, since (wantedID p.1) ≤ p.2)
    (hrun : run (refreshStep env) (s, .attaching (wanted apps) []) times = some (s', .returned)) :
    (∀ id, timing s' id = timing s id) ↔ ∀ p ∈ (wanted apps).zip times,
      (timing s (wantedID p.1)).map Prod.snd = some false ∧
        Unmoved env p.1.2.schedule (since (wantedID p.1)) p.2 := by
  obtain ⟨hlength, htiming⟩ :=
    timing_of_run hlt (fun id hid hcron => .inr (hsame id hid hcron)) hnodup hrun
  have hids : (((wanted apps).zip times).map fun p => wantedID p.1).Nodup := by
    rw [show (fun p : (String × JobConfig) × ℤ => wantedID p.1) = wantedID ∘ Prod.fst from rfl,
      ← List.map_map, map_fst_zip hlength]
    exact hnodup
  simp only [htiming]
  rw [overridden_eq_iff hids]
  refine forall₂_congr fun p hp => ?_
  have hp' := htimed p.1 (of_mem_zip hp).1
  obtain ⟨⟨nextRun, running⟩, htime, rfl⟩ := map_eq_some_iff.mp hp'
  rw [htime, ← calcNextRun_eq_iff hoffset (hpast p hp)]
  simp [and_comm]

omit hlt

/-- A nightly job, added at midnight. -/
def nightly : Scheduler :=
  newScheduler.addNew (calcNextRun utc) 0 (attached "web" ⟨"1", "00:00", "sync", true⟩) ""

theorem refresh_keeps_timing_iff_nightly :
    ∃ c, run (refreshStep utc) (nightly, .attaching (wanted [("web", [⟨"1", "00:00", "sync", true⟩])]) [])
        (replicate 3 (60 * minute)) = some c ∧ c.2 = .returned ∧
      timing c.1 "appcron:web:1" = timing nightly "appcron:web:1" := by
  refine exists_of_run_and (by decide +kernel) fun c hrun hc => ?_
  have hoffset : FixedOffset utc 0 := fun now total => by simp [utc]
  rw [← Prod.eta c, hc] at hrun
  exact (@refresh_keeps_timing_iff utc nightly c.1 (by decide +kernel) 0 hoffset _ (by decide +kernel)
    (by decide +kernel) (fun _ => 0) (by decide +kernel) _ (by decide +kernel) hrun).mpr
    (by decide +kernel) _

/-- A refresh four minutes after the last one moves the next run of a job by four minutes, so that
it does not run when its five minutes are over. -/
theorem refresh_postpones : ∃ c, run (cronStep (calcNextRun utc)) (.start 0)
      (wholeRefresh 0 ++ [.advance 240000000000] ++ wholeRefresh 1 ++
        [.advance 60000000000, .tick]) = some c ∧
      c.now = 300000000000 ∧ c.scheduler.runs = [] ∧
      timing c.scheduler "appcron:web:1" = some (540000000000, false) :=
  by decide +kernel

end DeployMonster.Cron
