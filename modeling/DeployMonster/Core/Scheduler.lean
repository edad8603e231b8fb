import DeployMonster.Core.Clock
import DeployMonster.Core.Text
import DeployMonster.Library.Pool

/-!
# The task scheduler

`internal/core/scheduler.go`. The flag of a running job is on the object, so it guards an id only as
long as the id stays bound to the object that is executing. Objects are numbered in the order of
their allocation. The operations take how a schedule determines the next run as a parameter, which
is `calcNextRun` in the code.
-/

namespace DeployMonster.Core

open List Function Pool Clock Text

/-- What the scheduler uses of the package `time`: durations, and `time.Date` for a minute of the local
day of a time. -/
structure TimeEnv where
  parseDuration : String → Option ℤ
  date : ℤ → ℤ → ℤ

/-- `strconv.Atoi`; the callers refuse large numbers themselves. -/
def atoi (s : String) : Option ℤ :=
  let unsigned (digits : List Char) : Option ℤ :=
    if digits ≠ [] ∧ digits.all Char.isDigit then some (Nat.ofDigitChars 10 digits 0 : ℕ) else none
  match s.toList with
  | '-' :: digits => (unsigned digits).map (-·)
  | '+' :: digits | digits => unsigned digits

/-- `parseHHMM`: the minutes since midnight. -/
def parseHHMM (s : String) : Option ℤ := do
  let h ← atoi (trimSpace (String.ofList (s.toList.takeWhile (· ≠ ':'))))
  let m ← atoi (trimSpace (String.ofList ((s.toList.dropWhile (· ≠ ':')).drop 1)))
  if ':' ∉ s.toList ∨ h < 0 ∨ h > 23 ∨ m < 0 ∨ m > 59 then none else some (h * 60 + m)

/-- A schedule: an interval, or a minute of the day. -/
inductive Schedule
  | every (duration : ℤ)
  | daily (total : ℤ)

/-- The forms of a schedule that `calcNextRun` tells apart: every hour is what it falls back to. -/
def readSchedule (env : TimeEnv) (schedule : String) : Schedule :=
  if "@every ".toList.isPrefixOf schedule.toList then
    .every ((env.parseDuration (trimSpace (String.ofList (schedule.toList.drop 7)))).getD (60 * minute))
  else if ':' ∈ schedule.toList then ((parseHHMM schedule).map .daily).getD (.every (60 * minute))
  else .every (60 * minute)

def calcNextRun (env : TimeEnv) (schedule : String) (now : ℤ) : ℤ :=
  match readSchedule env schedule with
  | .every duration => now + duration
  | .daily total => if env.date now total ≤ now then env.date now total + day else env.date now total

/-- A job object: the fields that the scheduler reads and writes. -/
structure CronJob where
  (id schedule : String)
  (lastRun nextRun : ℤ)
  (running enabled : Bool)

/-- A goroutine of `runJob`, for the object `ref`. -/
structure JobRun where
  ref : ℕ
  live : Bool
  deriving DecidableEq

/-- The scheduler: the allocated objects, the map of ids, the goroutines it has started. -/
structure Scheduler where
  heap : ℕ → CronJob
  allocated : ℕ
  jobs : List (String × ℕ)
  stopped : Bool
  runs : List JobRun

def newScheduler : Scheduler where
  heap := fun _ => ⟨"", "", 0, 0, false, false⟩
  allocated := 0
  jobs := []
  stopped := false
  runs := []

namespace Scheduler

def idOf (s : Scheduler) (r : JobRun) : String := (s.heap r.ref).id

variable (next : String → ℤ → ℤ)

/-- `Add` with an object that has been allocated; `generated` is the result of `GenerateID`, for an
object without an id. -/
def add (s : Scheduler) (now : ℤ) (ref : ℕ) (generated : String) : Scheduler :=
  let job := s.heap ref
  let job := if job.id = "" then { job with id := generated } else job
  let job := { job with enabled := true, nextRun := next job.schedule now }
  { s with
    heap := update s.heap ref job
    jobs := (s.jobs.filter fun p => p.1 ≠ job.id) ++ [(job.id, ref)] }

def addNew (s : Scheduler) (now : ℤ) (job : CronJob) (generated : String) : Scheduler :=
  add next
    { s with
      heap := update s.heap s.allocated job
      allocated := s.allocated + 1 } now s.allocated generated

def remove (s : Scheduler) (id : String) : Scheduler :=
  { s with jobs := s.jobs.filter fun p => p.1 ≠ id }

/-- One iteration of the loop of `tick`. -/
def tickJob (now : ℤ) (s : Scheduler) (p : String × ℕ) : Scheduler :=
  let job := s.heap p.2
  if !job.enabled || job.running || now < job.nextRun then s
  else
    { s with
      heap := update s.heap p.2 { job with running := true }
      runs := s.runs ++ [⟨p.2, true⟩] }

def tick (s : Scheduler) (now : ℤ) : Scheduler :=
  if s.stopped then s else s.jobs.foldl (tickJob now) s

/-- The deferred block of `runJob`, after the handler has returned or panicked. -/
def endJob (s : Scheduler) (now : ℤ) (i : ℕ) : Option Scheduler :=
  match s.runs[i]? with
  | some ⟨ref, true⟩ =>
    let job := s.heap ref
    some
      { s with
        heap := update s.heap ref
          { job with
            running := false
            lastRun := now
            nextRun := next job.schedule now }
        runs := s.runs.set i ⟨ref, false⟩ }
  | _ => none

def stop (s : Scheduler) : Scheduler := { s with stopped := true }

def jobIDs (s : Scheduler) : List String := s.jobs.map fun p => (s.heap p.2).id

/-- No job id has two executions at the same time. -/
def Exclusive (s : Scheduler) : Prop :=
  ∀ (i j : ℕ) (r r' : JobRun), s.runs[i]? = some r → s.runs[j]? = some r' → r.live = true →
    r'.live = true → s.idOf r = s.idOf r' → i = j

/-- Every live execution is that of the object its id is bound to, if any, and that object has its
flag set. -/
structure Guarded (s : Scheduler) : Prop where
  entry : ∀ p ∈ s.jobs, p.2 < s.allocated ∧ (s.heap p.2).id = p.1
  unique : ∀ p ∈ s.jobs, ∀ q ∈ s.jobs, q.1 = p.1 → q.2 = p.2
  id_ne : ∀ ref < s.allocated, (s.heap ref).id ≠ ""
  run_lt : ∀ r ∈ s.runs, r.ref < s.allocated
  running : ∀ r ∈ s.runs, r.live = true → (s.heap r.ref).running = true
  bound : ∀ r ∈ s.runs, r.live = true → ∀ p ∈ s.jobs, p.1 = s.idOf r → p.2 = r.ref
  exclusive : s.Exclusive

lemma guarded_newScheduler : newScheduler.Guarded :=
  ⟨by simp [newScheduler], by simp [newScheduler], by simp [newScheduler], by simp [newScheduler],
    by simp [newScheduler], by simp [newScheduler], by simp [Exclusive, newScheduler]⟩

variable {s : Scheduler} {next : String → ℤ → ℤ} {now : ℤ} {job : CronJob} {ref : ℕ}

lemma id_update {heap : ℕ → CronJob} (h : job.id = (heap ref).id)
    (k : ℕ) : (update heap ref job k).id = (heap k).id := by
  by_cases hk : k = ref
  · subst hk
    simpa using h
  · simp [hk]

variable {s' : Scheduler}

lemma Exclusive.congr (h : s.Exclusive) (hruns : s'.runs = s.runs)
    (hid : ∀ r ∈ s.runs, s'.idOf r = s.idOf r) : s'.Exclusive := by
  intro i j r r' hi hj hr hr' heq
  rw [hruns] at hi hj
  rw [hid r (mem_of_getElem? hi), hid r' (mem_of_getElem? hj)] at heq
  exact h i j r r' hi hj hr hr' heq

lemma Exclusive.snoc (h : s.Exclusive) {r0 : JobRun}
    (hruns : s'.runs = s.runs ++ [r0]) (hid : ∀ r, s'.idOf r = s.idOf r)
    (hnone : ∀ r ∈ s.runs, r.live = true → s.idOf r ≠ s.idOf r0) : s'.Exclusive := by
  intro i j r r' hi hj hr hr' heq
  rw [hruns] at hi hj
  rw [hid r, hid r'] at heq
  rcases getElem?_snoc hi with hi' | ⟨rfl, rfl⟩ <;>
    rcases getElem?_snoc hj with hj' | ⟨rfl, rfl⟩
  · exact h i j r r' hi' hj' hr hr' heq
  · exact absurd heq (hnone r (mem_of_getElem? hi') hr)
  · exact absurd heq.symm (hnone r' (mem_of_getElem? hj') hr')
  · rfl

variable (h : s.Guarded)
include h

lemma Guarded.bind {n : ℕ} (href : ref < n)
    (hn : s.allocated ≤ n) (hfill : ∀ k < n, k < s.allocated ∨ k = ref) (hne : job.id ≠ "")
    (hkeep : ref < s.allocated → job.id = (s.heap ref).id ∧ job.running = (s.heap ref).running)
    (hshare : ∀ r ∈ s.runs, r.live = true → s.idOf r = job.id → r.ref = ref) :
    Guarded
      { s with
        heap := update s.heap ref job
        allocated := n
        jobs := (s.jobs.filter fun p => p.1 ≠ job.id) ++ [(job.id, ref)] } := by
  have hold : ∀ k < s.allocated, (update s.heap ref job k).id = (s.heap k).id ∧
      (update s.heap ref job k).running = (s.heap k).running := by
    intro k hk
    by_cases hkr : k = ref
    · subst hkr
      simpa using hkeep hk
    · simp [hkr]
  have hmem : ∀ p ∈ (s.jobs.filter fun p => p.1 ≠ job.id) ++ [(job.id, ref)],
      (p ∈ s.jobs ∧ p.1 ≠ job.id) ∨ p = (job.id, ref) := by
    intro p hp
    simpa using hp
  refine ⟨?_, ?_, ?_, ?_, ?_, ?_, ?_⟩
  · intro p hp
    rcases hmem p hp with ⟨hp, -⟩ | rfl
    · obtain ⟨hlt, hid⟩ := h.entry p hp
      exact ⟨Nat.lt_of_lt_of_le hlt hn, (hold p.2 hlt).1.trans hid⟩
    · exact ⟨href, by simp⟩
  · intro p hp q hq heq
    rcases hmem p hp with ⟨hp, hpne⟩ | rfl <;> rcases hmem q hq with ⟨hq, hqne⟩ | rfl
    · exact h.unique p hp q hq heq
    · exact absurd heq.symm hpne
    · exact absurd heq hqne
    · rfl
  · intro k hk
    rcases hfill k hk with hlt | rfl
    · dsimp only
      rw [(hold k hlt).1]
      exact h.id_ne k hlt
    · simpa using hne
  · exact fun r hr => Nat.lt_of_lt_of_le (h.run_lt r hr) hn
  · intro r hr hlive
    exact (hold r.ref (h.run_lt r hr)).2.trans (h.running r hr hlive)
  · intro r hr hlive p hp hid
    have hidr : p.1 = s.idOf r := hid.trans (hold r.ref (h.run_lt r hr)).1
    rcases hmem p hp with ⟨hp, -⟩ | rfl
    · exact h.bound r hr hlive p hp hidr
    · exact (hshare r hr hlive hidr.symm).symm
  · exact h.exclusive.congr rfl fun r hr => (hold r.ref (h.run_lt r hr)).1

lemma Guarded.add (href : ref < s.allocated) (generated : String)
    (hshare : ∀ r ∈ s.runs, r.live = true → s.idOf r = (s.heap ref).id → r.ref = ref) :
    (s.add next now ref generated).Guarded := by
  have hid : ¬ (s.heap ref).id = "" := h.id_ne ref href
  unfold Scheduler.add
  simp only [hid, if_false]
  exact h.bind href (Nat.le_refl _) (fun k hk => .inl hk) hid (fun _ => ⟨rfl, rfl⟩) hshare

lemma Guarded.addNew {generated : String}
    (hne : (if job.id = "" then generated else job.id) ≠ "") (hshare : ∀ r ∈ s.runs, r.live = true →
      s.idOf r ≠ if job.id = "" then generated else job.id) :
    (s.addNew next now job generated).Guarded := by
  unfold Scheduler.addNew Scheduler.add
  simp only [update_self, update_idem]
  have hid : (if job.id = "" then { job with id := generated } else job).id =
      if job.id = "" then generated else job.id := by
    split_ifs <;> rfl
  refine h.bind (Nat.lt_succ_self _) (Nat.le_succ _) ?_ ?_
    (fun hlt => absurd hlt (Nat.lt_irrefl _)) ?_
  · intro k hk
    exact Nat.lt_succ_iff_lt_or_eq.mp hk
  · dsimp only
    rwa [hid]
  · intro r hr hlive heq
    exact absurd (heq.trans hid) (hshare r hr hlive)

lemma Guarded.remove (id : String) : (s.remove id).Guarded where
  entry := fun p hp => h.entry p (mem_of_mem_filter hp)
  unique := fun p hp q hq => h.unique p (mem_of_mem_filter hp) q (mem_of_mem_filter hq)
  id_ne := h.id_ne
  run_lt := h.run_lt
  running := h.running
  bound := fun r hr hlive p hp => h.bound r hr hlive p (mem_of_mem_filter hp)
  exclusive := h.exclusive

lemma Guarded.tickJob {p : String × ℕ} (hp : p ∈ s.jobs) :
    (Scheduler.tickJob now s p).Guarded := by
  unfold Scheduler.tickJob
  dsimp only
  split_ifs with hskip
  · exact h
  have hidle : (s.heap p.2).running = false := by
    simp only [Bool.or_eq_true, not_or, Bool.not_eq_true] at hskip
    exact hskip.1.2
  have hid : ∀ k, (update s.heap p.2 { s.heap p.2 with running := true } k).id =
      (s.heap k).id := id_update rfl
  have hnone : ∀ r ∈ s.runs, r.live = true → s.idOf r ≠ (s.heap p.2).id := by
    intro r hr hlive heq
    have href := h.bound r hr hlive p hp ((h.entry p hp).2.symm.trans heq.symm)
    have hrun := h.running r hr hlive
    rw [← href, hidle] at hrun
    cases hrun
  refine ⟨?_, h.unique, ?_, ?_, ?_, ?_, ?_⟩
  · intro q hq
    exact ⟨(h.entry q hq).1, (hid q.2).trans (h.entry q hq).2⟩
  · intro k hk
    exact fun heq => h.id_ne k hk ((hid k).symm.trans heq)
  · exact forall_mem_append.mpr ⟨h.run_lt, forall_mem_singleton.mpr (h.entry p hp).1⟩
  · refine forall_mem_append.mpr ⟨fun r hr hlive => ?_, forall_mem_singleton.mpr (by simp)⟩
    by_cases hk : r.ref = p.2
    · simp [hk]
    · simpa [hk] using h.running r hr hlive
  · intro r hr hlive q hq heq
    have heq : q.1 = s.idOf r := heq.trans (hid r.ref)
    rcases mem_append.mp hr with hr | hr
    · exact h.bound r hr hlive q hq heq
    · obtain rfl := mem_singleton.mp hr
      exact h.unique p hp q hq (heq.trans (h.entry p hp).2)
  · exact h.exclusive.snoc rfl (fun r => hid r.ref) hnone

lemma Guarded.tick (now : ℤ) : (s.tick now).Guarded := by
  have hloop : ∀ (l : List (String × ℕ)) (s' : Scheduler), s'.Guarded → l ⊆ s'.jobs →
      (l.foldl (Scheduler.tickJob now) s').Guarded := by
    intro l
    induction l with
    | nil => exact fun s' hs' _ => hs'
    | cons p l ih =>
      intro s' hs' hl
      have hjobs : (Scheduler.tickJob now s' p).jobs = s'.jobs := by
        unfold Scheduler.tickJob
        dsimp only
        split_ifs <;> rfl
      refine ih _ (hs'.tickJob (hl mem_cons_self)) ?_
      rw [hjobs]
      exact fun q hq => hl (mem_cons_of_mem _ hq)
  unfold Scheduler.tick
  split_ifs
  · exact h
  · exact hloop s.jobs s h fun p hp => hp

lemma Guarded.endJob {i : ℕ} (hend : s.endJob next now i = some s') : s'.Guarded := by
  unfold Scheduler.endJob at hend
  split at hend
  next ref hi =>
    cases hend
    have hid : ∀ k, (update s.heap ref
        { s.heap ref with
          running := false
          lastRun := now
          nextRun := next (s.heap ref).schedule now } k).id = (s.heap k).id := id_update rfl
    have hlive : ∀ j r, (s.runs.set i ⟨ref, false⟩)[j]? = some r →
        r.live = true → s.runs[j]? = some r ∧ j ≠ i := by
      intro j r hj hr
      by_cases hji : i = j
      · subst hji
        rw [getElem?_set_self (List.getElem?_eq_some_iff.mp hi).1] at hj
        cases hj
        cases hr
      · exact ⟨by rwa [getElem?_set_ne hji] at hj, Ne.symm hji⟩
    refine ⟨?_, h.unique, ?_, ?_, ?_, ?_, ?_⟩
    · intro p hp
      exact ⟨(h.entry p hp).1, (hid p.2).trans (h.entry p hp).2⟩
    · intro k hk heq
      exact h.id_ne k hk ((hid k).symm.trans heq)
    · have href : ref < s.allocated := h.run_lt ⟨ref, true⟩ (mem_of_getElem? hi)
      exact forall_set h.run_lt href
    · intro r hr hrlive
      obtain ⟨j, hj⟩ := mem_iff_getElem?.mp hr
      obtain ⟨hj, hji⟩ := hlive j r hj hrlive
      have hne : r.ref ≠ ref := fun heq =>
        hji (h.exclusive j i r ⟨ref, true⟩ hj hi hrlive rfl (by simp [idOf, heq]))
      simpa [hne] using h.running r (mem_of_getElem? hj) hrlive
    · intro r hr hrlive p hp heq
      obtain ⟨j, hj⟩ := mem_iff_getElem?.mp hr
      have hmem := mem_of_getElem? (hlive j r hj hrlive).1
      exact h.bound r hmem hrlive p hp (heq.trans (hid r.ref))
    · intro j k r r' hj hk hr hr' heq
      have heq : s.idOf r = s.idOf r' := (hid r.ref).symm.trans (heq.trans (hid r'.ref))
      exact h.exclusive j k r r' (hlive j r hj hr).1 (hlive k r' hk hr').1 hr hr' heq
  next => cases hend

end Scheduler

end DeployMonster.Core
