import DeployMonster.Core.Clock
import DeployMonster.Library.StepMachine

/-!
# The autoscale evaluator

`internal/autoscale/module.go`, for one application. Every tick persists its decision over the last
one, also when the decision is to wait for a cooldown to pass.

## Main results

* `changes_spaced_iff`: for which readings the changes are spaced under every load.
* `replicas_bounded`: the replicas stay within the configured bounds.
-/

namespace DeployMonster.Autoscale

open Clock StepMachine List

/-- `autoscaleConfig`, the delays in seconds. -/
structure AutoscaleConfig where
  (minReplicas maxReplicas cpuTarget ramTarget scaleUpDelay scaleDownDelay : ℤ)

/-- The action of a decision. -/
inductive Action
  | scaleUp | scaleDown | hold | cooldown | skip
  deriving DecidableEq

/-- The actions that change the replicas. -/
def Action.changes : Action → Bool
  | scaleUp | scaleDown => true
  | hold | cooldown | skip => false

/-- What an action adds to the replicas. -/
def Action.delta : Action → ℤ
  | scaleUp => 1
  | scaleDown => -1
  | hold | cooldown | skip => 0

/-- `decision`: what a later tick reads of it, and when the entry expires. -/
structure Decision where
  action : Action
  (evaluatedAt expiresAt : ℤ)

/-- A replica change, with the time of its decision and the time at which the cooldown was checked. -/
structure Change where
  action : Action
  (evaluatedAt checkedAt : ℤ)

/-- The replicas of the application, the persisted decision and the changes so far, newest first. -/
structure Autoscaler where
  replicas : ℤ
  decision : Option Decision
  changes : List Change

/-- The readings of the clock in a tick, in their order. -/
structure Readings where
  (evaluatedAt getAt checkedAt setAt : ℤ)

/-- What a tick meets: the CPU and memory percentages of the containers that answered, none also when
the runtime or the application cannot be asked, and the calls of the stores that fail. -/
structure Tick extends Readings where
  samples : List (ℚ × ℚ)
  (getFails updateFails setFails : Bool := false)

/-- How long a decision is kept, in seconds. -/
def decisionTTL : ℤ := 7 * 24 * 3600

/-- `time.Duration(n) * time.Second`, which wraps around. -/
def duration (n : ℤ) : ℤ := (n * second).bmod (2 ^ 64)

/-- `time.Since` at a time, which saturates. -/
def since (now t : ℤ) : ℤ := max (-2 ^ 63) (min (2 ^ 63 - 1) (now - t))

/-- `lastDecision`: an entry is not found from the second of its expiry on. -/
def Autoscaler.lastDecision (s : Autoscaler) (t : Tick) : Option Decision :=
  if t.getFails then none else s.decision.filter fun d => unix t.getAt < d.expiresAt

/-- The last decision was a change, and its window is open. -/
def cooling (cfg : AutoscaleConfig) (r : Readings) (last : Decision) : Bool :=
  match last.action with
  | .scaleUp => since r.checkedAt last.evaluatedAt < duration cfg.scaleUpDelay
  | .scaleDown => since r.checkedAt last.evaluatedAt < duration cfg.scaleDownDelay
  | .hold | .cooldown | .skip => false

def average (xs : List ℚ) : ℚ := xs.sum / xs.length

/-- The percentage below which the replicas may go down. -/
def release (target : ℤ) : ℚ := target * 7 / 10

/-- Scale up at the target, and down only below seven tenths of it. -/
def scaling (cfg : AutoscaleConfig) (replicas : ℤ) (cpu mem : ℚ) : Action :=
  if (cpu ≥ cfg.cpuTarget ∨ mem ≥ cfg.ramTarget) ∧ replicas < cfg.maxReplicas then .scaleUp
  else if cpu < release cfg.cpuTarget ∧ mem < release cfg.ramTarget ∧
      replicas > cfg.minReplicas then .scaleDown
  else .hold

/-- The action of `evaluate`, before the update. Without a sample the tick is skipped before the
cooldown is looked at. -/
def chooseAction (cfg : AutoscaleConfig) (s : Autoscaler) (t : Tick) : Action :=
  if t.samples.length = 0 then .skip
  else if (s.lastDecision t).any (cooling cfg t.toReadings) then .cooldown
  else scaling cfg s.replicas (average (t.samples.map Prod.fst)) (average (t.samples.map Prod.snd))

/-- The action that is persisted: a change whose update fails is skipped. -/
def outcome (cfg : AutoscaleConfig) (s : Autoscaler) (t : Tick) : Action :=
  let action := chooseAction cfg s t
  if action.changes ∧ t.updateFails then .skip else action

def evaluate (cfg : AutoscaleConfig) (s : Autoscaler) (t : Tick) : Option Autoscaler :=
  let action := outcome cfg s t
  some
    { replicas := s.replicas + action.delta
      decision := if t.setFails then s.decision
        else some ⟨action, t.evaluatedAt, unix t.setAt + decisionTTL⟩
      changes := if action.changes then ⟨action, t.evaluatedAt, t.checkedAt⟩ :: s.changes
        else s.changes }

/-! ## The spacing of changes -/

/-- How long no change should follow on an action. -/
def delay (cfg : AutoscaleConfig) : Action → ℤ
  | .scaleUp => cfg.scaleUpDelay * second
  | .scaleDown => cfg.scaleDownDelay * second
  | .hold | .cooldown | .skip => 0

/-- Each change comes no earlier than the delay of the change before it. -/
def Spaced (cfg : AutoscaleConfig) (s : Autoscaler) : Prop :=
  s.changes.IsChain fun new old => old.evaluatedAt + delay cfg old.action ≤ new.checkedAt
  deriving Decidable

/-- The delay of an action of the first tick is over at the second. -/
def Passed (cfg : AutoscaleConfig) (a : Action) (r r' : Readings) : Prop :=
  r.evaluatedAt + delay cfg a ≤ r'.checkedAt
  deriving Decidable

/-- A decision of the first tick is found by the second, and its window is open. -/
def Guarded (cfg : AutoscaleConfig) (a : Action) (r r' : Readings) : Prop :=
  unix r'.getAt < unix r.setAt + decisionTTL ∧ cooling cfg r' ⟨a, r.evaluatedAt, 0⟩ = true
  deriving Decidable

/-- Two ticks with another between them are apart by both delays, and so are two that follow on each
other, unless the second finds the window of the first open. -/
def Apart (cfg : AutoscaleConfig) : List Readings → Prop
  | [] => True
  | r :: rs =>
    (∀ a ∈ [Action.scaleUp, .scaleDown], (∀ r' ∈ rs.tail, Passed cfg a r r') ∧
      ∀ r' ∈ rs.head?, Passed cfg a r r' ∨ Guarded cfg a r r') ∧ Apart cfg rs

/-- No call of a store fails in the tick. -/
def Tick.Faultless (t : Tick) : Prop :=
  t.getFails = false ∧ t.updateFails = false ∧ t.setFails = false
  deriving Decidable

variable {cfg : AutoscaleConfig} {s s' : Autoscaler} {t : Tick}

lemma cooling_congr {r : Readings} {d d' : Decision} (haction : d.action = d'.action)
    (hat : d.evaluatedAt = d'.evaluatedAt) : cooling cfg r d = cooling cfg r d' := by
  simp only [cooling, haction, hat]

/-- A tick that changes the replicas has not found an open window. -/
lemma cooling_eq_false_of_changes (h : (outcome cfg s t).changes = true) :
    ∀ d ∈ s.lastDecision t, cooling cfg t.toReadings d = false := by
  intro d hd
  by_contra hcool
  have hany : (s.lastDecision t).any (cooling cfg t.toReadings) = true := by
    rw [hd]
    simpa using hcool
  unfold outcome chooseAction at h
  rw [hany] at h
  split_ifs at h <;> simp_all [Action.changes]

lemma mem_of_changes {a : Action} (h : a.changes = true) : a ∈ [Action.scaleUp, .scaleDown] := by
  cases a <;> simp_all [Action.changes]

/-- What the ticks to come may be for the newest change. -/
def Ready (cfg : AutoscaleConfig) (s : Autoscaler) (rs : List Readings) : Prop :=
  ∀ c ∈ s.changes.head?, (∀ r ∈ rs.tail, c.evaluatedAt + delay cfg c.action ≤ r.checkedAt) ∧
    ∀ r ∈ rs.head?, c.evaluatedAt + delay cfg c.action ≤ r.checkedAt ∨
      ∃ d ∈ s.decision, unix r.getAt < d.expiresAt ∧ cooling cfg r d = true

/-- A change that is made when the state is ready keeps the delay of the newest one. -/
lemma Ready.passed {rs : List Readings} (h : Ready cfg s (t.toReadings :: rs)) (ht : t.Faultless)
    (hchanges : (outcome cfg s t).changes = true) {c : Change} (hc : c ∈ s.changes.head?) :
    c.evaluatedAt + delay cfg c.action ≤ t.checkedAt := by
  rcases (h c hc).2 t.toReadings rfl with hpassed | ⟨d, hd, hexpiry, hcool⟩
  · exact hpassed
  · have hfound : d ∈ s.lastDecision t := by
      rw [Autoscaler.lastDecision, ht.1]
      exact Option.mem_filter_iff.mpr ⟨hd, decide_eq_true hexpiry⟩
    rw [cooling_eq_false_of_changes hchanges d hfound] at hcool
    cases hcool

lemma Ready.step {rs : List Readings} (h : Ready cfg s (t.toReadings :: rs)) (ht : t.Faultless)
    (hapart : Apart cfg (t.toReadings :: rs)) (hstep : evaluate cfg s t = some s') :
    Ready cfg s' rs := by
  cases hstep
  intro c hc
  dsimp only at hc ⊢
  split at hc
  case isTrue hchanges =>
    cases hc
    obtain ⟨hlater, hnext⟩ := hapart.1 _ (mem_of_changes hchanges)
    refine ⟨hlater, fun r hr => (hnext r hr).imp_right fun ⟨hexpiry, hcool⟩ => ?_⟩
    rw [ht.2.2]
    exact ⟨_, rfl, hexpiry, (cooling_congr rfl rfl).trans hcool⟩
  case isFalse =>
    have hold := (h c hc).1
    exact ⟨fun r hr => hold r (mem_of_mem_tail hr), fun r hr => .inl (hold r (mem_of_mem_head? hr))⟩

lemma spaced_of_ready {ticks : List Tick} (hapart : Apart cfg (ticks.map Tick.toReadings))
    (hfaultless : ∀ t ∈ ticks, t.Faultless) (hready : Ready cfg s (ticks.map Tick.toReadings))
    (hspaced : Spaced cfg s) (hrun : run (evaluate cfg) s ticks = some s') : Spaced cfg s' := by
  induction ticks generalizing s with
  | nil =>
    cases hrun
    exact hspaced
  | cons t ticks ih =>
    obtain ⟨ht, hticks⟩ := forall_mem_cons.mp hfaultless
    refine ih hapart.2 hticks (hready.step ht hapart rfl) ?_ hrun
    show IsChain _ (if (outcome cfg s t).changes then _ else s.changes)
    split
    case isTrue hchanges =>
      exact isChain_cons.mpr ⟨fun c hc => hready.passed ht hchanges hc, hspaced⟩
    case isFalse => exact hspaced

/-! ## The loads that bring changes -/

/-- A decision that opens no window. -/
def Quiet (s : Autoscaler) : Prop := ∀ d ∈ s.decision, d.action.changes = false

lemma Quiet.any_eq_false (h : Quiet s) (t : Tick) :
    (s.lastDecision t).any (cooling cfg t.toReadings) = false := by
  rw [Bool.eq_false_iff, ne_eq, Option.any_eq_true_iff_get]
  rintro ⟨hsome, hcool⟩
  obtain ⟨d, hd⟩ := Option.isSome_iff_exists.mp hsome
  have hmem : d ∈ s.decision := by
    unfold Autoscaler.lastDecision at hd
    split at hd
    · cases hd
    · exact (Option.mem_filter_iff.mp hd).1
  have hquiet := h d hmem
  simp only [hd, Option.get_some] at hcool
  cases haction : d.action <;> simp_all [cooling, Action.changes]

/-- Samples that call for an action. -/
def loadFor (cfg : AutoscaleConfig) : Action → List (ℚ × ℚ)
  | .scaleUp => [((cfg.cpuTarget : ℚ), 0)]
  | _ => [(0, 0)]

/-- The replicas leave room for an action. -/
def Room (cfg : AutoscaleConfig) (replicas : ℤ) : Action → Prop
  | .scaleUp => replicas < cfg.maxReplicas
  | _ => cfg.minReplicas < replicas

lemma release_pos {target : ℤ} (h : 0 < target) : 0 < release target := by
  have h' : (0 : ℚ) < target := by exact_mod_cast h
  unfold release
  positivity

/-- A tick with samples that call for the action. -/
def loadTick (cfg : AutoscaleConfig) (a : Action) (r : Readings) : Tick :=
  { r with samples := loadFor cfg a }

lemma evaluate_loadTick {a : Action} (ha : a ∈ [Action.scaleUp, .scaleDown])
    (hcpu : 0 < cfg.cpuTarget) (hram : 0 < cfg.ramTarget) {r : Readings}
    (hopen : (s.lastDecision (loadTick cfg a r)).any (cooling cfg (loadTick cfg a r).toReadings) = false)
    (hroom : Room cfg s.replicas a) :
    evaluate cfg s (loadTick cfg a r) = some ⟨s.replicas + a.delta,
      some ⟨a, r.evaluatedAt, unix r.setAt + decisionTTL⟩,
      ⟨a, r.evaluatedAt, r.checkedAt⟩ :: s.changes⟩ := by
  have hchoose : chooseAction cfg s (loadTick cfg a r) = a := by
    have hlow := release_pos hcpu
    have hlow' := release_pos hram
    rw [chooseAction, hopen]
    rcases mem_pair.mp ha with rfl | rfl
    · have hmax : s.replicas < cfg.maxReplicas := hroom
      simp [loadTick, loadFor, average, scaling, hmax]
    · have hmin : cfg.minReplicas < s.replicas := hroom
      simp [loadTick, loadFor, average, scaling, hmin, hlow, hlow', not_le.mpr hcpu, not_le.mpr hram]
  have hchanges : a.changes = true := by
    rcases mem_pair.mp ha with rfl | rfl <;> rfl
  have houtcome : outcome cfg s (loadTick cfg a r) = a := by
    rw [outcome, hchoose]
    simp [loadTick]
  simp only [evaluate, houtcome, hchanges, if_true]
  rfl

/-- A tick without samples. -/
def skipTick (r : Readings) : Tick := { r with samples := [] }

lemma run_skips (s : Autoscaler) (rs : List Readings) :
    ∃ s', run (evaluate cfg) s (rs.map skipTick) = some s' ∧ s'.replicas = s.replicas ∧
      s'.changes = s.changes ∧ (rs = [] ∧ s' = s ∨ Quiet s') := by
  induction rs generalizing s with
  | nil => exact ⟨s, rfl, rfl, rfl, .inl ⟨rfl, rfl⟩⟩
  | cons r rs ih =>
    obtain ⟨s', hrun, hreplicas, hchanges, hquiet⟩ :=
      ih ⟨s.replicas, some ⟨.skip, r.evaluatedAt, unix r.setAt + decisionTTL⟩, s.changes⟩
    have hskip : evaluate cfg s (skipTick r) =
        some ⟨s.replicas, some ⟨.skip, r.evaluatedAt, unix r.setAt + decisionTTL⟩, s.changes⟩ := by
      simp [evaluate, outcome, chooseAction, skipTick, Action.changes, Action.delta]
    refine ⟨s', by rw [map_cons, run_cons, hskip]; exact hrun, hreplicas, hchanges, .inr ?_⟩
    rcases hquiet with ⟨-, rfl⟩ | hquiet
    · rintro _ ⟨⟩
      rfl
    · exact hquiet

/-- Two changes with the delay between them not over, when the second tick is no neighbour of the
first, or its window is not found open. -/
lemma exists_not_spaced {a : Action} (ha : a ∈ [Action.scaleUp, .scaleDown]) (hcpu : 0 < cfg.cpuTarget)
    (hram : 0 < cfg.ramTarget) {d : Option Decision} (hd : Quiet ⟨0, d, []⟩) {r r' : Readings}
    (between rest : List Readings) (hearly : ¬Passed cfg a r r')
    (hopen : between = [] → ¬Guarded cfg a r r') :
    ∃ replicas ticks s', ticks.map Tick.toReadings = r :: (between ++ r' :: rest) ∧
      (∀ t ∈ ticks, t.Faultless) ∧ run (evaluate cfg) ⟨replicas, d, []⟩ ticks = some s' ∧
      ¬Spaced cfg s' := by
  obtain ⟨replicas, hroom, hroom'⟩ : ∃ n, Room cfg n a ∧ Room cfg (n + a.delta) a := by
    rcases mem_pair.mp ha with rfl | rfl
    · exact ⟨cfg.maxReplicas - 2, by simp [Room], by simp only [Room, Action.delta]; omega⟩
    · exact ⟨cfg.minReplicas + 2, by simp [Room], by simp only [Room, Action.delta]; omega⟩
  let load := loadTick cfg a
  have hfirst := @evaluate_loadTick cfg ⟨replicas, d, []⟩ a ha hcpu hram r
    (Quiet.any_eq_false hd (load r)) hroom
  obtain ⟨s2, hrun2, hreplicas2, hchanges2, hquiet2⟩ := @run_skips cfg
    ⟨replicas + a.delta, some ⟨a, r.evaluatedAt, unix r.setAt + decisionTTL⟩,
      [⟨a, r.evaluatedAt, r.checkedAt⟩]⟩ between
  have hquiet : (s2.lastDecision (load r')).any (cooling cfg r') = false := by
    rcases hquiet2 with ⟨hbetween, rfl⟩ | hquiet2
    · have hguard := hopen hbetween
      have hcongr : cooling cfg r' ⟨a, r.evaluatedAt, unix r.setAt + decisionTTL⟩ =
          cooling cfg r' ⟨a, r.evaluatedAt, 0⟩ := cooling_congr rfl rfl
      simp only [Guarded, not_and, Bool.not_eq_true] at hguard
      by_cases hexpiry : unix r'.getAt < unix r.setAt + decisionTTL
      · simp [Autoscaler.lastDecision, load, loadTick, Option.filter, hexpiry, hcongr, hguard hexpiry]
      · simp [Autoscaler.lastDecision, load, loadTick, Option.filter, hexpiry]
    · exact hquiet2.any_eq_false (load r')
  have hsecond := evaluate_loadTick ha hcpu hram hquiet (by rw [hreplicas2]; exact hroom')
  obtain ⟨s4, hrun4, -, hchanges4, -⟩ := @run_skips cfg
    ⟨s2.replicas + a.delta, some ⟨a, r'.evaluatedAt, unix r'.setAt + decisionTTL⟩,
      ⟨a, r'.evaluatedAt, r'.checkedAt⟩ :: s2.changes⟩ rest
  refine ⟨replicas, load r :: (between.map skipTick ++ load r' :: rest.map skipTick), s4, ?_, ?_, ?_, ?_⟩
  · simp [load, loadTick, skipTick, Function.comp_def]
  · simp only [mem_cons, mem_append, mem_map]
    rintro t (rfl | ⟨m, -, rfl⟩ | rfl | ⟨m, -, rfl⟩) <;> exact ⟨rfl, rfl, rfl⟩
  · rw [run_cons, hfirst]
    show run _ _ (between.map skipTick ++ _) = _
    rw [run_append, hrun2, Option.bind_some, run_cons, hsecond]
    exact hrun4
  · have hboth : s4.changes =
        [⟨a, r'.evaluatedAt, r'.checkedAt⟩, ⟨a, r.evaluatedAt, r.checkedAt⟩] := by
      rw [hchanges4, hchanges2]
    rw [Spaced, hboth, isChain_cons_cons]
    exact fun hspaced => hearly hspaced.1

lemma apart_of_spaced (hcpu : 0 < cfg.cpuTarget) (hram : 0 < cfg.ramTarget) (rs : List Readings)
    (d : Option Decision) (hd : Quiet ⟨0, d, []⟩)
    (h : ∀ replicas ticks s', ticks.map Tick.toReadings = rs → (∀ t ∈ ticks, t.Faultless) →
      run (evaluate cfg) ⟨replicas, d, []⟩ ticks = some s' → Spaced cfg s') : Apart cfg rs := by
  induction rs generalizing d with
  | nil => trivial
  | cons r rs ih =>
    refine ⟨fun a ha => ⟨fun r' hr' => ?_, fun r' hr' => ?_⟩, ?_⟩
    · obtain ⟨m, rest, rfl⟩ : ∃ m rest, rs = m :: rest := by
        cases rs with
        | nil => cases hr'
        | cons m rest => exact ⟨m, rest, rfl⟩
      obtain ⟨between, behind, hsplit⟩ := append_of_mem hr'
      by_contra hearly
      obtain ⟨replicas, ticks, s', hticks, hok, hrun, hnot⟩ := exists_not_spaced ha hcpu hram hd
        (m :: between) behind hearly (fun hnil => by cases hnil)
      refine hnot (h replicas ticks s' ?_ hok hrun)
      rw [hticks, cons_append, ← hsplit]
      rfl
    · obtain ⟨rest, rfl⟩ := head?_eq_some_iff.mp hr'
      by_contra hneither
      obtain ⟨hearly, hguard⟩ := not_or.mp hneither
      obtain ⟨replicas, ticks, s', hticks, hok, hrun, hnot⟩ := exists_not_spaced ha hcpu hram hd
        [] rest hearly (fun _ => hguard)
      exact hnot (h replicas ticks s' hticks hok hrun)
    · refine ih (some ⟨.skip, r.evaluatedAt, unix r.setAt + decisionTTL⟩) (by rintro _ ⟨⟩; rfl) ?_
      intro replicas ticks s' hticks hok hrun
      refine h replicas (skipTick r :: ticks) s' (by rw [map_cons, hticks]; rfl)
        (forall_mem_cons.mpr ⟨⟨rfl, rfl, rfl⟩, hok⟩) ?_
      rw [run_cons, ← hrun]
      simp [evaluate, outcome, chooseAction, skipTick, Action.changes, Action.delta]

/-- **The spacing of replica changes.** Under every load, the change after a scale-up or a scale-down
comes no earlier than its configured delay exactly when the ticks are apart: the window of a change is
respected by the one tick after it only, which finds its decision, and as a number of 64 bits. -/
theorem changes_spaced_iff (cfg : AutoscaleConfig) (readings : List Readings)
    (hcpu : 0 < cfg.cpuTarget) (hram : 0 < cfg.ramTarget) :
    (∀ replicas decision ticks s, ticks.map Tick.toReadings = readings → (∀ t ∈ ticks, t.Faultless) →
      run (evaluate cfg) ⟨replicas, decision, []⟩ ticks = some s → Spaced cfg s) ↔
      Apart cfg readings := by
  constructor
  · intro h
    exact apart_of_spaced hcpu hram readings none (by rintro _ ⟨⟩) fun replicas => h replicas none
  · rintro hapart replicas decision ticks s rfl hok hrun
    refine spaced_of_ready hapart hok ?_ ?_ hrun
    · rintro _ ⟨⟩
    · exact List.IsChain.nil

def webConfig : AutoscaleConfig := ⟨1, 10, 80, 80, 120, 300⟩

/-- The readings of a tick that takes no time. -/
def instant (t : ℤ) : Readings := ⟨t * second, t * second, t * second, t * second⟩

def loaded (t : ℤ) : Tick := { instant t with samples := [(95, 40)] }

/-- The tick at 30 s waits, and the next one comes after both delays. -/
theorem changes_spaced_iff_fiveMinutes :
    ∃ s, run (evaluate webConfig) ⟨1, none, []⟩ [loaded 0, loaded 30, loaded 330] =
      some s ∧ s.replicas = 3 ∧ Spaced webConfig s :=
  exists_of_run_and (by decide +kernel) fun s hrun _ =>
    (changes_spaced_iff webConfig [instant 0, instant 30, instant 330] (by decide)
      (by decide)).mpr ⟨by decide +kernel, by decide +kernel, by decide +kernel, trivial⟩ 1 none _ s rfl
      (by decide) hrun

/-- A tick within the delay of two minutes persists that it waits, and the next one scales up
again. -/
theorem second_tick_scales :
    ∃ s, run (evaluate webConfig) ⟨1, none, []⟩ [loaded 0, loaded 30, loaded 60] =
      some s ∧ s.replicas = 3 ∧ ¬ Spaced webConfig s :=
  by decide +kernel

/-! ## The bounds of the replicas -/

/-- A change leads to a number of replicas within the bounds. -/
lemma room_of_outcome (cfg : AutoscaleConfig) (s : Autoscaler) (t : Tick) :
    (outcome cfg s t = .scaleUp → s.replicas < cfg.maxReplicas) ∧
      (outcome cfg s t = .scaleDown → cfg.minReplicas < s.replicas) := by
  unfold outcome chooseAction scaling
  dsimp only
  constructor
  · intro h
    split_ifs at h
    all_goals simp_all
  · intro h
    split_ifs at h
    all_goals simp_all

lemma bounded_step (cfg : AutoscaleConfig) (s : Autoscaler) (t : Tick) :
    ∃ s', evaluate cfg s t = some s' ∧ min s.replicas cfg.minReplicas ≤ s'.replicas ∧
      s'.replicas ≤ max s.replicas cfg.maxReplicas := by
  refine ⟨_, rfl, ?_⟩
  obtain ⟨hup, hdown⟩ := room_of_outcome cfg s t
  dsimp only
  cases haction : outcome cfg s t with
  | scaleUp =>
    have := hup haction
    simp only [Action.delta]
    omega
  | scaleDown =>
    have := hdown haction
    simp only [Action.delta]
    omega
  | hold | cooldown | skip =>
    simp only [Action.delta]
    omega

/-- **The replicas stay within the configured bounds**, whatever the load, the clock and the calls that
fail, and from outside of them no tick leads further away. -/
theorem replicas_bounded (cfg : AutoscaleConfig) (ticks : List Tick) (s : Autoscaler) :
    ∃ s', run (evaluate cfg) s ticks = some s' ∧ min s.replicas cfg.minReplicas ≤ s'.replicas ∧
      s'.replicas ≤ max s.replicas cfg.maxReplicas := by
  induction ticks generalizing s with
  | nil => exact ⟨s, rfl, min_le_left .., le_max_left ..⟩
  | cons t ticks ih =>
    obtain ⟨s1, hstep, hs1⟩ := bounded_step cfg s t
    obtain ⟨s', hrun, hs'⟩ := ih s1
    exact ⟨s', by rw [run_cons, hstep]; exact hrun, by omega⟩

end DeployMonster.Autoscale
