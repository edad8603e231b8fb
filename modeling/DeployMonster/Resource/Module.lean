import DeployMonster.Library.LastWrite

/-!
# Metrics rings

`batchStoreMetrics` of `internal/resource/module.go`. A cycle reads each ring before the one batch
that writes them all, so an application with two containers keeps one of their points.
-/

namespace DeployMonster.Resource

open LastWrite List Function

def maxRingPoints : ℕ := 288

variable {P : Type}

/-- The bucket `metrics_ring`, whose entries do not expire; a ring that is not found is empty. -/
abbrev Rings (P : Type) := String → List P

/-- What a cycle collects: the point of the server with its id, and those of the containers with the
ids of their applications. -/
structure Cycle (P : Type) where
  server : Option (String × P)
  containers : List (String × P)

def serverKey (serverID : String) : String := "server:" ++ serverID ++ ":24h"

def appKey (appID : String) : String := appID ++ ":24h"

def appendPoint (kv : Rings P) (key : String) (point : P) : List P :=
  let points := kv key ++ [point]
  if points.length > maxRingPoints then points.drop (points.length - maxRingPoints) else points

/-- The points under the keys of their rings, in the order of the batch. -/
def Cycle.keyed (c : Cycle P) : List (String × P) :=
  c.server.toList.map (Prod.map serverKey id) ++
    (c.containers.filter (·.1 ≠ "")).map (Prod.map appKey id)

def batchSet (kv : Rings P) (items : List (String × List P)) : Rings P :=
  items.foldl (fun kv (key, ring) => update kv key ring) kv

def batchStoreMetrics (kv : Rings P) (c : Cycle P) : Rings P :=
  batchSet kv (c.keyed.map fun (key, point) => (key, appendPoint kv key point))

/-- The points of the containers of an application. -/
def Cycle.pointsOf (appID : String) (c : Cycle P) : List P :=
  (c.containers.filter (·.1 = appID)).map Prod.snd

variable (kv : Rings P)

lemma appendPoint_eq (key : String) (point : P) :
    appendPoint kv key point = (kv key ++ [point]).rtake maxRingPoints := by
  unfold appendPoint rtake
  dsimp only
  split_ifs with h
  · rfl
  · rw [Nat.sub_eq_zero_of_le (Nat.le_of_not_gt h), drop_zero]

lemma rtake_rtake_append (n : ℕ) (l m : List P) : (l.rtake n ++ m).rtake n = (l ++ m).rtake n := by
  simp only [rtake_eq_reverse_take_reverse, reverse_append, reverse_reverse,
    take_append, take_take, length_reverse]
  rw [Nat.min_eq_left (Nat.sub_le _ _)]

lemma batchSet_apply (items : List (String × List P)) (key : String) :
    batchSet kv items key =
      (lastWrite (fun item => if item.1 = key then some item.2 else none) items).getD (kv key) :=
  @foldl_eq_lastWrite _ _ _ _ (fun kv => kv key) _ (fun _ => True) (fun _ _ _ => trivial)
    (fun kv item _ => by
      by_cases h : item.1 = key
      · simp [h]
      · simp [h, update_of_ne (Ne.symm h)]) items kv trivial

variable {appID : String} {c : Cycle P}

lemma keyed_of_app (hne : appID ≠ "") (hserver : ∀ s ∈ c.server, "server:" ++ s.1 ≠ appID) :
    (c.keyed.filter (·.1 = appKey appID)).map Prod.snd = c.pointsOf appID := by
  have hkey (s : String) : appKey s = appKey appID ↔ s = appID := String.append_left_inj ..
  have hnot : c.server.toList.filter (fun s => serverKey s.1 = appKey appID) = [] :=
    filter_eq_nil_iff.mpr fun s hs heq =>
      hserver s (Option.mem_toList.mp hs) ((hkey _).mp (of_decide_eq_true heq))
  have happ (s : String × P) : (decide (s.1 = appID) && decide (s.1 ≠ "")) = decide (s.1 = appID) := by
    by_cases h : s.1 = appID <;> simp [h, hne]
  rw [Cycle.keyed, filter_append, filter_map, filter_map]
  simp only [comp_def, Prod.map_fst, hkey, hnot, filter_filter, happ, map_nil,
    nil_append, map_map, Prod.map_snd, id_eq]
  rfl

/-- **The ring after a cycle** with at most one container of the application. -/
theorem batchStoreMetrics_appKey (hne : appID ≠ "")
    (hserver : ∀ s ∈ c.server, "server:" ++ s.1 ≠ appID) (hone : (c.pointsOf appID).length ≤ 1)
    (hlen : (kv (appKey appID)).rtake maxRingPoints = kv (appKey appID)) :
    batchStoreMetrics kv c (appKey appID) =
      (kv (appKey appID) ++ c.pointsOf appID).rtake maxRingPoints := by
  have hlist : (c.keyed.map fun item => (item.1, appendPoint kv item.1 item.2)).filterMap
      (fun item => if item.1 = appKey appID then some item.2 else none) =
        (c.pointsOf appID).map (appendPoint kv (appKey appID)) := by
    rw [← keyed_of_app hne hserver]
    induction c.keyed with
    | nil => rfl
    | cons item items ih => by_cases h : item.1 = appKey appID <;> simp_all
  rw [batchStoreMetrics, batchSet_apply, lastWrite, hlist]
  cases hpoints : c.pointsOf appID with
  | nil =>
    rw [append_nil, hlen]
    rfl
  | cons point points =>
    rw [hpoints, length_cons] at hone
    obtain rfl := eq_nil_of_length_eq_zero (Nat.le_zero.mp (Nat.le_of_succ_le_succ hone))
    exact appendPoint_eq kv _ point

/-- **The ring of an application is the window over all its points**, when no cycle meets two of its
containers. -/
theorem ring_eq_collected (cycles : List (Cycle P)) (appID : String) (hne : appID ≠ "")
    (hserver : ∀ c ∈ cycles, ∀ s ∈ c.server, "server:" ++ s.1 ≠ appID)
    (hone : ∀ c ∈ cycles, (c.pointsOf appID).length ≤ 1) :
    cycles.foldl batchStoreMetrics (fun _ => []) (appKey appID) =
      (cycles.flatMap (·.pointsOf appID)).rtake maxRingPoints := by
  induction cycles using reverseRecOn with
  | nil => exact (rtake_nil _).symm
  | append_singleton cycles c ih =>
    have ih := ih (fun c hc => hserver c (mem_append_left _ hc))
      fun c hc => hone c (mem_append_left _ hc)
    have hlast : c ∈ cycles ++ [c] := mem_append_right _ mem_cons_self
    rw [foldl_append, foldl_cons, foldl_nil, batchStoreMetrics_appKey _ hne
      (hserver c hlast) (hone c hlast), ih, flatMap_append, rtake_rtake_append]
    · simp
    · have h := rtake_rtake_append maxRingPoints (cycles.flatMap (·.pointsOf appID)) []
      rwa [append_nil, append_nil, ← ih] at h

theorem ring_eq_collected_twice :
    [⟨none, [("web", 1)]⟩, ⟨some ("s1", 7), [("db", 5), ("web", 2)]⟩].foldl batchStoreMetrics
      (fun _ => []) (appKey "web") = [1, 2] :=
  (ring_eq_collected _ _
    (by decide) (by decide +kernel) (by decide +kernel)).trans (by decide +kernel)

/-- Two containers of the application in one cycle: the first point is lost. -/
theorem ring_loses_point :
    [⟨none, [("web", 1), ("web", 2)]⟩].foldl batchStoreMetrics (fun _ => []) (appKey "web") = [2] ∧
      (Cycle.mk none [("web", 1), ("web", 2)]).pointsOf "web" = [1, 2] := by
  decide +kernel

/-- The points of a cycle that go into the ring of a key. -/
def Cycle.pointsAt (key : String) (c : Cycle P) : List P :=
  (c.keyed.filter (·.1 = key)).map Prod.snd

/-- A cycle as it goes: the keys of the rings that cannot be read, which count as empty, and whether
the batch fails. -/
structure Attempt (P : Type) extends Cycle P where
  unread : List String
  batchFails : Bool

def Attempt.store (kv : Rings P) (a : Attempt P) : Rings P :=
  if a.batchFails then kv
  else batchSet kv (a.keyed.map fun (key, point) =>
    (key, appendPoint (fun key => if key ∈ a.unread then [] else kv key) key point))

lemma Attempt.store_of_succeeds {a : Attempt P} (hread : a.unread = []) (hset : a.batchFails = false) :
    a.store kv = batchStoreMetrics kv a.toCycle := by
  simp [store, batchStoreMetrics, hread, hset]

/-- **A ring holds points that were collected for it**, none twice and in their order, and no more
than its length: also when a cycle meets several containers of an application, and when calls of the
store fail. -/
theorem ring_sublist (attempts : List (Attempt P)) (key : String) :
    attempts.foldl Attempt.store (fun _ => []) key <+ attempts.flatMap (·.pointsAt key) ∧
      (attempts.foldl Attempt.store (fun _ => []) key).length ≤ maxRingPoints := by
  induction attempts using reverseRecOn with
  | nil => exact ⟨nil_sublist _, Nat.zero_le _⟩
  | append_singleton attempts a ih =>
    rw [foldl_append, foldl_cons, foldl_nil, flatMap_append, flatMap_singleton]
    generalize attempts.foldl Attempt.store (fun _ => []) = kv at ih ⊢
    unfold Attempt.store
    split_ifs
    · exact ⟨ih.1.trans (sublist_append_left ..), ih.2⟩
    set read : Rings P := fun key => if key ∈ a.unread then [] else kv key with hread
    rw [batchSet_apply]
    cases hlast : lastWrite (fun item => if item.1 = key then some item.2 else none)
      (a.keyed.map fun item => (item.1, appendPoint read item.1 item.2)) with
    | none => exact ⟨ih.1.trans (sublist_append_left ..), ih.2⟩
    | some ring =>
      obtain ⟨_, hmem, hring⟩ := exists_of_lastWrite hlast
      obtain ⟨item, hitem, rfl⟩ := mem_map.mp hmem
      obtain ⟨hkey, heq⟩ := Option.ite_none_right_eq_some.mp hring
      obtain rfl : item.1 = key := hkey
      obtain rfl : appendPoint read item.1 item.2 = ring := Option.some.inj heq
      have hpoint : item.2 ∈ a.pointsAt item.1 := mem_map_of_mem (mem_filter.mpr ⟨hitem, by simp⟩)
      have hold : read item.1 <+ kv item.1 := by
        rw [hread]
        dsimp only
        split_ifs
        exacts [nil_sublist _, .refl _]
      rw [Option.getD_some, appendPoint_eq, rtake, length_drop]
      exact ⟨(drop_sublist ..).trans ((hold.trans ih.1).append (singleton_sublist.mpr hpoint)),
        by omega⟩

/-!
# Alerts

`Evaluate` of `internal/resource/alerts.go`. The state of an alert is found by the name of its rule,
and the duration of a rule is never read. Whether the condition of a rule holds is arbitrary.
-/

/-- `AlertRule`: the metric whose threshold is checked, and how long the condition must hold. -/
structure AlertRule where
  (name metric operator : String)
  threshold : ℚ
  duration : ℤ
  deriving DecidableEq

/-- An evaluation: its time, and the rules whose conditions hold. -/
structure Evaluation where
  now : ℤ
  holds : AlertRule → Bool

/-- An alert is triggered, or resolved. -/
structure Notification where
  rule : AlertRule
  triggered : Bool
  time : ℤ
  deriving DecidableEq

/-- The flag `Firing` of the states, by names, and the calls of `PublishAsync` in their order. The bus
may deliver them in another one. -/
structure AlertEngine where
  firing : String → Bool := fun _ => false
  published : List Notification := []

namespace AlertEngine

def notify (ae : AlertEngine) (n : Notification) : AlertEngine where
  firing := update ae.firing n.rule.name n.triggered
  published := ae.published ++ [n]

/-- The body of the loop. -/
def evaluateRule (e : Evaluation) (ae : AlertEngine) (rule : AlertRule) : AlertEngine :=
  let triggered := e.holds rule
  if triggered && !ae.firing rule.name then ae.notify ⟨rule, true, e.now⟩
  else if !triggered && ae.firing rule.name then ae.notify ⟨rule, false, e.now⟩
  else ae

def evaluate (rules : List AlertRule) (ae : AlertEngine) (e : Evaluation) : AlertEngine :=
  rules.foldl (evaluateRule e) ae

def sentFor (rule : AlertRule) (ae : AlertEngine) : List Notification :=
  ae.published.filter (·.rule = rule)

variable {rules : List AlertRule} {rule : AlertRule} {e : Evaluation}

lemma evaluateRule_eq (ae : AlertEngine) (rule : AlertRule) : evaluateRule e ae rule =
    if e.holds rule = ae.firing rule.name then ae else ae.notify ⟨rule, e.holds rule, e.now⟩ := by
  unfold evaluateRule
  cases hholds : e.holds rule <;> cases hfiring : ae.firing rule.name <;> simp

lemma foldl_evaluateRule_of_ne {others : List AlertRule} (hothers : ∀ r ∈ others, r.name ≠ rule.name)
    (ae : AlertEngine) : (others.foldl (evaluateRule e) ae).firing rule.name = ae.firing rule.name ∧
      (others.foldl (evaluateRule e) ae).sentFor rule = ae.sentFor rule := by
  induction others generalizing ae with
  | nil => exact ⟨rfl, rfl⟩
  | cons r others ih =>
    obtain ⟨hr, hothers⟩ := forall_mem_cons.mp hothers
    rw [foldl_cons, (ih hothers _).1, (ih hothers _).2, evaluateRule_eq]
    split_ifs
    · exact ⟨rfl, rfl⟩
    · have hne : r ≠ rule := fun heq => hr (heq ▸ rfl)
      exact ⟨update_of_ne hr.symm .., by simp [sentFor, notify, hne]⟩

/-- **One evaluation** notifies for a rule with a name of its own when its condition has changed. -/
theorem evaluate_spec (hnodup : (rules.map AlertRule.name).Nodup) (hrule : rule ∈ rules)
    (ae : AlertEngine) : (evaluate rules ae e).firing rule.name = e.holds rule ∧
      (evaluate rules ae e).sentFor rule = ae.sentFor rule ++
        if e.holds rule = ae.firing rule.name then [] else [⟨rule, e.holds rule, e.now⟩] := by
  obtain ⟨pre, post, rfl⟩ := append_of_mem hrule
  rw [map_append, map_cons, nodup_middle, nodup_cons, ← map_append]
    at hnodup
  have hne : ∀ r ∈ pre ++ post, r.name ≠ rule.name := fun r hr heq =>
    hnodup.1 (heq ▸ mem_map_of_mem hr)
  obtain ⟨hfiring, hsent⟩ := foldl_evaluateRule_of_ne (e := e)
    (fun r hr => hne r (mem_append_left _ hr)) ae
  have hpost := foldl_evaluateRule_of_ne (e := e) fun r hr => hne r (mem_append_right _ hr)
  rw [evaluate, foldl_append, foldl_cons, (hpost _).1, (hpost _).2, evaluateRule_eq, hfiring]
  split_ifs with h
  · exact ⟨by rw [hfiring, h], by rw [hsent, append_nil]⟩
  · exact ⟨update_self .., by rw [← hsent]; simp [sentFor, notify]⟩

end AlertEngine

open AlertEngine

/-- The condition held at every evaluation of a span of at least the duration that ends at the time. -/
def HeldFor (es : List Evaluation) (rule : AlertRule) (time : ℤ) : Prop :=
  ∃ pre first span last post, es = pre ++ span ++ post ∧ span.head? = some first ∧
    span.getLast? = some last ∧ last.now = time ∧ first.now + rule.duration ≤ time ∧
    ∀ x ∈ span, x.holds rule = true

/-- Triggered and resolved in turn, triggered first. -/
def Alternate (ns : List Notification) : Prop :=
  ns.map (·.triggered) = (range ns.length).map fun k => decide (k % 2 = 0)

lemma Alternate.snoc {ns : List Notification} (h : Alternate ns) {n : Notification}
    (hn : n.triggered = decide (ns.length % 2 = 0)) : Alternate (ns ++ [n]) := by
  unfold Alternate at h ⊢
  rw [length_append, length_singleton, range_succ, map_append, map_append, h,
    map_singleton, map_singleton, hn]

/-- **The notifications for a rule**, along every sequence of evaluations, when the names are distinct
and the rule asks for no duration. -/
theorem alerts_alternate (rules : List AlertRule) (hnodup : (rules.map AlertRule.name).Nodup)
    (es : List Evaluation) (rule : AlertRule) (hrule : rule ∈ rules) (hduration : rule.duration ≤ 0) :
    Alternate ((es.foldl (evaluate rules) {}).sentFor rule) ∧
      ∀ n ∈ (es.foldl (evaluate rules) {}).sentFor rule, n.triggered = true →
        HeldFor es rule n.time := by
  suffices h : (es.foldl (evaluate rules) {}).firing rule.name =
      decide (((es.foldl (evaluate rules) {}).sentFor rule).length % 2 = 1) ∧ _ from h.2
  induction es using reverseRecOn with
  | nil => exact ⟨rfl, rfl, nofun⟩
  | append_singleton es e ih =>
    obtain ⟨hfiring, halternate, hheld⟩ := ih
    obtain ⟨hstep, hsent⟩ := evaluate_spec (e := e) hnodup hrule (es.foldl (evaluate rules) {})
    rw [foldl_append, foldl_cons, foldl_nil, hsent, hstep]
    have hold : ∀ n ∈ (es.foldl (evaluate rules) {}).sentFor rule, n.triggered = true →
        HeldFor (es ++ [e]) rule n.time := by
      intro n hn htriggered
      obtain ⟨pre, first, span, last, post, rfl, hspan⟩ := hheld n hn htriggered
      exact ⟨pre, first, span, last, post ++ [e], by simp, hspan⟩
    split_ifs with h
    · rw [append_nil]
      exact ⟨h.trans hfiring, halternate, hold⟩
    have heven : e.holds rule =
        decide (((es.foldl (evaluate rules) {}).sentFor rule).length % 2 = 0) := by
      rw [hfiring] at h
      rw [Bool.eq_not_of_ne h, ← decide_not]
      exact decide_eq_decide.mpr (by omega)
    refine ⟨?_, halternate.snoc heven, forall_mem_append.mpr ⟨hold, ?_⟩⟩
    · rw [heven, length_append, length_singleton]
      exact decide_eq_decide.mpr (by omega)
    rw [forall_mem_singleton]
    intro htriggered
    refine ⟨es, e, [e], e, [], by simp, rfl, rfl, rfl, ?_, forall_mem_singleton.mpr htriggered⟩
    dsimp only
    omega

/-- Evaluations a minute apart, in which the conditions on these metrics hold. -/
def minutes (held : List (List String)) : List Evaluation :=
  held.zipIdx.map fun (metrics, k) => ⟨k * 60000000000, fun rule => rule.metric ∈ metrics⟩

/-- A rule named `load`. -/
def load (metric : String) (duration : ℤ) : AlertRule := ⟨"load", metric, ">", 80, duration⟩

theorem alerts_alternate_resolved :
    Alternate (((minutes [["cpu"], [], ["cpu"]]).foldl (evaluate [load "cpu" 0]) {}).sentFor
        (load "cpu" 0)) ∧
      ((minutes [["cpu"], [], ["cpu"]]).foldl (evaluate [load "cpu" 0]) {}).published.length = 3 :=
  ⟨(alerts_alternate _ (by decide) _ _ (by decide) (by decide)).1, by decide⟩

/-- A rule of five minutes triggers at the first evaluation; and of two rules with one name, the
second is resolved without having been triggered. -/
theorem alerts_premature :
    ((minutes [["cpu"]]).foldl (evaluate [load "cpu" 300000000000]) {}).published =
        [⟨load "cpu" 300000000000, true, 0⟩] ∧
      ((minutes [["cpu"]]).foldl (evaluate [load "cpu" 0, load "ram" 0]) {}).published =
        [⟨load "cpu" 0, true, 0⟩, ⟨load "ram" 0, false, 0⟩] := by
  decide

/-- The calls under a name. -/
def AlertEngine.sentUnder (name : String) (ae : AlertEngine) : List Notification :=
  ae.published.filter (·.rule.name = name)

lemma sentUnder_notify (ae : AlertEngine) (n : Notification) (name : String) :
    (ae.notify n).sentUnder name = ae.sentUnder name ++ if n.rule.name = name then [n] else [] := by
  by_cases h : n.rule.name = name <;> simp [sentUnder, notify, h]

/-- The notifications under a name alternate, and the alert fires when their number is odd. -/
def InTurn (name : String) (ae : AlertEngine) : Prop :=
  ae.firing name = decide ((ae.sentUnder name).length % 2 = 1) ∧ Alternate (ae.sentUnder name)

lemma InTurn.evaluateRule {name : String} {ae : AlertEngine} (h : InTurn name ae) (e : Evaluation)
    (rule : AlertRule) : InTurn name (evaluateRule e ae rule) := by
  rw [evaluateRule_eq]
  split_ifs with hsame
  · exact h
  rw [InTurn, sentUnder_notify]
  by_cases hname : rule.name = name
  case neg =>
    rw [if_neg hname, append_nil]
    exact ⟨(update_of_ne (Ne.symm hname) ..).trans h.1, h.2⟩
  subst hname
  have heven : e.holds rule = decide ((ae.sentUnder rule.name).length % 2 = 0) := by
    rw [Bool.eq_not_of_ne hsame, h.1, ← decide_not]
    exact decide_eq_decide.mpr (by omega)
  rw [if_pos rfl, length_append, length_singleton]
  refine ⟨(update_self ..).trans (heven.trans (decide_eq_decide.mpr (by omega))), h.2.snoc heven⟩

/-- **The calls of `PublishAsync` under a name are triggered and resolved in turn**, whatever rules share the
name and however long their conditions should hold. -/
theorem names_alternate (rules : List AlertRule) (es : List Evaluation) (name : String) :
    Alternate ((es.foldl (evaluate rules) {}).sentUnder name) := by
  have hstart : InTurn name {} := ⟨rfl, rfl⟩
  refine (foldlRecOn (motive := InTurn name) es _ hstart fun ae h e _ => ?_).2
  exact foldlRecOn rules _ h fun ae h rule _ => h.evaluateRule e rule

end DeployMonster.Resource
