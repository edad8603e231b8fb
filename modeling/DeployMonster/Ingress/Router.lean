import DeployMonster.Library.FirstMatch
import DeployMonster.Library.StepMachine
import DeployMonster.Library.Table

/-!
# The route table

`internal/ingress/router.go`. The sort is `sort.Slice`, which leaves the order of equal routes open,
so a write may end in any sorted reordering.
-/

namespace DeployMonster.Ingress

open StepMachine List

structure RouteEntry where
  (host pathPrefix : String)
  priority : ℤ
  backends : List String
  stripPrefix : Bool
  appID : String
  deriving DecidableEq

/-- Strip the `*` of a wildcard host and compare: as many labels, and the same suffix. -/
def matchHost (pattern host : String) : Bool :=
  if pattern = host then true
  else if "*.".toList.isPrefixOf pattern.toList then
    let suffix := pattern.toList.drop 1
    suffix.isSuffixOf host.toList && host.toList.count '.' == pattern.toList.count '.'
  else false

def matchPath (pre path : String) : Bool :=
  if pre = "/" then true else pre.toList.isPrefixOf path.toList

namespace RouteEntry

def isMatch (host path : String) (r : RouteEntry) : Bool :=
  matchHost r.host host && matchPath r.pathPrefix path

/-- The order of `sortRoutes`; the length of a string is its length in bytes. -/
def less (r r' : RouteEntry) : Bool :=
  if r.priority ≠ r'.priority then r.priority > r'.priority
  else r.pathPrefix.utf8ByteSize > r'.pathPrefix.utf8ByteSize

end RouteEntry

/-- The routes of a snapshot. -/
abbrev RouteTable := List RouteEntry

variable (rt : RouteTable)

/-- What `sort.Slice` guarantees: no route sorts before an earlier one. -/
def SortedRoutes : Prop := rt.Pairwise fun r r' => r'.less r = false
  deriving Decidable

namespace RouteTable

def matchRoute (host path : String) : Option RouteEntry :=
  rt.find? (RouteEntry.isMatch host path)

/-- An empty path prefix stands for `/`. -/
def defaultPrefix (pre : String) : String := if pre = "" then "/" else pre

/-- The mutation of `Upsert`: replace the route of the same host and prefix, or append. -/
def upsert (entry : RouteEntry) : RouteTable :=
  let entry := { entry with pathPrefix := defaultPrefix entry.pathPrefix }
  match rt.findIdx? fun r => r.host = entry.host ∧ r.pathPrefix = entry.pathPrefix with
  | some i => rt.set i entry
  | none => rt ++ [entry]

def remove (host pathPrefix : String) : RouteTable :=
  match rt.findIdx? fun r => r.host = host ∧ r.pathPrefix = defaultPrefix pathPrefix with
  | some i => rt.eraseIdx i
  | none => rt

def removeByAppID (appID : String) : RouteTable :=
  rt.filter fun r => r.appID ≠ appID

end RouteTable

inductive RouteWrite
  | upsert (entry : RouteEntry)
  | remove (host pathPrefix : String)
  | removeByAppID (appID : String)
  deriving DecidableEq

def RouteWrite.mutate : RouteWrite → RouteTable
  | upsert entry => rt.upsert entry
  | remove host pathPrefix => rt.remove host pathPrefix
  | removeByAppID appID => rt.removeByAppID appID

def tableStep : RouteWrite × RouteTable → Option RouteTable
  | (w, sorted) => if sorted.Perm (w.mutate rt) ∧ SortedRoutes sorted then some sorted else none

/-- The route that `Match` returns has an exact host if a matching route of its priority has one,
and among the equally exact ones of its priority it has the longest prefix. -/
def Prefers (host path : String) : Prop :=
  ∀ r ∈ rt.matchRoute host path, ∀ r' ∈ rt, r'.isMatch host path = true → r'.priority = r.priority →
    (r'.host = host → r.host = host) ∧
    ((r'.host = host ↔ r.host = host) → r'.pathPrefix.utf8ByteSize ≤ r.pathPrefix.utf8ByteSize)

/-- Every history that leads to the same routes leads to the same match. -/
def OrderFree (host path : String) : Prop :=
  ∀ ws rt', run tableStep [] ws = some rt' → rt'.Perm rt →
    rt'.matchRoute host path = rt.matchRoute host path

/-- A matching route before which no other matching route sorts: of the highest priority and, in it,
of the longest prefix. -/
def Leading (host path : String) (r : RouteEntry) : Prop :=
  r ∈ rt ∧ r.isMatch host path = true ∧ ∀ r' ∈ rt, r'.isMatch host path = true → r'.less r = false
  deriving Decidable

/-- At most one route leads, and its host is exact if a matching route of its priority has an exact
host. -/
def Unambiguous (host path : String) : Prop :=
  ∀ r ∈ rt, Leading rt host path r →
    (∀ r' ∈ rt, Leading rt host path r' → r' = r) ∧
    ((∃ r' ∈ rt, r'.isMatch host path = true ∧ r'.priority = r.priority ∧ r'.host = host) →
      r.host = host)
  deriving Decidable

def RouteEntry.sortKey (r : RouteEntry) : ℤ ×ₗ ℕ := toLex (r.priority, r.pathPrefix.utf8ByteSize)

/-- What `Upsert` and `Remove` identify a route by. -/
def RouteEntry.key (r : RouteEntry) : String × String := (r.host, r.pathPrefix)

lemma less_eq_false_iff (r r' : RouteEntry) : r.less r' = false ↔ r.sortKey ≤ r'.sortKey := by
  unfold RouteEntry.less RouteEntry.sortKey
  rw [Prod.Lex.toLex_le_toLex]
  split_ifs with hne
  · simp only [decide_eq_false_iff_not, not_lt, hne, false_and, or_false]
    exact ⟨fun h => lt_of_le_of_ne h hne, le_of_lt⟩
  · have heq : r.priority = r'.priority := not_not.mp hne
    simp [heq]

lemma sortedRoutes_iff : SortedRoutes rt ↔ FirstMatch.Descending RouteEntry.sortKey rt := by
  simp only [SortedRoutes, FirstMatch.Descending, less_eq_false_iff]

lemma leading_iff (host path : String) (r : RouteEntry) : Leading rt host path r ↔
      FirstMatch.Best RouteEntry.sortKey (RouteEntry.isMatch host path) rt r := by
  simp only [Leading, less_eq_false_iff]
  exact ⟨fun ⟨hmem, hmatch, hle⟩ => ⟨hmem, hmatch, hle⟩, fun h => ⟨h.mem, h.isMatch, h.le⟩⟩

/-! ## The tables that writes can build -/

/-- A table that writes can build. -/
structure ValidTable (rt : RouteTable) : Prop where
  sorted : SortedRoutes rt
  nodup : (rt.map RouteEntry.key).Nodup
  prefix_ne : ∀ r ∈ rt, r.pathPrefix ≠ ""

variable {rt rt' : RouteTable}

lemma defaultPrefix_ne (pre : String) : RouteTable.defaultPrefix pre ≠ "" := by
  unfold RouteTable.defaultPrefix
  split_ifs with h
  · decide
  · exact h

variable {pre : String}

lemma defaultPrefix_of_ne (h : pre ≠ "") : RouteTable.defaultPrefix pre = pre :=
  if_neg h

variable {host : String}

lemma key_of_findIdx? {i : ℕ}
    (h : rt.findIdx? (fun r => r.host = host ∧ r.pathPrefix = pre) = some i) :
    ∃ hlt : i < rt.length, (host, pre) = rt[i].key := by
  obtain ⟨hlt, hkey, -⟩ := findIdx?_eq_some_iff_getElem.mp h
  have hkey := of_decide_eq_true hkey
  exact ⟨hlt, Prod.ext hkey.1.symm hkey.2.symm⟩

variable {r : RouteEntry}

lemma key_ne_of_findIdx?
    (h : rt.findIdx? (fun r => r.host = host ∧ r.pathPrefix = pre) = none) (hr : r ∈ rt) :
    r.key ≠ (host, pre) := fun hkey => by
  have hne := findIdx?_eq_none_iff.mp h r hr
  exact of_decide_eq_false hne (Prod.mk.inj hkey)

variable {entry : RouteEntry}

lemma upsert_of_notMem
    (h : (entry.host, RouteTable.defaultPrefix entry.pathPrefix) ∉ rt.map RouteEntry.key) :
    RouteTable.upsert rt entry =
      rt ++ [{ entry with pathPrefix := RouteTable.defaultPrefix entry.pathPrefix }] := by
  unfold RouteTable.upsert
  dsimp only
  split
  next i hi =>
    obtain ⟨hlt, hkey⟩ := key_of_findIdx? hi
    exact absurd (mem_map.mpr ⟨rt[i], getElem_mem hlt, hkey.symm⟩) h
  next => rfl

lemma map_key_upsert_of_mem
    (h : (entry.host, RouteTable.defaultPrefix entry.pathPrefix) ∈ rt.map RouteEntry.key) :
    (RouteTable.upsert rt entry).map RouteEntry.key = rt.map RouteEntry.key := by
  unfold RouteTable.upsert
  dsimp only
  split
  next i hi =>
    obtain ⟨hlt, hkey⟩ := key_of_findIdx? hi
    have hlt' : i < (rt.map RouteEntry.key).length := by simpa using hlt
    have hentry : RouteEntry.key
        { entry with pathPrefix := RouteTable.defaultPrefix entry.pathPrefix } =
          (rt.map RouteEntry.key)[i] := by
      rw [getElem_map]
      exact hkey
    rw [map_set, hentry, set_getElem_self]
  next hnone =>
    obtain ⟨r, hr, hkey⟩ := mem_map.mp h
    exact absurd hkey (key_ne_of_findIdx? hnone hr)

lemma prefix_ne_of_mem_upsert (h : ∀ r ∈ rt, r.pathPrefix ≠ "")
    (hr : r ∈ rt.upsert entry) : r.pathPrefix ≠ "" := by
  have hmem : r ∈ rt ∨
      r = { entry with pathPrefix := RouteTable.defaultPrefix entry.pathPrefix } := by
    unfold RouteTable.upsert at hr
    dsimp only at hr
    split at hr
    · exact mem_or_eq_of_mem_set hr
    · simpa using hr
  rcases hmem with hmem | rfl
  · exact h r hmem
  · exact defaultPrefix_ne _

lemma ValidTable.mutate (h : ValidTable rt) (w : RouteWrite) :
    ((w.mutate rt).map RouteEntry.key).Nodup ∧ ∀ r ∈ w.mutate rt, r.pathPrefix ≠ "" := by
  cases w with
  | upsert entry =>
    refine ⟨?_, fun r => prefix_ne_of_mem_upsert h.prefix_ne⟩
    by_cases hmem :
        (entry.host, RouteTable.defaultPrefix entry.pathPrefix) ∈ rt.map RouteEntry.key
    · rw [RouteWrite.mutate, map_key_upsert_of_mem hmem]
      exact h.nodup
    · rw [RouteWrite.mutate, upsert_of_notMem hmem, map_append]
      simpa [RouteEntry.key] using List.Nodup.concat hmem h.nodup
  | remove host pathPrefix =>
    have hsub : (rt.remove host pathPrefix).Sublist rt := by
      unfold RouteTable.remove
      split
      · exact eraseIdx_sublist _ _
      · exact List.Sublist.refl _
    exact ⟨h.nodup.sublist (hsub.map _), fun r hr => h.prefix_ne r (hsub.subset hr)⟩
  | removeByAppID appID =>
    have hsub : (rt.removeByAppID appID).Sublist rt := filter_sublist
    exact ⟨h.nodup.sublist (hsub.map _), fun r hr => h.prefix_ne r (hsub.subset hr)⟩

lemma validTable_step (rt : RouteTable) (a : RouteWrite × RouteTable) (rt' : RouteTable)
    (h : ValidTable rt) (hstep : tableStep rt a = some rt') : ValidTable rt' := by
  obtain ⟨w, sorted⟩ := a
  obtain ⟨⟨hperm, hsorted⟩, heq⟩ := Option.ite_none_right_eq_some.mp hstep
  cases heq
  obtain ⟨hnodup, hne⟩ := h.mutate w
  exact ⟨hsorted, (hperm.map _).nodup_iff.mpr hnodup, fun r hr => hne r (hperm.mem_iff.mp hr)⟩

lemma valid_of_run {ws : List (RouteWrite × RouteTable)} (h : run tableStep [] ws = some rt) :
    ValidTable rt :=
  invariant_of_run validTable_step ⟨List.Pairwise.nil, nodup_nil, by simp⟩ h

lemma exists_run_of_valid (h : ValidTable rt) : ∃ ws, run tableStep [] ws = some rt := by
  induction rt using reverseRecOn with
  | nil => exact ⟨[], rfl⟩
  | append_singleton rt r ih =>
    have hsub : rt.Sublist (rt ++ [r]) := sublist_append_left _ _
    obtain ⟨ws, hws⟩ := ih ⟨h.sorted.sublist hsub, h.nodup.sublist (hsub.map _),
      fun x hx => h.prefix_ne x (hsub.subset hx)⟩
    refine ⟨ws ++ [(.upsert r, rt ++ [r])], run_snoc.mpr ⟨rt, hws, ?_⟩⟩
    have hpre : RouteTable.defaultPrefix r.pathPrefix = r.pathPrefix :=
      defaultPrefix_of_ne (h.prefix_ne r (by simp))
    have hnew : RouteEntry.key r ∉ rt.map RouteEntry.key := by
      have hnodup := h.nodup
      rw [map_append, map_singleton] at hnodup
      exact fun hmem => (nodup_append.mp hnodup).2.2 _ hmem _ (by simp) rfl
    have hupsert : RouteTable.upsert rt r = rt ++ [r] := by
      rw [upsert_of_notMem (by rwa [hpre]), hpre]
    simp [tableStep, RouteWrite.mutate, hupsert, h.sorted]

/-! ## The first match -/

lemma orderFree_iff (h : ValidTable rt) (host path : String) :
    OrderFree rt host path ↔
      ∀ r r', Leading rt host path r → Leading rt host path r' → r = r' := by
  simp only [leading_iff]
  rw [← FirstMatch.find?_eq_iff ((sortedRoutes_iff rt).mp h.sorted)]
  constructor
  · intro hfree rt' hperm hdesc
    have hvalid : ValidTable rt' := ⟨(sortedRoutes_iff rt').mpr hdesc,
      (hperm.map _).nodup_iff.mpr h.nodup, fun r hr => h.prefix_ne r (hperm.mem_iff.mp hr)⟩
    obtain ⟨ws, hws⟩ := exists_run_of_valid hvalid
    exact hfree ws rt' hws hperm
  · intro hfind ws rt' hws hperm
    exact hfind rt' hperm ((sortedRoutes_iff rt').mp (valid_of_run hws).sorted)

lemma leading_of_matchRoute (h : ValidTable rt) {path : String}
    (hr : rt.matchRoute host path = some r) : Leading rt host path r :=
  (leading_iff rt host path r).mpr
    (FirstMatch.best_of_find? ((sortedRoutes_iff rt).mp h.sorted) hr)

lemma Leading.size_le {path : String} {r' : RouteEntry} (hr : Leading rt host path r)
    (hr' : r' ∈ rt) (hmatch : r'.isMatch host path = true) (hpriority : r'.priority = r.priority) :
    r'.pathPrefix.utf8ByteSize ≤ r.pathPrefix.utf8ByteSize := by
  have hless := hr.2.2 r' hr' hmatch
  simpa [RouteEntry.less, hpriority] using hless

/-- **The precedence of routes.** After every history of writes, `Match` prefers exact hosts and
then long prefixes and does not depend on the order of insertion exactly when the request is
unambiguous: one matching route has the highest priority and the longest prefix, and its host is
exact if any of that priority is. -/
theorem precedence_iff_unambiguous (ws : List (RouteWrite × RouteTable)) (rt : RouteTable)
    (hws : run tableStep [] ws = some rt) (host path : String) :
    Prefers rt host path ∧ OrderFree rt host path ↔ Unambiguous rt host path := by
  have hvalid := valid_of_run hws
  rw [orderFree_iff hvalid]
  constructor
  · rintro ⟨hprefers, huniq⟩ r - hr
    refine ⟨fun r' _ hr' => huniq r' r hr' hr, ?_⟩
    rintro ⟨r', hr', hmatch, hpriority, hexact⟩
    obtain ⟨r1, hr1⟩ := ((leading_iff rt host path r).mp hr).exists_find?
    obtain rfl := huniq r r1 hr (leading_of_matchRoute hvalid hr1)
    exact (hprefers r hr1 r' hr' hmatch hpriority).1 hexact
  · intro hunamb
    refine ⟨fun r hr r' hr' hmatch hpriority => ?_, fun r r' hr hr' => ?_⟩
    · have hlead := leading_of_matchRoute hvalid hr
      exact ⟨fun hexact => (hunamb r hlead.1 hlead).2 ⟨r', hr', hmatch, hpriority, hexact⟩,
        fun _ => hlead.size_le hr' hmatch hpriority⟩
    · exact (hunamb r' hr'.1 hr').1 r hr.1 hr

def exactRoutes : RouteTable :=
  [⟨"app.example.com", "/api", 0, ["10.0.0.6:80"], false, "api"⟩,
    ⟨"app.example.com", "/", 0, ["10.0.0.5:80"], false, "web"⟩]

/-- The longer prefix wins, in whatever order the two were inserted. -/
theorem precedence_exactRoutes :
    Prefers exactRoutes "app.example.com" "/api/users" ∧
      OrderFree exactRoutes "app.example.com" "/api/users" := by
  have hws : run tableStep []
      [(.upsert ⟨"app.example.com", "", 0, ["10.0.0.5:80"], false, "web"⟩, exactRoutes.drop 1),
        (.upsert ⟨"app.example.com", "/api", 0, ["10.0.0.6:80"], false, "api"⟩, exactRoutes)] =
      some exactRoutes := by decide
  exact (precedence_iff_unambiguous _ _ hws _ _).mpr (by decide)

def wildcardRoutes : RouteTable :=
  [⟨"*.example.com", "/api", 0, ["10.0.0.6:80"], false, "api"⟩,
    ⟨"app.example.com", "/", 0, ["10.0.0.5:80"], false, "web"⟩]

/-- The wildcard host takes the requests of the exact one. -/
theorem wildcard_preferred :
    run tableStep []
      [(.upsert ⟨"app.example.com", "/", 0, ["10.0.0.5:80"], false, "web"⟩, wildcardRoutes.drop 1),
        (.upsert ⟨"*.example.com", "/api", 0, ["10.0.0.6:80"], false, "api"⟩, wildcardRoutes)] =
      some wildcardRoutes ∧
    (wildcardRoutes.matchRoute "app.example.com" "/api/users").map RouteEntry.host =
      some "*.example.com" ∧
    ¬ Prefers wildcardRoutes "app.example.com" "/api/users" := by
  refine ⟨by decide, by decide, fun h => ?_⟩
  have hpref := h ⟨"*.example.com", "/api", 0, ["10.0.0.6:80"], false, "api"⟩ (by decide)
    ⟨"app.example.com", "/", 0, ["10.0.0.5:80"], false, "web"⟩ (by decide) (by decide) rfl
  exact absurd (hpref.1 rfl) (by decide)

/-!
# The route table as a map

Every write of `internal/ingress/router.go` clones the current snapshot and changes the clone in
place: removals reuse its backing array. A slice is the address of an array and a length.
-/

open Option Function

/-! ## The map of routes -/

/-- A map from hosts and path prefixes to routes. -/
abbrev RouteMap := String × String → Option RouteEntry

def RouteTable.toMap (rt : RouteTable) : RouteMap := fun k => rt.find? fun r => r.key = k

def RouteEntry.stored (e : RouteEntry) : RouteEntry :=
  { e with pathPrefix := RouteTable.defaultPrefix e.pathPrefix }

def RouteWrite.apply (m : RouteMap) : RouteWrite → RouteMap
  | upsert e => update m e.stored.key (some e.stored)
  | remove host pathPrefix => update m (host, RouteTable.defaultPrefix pathPrefix) none
  | removeByAppID appID => fun k => (m k).filter fun r => r.appID ≠ appID

variable {rt rt' : RouteTable} {r : RouteEntry} {k : String × String}

lemma toMap_eq_some (hnodup : (rt.map RouteEntry.key).Nodup) :
    rt.toMap k = some r ↔ r ∈ rt ∧ r.key = k :=
  Table.find?_eq_some_iff (t := ⟨rt, hnodup⟩)

lemma toMap_of_perm (hperm : rt.Perm rt') (hnodup : (rt'.map RouteEntry.key).Nodup) :
    rt.toMap = rt'.toMap := by
  funext k
  ext r
  rw [toMap_eq_some hnodup, toMap_eq_some ((hperm.map _).nodup_iff.mpr hnodup), hperm.mem_iff]

variable (hnodup : (rt.map RouteEntry.key).Nodup)
include hnodup

lemma key_ne_iff {i j : ℕ} (hi : i < rt.length)
    (hj : j < rt.length) : rt[j].key ≠ rt[i].key ↔ j ≠ i := by
  refine not_congr ⟨fun h => ?_, fun h => by subst h; rfl⟩
  have hi' : i < (rt.map RouteEntry.key).length := by simpa
  have hj' : j < (rt.map RouteEntry.key).length := by simpa
  have h' : (rt.map RouteEntry.key)[j] = (rt.map RouteEntry.key)[i] := by simpa using h
  exact hnodup.getElem_inj_iff.mp h'

lemma mem_upsert_iff {e : RouteEntry} :
    r ∈ rt.upsert e ↔ r = e.stored ∨ r ∈ rt ∧ r.key ≠ e.stored.key := by
  unfold RouteTable.upsert
  dsimp only
  split
  next i hi =>
    obtain ⟨hlt, hkey⟩ := key_of_findIdx? hi
    rw [show e.stored.key = rt[i].key from hkey, mem_iff_getElem, mem_iff_getElem]
    constructor
    · rintro ⟨j, hj, rfl⟩
      rw [getElem_set]
      split
      · exact .inl rfl
      case isFalse hne =>
        rw [length_set] at hj
        exact .inr ⟨⟨j, hj, rfl⟩, (key_ne_iff hnodup hlt hj).mpr (Ne.symm hne)⟩
    · rintro (rfl | ⟨⟨j, hj, rfl⟩, hne⟩)
      · exact ⟨i, by simpa, getElem_set_self _⟩
      · have hne := (key_ne_iff hnodup hlt hj).mp hne
        exact ⟨j, by simpa, getElem_set_ne hne.symm _⟩
  next hnone =>
    rw [mem_append, mem_singleton, or_comm]
    exact or_congr_right ⟨fun hr => ⟨hr, key_ne_of_findIdx? hnone hr⟩, And.left⟩

lemma mem_remove_iff {host pathPrefix : String} :
    r ∈ rt.remove host pathPrefix ↔
      r ∈ rt ∧ r.key ≠ (host, RouteTable.defaultPrefix pathPrefix) := by
  unfold RouteTable.remove
  split
  next i hi =>
    obtain ⟨hlt, hkey⟩ := key_of_findIdx? hi
    rw [hkey, mem_eraseIdx_iff_getElem, mem_iff_getElem]
    constructor
    · rintro ⟨j, hj, hne, rfl⟩
      exact ⟨⟨j, hj, rfl⟩, (key_ne_iff hnodup hlt hj).mpr hne⟩
    · rintro ⟨⟨j, hj, rfl⟩, hne⟩
      exact ⟨j, hj, (key_ne_iff hnodup hlt hj).mp hne, rfl⟩
  next hnone => exact ⟨fun hr => ⟨hr, key_ne_of_findIdx? hnone hr⟩, And.left⟩

omit hnodup

/-- **A write changes the table as it changes the map.** -/
theorem toMap_mutate (h : ValidTable rt) (w : RouteWrite) : (w.mutate rt).toMap = w.apply rt.toMap := by
  funext k
  ext r
  rw [toMap_eq_some (h.mutate w).1]
  cases w with
  | upsert e =>
    simp only [RouteWrite.mutate, RouteWrite.apply, mem_upsert_iff h.nodup, update_apply]
    split
    case isTrue hk =>
      subst hk
      rw [some.injEq]
      refine ⟨?_, fun hr => hr ▸ ⟨.inl rfl, rfl⟩⟩
      rintro ⟨hr, hk⟩
      exact (hr.resolve_right fun hr => hr.2 hk).symm
    case isFalse hk =>
      rw [toMap_eq_some h.nodup]
      constructor
      · rintro ⟨rfl | ⟨hr, -⟩, hk'⟩
        · exact absurd hk'.symm hk
        · exact ⟨hr, hk'⟩
      · rintro ⟨hr, rfl⟩
        exact ⟨.inr ⟨hr, hk⟩, rfl⟩
  | remove host pathPrefix =>
    simp only [RouteWrite.mutate, RouteWrite.apply, mem_remove_iff h.nodup, update_apply]
    split
    case isTrue hk => exact iff_of_false (fun hr => hr.1.2 (hr.2.trans hk)) (by rintro ⟨⟩)
    case isFalse hk =>
      rw [toMap_eq_some h.nodup]
      exact ⟨fun hr => ⟨hr.1.1, hr.2⟩, fun hr => ⟨⟨hr.1, hr.2 ▸ hk⟩, hr.2⟩⟩
  | removeByAppID appID =>
    simp only [RouteWrite.mutate, RouteWrite.apply, RouteTable.removeByAppID, mem_filter,
      filter_eq_some_iff, toMap_eq_some h.nodup]
    exact and_right_comm

variable {sorted : RouteTable}

lemma toMap_tableStep (h : ValidTable rt) {w : RouteWrite}
    (hstep : tableStep rt (w, sorted) = some rt') : rt'.toMap = w.apply rt.toMap := by
  obtain ⟨⟨hperm, -⟩, heq⟩ := ite_none_right_eq_some.mp hstep
  cases heq
  rw [toMap_of_perm hperm (h.mutate w).1, toMap_mutate h]

/-! ## The arrays behind the snapshots -/

/-- The arrays that were allocated, and the slice of the current snapshot. -/
structure RouteMemory where
  arrays : List (List RouteEntry)
  snapshot : ℕ × ℕ

def newRouteMemory : RouteMemory := ⟨[[]], (0, 0)⟩

variable (m : RouteMemory)

def RouteMemory.read (s : ℕ × ℕ) : RouteTable := (m.arrays.getD s.1 []).take s.2

/-- The loop of `RemoveByAppID` with `n` elements to go: it reads at `i` and appends at `k`, in one
array. -/
def filterLoop (appID : String) : ℕ → ℕ → ℕ → List RouteEntry → ℕ × List RouteEntry
  | 0, _, k, arr => (k, arr)
  | n + 1, i, k, arr =>
    match arr[i]? with
    | none => (k, arr)
    | some r =>
      if r.appID ≠ appID then filterLoop appID n (i + 1) (k + 1) (arr.set k r)
      else filterLoop appID n (i + 1) k arr

/-- The functions that are passed to `replace`, on a slice that fills its array. -/
def RouteMemory.mutate (next : ℕ × ℕ) : RouteWrite → RouteMemory × (ℕ × ℕ)
  | .upsert e =>
    match (m.read next).findIdx?
      fun r => r.host = e.stored.host ∧ r.pathPrefix = e.stored.pathPrefix with
    | some i => ({ m with arrays := m.arrays.set next.1 ((m.read next).set i e.stored) }, next)
    | none =>
      ({ m with arrays := m.arrays ++ [m.read next ++ [e.stored]] }, (m.arrays.length, next.2 + 1))
  | .remove host pathPrefix =>
    match (m.read next).findIdx?
      fun r => r.host = host ∧ r.pathPrefix = RouteTable.defaultPrefix pathPrefix with
    | some i =>
      let arr := m.read next
      ({ m with
        arrays := m.arrays.set next.1 (arr.take i ++ arr.drop (i + 1) ++ arr.drop (arr.length - 1)) },
        (next.1, next.2 - 1))
    | none => (m, next)
  | .removeByAppID appID =>
    let filtered := filterLoop appID next.2 0 0 (m.read next)
    ({ m with arrays := m.arrays.set next.1 filtered.2 }, (next.1, filtered.1))

/-- `replace`, with a sort that ends in `sorted`. -/
def replaceStep : RouteWrite × RouteTable → Option RouteMemory
  | (w, sorted) =>
    let current := m.read m.snapshot
    let cloned : RouteMemory := { m with arrays := m.arrays ++ [current] }
    let (m', next) := cloned.mutate (m.arrays.length, current.length) w
    if sorted.Perm (m'.read next) ∧ SortedRoutes sorted then
      let arr := m'.arrays.getD next.1 []
      some ⟨m'.arrays.set next.1 (sorted ++ arr.drop next.2), next⟩
    else none

variable {m m' : RouteMemory}

/-- The elements that are kept come first, and what is still to be read is unchanged. -/
lemma filterLoop_spec (appID : String) (rt : RouteTable) (n i k : ℕ) (arr : List RouteEntry)
    (hn : n + i = rt.length) (hlen : arr.length = rt.length) (hk : k ≤ i)
    (hread : arr.drop i = rt.drop i)
    (hkept : arr.take k = RouteTable.removeByAppID (rt.take i) appID) :
    let kept := filterLoop appID n i k arr
    kept.2.take kept.1 = rt.removeByAppID appID ∧ kept.1 ≤ kept.2.length := by
  induction n generalizing i k arr with
  | zero =>
    rw [take_of_length_le (show rt.length ≤ i by omega)] at hkept
    exact ⟨hkept, by simp only [filterLoop]; omega⟩
  | succ n ih =>
    have hi : i < rt.length := by omega
    have hget : arr[i]? = some rt[i] := by
      have h := congrArg head? hread
      rwa [head?_drop, head?_drop, getElem?_eq_getElem hi] at h
    have hnext : RouteTable.removeByAppID (rt.take (i + 1)) appID =
        RouteTable.removeByAppID (rt.take i) appID ++ RouteTable.removeByAppID [rt[i]] appID := by
      rw [← take_append_getElem hi]
      exact filter_append ..
    have hdrop : arr.drop (i + 1) = rt.drop (i + 1) := by
      rw [← drop_drop, ← drop_drop, hread]
    unfold filterLoop
    rw [hget]
    dsimp only
    split
    case isTrue happ =>
      refine ih (i + 1) (k + 1) _ (by omega) (by simpa) (by omega) ?_ ?_
      · rw [drop_set_of_lt (by omega), hdrop]
      · have hlt : k < arr.length := by omega
        rw [take_add_one, getElem?_set_self hlt, take_set_of_le le_rfl, hkept, hnext]
        simp [RouteTable.removeByAppID, happ]
    case isFalse happ =>
      refine ih (i + 1) k arr (by omega) hlen (by omega) hdrop ?_
      rw [hkept, hnext]
      simp [RouteTable.removeByAppID, not_not.mp happ]

lemma upsert_eq (rt : RouteTable) (e : RouteEntry) :
    rt.upsert e =
      match rt.findIdx? fun r => r.host = e.stored.host ∧ r.pathPrefix = e.stored.pathPrefix with
      | some i => rt.set i e.stored
      | none => rt ++ [e.stored] := rfl

/-- What `replace` is given back: a slice of an array that no snapshot has, with the routes that the
write leaves. -/
lemma mutate_spec (old : List (List RouteEntry)) (rt : RouteTable) (s : ℕ × ℕ) (w : RouteWrite) :
    ∃ fresh arr next,
      RouteMemory.mutate ⟨old ++ [rt], s⟩ (old.length, rt.length) w =
        (⟨old ++ (fresh ++ [arr]), s⟩, (old.length + fresh.length, next)) ∧
      arr.take next = w.mutate rt ∧ next ≤ arr.length := by
  have hread : RouteMemory.read ⟨old ++ [rt], s⟩ (old.length, rt.length) = rt := by
    simp [RouteMemory.read, getD_eq_getElem?_getD]
  cases w with
  | upsert e =>
    simp only [RouteMemory.mutate, hread, RouteWrite.mutate, upsert_eq]
    cases rt.findIdx? fun r => r.host = e.stored.host ∧ r.pathPrefix = e.stored.pathPrefix with
    | some i => exact ⟨[], _, rt.length, by simp, take_of_length_le (by simp), by simp⟩
    | none => exact ⟨[rt], _, rt.length + 1, by simp, take_of_length_le (by simp), by simp⟩
  | remove host pathPrefix =>
    simp only [RouteMemory.mutate, hread, RouteWrite.mutate, RouteTable.remove]
    cases hidx : rt.findIdx?
      fun r => r.host = host ∧ r.pathPrefix = RouteTable.defaultPrefix pathPrefix with
    | some i =>
      have hlt := (findIdx?_eq_some_iff_getElem.mp hidx).1
      have hlen := length_eraseIdx_of_lt hlt
      refine ⟨[], rt.eraseIdx i ++ rt.drop (rt.length - 1), rt.length - 1, ?_, ?_, ?_⟩
      · simp [eraseIdx_eq_take_drop_succ]
      · rw [← hlen, take_left]
      · rw [length_append, hlen]
        exact Nat.le_add_right _ _
    | none => exact ⟨[], rt, rt.length, by simp, take_length, le_rfl⟩
  | removeByAppID appID =>
    obtain ⟨htake, hle⟩ := filterLoop_spec appID rt rt.length 0 0 rt rfl rfl le_rfl rfl rfl
    simp only [RouteMemory.mutate, hread]
    exact ⟨[], _, _, by simp, htake, hle⟩

/-- **A write stores a sorted reordering of what it leaves, and touches no earlier array.** -/
theorem replaceStep_spec {w : RouteWrite} (h : replaceStep m (w, sorted) = some m') :
    tableStep (m.read m.snapshot) (w, sorted) = some sorted ∧ m'.read m'.snapshot = sorted ∧
      m.arrays.length ≤ m'.snapshot.1 ∧ m'.snapshot.1 < m'.arrays.length ∧
      ∀ s : ℕ × ℕ, s.1 < m.arrays.length → m'.read s = m.read s := by
  obtain ⟨fresh, arr, next, hmutate, htake, hle⟩ :=
    mutate_spec m.arrays (m.read m.snapshot) m.snapshot w
  have hread : RouteMemory.read ⟨m.arrays ++ (fresh ++ [arr]), m.snapshot⟩
      (m.arrays.length + fresh.length, next) = w.mutate (m.read m.snapshot) := by
    simp [RouteMemory.read, getD_eq_getElem?_getD, htake]
  simp only [replaceStep, hmutate, hread] at h
  obtain ⟨⟨hperm, hsorted⟩, h⟩ := ite_none_right_eq_some.mp h
  cases h
  have hlen : sorted.length = next := by
    rw [hperm.length_eq, ← htake, length_take, Nat.min_eq_left hle]
  refine ⟨if_pos ⟨hperm, hsorted⟩, ?_, Nat.le_add_right _ _, by simp, fun s hs => ?_⟩
  · simp [RouteMemory.read, getD_eq_getElem?_getD, ← hlen]
  · simp [RouteMemory.read, getD_eq_getElem?_getD, getElem?_append_left hs]

lemma refines_of_run {ws : List (RouteWrite × RouteTable)}
    (hrun : run replaceStep newRouteMemory ws = some m) :
    run tableStep [] ws = some (m.read m.snapshot) ∧
      (m.read m.snapshot).toMap = ws.foldl (fun f a => a.1.apply f) (fun _ => none) ∧
      m.snapshot.1 < m.arrays.length := by
  refine history_of_run (I := fun ws m =>
    run tableStep [] ws = some (m.read m.snapshot) ∧
      (m.read m.snapshot).toMap = ws.foldl (fun f a => a.1.apply f) (fun _ => none) ∧
      m.snapshot.1 < m.arrays.length) ⟨rfl, rfl, by decide⟩ ?_ hrun
  rintro ws m ⟨w, sorted⟩ m' ⟨htable, hmap, -⟩ hstep
  obtain ⟨hwrite, hread, -, hlt, -⟩ := replaceStep_spec hstep
  rw [hread]
  refine ⟨run_snoc.mpr ⟨_, htable, hwrite⟩, ?_, hlt⟩
  rw [toMap_tableStep (valid_of_run htable) hwrite, hmap, foldl_append]
  rfl

/-- **The route table is a finite map.** After every history of writes the current snapshot is sorted
and has no key twice, it holds what the writes make of the empty map, and every earlier snapshot is
what it was when it was stored. -/
theorem routeTable_isMap (ws : List (RouteWrite × RouteTable)) (m : RouteMemory)
    (hrun : run replaceStep newRouteMemory ws = some m) :
    SortedRoutes (m.read m.snapshot) ∧ ((m.read m.snapshot).map RouteEntry.key).Nodup ∧
      (m.read m.snapshot).toMap = ws.foldl (fun f a => a.1.apply f) (fun _ => none) ∧
      ∀ ws1 ws2 m1, ws = ws1 ++ ws2 → run replaceStep newRouteMemory ws1 = some m1 →
        m.read m1.snapshot = m1.read m1.snapshot := by
  obtain ⟨htable, hmap, -⟩ := refines_of_run hrun
  have hvalid := valid_of_run htable
  refine ⟨hvalid.sorted, hvalid.nodup, hmap, ?_⟩
  rintro ws1 ws2 m1 rfl hrun1
  rw [run_append, hrun1] at hrun
  have hlt := (refines_of_run hrun1).2.2
  refine (invariant_of_run (I := fun m : RouteMemory => m1.arrays.length ≤ m.arrays.length ∧
    m.read m1.snapshot = m1.read m1.snapshot) ?_ ⟨le_rfl, rfl⟩ hrun).2
  rintro m ⟨w, sorted⟩ m' ⟨hle, hread⟩ hstep
  obtain ⟨-, -, hold, hnew, hframe⟩ := replaceStep_spec hstep
  exact ⟨by omega, (hframe _ (by omega)).trans hread⟩

/-- The snapshot of two routes stays, though the removal of one moves the other. -/
theorem routeTable_isMap_exactRoutes :
    ∃ m, run replaceStep newRouteMemory [(.upsert exactRoutes[1], exactRoutes.drop 1),
        (.upsert exactRoutes[0], exactRoutes), (.removeByAppID "api", exactRoutes.drop 1)] = some m ∧
      m.read m.snapshot = exactRoutes.drop 1 ∧ m.read (4, 2) = exactRoutes ∧
        SortedRoutes (m.read m.snapshot) := by
  refine exists_of_run_imp (P := fun m : RouteMemory => m.read m.snapshot = exactRoutes.drop 1 ∧
    m.read (4, 2) = exactRoutes) (by decide) fun m hrun ⟨hnow, hthen⟩ => ⟨hnow, hthen, ?_⟩
  exact (routeTable_isMap _ m hrun).1

end DeployMonster.Ingress
