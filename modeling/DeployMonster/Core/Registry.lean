import DeployMonster.Library.DependencyOrder
import DeployMonster.Library.Failure
import DeployMonster.Library.StepMachine

/-!
# The module registry

`internal/core/registry.go`. `Resolve` sorts the registered modules by depth-first search, starting
from every module in the order in which the map is iterated.
-/

namespace DeployMonster.Core

open DependencyOrder Failure List

structure Module where
  id : String
  dependencies : List String
  deriving DecidableEq

/-- The registry: the map of modules, in no particular order, and the computed order. -/
structure Registry where
  modules : List Module
  order : List String
  deriving DecidableEq

def newRegistry : Registry := ⟨[], []⟩

variable (r : Registry)

namespace Registry

def ids : List String := r.modules.map Module.id

def get (id : String) : Option Module := r.modules.find? fun m => m.id = id

/-- `Register`: the registry afterwards, and the error for an id that is taken. -/
def register (m : Module) : Registry × Option String :=
  if (r.get m.id).isSome then (r, some ("module " ++ m.id.quote ++ " already registered"))
  else ({ r with modules := r.modules ++ [m] }, none)

end Registry

/-- Why `Resolve` fails. `depth` is the recursion bound of the model, which `resolve` never
reaches (`visit_error`). -/
inductive ResolveError
  | circular (id : String)
  | unknown (id : String)
  | depth

/-- The variables of the search: the ids whose flag in `visited`, in `visiting` is set, and
`sorted`. -/
structure Search where
  (visited visiting sorted : List String)

namespace Registry

/-- The closure `visit` of `Resolve`, with a bound on the depth of the recursion. -/
def visit (r : Registry) : ℕ → String → Search → Except ResolveError Search
  | 0, _, _ => .error .depth
  | fuel + 1, id, st =>
    if id ∈ st.visited then .ok st
    else if id ∈ st.visiting then .error (.circular id)
    else
      let st := { st with visiting := id :: st.visiting }
      match r.get id with
      | none => .error (.unknown id)
      | some m => do
        let st ← m.dependencies.foldlM (fun st dep => r.visit fuel dep st) st
        .ok { visited := id :: st.visited
              visiting := st.visiting.erase id
              sorted := st.sorted ++ [id] }

/-- `Resolve`, when the map is iterated in the order `iter`: the registry afterwards and the
error. The stack of visits holds each registered module at most once. -/
def resolve (iter : List String) : Registry × Option ResolveError :=
  match iter.foldlM (fun st id => r.visit (r.modules.length + 1) id st) ⟨[], [], []⟩ with
  | .ok st => ({ r with order := st.sorted }, none)
  | .error err => (r, some err)

/-- The loop of `StopAll`: the ids in the order their modules are stopped, and the first error.
`stop` is what the modules' `Stop` returns. -/
def stopAll (stop : String → Option String) : List String × Option String :=
  r.order.reverse.foldl (fun (stopped, firstErr) id =>
    (stopped ++ [id],
      match stop id, firstErr with
      | some err, none => some ("stop " ++ id ++ ": " ++ err)
      | _, _ => firstErr)) ([], none)

end Registry

/-- A call that changes the registry. A `Resolve` comes with the order in which it happens to
iterate the map. -/
inductive RegistryAction
  | register (m : Module)
  | resolve (iter : List String)

def registryStep : RegistryAction → Option Registry
  | .register m => some (r.register m).1
  | .resolve iter => if iter.Perm r.ids then some (r.resolve iter).1 else none

variable {iter : List String}

namespace Registry

def deps (id : String) : List String := ((r.get id).map Module.dependencies).getD []

def Closed : Prop := ∀ m ∈ r.modules, ∀ d ∈ m.dependencies, d ∈ r.ids

def DependsOn (a b : String) : Prop := ∃ m ∈ r.modules, m.id = a ∧ b ∈ m.dependencies

/-- No module depends on itself, through any chain. -/
def Acyclic : Prop := ∀ a, ¬ Relation.TransGen r.DependsOn a a

variable {r : Registry} {id : String} {m : Module}

lemma get_eq_some (h : r.get id = some m) : m ∈ r.modules ∧ m.id = id := by
  refine ⟨mem_of_find?_eq_some h, ?_⟩
  simpa using find?_some h

lemma get_eq_none : r.get id = none ↔ id ∉ r.ids := by
  simp [get, ids, find?_eq_none]

lemma get_of_mem (hr : r.ids.Nodup) (hm : m ∈ r.modules) : r.get m.id = some m := by
  cases h : r.get m.id with
  | none => exact absurd (mem_map_of_mem hm) (get_eq_none.mp h)
  | some m' =>
    obtain ⟨hm', hid⟩ := get_eq_some h
    rw [inj_on_of_nodup_map hr hm' hm hid]

lemma deps_of_get (h : r.get id = some m) : r.deps id = m.dependencies := by
  simp [deps, h]

lemma dependsOn_iff (hr : r.ids.Nodup) (a b : String) : r.DependsOn a b ↔ b ∈ r.deps a := by
  constructor
  · rintro ⟨m, hm, rfl, hb⟩
    rwa [deps_of_get (get_of_mem hr hm)]
  intro hb
  cases h : r.get a with
  | none => simp [deps, h] at hb
  | some m =>
    rw [deps_of_get h] at hb
    exact ⟨m, (get_eq_some h).1, (get_eq_some h).2, hb⟩

/-- The search is between two visits: what is visited is sorted, once, in dependency order. -/
structure SearchOk (r : Registry) (st : Search) : Prop where
  mem_visited : ∀ x, x ∈ st.visited ↔ x ∈ st.sorted
  nodup : st.sorted.Nodup
  ordered : Ordered r.deps st.sorted
  sorted_subset : st.sorted ⊆ r.ids

/-- What a successful visit may do: it adds to the order, and never an id of its stack. -/
structure Grows (st st' : Search) : Prop where
  visiting_eq : st'.visiting = st.visiting
  sorted_subset : st.sorted ⊆ st'.sorted
  keeps_stack : ∀ x ∈ st.visiting, x ∈ st'.sorted → x ∈ st.sorted

lemma Grows.refl (st : Search) : Grows st st := ⟨rfl, fun _ h => h, fun _ _ h => h⟩

lemma Grows.trans {st1 st2 st3 : Search} (h : Grows st1 st2) (h' : Grows st2 st3) :
    Grows st1 st3 where
  visiting_eq := h'.visiting_eq.trans h.visiting_eq
  sorted_subset := fun _ hx => h'.sorted_subset (h.sorted_subset hx)
  keeps_stack := fun x hx hx3 =>
    h.keeps_stack x hx (h'.keeps_stack x (h.visiting_eq.symm ▸ hx) hx3)

variable {fuel : ℕ} {st : Search}

lemma visits_spec (hv : ∀ id st st', r.visit fuel id st = .ok st' → r.SearchOk st →
      r.SearchOk st' ∧ Grows st st' ∧ id ∈ st'.sorted) {l : List String} {st' : Search}
    (h : l.foldlM (fun st id => r.visit fuel id st) st = .ok st') (hst : r.SearchOk st) :
    r.SearchOk st' ∧ Grows st st' ∧ ∀ id ∈ l, id ∈ st'.sorted := by
  induction l generalizing st with
  | nil =>
    cases h
    exact ⟨hst, .refl _, by simp⟩
  | cons id l ih =>
    rw [foldlM_cons] at h
    obtain ⟨st1, h1, h⟩ := bind_eq_ok.mp h
    obtain ⟨hok1, hgrows1, hid⟩ := hv id st st1 h1 hst
    obtain ⟨hok, hgrows, hl⟩ := ih h hok1
    exact ⟨hok, hgrows1.trans hgrows, forall_mem_cons.mpr ⟨hgrows.sorted_subset hid, hl⟩⟩

lemma visit_spec {st' : Search} (h : r.visit fuel id st = .ok st')
    (hst : r.SearchOk st) : r.SearchOk st' ∧ Grows st st' ∧ id ∈ st'.sorted := by
  induction fuel generalizing id st st' with
  | zero => cases h
  | succ fuel ih =>
    rw [visit] at h
    split_ifs at h with hvisited hvisiting
    · cases h
      exact ⟨hst, .refl _, (hst.mem_visited id).mp hvisited⟩
    cases hget : r.get id with
    | none => simp [hget] at h
    | some m =>
      simp only [hget] at h
      obtain ⟨st1, hloop, h⟩ := bind_eq_ok.mp h
      cases h
      obtain ⟨hok, hgrows, hdeps⟩ := visits_spec (fun _ _ _ => ih) hloop
        { hst with }
      have hid : id ∉ st1.sorted := fun hid =>
        hvisited ((hst.mem_visited id).mpr (hgrows.keeps_stack id (by simp) hid))
      refine ⟨⟨?_, ?_, ?_, ?_⟩, ⟨?_, ?_, ?_⟩, by simp⟩
      · intro x
        simp [hok.mem_visited x, or_comm]
      · simpa using List.Nodup.concat hid hok.nodup
      · exact hok.ordered.snoc (by rwa [deps_of_get hget])
      · have hmem : id ∈ r.ids := mem_map.mpr ⟨m, get_eq_some hget⟩
        exact append_subset.mpr ⟨hok.sorted_subset, cons_subset.mpr ⟨hmem, nil_subset _⟩⟩
      · simp [hgrows.visiting_eq]
      · intro x hx
        exact mem_append_left _ (hgrows.sorted_subset hx)
      · intro x hx hx'
        rcases mem_append.mp hx' with hx' | hx'
        · exact hgrows.keeps_stack x (mem_cons_of_mem _ hx) hx'
        · exact absurd (mem_singleton.mp hx' ▸ hx) hvisiting

/-- What an error of a visit of `id` says about the modules. -/
def Cause (id : String) : ResolveError → Prop
  | .circular a => Relation.TransGen r.DependsOn a a
  | .unknown a => a ∉ r.ids ∧ (a = id ∨ ∃ b, r.DependsOn b a)
  | .depth => False

/-- The stack of a visit of `id`: registered modules that depend on `id`, with enough depth left
for the modules that are not on it. -/
structure Stack (r : Registry) (fuel : ℕ) (id : String) (visiting : List String) : Prop where
  nodup : visiting.Nodup
  subset : visiting ⊆ r.ids
  room : r.ids.length < fuel + visiting.length
  reaches : ∀ x ∈ visiting, Relation.TransGen r.DependsOn x id

variable {visiting : List String}

lemma Stack.push {d : String} (h : r.Stack (fuel + 1) id visiting) (hid : id ∉ visiting)
    (hget : r.get id = some m) (hd : d ∈ m.dependencies) : r.Stack fuel d (id :: visiting) := by
  obtain ⟨hm, hmid⟩ := get_eq_some hget
  have hdep : r.DependsOn id d := ⟨m, hm, hmid, hd⟩
  refine ⟨nodup_cons.mpr ⟨hid, h.nodup⟩, ?_, ?_, ?_⟩
  · exact cons_subset.mpr ⟨mem_map.mpr ⟨m, hm, hmid⟩, h.subset⟩
  · have := h.room
    simp only [length_cons]
    omega
  · exact forall_mem_cons.mpr ⟨.single hdep, fun x hx => (h.reaches x hx).tail hdep⟩

lemma Stack.fuel_ne_zero : ¬ r.Stack 0 id visiting := by
  intro h
  have hlen := (subperm_of_subset h.nodup h.subset).length_le
  have hroom := h.room
  omega

variable {err : ResolveError}

lemma visits_error {l : List String}
    (h : l.foldlM (fun st id => r.visit fuel id st) st = .error err) (hst : r.SearchOk st) :
    ∃ id ∈ l, ∃ st1, r.SearchOk st1 ∧ st1.visiting = st.visiting ∧
      r.visit fuel id st1 = .error err := by
  induction l generalizing st with
  | nil => cases h
  | cons id l ih =>
    rw [foldlM_cons] at h
    rcases bind_eq_error.mp h with h | ⟨st1, h1, h⟩
    · exact ⟨id, by simp, st, hst, rfl, h⟩
    · obtain ⟨hok, hgrows, -⟩ := visit_spec h1 hst
      obtain ⟨x, hx, st2, hok2, hvisiting, herr⟩ := ih h hok
      exact ⟨x, mem_cons_of_mem _ hx, st2, hok2, hvisiting.trans hgrows.visiting_eq, herr⟩

lemma visit_error (h : r.visit fuel id st = .error err) (hst : r.SearchOk st)
    (hstack : r.Stack fuel id st.visiting) : r.Cause id err := by
  induction fuel generalizing id st with
  | zero => exact absurd hstack Stack.fuel_ne_zero
  | succ fuel ih =>
    rw [visit] at h
    split_ifs at h with hvisited hvisiting
    · cases h
      exact hstack.reaches id hvisiting
    cases hget : r.get id with
    | none =>
      simp only [hget] at h
      cases h
      exact ⟨get_eq_none.mp hget, .inl rfl⟩
    | some m =>
      simp only [hget] at h
      rcases bind_eq_error.mp h with hloop | ⟨st1, -, h⟩
      · obtain ⟨d, hd, st1, hok, hst1, herr⟩ := visits_error hloop
          { hst with }
        have hcause := ih herr hok (hst1 ▸ hstack.push hvisiting hget hd)
        cases err with
        | circular a => exact hcause
        | depth => exact hcause
        | unknown a =>
          refine ⟨hcause.1, .inr ?_⟩
          rcases hcause.2 with rfl | hb
          · exact ⟨id, m, (get_eq_some hget).1, (get_eq_some hget).2, hd⟩
          · exact hb
      · cases h

/-! ## Resolve -/

lemma searchOk_empty : r.SearchOk ⟨[], [], []⟩ :=
  ⟨by simp, nodup_nil, .nil, by simp⟩

/-- A registry that the calls can build: every id is registered once, and the order is a
dependency order of registered modules. -/
structure Valid (r : Registry) : Prop where
  ids_nodup : r.ids.Nodup
  order_nodup : r.order.Nodup
  order_subset : r.order ⊆ r.ids
  ordered : Ordered r.deps r.order

lemma valid_newRegistry : newRegistry.Valid :=
  ⟨nodup_nil, nodup_nil, by simp [newRegistry], .nil⟩

lemma resolve_modules (iter : List String) : (r.resolve iter).1.modules = r.modules := by
  unfold resolve
  split <;> rfl

lemma resolve_of_error (iter : List String) (h : (r.resolve iter).2 ≠ none) :
    (r.resolve iter).1 = r := by
  unfold resolve at h ⊢
  split <;> simp_all

lemma resolve_order (h : (r.resolve iter).2 = none) :
    (r.resolve iter).1.order.Nodup ∧ (r.resolve iter).1.order ⊆ r.ids ∧
      Ordered r.deps (r.resolve iter).1.order ∧ iter ⊆ (r.resolve iter).1.order := by
  unfold resolve at h ⊢
  split at h
  next st hst =>
    obtain ⟨hok, -, hall⟩ := visits_spec (fun _ _ _ => visit_spec) hst r.searchOk_empty
    exact ⟨hok.nodup, hok.sorted_subset, hok.ordered, hall⟩
  next => cases h

lemma resolve_cause (hiter : iter ⊆ r.ids)
    (h : (r.resolve iter).2 = some err) : ∃ id ∈ r.ids, r.Cause id err := by
  unfold resolve at h
  split at h
  next => cases h
  next err' herr =>
    cases h
    obtain ⟨id, hid, st, hok, hst, hvisit⟩ := visits_error herr r.searchOk_empty
    refine ⟨id, hiter hid, visit_error hvisit hok ?_⟩
    rw [hst]
    exact ⟨nodup_nil, by simp, by simp [ids], by simp⟩

lemma valid_register (h : r.Valid) (m : Module) : (r.register m).1.Valid := by
  unfold register
  split_ifs with hget
  · exact h
  have hm : m.id ∉ r.ids := get_eq_none.mp (by simpa using hget)
  have hdeps : ∀ x ∈ r.order, Registry.deps ⟨r.modules ++ [m], r.order⟩ x = r.deps x := by
    intro x hx
    have hne : m.id ≠ x := fun hne => hm (hne ▸ h.order_subset hx)
    simp [deps, get, find?_append, hne]
  refine ⟨?_, h.order_nodup, ?_, h.ordered.congr hdeps⟩
  · simpa [ids] using List.Nodup.concat hm h.ids_nodup
  · intro x hx
    simpa [ids] using Or.inl (h.order_subset hx)

lemma valid_resolve (h : r.Valid) (iter : List String) : (r.resolve iter).1.Valid := by
  by_cases hres : (r.resolve iter).2 = none
  · obtain ⟨hnodup, hsubset, hordered, -⟩ := resolve_order hres
    have hids : (r.resolve iter).1.ids = r.ids := by rw [ids, resolve_modules, ids]
    have hdeps : (r.resolve iter).1.deps = r.deps := by
      funext x
      rw [deps, get, resolve_modules, deps, get]
    exact ⟨hids ▸ h.ids_nodup, hnodup, hids ▸ hsubset, hdeps ▸ hordered⟩
  · rwa [resolve_of_error iter hres]

lemma valid_of_run {as : List RegistryAction}
    (h : StepMachine.run registryStep newRegistry as = some r) : r.Valid := by
  refine StepMachine.invariant_of_run (I := Valid) ?_ valid_newRegistry h
  intro r a r' hr hstep
  cases a with
  | register m =>
    cases hstep
    exact valid_register hr m
  | resolve iter =>
    obtain ⟨-, hstep⟩ := Option.ite_none_right_eq_some.mp hstep
    cases hstep
    exact valid_resolve hr iter

/-- `Resolve` succeeds exactly when every dependency is registered and none is circular. -/
lemma resolve_eq_none_iff (hr : r.ids.Nodup) (hiter : iter.Perm r.ids) :
    (r.resolve iter).2 = none ↔ r.Closed ∧ r.Acyclic := by
  have hrel : r.DependsOn = fun a b => b ∈ r.deps a := by
    funext a b
    exact propext (dependsOn_iff hr a b)
  constructor
  · intro h
    obtain ⟨-, hsubset, hordered, hall⟩ := resolve_order h
    have hmem : ∀ x, x ∈ r.ids → x ∈ (r.resolve iter).1.order := fun x hx =>
      hall (hiter.mem_iff.mpr hx)
    refine ⟨fun m hm d hd => ?_, fun a ha => ?_⟩
    · have hd' : d ∈ r.deps m.id := by rwa [deps_of_get (get_of_mem hr hm)]
      exact hsubset (hordered.mem (hmem _ (mem_map_of_mem hm)) hd')
    · obtain ⟨b, ⟨m, hm, rfl, -⟩, -⟩ := Relation.TransGen.head'_iff.mp ha
      exact hordered.not_transGen (hmem _ (mem_map_of_mem hm)) (hrel ▸ ha)
  · rintro ⟨hclosed, hacyclic⟩
    by_contra hne
    obtain ⟨err, herr⟩ := Option.ne_none_iff_exists'.mp hne
    obtain ⟨id, hid, hcause⟩ := resolve_cause (fun x => hiter.mem_iff.mp) herr
    cases err with
    | circular a => exact hacyclic a hcause
    | depth => exact hcause
    | unknown a =>
      rcases hcause with ⟨ha, rfl | ⟨b, m, hm, -, hd⟩⟩
      · exact ha hid
      · exact ha (hclosed m hm a hd)

lemma stopAll_trace (stop : String → Option String) : (r.stopAll stop).1 = r.order.reverse := by
  have hloop : ∀ (l trace : List String) (firstErr : Option String),
      (l.foldl (fun (stopped, firstErr) id =>
        (stopped ++ [id],
          match stop id, firstErr with
          | some err, none => some ("stop " ++ id ++ ": " ++ err)
          | _, _ => firstErr)) (trace, firstErr)).1 = trace ++ l := by
    intro l
    induction l with
    | nil => simp
    | cons id l ih =>
      intro trace firstErr
      rw [foldl_cons, ih, append_assoc, singleton_append]
  exact hloop _ _ _

lemma stopAll_precedes (hr : r.Valid) (stop : String → Option String) (hm : m ∈ r.modules)
    (horder : m.id ∈ r.order) {d : String} (hd : d ∈ m.dependencies) :
    Precedes (r.stopAll stop).1 m.id d := by
  rw [stopAll_trace]
  refine (hr.ordered.precedes horder ?_).reverse
  rwa [deps_of_get (get_of_mem hr.ids_nodup hm)]

end Registry

/-- **The registry resolves.** However it was built and the map is iterated, `Resolve` succeeds
exactly on registered, acyclic dependencies. On success the order holds every module once, behind
its dependencies, and `StopAll` stops each once, before its dependencies, also between two calls of
`Resolve`; a failed `Resolve` changes nothing. -/
theorem registry_resolves {as : List RegistryAction} {r : Registry}
    (h : StepMachine.run registryStep newRegistry as = some r) (hiter : iter.Perm r.ids)
    (stop : String → Option String) : ((r.resolve iter).2 = none ↔ r.Closed ∧ r.Acyclic) ∧
    ((r.resolve iter).2 = none →
      (r.resolve iter).1.order.Perm r.ids ∧
      ((r.resolve iter).1.stopAll stop).1.Perm r.ids ∧
      ∀ m ∈ r.modules, ∀ d ∈ m.dependencies,
        Precedes (r.resolve iter).1.order d m.id ∧
        Precedes ((r.resolve iter).1.stopAll stop).1 m.id d) ∧
    ((r.resolve iter).2 ≠ none → (r.resolve iter).1 = r) ∧
    ((r.stopAll stop).1.Nodup ∧
      ∀ m ∈ r.modules, m.id ∈ r.order → ∀ d ∈ m.dependencies,
        Precedes (r.stopAll stop).1 m.id d) := by
  have hr := Registry.valid_of_run h
  refine ⟨Registry.resolve_eq_none_iff hr.ids_nodup hiter, ?_, Registry.resolve_of_error iter,
    ?_, ?_⟩
  · intro hres
    obtain ⟨hnodup, hsubset, hordered, hall⟩ := Registry.resolve_order hres
    have hperm : (r.resolve iter).1.order.Perm r.ids := by
      refine (perm_ext_iff_of_nodup hnodup hr.ids_nodup).mpr fun x => ?_
      exact ⟨fun hx => hsubset hx, fun hx => hall (hiter.mem_iff.mpr hx)⟩
    refine ⟨hperm, ?_, ?_⟩
    · rw [Registry.stopAll_trace]
      exact (reverse_perm _).trans hperm
    intro m hm d hd
    have hmem : m.id ∈ (r.resolve iter).1.order :=
      hperm.mem_iff.mpr (mem_map_of_mem hm)
    refine ⟨hordered.precedes hmem ?_, ?_⟩
    · rwa [Registry.deps_of_get (Registry.get_of_mem hr.ids_nodup hm)]
    · have hm' : m ∈ (r.resolve iter).1.modules := by rwa [Registry.resolve_modules]
      exact Registry.stopAll_precedes (Registry.valid_resolve hr iter) stop hm' hmem hd
  · rw [Registry.stopAll_trace]
    exact nodup_reverse.mpr hr.order_nodup
  · intro m hm horder d hd
    exact Registry.stopAll_precedes hr stop hm horder hd

/-- Three modules of the program, registered dependents first and resolved once. -/
def bootModules : List RegistryAction :=
  [.register ⟨"cron", ["core.db", "deploy"]⟩, .register ⟨"deploy", ["core.db"]⟩,
    .register ⟨"core.db", []⟩, .resolve ["deploy", "core.db", "cron"]]

def bootRegistry : Registry :=
  ⟨[⟨"cron", ["core.db", "deploy"]⟩, ⟨"deploy", ["core.db"]⟩, ⟨"core.db", []⟩],
    ["core.db", "deploy", "cron"]⟩

theorem registry_resolves_bootModules :
    StepMachine.run registryStep newRegistry bootModules = some bootRegistry ∧
      (bootRegistry.resolve ["cron", "core.db", "deploy"]).2 = none ∧
      bootRegistry.Closed ∧ bootRegistry.Acyclic := by
  have hrun : StepMachine.run registryStep newRegistry bootModules = some bootRegistry := by decide
  have hres := registry_resolves hrun
    (show ["cron", "core.db", "deploy"].Perm bootRegistry.ids from by decide) fun _ => none
  have hnone : (bootRegistry.resolve ["cron", "core.db", "deploy"]).2 = none := by decide
  exact ⟨hrun, hnone, hres.1.mp hnone⟩

end DeployMonster.Core
