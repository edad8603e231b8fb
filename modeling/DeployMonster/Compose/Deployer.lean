import DeployMonster.Core.Text
import DeployMonster.Library.DependencyOrder
import DeployMonster.Library.Dict
import DeployMonster.Library.Program

/-!
# Compose files

A compose file as far as the deployer reads it, and the order in which its services are deployed: a
depth-first search through what they depend on.
-/

namespace DeployMonster.Compose

open List DependencyOrder Relation

/-- An item of a list in the file. -/
inductive Item
  | text (s : String)
  | int (n : ℤ)
  | bool (b : Bool)
  /-- Any other item, as it is printed. -/
  | other (printed : String)

/-- `fmt.Sprintf` with the verb `%v`. -/
def Item.sprintf : Item → String
  | .text s => s
  | .int n => toString n
  | .bool b => toString b
  | .other printed => printed

/-- What stands under `depends_on`: nothing, a list, a map in the order of its iteration, or something
else. -/
inductive DependsOn
  | absent
  | list (items : List Item)
  | map (entries : List (String × Item))
  | other

def parseDependsOn : DependsOn → List String
  | .list items => items.foldl (fun deps item => deps ++ [item.sprintf]) []
  | .map entries => entries.foldl (fun deps entry => deps ++ [entry.1]) []
  | .absent | .other => []

/-- The file names a dependency: as an item of the list, or as a key of the map. -/
inductive DependsOn.Names : DependsOn → String → Prop
  | item {items : List Item} {item : Item} (h : item ∈ items) : Names (.list items) item.sprintf
  | key {entries : List (String × Item)} {key : String} {value : Item}
      (h : (key, value) ∈ entries) : Names (.map entries) key

lemma foldl_append_singleton {α : Type*} (f : α → String) (l : List α) (deps : List String) :
    l.foldl (fun deps x => deps ++ [f x]) deps = deps ++ l.map f := by
  induction l generalizing deps with
  | nil => exact (append_nil deps).symm
  | cons x l ih => rw [foldl_cons, ih, append_assoc, map_cons, singleton_append]

lemma mem_parseDependsOn {dep : DependsOn} {name : String} :
    name ∈ parseDependsOn dep ↔ dep.Names name := by
  cases dep with
  | list items =>
    rw [parseDependsOn, foldl_append_singleton, nil_append, mem_map]
    constructor
    · rintro ⟨item, hitem, rfl⟩
      exact .item hitem
    · rintro ⟨hitem⟩
      exact ⟨_, hitem, rfl⟩
  | map entries =>
    rw [parseDependsOn, foldl_append_singleton, nil_append, mem_map]
    constructor
    · rintro ⟨entry, hentry, rfl⟩
      exact .key hentry
    · rintro ⟨⟩
      case key value hentry => exact ⟨_, hentry, rfl⟩
  | absent | other => exact iff_of_false not_mem_nil (by rintro ⟨⟩)

/-- The limits under `deploy`, `resources`. -/
structure Limits where
  (memory cpus : String)

/-- `ServiceConfig`, with the environment that the parser has resolved. -/
structure ServiceConfig where
  image : String := ""
  build : Bool := false
  dependsOn : DependsOn := .absent
  labels : Dict String String := .empty
  restart : String := ""
  limits : Option Limits := none
  resolvedEnv : Dict String String := .empty

/-- `ComposeFile`. The services are in the order of the iteration over their map; one that stands there
without a body is nil. -/
structure ComposeFile where
  services : Dict String (Option ServiceConfig)

/-- The variables of the search. -/
structure Search where
  (visited order : List String)

namespace ComposeFile

variable (cf : ComposeFile)

def service? (name : String) : Option ServiceConfig := (cf.services.get? name).join

def names : List String := cf.services.rows.map Prod.fst

def dependencies (name : String) : List String :=
  match cf.service? name with
  | some svc => parseDependsOn svc.dependsOn
  | none => []

/-- The closure `visit` of `DependencyOrder`, with a bound on the depth of the recursion. -/
def visit (cf : ComposeFile) : ℕ → String → Search → Option Search
  | 0, _, _ => none
  | depth + 1, name, s =>
    if name ∈ s.visited then some s
    else
      ((cf.dependencies name).foldlM (fun s dep => cf.visit depth dep s)
        { s with visited := name :: s.visited }).map
          fun s => { s with order := s.order ++ [name] }

/-- The loop of `DependencyOrder`. The stack of visits holds each service once, and at its end perhaps a
name that is no service or has been visited. -/
def search (cf : ComposeFile) : Option Search :=
  cf.names.foldlM (fun s name => cf.visit (cf.names.length + 2) name s) ⟨[], []⟩

def dependencyOrder : List String := (cf.search.map Search.order).getD []

variable {cf : ComposeFile} {s s' : Search} {name : String}

def unvisited (s : Search) : ℕ := (cf.names.toFinset \ s.visited.toFinset).card

lemma unvisited_mono (h : s.visited ⊆ s'.visited) : cf.unvisited s' ≤ cf.unvisited s := by
  refine Finset.card_le_card (Finset.sdiff_subset_sdiff subset_rfl fun x hx => ?_)
  exact mem_toFinset.mpr (h (mem_toFinset.mp hx))

lemma unvisited_cons (hname : name ∈ cf.names) (hnew : name ∉ s.visited) :
    cf.unvisited { s with visited := name :: s.visited } < cf.unvisited s := by
  rw [unvisited, toFinset_cons, Finset.sdiff_insert]
  exact Finset.card_erase_lt_of_mem (by simp [hname, hnew])

lemma mem_names_of_dependencies (h : cf.dependencies name ≠ []) : name ∈ cf.names := by
  unfold dependencies at h
  split at h
  case h_1 svc hsvc =>
    have hentry := Option.join_eq_some_iff.mp hsvc
    exact mem_map.mpr ⟨_, Dict.get?_eq_some_iff.mp hentry, rfl⟩
  case h_2 => exact absurd rfl h

/-- The file says of the first service that it depends on the second. -/
def DependsOn (cf : ComposeFile) (a b : String) : Prop :=
  ∃ svc, (a, some svc) ∈ cf.services.rows ∧ svc.dependsOn.Names b

/-- A visit of the first name visits the second. -/
def Needs (cf : ComposeFile) (a b : String) : Prop := b ∈ cf.dependencies a

lemma dependsOn_eq_needs (cf : ComposeFile) : cf.DependsOn = cf.Needs := by
  funext a b
  refine propext ?_
  have hsvc (svc : ServiceConfig) : (a, some svc) ∈ cf.services.rows ↔ cf.service? a = some svc := by
    rw [service?, Option.join_eq_some_iff, Dict.get?_eq_some_iff]
  simp only [DependsOn, hsvc, Needs, dependencies]
  cases cf.service? a with
  | none => simp
  | some svc => simp [mem_parseDependsOn]

def Reached (cf : ComposeFile) (x : String) : Prop := ∃ root ∈ cf.names, ReflTransGen cf.Needs root x

/-- In the course of the search, with the stack of visits: a dependency of a name in the order comes
before it, or leads back to it. -/
structure Searching (cf : ComposeFile) (stack : List String) (s : Search) : Prop where
  nodup : s.order.Nodup
  visited : ∀ x, x ∈ s.visited ↔ x ∈ s.order ∨ x ∈ stack
  apart : ∀ x ∈ stack, x ∉ s.order
  reached : ∀ x ∈ s.order, cf.Reached x
  before : ∀ x ∈ s.order, ∀ d ∈ cf.dependencies x,
    Precedes s.order d x ∨ d ∈ s.visited ∧ ReflTransGen cf.Needs d x

variable {stack : List String}

lemma Searching.enter (h : cf.Searching stack s) (hnew : name ∉ s.visited) :
    cf.Searching (name :: stack) { s with visited := name :: s.visited } where
  nodup := h.nodup
  visited x := by
    rw [mem_cons, mem_cons, h.visited]
    exact or_left_comm
  apart := forall_mem_cons.mpr ⟨fun hs => hnew ((h.visited name).mpr (.inl hs)), h.apart⟩
  reached := h.reached
  before x hx d hd := (h.before x hx d hd).imp_right fun ⟨hs, hback⟩ => ⟨mem_cons_of_mem _ hs, hback⟩

lemma Searching.leave (h : cf.Searching (name :: stack) s) (hreached : cf.Reached name)
    (hstack : ∀ x ∈ stack, x ≠ name ∧ ReflTransGen cf.Needs x name)
    (hdeps : ∀ d ∈ cf.dependencies name, d ∈ s.visited) :
    cf.Searching stack { s with order := s.order ++ [name] } where
  nodup := h.nodup.append (nodup_singleton _) fun x hx hname =>
    h.apart name mem_cons_self (mem_singleton.mp hname ▸ hx)
  visited x := by rw [h.visited, mem_append, mem_singleton, mem_cons, or_assoc]
  apart x hx hs := by
    rcases mem_append.mp hs with hs | hname
    · exact h.apart x (mem_cons_of_mem _ hx) hs
    · exact (hstack x hx).1 (mem_singleton.mp hname)
  reached := forall_mem_append.mpr ⟨h.reached, forall_mem_singleton.mpr hreached⟩
  before := by
    refine forall_mem_append.mpr ⟨fun x hx d hd => ?_, forall_mem_singleton.mpr fun d hd => ?_⟩
    · exact (h.before x hx d hd).imp_left fun hbefore => hbefore.trans (sublist_append_left _ _)
    · rcases (h.visited d).mp (hdeps d hd) with hs | hs
      · exact .inl ((singleton_sublist.mpr hs).append (Sublist.refl [name]))
      · refine .inr ⟨hdeps d hd, ?_⟩
        rcases mem_cons.mp hs with rfl | hs
        · exact .refl
        · exact (hstack d hs).2

/-- What a visit of the names finds, when the stack leads to all of them. -/
def Visits (cf : ComposeFile) (names : List String) (s : Search) (result : Option Search) : Prop :=
  ∀ stack, cf.Searching stack s →
    (∀ x ∈ names, cf.Reached x ∧ ∀ y ∈ stack, ReflTransGen cf.Needs y x) →
    ∃ s', result = some s' ∧ cf.Searching stack s' ∧ s.visited ⊆ s'.visited ∧ names ⊆ s'.visited

lemma foldlM_visit {depth : ℕ}
    (hvisit : ∀ name s, cf.unvisited s + 2 ≤ depth → cf.Visits [name] s (cf.visit depth name s))
    (names : List String) (s : Search) (hs : names ≠ [] → cf.unvisited s + 2 ≤ depth) :
    cf.Visits names s (names.foldlM (fun s name => cf.visit depth name s) s) := by
  induction names generalizing s with
  | nil => exact fun stack h _ => ⟨s, rfl, h, fun _ => id, nofun⟩
  | cons name names ih =>
    intro stack h hnames
    obtain ⟨hname, hnames⟩ := forall_mem_cons.mp hnames
    obtain ⟨s1, hs1, h1, hsub1, hmem⟩ :=
      hvisit name s (hs nofun) stack h (forall_mem_singleton.mpr hname)
    have hmono := cf.unvisited_mono hsub1
    obtain ⟨s2, hs2, h2, hsub2, hmem2⟩ :=
      ih s1 (fun _ => (Nat.add_le_add_right hmono 2).trans (hs nofun)) stack h1 hnames
    refine ⟨s2, ?_, h2, List.Subset.trans hsub1 hsub2,
      cons_subset.mpr ⟨hsub2 (hmem mem_cons_self), hmem2⟩⟩
    rw [foldlM_cons, hs1]
    exact hs2

lemma visits_visit (depth : ℕ) (name : String) (s : Search) (hs : cf.unvisited s + 2 ≤ depth) :
    cf.Visits [name] s (cf.visit depth name s) := by
  induction depth generalizing name s with
  | zero => omega
  | succ depth ih =>
    intro stack h hname
    obtain ⟨hreached, hstack⟩ := hname name mem_cons_self
    unfold visit
    split
    case isTrue hold => exact ⟨s, rfl, h, fun _ => id, forall_mem_singleton.mpr hold⟩
    case isFalse hnew =>
      have hroom (hdeps : cf.dependencies name ≠ []) :=
        unvisited_cons (mem_names_of_dependencies hdeps) hnew
      have hnext (d : String) (hd : d ∈ cf.dependencies name) :
          cf.Reached d ∧ ∀ y ∈ name :: stack, ReflTransGen cf.Needs y d :=
        ⟨hreached.imp fun _ ⟨hroot, hreach⟩ => ⟨hroot, hreach.tail hd⟩,
          forall_mem_cons.mpr ⟨.single hd, fun y hy => (hstack y hy).tail hd⟩⟩
      obtain ⟨s', hs', h', hsub, hdeps⟩ := foldlM_visit ih (cf.dependencies name) _
        (fun hdeps => by have := hroom hdeps; omega) _ (h.enter hnew) hnext
      rw [hs']
      refine ⟨_, rfl, h'.leave hreached (fun x hx => ⟨?_, hstack x hx⟩) hdeps,
        fun _ hx => hsub (mem_cons_of_mem _ hx), forall_mem_singleton.mpr (hsub mem_cons_self)⟩
      rintro rfl
      exact hnew ((h.visited x).mpr (.inr hx))

end ComposeFile

/-!
# The deployer of compose stacks

`internal/compose/deployer.go`. The labels of a container are entries of one map, so a label of the
compose file replaces the one of the platform.
-/

open Program Text Option Dict

structure HTTPRoute where
  (serviceName fqdn : String)
  port : ℤ

structure DeployOpts where
  (appID tenantID stackName : String)
  compose : ComposeFile
  envVars : Dict String String := .empty
  httpRoutes : List HTTPRoute := []

/-- The fields of `ContainerOpts` that the deployer sets. -/
structure ContainerOpts where
  (name image : String)
  env : List String
  labels : Dict String String
  network : String
  (cpuQuota memoryMB : ℤ)
  restartPolicy : String

/-- What the deployer computes with floating point numbers and with the tables of Unicode. -/
structure Conversions where
  toLower : Char → Char
  (parseMemory parseCPUs : String → ℤ)

/-- The loop of `labelName`: a run of other characters becomes a dash. -/
def dashed : Bool → List Char → List Char
  | _, [] => []
  | lastDash, r :: rs =>
    if ('a' ≤ r ∧ r ≤ 'z') ∨ ('0' ≤ r ∧ r ≤ '9') then r :: dashed false rs
    else if lastDash then dashed true rs
    else '-' :: dashed true rs

variable (conv : Conversions) (opts : DeployOpts) (svcName : String) (svc : ServiceConfig)

def labelName (s : String) : String :=
  let text := dashed false ((trimSpace s).toList.map conv.toLower)
  let out := ((text.dropWhile (· = '-')).reverse.dropWhile (· = '-')).reverse
  if out = [] then "route" else String.ofList out

def identityLabels : List (String × String) :=
  [("monster.enable", "true"), ("monster.app.id", opts.appID), ("monster.stack", opts.stackName),
    ("monster.tenant", opts.tenantID)]

def platformLabels : Dict String String :=
  setAll .empty (identityLabels opts ++ [("monster.stack.service", svcName)])

def routeLabels : List (String × String) :=
  (opts.httpRoutes.filter fun route =>
    ¬(route.serviceName ≠ svcName ∨ route.fqdn = "" ∨ route.port ≤ 0)).flatMap fun route =>
      let routeName := labelName conv (opts.stackName ++ "-" ++ svcName)
      [("monster.http.routers." ++ routeName ++ ".rule", "Host(`" ++ route.fqdn ++ "`)"),
        ("monster.http.services." ++ routeName ++ ".loadbalancer.server.port", toString route.port)]

def serviceLabels : Dict String String :=
  ((platformLabels opts svcName).setAll svc.labels.rows).setAll (routeLabels conv opts svcName)

/-- The options that `deployService` gives to `CreateAndStart`. -/
def serviceContainer (network : String) : ContainerOpts where
  name := "monster-" ++ opts.stackName ++ "-" ++ svcName
  image := svc.image
  env := (opts.envVars.rows ++ svc.resolvedEnv.rows).map fun (k, v) => k ++ "=" ++ v
  labels := serviceLabels conv opts svcName svc
  network
  cpuQuota := match svc.limits with
    | some limits => if limits.cpus = "" then 0 else conv.parseCPUs limits.cpus
    | none => 0
  memoryMB := match svc.limits with
    | some limits => if limits.memory = "" then 0 else conv.parseMemory limits.memory
    | none => 0
  restartPolicy := if svc.restart = "" then "unless-stopped" else svc.restart

inductive StackCall
  | ensureNetwork (name : String)
  | createAndStart (opts : ContainerOpts)
  | stop (containerID : String) (timeoutSec : ℕ)
  | remove (containerID : String) (force : Bool)

@[reducible] def StackAnswer : StackCall → Type
  | .createAndStart _ => Except String String
  | .ensureNetwork _ | .stop _ _ | .remove _ _ => Except String Unit

/-- What a deployment has started, and what it has removed again. -/
structure StackWorld where
  started : List ContainerOpts := []
  removed : List String := []

/-- How a call ends. One that creates a container may fail when the container has started. -/
structure StackChoice where
  fails : Option String := none
  started : Bool := true
  containerID : String := ""

def stackExec : (c : StackCall) → StackWorld → StackChoice → Option (StackAnswer c × StackWorld)
  | .ensureNetwork _, w, o | .stop _ _, w, o => attempt o.fails w () w
  | .createAndStart opts, w, o =>
    let w' := { w with started := w.started ++ [opts] }
    attempt o.fails (if o.started then w' else w) o.containerID w'
  | .remove containerID _, w, o =>
    attempt o.fails w () { w with removed := w.removed ++ [containerID] }

abbrev StackM := Prog StackCall StackAnswer

def call (c : StackCall) : StackM (StackAnswer c) := Prog.perform c

def deployService (svcName : String) (svc : ServiceConfig) (network : String) :
    StackM (Except String String) :=
  if svc.image = "" then
    if svc.build then
      return .error ("service " ++ svcName ++ " has build: directive — build first, then deploy")
    else return .error ("service " ++ svcName ++ ": no image specified")
  else call (.createAndStart (serviceContainer conv opts svcName svc network))

def rollback : List String → StackM Unit
  | [] => return ()
  | id :: ids => do
    let _ ← call (.stop id 5)
    let _ ← call (.remove id true)
    rollback ids

def deployServices (network : String) : List String → List String → StackM (Except String Unit)
  | [], _ => return .ok ()
  | svcName :: order, created =>
    match opts.compose.service? svcName with
    | none => deployServices network order created
    | some svc => do
      match ← deployService conv opts svcName svc network with
      | .error e =>
        rollback created
        return .error ("deploy service " ++ svcName ++ ": " ++ e)
      | .ok containerID => deployServices network order (created ++ [containerID])

/-- The runtime of the deployer, which may or may not create networks. -/
structure StackRuntime where
  ensuresNetwork : Bool

def stackNetwork : String := "monster-" ++ opts.stackName ++ "-net"

def deploy (runtime : Option StackRuntime) : StackM (Except String Unit) :=
  let services := deployServices conv opts (stackNetwork opts) opts.compose.dependencyOrder []
  match runtime with
  | none => return .error "container runtime not available"
  | some runtime => do
    if runtime.ensuresNetwork then
      match ← call (.ensureNetwork (stackNetwork opts)) with
      | .error e => return .error ("create stack network: " ++ e)
      | .ok () => services
    else services

def Carries (opts : DeployOpts) (container : ContainerOpts) : Prop :=
  ∀ label ∈ identityLabels opts, container.labels.get? label.1 = some label.2
  deriving Decidable

/-- The service declares none of these labels with another value. -/
def Keeps (opts : DeployOpts) (svc : ServiceConfig) : Prop :=
  ∀ label ∈ identityLabels opts, ∀ declared ∈ svc.labels.rows,
    declared.1 = label.1 → declared.2 = label.2
  deriving Decidable

variable {conv : Conversions} {opts : DeployOpts} {svcName network : String} {svc : ServiceConfig}
  {label : String × String}

lemma key_of_mem_routeLabels (h : label ∈ routeLabels conv opts svcName) :
    label.1.toList.take 12 = "monster.http".toList := by
  obtain ⟨route, -, hlabel⟩ := mem_flatMap.mp h
  have hkey : ∀ pre suf : String, 12 ≤ pre.toList.length →
      (pre ++ labelName conv (opts.stackName ++ "-" ++ svcName) ++ suf).toList.take 12 =
        pre.toList.take 12 := by
    intro pre suf hlen
    rw [String.toList_append, String.toList_append, append_assoc, take_append_of_le_length hlen]
  simp only [mem_cons, not_mem_nil, or_false] at hlabel
  rcases hlabel with rfl | rfl <;> exact (hkey _ _ (by decide)).trans (by decide)

variable (h : label ∈ identityLabels opts)
include h

lemma key_of_mem_identityLabels :
    label.1.toList.take 12 ≠ "monster.http".toList := by
  have hkey : label.1 ∈ ["monster.enable", "monster.app.id", "monster.stack", "monster.tenant"] :=
    mem_map_of_mem h
  revert hkey
  generalize label.1 = key
  revert key
  decide

lemma get?_platformLabels :
    (platformLabels opts svcName).get? label.1 = some label.2 := by
  have hnodup : ((identityLabels opts ++ [("monster.stack.service", svcName)]).map Prod.fst).Nodup :=
    show ["monster.enable", "monster.app.id", "monster.stack", "monster.tenant",
      "monster.stack.service"].Nodup by decide
  exact get?_setAll_of_nodup _ hnodup (mem_append_left _ h)

lemma get?_serviceLabels :
    (serviceLabels conv opts svcName svc).get? label.1 =
      (svc.labels.get? label.1).or (some label.2) := by
  rw [serviceLabels, get?_setAll_of_ne, get?_setAll_rows, get?_platformLabels h]
  intro route hroute heq
  exact key_of_mem_identityLabels h (heq ▸ key_of_mem_routeLabels hroute)

omit h

/-- **A container carries the labels of the platform when its service keeps them.** -/
theorem carries_serviceContainer_iff :
    Carries opts (serviceContainer conv opts svcName svc network) ↔ Keeps opts svc := by
  refine forall₂_congr fun label hlabel => ?_
  show (serviceLabels conv opts svcName svc).get? label.1 = some label.2 ↔ _
  rw [get?_serviceLabels hlabel]
  cases hget : svc.labels.get? label.1 with
  | none =>
    refine iff_of_true rfl fun declared hdeclared hkey => ?_
    have hsome := get?_eq_some_iff.mpr hdeclared
    rw [hkey, hget] at hsome
    cases hsome
  | some value =>
    rw [some_or, some.injEq]
    constructor
    · rintro rfl declared hdeclared hkey
      have hsome := get?_eq_some_iff.mpr hdeclared
      rw [hkey, hget] at hsome
      exact (some.inj hsome).symm
    · exact fun hkeeps => hkeeps (label.1, value) (get?_eq_some_iff.mp hget) rfl

/-! ## The containers that are started -/

/-- The services that have their turn when no call fails: those in the order, up to the first without an
image. -/
def reachedIn (cf : ComposeFile) (order : List String) : List (String × ServiceConfig) :=
  (order.filterMap fun name => (cf.service? name).map (name, ·)).takeWhile (·.2.image ≠ "")

def reached (cf : ComposeFile) : List (String × ServiceConfig) := reachedIn cf cf.dependencyOrder

variable {order : List String}

lemma reachedIn_cons_none (h : opts.compose.service? svcName = none) :
    reachedIn opts.compose (svcName :: order) = reachedIn opts.compose order := by
  simp [reachedIn, h]

lemma reachedIn_cons_some (h : opts.compose.service? svcName = some svc) :
    reachedIn opts.compose (svcName :: order) =
      if svc.image = "" then [] else (svcName, svc) :: reachedIn opts.compose order := by
  by_cases himage : svc.image = "" <;> simp [reachedIn, h, himage]

def containerOf (conv : Conversions) (opts : DeployOpts) (network : String)
    (s : String × ServiceConfig) : ContainerOpts :=
  serviceContainer conv opts s.1 s.2 network

def CreatesOnly (containers : List ContainerOpts) : StackCall → Prop
  | .createAndStart container => container ∈ containers
  | _ => True

lemma createsOnly_rollback (containers : List ContainerOpts) (ids : List String) :
    AllCalls (CreatesOnly containers) (rollback ids) := by
  induction ids with
  | nil => trivial
  | cons id ids ih => exact ⟨trivial, fun _ => ⟨trivial, fun _ => ih⟩⟩

lemma deployService_of_noImage (h : svc.image = "") :
    ∃ e, deployService conv opts svcName svc network = return .error e := by
  rw [deployService, if_pos h]
  split <;> exact ⟨_, rfl⟩

/-- The loop creates the containers of the services that have their turn, and no others. -/
lemma createsOnly_deployServices (conv : Conversions) (opts : DeployOpts) (network : String)
    (order created : List String) :
    AllCalls (CreatesOnly ((reachedIn opts.compose order).map (containerOf conv opts network)))
      (deployServices conv opts network order created) := by
  induction order generalizing created with
  | nil => trivial
  | cons svcName order ih =>
    unfold deployServices
    split
    case h_1 hnone =>
      rw [reachedIn_cons_none hnone]
      exact ih created
    case h_2 svc hsvc =>
      rw [reachedIn_cons_some hsvc]
      by_cases himage : svc.image = ""
      · obtain ⟨e, he⟩ := deployService_of_noImage himage
        rw [he]
        exact (createsOnly_rollback _ _).bind fun _ => trivial
      rw [if_neg himage, deployService, if_neg himage]
      refine ⟨mem_cons_self, ?_⟩
      rintro (e | containerID)
      · exact (createsOnly_rollback _ _).bind fun _ => trivial
      refine (ih (created ++ [containerID])).mono fun c hc => ?_
      cases c with
      | createAndStart container => exact mem_cons_of_mem _ hc
      | _ => trivial

variable (runtime : Option StackRuntime)

lemma createsOnly_deploy :
    AllCalls (CreatesOnly ((reached opts.compose).map (containerOf conv opts (stackNetwork opts))))
      (deploy conv opts runtime) := by
  unfold deploy
  cases runtime with
  | none => trivial
  | some runtime =>
    have hservices := createsOnly_deployServices conv opts (stackNetwork opts)
      opts.compose.dependencyOrder []
    dsimp only
    split
    · refine ⟨trivial, ?_⟩
      rintro (e | ⟨⟩)
      · trivial
      · exact hservices
    · exact hservices

lemma started_of_stackExec {c : StackCall} {w w' : StackWorld} {o : StackChoice}
    {r : StackAnswer c} (h : stackExec c w o = some (r, w')) :
    w'.started = w.started ∨ ∃ container, c = .createAndStart container ∧
      w'.started = w.started ++ [container] := by
  cases c with
  | createAndStart container =>
    rcases attempt_eq_some h with ⟨e, -, -, hw⟩ | ⟨-, -, hw⟩
    · rw [hw]
      split
      · exact .inr ⟨container, rfl, rfl⟩
      · exact .inl rfl
    · rw [hw]
      exact .inr ⟨container, rfl, rfl⟩
  | _ =>
    rcases attempt_eq_some h with ⟨e, -, -, hw⟩ | ⟨-, -, hw⟩
    · rw [hw]
      exact .inl rfl
    · rw [hw]
      exact .inl rfl

lemma wp_deploy :
    Wp stackExec (deploy conv opts runtime) (fun _ w' => ∀ container ∈ w'.started,
      container ∈ (reached opts.compose).map (containerOf conv opts (stackNetwork opts))) {} := by
  refine (createsOnly_deploy runtime).wp (I := fun w : StackWorld => ∀ container ∈ w.started, _)
    ?_ (fun _ h => absurd h not_mem_nil)
  intro c w o r w' hc hw h
  rcases started_of_stackExec h with hstarted | ⟨container, rfl, hstarted⟩
  · rwa [hstarted]
  rw [hstarted]
  exact forall_mem_append.mpr ⟨hw, forall_mem_singleton.mpr hc⟩

/-! ## A deployment whose calls succeed -/

lemma may_call_ok {α : Type} {c : StackCall} {f : StackAnswer c → StackM α}
    {Q : α → StackWorld → Prop} {w w' : StackWorld} {r : StackAnswer c}
    (hexec : stackExec c w {} = some (r, w')) (hf : May stackExec (f r) Q w') :
    May stackExec (call c >>= f) Q w :=
  ⟨{}, r, w', hexec, hf⟩

lemma may_rollback (ids : List String) (w : StackWorld) :
    May stackExec (rollback ids) (fun _ w' => w'.started = w.started) w := by
  induction ids generalizing w with
  | nil => exact rfl
  | cons id ids ih =>
    have hids := ih { w with removed := w.removed ++ [id] }
    exact may_call_ok rfl (may_call_ok rfl hids)

lemma may_deployServices (conv : Conversions) (opts : DeployOpts) (network : String)
    (order created : List String) (w : StackWorld) :
    May stackExec (deployServices conv opts network order created) (fun _ w' =>
      w'.started = w.started ++
        (reachedIn opts.compose order).map (containerOf conv opts network)) w := by
  induction order generalizing created w with
  | nil => exact (append_nil _).symm
  | cons svcName order ih =>
    unfold deployServices
    split
    case h_1 hnone =>
      rw [reachedIn_cons_none hnone]
      exact ih created w
    case h_2 svc hsvc =>
      rw [reachedIn_cons_some hsvc]
      by_cases himage : svc.image = ""
      · obtain ⟨e, he⟩ := deployService_of_noImage himage
        rw [if_pos himage, he, map_nil, append_nil]
        exact (may_bind (rollback created) _ _ w).mpr (may_rollback created w)
      · rw [if_neg himage, deployService, if_neg himage]
        refine may_call_ok rfl ((ih (created ++ [""]) _).mono fun _ w' hw' => ?_)
        rw [hw', append_assoc]
        rfl

lemma may_deploy (runtime : StackRuntime) :
    May stackExec (deploy conv opts (some runtime)) (fun _ w' =>
      w'.started = (reached opts.compose).map (containerOf conv opts (stackNetwork opts))) {} := by
  have hservices := may_deployServices conv opts (stackNetwork opts)
    opts.compose.dependencyOrder [] {}
  unfold deploy
  dsimp only
  split
  · exact may_call_ok rfl hservices
  · exact hservices

/-- **The containers of a stack** all carry the labels of the platform, however the calls of the
runtime end, exactly when no service that has its turn declares one with another value. -/
theorem started_carry_iff (conv : Conversions) (opts : DeployOpts) (runtime : Option StackRuntime) :
    (∀ os result w', solo stackExec (deploy conv opts runtime) {} os = some (result, w') →
      ∀ container ∈ w'.started, Carries opts container) ↔
    (runtime.isSome → ∀ s ∈ reached opts.compose, Keeps opts s.2) := by
  constructor
  · intro hall hruntime s hs
    obtain ⟨runtime, rfl⟩ := isSome_iff_exists.mp hruntime
    obtain ⟨os, result, w', hsolo, hstarted⟩ := (may_deploy runtime).exists_solo
    have hmem : containerOf conv opts (stackNetwork opts) s ∈ w'.started := by
      rw [hstarted]
      exact mem_map_of_mem hs
    exact carries_serviceContainer_iff.mp (hall os result w' hsolo _ hmem)
  · intro hkeeps os result w' hsolo container hcontainer
    cases runtime with
    | none =>
      obtain ⟨-, rfl⟩ := eq_of_solo_ret hsolo
      exact absurd hcontainer not_mem_nil
    | some runtime =>
      have hreached := of_solo (wp_deploy (some runtime)) hsolo container hcontainer
      obtain ⟨s, hs, rfl⟩ := mem_map.mp hreached
      exact carries_serviceContainer_iff.mpr (hkeeps rfl s hs)

def acmeStack (labels : Dict String String) : DeployOpts where
  appID := "app1"
  tenantID := "acme"
  stackName := "shop"
  compose := { services := set .empty "web" (some { image := "nginx", labels }) }

def plainConversions : Conversions := ⟨Char.toLower, fun _ => 0, fun _ => 0⟩

theorem started_carry_iff_acmeStack :
    (reached (acmeStack (set .empty "team" "web")).compose).map Prod.fst = ["web"] ∧
    ∀ os result w', solo stackExec (deploy plainConversions
        (acmeStack (set .empty "team" "web")) (some ⟨true⟩)) {} os = some (result, w') →
      ∀ container ∈ w'.started, Carries (acmeStack (set .empty "team" "web")) container :=
  ⟨by decide, (started_carry_iff _ _ _).mpr fun _ => by decide⟩

/-- A compose file gives its container to another tenant. -/
theorem acmeStack_disowned : ∃ os result w', solo stackExec (deploy plainConversions
      (acmeStack (set .empty "monster.tenant" "globex")) (some ⟨true⟩)) {} os =
        some (result, w') ∧
    ∃ container ∈ w'.started, container.labels.get? "monster.tenant" = some "globex" ∧
      ¬Carries (acmeStack (set .empty "monster.tenant" "globex")) container := by
  obtain ⟨⟨result, w'⟩, hrun⟩ : ∃ x, solo stackExec (deploy plainConversions
      (acmeStack (set .empty "monster.tenant" "globex")) (some ⟨true⟩)) {} [{}, {}] = some x ∧
      ∃ container ∈ x.2.started, container.labels.get? "monster.tenant" = some "globex" ∧
        ¬Carries (acmeStack (set .empty "monster.tenant" "globex")) container := by decide
  exact ⟨_, result, w', hrun⟩

/-! ## The memory limit -/

/-- `strings.TrimRight`. -/
def trimRight (cutset s : List Char) : List Char := (s.reverse.dropWhile (· ∈ cutset)).reverse

/-- What the conversions of numbers come to in Go: what `Sscanf` reads by `%f` and by `%d`, and the
nearest `float64`, which is infinite where there is none. -/
structure GoNumbers where
  scanFloat : List Char → Option ℚ
  scanInt : List Char → Option ℤ
  roundFloat : ℚ → Option ℚ
  scanFloat_toDigits : ∀ n < 2 ^ 53, scanFloat (Nat.toDigits 10 n) = some (n : ℚ)
  scanInt_toDigits : ∀ n < 2 ^ 53, scanInt (Nat.toDigits 10 n) = some (n : ℤ)
  roundFloat_natCast : ∀ n : ℕ, n < 2 ^ 53 → roundFloat n = some (n : ℚ)

/-- The conversion of a `float64` to an `int64`; out of range it is the least one. -/
def truncInt64 : Option ℚ → ℤ
  | none => -2 ^ 63
  | some x =>
    let n := x.num.tdiv x.den
    if -2 ^ 63 ≤ n ∧ n < 2 ^ 63 then n else -2 ^ 63

def parseMemory (go : GoNumbers) (s : String) : ℤ :=
  let s := (trimSpace (String.ofList (s.toList.map Char.toLower))).toList
  if ['g'].isSuffixOf s ∨ ['g', 'b'].isSuffixOf s then
    match go.scanFloat (trimRight ['g', 'b'] s) with
    | none => 0
    | some val => truncInt64 (go.roundFloat (val * 1024))
  else if ['m'].isSuffixOf s ∨ ['m', 'b'].isSuffixOf s then
    (go.scanInt (trimRight ['m', 'b'] s)).getD 0
  else 0

/-- The units of a compose file, in bytes. -/
def composeUnits : List (List Char × ℕ) :=
  [([], 1), (['b'], 1), (['k'], 2 ^ 10), (['k', 'b'], 2 ^ 10), (['m'], 2 ^ 20), (['m', 'b'], 2 ^ 20),
    (['g'], 2 ^ 30), (['g', 'b'], 2 ^ 30)]

lemma digit_plain {c : Char} (h : c.isDigit) :
    c.toLower = c ∧ isSpace c = false ∧ c ∉ ['m', 'g', 'b'] := by
  obtain ⟨hlow, hhigh⟩ : 48 ≤ c.toNat ∧ c.toNat ≤ 57 := by
    simpa [Char.isDigit, UInt32.le_iff_toNat_le] using h
  rw [← Char.ofNat_toNat c]
  interval_cases c.toNat <;> decide

lemma truncInt64_natCast {n : ℕ} (h : n < 2 ^ 53) : truncInt64 (some (n : ℚ)) = n := by
  have htrunc : (n : ℚ).num.tdiv (n : ℚ).den = n := Int.tdiv_one _
  simp only [truncInt64, htrunc]
  exact if_pos ⟨by omega, by omega⟩

lemma GoNumbers.giga (go : GoNumbers) {amount : ℕ} (h : amount * 2 ^ 30 < 2 ^ 53) :
    truncInt64 (go.roundFloat ((amount : ℚ) * 1024)) = amount * 1024 := by
  have hsmall : amount * 1024 < 2 ^ 53 := (Nat.mul_le_mul_left amount (by norm_num)).trans_lt h
  rw [show (amount : ℚ) * 1024 = ((amount * 1024 : ℕ) : ℚ) by push_cast; rfl,
    go.roundFloat_natCast _ hsmall, truncInt64_natCast hsmall]
  push_cast
  rfl

/-- What `parseMemory` makes of a number with a unit. -/
lemma parseMemory_toDigits (go : GoNumbers) {amount bytes : ℕ} {unit : List Char}
    (hunit : (unit.map Char.toLower, bytes) ∈ composeUnits) (hlt : amount * bytes < 2 ^ 53) :
    parseMemory go (String.ofList (Nat.toDigits 10 amount ++ unit)) =
      if 2 ^ 20 ≤ bytes then ((amount * (bytes / 2 ^ 20) : ℕ) : ℤ) else 0 := by
  have hplain : ∀ c ∈ Nat.toDigits 10 amount, _ :=
    fun c hc => digit_plain (Nat.isDigit_of_mem_toDigits (by decide) (by decide) hc)
  have hne : Nat.toDigits 10 amount ≠ [] := Nat.toDigits_ne_nil
  have hfloat := go.scanFloat_toDigits amount
  have hint := go.scanInt_toDigits amount
  generalize Nat.toDigits 10 amount = digits at *
  have hlower : digits.map Char.toLower = digits :=
    (map_congr_left fun c hc => (hplain c hc).1).trans (map_id _)
  obtain ⟨first, rest, hfirst⟩ := exists_cons_of_ne_nil hne
  obtain ⟨last, front, hlast⟩ := exists_cons_of_ne_nil (reverse_ne_nil_iff.mpr hne)
  have hspace := (hplain first (hfirst ▸ mem_cons_self)).2.1
  have hspace' := (hplain last (mem_reverse.mp (hlast ▸ mem_cons_self))).2.1
  have hletter := (hplain last (mem_reverse.mp (hlast ▸ mem_cons_self))).2.2
  have hback : front.reverse ++ [last] = digits := by
    rw [← reverse_cons, ← hlast, reverse_reverse]
  have htrim : ∀ u ∈ composeUnits,
      (trimSpace (String.ofList (digits ++ u.1))).toList = digits ++ u.1 := by
    have : isSpace 'm' = false ∧ isSpace 'g' = false ∧ isSpace 'b' = false ∧ isSpace 'k' = false := by
      decide
    simp_all [composeUnits, trimSpace]
  rw [parseMemory, String.toList_ofList, map_append, hlower, htrim _ hunit]
  simp only [mem_cons, not_mem_nil, or_false, not_or] at hletter
  have hm : 'm' ≠ last := fun h => hletter.1 h.symm
  have hg : 'g' ≠ last := fun h => hletter.2.1 h.symm
  have hb : 'b' ≠ last := fun h => hletter.2.2 h.symm
  simp only [composeUnits, mem_cons, Prod.mk.injEq, not_mem_nil, or_false] at hunit
  rcases hunit with ⟨hu, rfl⟩ | ⟨hu, rfl⟩ | ⟨hu, rfl⟩ | ⟨hu, rfl⟩ | ⟨hu, rfl⟩ | ⟨hu, rfl⟩ | ⟨hu, rfl⟩ |
    ⟨hu, rfl⟩
  · simp [hu, isSuffixOf, hlast, hg, hm, hb]
  · simp [hu, isSuffixOf, hlast, hg, hm]
  · simp [hu, isSuffixOf]
  · simp [hu, isSuffixOf]
  · simp [hu, isSuffixOf, trimRight, hlast, hback, hletter, hint (by omega)]
  · simp [hu, isSuffixOf, trimRight, hlast, hback, hletter, hint (by omega)]
  · simp [hu, isSuffixOf, trimRight, hlast, hback, hletter, hfloat (by omega), go.giga hlt]
  · simp [hu, isSuffixOf, trimRight, hlast, hback, hletter, hfloat (by omega), go.giga hlt]

/-- **The memory limit** of the container is a positive number of megabytes, the declared one up to a
megabyte, exactly when it is declared in megabytes or gigabytes, in any letter case. -/
theorem memoryMB_iff (go : GoNumbers) {amount bytes : ℕ} {unit : List Char}
    (hunit : (unit.map Char.toLower, bytes) ∈ composeUnits) (hpos : 0 < amount)
    (hlt : amount * bytes < 2 ^ 53) (cpus : String) :
    let memoryMB := (serviceContainer { conv with parseMemory := parseMemory go } opts svcName
      { svc with limits := some ⟨String.ofList (Nat.toDigits 10 amount ++ unit), cpus⟩ }
      network).memoryMB
    (0 < memoryMB ∧ |2 ^ 20 * memoryMB - amount * bytes| < 2 ^ 20) ↔
      unit.map Char.toLower ∈ [['m'], ['m', 'b'], ['g'], ['g', 'b']] := by
  have hne : String.ofList (Nat.toDigits 10 amount ++ unit) ≠ "" := by
    simp [Nat.toDigits_ne_nil]
  have hunits : unit.map Char.toLower ∈ [['m'], ['m', 'b'], ['g'], ['g', 'b']] ↔ 2 ^ 20 ≤ bytes := by
    revert hunit
    generalize unit.map Char.toLower = u
    simp only [composeUnits, mem_cons, Prod.mk.injEq, not_mem_nil, or_false]
    rintro (⟨rfl, rfl⟩ | ⟨rfl, rfl⟩ | ⟨rfl, rfl⟩ | ⟨rfl, rfl⟩ | ⟨rfl, rfl⟩ | ⟨rfl, rfl⟩ | ⟨rfl, rfl⟩ |
      ⟨rfl, rfl⟩) <;> simp
  have hexact (h : 2 ^ 20 ≤ bytes) : 2 ^ 20 * (bytes / 2 ^ 20) = bytes := by
    have : ∀ u ∈ composeUnits, 2 ^ 20 ≤ u.2 → 2 ^ 20 * (u.2 / 2 ^ 20) = u.2 := by decide
    exact this _ hunit h
  simp only [serviceContainer]
  rw [if_neg hne, parseMemory_toDigits go hunit hlt, hunits]
  split_ifs with h
  · have hquot : 0 < bytes / 2 ^ 20 := Nat.div_pos h (by decide)
    have hbytes : (2 ^ 20 : ℤ) * ((amount * (bytes / 2 ^ 20) : ℕ) : ℤ) = amount * bytes := by
      have := congrArg (fun n : ℕ => ((amount * n : ℕ) : ℤ)) (hexact h)
      push_cast at this ⊢
      linarith
    refine iff_of_true ⟨by exact_mod_cast Nat.mul_pos hpos hquot, ?_⟩ h
    rw [hbytes, sub_self, abs_zero]
    decide
  · exact iff_of_false (fun h0 => lt_irrefl _ h0.1) h

/-- Numbers that are read without a fault, and never rounded. -/
def exactNumbers : GoNumbers where
  scanFloat s := some (Nat.ofDigitChars 10 s 0 : ℕ)
  scanInt s := some (Nat.ofDigitChars 10 s 0 : ℕ)
  roundFloat x := some x
  scanFloat_toDigits n _ := by simp
  scanInt_toDigits n _ := by simp
  roundFloat_natCast _ _ := rfl

/-- The container of a service with this limit. -/
def limited (memory : String) : ContainerOpts :=
  serviceContainer { plainConversions with parseMemory := parseMemory exactNumbers }
    (acmeStack .empty) "web" { limits := some ⟨memory, ""⟩ } ""

theorem memoryMB_iff_twoGb :
    0 < (limited (String.ofList (Nat.toDigits 10 2 ++ ['G', 'b']))).memoryMB ∧
      |2 ^ 20 * (limited (String.ofList (Nat.toDigits 10 2 ++ ['G', 'b']))).memoryMB -
        (2 : ℕ) * (2 ^ 30 : ℕ)| < 2 ^ 20 :=
  (@memoryMB_iff plainConversions (acmeStack .empty) "web" "" {} exactNumbers 2 (2 ^ 30) ['G', 'b']
    (by decide) (by decide) (by decide) "").mpr (by decide)

/-- A limit in kilobytes, or without a unit, becomes none. -/
theorem limited_kilobytes :
    (limited "524288k").memoryMB = 0 ∧ (limited "536870912").memoryMB = 0 := by
  decide +kernel

end DeployMonster.Compose
