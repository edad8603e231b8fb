import DeployMonster.Library.Table

/-!
# The container runtime

`core.ContainerRuntime` as `internal/deploy/docker.go` implements it, on the master and on each
node. Ids are 64 hexadecimal digits and the names that the platform gives begin with `dm-`, so a
name is never an id.
-/

namespace DeployMonster.Deploy

open List

inductive ContainerState
  | created | running | paused | restarting | exited | dead
  deriving DecidableEq

/-- Labels, in the order in which they are set. -/
abbrev Labels := List (String × String)

/-- `core.ContainerOpts`, as the deployments fill it. -/
structure ContainerOpts where
  (name image : String)
  /-- The environment, as texts `KEY=value`. -/
  env : List String := []
  labels : Labels
  (network restartPolicy : String)
  deriving DecidableEq

structure Container where
  id : ℕ
  (node name image : String)
  labels : Labels
  state : ContainerState
  /-- How often it has been started. -/
  starts : ℕ
  deriving DecidableEq

def Container.labelled (key value : String) (c : Container) : Bool :=
  c.labels.lookup key = some value

/-- The same container, in whatever state. -/
structure Container.Same (c c' : Container) : Prop where
  id : c.id = c'.id
  node : c.node = c'.node
  name : c.name = c'.name
  labels : c.labels = c'.labels

lemma Container.Same.labelled {c c' : Container} (h : c.Same c') (key value : String) :
    c.labelled key value = c'.labelled key value := by
  rw [Container.labelled, Container.labelled, h.labels]

def Container.of (appID : String) (c : Container) : Bool := c.labelled "monster.app.id" appID

def Container.appID (c : Container) : String := (c.labels.lookup "monster.app.id").getD ""

inductive ContainerRef
  | id (id : ℕ)
  | name (name : String)
  deriving DecidableEq

def ContainerRef.names (node : String) (c : Container) : ContainerRef → Bool
  | id i => c.node = node ∧ c.id = i
  | name n => c.node = node ∧ c.name = n

/-- The containers, each with an id of its own that was issued before. -/
structure Runtime where
  table : Table Container.id
  next : ℕ
  lt_next : ∀ c ∈ table.rows, c.id < next

namespace Runtime

def empty : Runtime := ⟨Table.empty, 0, nofun⟩

variable (rt : Runtime)

def containers : List Container := rt.table.rows

lemma next_not_mem : rt.next ∉ rt.table.rows.map Container.id := by
  intro hmem
  obtain ⟨c, hc, hid⟩ := mem_map.mp hmem
  exact absurd (rt.lt_next c hc) (by rw [hid]; exact Nat.lt_irrefl _)

def fresh (node : String) (opts : ContainerOpts) (started : Bool) : Container :=
  { id := rt.next, node, name := opts.name, image := opts.image, labels := opts.labels,
    state := if started then .running else .created, starts := if started then 1 else 0 }

/-- `ContainerCreate`, followed by `ContainerStart` when it comes to that. -/
def create (node : String) (opts : ContainerOpts) (started : Bool) : Runtime where
  table := rt.table.insert (rt.fresh node opts started) rt.next_not_mem
  next := rt.next + 1
  lt_next := by
    intro c hc
    rcases mem_append.mp hc with hc | hc
    · exact Nat.lt_succ_of_lt (rt.lt_next c hc)
    · obtain rfl := mem_singleton.mp hc
      exact Nat.lt_succ_self _

/-- A change of containers that keeps their ids. -/
def modify (f : Container → Container) (hf : ∀ c, (f c).id = c.id) : Runtime where
  table := rt.table.modify f hf
  next := rt.next
  lt_next := by
    intro c hc
    obtain ⟨c', hc', rfl⟩ := mem_map.mp hc
    rw [hf]
    exact rt.lt_next c' hc'

def stopped (node : String) (ref : ContainerRef) (c : Container) : Container :=
  if ref.names node c ∧ c.state = .running then { c with state := .exited } else c

def restarted (node : String) (ref : ContainerRef) (c : Container) : Container :=
  if ref.names node c then { c with state := .running, starts := c.starts + 1 } else c

def has (node : String) (ref : ContainerRef) : Bool := rt.containers.any fun c => ref.names node c

def stop (node : String) (ref : ContainerRef) : Runtime :=
  rt.modify (stopped node ref) fun c => by unfold stopped; split <;> rfl

def restart (node : String) (ref : ContainerRef) : Runtime :=
  rt.modify (restarted node ref) fun c => by unfold restarted; split <;> rfl

def remove (node : String) (ref : ContainerRef) : Runtime where
  table := rt.table.filter fun c => !ref.names node c
  next := rt.next
  lt_next := fun c hc => rt.lt_next c (mem_filter.mp hc).1

/-- `ListByLabels`, with one label: the newest container first. -/
def listByLabel (node key value : String) : List Container :=
  (rt.containers.filter fun c => c.node = node ∧ c.labelled key value).reverse

variable {rt} {node : String} {ref : ContainerRef} {c : Container}

lemma mem_create {opts : ContainerOpts} {started : Bool} :
    c ∈ (rt.create node opts started).containers ↔
      c ∈ rt.containers ∨ c = rt.fresh node opts started := by
  simp [create, containers, Table.insert]

lemma mem_remove : c ∈ (rt.remove node ref).containers ↔
    c ∈ rt.containers ∧ ref.names node c = false := by
  simp [remove, containers, Table.filter]

lemma mem_stop : c ∈ (rt.stop node ref).containers ↔
    ∃ c' ∈ rt.containers, stopped node ref c' = c := by
  simp [stop, modify, containers, Table.modify]

lemma exists_stopped (node : String) (ref : ContainerRef) (c : Container) :
    ∃ state, stopped node ref c = { c with state } := by
  unfold stopped
  split
  · exact ⟨.exited, rfl⟩
  · exact ⟨c.state, rfl⟩

lemma stopped_of_not_names (h : ref.names node c = false) : stopped node ref c = c := by
  simp [stopped, h]

lemma restarted_of_not_names (h : ref.names node c = false) : restarted node ref c = c := by
  simp [restarted, h]

lemma names_of_node_ne (h : c.node ≠ node) (ref : ContainerRef) : ref.names node c = false := by
  cases ref with
  | id | name => exact decide_eq_false fun hnames => h hnames.1

lemma mem_listByLabel {key value : String} : c ∈ rt.listByLabel node key value ↔
    c ∈ rt.containers ∧ c.node = node ∧ c.labelled key value = true := by
  simp [listByLabel]

lemma mem_restart : c ∈ (rt.restart node ref).containers ↔
    ∃ c' ∈ rt.containers, restarted node ref c' = c := by
  simp [restart, modify, containers, Table.modify]

lemma same_stopped (node : String) (ref : ContainerRef) (c : Container) :
    c.Same (stopped node ref c) := by
  obtain ⟨state, hstate⟩ := exists_stopped node ref c
  rw [hstate]
  exact ⟨rfl, rfl, rfl, rfl⟩

lemma same_restarted (node : String) (ref : ContainerRef) (c : Container) :
    c.Same (restarted node ref c) := by
  unfold restarted
  split <;> exact ⟨rfl, rfl, rfl, rfl⟩

lemma eq_of_id_eq {c' : Container} (hc : c ∈ rt.containers) (hc' : c' ∈ rt.containers)
    (hid : c.id = c'.id) : c = c' :=
  Table.eq_of_key_eq hc hc' hid

/-- No container has been created: each was there before, in whatever state. -/
structure Shrinks (rt rt' : Runtime) : Prop where
  next : rt'.next = rt.next
  same : ∀ c ∈ rt'.containers, ∃ c' ∈ rt.containers, c'.Same c

lemma Shrinks.refl (rt : Runtime) : rt.Shrinks rt :=
  ⟨rfl, fun c hc => ⟨c, hc, rfl, rfl, rfl, rfl⟩⟩

lemma Shrinks.trans {rt' rt'' : Runtime} (h : rt.Shrinks rt') (h' : rt'.Shrinks rt'') :
    rt.Shrinks rt'' := by
  refine ⟨h'.next.trans h.next, fun c hc => ?_⟩
  obtain ⟨c', hc', hsame'⟩ := h'.same c hc
  obtain ⟨c'', hc'', hsame''⟩ := h.same c' hc'
  exact ⟨c'', hc'', hsame''.id.trans hsame'.id, hsame''.node.trans hsame'.node,
    hsame''.name.trans hsame'.name, hsame''.labels.trans hsame'.labels⟩

lemma shrinks_stop (rt : Runtime) (node : String) (ref : ContainerRef) :
    rt.Shrinks (rt.stop node ref) := by
  refine ⟨rfl, fun c hc => ?_⟩
  obtain ⟨c', hc', rfl⟩ := mem_stop.mp hc
  exact ⟨c', hc', same_stopped node ref c'⟩

lemma shrinks_restart (rt : Runtime) (node : String) (ref : ContainerRef) :
    rt.Shrinks (rt.restart node ref) := by
  refine ⟨rfl, fun c hc => ?_⟩
  obtain ⟨c', hc', rfl⟩ := mem_restart.mp hc
  exact ⟨c', hc', same_restarted node ref c'⟩

lemma shrinks_remove (rt : Runtime) (node : String) (ref : ContainerRef) :
    rt.Shrinks (rt.remove node ref) :=
  ⟨rfl, fun c hc => ⟨c, (mem_remove.mp hc).1, rfl, rfl, rfl, rfl⟩⟩

end Runtime

end DeployMonster.Deploy
