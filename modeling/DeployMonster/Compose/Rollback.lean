import DeployMonster.Compose.Deployer

/-!
# What a failed stack deployment leaves behind

`Deploy` removes the containers that `CreateAndStart` has returned when a later service fails. But
`CreateAndStart` is itself three calls of Docker, and returns no id when the start fails.
-/

namespace DeployMonster.Compose

open Program List

inductive DockerCall
  | networkList
  | networkCreate (name : String)
  | imagePull (image : String)
  | containerCreate (opts : ContainerOpts)
  | containerStart (containerID : String)
  | containerStop (containerID : String) (timeoutSec : ℕ)
  | containerRemove (containerID : String) (force : Bool)

@[reducible] def DockerAnswer : DockerCall → Type
  | .networkList => Except String (List String)
  | .containerCreate _ => Except String String
  | .networkCreate _ | .imagePull _ | .containerStart _ | .containerStop _ _
  | .containerRemove _ _ => Except String Unit

structure DockerContainer where
  id : String
  opts : ContainerOpts
  running : Bool

structure DockerWorld where
  networks : List String := []
  containers : List DockerContainer := []

/-- How a call ends, and the id of a container that it creates. Stopping and removing a container
have a failure of their own. -/
structure DockerChoice where
  fails : Option String := none
  cleanupFails : Option String := none
  containerID : String := ""

variable (w : DockerWorld)

def DockerWorld.setRunning (id : String) (running : Bool) : DockerWorld :=
  { w with containers := w.containers.map fun c => if c.id = id then { c with running } else c }

def dockerExec : (c : DockerCall) → DockerWorld → DockerChoice →
    Option (DockerAnswer c × DockerWorld)
  | .networkList, w, o => attempt o.fails w w.networks w
  | .networkCreate name, w, o => attempt o.fails w () { w with networks := name :: w.networks }
  | .imagePull _, w, o => attempt o.fails w () w
  | .containerCreate opts, w, o =>
    if o.containerID ∈ w.containers.map DockerContainer.id then none
    else
      attempt o.fails w o.containerID
        { w with containers := w.containers ++ [⟨o.containerID, opts, false⟩] }
  | .containerStart id, w, o => attempt o.fails w () (w.setRunning id true)
  | .containerStop id _, w, o => attempt o.cleanupFails w () (w.setRunning id false)
  | .containerRemove id _, w, o =>
    attempt o.cleanupFails w () { w with containers := w.containers.filter (·.id ≠ id) }

abbrev DockerM := Prog DockerCall DockerAnswer

def docker (c : DockerCall) : DockerM (DockerAnswer c) := Prog.perform c

/-- `DockerManager`, with the resource limits of containers that have none of their own. -/
structure DockerManager where
  defaultCPU : ℤ := 0
  defaultMemMB : ℤ := 0

def ContainerOpts.applyResourceDefaults (o : ContainerOpts) (defaultCPU defaultMemoryMB : ℤ) :
    ContainerOpts :=
  { o with
    cpuQuota := if o.cpuQuota ≤ 0 ∧ defaultCPU > 0 then defaultCPU else o.cpuQuota
    memoryMB := if o.memoryMB ≤ 0 ∧ defaultMemoryMB > 0 then defaultMemoryMB else o.memoryMB }

variable (d : DockerManager)

/-- `CreateAndStart`. The deployer sets no volumes, so that none of them is refused. -/
def DockerManager.createAndStart (opts : ContainerOpts) : DockerM (Except String String) := do
  let opts := opts.applyResourceDefaults d.defaultCPU d.defaultMemMB
  match ← docker (.imagePull opts.image) with
  | .error e => return .error ("pull image " ++ opts.image ++ ": " ++ e)
  | .ok () =>
    match ← docker (.containerCreate opts) with
    | .error e => return .error ("create container: " ++ e)
    | .ok id =>
      match ← docker (.containerStart id) with
      | .error e => return .error ("start container: " ++ e)
      | .ok () => return .ok id

def DockerManager.ensureNetwork (name : String) : DockerM (Except String Unit) := do
  match ← docker .networkList with
  | .error e => return .error ("list networks: " ++ e)
  | .ok networks =>
    if name ∈ networks then return .ok ()
    else
      match ← docker (.networkCreate name) with
      | .error e => return .error ("create network " ++ name ++ ": " ++ e)
      | .ok () => return .ok ()

def DockerManager.runtime : (c : StackCall) → DockerM (StackAnswer c)
  | .ensureNetwork name => ensureNetwork name
  | .createAndStart opts => d.createAndStart opts
  | .stop id timeoutSec => docker (.containerStop id timeoutSec)
  | .remove id force => docker (.containerRemove id force)

def DockerManager.deploy (conv : Conversions) (opts : DeployOpts) : DockerM (Except String Unit) :=
  (Compose.deploy conv opts (some ⟨true⟩)).implement d.runtime

/-! ## What the calls do to the containers -/

def cleanExec : (c : DockerCall) → DockerWorld → DockerChoice →
    Option (DockerAnswer c × DockerWorld) :=
  restrict (·.cleanupFails.isNone) dockerExec

def startSucceeds : DockerCall → DockerChoice → Bool
  | .containerStart _, o => o.fails.isNone
  | _, _ => true

def DockerWorld.ids : List String := w.containers.map DockerContainer.id

@[simp] lemma ids_setRunning (id : String) (running : Bool) :
    (w.setRunning id running).ids = w.ids := by
  rw [DockerWorld.ids, DockerWorld.setRunning, map_map]
  refine map_congr_left fun c _ => ?_
  show (if c.id = id then { c with running } else c).id = c.id
  split <;> rfl

abbrev watchedExec := watch startSucceeds cleanExec

variable {s s' : DockerWorld × Bool} {o : DockerChoice}

lemma dockerExec_of_watched {c : DockerCall} {r : DockerAnswer c}
    (h : watchedExec c s o = some (r, s')) :
    dockerExec c s.1 o = some (r, s'.1) ∧ o.cleanupFails = none ∧
      s'.2 = (s.2 && startSucceeds c o) := by
  obtain ⟨hclean, hwatch⟩ := watch_eq_some h
  obtain ⟨hok, hexec⟩ := restrict_eq_some hclean
  exact ⟨hexec, Option.isNone_iff_eq_none.mp hok, hwatch⟩

def DockerCall.preparing : DockerCall → Bool
  | .networkList | .networkCreate _ | .imagePull _ => true
  | _ => false

lemma same_of_watched {c : DockerCall} (hc : c.preparing = true) {r : DockerAnswer c}
    (h : watchedExec c s o = some (r, s')) : s'.1.ids = s.1.ids ∧ s'.2 = s.2 := by
  obtain ⟨hexec, -, hwatch⟩ := dockerExec_of_watched h
  cases c with
  | networkList | networkCreate | imagePull =>
    refine ⟨?_, hwatch.trans (Bool.and_true _)⟩
    rcases attempt_eq_some hexec with ⟨-, -, -, hw⟩ | ⟨-, -, hw⟩
    all_goals exact (congrArg DockerWorld.ids hw).trans rfl
  | _ => cases hc

lemma create_of_watched {opts : ContainerOpts} {r : Except String String}
    (h : watchedExec (.containerCreate opts) s o = some (r, s')) :
    s'.2 = s.2 ∧ ((∃ e, r = .error e ∧ s'.1.ids = s.1.ids) ∨
      ∃ id, r = .ok id ∧ id ∉ s.1.ids ∧ s'.1.ids = s.1.ids ++ [id]) := by
  obtain ⟨hexec, -, hwatch⟩ := dockerExec_of_watched h
  obtain ⟨hfresh, hexec⟩ := Option.ite_none_left_eq_some.mp hexec
  refine ⟨hwatch.trans (Bool.and_true _), ?_⟩
  rcases attempt_eq_some hexec with ⟨e, -, rfl, hw⟩ | ⟨-, rfl, hw⟩
  · exact .inl ⟨e, rfl, by rw [hw]⟩
  · refine .inr ⟨o.containerID, rfl, hfresh, ?_⟩
    rw [hw, DockerWorld.ids, map_append]
    rfl

variable {r : Except String Unit} {id : String}

lemma start_of_watched (h : watchedExec (.containerStart id) s o = some (r, s')) :
    s'.1.ids = s.1.ids ∧ ((∃ e, r = .error e ∧ s'.2 = false) ∨ (r = .ok () ∧ s'.2 = s.2)) := by
  obtain ⟨hexec, -, hwatch⟩ := dockerExec_of_watched h
  rcases attempt_eq_some hexec with ⟨e, hfails, rfl, hw⟩ | ⟨hfails, rfl, hw⟩
  · refine ⟨by rw [hw], .inl ⟨e, rfl, ?_⟩⟩
    rw [hwatch, startSucceeds, hfails, Option.isNone_some, Bool.and_false]
  · refine ⟨by rw [hw, ids_setRunning], .inr ⟨rfl, ?_⟩⟩
    rw [hwatch, startSucceeds, hfails, Option.isNone_none, Bool.and_true]

lemma stop_of_watched {timeoutSec : ℕ}
    (h : watchedExec (.containerStop id timeoutSec) s o = some (r, s')) :
    s'.1.ids = s.1.ids ∧ s'.2 = s.2 := by
  obtain ⟨hexec, hclean, hwatch⟩ := dockerExec_of_watched h
  refine ⟨?_, hwatch.trans (Bool.and_true _)⟩
  rcases attempt_eq_some hexec with ⟨e, hfails, -⟩ | ⟨-, -, hw⟩
  · rw [hclean] at hfails
    cases hfails
  · rw [hw, ids_setRunning]

lemma remove_of_watched {force : Bool}
    (h : watchedExec (.containerRemove id force) s o = some (r, s')) :
    (∀ x, x ∈ s'.1.ids ↔ x ∈ s.1.ids ∧ x ≠ id) ∧ s'.2 = s.2 := by
  obtain ⟨hexec, hclean, hwatch⟩ := dockerExec_of_watched h
  refine ⟨fun x => ?_, hwatch.trans (Bool.and_true _)⟩
  rcases attempt_eq_some hexec with ⟨e, hfails, -⟩ | ⟨-, -, hw⟩
  · rw [hclean] at hfails
    cases hfails
  rw [hw]
  simp only [DockerWorld.ids, mem_map, mem_filter, decide_eq_true_eq]
  constructor
  · rintro ⟨c, ⟨hc, hne⟩, rfl⟩
    exact ⟨⟨c, hc, rfl⟩, hne⟩
  · rintro ⟨⟨c, hc, rfl⟩, hne⟩
    exact ⟨c, ⟨hc, hne⟩, rfl⟩

/-! ## The deployer -/

/-- What `CreateAndStart` leaves. It returns the id of a container that was not there before, or it
fails: then none was created, or one that the watch has seen not starting. -/
def CreateOutcome (r : Except String String) (s : DockerWorld × Bool) : Prop :=
  match r with
  | .ok id => s.1.ids = w.ids ++ [id] ∧ s.2 = true
  | .error _ =>
    (s.1.ids = w.ids ∧ s.2 = true) ∨
      ∃ id, id ∉ w.ids ∧ s.1.ids = w.ids ++ [id] ∧ s.2 = false

lemma wp_createAndStart (opts : ContainerOpts) (w : DockerWorld) :
    Wp watchedExec (d.createAndStart opts) (CreateOutcome w) (w, true) := by
  rintro o1 (e | _) s1 hpull
  · exact .inl (same_of_watched rfl hpull)
  obtain ⟨hids1, hflag1⟩ := same_of_watched rfl hpull
  intro o2 r2 s2 hcreate
  obtain ⟨hflag2, ⟨e, rfl, hids2⟩ | ⟨id, rfl, hfresh, hids2⟩⟩ := create_of_watched hcreate
  · exact .inl ⟨hids2.trans hids1, hflag2.trans hflag1⟩
  rw [hids1] at hfresh hids2
  intro o3 r3 s3 hstart
  obtain ⟨hids3, ⟨e, rfl, hflag3⟩ | ⟨rfl, hflag3⟩⟩ := start_of_watched hstart
  · exact .inr ⟨id, hfresh, hids3.trans hids2, hflag3⟩
  · exact ⟨hids3.trans hids2, hflag3.trans (hflag2.trans hflag1)⟩

lemma wp_ensureNetwork (name : String) (s : DockerWorld × Bool) :
    Wp watchedExec (DockerManager.ensureNetwork name)
      (fun _ s' => s'.1.ids = s.1.ids ∧ s'.2 = s.2) s := by
  rintro o1 (e | networks) s1 hlist
  · exact same_of_watched rfl hlist
  obtain ⟨hids1, hflag1⟩ := same_of_watched rfl hlist
  dsimp only [Prog.bind]
  split
  · exact ⟨hids1, hflag1⟩
  rintro o2 (e | _) s2 hcreate
  all_goals
    obtain ⟨hids2, hflag2⟩ := same_of_watched rfl hcreate
    exact ⟨hids2.trans hids1, hflag2.trans hflag1⟩

variable {d : DockerManager} {conv : Conversions} {opts : DeployOpts} {network : String}
  {base : List String}

lemma wp_rollback (ids : List String) (s : DockerWorld × Bool) :
    Wp watchedExec ((rollback ids).implement d.runtime)
      (fun _ s' => (∀ x, x ∈ s'.1.ids ↔ x ∈ s.1.ids ∧ x ∉ ids) ∧ s'.2 = s.2) s := by
  induction ids generalizing s with
  | nil => exact ⟨fun x => by simp, rfl⟩
  | cons id ids ih =>
    intro o1 r1 s1 hstop
    obtain ⟨hids1, hflag1⟩ := stop_of_watched hstop
    intro o2 r2 s2 hremove
    obtain ⟨hids2, hflag2⟩ := remove_of_watched hremove
    refine (ih s2).mono fun _ s3 h => ⟨fun x => ?_, h.2.trans (hflag2.trans hflag1)⟩
    rw [h.1 x, hids2 x, hids1, mem_cons, not_or, and_assoc]

/-- A deployment that fails leaves the containers that were there before, exactly when the watch has
seen no container that did not start. -/
def FailureOutcome (base : List String) (result : Except String Unit) (s : DockerWorld × Bool) :
    Prop :=
  match result with
  | .ok _ => True
  | .error _ => (∀ x ∈ s.1.ids, x ∈ base) ↔ s.2 = true

lemma wp_rollback_failed {created : List String} {w : DockerWorld} {e e' : String}
    (hw : ∀ x, x ∈ w.ids ↔ x ∈ base ∨ x ∈ created) (hs : CreateOutcome w (.error e) s) :
    Wp watchedExec ((rollback created >>= fun _ =>
      (pure (.error e') : StackM (Except String Unit))).implement d.runtime) (FailureOutcome base) s := by
  rw [wp_implement_bind]
  refine (wp_rollback created s).mono fun _ s' ⟨hids, hflag⟩ => ?_
  show (∀ x ∈ s'.1.ids, x ∈ base) ↔ s'.2 = true
  rw [hflag]
  rcases hs with ⟨hsame, htrue⟩ | ⟨id, hfresh, hmore, hfalse⟩
  · refine iff_of_true (fun x hx => ?_) htrue
    obtain ⟨hx, hnot⟩ := (hids x).mp hx
    exact ((hw x).mp (hsame ▸ hx)).resolve_right hnot
  · refine iff_of_false (fun hall => ?_) (by rw [hfalse]; exact Bool.false_ne_true)
    have hthere : id ∈ s'.1.ids := (hids id).mpr
      ⟨hmore ▸ mem_append_right _ (mem_singleton_self id),
        fun hcreated => hfresh ((hw id).mpr (.inr hcreated))⟩
    exact hfresh ((hw id).mpr (.inl (hall id hthere)))

/-- **The loop of the deployer**: as long as no service has failed, the containers are those that were
there before and those on the list. -/
theorem wp_deployServices (order created : List String) (w : DockerWorld)
    (hw : ∀ x, x ∈ w.ids ↔ x ∈ base ∨ x ∈ created) :
    Wp watchedExec ((deployServices conv opts network order created).implement d.runtime)
      (FailureOutcome base) (w, true) := by
  induction order generalizing created w with
  | nil => trivial
  | cons svcName order ih =>
    unfold deployServices
    split
    case h_1 => exact ih created w hw
    case h_2 svc hsvc =>
      by_cases himage : svc.image = ""
      · obtain ⟨e, he⟩ : ∃ e, deployService conv opts svcName svc network = return .error e :=
          deployService_of_noImage himage
        rw [he]
        exact wp_rollback_failed hw (e := e) (.inl ⟨rfl, rfl⟩)
      rw [deployService, if_neg himage, wp_implement_bind]
      refine (wp_implement_call _ _ _ _).mpr ((wp_createAndStart d _ w).mono ?_)
      rintro (e | containerID) ⟨w', flag⟩ houtcome
      · exact wp_rollback_failed hw houtcome
      · obtain ⟨hids, rfl⟩ := houtcome
        refine ih (created ++ [containerID]) w' fun x => ?_
        rw [hids, mem_append, hw x, mem_append, or_assoc]

/-- **A stack deployment that fails leaves no container of its own, exactly when every container
that was to start did**, when stopping and removing containers does not fail. -/
theorem deploy_leaves_none_iff (d : DockerManager) (conv : Conversions) (opts : DeployOpts)
    (w w' : DockerWorld) (os : List DockerChoice) (e : String)
    (hrun : solo cleanExec (d.deploy conv opts) w os = some (.error e, w')) :
    (∀ id ∈ w'.ids, id ∈ w.ids) ↔
      Allowed cleanExec startSucceeds (d.deploy conv opts) w os = true := by
  have hwp : Wp watchedExec (d.deploy conv opts) (FailureOutcome w.ids) (w, true) := by
    refine (wp_implement_call _ _ _ _).mpr ((wp_ensureNetwork (stackNetwork opts) (w, true)).mono ?_)
    rintro (e | _) ⟨w1, flag⟩ ⟨hids, rfl⟩
    · exact iff_of_true (fun x hx => hids ▸ hx) rfl
    · exact wp_deployServices _ [] w1 fun x => by simp [hids]
  exact of_solo_watch hwp hrun

def twoServices : DeployOpts where
  appID := "app1"
  tenantID := "acme"
  stackName := "shop"
  compose :=
    { services := Dict.set (Dict.set .empty "db" (some { image := "postgres" })) "web"
        (some { image := "nginx" }) }

/-- The network and the database are there; then the second service is pulled, created and started
with the given choices, and the rollback follows. -/
def secondFails (second : List DockerChoice) : List DockerChoice :=
  let ok : DockerChoice := {}
  [ok, ok, ok, { containerID := "c1" }, ok] ++ second ++ [ok, ok]

/-- The image of the web service cannot be pulled: the database is removed again. -/
theorem deploy_leaves_none_iff_pull :
    ∃ e w', solo cleanExec (DockerManager.deploy ⟨0, 0⟩ plainConversions twoServices) {}
        (secondFails [{ fails := some "not found" }]) = some (.error e, w') ∧
      ∀ id ∈ w'.ids, id ∈ DockerWorld.ids {} := by
  obtain ⟨w', hrun⟩ : ∃ w', solo cleanExec
      (DockerManager.deploy ⟨0, 0⟩ plainConversions twoServices) {}
      (secondFails [{ fails := some "not found" }]) =
        some (.error "deploy service web: pull image nginx: not found", w') := by decide +kernel
  exact ⟨_, w', hrun, (deploy_leaves_none_iff _ _ _ {} w' _ _ hrun).mpr (by decide +kernel)⟩

/-- The web service cannot be started: its container stays. -/
theorem deploy_leaves_unstarted :
    ∃ e w', solo cleanExec (DockerManager.deploy ⟨0, 0⟩ plainConversions twoServices) {}
        (secondFails [{}, { containerID := "c2" }, { fails := some "port is already allocated" }]) =
          some (.error e, w') ∧
      w'.ids = ["c2"] :=
  ⟨"deploy service web: start container: port is already allocated", by decide +kernel⟩

end DeployMonster.Compose
