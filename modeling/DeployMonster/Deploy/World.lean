import DeployMonster.DB.Tables
import DeployMonster.Deploy.Runtime
import DeployMonster.Library.Program

/-!
# What deployments act on

The store, the container runtimes and the event bus: each query, update and runtime operation is one
atomic call, and may fail. What the model does not keep the environment decides at the call.
-/

namespace DeployMonster.Deploy

open DB Program List Option

inductive DeployEvent
  | deployFailed (appID error : String)
  | buildFailed (appID error : String)
  | appDeployed (appID deploymentID : String) (version : ℕ) (image : String)
      (containerID : Option ℕ) (strategy commitSHA : String)
  | rollbackDone (appID deploymentID : String) (version : ℕ) (image : String)
  | appDeleted (id : String)
  | appStopped (id : String)
  | appCrashed (appID : String)
  deriving DecidableEq

structure BuildResult where
  (imageTag commitSHA : String)

structure DeployWorld where
  now : ℤ
  apps : AppTable
  deployments : DeploymentTable
  runtime : Runtime
  events : List DeployEvent

inductive DeployCall
  | now
  | getApp (id : String)
  | updateAppStatus (id : String) (status : AppStatus) (tenantID : String)
  | deleteDomainsByApp (appID tenantID : String)
  | deleteApp (id tenantID : String)
  | listDomainsByApp (appID tenantID : String)
  | createDeploymentAtomicVersion (d : Deployment)
  | updateDeployment (d : Deployment)
  | listDeploymentsByApp (appID : String) (limit : ℕ)
  | getLatestDeployment (appID : String)
  | buildGit (app : Application) (commitSHA : String)
  /-- The node manager's `Get`. -/
  | getNode (serverID : String)
  | ensureNetwork (node name : String)
  | createAndStart (node : String) (opts : ContainerOpts)
  | listByLabel (node key value : String)
  | stop (node : String) (ref : ContainerRef)
  | remove (node : String) (ref : ContainerRef)
  | restart (node : String) (ref : ContainerRef)
  /-- Whether the container runs. -/
  | stats (node : String) (ref : ContainerRef)
  | publish (event : DeployEvent)
  | sleep (duration : ℕ)
  deriving DecidableEq

@[reducible] def DeployAnswer : DeployCall → Type
  | .now => ℤ
  | .getApp _ => Except String Application
  | .updateAppStatus _ _ _ | .deleteDomainsByApp _ _ | .deleteApp _ _ => Except String Unit
  | .listDomainsByApp _ _ => Except String (List String)
  | .createDeploymentAtomicVersion _ => Except String Deployment
  | .updateDeployment _ => Except String Unit
  | .listDeploymentsByApp _ _ => Except String (List Deployment)
  | .getLatestDeployment _ => Except String Deployment
  | .buildGit _ _ => Except String BuildResult
  | .getNode _ | .ensureNetwork _ _ | .stop _ _ | .remove _ _ | .restart _ _ => Except String Unit
  | .createAndStart _ _ => Except String ℕ
  | .listByLabel _ _ _ => Except String (List Container)
  | .stats _ _ => Except String Bool
  | .publish _ | .sleep _ => Unit

/-- What the environment decides at a call: the time passed, the error, whether a container that
could not be started is left behind, and the answers that the model does not keep. -/
structure DeployChoice where
  elapsed : ℕ := 0
  fails : Option String := none
  leftBehind : Bool := false
  build : BuildResult := ⟨"", ""⟩
  domains : List String := []
  rowID : String := ""

def DeployWorld.wait (w : DeployWorld) (elapsed : ℕ) : DeployWorld := { w with now := w.now + elapsed }

/-- A call that fails changes nothing; one that does not answers `r` and leaves `w'`. -/
def DeployChoice.answer {α : Type} (o : DeployChoice) (w : DeployWorld) (r : α) (w' : DeployWorld) :
    Option (Except String α × DeployWorld) :=
  match o.fails with
  | some e => some (.error e, w)
  | none => some (.ok r, w')

/-- What `CreateDeploymentAtomicVersion` makes of its argument: the id and the version are set. -/
def returned (t : DeploymentTable) (d : Deployment) (id : String) : Deployment :=
  { versioned t d id 0 with createdAt := d.createdAt }

def deployExec : (c : DeployCall) → DeployWorld → DeployChoice → Option (DeployAnswer c × DeployWorld)
  | .now, w, o => some ((w.wait o.elapsed).now, w.wait o.elapsed)
  | .getApp id, w, o =>
    let w := w.wait o.elapsed
    match DB.getApp w.apps id with
    | none => some (.error "not found", w)
    | some app => o.answer w app w
  | .updateAppStatus id status tenantID, w, o =>
    let w := w.wait o.elapsed
    o.answer w () { w with apps := DB.updateAppStatus w.apps id status tenantID w.now }
  | .deleteDomainsByApp _ _, w, o =>
    let w := w.wait o.elapsed
    o.answer w () w
  | .deleteApp id tenantID, w, o =>
    let w := w.wait o.elapsed
    o.answer w ()
      { w with
        apps := DB.deleteApp w.apps id tenantID
        deployments := w.deployments.filter fun d =>
          (DB.getApp w.apps d.appID).all fun a => ¬ (a.id = id ∧ a.tenantID = tenantID) }
  | .listDomainsByApp _ _, w, o =>
    let w := w.wait o.elapsed
    o.answer w o.domains w
  | .createDeploymentAtomicVersion d, w, o =>
    let w := w.wait o.elapsed
    if o.rowID = "" then none
    else
      match DB.createDeploymentAtomicVersion w.deployments d o.rowID w.now with
      | none => some (.error "UNIQUE constraint failed", w)
      | some deployments =>
        o.answer w (returned w.deployments d o.rowID) { w with deployments }
  | .updateDeployment d, w, o =>
    let w := w.wait o.elapsed
    o.answer w () { w with deployments := DB.updateDeployment w.deployments d }
  | .listDeploymentsByApp appID limit, w, o =>
    let w := w.wait o.elapsed
    o.answer w (DB.listDeploymentsByApp w.deployments appID limit) w
  | .getLatestDeployment appID, w, o =>
    let w := w.wait o.elapsed
    match DB.getLatestDeployment w.deployments appID with
    | none => some (.error "not found", w)
    | some d => o.answer w d w
  | .buildGit _ _, w, o =>
    let w := w.wait o.elapsed
    o.answer w o.build w
  | .getNode _, w, o | .ensureNetwork _ _, w, o =>
    let w := w.wait o.elapsed
    o.answer w () w
  | .createAndStart node opts, w, o =>
    let w := w.wait o.elapsed
    if w.runtime.has node (.name opts.name) then
      some (.error "create container: the container name is already in use", w)
    else
      match o.fails with
      | none => some (.ok w.runtime.next, { w with runtime := w.runtime.create node opts true })
      | some e =>
        if o.leftBehind then some (.error e, { w with runtime := w.runtime.create node opts false })
        else some (.error e, w)
  | .listByLabel node key value, w, o =>
    let w := w.wait o.elapsed
    o.answer w (w.runtime.listByLabel node key value) w
  | .stop node ref, w, o =>
    let w := w.wait o.elapsed
    if w.runtime.has node ref then o.answer w () { w with runtime := w.runtime.stop node ref }
    else some (.error "no such container", w)
  | .remove node ref, w, o =>
    let w := w.wait o.elapsed
    if w.runtime.has node ref then o.answer w () { w with runtime := w.runtime.remove node ref }
    else some (.error "no such container", w)
  | .restart node ref, w, o =>
    let w := w.wait o.elapsed
    if w.runtime.has node ref then o.answer w () { w with runtime := w.runtime.restart node ref }
    else some (.error "no such container", w)
  | .stats node ref, w, o =>
    let w := w.wait o.elapsed
    match w.runtime.containers.find? (fun c => ref.names node c) with
    | none => some (.error "no such container", w)
    | some c => o.answer w (c.state = .running) w
  | .publish event, w, o =>
    let w := w.wait o.elapsed
    some ((), { w with events := w.events ++ [event] })
  | .sleep duration, w, o => some ((), w.wait (duration + o.elapsed))

abbrev DeployM := Prog DeployCall DeployAnswer

def call (c : DeployCall) : DeployM (DeployAnswer c) := Prog.perform c

variable {c : DeployCall} {α : Type}
  {exec : (c : DeployCall) → DeployWorld → DeployChoice → Option (DeployAnswer c × DeployWorld)}
  {Q : α → DeployWorld → Prop} {w : DeployWorld} {f : DeployAnswer c → DeployM α}

lemma wp_call_bind :
    Wp exec (call c >>= f) Q w ↔
      ∀ o r w', exec c w o = some (r, w') → Wp exec (f r) Q w' := Iff.rfl

lemma wp_call_last {Q : DeployAnswer c → DeployWorld → Prop} :
    Wp exec (call c) Q w ↔ ∀ o r w', exec c w o = some (r, w') → Q r w' := Iff.rfl

lemma may_call_bind :
    May exec (call c >>= f) Q w ↔ ∃ o r w', exec c w o = some (r, w') ∧ May exec (f r) Q w' := Iff.rfl

/-! ## What a call leaves alone -/

def DeployCall.writesDeployments : DeployCall → Bool
  | .createDeploymentAtomicVersion _ | .updateDeployment _ | .deleteApp _ _ => true
  | _ => false

def DeployCall.writesRuntime : DeployCall → Bool
  | .createAndStart _ _ | .stop _ _ | .remove _ _ | .restart _ _ => true
  | _ => false

def DeployCall.creates : DeployCall → Bool
  | .createAndStart _ _ => true
  | _ => false

def DeployCall.writesApps : DeployCall → Bool
  | .updateAppStatus _ _ _ | .deleteApp _ _ => true
  | _ => false

variable {o : DeployChoice} {w' : DeployWorld}

lemma answer_eq_some {r : α} {a : Except String α} {s : DeployWorld}
    (h : o.answer w r w' = some (a, s)) :
    (∃ e, o.fails = some e ∧ a = .error e ∧ s = w) ∨ (o.fails = none ∧ a = .ok r ∧ s = w') :=
  attempt_eq_some h

/-- What the call says it leaves alone is the same afterwards. -/
structure Framed (c : DeployCall) (w w' : DeployWorld) : Prop where
  deployments : c.writesDeployments = false → w'.deployments = w.deployments
  runtime : c.writesRuntime = false → w'.runtime = w.runtime
  apps : c.writesApps = false → w'.apps = w.apps

def DeployCall.published : DeployCall → List DeployEvent
  | .publish event => [event]
  | _ => []

/-- What one call does: it leaves alone what it says, and adds the event that it publishes. -/
def Effects (c : DeployCall) (w w' : DeployWorld) : Prop :=
  Framed c w w' ∧ w'.events = w.events ++ c.published

lemma effects_wait (hc : c.published = []) (w : DeployWorld) (elapsed : ℕ) :
    Effects c w (w.wait elapsed) := by
  refine ⟨⟨fun _ => rfl, fun _ => rfl, fun _ => rfl⟩, ?_⟩
  rw [hc, append_nil]
  rfl

lemma effects_of_answer {r : α} {a : Except String α} {s' : DeployWorld} {elapsed : ℕ}
    (hc : c.published = []) (h : o.answer (w.wait elapsed) r s' = some (a, w'))
    (hs' : Effects c w s') : Effects c w w' := by
  rcases answer_eq_some h with ⟨-, -, -, rfl⟩ | ⟨-, -, rfl⟩
  · exact effects_wait hc w elapsed
  · exact hs'

lemma effects_of_deployExec {r : DeployAnswer c} (h : deployExec c w o = some (r, w')) :
    Effects c w w' := by
  cases c with
  | now | sleep =>
    cases h
    exact effects_wait rfl w _
  | publish =>
    cases h
    exact ⟨⟨fun _ => rfl, fun _ => rfl, fun _ => rfl⟩, rfl⟩
  | updateAppStatus =>
    exact effects_of_answer rfl h
      ⟨⟨fun _ => rfl, fun _ => rfl, nofun⟩, (append_nil _).symm⟩
  | updateDeployment =>
    exact effects_of_answer rfl h
      ⟨⟨nofun, fun _ => rfl, fun _ => rfl⟩, (append_nil _).symm⟩
  | deleteApp =>
    exact effects_of_answer rfl h ⟨⟨nofun, fun _ => rfl, nofun⟩, (append_nil _).symm⟩
  | getApp | getLatestDeployment | stats =>
    simp only [deployExec] at h
    split at h
    · cases h
      exact effects_wait rfl w _
    · exact effects_of_answer rfl h (effects_wait rfl w _)
  | stop | remove | restart =>
    simp only [deployExec] at h
    split at h
    · exact effects_of_answer rfl h
        ⟨⟨fun _ => rfl, nofun, fun _ => rfl⟩, (append_nil _).symm⟩
    · cases h
      exact effects_wait rfl w _
  | createDeploymentAtomicVersion =>
    obtain ⟨-, h⟩ := ite_none_left_eq_some.mp h
    split at h
    · cases h
      exact effects_wait rfl w _
    · exact effects_of_answer rfl h
        ⟨⟨nofun, fun _ => rfl, fun _ => rfl⟩, (append_nil _).symm⟩
  | createAndStart node opts =>
    have hruntime : ∀ rt, Effects (.createAndStart node opts) w
        { w.wait o.elapsed with runtime := rt } :=
      fun rt => ⟨⟨fun _ => rfl, nofun, fun _ => rfl⟩, (append_nil _).symm⟩
    simp only [deployExec] at h
    split at h
    · cases h
      exact effects_wait rfl w _
    split at h
    · cases h
      exact hruntime _
    split at h
    · cases h
      exact hruntime _
    · cases h
      exact effects_wait rfl w _
  | _ => exact effects_of_answer rfl h (effects_wait rfl w _)

lemma framed_of_deployExec {r : DeployAnswer c} (h : deployExec c w o = some (r, w')) :
    Framed c w w' :=
  (effects_of_deployExec h).1

lemma events_of_deployExec {r : DeployAnswer c} (h : deployExec c w o = some (r, w')) :
    w'.events = w.events ++ c.published :=
  (effects_of_deployExec h).2

lemma reserve_of_deployExec {d : Deployment} {r : Except String Deployment}
    (h : deployExec (.createDeploymentAtomicVersion d) w o = some (r, w')) :
    (∃ e, r = .error e ∧ w'.deployments = w.deployments) ∨
      (r = .ok (returned w.deployments d o.rowID) ∧ o.rowID ≠ "" ∧
        w'.deployments.rows =
          w.deployments.rows ++ [versioned w.deployments d o.rowID (w.now + o.elapsed)]) := by
  obtain ⟨hid, h⟩ := ite_none_left_eq_some.mp h
  split at h
  case h_1 =>
    cases h
    exact .inl ⟨_, rfl, rfl⟩
  case h_2 t ht =>
    rcases answer_eq_some h with ⟨e, -, rfl, rfl⟩ | ⟨-, rfl, rfl⟩
    · exact .inl ⟨e, rfl, rfl⟩
    rw [createDeploymentAtomicVersion, dite_none_left_eq_some] at ht
    obtain ⟨hfresh, ht⟩ := ht
    cases ht
    exact .inr ⟨rfl, hid, rfl⟩

variable {r : Except String Unit}

lemma update_of_deployExec {d : Deployment}
    (h : deployExec (.updateDeployment d) w o = some (r, w')) :
    w'.deployments = w.deployments ∨ w'.deployments = DB.updateDeployment w.deployments d := by
  rcases answer_eq_some h with ⟨-, -, -, rfl⟩ | ⟨-, -, rfl⟩
  · exact .inl rfl
  · exact .inr rfl

variable {node : String}

lemma create_of_deployExec {opts : ContainerOpts} {r : Except String ℕ}
    (h : deployExec (.createAndStart node opts) w o = some (r, w')) :
    (r = .ok w.runtime.next ∧ w'.runtime = w.runtime.create node opts true) ∨
      ∃ e, r = .error e ∧ (w'.runtime = w.runtime ∨ w'.runtime = w.runtime.create node opts false) := by
  simp only [deployExec] at h
  split at h
  · cases h
    exact .inr ⟨_, rfl, .inl rfl⟩
  split at h
  · cases h
    exact .inl ⟨rfl, rfl⟩
  split at h
  · cases h
    exact .inr ⟨_, rfl, .inr rfl⟩
  · cases h
    exact .inr ⟨_, rfl, .inl rfl⟩

variable {ref : ContainerRef}

lemma stop_of_deployExec (h : deployExec (.stop node ref) w o = some (r, w')) :
    w'.runtime = w.runtime ∨ w'.runtime = w.runtime.stop node ref := by
  simp only [deployExec] at h
  split at h
  · rcases answer_eq_some h with ⟨-, -, -, rfl⟩ | ⟨-, -, rfl⟩
    · exact .inl rfl
    · exact .inr rfl
  · cases h
    exact .inl rfl

lemma restart_of_deployExec (h : deployExec (.restart node ref) w o = some (r, w')) :
    w'.runtime = w.runtime ∨
      (r = .ok () ∧ w.runtime.has node ref = true ∧ w'.runtime = w.runtime.restart node ref) := by
  simp only [deployExec] at h
  split at h
  case isTrue hhas =>
    rcases answer_eq_some h with ⟨-, -, -, rfl⟩ | ⟨-, rfl, rfl⟩
    · exact .inl rfl
    · exact .inr ⟨rfl, hhas, rfl⟩
  case isFalse =>
    cases h
    exact .inl rfl

lemma remove_of_deployExec (h : deployExec (.remove node ref) w o = some (r, w')) :
    w'.runtime = w.runtime ∨ w'.runtime = w.runtime.remove node ref := by
  simp only [deployExec] at h
  split at h
  · rcases answer_eq_some h with ⟨-, -, -, rfl⟩ | ⟨-, -, rfl⟩
    · exact .inl rfl
    · exact .inr rfl
  · cases h
    exact .inl rfl

lemma shrinks_of_deployExec (hc : c.creates = false) {r : DeployAnswer c}
    (h : deployExec c w o = some (r, w')) : w.runtime.Shrinks w'.runtime := by
  have hsame : w'.runtime = w.runtime → w.runtime.Shrinks w'.runtime :=
    fun heq => heq ▸ .refl w.runtime
  cases hrt : c.writesRuntime with
  | false => exact hsame ((framed_of_deployExec h).runtime hrt)
  | true =>
    cases c with
    | stop node ref =>
      rcases stop_of_deployExec h with heq | heq
      · exact hsame heq
      · exact heq ▸ Runtime.shrinks_stop w.runtime node ref
    | remove node ref =>
      rcases remove_of_deployExec h with heq | heq
      · exact hsame heq
      · exact heq ▸ Runtime.shrinks_remove w.runtime node ref
    | restart node ref =>
      rcases restart_of_deployExec h with heq | ⟨-, -, heq⟩
      · exact hsame heq
      · exact heq ▸ Runtime.shrinks_restart w.runtime node ref
    | createAndStart => cases hc
    | _ => cases hrt

end DeployMonster.Deploy
