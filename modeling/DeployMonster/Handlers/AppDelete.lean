import DeployMonster.Handlers.Operations

/-!
# Deleting an application

`AppHandler.Delete` of `internal/api/handlers/apps_domain.go` removes the container with the name
`dm-` and the id of the application on the master. Deployments and rollbacks name theirs by the
version as well.

## Main results

* `delete_containers`: what a deletion leaves of the containers.
* `delete_clean_iff`: when it leaves none of the application, after any run of operations.
-/

namespace DeployMonster.Handlers

open DB Deploy Program StepMachine Runtime

inductive DeleteResponse
  | error (status : ℕ) (message : String)
  /-- 204. -/
  | noContent
  deriving DecidableEq

/-- `Delete`, for the application of the request: DELETE /api/v1/apps/{id}; `runtime` says whether
there is a container runtime. -/
def delete (runtime : Bool) (app : Application) : DeployM DeleteResponse := do
  if runtime then
    let containerName := "dm-" ++ app.id
    let _ ← call (.stop localNode (.name containerName))
    let _ ← call (.remove localNode (.name containerName))
  match ← call (.deleteDomainsByApp app.id app.tenantID) with
  | .error _ => return .error 500 "failed to delete application domains"
  | .ok () =>
    match ← call (.deleteApp app.id app.tenantID) with
    | .error _ => return .error 500 "failed to delete application"
    | .ok () =>
      call (.publish (.appDeleted app.id))
      return .noContent

def Named (appID : String) (s : DeployWorld) : Prop :=
  ∀ c ∈ s.runtime.containers, Container.of appID c = true →
    ∃ version, c.name = containerName appID version

lemma containerName_ne (appID : String) (version : ℕ) :
    containerName appID version ≠ "dm-" ++ appID := by
  intro h
  have hlen := congrArg String.length h
  have hdash : "-".length = 1 := by decide
  simp only [containerName, String.length_append] at hlen
  omega

def NamedCall : DeployCall → Prop
  | .createAndStart _ opts => ∀ appID, opts.labels.lookup "monster.app.id" = some appID →
      ∃ version, opts.name = containerName appID version
  | _ => True

variable {s s' : DeployWorld} {o : DeployChoice} {appID : String} {c : DeployCall}

lemma Named.exec (hs : Named appID s) (hc : NamedCall c) {r : DeployAnswer c}
    (h : deployExec c s o = some (r, s')) : Named appID s' := by
  cases hcreates : c.creates with
  | false =>
    intro x hx happ
    obtain ⟨y, hy, hsame⟩ := (shrinks_of_deployExec hcreates h).same x hx
    rw [Container.of, ← hsame.labelled] at happ
    exact hsame.name ▸ hs y hy happ
  | true =>
    cases c with
    | createAndStart node opts =>
      have hcreate : ∀ started, s'.runtime = s.runtime.create node opts started →
          Named appID s' := by
        intro started hs' c hc' happ
        rw [hs'] at hc'
        rcases mem_create.mp hc' with hc' | rfl
        · exact hs c hc' happ
        · exact hc appID (of_decide_eq_true happ)
      rcases create_of_deployExec h with ⟨-, hs'⟩ | ⟨e, -, hs' | hs'⟩
      · exact hcreate true hs'
      · rw [Named, hs']
        exact hs
      · exact hcreate false hs'
    | _ => cases hcreates

lemma namedCall_of_deployedCall (hc : DeployedCall c) : NamedCall c := by
  cases c with
  | createAndStart node opts =>
    obtain ⟨app, version, image, labels, rfl, hlabels⟩ := hc
    intro appID happ
    cases hlabels.symm.trans happ
    exact ⟨version, rfl⟩
  | _ => trivial

lemma named_of_run {ops : List Operation} {w : DeployWorld}
    {s : DeployWorld × List (DeployM Unit)} {as : List (ℕ × DeployChoice)} (hw : Named appID w)
    (hrun : run (poolStep deployExec) (w, ops.map Operation.prog) as = some s) : Named appID s.1 := by
  have hnamed : ∀ c t o r t', DeployedCall c → Named appID t → deployExec c t o = some (r, t') →
      Named appID t' := fun c t o r t' hc ht h => ht.exec (namedCall_of_deployedCall hc) h
  have hanswered : ∀ c t o r t', Named appID t → deployExec c t o = some (r, t') → Answered c r :=
    fun c t o r t' _ h => answered_of_deployExec h
  exact CallsIn.of_run hanswered hnamed hw (deployed_operations ops) hrun

/-! ## What deletion leaves -/

/-- What `Delete` asks of a runtime: the container that has the name without a version. -/
def DeleteCall (appID : String) : DeployCall → Prop
  | .stop _ ref | .remove _ ref => ref = .name ("dm-" ++ appID)
  | c => c.writesRuntime = false

lemma deleteCall_delete (runtime : Bool) (app : Application) :
    AllCalls (DeleteCall app.id) (delete runtime app) := by
  have hrest : AllCalls (DeleteCall app.id) (delete false app) := by
    refine ⟨rfl, ?_⟩
    rintro (e | _)
    · trivial
    refine ⟨rfl, ?_⟩
    rintro (e | _)
    · trivial
    · exact ⟨rfl, fun _ => trivial⟩
  cases runtime with
  | false => exact hrest
  | true => exact ⟨rfl, fun _ => ⟨rfl, fun _ => hrest⟩⟩

lemma runtime_of_deleteCall (hs : Named appID s) (hc : DeleteCall appID c)
    {r : DeployAnswer c} (h : deployExec c s o = some (r, s')) (x : Container)
    (hx : Container.of appID x = true) : x ∈ s'.runtime.containers ↔ x ∈ s.runtime.containers := by
  have hname : ∀ y ∈ s.runtime.containers, Container.of appID y = true → ∀ node,
      (ContainerRef.name ("dm-" ++ appID)).names node y = false := by
    intro y hy happ node
    obtain ⟨version, hv⟩ := hs y hy happ
    simp [ContainerRef.names, hv, containerName_ne]
  cases hrt : c.writesRuntime with
  | false => rw [(framed_of_deployExec h).runtime hrt]
  | true =>
    cases c with
    | stop node ref =>
      obtain rfl := hc
      rcases stop_of_deployExec h with hs' | hs'
      · rw [hs']
      rw [hs', mem_stop]
      constructor
      · rintro ⟨y, hy, rfl⟩
        have happ : Container.of appID y = true := by
          rw [Container.of, (same_stopped node (.name ("dm-" ++ appID)) y).labelled]
          exact hx
        rw [stopped_of_not_names (hname y hy happ node)]
        exact hy
      · intro hmem
        exact ⟨x, hmem, stopped_of_not_names (hname x hmem hx node)⟩
    | remove node ref =>
      obtain rfl := hc
      rcases remove_of_deployExec h with hs' | hs'
      · rw [hs']
      rw [hs', mem_remove]
      exact ⟨fun hmem => hmem.1, fun hmem => ⟨hmem, hname x hmem hx node⟩⟩
    | createAndStart | restart => cases hc
    | _ => cases hrt

/-- The containers of the application are the same ones, in the same states. -/
def SameContainers (appID : String) (w s : DeployWorld) : Prop :=
  ∀ x, Container.of appID x = true → (x ∈ s.runtime.containers ↔ x ∈ w.runtime.containers)

/-- **Deletion neither stops nor removes a container of the application**, whatever the runtime
answers. -/
theorem delete_containers (runtime : Bool) (app : Application) {w : DeployWorld}
    (hw : Named app.id w) :
    Wp deployExec (delete runtime app) (fun _ s => SameContainers app.id w s) w := by
  refine (deleteCall_delete runtime app).wp ?_ fun x _ => Iff.rfl
  intro c s o r s' hc hs h x hx
  have hnamed : Named app.id s := fun y hy happ => hw y ((hs y happ).mp hy) happ
  exact (runtime_of_deleteCall hnamed hc h x hx).trans (hs x hx)

/-- No container of the application is there. -/
def Clean (appID : String) (s : DeployWorld) : Prop :=
  ∀ c ∈ s.runtime.containers, ¬ Container.of appID c = true
  deriving Decidable

lemma SameContainers.clean_iff (h : SameContainers appID s s') : Clean appID s' ↔ Clean appID s := by
  constructor
  · exact fun hclean c hc happ => hclean c ((h c happ).mpr hc) happ
  · exact fun hclean c hc happ => hclean c ((h c happ).mp hc) happ

/-- **After deletion no container of the application is left exactly when there was none before**,
after every history of deployments and rollbacks, interleaved in any way. -/
theorem delete_clean_iff (ops : List Operation) (runtime : Bool) (app : Application)
    (w0 w w' : DeployWorld) (progs : List (DeployM Unit)) (as : List (ℕ × DeployChoice))
    (os : List DeployChoice) (hnew : Clean app.id w0)
    (hrun : run (poolStep deployExec) (w0, ops.map Operation.prog) as = some (w, progs))
    (hdelete : solo deployExec (delete runtime app) w os = some (.noContent, w')) :
    Clean app.id w' ↔ Clean app.id w := by
  have hnamed0 : Named app.id w0 := fun c hc happ => absurd happ (hnew c hc)
  have hnamed : Named app.id w := named_of_run hnamed0 hrun
  exact (of_solo (delete_containers runtime app hnamed) hdelete).clean_iff

def firstDeploy : List Operation := [.deploy ⟨true, false⟩ (webApp .git) "manual" ""]

def afterDeploy : Option (DeployWorld × List (DeployM Unit)) :=
  run (poolStep deployExec) (newWorld (webApp .git), firstDeploy.map Operation.prog)
    (gitChoices.map fun o => (0, o))

/-- An application that was never deployed leaves nothing behind. -/
theorem delete_clean_iff_neverDeployed :
    ∃ w', solo deployExec (delete true (webApp .git)) (newWorld (webApp .git))
        (List.replicate 5 {}) = some (.noContent, w') ∧
      Clean "web" w' := by
  refine exists_of_solo_imp (P := fun _ => True) (by decide) fun w' hdelete _ => ?_
  have hclean : Clean "web" (newWorld (webApp .git)) := by decide
  exact (delete_clean_iff [] _ _ _ _ w' [] [] _ hclean rfl hdelete).mpr hclean

/-- A deployment and then `Delete`, which answers 204: `dm-web-1` is still there, and runs. -/
theorem delete_leaves_container :
    ∃ w progs w', afterDeploy = some (w, progs) ∧ Clean "web" (newWorld (webApp .git)) ∧
      solo deployExec (delete true (webApp .git)) w (List.replicate 5 {}) =
        some (.noContent, w') ∧
      w'.runtime.containers.map (fun c => (c.name, Container.of "web" c, c.state)) =
        [("dm-web-1", true, .running)] := by
  obtain ⟨⟨w, progs⟩, hrun, hdelete⟩ : ∃ s, afterDeploy = some s ∧ ∃ w',
      solo deployExec (delete true (webApp .git)) s.1 (List.replicate 5 {}) =
        some (.noContent, w') ∧
      w'.runtime.containers.map (fun c => (c.name, Container.of "web" c, c.state)) =
        [("dm-web-1", true, .running)] := by decide +kernel
  obtain ⟨w', hdelete⟩ := hdelete
  exact ⟨w, progs, w', hrun, by decide, hdelete⟩

end DeployMonster.Handlers
