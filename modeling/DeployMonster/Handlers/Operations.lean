import DeployMonster.Handlers.DeployOutcome

/-!
# The containers that deployments and rollbacks create

The image branch of `TriggerDeploy`, `deployGitApp` and `Rollback` each fill `core.ContainerOpts` on
their own, with the same fields.
-/

namespace DeployMonster.Handlers

open DB Deploy Program

inductive Operation
  | deploy (h : DeployTriggerHandler) (app : Application) (triggeredBy commitSHA : String)
  | rollback (runtime : Bool) (appID : String) (targetVersion : ℕ)

def Operation.prog : Operation → DeployM Unit
  | deploy h app triggeredBy commitSHA => deployApp h app triggeredBy commitSHA
  | rollback runtime appID targetVersion => do
    let _ ← Deploy.rollback runtime appID targetVersion

/-- A container that is created has the options of a deployment of the application that its label
names. -/
def DeployedCall : DeployCall → Prop
  | .createAndStart _ opts => ∃ app version image labels,
      opts = deployOpts app version image labels ∧ labels.lookup "monster.app.id" = some app.id
  | _ => True

/-- The store answers with the application it is asked for. -/
def Answered : (c : DeployCall) → DeployAnswer c → Prop
  | .getApp id, .ok app => app.id = id
  | _, _ => True

lemma answered_of_deployExec {s s' : DeployWorld} {o : DeployChoice} {c : DeployCall}
    {r : DeployAnswer c} (h : deployExec c s o = some (r, s')) : Answered c r := by
  cases c with
  | getApp id =>
    cases r with
    | error => trivial
    | ok app =>
      simp only [deployExec] at h
      split at h
      · cases h
      case h_2 a ha =>
        rcases answer_eq_some h with ⟨e, -, hr, -⟩ | ⟨-, hr, -⟩
        · cases hr
        · cases hr
          exact (Table.find?_eq_some_iff.mp ha).2
  | _ => trivial

lemma deployedCall_of_quiet {c : DeployCall} (hc : Quiet c) : DeployedCall c := by
  cases c with
  | createAndStart => cases hc.2
  | _ => trivial

lemma deployed_cleanup (node appID : String) (keep : ℕ) :
    AllCalls DeployedCall (cleanupPreviousAppContainers node appID keep) := by
  refine (allCalls_cleanup node appID keep).mono fun c hc => ?_
  cases c with
  | createAndStart => exact hc.elim
  | _ => trivial

variable (h : DeployTriggerHandler) (app : Application)

lemma deployedProtocol : GitProtocol (fun (_ : Unit) c _ _ => DeployedCall c) (fun _ _ => True) app ()
    (fun _ => ()) (fun _ _ => True) where
  unreserved := trivial
  holds _ := trivial
  error _ _ := trivial
  quiet _ _ hc _ := deployedCall_of_quiet hc
  update _ _ _ := trivial
  refuse _ _ := ⟨(), trivial, trivial⟩
  reserve _ _ := trivial
  create dep result labels r := by
    refine ⟨(), ⟨app, _, _, _, rfl, rfl⟩, fun _ _ => trivial, fun id _ => ?_⟩
    refine AllCalls.follows (P := DeployedCall) ?_ (fun _ hc _ => hc) (.of_forall (fun _ => trivial) _)
    exact (deployed_cleanup _ app.id id).bind fun _ =>
      ⟨trivial, fun _ => ⟨trivial, fun _ => ⟨trivial, fun _ => trivial⟩⟩⟩

instance (c : DeployCall) : Nonempty (DeployAnswer c) := by
  cases c <;> exact ⟨default⟩

lemma deployed_deployGitApp (triggeredBy commitSHA : String) :
    AllCalls DeployedCall (deployGitApp h app triggeredBy commitSHA) :=
  ((deployedProtocol app).follows_deployGitApp h triggeredBy commitSHA).allCalls fun _ _ _ _ hc => hc

lemma deployed_deployImage : AllCalls DeployedCall (deployImage h app) := by
  refine ⟨trivial, fun _ => ⟨trivial, ?_⟩⟩
  rintro (e | dep)
  · trivial
  have hfail : AllCalls DeployedCall (failImage app) := ⟨trivial, fun _ => trivial⟩
  have hfinish : ∀ dep, AllCalls DeployedCall (finishImage app dep) :=
    fun _ => ⟨trivial, fun _ => ⟨trivial, fun _ => trivial⟩⟩
  refine ((allCalls_deployRuntimeForApp h app).mono fun _ => deployedCall_of_quiet).bind ?_
  rintro (e | node)
  · dsimp only
    split
    · exact hfail
    · exact hfinish dep
  refine ((allCalls_buildDeployLabels app dep.version).mono fun _ => deployedCall_of_quiet).bind_of_returns
    (returns_buildDeployLabels app dep.version) ?_
  rintro _ ⟨rest, rfl⟩
  refine ⟨trivial, ?_⟩
  rintro (e | _)
  · exact hfail
  refine ⟨⟨app, _, _, _, rfl, rfl⟩, ?_⟩
  rintro (e | containerID)
  · exact hfail
  · exact ⟨trivial, fun _ => (deployed_cleanup node app.id containerID).bind fun _ => hfinish _⟩

variable (runtime : Bool)

lemma deployed_finishRollback (app : Application) (appID : String)
    (deployment : Deployment) (oldContainerID : Option ℕ) :
    AllCalls DeployedCall (finishRollback runtime app appID deployment oldContainerID) := by
  have hrecord : AllCalls DeployedCall (recordRollback app appID deployment) := by
    refine ⟨trivial, fun finished => ⟨trivial, ?_⟩⟩
    rintro (e | _)
    · trivial
    · exact ⟨trivial, fun _ => ⟨trivial, fun _ => trivial⟩⟩
  cases runtime with
  | false => exact hrecord
  | true =>
    cases oldContainerID with
    | none => exact hrecord
    | some id => exact ⟨trivial, fun _ => ⟨trivial, fun _ => hrecord⟩⟩

lemma deployed_startRollback (app : Application) (deployment : Deployment)
    (targetVersion : ℕ) (oldContainerID : Option ℕ) :
    AllCalls DeployedCall
      (startRollback runtime app app.id deployment targetVersion oldContainerID) := by
  refine ⟨trivial, fun _ => ⟨trivial, fun domains => ?_⟩⟩
  cases runtime with
  | false => exact deployed_finishRollback false app app.id deployment oldContainerID
  | true =>
    refine ⟨⟨app, _, _, _, rfl, rfl⟩, ?_⟩
    have hfail : ∀ d status, AllCalls DeployedCall (failRollback app app.id d status) :=
      fun _ _ => ⟨trivial, fun _ => ⟨trivial, fun _ => ⟨trivial, fun _ => trivial⟩⟩⟩
    rintro (e | newContainerID)
    · refine (hfail deployment .failed).bind fun _ => ?_
      exact ⟨trivial, fun _ => ⟨trivial, fun _ => trivial⟩⟩
    refine (allCalls_healthCheck trivial).bind fun healthy => ?_
    cases healthy with
    | true => exact deployed_finishRollback true app app.id _ oldContainerID
    | false =>
      refine ⟨trivial, fun _ => ⟨trivial, fun _ => ?_⟩⟩
      exact (hfail _ .running).bind fun _ => trivial

lemma deployed_rollback (appID : String) (targetVersion : ℕ) :
    CallsIn Answered DeployedCall (rollback runtime appID targetVersion) := by
  refine ⟨trivial, ?_⟩
  rintro (e | deployments) -
  · trivial
  dsimp only [Prog.bind]
  split
  · trivial
  split
  · trivial
  refine ⟨trivial, ?_⟩
  rintro (e | app) happ
  · trivial
  obtain rfl : app.id = appID := happ
  refine AllCalls.callsIn ⟨trivial, fun current => ⟨trivial, fun now => ⟨trivial, ?_⟩⟩⟩
  rintro (e | deployment)
  · trivial
  · exact deployed_startRollback runtime app deployment _ _

lemma deployed_operation (op : Operation) : CallsIn Answered DeployedCall op.prog := by
  cases op with
  | deploy h app triggeredBy commitSHA =>
    refine AllCalls.callsIn ?_
    rw [Operation.prog, deployApp]
    split
    case isTrue himage =>
      rw [triggerDeploy, if_neg Bool.false_ne_true, if_pos himage]
      exact (deployed_deployImage h app).bind fun _ => trivial
    case isFalse =>
      exact (deployed_deployGitApp h app triggeredBy commitSHA).bind fun _ => trivial
  | rollback runtime appID targetVersion =>
    exact (deployed_rollback runtime appID targetVersion).bind fun _ => trivial

lemma deployed_operations (ops : List Operation) :
    ∀ p ∈ ops.map Operation.prog, CallsIn Answered DeployedCall p :=
  List.forall_mem_map.mpr fun op _ => deployed_operation op

end DeployMonster.Handlers
