import DeployMonster.Handlers.DeployPipeline

/-!
# Rollback

`RollbackEngine.Rollback` of `internal/deploy/rollback.go`. It runs on the container runtime of the
master, whatever server the application is on.
-/

namespace DeployMonster.Deploy

open DB Handlers Program

/-- The loop of the health check: an error is retried, a container that does not run is not. -/
def healthLoop (containerID : ℕ) : ℕ → DeployM Bool
  | 0 => return false
  | n + 1 => do
    match ← call (.stats localNode (.id containerID)) with
    | .ok running => return running
    | .error _ => healthLoop containerID n

/-- The health check of the new container, with its final attempt. -/
def healthCheck (containerID : ℕ) : DeployM Bool := do
  if ← healthLoop containerID 10 then return true
  match ← call (.stats localNode (.id containerID)) with
  | .ok running => return running
  | .error _ => return false

variable {P : DeployCall → Prop}

lemma allCalls_healthLoop {containerID : ℕ} (h : P (.stats localNode (.id containerID))) (n : ℕ) :
    AllCalls P (healthLoop containerID n) := by
  induction n with
  | zero => trivial
  | succ n ih =>
    refine ⟨h, ?_⟩
    rintro (e | running)
    · exact ih
    · trivial

lemma allCalls_healthCheck {containerID : ℕ}
    (h : P (.stats localNode (.id containerID))) : AllCalls P (healthCheck containerID) := by
  refine (allCalls_healthLoop h 10).bind fun healthy => ?_
  cases healthy with
  | true => trivial
  | false =>
    refine ⟨h, ?_⟩
    rintro (e | running) <;> trivial

variable (app : Application)

def rollbackLabels (appID : String) (newVersion targetVersion : ℕ) : Labels :=
  [("monster.enable", "true"), ("monster.app.id", appID), ("monster.app.name", app.name),
    ("monster.tenant", app.tenantID), ("monster.deploy.version", toString newVersion),
    ("monster.rollback.from", toString targetVersion)]

/-- `Rollback`, at its end: the new deployment is recorded as the running one. -/
def recordRollback (appID : String) (deployment : Deployment) :
    DeployM (Except String Deployment) := do
  let finished ← call .now
  let deployment := { deployment with status := .running, finishedAt := some finished }
  match ← call (.updateDeployment deployment) with
  | .error e => return .error ("persist rollback deployment status: " ++ e)
  | .ok () =>
    let _ ← call (.updateAppStatus appID .running app.tenantID)
    call (.publish (.rollbackDone appID deployment.id deployment.version deployment.image))
    return .ok deployment

variable (runtime : Bool)

/-- `Rollback`, once the new container is healthy: the old one goes. -/
def finishRollback (app : Application) (appID : String) (deployment : Deployment)
    (oldContainerID : Option ℕ) : DeployM (Except String Deployment) := do
  if runtime then
    match oldContainerID with
    | none => pure ()
    | some id =>
      let _ ← call (.stop localNode (.id id))
      let _ ← call (.remove localNode (.id id))
  recordRollback app appID deployment

/-- `Rollback`, when its container does not come up: the row has failed, the application has the
status given. -/
def failRollback (appID : String) (deployment : Deployment) (status : AppStatus) :
    DeployM Unit := do
  let failed ← call .now
  let _ ← call (.updateDeployment { deployment with status := .failed, finishedAt := some failed })
  let _ ← call (.updateAppStatus appID status app.tenantID)

/-- `Rollback`, once the row is reserved. -/
def startRollback (app : Application) (appID : String) (deployment : Deployment)
    (targetVersion : ℕ) (oldContainerID : Option ℕ) : DeployM (Except String Deployment) := do
  let _ ← call (.updateAppStatus appID .deploying app.tenantID)
  let domains := match ← call (.listDomainsByApp appID app.tenantID) with
    | .ok domains => domains
    | .error _ => []
  if runtime then
    let opts := deployOpts app deployment.version deployment.image
      (rollbackLabels app appID deployment.version targetVersion ++ routingLabels app 0 domains)
    match ← call (.createAndStart localNode opts) with
    | .error e =>
      failRollback app appID deployment .failed
      let _ ← call (.stop localNode (.name opts.name))
      let _ ← call (.remove localNode (.name opts.name))
      return .error ("rollback deploy: " ++ e)
    | .ok newContainerID =>
      let deployment := { deployment with containerID := some newContainerID }
      if ← healthCheck newContainerID then
        finishRollback runtime app appID deployment oldContainerID
      else
        let _ ← call (.stop localNode (.id newContainerID))
        let _ ← call (.remove localNode (.id newContainerID))
        failRollback app appID deployment .running
        return .error "new container failed health check during rollback"
  else finishRollback runtime app appID deployment oldContainerID

/-- `Rollback`, once the deployment to go back to and the application are known. -/
def rollbackTo (app : Application) (appID : String) (target : Deployment) :
    DeployM (Except String Deployment) := do
  let oldContainerID := match ← call (.getLatestDeployment appID) with
    | .ok current => current.containerID
    | .error _ => none
  let now ← call .now
  let deployment : Deployment :=
    { appID, image := target.image, status := .deploying, commitSHA := target.commitSHA,
      commitMessage := "Rollback to v" ++ toString target.version, triggeredBy := "rollback",
      strategy := "recreate", startedAt := some now }
  match ← call (.createDeploymentAtomicVersion deployment) with
  | .error e => return .error ("create rollback deployment: " ++ e)
  | .ok deployment =>
    startRollback runtime app appID deployment target.version oldContainerID

def rollback (appID : String) (targetVersion : ℕ) : DeployM (Except String Deployment) := do
  match ← call (.listDeploymentsByApp appID 50) with
  | .error e => return .error ("list deployments: " ++ e)
  | .ok deployments =>
    match deployments.find? (·.version = targetVersion) with
    | none => return .error ("deployment version " ++ toString targetVersion ++ " not found")
    | some target =>
      if target.image = "" then
        return .error ("version " ++ toString targetVersion ++ " has no image to rollback to")
      match ← call (.getApp appID) with
      | .error e => return .error ("get app: " ++ e)
      | .ok app => rollbackTo runtime app appID target

end DeployMonster.Deploy
