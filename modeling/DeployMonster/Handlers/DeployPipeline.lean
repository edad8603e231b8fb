import DeployMonster.Deploy.World
import DeployMonster.Webhooks.Receiver

/-!
# The deploy pipeline

`DeployTriggerHandler` of `internal/api/handlers/deploy_pipeline.go`: the deployment of a git
application and the image branch of `TriggerDeploy`, as programs of atomic calls.
-/

namespace DeployMonster.Handlers

open DB Deploy Program

/-- `DeployTriggerHandler`: whether it has a container runtime and a node manager. -/
structure DeployTriggerHandler where
  (runtime nodes : Bool)

def localNode : String := "local"

variable (app : Application)

def isRemoteApp : Bool := app.serverID ≠ "" ∧ app.serverID ≠ "local"

/-- `imageRefHasRegistry`: what stands before the first slash is a host. -/
def imageRefHasRegistry (ref : String) : Bool :=
  let first := ref.toList.takeWhile (· ≠ '/')
  '/' ∈ ref.toList ∧ (first = "localhost".toList ∨ first.any fun r => r = '.' ∨ r = ':')

variable (h : DeployTriggerHandler)

/-- `deployRuntimeForApp`: the node on which the application is deployed. -/
def deployRuntimeForApp (app : Application) : DeployM (Except String String) :=
  if isRemoteApp app then
    if h.nodes then do
      match ← call (.getNode app.serverID) with
      | .error e => return .error ("server " ++ app.serverID ++ " is not connected: " ++ e)
      | .ok () => return .ok app.serverID
    else return .error ("server " ++ app.serverID ++ " is not connected")
  else if h.runtime then return .ok localNode
  else return .error "container runtime not available"

def appNode : String := if isRemoteApp app then app.serverID else localNode

lemma returns_deployRuntimeForApp (app : Application) :
    Returns (fun r => ∀ node, r = .ok node → node = appNode app) (deployRuntimeForApp h app) := by
  unfold deployRuntimeForApp appNode
  split
  · split
    · rintro (e | _)
      · exact nofun
      · exact fun node hnode => (Except.ok.inj hnode).symm
    · exact nofun
  · split
    · exact fun node hnode => (Except.ok.inj hnode).symm
    · exact nofun

def routingLabels (app : Application) (i : ℕ) : List String → Labels
  | [] => []
  | fqdn :: domains =>
    let routerName := app.name ++ "-" ++ toString i
    let port := if app.port ≤ 0 then 80 else app.port
    ("monster.http.routers." ++ routerName ++ ".rule", "Host(`" ++ fqdn ++ "`)") ::
    ("monster.http.services." ++ routerName ++ ".loadbalancer.server.port", toString port) ::
    routingLabels app (i + 1) domains

def deployLabels (version : ℕ) : Labels :=
  [("monster.enable", "true"), ("monster.app.id", app.id), ("monster.app.name", app.name),
    ("monster.project", app.projectID), ("monster.tenant", app.tenantID),
    ("monster.deploy.version", toString version)]

def buildDeployLabels (version : ℕ) : DeployM Labels := do
  match ← call (.listDomainsByApp app.id app.tenantID) with
  | .error _ => return deployLabels app version
  | .ok domains => return deployLabels app version ++ routingLabels app 0 domains

lemma returns_buildDeployLabels (version : ℕ) :
    Returns (fun labels => ∃ rest, labels = deployLabels app version ++ rest)
      (buildDeployLabels app version) := by
  rintro (e | domains)
  · exact ⟨[], rfl⟩
  · exact ⟨routingLabels app 0 domains, rfl⟩

def containerName (appID : String) (version : ℕ) : String :=
  "dm-" ++ appID ++ "-" ++ toString version

/-- The container of a version, as both paths create it: without an environment. -/
def deployOpts (version : ℕ) (image : String) (labels : Labels) : ContainerOpts where
  name := containerName app.id version
  image
  labels
  network := "monster-network"
  restartPolicy := "unless-stopped"

/-- The loop of `cleanupPreviousAppContainers`: errors are logged. -/
def removeContainers (node : String) (keep : ℕ) : List Container → DeployM Unit
  | [] => return
  | c :: cs => do
    if c.id ≠ keep then
      let _ ← call (.stop node (.id c.id))
      let _ ← call (.remove node (.id c.id))
    removeContainers node keep cs

/-- `cleanupPreviousAppContainers`: every container of the application but the one to keep. -/
def cleanupPreviousAppContainers (node appID : String) (keepContainerID : ℕ) : DeployM Unit := do
  match ← call (.listByLabel node "monster.app.id" appID) with
  | .error _ => return
  | .ok containers => removeContainers node keepContainerID containers

def failAppAndPublish (event : DeployEvent) : DeployM Unit := do
  let _ ← call (.updateAppStatus app.id .failed app.tenantID)
  call (.publish event)

/-- `failReserved`: the application and the reserved row have failed. -/
def failReserved (dep : Deployment) (errMsg : String) : DeployM Unit := do
  let _ ← call (.updateAppStatus app.id .failed app.tenantID)
  if dep.id ≠ "" then
    let now ← call .now
    let _ ← call (.updateDeployment { dep with status := .failed, finishedAt := some now })
  call (.publish (.deployFailed app.id errMsg))

/-- `deployGitApp`, once the container runs. -/
def finishGit (node : String) (dep : Deployment) (result : BuildResult)
    (containerID : ℕ) : DeployM (Except String Unit) := do
  cleanupPreviousAppContainers node app.id containerID
  let dep := { dep with containerID := some containerID, status := .running }
  let _ ← call (.updateDeployment dep)
  let _ ← call (.updateAppStatus app.id .running app.tenantID)
  call (.publish (.appDeployed app.id dep.id dep.version result.imageTag dep.containerID "recreate"
    result.commitSHA))
  return .ok ()

/-- `deployGitApp`, once the row is reserved. -/
def startReserved (node : String) (dep : Deployment) (result : BuildResult) :
    DeployM (Except String Unit) := do
  let labels ← buildDeployLabels app dep.version
  match ← call (.ensureNetwork node "monster-network") with
  | .error e =>
    failReserved app dep e
    return .error e
  | .ok () =>
    match ← call (.createAndStart node (deployOpts app dep.version result.imageTag labels)) with
    | .error e =>
      failReserved app dep e
      return .error e
    | .ok containerID => finishGit app node dep result containerID

/-- `deployGitApp`, once the image is built: reserve the version and deploy. -/
def deployBuilt (app : Application) (triggeredBy : String)
    (result : BuildResult) : DeployM (Except String Unit) := do
  let _ ← call (.updateAppStatus app.id .deploying app.tenantID)
  match ← deployRuntimeForApp h app with
  | .error e =>
    failAppAndPublish app (.deployFailed app.id e)
    return .error e
  | .ok node =>
    let dep : Deployment :=
      { appID := app.id, image := result.imageTag, commitSHA := result.commitSHA,
        status := .deploying, triggeredBy, strategy := "recreate" }
    match ← call (.createDeploymentAtomicVersion dep) with
    | .error e =>
      failAppAndPublish app (.deployFailed app.id e)
      return .error e
    | .ok dep => startReserved app node dep result

def deployGitApp (app : Application) (triggeredBy commitSHA : String) :
    DeployM (Except String Unit) := do
  if ¬ h.runtime then
    let err := "container runtime not available"
    failAppAndPublish app (.deployFailed app.id err)
    return .error err
  let _ ← call (.updateAppStatus app.id .building app.tenantID)
  match ← call (.buildGit app commitSHA) with
  | .error e =>
    failAppAndPublish app (.buildFailed app.id e)
    return .error e
  | .ok result =>
    if isRemoteApp app ∧ ¬ imageRefHasRegistry result.imageTag then
      let err := "remote git deploy requires a registry-qualified image tag for " ++
        result.imageTag.quote ++ "; configure build push/pull before targeting server " ++
        app.serverID
      failAppAndPublish app (.deployFailed app.id err)
      return .error err
    deployBuilt h app triggeredBy result

/-- What `TriggerDeploy` answers. -/
inductive TriggerResponse
  | error (status : ℕ) (message : String)
  | deployed (deployment : Deployment)
  /-- 202: `deployGitApp` runs in the background. -/
  | building

/-- The image branch of `TriggerDeploy`, at its end. -/
def finishImage (dep : Deployment) : DeployM TriggerResponse := do
  let _ ← call (.updateAppStatus app.id .running app.tenantID)
  call (.publish (.appDeployed app.id dep.id dep.version app.sourceURL dep.containerID "recreate" ""))
  return .deployed dep

/-- The image branch of `TriggerDeploy`, when it gives up. -/
def failImage : DeployM TriggerResponse := do
  let _ ← call (.updateAppStatus app.id .failed app.tenantID)
  return .error 500 "deploy failed"

/-- The image branch of `TriggerDeploy`, once the row is reserved and the node is known. -/
def startImage (node : String) (dep : Deployment) : DeployM TriggerResponse := do
  let labels ← buildDeployLabels app dep.version
  match ← call (.ensureNetwork node "monster-network") with
  | .error _ => failImage app
  | .ok () =>
    match ← call (.createAndStart node (deployOpts app dep.version app.sourceURL labels)) with
    | .error _ => failImage app
    | .ok containerID =>
      let dep := { dep with containerID := some containerID }
      let _ ← call (.updateDeployment dep)
      cleanupPreviousAppContainers node app.id containerID
      finishImage app dep

/-- The image branch of `TriggerDeploy`, once the row is reserved. -/
def placeImage (app : Application) (dep : Deployment) : DeployM TriggerResponse := do
  match ← deployRuntimeForApp h app with
  | .ok node => startImage app node dep
  | .error _ => if app.serverID ≠ "" then failImage app else finishImage app dep

def deployImage (app : Application) : DeployM TriggerResponse := do
  let _ ← call (.updateAppStatus app.id .deploying app.tenantID)
  let dep : Deployment :=
    { appID := app.id, image := app.sourceURL, status := .deploying, triggeredBy := "manual",
      strategy := "recreate" }
  match ← call (.createDeploymentAtomicVersion dep) with
  | .error _ => return .error 500 "internal error"
  | .ok dep => placeImage h app dep

/-- `TriggerDeploy`, for the application of the request: POST /api/v1/apps/{id}/deploy. -/
def triggerDeploy (frozen : Bool) (app : Application) : DeployM TriggerResponse :=
  if frozen then return .error 423 "deployments are currently frozen"
  else if app.sourceType = .image then deployImage h app
  else return .building

/-!
# Deployments by webhook

`SubscribeWebhookDeploys` of `internal/api/handlers/deploy_pipeline.go`. It does not look at the
type of the event, and its filter passes an event that names no branch.
-/

open Webhooks List Option

/-- `SubscribeWebhookDeploys`, for one event; `frozen` is `activeDeployFreeze` for a tenant. -/
def webhookDeploys (h : DeployTriggerHandler) (frozen : String → Bool) : HookEvent → DeployM Unit
  | .rotated _ => return
  | .received webhookID _ _ branch commitSHA => do
    if webhookID = "" then return
    match ← call (.getApp webhookID) with
    | .error _ => return
    | .ok app =>
      if app.sourceType ≠ .git then return
      if app.branch ≠ "" ∧ branch ≠ "" ∧ app.branch ≠ branch then return
      if frozen app.tenantID then
        call (.publish (.deployFailed app.id "deployments are currently frozen"))
      else
        let _ ← deployGitApp h app "webhook" commitSHA

/-- The calls with which no deployment is started: the application is looked up, an event is
published. -/
def NoDeploy : DeployCall → Prop
  | .getApp _ | .publish _ => True
  | _ => False

/-- The applications are those of the table; every lookup may fail. -/
def LooksUpIn (apps : AppTable) : (c : DeployCall) → DeployAnswer c → Prop
  | .getApp id, .ok app => DB.getApp apps id = some app
  | _, _ => True

/-- The program comes to deploy an application. -/
def Starts (apps : AppTable) (p : DeployM Unit) : Prop := ¬ CallsIn (LooksUpIn apps) NoDeploy p

variable {h : DeployTriggerHandler} {frozen : String → Bool} {apps : AppTable} {app : Application}
  {provider : Provider} {eventType branch commitSHA : String}

lemma not_idle_deployGitApp {f : Except String Unit → DeployM Unit} (triggeredBy : String) :
    ¬ CallsIn (LooksUpIn apps) NoDeploy (deployGitApp h app triggeredBy commitSHA >>= f) := by
  unfold deployGitApp
  split <;> exact fun hidle => hidle.1

/-- **The deliveries that start a deployment** of a git application: those that its branch does not
exclude, unless deployments are frozen. -/
theorem starts_iff (happ : DB.getApp apps app.id = some app) (hid : app.id ≠ "")
    (hgit : app.sourceType = .git) :
    Starts apps (webhookDeploys h frozen (.received app.id provider eventType branch commitSHA)) ↔
      (app.branch = "" ∨ branch = "" ∨ app.branch = branch) ∧ frozen app.tenantID = false := by
  rw [Starts, not_iff_comm]
  simp only [webhookDeploys, if_neg hid, call, Prog.perform_bind]
  constructor
  · intro hexcluded
    refine ⟨trivial, fun answer hanswer => ?_⟩
    rcases answer with e | found
    · exact trivial
    cases happ.symm.trans hanswer
    dsimp only
    split
    · exact trivial
    split
    · exact trivial
    case isFalse hpasses =>
      split
      · exact ⟨trivial, fun _ _ => trivial⟩
      case isFalse hfrozen =>
        exact absurd ⟨by tauto, Bool.eq_false_iff.mpr hfrozen⟩ hexcluded
  · rintro ⟨-, hidle⟩ ⟨hpasses, hfrozen⟩
    have hok := hidle (.ok app) happ
    dsimp only at hok
    rw [if_neg (not_not.mpr hgit), if_neg (by tauto), if_neg (by simp [hfrozen])] at hok
    exact not_idle_deployGitApp _ hok

/-! ## Pushes -/

open Json

/-- A ref of which a body says that it was pushed: whether it is a branch, and its name. -/
structure PushedRef where
  isBranch : Bool
  name : String
  deriving DecidableEq

/-- The entry `ref`: the full name of a branch, or another name. -/
def refNamed (body : Json) : Option PushedRef :=
  ((field "ref" (body.fields?.getD [])).string?).map fun ref =>
    ⟨"refs/heads/".toList.isPrefixOf ref.toList, trimStart "refs/heads/" ref⟩

/-- The new ref of each change of a Bitbucket push, a branch or a tag. -/
def changedRefs (body : Json) : List PushedRef :=
  let push := ((field "push" (body.fields?.getD [])).object?).getD []
  let changes := ((field "changes" push).array?).getD []
  changes.filterMap fun change => do
    let new ← (field "new" (← change.object?)).object?
    return ⟨text "type" new = "branch", text "name" new⟩

/-- The flat form of a delivery: its event and its branch. -/
def flatForm (body : Json) : String × String :=
  ((decodePayload body).map fun flat => (flat.eventType, flat.branch)).getD ("", "")

/-- The refs of which a body says that they were pushed. -/
def reportedRefs (body : Json) : Provider → List PushedRef
  | .github | .gitlab | .gitea | .gogs => (refNamed body).toList
  | .bitbucket => changedRefs body ++ [⟨true, (flatForm body).2⟩]
  | .generic => [⟨true, (flatForm body).2⟩]

/-- The event of a delivery is the push of its provider. -/
def pushEvent (body : Json) (r : Headers) : Provider → Bool
  | .github => r .gitHubEvent = "push"
  | .gitlab => r .gitlabEvent = "Push Hook"
  | .gitea => r .giteaEvent = "push"
  | .gogs => r .gogsEvent = "push"
  | .bitbucket => r .eventKey = "repo:push" ∨ r .eventKey = "repo:refs_changed"
  | .generic => (flatForm body).1 = "push"

/-- The delivery reports a push to the branch. -/
def ReportsPush (branch : String) (provider : Provider) (body : Json) (r : Headers) : Prop :=
  pushEvent body r provider = true ∧ ⟨true, branch⟩ ∈ reportedRefs body provider
  deriving Decidable

/-- The name that stands in the place of the branch, empty when there is none: that of the entry
`ref`, of the first change, or of the flat form. -/
def namedBranch (body : Json) : Provider → String
  | .github | .gitlab | .gitea | .gogs => ((refNamed body).map PushedRef.name).getD ""
  | .bitbucket =>
    let fields := body.fields?.getD []
    let repo := ((field "repository" fields).object?).getD []
    match newRef? fields with
    | some new => text "name" new
    | none => if text "full_name" repo ≠ "" ∨ (httpsLink? repo).isSome then "" else (flatForm body).2
  | .generic => (flatForm body).2

variable {payload : WebhookPayload}

lemma branchOf_eq {body : Json} {fields : List (String × Json)} (hfields : body.fields? = some fields) :
    branchOf fields = ((refNamed body).map PushedRef.name).getD "" := by
  rw [branchOf, refNamed, hfields, Option.getD_some]
  cases (field "ref" fields).string? <;> rfl

/-- The parsers find the branch where it is named. -/
lemma branch_eq_namedBranch {body : Json} {r : Headers}
    (hparse : parsePayload provider body r = some payload) :
    payload.branch = namedBranch body provider := by
  cases provider with
  | github | gitlab | gitea | gogs =>
    obtain ⟨fields, hfields, hpayload⟩ := Option.bind_eq_some_iff.mp hparse
    cases hpayload
    exact branchOf_eq hfields
  | generic =>
    obtain ⟨flat, hflat, hpayload⟩ := Option.bind_eq_some_iff.mp hparse
    cases hpayload
    rw [namedBranch, flatForm, hflat]
    split <;> rfl
  | bitbucket =>
    obtain ⟨fields, hfields, hpayload⟩ := Option.bind_eq_some_iff.mp hparse
    dsimp only at hpayload
    rw [namedBranch, hfields, Option.getD_some]
    cases hnew : newRef? fields with
    | some new =>
      rw [hnew, if_pos (.inl rfl)] at hpayload
      cases hpayload
      rfl
    | none =>
      rw [hnew] at hpayload
      dsimp only
      by_cases hnative : text "full_name" (((field "repository" fields).object?).getD []) ≠ "" ∨
          (httpsLink? (((field "repository" fields).object?).getD [])).isSome
      · rw [if_pos (.inr hnative)] at hpayload
        rw [if_pos hnative]
        cases hpayload
        rfl
      · simp only [Option.isSome_none, Bool.false_eq_true, false_or, if_neg hnative] at hpayload
        rw [if_neg hnative, flatForm]
        cases hflat : decodePayload body with
        | none =>
          rw [hflat] at hpayload
          cases hpayload
          rfl
        | some flat =>
          rw [hflat] at hpayload
          cases hpayload
          dsimp only [orElse, Option.map_some, Option.getD_some]
          split_ifs with hempty
          · exact hempty.symm
          · rfl

def mainApp : Application := { id := "app1", tenantID := "t1", name := "site", branch := "main" }

def mainApps : AppTable := ⟨[mainApp], nodup_singleton _⟩

def unfrozen : String → Bool := fun _ => false

def gitlabDelivery (event : String) : Headers
  | .gitlabEvent => event
  | .gitlabToken => "k"
  | _ => ""

def mainBody : List UInt8 := SHA256.utf8 "\x7b\"ref\":\"refs/heads/main\"\x7d"

def mainReceiver : Receiver where
  kv := true
  events := true
  unmarshal := fun body =>
    if body = mainBody then some (.object [("ref", .string "refs/heads/main")])
    else if body = emptyObject then some (.object []) else none

end DeployMonster.Handlers
