import DeployMonster.Core.EventBus
import DeployMonster.Deploy.Rollback
import DeployMonster.Library.FirstMatch

/-!
# Automatic rollback

`AutoRollbackManager` of `internal/deploy/autorollback.go`. The manager expects the payload
`core.DeployEventData`, and every path of the deploy pipeline that reports a failure publishes a
`map[string]string` instead.
-/

namespace DeployMonster.Deploy

section

open Clock DeployMonster.Core DB Handlers Program List

/-- `core.DeployEventData`. -/
structure DeployEventData where
  appID : String
  deploymentID : String := ""
  version : ℕ := 0
  image : String := ""
  containerID : Option ℕ := none
  strategy : String := ""
  commitSHA : String := ""
  error : String := ""

/-- The payload of an event: `Data` has the Go type `any`. -/
inductive EventData
  | deploy (data : DeployEventData)
  /-- `core.AppEventData`, with the fields that are set. -/
  | app (appID status : String)
  /-- `map[string]string`. -/
  | stringMap (entries : List (String × String))

/-- An event as a subscriber gets it. -/
structure Notice where
  eventType : String
  data : EventData

def eventDeployFailed : String := "deploy.failed"

def DeployEvent.notice : DeployEvent → Notice
  | deployFailed appID error => ⟨eventDeployFailed, .stringMap [("app_id", appID), ("error", error)]⟩
  | buildFailed appID error => ⟨"build.failed", .stringMap [("app_id", appID), ("error", error)]⟩
  | appDeployed appID deploymentID version image containerID strategy commitSHA =>
    ⟨"app.deployed", .deploy
      { appID, deploymentID, version, image, containerID, strategy, commitSHA }⟩
  | rollbackDone appID deploymentID version image =>
    ⟨"deploy.rollback", .deploy { appID, deploymentID, version, image, strategy := "rollback" }⟩
  | appDeleted id => ⟨"app.deleted", .stringMap [("id", id)]⟩
  | appStopped id => ⟨"app.stopped", .stringMap [("id", id)]⟩
  | appCrashed appID => ⟨"app.crashed", .app appID "crashed"⟩

structure AutoRollbackManager where
  closed : Bool := false
  cooldown : ℤ := 5 * minute
  lastAttempt : String → Option ℤ := fun _ => none

variable (ar : AutoRollbackManager)

def AutoRollbackManager.attempted (appID : String) (now : ℤ) : AutoRollbackManager :=
  { ar with lastAttempt := fun id => if id = appID then some now else ar.lastAttempt id }

/-- `findLastStable`: the newest deployment but one, or older, that runs and has an image. -/
def findLastStable (appID : String) : DeployM (Except String ℕ) := do
  match ← call (.listDeploymentsByApp appID 20) with
  | .error e => return .error e
  | .ok deployments =>
    match (deployments.drop 1).find? fun d => d.status = .running ∧ d.image ≠ "" with
    | some d => return .ok d.version
    | none => return .error ("no previous stable deployment found for app " ++ appID)

/-- The critical section of `handleFailure`: the manager that has recorded the attempt, or nothing when
it is closed or the cooldown is active. -/
def beginAttempt (appID : String) : DeployM (Option AutoRollbackManager) := do
  if ar.closed then return none
  let cooling ← match ar.lastAttempt appID with
    | none => pure false
    | some last => do
      let now ← call .now
      pure (decide (now - last < ar.cooldown))
  if cooling then return none
  let now ← call .now
  return some (ar.attempted appID now)

/-- `handleFailure` up to the rollback: the version that it rolls back to, if any. -/
def failureTarget (appID : String) : DeployM (AutoRollbackManager × Option ℕ) := do
  match ← beginAttempt ar appID with
  | none => return (ar, none)
  | some ar =>
    match ← findLastStable appID with
    | .error _ => return (ar, none)
    | .ok stableVersion => return (ar, some stableVersion)

def handleFailure (appID : String) : DeployM AutoRollbackManager := do
  let (ar, target) ← failureTarget ar appID
  match target with
  | none => return ar
  | some stableVersion =>
    let _ ← rollback true appID stableVersion
    return ar

/-- The handler that `Start` subscribes: the application for which it calls `handleFailure`. The
payload is asserted to be a `core.DeployEventData`. -/
def onDeployFailed (data : EventData) : Option String :=
  if ar.closed then none
  else
    match data with
    | .deploy data => some data.appID
    | .app .. | .stringMap _ => none

/-- `Start`, with the id of the subscription. -/
def AutoRollbackManager.start (_ : AutoRollbackManager) (eb : EventBus) (subID : String) : EventBus :=
  eb.subscribeNamed { id := subID, eventType := eventDeployFailed, name := "", async := true }

/-- The calls of `handleFailure` to which an event leads: the handlers of the matching subscriptions
run once each, since they return no error. -/
def handlerCalls (eb : EventBus) (subID : String) (event : Notice) : List String :=
  ((eb.matchSubscriptions event.eventType).filter fun sub => sub.id = subID).filterMap
    fun _ => onDeployFailed ar event.data

lemma isMatch_deployFailed (id name eventType : String) (async : Bool) :
    Subscription.isMatch ⟨id, eventDeployFailed, name, async⟩ eventType = true ↔
      eventType = eventDeployFailed := by
  have hcut : cutSuffix eventDeployFailed ".*" = ("deploy.failed", false) := by decide
  unfold Subscription.isMatch
  rw [if_neg (show eventDeployFailed ≠ "*" by decide), hcut]
  simp [eq_comm]

variable {ar : AutoRollbackManager} {eb : EventBus} {subID : String}

lemma handlerCalls_start (hfresh : ∀ sub ∈ eb.subscriptions, sub.id ≠ subID) (event : Notice) :
    handlerCalls ar (ar.start eb subID) subID event =
      if event.eventType = eventDeployFailed then (onDeployFailed ar event.data).toList else [] := by
  have hothers : (eb.subscriptions.filter fun sub => sub.isMatch event.eventType).filter
      (fun sub => sub.id = subID) = [] := by
    refine filter_eq_nil_iff.mpr fun sub hsub => ?_
    simpa using hfresh sub (mem_of_mem_filter hsub)
  simp only [handlerCalls, AutoRollbackManager.start, EventBus.subscribeNamed,
    EventBus.matchSubscriptions, filter_append, hothers, nil_append]
  have hmatch := isMatch_deployFailed subID "" event.eventType true
  split
  case isTrue htype =>
    simp only [filter_cons, hmatch.mpr htype, if_true, filter_nil, decide_true]
    cases onDeployFailed ar event.data with
    | none => rfl
    | some => rfl
  case isFalse htype =>
    simp only [filter_cons, mt hmatch.mp htype, Bool.false_eq_true, if_false, filter_nil,
      filterMap_nil]

lemma onDeployFailed_eq_some {data : EventData} {appID : String} :
    onDeployFailed ar data = some appID ↔
      ar.closed = false ∧ ∃ d, data = .deploy d ∧ d.appID = appID := by
  unfold onDeployFailed
  cases ar.closed with
  | true => simp
  | false => cases data <;> simp

lemma handlerCalls_deployFailed (hfresh : ∀ sub ∈ eb.subscriptions, sub.id ≠ subID)
    (appID error : String) :
    handlerCalls ar (ar.start eb subID) subID (DeployEvent.deployFailed appID error).notice = [] := by
  refine (handlerCalls_start hfresh _).trans ((if_pos rfl).trans ?_)
  cases hcall : onDeployFailed ar (DeployEvent.deployFailed appID error).notice.data with
  | none => rfl
  | some id =>
    obtain ⟨-, d, hdata, -⟩ := onDeployFailed_eq_some.mp hcall
    cases hdata

/-! ## The reports of the pipeline -/

/-- A deployment that fails has published its error, and nothing else. -/
def Reports (app : Application) (before : List DeployEvent) (result : Except String Unit)
    (w : DeployWorld) : Prop :=
  ∀ e, result = .error e →
    w.events = before ++ [.deployFailed app.id e] ∨ w.events = before ++ [.buildFailed app.id e]

variable {app : Application} {w : DeployWorld} {before : List DeployEvent}

lemma wp_silent_bind {α β : Type} {p : DeployM α} {f : α → DeployM β} {Q : β → DeployWorld → Prop}
    (hp : AllCalls (fun c => c.published = []) p) (hw : w.events = before)
    (hf : ∀ a w', w'.events = before → Wp deployExec (f a) Q w') : Wp deployExec (p >>= f) Q w := by
  refine (wp_bind ..).mpr ((hp.wp (I := fun s : DeployWorld => s.events = before) ?_ hw).mono hf)
  intro c s o r s' hc hs h
  rw [events_of_deployExec h, hc, append_nil, hs]

lemma silent_call {c : DeployCall} (hc : c.published = []) :
    AllCalls (fun c => c.published = []) (call c) := ⟨hc, fun _ => trivial⟩

variable {event : DeployEvent}

lemma wp_publish {Q : Unit → DeployWorld → Prop} (hw : w.events = before)
    (hQ : ∀ w', w'.events = before ++ [event] → Q () w') :
    Wp deployExec (call (.publish event)) Q w := by
  intro o r w' h
  refine hQ w' ?_
  rw [events_of_deployExec h, hw]
  rfl

lemma wp_failAppAndPublish (event : DeployEvent) (hw : w.events = before) :
    Wp deployExec (failAppAndPublish app event) (fun _ w' => w'.events = before ++ [event]) w :=
  wp_silent_bind (silent_call rfl) hw fun _ _ hw1 => wp_publish hw1 fun _ => id

lemma wp_failReserved (dep : Deployment) (errMsg : String) (hw : w.events = before) :
    Wp deployExec (failReserved app dep errMsg)
      (fun _ w' => w'.events = before ++ [.deployFailed app.id errMsg]) w := by
  refine wp_silent_bind (silent_call rfl) hw fun _ w1 hw1 => ?_
  split
  · refine wp_silent_bind (silent_call rfl) hw1 fun _ w2 hw2 => ?_
    refine wp_silent_bind (silent_call rfl) hw2 fun _ w3 hw3 => ?_
    exact wp_publish hw3 fun _ => id
  · exact wp_publish hw1 fun _ => id

lemma reports_of_fail {p : DeployM Unit} {e : String}
    (hp : Wp deployExec p (fun _ w' => w'.events = before ++ [event]) w)
    (hevent : event = .deployFailed app.id e ∨ event = .buildFailed app.id e) :
    Wp deployExec (p >>= fun _ => pure (.error e)) (Reports app before) w := by
  refine (wp_bind ..).mpr (hp.mono fun _ w' hw' => ?_)
  rintro _ ⟨⟩
  rcases hevent with rfl | rfl
  · exact .inl hw'
  · exact .inr hw'

lemma reports_finishGit (node : String) (dep : Deployment) (result : BuildResult)
    (containerID : ℕ) :
    Wp deployExec (finishGit app node dep result containerID) (Reports app before) w := by
  refine (wp_bind ..).mpr (.of_forall (fun _ _ => ?_) _ _)
  intro o1 r1 w1 _ o2 r2 w2 _ o3 r3 w3 _
  exact nofun

lemma reports_startReserved (node : String) (dep : Deployment) (result : BuildResult)
    (hw : w.events = before) :
    Wp deployExec (startReserved app node dep result) (Reports app before) w := by
  have hsilent : AllCalls (fun c => c.published = []) (buildDeployLabels app dep.version) := by
    refine ⟨rfl, ?_⟩
    rintro (e | domains) <;> trivial
  refine wp_silent_bind hsilent hw fun labels w1 hw1 => ?_
  refine wp_silent_bind (silent_call rfl) hw1 ?_
  rintro (e | _) w2 hw2
  · exact reports_of_fail (wp_failReserved dep e hw2) (.inl rfl)
  refine wp_silent_bind (silent_call rfl) hw2 ?_
  rintro (e | containerID) w3 hw3
  · exact reports_of_fail (wp_failReserved dep e hw3) (.inl rfl)
  · exact reports_finishGit node dep result containerID

variable (h : DeployTriggerHandler)

lemma reports_deployBuilt (triggeredBy : String) (result : BuildResult) (hw : w.events = before) :
    Wp deployExec (deployBuilt h app triggeredBy result) (Reports app before) w := by
  have hsilent : AllCalls (fun c => c.published = []) (deployRuntimeForApp h app) := by
    unfold deployRuntimeForApp
    split
    · split
      · refine ⟨rfl, ?_⟩
        rintro (e | _) <;> trivial
      · trivial
    · split <;> trivial
  refine wp_silent_bind (silent_call rfl) hw fun _ w1 hw1 => ?_
  refine wp_silent_bind hsilent hw1 ?_
  rintro (e | node) w2 hw2
  · exact reports_of_fail (wp_failAppAndPublish _ hw2) (.inl rfl)
  refine wp_silent_bind (silent_call rfl) hw2 ?_
  rintro (e | dep) w3 hw3
  · exact reports_of_fail (wp_failAppAndPublish _ hw3) (.inl rfl)
  · exact reports_startReserved node dep result hw3

/-- **A deployment that fails publishes one event, with its error.** -/
theorem reports_deployGitApp (triggeredBy commitSHA : String) (hw : w.events = before) :
    Wp deployExec (deployGitApp h app triggeredBy commitSHA) (Reports app before) w := by
  unfold deployGitApp
  split
  · exact reports_of_fail (wp_failAppAndPublish _ hw) (.inl rfl)
  refine wp_silent_bind (silent_call rfl) hw fun _ w1 hw1 => ?_
  refine wp_silent_bind (silent_call rfl) hw1 ?_
  rintro (e | result) w2 hw2
  · exact reports_of_fail (wp_failAppAndPublish _ hw2) (.inr rfl)
  dsimp only
  split
  · exact reports_of_fail (wp_failAppAndPublish _ hw2) (.inl rfl)
  · exact reports_deployBuilt h triggeredBy result hw2

/-- **The failure handler is called once for an event exactly when** it is a `deploy.failed` with
the payload `core.DeployEventData` and the manager is not closed. No failure that the pipeline
reports is such an event. -/
theorem failure_handled_iff (ar : AutoRollbackManager) (eb : EventBus) (subID : String)
    (hfresh : ∀ sub ∈ eb.subscriptions, sub.id ≠ subID) : (∀ event appID,
      handlerCalls ar (ar.start eb subID) subID event = [appID] ↔
        event.eventType = eventDeployFailed ∧ ar.closed = false ∧
          ∃ data, event.data = .deploy data ∧ data.appID = appID) ∧
    (∀ appID error,
      handlerCalls ar (ar.start eb subID) subID (DeployEvent.deployFailed appID error).notice = []) ∧
    ∀ h app triggeredBy commitSHA w w' os e,
      solo deployExec (deployGitApp h app triggeredBy commitSHA) w os = some (.error e, w') →
        ∃ event, w'.events = w.events ++ [event] ∧
          handlerCalls ar (ar.start eb subID) subID event.notice = [] := by
  refine ⟨fun event appID => ?_, handlerCalls_deployFailed hfresh, ?_⟩
  · rw [handlerCalls_start hfresh]
    split
    case isTrue htype =>
      rw [← onDeployFailed_eq_some]
      cases onDeployFailed ar event.data <;> simp [htype]
    case isFalse htype => simp [htype]
  · intro h app triggeredBy commitSHA w w' os e hrun
    rcases of_solo (reports_deployGitApp h triggeredBy commitSHA rfl) hrun e rfl with hev | hev
    · exact ⟨_, hev, handlerCalls_deployFailed hfresh app.id e⟩
    · refine ⟨_, hev, ?_⟩
      exact (handlerCalls_start hfresh _).trans
        (if_neg (show "build.failed" ≠ eventDeployFailed by decide))

theorem failure_handled_iff_newEventBus :
    handlerCalls {} (AutoRollbackManager.start {} newEventBus "sub_1") "sub_1"
      ⟨eventDeployFailed, .deploy { appID := "app1" }⟩ = ["app1"] :=
  ((failure_handled_iff {} _ _ (fun _ h => absurd h not_mem_nil)).1 _ _).mpr ⟨rfl, rfl, _, rfl, rfl⟩

def imageMissing : List DeployChoice :=
  [{}, { build := ⟨"site:1", "c0ffee"⟩ }, {}, { rowID := "dep_1" }, {}, {},
    { fails := some "no such image" }, {}, {}, {}, {}]

def siteWorld : DeployWorld where
  now := 0
  apps := mainApps
  deployments := .empty
  runtime := .empty
  events := []

/-- **A failed deployment is reported and not handled.** -/
theorem imageMissing_unhandled : ∃ w',
    solo deployExec (deployGitApp ⟨true, true⟩ mainApp "webhook" "c0ffee") siteWorld imageMissing =
      some (.error "no such image", w') ∧
    w'.events = [.deployFailed "app1" "no such image"] ∧
    w'.events.map (fun event => handlerCalls {}
      (AutoRollbackManager.start {} newEventBus "sub_1") "sub_1" event.notice) = [[]] := by
  decide +kernel

/-!
# The target of an automatic rollback

`findLastStable` passes over the newest row, which it takes for the failed one. An attempt that
fails before it has reserved a row leaves the newest row to the deployment that runs.
-/

/-- A deployment that can be rolled back to. -/
abbrev Stable (d : Deployment) : Prop := d.status = .running ∧ d.image ≠ ""

structure ProperTarget (t : DeploymentTable) (appID : String) (version : ℕ) : Prop where
  stable : ∃ d ∈ t.rows, d.appID = appID ∧ Stable d ∧ d.version = version
  newest : ∀ d ∈ t.rows, d.appID = appID → Stable d → d.version ≤ version
  latest : ∀ d, getLatestDeployment t appID = some d → ¬ Stable d

variable {t : DeploymentTable} {appID : String}

/-- The rows of an application, the highest versions first. -/
def byVersion (t : DeploymentTable) (appID : String) : List Deployment :=
  (t.rows.filter (·.appID = appID)).insertionSort fun d d' => (d'.version : ℤ) ≤ d.version

lemma listDeploymentsByApp_eq (limit : ℕ) :
    listDeploymentsByApp t appID limit = ((byVersion t appID).take limit).map Deployment.selected :=
  rfl

lemma mem_byVersion {d : Deployment} : d ∈ byVersion t appID ↔ d ∈ t.rows ∧ d.appID = appID := by
  rw [byVersion, mem_insertionSort, mem_filter, decide_eq_true_iff]

lemma descending_byVersion :
    FirstMatch.Descending (fun d : Deployment => (d.version : ℤ)) (byVersion t appID) :=
  have : Std.Total fun d d' : Deployment => (d'.version : ℤ) ≤ d.version :=
    ⟨fun _ _ => Int.le_total _ _⟩
  have : IsTrans Deployment fun d d' => (d'.version : ℤ) ≤ d.version :=
    ⟨fun _ _ _ h h' => h'.trans h⟩
  pairwise_insertionSort _ _

/-- The first stable row behind the newest one is the newest stable row, when the newest row is not
stable itself. -/
lemma properTarget_of_find? {d : Deployment}
    (hlatest : ∀ d, getLatestDeployment t appID = some d → ¬ Stable d)
    (hfind : ((listDeploymentsByApp t appID 20).drop 1).find?
      (fun d => d.status = .running ∧ d.image ≠ "") = some d) :
    ProperTarget t appID d.version := by
  have hsorted : FirstMatch.Descending _ (byVersion t appID) := descending_byVersion
  have hmem (d : Deployment) : d ∈ byVersion t appID ↔ _ := mem_byVersion
  rw [listDeploymentsByApp_eq] at hfind
  cases hrows : byVersion t appID with
  | nil =>
    rw [hrows] at hfind
    cases hfind
  | cons first rows =>
    have hfirst : ¬ Stable first := by
      refine hlatest first.selected ?_
      rw [getLatestDeployment, listDeploymentsByApp_eq, hrows]
      rfl
    rw [hrows] at hfind hsorted hmem
    rw [take_succ_cons, map_cons, drop_succ_cons, drop_zero, find?_map] at hfind
    obtain ⟨row, hrow, rfl⟩ := Option.map_eq_some_iff.mp hfind
    change (rows.take 19).find? (fun d => decide (Stable d)) = some row at hrow
    have hfound : rows.find? (fun d => decide (Stable d)) = some row := by
      rw [← take_append_drop 19 rows, find?_append, hrow, Option.some_or]
    have hbest := FirstMatch.best_of_find? (pairwise_cons.mp hsorted).2 hfound
    have hrow := (hmem row).mp (mem_cons_of_mem _ hbest.mem)
    refine ⟨⟨row, hrow.1, hrow.2, of_decide_eq_true hbest.isMatch, rfl⟩, fun d hd happ hd' => ?_,
      hlatest⟩
    rcases mem_cons.mp ((hmem d).mpr ⟨hd, happ⟩) with rfl | hd
    · exact absurd hd' hfirst
    · exact Int.ofNat_le.mp (hbest.le d hd (decide_eq_true hd'))

lemma deployments_beginAttempt (ar : AutoRollbackManager) (appID : String) (w : DeployWorld) :
    Wp deployExec (beginAttempt ar appID) (fun _ w' => w'.deployments = w.deployments) w := by
  have hcalls : AllCalls (fun c => c.writesDeployments = false) (beginAttempt ar appID) := by
    have hend (cooling : Bool) : AllCalls (fun c => c.writesDeployments = false)
        (if cooling then return none else do
          let now ← call .now
          return some (ar.attempted appID now)) := by
      cases cooling
      · exact ⟨rfl, fun _ => trivial⟩
      · trivial
    unfold beginAttempt
    split
    · trivial
    · cases ar.lastAttempt appID with
      | none => exact hend false
      | some last => exact ⟨rfl, fun now => hend _⟩
  refine hcalls.wp (I := fun w' : DeployWorld => w'.deployments = w.deployments) ?_ rfl
  intro c s o r s' hc hs h
  rw [(framed_of_deployExec h).deployments hc, hs]

/-- The clock may go on until the cooldown is over. -/
lemma may_beginAttempt (hopen : ar.closed = false) (w : DeployWorld) :
    May deployExec (beginAttempt ar appID)
      (fun r w' => r.isSome ∧ w'.deployments = w.deployments) w := by
  unfold beginAttempt
  rw [if_neg (by simp [hopen])]
  cases ar.lastAttempt appID with
  | none => exact ⟨{}, _, _, rfl, rfl, rfl⟩
  | some last =>
    let o : DeployChoice := { elapsed := (last + ar.cooldown - w.now).toNat }
    refine ⟨o, _, _, rfl, ?_⟩
    have hover : ¬(w.wait o.elapsed).now - last < ar.cooldown := by
      simp only [DeployWorld.wait, o]
      omega
    show May deployExec (if decide ((w.wait o.elapsed).now - last < ar.cooldown) then return none
      else call .now >>= fun now => return some (ar.attempted appID now)) _ _
    rw [decide_eq_false hover]
    exact ⟨{}, _, _, rfl, rfl, rfl⟩

lemma wp_findLastStable (w : DeployWorld) : Wp deployExec (findLastStable appID)
    (fun r _ => ∀ version, r = .ok version → ∃ d : Deployment,
      ((listDeploymentsByApp w.deployments appID 20).drop 1).find?
        (fun d => d.status = .running ∧ d.image ≠ "") = some d ∧ d.version = version) w := by
  intro o r w' hexec
  cases r with
  | error e => rintro _ ⟨⟩
  | ok deployments =>
    obtain rfl : listDeploymentsByApp w.deployments appID 20 = deployments := by
      simp only [deployExec, DeployChoice.answer] at hexec
      split at hexec
      · cases hexec
      · exact Except.ok.inj (answer_inj hexec).1
    simp only [Prog.bind]
    split
    case h_1 d hfind =>
      rintro _ ⟨⟩
      exact ⟨d, hfind, rfl⟩
    case h_2 => rintro _ ⟨⟩

/-- **The target of an automatic rollback** is the newest stable deployment, and there is none when
the latest row is stable, exactly when the latest row is not stable or no other of the 20 newest is. -/
theorem rollback_target_iff (ar : AutoRollbackManager) (appID : String) (w : DeployWorld)
    (hopen : ar.closed = false) :
    (∀ os ar' version w', solo deployExec (failureTarget ar appID) w os =
      some ((ar', some version), w') → ProperTarget w.deployments appID version) ↔
    (∀ d, getLatestDeployment w.deployments appID = some d → ¬ Stable d) ∨
      ∀ d ∈ (listDeploymentsByApp w.deployments appID 20).drop 1, ¬ Stable d := by
  constructor
  · intro h
    by_contra hneither
    obtain ⟨hlatest, hother⟩ := not_or.mp hneither
    push Not at hother
    obtain ⟨d, hd⟩ : ∃ d, ((listDeploymentsByApp w.deployments appID 20).drop 1).find?
        (fun d => d.status = .running ∧ d.image ≠ "") = some d := by
      refine Option.isSome_iff_exists.mp (find?_isSome.mpr ?_)
      obtain ⟨d, hd, hstable⟩ := hother
      exact ⟨d, hd, decide_eq_true hstable⟩
    have hmay : May deployExec (failureTarget ar appID) (fun r _ => r.2 = some d.version) w := by
      refine (may_bind ..).mpr ((may_beginAttempt hopen w).mono fun r w' hr => ?_)
      obtain ⟨ar', rfl⟩ := Option.isSome_iff_exists.mp hr.1
      refine (may_bind ..).mpr ⟨{}, _, _, rfl, ?_⟩
      simp only [Prog.bind, DeployWorld.wait, hr.2, hd]
      exact rfl
    obtain ⟨os, ⟨ar', target⟩, w', hrun, rfl⟩ := hmay.exists_solo
    exact hlatest (h os ar' _ w' hrun).latest
  · intro hcond os ar' version w' hrun
    refine of_solo (Q := fun r _ => ∀ version, r.2 = some version →
      ProperTarget w.deployments appID version) ?_ hrun version rfl
    refine (wp_bind ..).mpr ((deployments_beginAttempt ar appID w).mono fun r w1 hw1 => ?_)
    cases r with
    | none => rintro _ ⟨⟩
    | some ar' =>
      refine (wp_bind ..).mpr ((wp_findLastStable w1).mono fun r w2 hr => ?_)
      cases r with
      | error e => rintro _ ⟨⟩
      | ok stable =>
        rintro _ ⟨⟩
        obtain ⟨d, hfind, rfl⟩ := hr stable rfl
        rw [hw1] at hfind
        refine properTarget_of_find? (hcond.resolve_right fun hnone => ?_) hfind
        have hstable := find?_some hfind
        exact hnone d (mem_of_find?_eq_some hfind) (of_decide_eq_true hstable)

def siteRow (id : String) (version : ℕ) (image : String) (status : DeployStatus) : Deployment :=
  { id, appID := "app1", version, image, status, triggeredBy := "webhook", strategy := "recreate" }

def siteHistory (latest : DeployStatus) : DeployWorld where
  now := 0
  apps := mainApps
  deployments := ⟨[siteRow "dep_1" 1 "site:1" .running, siteRow "dep_2" 2 "site:2" latest],
    by cases latest <;> decide⟩
  runtime := .empty
  events := []

theorem rollback_target_iff_failedLatest :
    (∃ ar' w', solo deployExec (failureTarget {} "app1") (siteHistory .failed) [{}, {}] =
      some ((ar', some 1), w')) ∧
    ProperTarget (siteHistory .failed).deployments "app1" 1 := by
  have hrun : ∃ ar' w', solo deployExec (failureTarget {} "app1") (siteHistory .failed) [{}, {}] =
      some ((ar', some 1), w') := ⟨_, _, rfl⟩
  obtain ⟨ar', w', h⟩ := hrun
  exact ⟨⟨ar', w', h⟩, (rollback_target_iff {} "app1" (siteHistory .failed) rfl).mpr
    (.inl (by decide)) _ _ _ _ h⟩

/-- The row of a deployment cannot be reserved, and the failure is rolled back. -/
def reservationFails : List DeployChoice :=
  [{}, { build := ⟨"site:3", "c0ffee"⟩ }, {}, { rowID := "dep_3", fails := some "database is locked" },
    {}, {}, {}, {}, {}, {}, {}, {}, { rowID := "dep_4" }, {}, {}, {}, {}, {}, {}, {}, {}]

/-- **A failed attempt downgrades an application whose latest deployment runs.** -/
theorem running_latest_downgraded : (solo deployExec
        (deployGitApp ⟨true, true⟩ mainApp "webhook" "" >>= fun _ => handleFailure {} "app1")
        (siteHistory .running) reservationFails).map
          (·.2.deployments.rows.map fun d => (d.version, d.image, d.status)) =
      some [(1, "site:1", .running), (2, "site:2", .running), (3, "site:1", .running)] := by
  decide +kernel

end

/-!
# Cooldown and shutdown of the automatic rollback

The handlers of failure events and the calls of `Stop` in every interleaving. A step is a critical
section of the manager's mutex, an operation on its wait group, or the whole of a rollback.
-/

open Clock StepMachine List Option Pool

/-- Where the handler of a failure event is. -/
inductive DispatchPoint
  | arrived
  /-- Past `isClosed`. -/
  | passed
  /-- In the wait group, before the critical section of `handleFailure`. -/
  | counted
  /-- The attempt is recorded. -/
  | attempting
  /-- About to run the deferred functions. -/
  | deferred
  | returned
  deriving DecidableEq

/-- What a handler adds to the wait group. -/
def DispatchPoint.weight : DispatchPoint → ℕ
  | counted | attempting | deferred => 1
  | arrived | passed | returned => 0

inductive StopPoint
  | entered
  /-- In `wg.Wait`. -/
  | waiting
  | returned

/-- A rollback is attempted, or a `Stop` returns. -/
inductive ManagerEvent
  | attempt (appID : String) (time : ℤ)
  | stopped
  deriving DecidableEq

structure ManagerState where
  ar : AutoRollbackManager := {}
  wg : ℕ := 0
  dispatches : List (String × DispatchPoint) := []
  stops : List StopPoint := []
  now : ℤ := 0
  log : List ManagerEvent := []

inductive ManagerAction
  | advance (elapsed : ℕ)
  | event (appID : String)
  /-- The next step of a handler; the clock may go on between its two readings. -/
  | dispatch (i elapsed : ℕ)
  | stop
  | stopStep (j : ℕ)

variable (s : ManagerState) (i : ℕ) (appID : String)

def ManagerState.move (p : DispatchPoint) : ManagerState :=
  { s with dispatches := s.dispatches.set i (appID, p) }

/-- `handleFailure`, up to the end of its critical section. -/
def ManagerState.check (elapsed : ℕ) : ManagerState :=
  if s.ar.closed then s.move i appID .deferred
  else if (s.ar.lastAttempt appID).any fun last => s.now - last < s.ar.cooldown then
    s.move i appID .deferred
  else
    { s.move i appID .attempting with
      ar := s.ar.attempted appID (s.now + elapsed)
      now := s.now + elapsed
      log := s.log ++ [.attempt appID (s.now + elapsed)] }

/-- The step is the critical section of `handleFailure` at its times: the clock shows the same at the
first reading, and goes on by `elapsed` until the second. -/
theorem ManagerState.exists_beginAttempt (elapsed : ℕ) (w : DeployWorld) (hw : w.now = s.now) :
    ∃ os r w', Program.solo deployExec (beginAttempt s.ar appID) w os = some (r, w') ∧
      (s.check i appID elapsed).ar = r.getD s.ar ∧
      (s.check i appID elapsed).dispatches =
        s.dispatches.set i (appID, if r.isSome then .attempting else .deferred) := by
  have hlater : (w.wait elapsed).now = s.now + elapsed := by rw [← hw]; rfl
  unfold ManagerState.check beginAttempt
  cases hclosed : s.ar.closed with
  | true => exact ⟨[], none, w, rfl, rfl, rfl⟩
  | false =>
    cases hlast : s.ar.lastAttempt appID with
    | none =>
      refine ⟨[{ elapsed }], some (s.ar.attempted appID (w.wait elapsed).now), _, rfl, ?_, rfl⟩
      rw [hlater]
      rfl
    | some last =>
      by_cases hcooling : s.now - last < s.ar.cooldown
      · have hnow : (w.wait 0).now - last < s.ar.cooldown := by
          simpa [DeployWorld.wait, hw] using hcooling
        refine ⟨[{}], none, w.wait 0, ?_, ?_⟩
        · simp [Program.solo, deployExec, call, hnow]
        · simp [hcooling, ManagerState.move]
      · have hnow : ¬(w.wait 0).now - last < s.ar.cooldown := by
          simpa [DeployWorld.wait, hw] using hcooling
        have hlater : ((w.wait 0).wait elapsed).now = s.now + elapsed := by
          simp [DeployWorld.wait, hw]
        refine ⟨[{}, { elapsed }], some (s.ar.attempted appID (s.now + elapsed)),
          (w.wait 0).wait elapsed, ?_, ?_⟩
        · simp [Program.solo, deployExec, call, hnow, hlater]
        · simp [hcooling, ManagerState.move]

def dispatchStep (elapsed : ℕ) : DispatchPoint → Option ManagerState
  | .arrived => some (s.move i appID (if s.ar.closed then .returned else .passed))
  | .passed => some (if s.ar.closed then s.move i appID .returned
      else { s.move i appID .counted with wg := s.wg + 1 })
  | .counted => some (s.check i appID elapsed)
  | .attempting => some (s.move i appID .deferred)
  | .deferred => some { s.move i appID .returned with wg := s.wg - 1 }
  | .returned => none

def stopStep (j : ℕ) : StopPoint → Option ManagerState
  | .entered => some { s with ar.closed := true, stops := s.stops.set j .waiting }
  | .waiting =>
    if s.wg = 0 then some { s with stops := s.stops.set j .returned, log := s.log ++ [.stopped] }
    else none
  | .returned => none

def managerStep (s : ManagerState) : ManagerAction → Option ManagerState
  | .advance elapsed => some { s with now := s.now + elapsed }
  | .event appID => some { s with dispatches := s.dispatches ++ [(appID, .arrived)] }
  | .dispatch i elapsed => s.dispatches[i]?.bind fun d => dispatchStep s i d.1 elapsed d.2
  | .stop => some { s with stops := s.stops ++ [.entered] }
  | .stopStep j => s.stops[j]?.bind (stopStep s j)

/-- What may follow an event: no attempt after a `Stop`, nor within the cooldown of another. -/
def ManagerEvent.Before : ManagerEvent → ManagerEvent → Prop
  | attempt appID t, attempt appID' t' => appID = appID' → t + 5 * minute ≤ t'
  | stopped, attempt .. => False
  | _, stopped => True

structure ManagerInv (s : ManagerState) : Prop where
  wg : s.wg = Pool.total (·.2.weight) s.dispatches
  closed : ∀ p ∈ s.stops, p = .entered ∨ s.ar.closed = true
  drained : .stopped ∈ s.log → s.ar.closed = true ∧ s.wg = 0
  cooldown : s.ar.cooldown = 5 * minute
  recorded : ∀ appID t, .attempt appID t ∈ s.log → ∃ last, s.ar.lastAttempt appID = some last ∧ t ≤ last
  ordered : s.log.Pairwise ManagerEvent.Before

variable {s i appID} {s' : ManagerState} {p : DispatchPoint}

/-- A step of a handler that records no attempt. -/
lemma ManagerInv.move (h : ManagerInv s) (hi : s.dispatches[i]? = some (appID, p))
    {q : DispatchPoint} {wg : ℕ} (hwg : wg + p.weight = s.wg + q.weight)
    (hopen : wg ≤ s.wg ∨ s.ar.closed = false) : ManagerInv { s.move i appID q with wg } := by
  refine { h with wg := ?_, drained := fun hstop => ?_ }
  · have hset := sum_set (·.2.weight) hi (appID, q)
    have := h.wg
    dsimp only [ManagerState.move] at hset ⊢
    omega
  · obtain ⟨hclosed, hzero⟩ := h.drained hstop
    rcases hopen with hle | hopen
    · exact ⟨hclosed, Nat.le_zero.mp (hzero ▸ hle)⟩
    · cases hclosed.symm.trans hopen

lemma ManagerInv.check (h : ManagerInv s) (hi : s.dispatches[i]? = some (appID, .counted))
    (elapsed : ℕ) : ManagerInv (s.check i appID elapsed) := by
  unfold ManagerState.check
  split_ifs with hclosed hcooling
  · exact h.move hi rfl (.inl le_rfl)
  · exact h.move hi rfl (.inl le_rfl)
  have hold : ∀ t, .attempt appID t ∈ s.log → t + 5 * minute ≤ s.now := by
    intro t ht
    obtain ⟨last, hlast, hle⟩ := h.recorded appID t ht
    rw [hlast, any_some, h.cooldown, decide_eq_true_eq] at hcooling
    omega
  have hopen : .stopped ∉ s.log := fun hstop => hclosed (h.drained hstop).1
  refine ⟨(h.move hi (q := .attempting) rfl (.inl le_rfl)).wg, h.closed, by simp [hopen],
    h.cooldown, fun id t ht => ?_, ?_⟩
  · rcases mem_append.mp ht with ht | ht
    · by_cases hid : id = appID
      · have := hold t (hid ▸ ht)
        exact ⟨_, if_pos hid, by unfold minute second at this; omega⟩
      · simpa [AutoRollbackManager.attempted, hid] using h.recorded id t ht
    · cases mem_singleton.mp ht
      exact ⟨_, if_pos rfl, le_rfl⟩
  · refine pairwise_append.mpr ⟨h.ordered, pairwise_singleton .., fun e he => ?_⟩
    rw [forall_mem_singleton]
    match e with
    | .attempt id t =>
      rintro rfl
      exact (hold t he).trans (by omega)
    | .stopped => exact hopen he

lemma ManagerInv.step (h : ManagerInv s) {a : ManagerAction} (hstep : managerStep s a = some s') :
    ManagerInv s' := by
  match a with
  | .advance _ =>
    cases hstep
    exact { h with }
  | .event _ =>
    cases hstep
    exact { h with wg := by simpa [DispatchPoint.weight] using h.wg }
  | .dispatch i elapsed =>
    obtain ⟨⟨appID, p⟩, hi, hd⟩ := bind_eq_some_iff.mp hstep
    match p with
    | .arrived =>
      cases hd
      split_ifs <;> exact h.move hi rfl (.inl le_rfl)
    | .passed =>
      cases hd
      split_ifs with hclosed
      · exact h.move hi rfl (.inl le_rfl)
      · exact h.move hi rfl (.inr (Bool.eq_false_iff.mpr hclosed))
    | .counted =>
      cases hd
      exact h.check hi elapsed
    | .attempting =>
      cases hd
      exact h.move hi rfl (.inl le_rfl)
    | .deferred =>
      cases hd
      have hpos : 1 ≤ s.wg := h.wg ▸ le_total (·.2.weight) (mem_of_getElem? hi)
      exact h.move hi (Nat.sub_add_cancel hpos) (.inl (Nat.sub_le ..))
  | .stop =>
    cases hstep
    exact { h with closed := forall_snoc h.closed (.inl rfl) }
  | .stopStep j =>
    obtain ⟨p, hj, hd⟩ := bind_eq_some_iff.mp hstep
    match p with
    | .entered =>
      cases hd
      exact { h with closed := fun _ _ => .inr rfl, drained := fun hs => ⟨rfl, (h.drained hs).2⟩ }
    | .waiting =>
      obtain ⟨hwg, rfl⟩ := ite_some_none_eq_some.mp hd
      have hclosed := (h.closed _ (mem_of_getElem? hj)).resolve_left nofun
      refine ⟨h.wg, fun _ _ => .inr hclosed, fun _ => ⟨hclosed, hwg⟩, h.cooldown, ?_, ?_⟩
      · exact fun id t ht => h.recorded id t ((mem_append.mp ht).resolve_right (by simp))
      · refine pairwise_append.mpr ⟨h.ordered, pairwise_singleton .., fun e _ => ?_⟩
        rw [forall_mem_singleton]
        cases e <;> trivial

/-- **At most one attempt in five minutes, and none once a `Stop` has returned**, in every
interleaving. -/
theorem rollbacks_spaced_and_drained {as : List ManagerAction}
    (hrun : run managerStep {} as = some s) :
    s.log.Pairwise ManagerEvent.Before ∧
      (.stopped ∈ s.log → ∀ d ∈ s.dispatches, d.2 ≠ .attempting) := by
  have hinv : ManagerInv s := invariant_of_run (fun _ _ _ h => h.step)
    ⟨rfl, by simp, by simp, rfl, by simp, .nil⟩ hrun
  refine ⟨hinv.ordered, fun hstop d hd hattempting => ?_⟩
  have hzero := eq_zero_of_total (hinv.wg ▸ (hinv.drained hstop).2) hd
  rw [hattempting] at hzero
  cases hzero

theorem rollbacks_spaced_and_drained_once :
    ∃ s, run managerStep {} [.event "web", .dispatch 0 0, .dispatch 0 0, .dispatch 0 3, .event "web",
        .dispatch 1 0, .stop, .stopStep 0, .dispatch 0 0, .dispatch 0 0, .stopStep 0] = some s ∧
      s.log = [.attempt "web" 3, .stopped] ∧ ∀ d ∈ s.dispatches, d.2 ≠ .attempting :=
  exists_of_run_and (by decide) fun _ hrun h =>
    (rollbacks_spaced_and_drained hrun).2 (h ▸ mem_cons_of_mem _ mem_cons_self)

end DeployMonster.Deploy
