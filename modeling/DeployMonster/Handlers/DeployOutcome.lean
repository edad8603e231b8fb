import DeployMonster.Deploy.BootSweeps

/-!
# How a deployment ends

Both paths of `TriggerDeploy` reserve a row in the status `deploying`. The git path writes how it
ended; the image path never does, and the sweep after the next restart marks its row `failed`.
-/

namespace DeployMonster.Handlers

open DB Deploy Program List Option Runtime

def DeployCall.updatesStore : DeployCall → Bool
  | .updateAppStatus _ _ _ | .updateDeployment _ => true
  | _ => false

def storeExec (c : DeployCall) (w : DeployWorld) (o : DeployChoice) :
    Option (DeployAnswer c × DeployWorld) :=
  if DeployCall.updatesStore c ∧ o.fails.isSome then none else deployExec c w o

def Started (w s : DeployWorld) : Prop :=
  ∃ c ∈ s.runtime.containers, w.runtime.next ≤ c.id ∧ 0 < c.starts
  deriving Decidable

variable {c : DeployCall} {r : DeployAnswer c} {w w' : DeployWorld} {o : DeployChoice}

variable (h : storeExec c w o = some (r, w'))
include h

lemma deployExec_of_storeExec :
    deployExec c w o = some (r, w') :=
  (ite_none_left_eq_some.mp h).2

lemma framed_of_storeExec : Framed c w w' :=
  framed_of_deployExec (deployExec_of_storeExec h)

lemma fails_of_storeExec (hc : DeployCall.updatesStore c = true) : o.fails = none := by
  have hnot := (ite_none_left_eq_some.mp h).1
  simpa [hc] using hnot

omit h

variable {id : String}

lemma storeExec_updateAppStatus {status : AppStatus} {tenantID : String}
    {r : Except String Unit} (h : storeExec (.updateAppStatus id status tenantID) w o = some (r, w')) :
    w'.apps = updateAppStatus w.apps id status tenantID (w.now + o.elapsed) := by
  have hfails := fails_of_storeExec h rfl
  rcases answer_eq_some (deployExec_of_storeExec h) with ⟨e, he, -⟩ | ⟨-, -, rfl⟩
  · rw [hfails] at he
    cases he
  · rfl

lemma storeExec_updateDeployment {d : Deployment} {r : Except String Unit}
    (h : storeExec (.updateDeployment d) w o = some (r, w')) :
    w'.deployments = updateDeployment w.deployments d := by
  have hfails := fails_of_storeExec h rfl
  rcases answer_eq_some (deployExec_of_storeExec h) with ⟨e, he, -⟩ | ⟨-, -, rfl⟩
  · rw [hfails] at he
    cases he
  · rfl

/-! ## The parts of a deployment -/

def Present (app : Application) (s : DeployWorld) : Prop :=
  ∃ a, getApp s.apps app.id = some a ∧ a.tenantID = app.tenantID

/-- The calls that reserve no row, finish none and create no container. -/
def Quiet (c : DeployCall) : Prop := c.writesDeployments = false ∧ c.writesRuntime = false

/-- Since `w`, nothing was reserved and no container was touched. -/
structure Untouched (app : Application) (w s : DeployWorld) : Prop where
  present : Present app s
  deployments : s.deployments = w.deployments
  runtime : s.runtime = w.runtime

structure Reserved (app : Application) (w : DeployWorld) (row : Deployment) (s : DeployWorld) :
    Prop where
  present : Present app s
  rows : s.deployments.rows = w.deployments.rows ++ [row]
  appID : row.appID = app.id

variable (h : DeployTriggerHandler) {app : Application} {s s' : DeployWorld} {row dep : Deployment}

lemma Present.updateAppStatus (hs : Present app s) {status : AppStatus}
    {tenantID : String} {now : ℤ}
    (happs : s'.apps = DB.updateAppStatus s.apps id status tenantID now) : Present app s' := by
  obtain ⟨a, ha, htenant⟩ := hs
  rw [Present, happs, getApp_updateAppStatus, ha]
  refine ⟨_, rfl, ?_⟩
  split
  · rw [Application.setStatus_tenantID, htenant]
  · exact htenant

lemma Present.quiet (hs : Present app s) (hc : Quiet c) (h : storeExec c s o = some (r, s')) :
    Present app s' := by
  cases happs : c.writesApps with
  | false =>
    rw [Present, (framed_of_storeExec h).apps happs]
    exact hs
  | true =>
    cases c with
    | updateAppStatus => exact hs.updateAppStatus (storeExec_updateAppStatus h)
    | deleteApp => cases hc.1
    | _ => cases happs

lemma Untouched.quiet (hs : Untouched app w s) (hc : Quiet c)
    (h : storeExec c s o = some (r, s')) : Untouched app w s' where
  present := hs.present.quiet hc h
  deployments := ((framed_of_storeExec h).deployments hc.1).trans hs.deployments
  runtime := ((framed_of_storeExec h).runtime hc.2).trans hs.runtime

lemma Reserved.quiet (hs : Reserved app w row s) (hc : Quiet c)
    (h : storeExec c s o = some (r, s')) : Reserved app w row s' where
  present := hs.present.quiet hc h
  rows := by
    rw [(framed_of_storeExec h).deployments hc.1]
    exact hs.rows
  appID := hs.appID

lemma Reserved.update (hs : Reserved app w row s) {r : Except String Unit}
    (h : storeExec (.updateDeployment dep) s o = some (r, s')) (hid : dep.id = row.id) :
    Reserved app w (dep.write row) s' where
  present := by
    rw [Present, (framed_of_storeExec h).apps rfl]
    exact hs.present
  rows := by
    rw [storeExec_updateDeployment h]
    exact updateDeployment_rows_append hs.rows hid
  appID := hs.appID

lemma not_started_of_runtime (h : s.runtime = w.runtime) : ¬ Started w s := by
  rintro ⟨c, hc, hge, -⟩
  rw [h] at hc
  exact absurd (w.runtime.lt_next c hc) (Nat.not_lt.mpr hge)

variable {node : String} {opts : ContainerOpts}

lemma not_started_of_create (h : s.runtime = w.runtime.create node opts false) : ¬ Started w s := by
  rintro ⟨c, hc, hge, hpos⟩
  rw [h] at hc
  rcases mem_create.mp hc with hc | rfl
  · exact absurd (w.runtime.lt_next c hc) (Nat.not_lt.mpr hge)
  · exact absurd hpos (Nat.lt_irrefl 0)

def Running (id : ℕ) (s : DeployWorld) : Prop := ∃ c ∈ s.runtime.containers, c.id = id ∧ 0 < c.starts

lemma running_of_create {rt : Runtime}
    (h : s.runtime = rt.create node opts true) : Running rt.next s := by
  refine ⟨rt.fresh node opts true, ?_, rfl, Nat.one_pos⟩
  rw [h]
  exact mem_create.mpr (.inr rfl)

def CleanupCall (keep : ℕ) : DeployCall → Prop
  | .listByLabel _ _ _ => True
  | .stop _ ref | .remove _ ref => ∃ id, ref = .id id ∧ id ≠ keep
  | _ => False

lemma allCalls_removeContainers (node : String) (keep : ℕ) (cs : List Container) :
    AllCalls (CleanupCall keep) (removeContainers node keep cs) := by
  induction cs with
  | nil => trivial
  | cons c cs ih =>
    rw [removeContainers]
    split
    case isTrue hne => exact ⟨⟨c.id, rfl, hne⟩, fun _ => ⟨⟨c.id, rfl, hne⟩, fun _ => ih⟩⟩
    case isFalse => exact ih

lemma allCalls_cleanup (node appID : String) (keep : ℕ) :
    AllCalls (CleanupCall keep) (cleanupPreviousAppContainers node appID keep) := by
  refine ⟨trivial, ?_⟩
  rintro (e | containers)
  · trivial
  · exact allCalls_removeContainers node keep containers

lemma Running.cleanup {keep : ℕ} (hc : CleanupCall keep c) (hs : Running keep s)
    (h : storeExec c s o = some (r, s')) : Running keep s' := by
  obtain ⟨c', hc', hid, hpos⟩ := hs
  have hexec := deployExec_of_storeExec h
  cases c with
  | listByLabel =>
    rw [Running, (framed_of_storeExec h).runtime rfl]
    exact ⟨c', hc', hid, hpos⟩
  | stop node ref =>
    rcases stop_of_deployExec hexec with hrt | hrt
    · rw [Running, hrt]
      exact ⟨c', hc', hid, hpos⟩
    · rw [Running, hrt]
      obtain ⟨state, hstate⟩ := exists_stopped node ref c'
      exact ⟨_, mem_stop.mpr ⟨c', hc', hstate⟩, hid, hpos⟩
  | remove node ref =>
    rcases remove_of_deployExec hexec with hrt | hrt
    · rw [Running, hrt]
      exact ⟨c', hc', hid, hpos⟩
    rw [Running, hrt]
    obtain ⟨id, rfl, hne⟩ := hc
    refine ⟨c', mem_remove.mpr ⟨hc', ?_⟩, hid, hpos⟩
    simp [ContainerRef.names, hid, hne.symm]
  | _ => exact hc.elim

/-- How the git path ends. -/
inductive GitOutcome (app : Application) (w s : DeployWorld) : Prop
  | unreserved (h : s.deployments = w.deployments)
  | running (row : Deployment) (hs : Reserved app w row s) (hrow : row.status = .running)
      (hstarted : Started w s) (happ : ∃ a, getApp s.apps app.id = some a ∧ a.status = .running)
  | failed (row : Deployment) (hs : Reserved app w row s) (hrow : row.status = .failed)
      (hstarted : ¬ Started w s)

lemma failReserved_outcome (hs : Reserved app w row s) (hstarted : ¬ Started w s)
    (hid : dep.id = row.id) (hne : dep.id ≠ "") (errMsg : String) :
    Wp storeExec (failReserved app dep errMsg) (fun _ s' => GitOutcome app w s') s := by
  rw [failReserved, wp_call_bind]
  intro o1 r1 s1 h1
  rw [if_pos hne, wp_call_bind]
  intro o2 now s2 h2
  rw [wp_call_bind]
  intro o3 r3 s3 h3
  rw [wp_call_last]
  intro o4 r4 s4 h4
  have hs2 := (hs.quiet ⟨rfl, rfl⟩ h1).quiet ⟨rfl, rfl⟩ h2
  refine .failed _ ((hs2.update h3 hid).quiet ⟨rfl, rfl⟩ h4) rfl ?_
  rw [Started, (framed_of_storeExec h4).runtime rfl, (framed_of_storeExec h3).runtime rfl,
    (framed_of_storeExec h2).runtime rfl, (framed_of_storeExec h1).runtime rfl]
  exact hstarted

variable {result : BuildResult}

lemma finishGit_outcome {containerID : ℕ} (hs : Reserved app w row s) (hid : dep.id = row.id)
    (hge : w.runtime.next ≤ containerID) (hrunning : Running containerID s) :
    Wp storeExec (finishGit app node dep result containerID) (fun _ s' => GitOutcome app w s') s := by
  rw [finishGit, wp_bind]
  refine ((allCalls_cleanup node app.id containerID).wp
    (I := fun s' => Reserved app w row s' ∧ Running containerID s') ?_ ⟨hs, hrunning⟩).mono ?_
  · rintro c s0 o r s1 hc ⟨hs0, hrun⟩ h
    have hframe := framed_of_storeExec h
    have hkept : s1.deployments = s0.deployments ∧ s1.apps = s0.apps := by
      cases c with
      | listByLabel | stop | remove => exact ⟨hframe.deployments rfl, hframe.apps rfl⟩
      | _ => exact hc.elim
    refine ⟨⟨?_, ?_, hs0.appID⟩, hrun.cleanup hc h⟩
    · rw [Present, hkept.2]
      exact hs0.present
    · rw [hkept.1]
      exact hs0.rows
  rintro - s1 ⟨hs1, hrun⟩
  rw [wp_call_bind]
  intro o2 r2 s2 h2
  rw [wp_call_bind]
  intro o3 r3 s3 h3
  rw [wp_call_bind]
  intro o4 r4 s4 h4
  have hs2 := hs1.update h2 hid
  refine .running _ ((hs2.quiet ⟨rfl, rfl⟩ h3).quiet ⟨rfl, rfl⟩ h4) rfl ?_ ?_
  · obtain ⟨c, hc, rfl, hpos⟩ := hrun
    rw [Started, (framed_of_storeExec h4).runtime rfl, (framed_of_storeExec h3).runtime rfl,
      (framed_of_storeExec h2).runtime rfl]
    exact ⟨c, hc, hge, hpos⟩
  · obtain ⟨a, ha, htenant⟩ := hs2.present
    rw [(framed_of_storeExec h4).apps rfl, storeExec_updateAppStatus h3, getApp_updateAppStatus, ha]
    exact ⟨_, rfl, by simp [Application.setStatus, htenant]⟩

lemma allCalls_buildDeployLabels (app : Application) (version : ℕ) :
    AllCalls Quiet (buildDeployLabels app version) := by
  refine ⟨⟨rfl, rfl⟩, ?_⟩
  rintro (e | domains) <;> trivial

lemma allCalls_deployRuntimeForApp (app : Application) :
    AllCalls Quiet (deployRuntimeForApp h app) := by
  unfold deployRuntimeForApp
  split
  · split
    · refine ⟨⟨rfl, rfl⟩, ?_⟩
      rintro (e | _) <;> trivial
    · trivial
  · split <;> trivial

lemma allCalls_failAppAndPublish (app : Application) (event : DeployEvent) :
    AllCalls Quiet (failAppAndPublish app event) :=
  ⟨⟨rfl, rfl⟩, fun _ => ⟨⟨rfl, rfl⟩, fun _ => trivial⟩⟩

lemma buildDeployLabels_wp (hs : Reserved app w row s) (hrt : s.runtime = w.runtime)
    (version : ℕ) : Wp storeExec (buildDeployLabels app version)
      (fun _ s' => Reserved app w row s' ∧ s'.runtime = w.runtime) s := by
  refine (allCalls_buildDeployLabels app version).wp
    (I := fun s' => Reserved app w row s' ∧ s'.runtime = w.runtime) ?_ ⟨hs, hrt⟩
  rintro c s0 o r s1 hc ⟨hs0, hrt0⟩ h
  exact ⟨hs0.quiet hc h, ((framed_of_storeExec h).runtime hc.2).trans hrt0⟩

lemma startReserved_outcome (hs : Reserved app w row s)
    (hrt : s.runtime = w.runtime) (hid : dep.id = row.id) (hne : dep.id ≠ "") :
    Wp storeExec (startReserved app node dep result) (fun _ s' => GitOutcome app w s') s := by
  rw [startReserved, wp_bind]
  refine (buildDeployLabels_wp hs hrt dep.version).mono ?_
  rintro labels s1 ⟨hs1, hrt1⟩
  rw [wp_call_bind]
  rintro o2 (e | _) s2 h2
  · have hrt2 := ((framed_of_storeExec h2).runtime rfl).trans hrt1
    refine (wp_bind ..).mpr ((failReserved_outcome (hs1.quiet ⟨rfl, rfl⟩ h2)
      (not_started_of_runtime hrt2) hid hne e).mono ?_)
    exact fun _ _ hout => hout
  have hs2 := hs1.quiet ⟨rfl, rfl⟩ h2
  have hrt2 := ((framed_of_storeExec h2).runtime rfl).trans hrt1
  refine wp_call_bind.mpr ?_
  intro o3 r3 s3 h3
  have hs3 : Reserved app w row s3 :=
    { present := by
        rw [Present, (framed_of_storeExec h3).apps rfl]
        exact hs2.present
      rows := by
        rw [(framed_of_storeExec h3).deployments rfl]
        exact hs2.rows
      appID := hs2.appID }
  rcases create_of_deployExec (deployExec_of_storeExec h3) with ⟨rfl, hcreate⟩ | ⟨e, rfl, hcreate⟩
  · exact finishGit_outcome hs3 hid (by rw [hrt2]) (running_of_create hcreate)
  rw [hrt2] at hcreate
  have hstarted : ¬ Started w s3 := by
    rcases hcreate with hcreate | hcreate
    · exact not_started_of_runtime hcreate
    · exact not_started_of_create hcreate
  refine (wp_bind ..).mpr ((failReserved_outcome hs3 hstarted hid hne e).mono ?_)
  exact fun _ _ hout => hout

lemma failAppAndPublish_outcome {α : Type} (hs : Untouched app w s) (event : DeployEvent) (a : α) :
    Wp storeExec (failAppAndPublish app event >>= fun _ => pure a)
      (fun _ s' => GitOutcome app w s') s := by
  rw [wp_bind]
  refine ((allCalls_failAppAndPublish app event).wp (I := Untouched app w)
    (fun c s0 o r s1 hc hs0 h => hs0.quiet hc h) hs).mono ?_
  exact fun _ s' hs' => .unreserved hs'.deployments

lemma deployBuilt_outcome {h : DeployTriggerHandler} {triggeredBy : String}
    (hs : Untouched app w s) :
    Wp storeExec (deployBuilt h app triggeredBy result) (fun _ s' => GitOutcome app w s') s := by
  rw [deployBuilt, wp_call_bind]
  intro o1 r1 s1 h1
  rw [wp_bind]
  refine ((allCalls_deployRuntimeForApp h app).wp (I := Untouched app w)
    (fun c s0 o r s1 hc hs0 h => hs0.quiet hc h) (hs.quiet ⟨rfl, rfl⟩ h1)).mono ?_
  rintro (e | node) s2 hs2
  · exact failAppAndPublish_outcome hs2 _ _
  refine wp_call_bind.mpr ?_
  intro o3 r3 s3 h3
  have hframe := framed_of_storeExec h3
  have hpresent : Present app s3 := by
    rw [Present, hframe.apps rfl]
    exact hs2.present
  have hrt : s3.runtime = w.runtime := (hframe.runtime rfl).trans hs2.runtime
  rcases reserve_of_deployExec (deployExec_of_storeExec h3) with ⟨e, rfl, hdeps⟩ | ⟨rfl, hne, hrows⟩
  · exact failAppAndPublish_outcome ⟨hpresent, hdeps.trans hs2.deployments, hrt⟩ _ _
  · rw [hs2.deployments] at hrows
    exact startReserved_outcome ⟨hpresent, hrows, rfl⟩ hrt rfl hne

variable (triggeredBy commitSHA : String)

/-- **How the git path ends**, whatever the environment chooses: the row is `running` when a
container was started, and `failed` otherwise. -/
theorem deployGitApp_outcome (hpresent : Present app w) :
    Wp storeExec (deployGitApp h app triggeredBy commitSHA) (fun _ s' => GitOutcome app w s') w := by
  have hw : Untouched app w w := ⟨hpresent, rfl, rfl⟩
  rw [deployGitApp]
  split
  · exact failAppAndPublish_outcome hw _ _
  rw [wp_call_bind]
  intro o1 r1 s1 h1
  rw [wp_call_bind]
  rintro o2 (e | result) s2 h2
  · exact failAppAndPublish_outcome ((hw.quiet ⟨rfl, rfl⟩ h1).quiet ⟨rfl, rfl⟩ h2) _ _
  have hs2 := (hw.quiet ⟨rfl, rfl⟩ h1).quiet ⟨rfl, rfl⟩ h2
  dsimp only
  split
  · exact failAppAndPublish_outcome hs2 _ _
  · exact deployBuilt_outcome hs2

/-- The calls of the image path once its row is reserved: the row is written with the status it
has. -/
def ImageCall (id : String) : DeployCall → Prop
  | .updateDeployment d => d.id = id ∧ d.status = .deploying
  | c => c.writesDeployments = false

lemma imageCall_of_writesDeployments (hc : c.writesDeployments = false) : ImageCall id c := by
  cases c with
  | updateDeployment => cases hc
  | _ => exact hc

lemma allCalls_failImage (app : Application) (id : String) :
    AllCalls (ImageCall id) (failImage app) :=
  ⟨rfl, fun _ => trivial⟩

lemma allCalls_finishImage (app : Application) (dep : Deployment) (id : String) :
    AllCalls (ImageCall id) (finishImage app dep) :=
  ⟨rfl, fun _ => ⟨rfl, fun _ => trivial⟩⟩

lemma allCalls_startImage (app : Application) (node : String) (hdep : dep.status = .deploying) :
    AllCalls (ImageCall dep.id) (startImage app node dep) := by
  refine ((allCalls_buildDeployLabels app dep.version).mono fun c hc =>
    imageCall_of_writesDeployments hc.1).bind fun labels => ?_
  refine ⟨rfl, ?_⟩
  rintro (e | _)
  · exact allCalls_failImage app dep.id
  refine ⟨rfl, ?_⟩
  rintro (e | containerID)
  · exact allCalls_failImage app dep.id
  refine ⟨⟨rfl, hdep⟩, fun _ => ?_⟩
  refine ((allCalls_cleanup node app.id containerID).mono fun c hc => ?_).bind fun _ => ?_
  · refine imageCall_of_writesDeployments ?_
    cases c with
    | listByLabel | stop | remove => rfl
    | _ => exact hc.elim
  · exact allCalls_finishImage app _ dep.id

lemma allCalls_placeImage (h : DeployTriggerHandler) (app : Application)
    (hdep : dep.status = .deploying) : AllCalls (ImageCall dep.id) (placeImage h app dep) := by
  refine ((allCalls_deployRuntimeForApp h app).mono fun c hc =>
    imageCall_of_writesDeployments hc.1).bind ?_
  rintro (e | node)
  · dsimp only
    split
    · exact allCalls_failImage app dep.id
    · exact allCalls_finishImage app dep dep.id
  · exact allCalls_startImage app node hdep

def Deploying (w : DeployWorld) (id : String) (s : DeployWorld) : Prop :=
  ∃ row, s.deployments.rows = w.deployments.rows ++ [row] ∧ row.id = id ∧ row.status = .deploying

lemma Deploying.imageCall (hs : Deploying w id s) (hc : ImageCall id c)
    (h : storeExec c s o = some (r, s')) : Deploying w id s' := by
  obtain ⟨row, hrows, rfl, hstatus⟩ := hs
  by_cases hwrites : c.writesDeployments = false
  · rw [Deploying, (framed_of_storeExec h).deployments hwrites]
    exact ⟨row, hrows, rfl, hstatus⟩
  cases c with
  | updateDeployment d =>
    refine ⟨d.write row, ?_, rfl, hc.2⟩
    rw [storeExec_updateDeployment h]
    exact updateDeployment_rows_append hrows hc.1
  | _ => exact absurd hc hwrites

/-- **How the image path ends**, whatever the environment chooses: the row stays `deploying`. -/
theorem deployImage_outcome (app : Application) (w : DeployWorld) : Wp storeExec (deployImage h app)
      (fun _ s' => s'.deployments = w.deployments ∨ ∃ id, Deploying w id s') w := by
  rw [deployImage, wp_call_bind]
  intro o1 r1 s1 h1
  have hdeps : s1.deployments = w.deployments := (framed_of_storeExec h1).deployments rfl
  rw [wp_call_bind]
  intro o2 r2 s2 h2
  rcases reserve_of_deployExec (deployExec_of_storeExec h2) with ⟨e, rfl, hdeps2⟩ | ⟨rfl, -, hrows⟩
  · exact .inl (hdeps2.trans hdeps)
  rw [hdeps] at hrows
  have hs2 : Deploying w o2.rowID s2 := ⟨_, hrows, rfl, rfl⟩
  refine ((allCalls_placeImage h app rfl).wp (I := Deploying w o2.rowID)
    (fun c s0 o r s1 hc hs0 h => hs0.imageCall hc h) hs2).mono ?_
  exact fun _ _ hs => .inr ⟨_, hs⟩

/-! ## The sweep after the next restart -/

/-- The path of `TriggerDeploy` that the source type selects, to its end. -/
def deployApp (app : Application) (triggeredBy commitSHA : String) : DeployM Unit := do
  if app.sourceType = .image then
    let _ ← triggerDeploy h false app
  else
    let _ ← deployGitApp h app triggeredBy commitSHA

/-- The row says whether a container was started. -/
def Settled (w s : DeployWorld) (row : Deployment) : Prop :=
  (Started w s → row.status = .running) ∧ (¬ Started w s → row.status = .failed)

/-- The sweep marks neither the deployment nor its application as failed. -/
def Spared (finished : ℤ) (s : DeployWorld) (row : Deployment) (app : Application) : Prop :=
  (∀ r ∈ (reclaimStaleDeployments finished s).deployments.rows, r.id = row.id →
    r.status ≠ .failed) ∧
  ∀ a, getApp (reclaimStaleDeployments finished s).apps app.id = some a → a.status ≠ .failed

lemma reclaimed_of_append (hrows : s.deployments.rows = w.deployments.rows ++ [row])
    (hrow : row.status = .running) : reclaimed s.deployments = reclaimed w.deployments := by
  simp [reclaimed, listDeploymentsByStatus, Table.newest, hrows, filter_append, hrow]

/-- A deployment that runs is spared, with its application, exactly when no row of the application
is in flight. -/
lemma spared_iff_of_running (finished : ℤ) (hs : Reserved app w row s)
    (hrow : row.status = .running) (happ : ∃ a, getApp s.apps app.id = some a ∧ a.status = .running) :
    Spared finished s row app ↔ ∀ d ∈ reclaimed w.deployments, d.appID ≠ app.id := by
  obtain ⟨a, ha, hstatus⟩ := happ
  have hmem : row ∈ (reclaimStaleDeployments finished s).deployments.rows := by
    refine mem_reclaimStaleDeployments ?_ (by rw [hrow]; rfl)
    rw [hs.rows]
    exact mem_append_right _ (mem_singleton_self row)
  have hgetApp : getApp (reclaimStaleDeployments finished s).apps app.id = _ :=
    getApp_reclaimStaleDeployments app.id
  rw [reclaimed_of_append hs.rows hrow, ha, map_some] at hgetApp
  constructor
  · intro hspared d hd happ
    refine hspared.2 _ hgetApp ?_
    rw [if_pos ⟨d, hd, happ⟩]
    rfl
  intro hnone
  rw [if_neg fun ⟨d, hd, happ⟩ => hnone d hd happ] at hgetApp
  constructor
  · intro r hr hid
    rw [Table.eq_of_key_eq hr hmem hid, hrow]
    decide
  · intro a' ha'
    obtain rfl := some.inj (hgetApp.symm.trans ha')
    rw [hstatus]
    decide

lemma deployApp_image
    (himage : app.sourceType = .image) : Wp storeExec (deployApp h app triggeredBy commitSHA)
      (fun _ s => s.deployments = w.deployments ∨ ∃ id, Deploying w id s) w := by
  rw [deployApp, if_pos himage, triggerDeploy, if_neg Bool.false_ne_true, if_pos himage, wp_bind]
  exact deployImage_outcome h app w

lemma deployApp_git (himage : app.sourceType ≠ .image) (happ : getApp w.apps app.id = some app) :
    Wp storeExec (deployApp h app triggeredBy commitSHA) (fun _ s => GitOutcome app w s) w := by
  rw [deployApp, if_neg himage, wp_bind]
  exact deployGitApp_outcome h triggeredBy commitSHA ⟨app, happ, rfl⟩

/-- **A deployment ends as it should exactly when it is not one of an image application** and, once
it runs, no other row of its application is in flight: only then its row says whether a container
was started, and the sweep leaves what runs alone. -/
theorem deployment_settled_iff (h : DeployTriggerHandler) (app : Application)
    (triggeredBy commitSHA : String) (finished : ℤ) (w s : DeployWorld) (os : List DeployChoice)
    (row : Deployment) (happ : getApp w.apps app.id = some app)
    (hrun : solo storeExec (deployApp h app triggeredBy commitSHA) w os = some ((), s))
    (hrow : s.deployments.rows = w.deployments.rows ++ [row]) :
    (Settled w s row ∧ (Started w s → Spared finished s row app)) ↔
      app.sourceType ≠ .image ∧
        (Started w s → ∀ d ∈ reclaimed w.deployments, d.appID ≠ app.id) := by
  have hunique : ∀ row', s.deployments.rows = w.deployments.rows ++ [row'] → row' = row := by
    intro row' hrow'
    simpa [hrow] using hrow'.symm
  have hreserved : s.deployments ≠ w.deployments := by
    intro heq
    simp [heq] at hrow
  by_cases himage : app.sourceType = .image
  case pos =>
    have hout := of_solo (deployApp_image h triggeredBy commitSHA himage) hrun
    obtain ⟨id, row', hrow', -, hstatus⟩ := hout.resolve_left hreserved
    obtain rfl := hunique row' hrow'
    constructor
    · rintro ⟨⟨hstarted, hnot⟩, -⟩
      by_cases hs : Started w s
      · rw [hstarted hs] at hstatus
        cases hstatus
      · rw [hnot hs] at hstatus
        cases hstatus
    · rintro ⟨hne, -⟩
      exact absurd himage hne
  case neg =>
    cases of_solo (deployApp_git h triggeredBy commitSHA himage happ) hrun with
    | unreserved heq => exact absurd heq hreserved
    | running row' hs hstatus hstarted hrunning =>
      obtain rfl := hunique row' hs.rows
      have hsettled : Settled w s row' := ⟨fun _ => hstatus, fun hnot => absurd hstarted hnot⟩
      have hspared := spared_iff_of_running finished hs hstatus hrunning
      constructor
      · rintro ⟨-, hsp⟩
        exact ⟨himage, fun _ => hspared.mp (hsp hstarted)⟩
      · rintro ⟨-, hnone⟩
        exact ⟨hsettled, fun _ => hspared.mpr (hnone hstarted)⟩
    | failed row' hs hstatus hnot =>
      obtain rfl := hunique row' hs.rows
      have hsettled : Settled w s row' := ⟨fun hst => absurd hst hnot, fun _ => hstatus⟩
      constructor
      · exact fun _ => ⟨himage, fun hst => absurd hst hnot⟩
      · exact fun _ => ⟨hsettled, fun hst => absurd hst hnot⟩

def webApp (sourceType : SourceType) : Application :=
  { id := "web", tenantID := "t1", name := "web", sourceType, sourceURL := "ghcr.io/acme/web:1" }

def newWorld (app : Application) : DeployWorld where
  now := 0
  apps := Table.empty.insert app not_mem_nil
  deployments := Table.empty
  runtime := Runtime.empty
  events := []

def gitChoices : List DeployChoice :=
  [{}, { build := ⟨"web:abc", "abc"⟩ }, {}, { rowID := "d1" }, {}, {}, {}, {}, {}, {}, {}]

def gitRow : Deployment :=
  { id := "d1", appID := "web", version := 1, image := "web:abc", containerID := some 0,
    status := .running, commitSHA := "abc", triggeredBy := "manual", strategy := "recreate" }

theorem deployment_settled_iff_gitRow :
    ∃ s, solo storeExec (deployApp ⟨true, false⟩ (webApp .git) "manual" "") (newWorld (webApp .git))
        gitChoices = some ((), s) ∧ s.deployments.rows = [gitRow] ∧ Started (newWorld (webApp .git)) s ∧
      Settled (newWorld (webApp .git)) s gitRow ∧ Spared 1 s gitRow (webApp .git) := by
  refine exists_of_solo_imp (P := fun s => s.deployments.rows = [gitRow] ∧
    Started (newWorld (webApp .git)) s) (by decide) fun s hrun ⟨hrows, hstarted⟩ => ?_
  have hiff := deployment_settled_iff _ _ _ "" 1 _ s _ _ rfl hrun hrows
  obtain ⟨hsettled, hspared⟩ := hiff.mpr ⟨by decide, fun _ => by decide⟩
  exact ⟨hrows, hstarted, hsettled, hspared hstarted⟩

def imageChoices : List DeployChoice := [{}, { rowID := "d1" }, {}, {}, {}, {}, {}, {}, {}]

def imageRow : Deployment :=
  { id := "d1", appID := "web", version := 1, image := "ghcr.io/acme/web:1", containerID := some 0,
    status := .deploying, triggeredBy := "manual", strategy := "recreate" }

/-- **The row of an image application stays in flight**: its container is started, and after a
restart the sweep marks the application `failed`. -/
theorem image_unsettled :
    ∃ s, solo storeExec (deployApp ⟨true, false⟩ (webApp .image) "manual" "")
        (newWorld (webApp .image)) imageChoices = some ((), s) ∧
      s.deployments.rows = (newWorld (webApp .image)).deployments.rows ++ [imageRow] ∧
      Started (newWorld (webApp .image)) s ∧ ¬ Settled (newWorld (webApp .image)) s imageRow ∧
      ¬ Spared 1 s imageRow (webApp .image) := by
  refine exists_of_solo_imp (P := fun s => s.deployments.rows = [imageRow] ∧
    Started (newWorld (webApp .image)) s ∧
    (getApp (reclaimStaleDeployments 1 s).apps "web").map Application.status = some .failed)
    (by decide) fun s _ ⟨hrows, hstarted, hfailed⟩ => ?_
  refine ⟨hrows, hstarted, fun hsettled => ?_, fun hspared => ?_⟩
  · exact absurd (hsettled.1 hstarted) (by decide)
  · obtain ⟨a, ha, hstatus⟩ := map_eq_some_iff.mp hfailed
    exact hspared.2 a ha hstatus

/-! ## Protocols of a git deployment -/

variable {γ : Type} (next : γ → (c : DeployCall) → DeployAnswer c → γ → Prop)
  (done : γ → Except String Unit → Prop) (app : Application) (before : γ) (reserved : Deployment → γ)
  (rest : Option Deployment → γ → Prop)

/-- A protocol for `deployGitApp`. In the stages of `rest` it may give up, without a row or with the
one that it has reserved. -/
structure GitProtocol : Prop where
  unreserved : rest none before
  holds (dep : Deployment) : rest (some dep) (reserved dep)
  error {row g} (hg : rest row g) (e : String) : done g (.error e)
  quiet {row g} (hg : rest row g) {c : DeployCall} (hc : Quiet c) (r : DeployAnswer c) : next g c r g
  update {dep g} (hg : rest (some dep) g) (now : ℤ) (r : Except String Unit) :
    next g (.updateDeployment { dep with status := .failed, finishedAt := some now }) r g
  refuse (d : Deployment) (e : String) :
    ∃ g, next before (.createDeploymentAtomicVersion d) (.error e) g ∧ rest none g
  reserve {d : Deployment} (hd : d.appID = app.id) (dep : Deployment) :
    next before (.createDeploymentAtomicVersion d) (.ok dep) (reserved dep)
  create (dep : Deployment) (result : BuildResult) (labels : Labels) (r : Except String ℕ) :
    ∃ g, next (reserved dep) (.createAndStart (appNode app) (deployOpts app dep.version
        result.imageTag (deployLabels app dep.version ++ labels))) r g ∧
      (∀ e, r = .error e → rest (some dep) g) ∧
      ∀ id, r = .ok id → Follows next done (finishGit app (appNode app) dep result id) g

variable {next done app before reserved rest} {g : γ} {row : Option Deployment}
  (hp : GitProtocol next done app before reserved rest)

include hp

namespace GitProtocol

lemma follows_of_quiet {α : Type} {p : DeployM α} {V : α → Prop} (hcalls : AllCalls Quiet p)
    (hV : Returns V p) (hg : rest row g) : Follows next (fun g' a => g' = g ∧ V a) p g := by
  induction p with
  | ret a => exact ⟨rfl, hV⟩
  | call c k ih => exact fun r => ⟨g, hp.quiet hg hcalls.1 r, ih r (hcalls.2 r) (hV r)⟩

lemma follows_failAppAndPublish (hg : rest row g) (event : DeployEvent) (e : String) :
    Follows next done (failAppAndPublish app event >>= fun _ => .ret (.error e)) g :=
  fun _ => ⟨g, hp.quiet hg ⟨rfl, rfl⟩ _, fun _ => ⟨g, hp.quiet hg ⟨rfl, rfl⟩ _, hp.error hg e⟩⟩

lemma follows_failReserved (hg : rest (some dep) g) (e : String) :
    Follows next done (failReserved app dep e >>= fun _ => .ret (.error e)) g := by
  have hpublish : Follows next done
      (call (.publish (.deployFailed app.id e)) >>= fun _ => .ret (.error e)) g :=
    fun _ => ⟨g, hp.quiet hg ⟨rfl, rfl⟩ _, hp.error hg e⟩
  refine fun _ => ⟨g, hp.quiet hg ⟨rfl, rfl⟩ _, ?_⟩
  by_cases hid : dep.id ≠ ""
  · simp only [if_pos hid]
    exact fun now => ⟨g, hp.quiet hg ⟨rfl, rfl⟩ _, fun _ => ⟨g, hp.update hg now _, hpublish⟩⟩
  · simp only [if_neg hid]
    exact hpublish

lemma follows_startReserved (result : BuildResult) :
    Follows next done (startReserved app (appNode app) dep result) (reserved dep) := by
  have hg := hp.holds dep
  refine (hp.follows_of_quiet (allCalls_buildDeployLabels app dep.version)
    (returns_buildDeployLabels app dep.version) hg).bind ?_
  rintro _ _ ⟨rfl, labels, rfl⟩
  rintro (e | _)
  · exact ⟨_, hp.quiet hg ⟨rfl, rfl⟩ _, hp.follows_failReserved hg e⟩
  refine ⟨_, hp.quiet hg ⟨rfl, rfl⟩ _, fun r => ?_⟩
  obtain ⟨g, hnext, herror, hok⟩ := hp.create dep result labels r
  refine ⟨g, hnext, ?_⟩
  cases r with
  | error e => exact hp.follows_failReserved (herror e rfl) e
  | ok id => exact hok id rfl

/-- **A git deployment keeps to every such protocol.** -/
theorem follows_deployGitApp :
    Follows next done (deployGitApp h app triggeredBy commitSHA) before := by
  have hquiet {c : DeployCall} (hc : Quiet c) (r : DeployAnswer c) : next before c r before :=
    hp.quiet hp.unreserved hc r
  have hfail := hp.follows_failAppAndPublish hp.unreserved
  rw [deployGitApp]
  split
  · exact hfail _ _
  refine fun _ => ⟨_, hquiet ⟨rfl, rfl⟩ _, fun answer => ⟨_, hquiet ⟨rfl, rfl⟩ _, ?_⟩⟩
  rcases answer with e | result
  · exact hfail _ e
  dsimp only [Prog.bind]
  split
  · exact hfail _ _
  refine fun _ => ⟨_, hquiet ⟨rfl, rfl⟩ _, ?_⟩
  refine (hp.follows_of_quiet (allCalls_deployRuntimeForApp h app)
    (returns_deployRuntimeForApp h app) hp.unreserved).bind ?_
  rintro _ (e | node) ⟨rfl, hnode⟩
  · exact hfail _ e
  obtain rfl := hnode node rfl
  rintro (e | dep)
  · obtain ⟨g, hnext, hg⟩ := hp.refuse _ e
    exact ⟨g, hnext, hp.follows_failAppAndPublish hg _ e⟩
  · exact ⟨_, hp.reserve rfl dep, hp.follows_startReserved result⟩

end GitProtocol

end DeployMonster.Handlers
