import DeployMonster.Deploy.AutoRestart
import DeployMonster.Handlers.AppDelete

/-!
# Stopping an application

`AppHandler.Stop` of `internal/api/handlers/apps_domain.go` leaves an exited container behind, which
the auto-restart monitor takes for a crashed one.
-/

namespace DeployMonster.Handlers

open DB Deploy Program StepMachine Runtime List Option

variable {s s' : DeployWorld} {o : DeployChoice} {c : DeployCall}

inductive StopResponse
  | error (status : ℕ) (message : String)
  /-- 200; `noop` when there was no container. -/
  | stopped (noop : Bool)
  deriving DecidableEq

variable (appID : String)

/-- `findAppContainerID`: the newest container of the application on the master, if it has one. -/
def findAppContainerID : DeployM (Except String (Option ℕ)) := do
  match ← call (.listByLabel localNode "monster.app.id" appID) with
  | .error e => return .error e
  | .ok containers => return .ok (containers.head?.map Container.id)

/-- `Stop`, for the application of the request: POST /api/v1/apps/{id}/stop; `runtime` says whether
there is a container runtime. -/
def stop (runtime : Bool) (app : Application) : DeployM StopResponse := do
  if ¬ runtime then return .error 503 "container runtime not available"
  match ← findAppContainerID app.id with
  | .error _ => return .error 500 "lookup container failed"
  | .ok none =>
    let _ ← call (.updateAppStatus app.id .stopped app.tenantID)
    return .stopped true
  | .ok (some containerID) =>
    match ← call (.stop localNode (.id containerID)) with
    | .error _ => return .error 500 "stop failed"
    | .ok () =>
      let _ ← call (.updateAppStatus app.id .stopped app.tenantID)
      call (.publish (.appStopped app.id))
      return .stopped false

/-- Since `w` no container of the application has been restarted, and its status has not come to be
`running`. -/
structure Undisturbed (appID : String) (w s : DeployWorld) : Prop where
  starts : ∀ c ∈ s.runtime.containers, Container.of appID c = true →
    ∃ c' ∈ w.runtime.containers, c'.id = c.id ∧ c'.starts = c.starts
  status : ∀ a, getApp s.apps appID = some a → a.status = .running →
    ∃ a', getApp w.apps appID = some a' ∧ a'.status = .running

/-- No container of the application is on the master. -/
def NotLocal (rt : Runtime) : Prop :=
  ∀ c ∈ rt.containers, Container.of appID c = true → c.node ≠ localNode

/-- Whatever ticks and events of the monitor follow, and whatever containers exit, the application
is left alone. -/
def StaysStopped (w : DeployWorld) : Prop :=
  ∀ (threads : List MonitorThread) (as : List MonitorAction) (t : DeployWorld × List (DeployM Unit)),
    (∀ thread ∈ threads, thread.Truthful w) →
    run monitorStep (w, threads.map MonitorThread.prog) as = some t → Undisturbed appID w t.1

/-! ## The monitor, when the application has no container on the master -/

/-- The calls of the monitor: it restarts containers of the master, and writes `running` for other
applications only. -/
def MonitorCall : DeployCall → Prop
  | .updateAppStatus id status _ => id = appID → status ≠ .running
  | .restart node _ => node = localNode
  | c => c.writesRuntime = false ∧ c.writesApps = false

def MonitorAnswer (w : DeployWorld) : (c : DeployCall) → DeployAnswer c → Prop
  | .listByLabel node _ _, .ok cs => ∀ c ∈ cs, c.node = node ∧ ∃ c' ∈ w.runtime.containers, c'.Same c
  | .restart node (.id id), .ok () => ∃ c ∈ w.runtime.containers, c.node = node ∧ c.id = id
  | _, _ => True

/-- What the threads of the monitor keep. -/
structure Monitored (appID : String) (w s : DeployWorld) : Prop extends Undisturbed appID w s where
  shrinks : w.runtime.Shrinks s.runtime

variable {c : DeployCall} {r : DeployAnswer c}
  {appID : String} {w s s' : DeployWorld} {o : DeployChoice}

lemma monitorAnswer_of_deployExec (hs : Monitored appID w s)
    (h : deployExec c s o = some (r, s')) : MonitorAnswer w c r := by
  cases c with
  | listByLabel node key value =>
    rcases answer_eq_some h with ⟨e, -, rfl, -⟩ | ⟨-, rfl, -⟩
    · trivial
    · intro c hc
      obtain ⟨hc, hnode, -⟩ := mem_listByLabel.mp hc
      exact ⟨hnode, hs.shrinks.same c hc⟩
  | restart node ref =>
    cases ref with
    | name => trivial
    | id id =>
      cases r with
      | error => trivial
      | ok =>
        simp only [deployExec] at h
        split at h
        case isFalse =>
          cases h
        case isTrue hhas =>
          obtain ⟨c, hc, hnames⟩ := any_eq_true.mp hhas
          obtain ⟨c', hc', hsame⟩ := hs.shrinks.same c hc
          obtain ⟨hnode, hid⟩ := of_decide_eq_true hnames
          exact ⟨c', hc', hsame.node.trans hnode, hsame.id.trans hid⟩
  | _ => trivial

lemma Monitored.starts_exec (hw : NotLocal appID w.runtime) (hs : Monitored appID w s)
    (hc : MonitorCall appID c) (h : deployExec c s o = some (r, s')) (x : Container)
    (hx : x ∈ s'.runtime.containers) (happ : Container.of appID x = true) :
    ∃ c' ∈ w.runtime.containers, c'.id = x.id ∧ c'.starts = x.starts := by
  cases hrt : c.writesRuntime with
  | false =>
    rw [(framed_of_deployExec h).runtime hrt] at hx
    exact hs.starts x hx happ
  | true =>
    cases c with
    | restart node ref =>
      obtain rfl : node = localNode := hc
      rcases restart_of_deployExec h with heq | ⟨-, -, heq⟩
      · rw [heq] at hx
        exact hs.starts x hx happ
      rw [heq] at hx
      obtain ⟨y, hy, rfl⟩ := mem_restart.mp hx
      have hof : Container.of appID y = true :=
        ((same_restarted localNode ref y).labelled _ _).trans happ
      obtain ⟨z, hz, hsame⟩ := hs.shrinks.same y hy
      have hnode : y.node ≠ localNode :=
        hsame.node ▸ hw z hz ((hsame.labelled _ _).trans hof)
      rw [restarted_of_not_names (names_of_node_ne hnode ref)]
      exact hs.starts y hy hof
    | createAndStart | stop | remove => cases hc.1
    | _ => cases hrt

lemma Monitored.status_exec (hs : Monitored appID w s) (hc : MonitorCall appID c)
    (h : deployExec c s o = some (r, s')) (a : Application) (ha : getApp s'.apps appID = some a)
    (hrunning : a.status = .running) :
    ∃ a', getApp w.apps appID = some a' ∧ a'.status = .running := by
  cases happs : c.writesApps with
  | false =>
    rw [(framed_of_deployExec h).apps happs] at ha
    exact hs.status a ha hrunning
  | true =>
    cases c with
    | updateAppStatus id status tenantID =>
      rcases answer_eq_some h with ⟨-, -, -, rfl⟩ | ⟨-, -, rfl⟩
      · exact hs.status a ha hrunning
      obtain ⟨b, hb, rfl⟩ := map_eq_some_iff.mp ((getApp_updateAppStatus ..).symm.trans ha)
      apply hs.status b hb
      by_cases hid : appID = id
      · rw [if_pos hid, Application.setStatus] at hrunning
        split at hrunning
        · exact absurd hrunning (hc hid.symm)
        · exact hrunning
      · rwa [if_neg hid] at hrunning
    | deleteApp => cases hc.2
    | _ => cases happs

lemma Monitored.exec (hw : NotLocal appID w.runtime) (hs : Monitored appID w s)
    (hc : MonitorCall appID c) (h : deployExec c s o = some (r, s')) : Monitored appID w s' := by
  have hcreates : c.creates = false := by
    cases c with
    | createAndStart => cases hc.1
    | _ => rfl
  exact
    { starts := hs.starts_exec hw hc h
      status := hs.status_exec hc h
      shrinks := hs.shrinks.trans (shrinks_of_deployExec hcreates h) }

lemma Monitored.exit (hs : Monitored appID w s) (id : ℕ) (dead : Bool) :
    Monitored appID w { s with runtime := s.runtime.exit id dead } where
  starts := by
    intro c hc happ
    obtain ⟨c', hc', hsame, hstarts⟩ := mem_exit hc
    obtain ⟨c'', hc'', hid, hstarts'⟩ := hs.starts c' hc' ((hsame.labelled _ _).trans happ)
    exact ⟨c'', hc'', hid.trans hsame.id, hstarts'.trans hstarts⟩
  status := hs.status
  shrinks := by
    refine hs.shrinks.trans ⟨rfl, fun c hc => ?_⟩
    obtain ⟨c', hc', hsame, -⟩ := mem_exit hc
    exact ⟨c', hc', hsame⟩

lemma calls_tenantOf (appID id : String) : AllCalls (MonitorCall appID) (tenantOf id) := by
  refine ⟨⟨rfl, rfl⟩, ?_⟩
  rintro (e | app) <;> trivial

lemma calls_concludeCrash {id : String} {restarted : Bool} (h : restarted = true → id ≠ appID) :
    AllCalls (MonitorCall appID) (concludeCrash id restarted) := by
  refine (calls_tenantOf appID id).bind fun tenantID => ⟨fun hid => ?_, fun _ => trivial⟩
  cases restarted with
  | false => exact nofun
  | true => exact absurd hid (h rfl)

lemma calls_restartAttempts {α : Type} {f : Bool → DeployM α} {id : ℕ}
    (hfalse : CallsIn (MonitorAnswer w) (MonitorCall appID) (f false))
    (htrue : (∃ c ∈ w.runtime.containers, c.node = localNode ∧ c.id = id) →
      CallsIn (MonitorAnswer w) (MonitorCall appID) (f true)) (attempt n : ℕ) :
    CallsIn (MonitorAnswer w) (MonitorCall appID) (restartAttempts true id attempt n >>= f) := by
  induction n generalizing attempt with
  | zero => exact hfalse
  | succ n ih =>
    refine ⟨⟨rfl, rfl⟩, fun _ _ => ⟨rfl, ?_⟩⟩
    rintro (e | _) hanswer
    · exact ih (attempt + 1)
    · exact htrue hanswer

lemma calls_handleCrash {id : String} {containerID : ℕ}
    (h : id = appID → ∀ c ∈ w.runtime.containers, c.id = containerID → c.node ≠ localNode) :
    CallsIn (MonitorAnswer w) (MonitorCall appID) (handleCrash true id containerID) := by
  refine ((calls_tenantOf appID id).callsIn).bind fun tenantID => ?_
  refine ⟨fun _ => nofun, fun _ _ => ⟨⟨rfl, rfl⟩, fun _ _ => ?_⟩⟩
  have hfailed : AllCalls (MonitorCall appID) (concludeCrash id false) := calls_concludeCrash nofun
  refine calls_restartAttempts hfailed.callsIn ?_ 1 maxRetries
  rintro ⟨c, hc, hnode, hid⟩
  exact (calls_concludeCrash fun _ happ => h happ c hc hid hnode).callsIn

lemma of_appID {c : Container} (h : c.appID = appID) (hne : c.appID ≠ "") :
    Container.of appID c = true := by
  refine decide_eq_true ?_
  cases hlookup : c.labels.lookup "monster.app.id" with
  | none => exact absurd (by rw [Container.appID, hlookup]; rfl) hne
  | some value =>
    rw [← h, Container.appID, hlookup]
    rfl

variable (hw : NotLocal appID w.runtime)
include hw

lemma calls_restartCrashed {cs : List Container}
    (hcs : ∀ c ∈ cs, c.node = localNode ∧ ∃ c' ∈ w.runtime.containers, c'.Same c) :
    CallsIn (MonitorAnswer w) (MonitorCall appID) (restartCrashed true cs) := by
  induction cs with
  | nil => trivial
  | cons c cs ih =>
    have hrest := ih fun c hc => hcs c (mem_cons_of_mem _ hc)
    rw [restartCrashed]
    split
    case isFalse => exact hrest
    case isTrue hcrash =>
      refine CallsIn.bind (calls_handleCrash fun happ => ?_) fun _ => hrest
      obtain ⟨hnode, c', hc', hsame⟩ := hcs c mem_cons_self
      have hof := (hsame.labelled _ _).trans (of_appID happ hcrash.2)
      exact absurd (hsame.node.trans hnode) (hw c' hc' hof)

lemma calls_prog {thread : MonitorThread}
    (hthread : thread.Truthful w) : CallsIn (MonitorAnswer w) (MonitorCall appID) thread.prog := by
  cases thread with
  | tick =>
    refine ⟨⟨rfl, rfl⟩, ?_⟩
    rintro (e | cs) hanswer
    · trivial
    · exact calls_restartCrashed hw hanswer
  | died id containerID =>
    refine calls_handleCrash fun happ c hc hid => ?_
    subst happ
    exact hw c hc (hthread c hc hid)

/-- **An application without a container on the master is left alone.** -/
theorem staysStopped_of_notLocal : StaysStopped appID w := by
  intro threads as t hthreads hrun
  have hstart : Monitored appID w w :=
    { starts := fun c hc _ => ⟨c, hc, rfl, rfl⟩
      status := fun a ha hrunning => ⟨a, ha, hrunning⟩
      shrinks := .refl w.runtime }
  have hcalls : ∀ p ∈ threads.map MonitorThread.prog,
      CallsIn (MonitorAnswer w) (MonitorCall appID) p :=
    forall_mem_map.mpr fun thread hthread => calls_prog hw (hthreads thread hthread)
  refine (invariant_of_run (I := fun t : DeployWorld × List (DeployM Unit) =>
    Monitored appID w t.1 ∧ ∀ p ∈ t.2, CallsIn (MonitorAnswer w) (MonitorCall appID) p)
    ?_ ⟨hstart, hcalls⟩ hrun).1.toUndisturbed
  have hanswer : ∀ c s o r s', Monitored appID w s → deployExec c s o = some (r, s') →
      MonitorAnswer w c r := fun c s o r s' hs h => monitorAnswer_of_deployExec hs h
  have hexec : ∀ c s o r s', MonitorCall appID c → Monitored appID w s →
      deployExec c s o = some (r, s') → Monitored appID w s' :=
    fun c s o r s' hc hs h => hs.exec hw hc h
  rintro t a t' ⟨ht, hcalls⟩ hstep
  cases a with
  | call thread o => exact CallsIn.step hanswer hexec ht hcalls hstep
  | exit id dead =>
    cases hstep
    exact ⟨ht.exit id dead, hcalls⟩

omit hw

lemma run_call {w' : DeployWorld} {k : DeployAnswer c → DeployM Unit}
    (h : deployExec c w o = some (r, w')) (as : List MonitorAction) :
    run monitorStep (w, [.call c k]) (.call 0 o :: as) = run monitorStep (w', [k r]) as := by
  rw [run_cons]
  simp [monitorStep, poolStep, h]

lemma run_handleCrash (w : DeployWorld) (appID : String) {id : ℕ}
    (hhas : w.runtime.has localNode (.id id) = true) :
    ∃ t, run monitorStep (w, [handleCrash true appID id]) (replicate 5 (.call 0 {})) = some t ∧
      t.1.runtime = w.runtime.restart localNode (.id id) := by
  have hrestart : ∀ w' : DeployWorld, w'.runtime = w.runtime →
      deployExec (.restart localNode (.id id)) w' {} =
        some (.ok (), { w'.wait 0 with runtime := w.runtime.restart localNode (.id id) }) := by
    intro w' hw'
    have hhas' : (w'.wait 0).runtime.has localNode (.id id) = true := by
      show w'.runtime.has localNode (.id id) = true
      rwa [hw']
    simp only [deployExec, if_pos hhas']
    rw [← hw']
    rfl
  obtain ⟨r, hr⟩ : ∃ r, deployExec (.getApp appID) w {} = some (r, w.wait 0) := by
    simp only [deployExec]
    split <;> exact ⟨_, rfl⟩
  rcases r with e | a
  all_goals
    refine ⟨_, (run_call hr _).trans ((run_call rfl _).trans ((run_call rfl _).trans
      ((run_call rfl _).trans ((run_call (hrestart _ ?_) _).trans (run_nil _))))), ?_⟩
    · rfl
    · rfl

lemma notLocal_of_staysStopped (hstays : StaysStopped appID w) :
    NotLocal appID w.runtime := by
  intro c hc happ hnode
  have hnames : (ContainerRef.id c.id).names localNode c = true := decide_eq_true ⟨hnode, rfl⟩
  have hhas : w.runtime.has localNode (.id c.id) = true := any_eq_true.mpr ⟨c, hc, hnames⟩
  have htruthful : ∀ thread ∈ [MonitorThread.died appID c.id], thread.Truthful w := by
    intro thread hthread
    obtain rfl := mem_singleton.mp hthread
    intro c' hc' hid
    rwa [eq_of_id_eq hc' hc hid]
  obtain ⟨t, hrun, hrt⟩ := run_handleCrash w appID hhas
  have hs := hstays [.died appID c.id] _ t htruthful hrun
  have hmem : Runtime.restarted localNode (.id c.id) c ∈ t.1.runtime.containers := by
    rw [hrt]
    exact mem_restart.mpr ⟨c, hc, rfl⟩
  have hsame := same_restarted localNode (.id c.id) c
  obtain ⟨c', hc', hid, hstarts⟩ := hs.starts _ hmem ((hsame.labelled _ _).symm.trans happ)
  obtain rfl := eq_of_id_eq hc' hc (hid.trans hsame.id.symm)
  rw [Runtime.restarted, if_pos hnames] at hstarts
  exact absurd hstarts (Nat.ne_of_lt (Nat.lt_succ_self _))

/-! ## Stopping -/

lemma notLocal_stop (appID node : String) (ref : ContainerRef) (rt : Runtime) :
    NotLocal appID (rt.stop node ref) ↔ NotLocal appID rt := by
  constructor
  · intro h c hc happ
    have hsame := same_stopped node ref c
    rw [hsame.node]
    exact h _ (mem_stop.mpr ⟨c, hc, rfl⟩) ((hsame.labelled _ _).symm.trans happ)
  · intro h x hx happ
    obtain ⟨c, hc, rfl⟩ := mem_stop.mp hx
    have hsame := same_stopped node ref c
    rw [← hsame.node]
    exact h c hc ((hsame.labelled _ _).trans happ)

def StopCall : DeployCall → Prop
  | .stop _ _ => True
  | c => c.writesRuntime = false

lemma stopCall_stop (runtime : Bool) (app : Application) :
    AllCalls StopCall (stop runtime app) := by
  rw [stop]
  split
  · trivial
  refine ⟨rfl, ?_⟩
  rintro (e | containers)
  · trivial
  dsimp only [Prog.bind]
  cases containers.head?.map Container.id with
  | none => exact ⟨rfl, fun _ => trivial⟩
  | some containerID =>
    refine ⟨trivial, ?_⟩
    rintro (e | _)
    · trivial
    · exact ⟨rfl, fun _ => ⟨rfl, fun _ => trivial⟩⟩

lemma notLocal_of_stop (runtime : Bool) (app : Application) (appID : String) (w : DeployWorld) :
    Wp deployExec (stop runtime app)
      (fun _ s => NotLocal appID s.runtime ↔ NotLocal appID w.runtime) w := by
  refine (stopCall_stop runtime app).wp ?_ Iff.rfl
  intro c s o r s' hc hs h
  refine Iff.trans ?_ hs
  cases hrt : c.writesRuntime with
  | false => rw [(framed_of_deployExec h).runtime hrt]
  | true =>
    cases c with
    | stop node ref =>
      rcases stop_of_deployExec h with heq | heq
      · rw [heq]
      · rw [heq, notLocal_stop]
    | createAndStart | remove | restart => cases hc
    | _ => cases hrt

/-- **An application that was stopped stays so exactly when it had no container on the master**: no
sequence of ticks and events then restarts a container of it or writes the status `running`. -/
theorem stop_final_iff (runtime : Bool) (app : Application) (noop : Bool) (w0 w : DeployWorld)
    (os : List DeployChoice)
    (hstop : solo deployExec (stop runtime app) w0 os = some (.stopped noop, w)) :
    StaysStopped app.id w ↔ NotLocal app.id w0.runtime := by
  have hsame := of_solo (notLocal_of_stop runtime app app.id w0) hstop
  constructor
  · exact fun hstays => hsame.mp (notLocal_of_staysStopped hstays)
  · exact fun hw => staysStopped_of_notLocal (hsame.mpr hw)

theorem stop_final_iff_neverDeployed :
    ∃ w, solo deployExec (stop true (webApp .git)) (newWorld (webApp .git)) [{}, {}] =
      some (.stopped true, w) ∧ StaysStopped "web" w := by
  exact exists_of_solo_imp (P := fun _ => True) (by decide) fun w hstop _ =>
    (stop_final_iff _ _ _ _ w _ hstop).mpr nofun

/-- A deployment, `Stop`, which answers 200, and one tick: the container runs again, started a
second time, and so does the application. -/
theorem stop_undone :
    ∃ w0 w t, solo deployExec (deployApp ⟨true, false⟩ (webApp .git) "manual" "")
        (newWorld (webApp .git)) gitChoices = some ((), w0) ∧
      solo deployExec (stop true (webApp .git)) w0 (replicate 4 {}) =
        some (.stopped false, w) ∧
      (getApp w.apps "web").map Application.status = some .stopped ∧
      run monitorStep (w, [MonitorThread.tick.prog]) (replicate 8 (.call 0 {})) = some t ∧
      (getApp t.1.apps "web").map Application.status = some .running ∧
      t.1.runtime.containers.map (fun c => (c.name, c.state, c.starts)) =
        [("dm-web-1", .running, 2)] := by
  set_option synthInstance.maxSize 256 in
  decide +kernel

end DeployMonster.Handlers
