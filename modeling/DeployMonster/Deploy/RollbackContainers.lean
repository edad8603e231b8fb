import DeployMonster.Deploy.Rollback

/-!
# The containers of a rollback

A rollback starts a container with the image of an old version, checks its health and removes the
container of the latest row of deployments, which need not be the one whose container runs.
-/

namespace DeployMonster.Deploy

open DB Handlers Program List Option

/-- The calls that are taken to succeed: containers are stopped and removed, the latest deployment is
read, and the end of a rollback is recorded. -/
def DeployCall.steady : DeployCall → Bool
  | .stop _ _ | .remove _ _ | .getLatestDeployment _ => true
  | .updateDeployment d => d.status = .running
  | _ => false

def steadyExec (c : DeployCall) (w : DeployWorld) (o : DeployChoice) :
    Option (DeployAnswer c × DeployWorld) :=
  if c.steady ∧ o.fails.isSome then none else deployExec c w o

variable {w w' : DeployWorld} {o : DeployChoice} {c : DeployCall} {r : DeployAnswer c}

lemma deployExec_of_steadyExec (h : steadyExec c w o = some (r, w')) :
    deployExec c w o = some (r, w') :=
  (ite_none_left_eq_some.mp h).2

lemma fails_of_steadyExec (h : steadyExec c w o = some (r, w')) (hc : c.steady = true) :
    o.fails = none := by
  have hok := (ite_none_left_eq_some.mp h).1
  simpa [hc] using hok

lemma wp_quiet_bind {α β : Type} {p : DeployM α} {f : α → DeployM β} {Q : β → DeployWorld → Prop}
    (hp : AllCalls (fun c => c.writesRuntime = false) p)
    (hf : ∀ a w', w'.runtime = w.runtime → Wp steadyExec (f a) Q w') :
    Wp steadyExec (p >>= f) Q w := by
  refine (wp_bind ..).mpr ((hp.wp (I := fun s : DeployWorld => s.runtime = w.runtime) ?_ rfl).mono hf)
  intro c s o r s' hc hs h
  exact ((framed_of_deployExec (deployExec_of_steadyExec h)).runtime hc).trans hs

lemma quiet_call (hc : c.writesRuntime = false) :
    AllCalls (fun c => c.writesRuntime = false) (call c) := ⟨hc, fun _ => trivial⟩

namespace Runtime

variable {rt : Runtime} {node : String} {ref : ContainerRef} {c : Container}

lemma names_stopped (node : String) (ref ref' : ContainerRef) (c : Container) :
    ref'.names node (stopped node ref c) = ref'.names node c := by
  obtain ⟨state, hstate⟩ := exists_stopped node ref c
  rw [hstate]
  cases ref' <;> rfl

lemma mem_stop_of_not_names : c ∈ (rt.stop node ref).containers ∧ ref.names node c = false ↔
    c ∈ rt.containers ∧ ref.names node c = false := by
  rw [mem_stop]
  constructor
  · rintro ⟨⟨c', hc', rfl⟩, hnames⟩
    rw [names_stopped] at hnames
    rw [stopped_of_not_names hnames]
    exact ⟨hc', hnames⟩
  · rintro ⟨hc, hnames⟩
    exact ⟨⟨c, hc, stopped_of_not_names hnames⟩, hnames⟩

lemma names_of_not_has (h : rt.has node ref = false) (hc : c ∈ rt.containers) :
    ref.names node c = false :=
  Bool.eq_false_iff.mpr (any_eq_false.mp h c hc)

end Runtime

variable {node : String} {ref : ContainerRef}

/-- The containers of `w` that the reference does not name. -/
def Discarded (node : String) (ref : ContainerRef) (w w' : DeployWorld) : Prop :=
  ∀ c, c ∈ w'.runtime.containers ↔ c ∈ w.runtime.containers ∧ ref.names node c = false

lemma stop_of_steadyExec {r : Except String Unit} (h : steadyExec (.stop node ref) w o = some (r, w'))
    (c : Container) : c ∈ w'.runtime.containers ∧ ref.names node c = false ↔
      c ∈ w.runtime.containers ∧ ref.names node c = false := by
  rcases stop_of_deployExec (deployExec_of_steadyExec h) with hrt | hrt
  · rw [hrt]
  · rw [hrt, Runtime.mem_stop_of_not_names]

lemma remove_of_steadyExec {r : Except String Unit}
    (h : steadyExec (.remove node ref) w o = some (r, w')) : Discarded node ref w w' := by
  have hfails := fails_of_steadyExec h rfl
  have hexec := deployExec_of_steadyExec h
  simp only [deployExec, DeployChoice.answer, hfails] at hexec
  intro c
  split at hexec
  case isTrue =>
    cases hexec
    exact Runtime.mem_remove
  case isFalse hhas =>
    cases hexec
    have hnone : w.runtime.has node ref = false := Bool.eq_false_iff.mpr hhas
    exact ⟨fun hc => ⟨hc, Runtime.names_of_not_has hnone hc⟩, And.left⟩

lemma wp_discard {α : Type} {f : DeployM α} {Q : α → DeployWorld → Prop}
    (hf : ∀ w', Discarded node ref w w' → Wp steadyExec f Q w') :
    Wp steadyExec (do
      let _ ← call (.stop node ref)
      let _ ← call (.remove node ref)
      f) Q w := by
  intro o1 r1 w1 h1 o2 r2 w2 h2
  refine hf w2 fun c => ?_
  rw [remove_of_steadyExec h2 c, stop_of_steadyExec h1 c]

/-! ## What a rollback does to the containers -/

def oldContainer (w : DeployWorld) (appID : String) : Option ℕ :=
  (DB.getLatestDeployment w.deployments appID).bind Deployment.containerID

def answeredContainer : Except String Deployment → Option ℕ
  | .ok current => current.containerID
  | .error _ => none

def rollbackName (w : DeployWorld) (appID : String) : ContainerRef :=
  .name (containerName appID (maxVersion w.deployments.rows appID + 1))

/-- A rollback that returns an error keeps the containers under other names than its own. One that
returns a deployment has started a container under that name, which was free, and removed the old
one. -/
inductive Effect (appID : String) (name : ContainerRef) (old : Option ℕ) (rt : Runtime) :
    Except String Deployment → DeployWorld → Prop
  | error {e : String} {w' : DeployWorld}
      (kept : ∀ c ∈ rt.containers, name.names localNode c = false → c ∈ w'.runtime.containers)
      (gone : rt.has localNode name = true → ∀ c ∈ w'.runtime.containers,
        name.names localNode c = false) : Effect appID name old rt (.error e) w'
  | ok {d : Deployment} {w' : DeployWorld} {opts : ContainerOpts}
      (free : rt.has localNode name = false) (container : d.containerID = some rt.next)
      (labelled : (rt.fresh localNode opts true).of appID = true)
      (containers : ∀ c, c ∈ w'.runtime.containers ↔
        (c ∈ rt.containers ∨ c = rt.fresh localNode opts true) ∧
          ∀ id ∈ old, (ContainerRef.id id).names localNode c = false) :
      Effect appID name old rt (.ok d) w'

variable {opts : ContainerOpts}
  {app : Application} {appID : String} {dep : Deployment} {old : Option ℕ}

lemma wp_recordRollback : Wp steadyExec (recordRollback app appID dep)
    (fun result w' => ∃ d, result = .ok d ∧ d.containerID = dep.containerID ∧
      w'.runtime = w.runtime) w := by
  refine wp_quiet_bind (quiet_call rfl) fun finished w1 hw1 => wp_call_bind.mpr ?_
  intro o2 r2 w2 h2
  have hw2 := (framed_of_deployExec (deployExec_of_steadyExec h2)).runtime rfl
  have hfails := fails_of_steadyExec h2 rfl
  have hexec := deployExec_of_steadyExec h2
  simp only [deployExec, DeployChoice.answer, hfails] at hexec
  cases hexec
  refine wp_quiet_bind (quiet_call rfl) fun _ w3 hw3 => ?_
  refine wp_quiet_bind (quiet_call rfl) fun _ w4 hw4 => ?_
  exact ⟨_, rfl, rfl, by rw [hw4, hw3, hw2, hw1]⟩

lemma wp_finishRollback : Wp steadyExec (finishRollback true app appID dep old)
    (fun result w' => ∃ d, result = .ok d ∧ d.containerID = dep.containerID ∧
      ∀ c, c ∈ w'.runtime.containers ↔ c ∈ w.runtime.containers ∧
        ∀ id ∈ old, (ContainerRef.id id).names localNode c = false) w := by
  cases old with
  | none =>
    refine wp_recordRollback.mono ?_
    rintro result w' ⟨d, hresult, hd, hw'⟩
    refine ⟨d, hresult, hd, fun c => ?_⟩
    rw [hw']
    simp
  | some id =>
    refine wp_discard fun w1 hw1 => ?_
    refine wp_recordRollback.mono ?_
    rintro result w' ⟨d, hresult, hd, hw'⟩
    refine ⟨d, hresult, hd, fun c => ?_⟩
    rw [hw', hw1 c]
    simp

lemma quiet_failRollback (status : AppStatus) :
    AllCalls (fun c => c.writesRuntime = false) (failRollback app appID dep status) :=
  ⟨rfl, fun _ => ⟨rfl, fun _ => ⟨rfl, fun _ => trivial⟩⟩⟩

lemma of_fresh_rollback (rt : Runtime) {version targetVersion : ℕ} {rest : Labels}
    (hlabels : opts.labels = rollbackLabels app appID version targetVersion ++ rest) :
    (rt.fresh localNode opts true).of appID = true := by
  simp [Runtime.fresh, Container.of, Container.labelled, hlabels, rollbackLabels, lookup]

lemma free_of_create {id : ℕ}
    (h : deployExec (.createAndStart localNode opts) w o = some (.ok id, w')) :
    w.runtime.has localNode (.name opts.name) = false := by
  simp only [deployExec] at h
  split at h
  · cases h
  case isFalse hhas => exact Bool.eq_false_iff.mpr hhas

lemma not_names_next {rt : Runtime} {c : Container} (hc : c ∈ rt.containers) :
    (ContainerRef.id rt.next).names localNode c = false :=
  decide_eq_false fun h => Nat.ne_of_lt (rt.lt_next c hc) h.2

lemma effect_of_not_started {rt : Runtime} {name e : String}
    (hsub : ∀ c ∈ rt.containers, c ∈ w.runtime.containers) :
    Wp steadyExec (do
      failRollback app appID dep .failed
      let _ ← call (.stop localNode (.name name))
      let _ ← call (.remove localNode (.name name))
      return .error ("rollback deploy: " ++ e)) (Effect appID (.name name) old rt) w := by
  refine wp_quiet_bind (quiet_failRollback _) fun _ w1 hw1 => ?_
  refine wp_discard fun w2 hw2 => ?_
  refine .error (fun c hc hnames => (hw2 c).mpr ⟨hw1 ▸ hsub c hc, hnames⟩) ?_
  exact fun _ c hc => ((hw2 c).mp hc).2

lemma effect_of_unhealthy {rt : Runtime} {name : ContainerRef}
    (hfree : rt.has localNode name = false) (hsub : ∀ c ∈ rt.containers, c ∈ w.runtime.containers) :
    Wp steadyExec (do
      let _ ← call (.stop localNode (.id rt.next))
      let _ ← call (.remove localNode (.id rt.next))
      failRollback app appID dep .running
      return .error "new container failed health check during rollback")
      (Effect appID name old rt) w := by
  refine wp_discard fun w1 hw1 => ?_
  refine wp_quiet_bind (quiet_failRollback _) fun _ w2 hw2 => ?_
  refine .error (fun c hc _ => ?_) (fun hhas => absurd (hfree.symm.trans hhas) nofun)
  rw [hw2]
  exact (hw1 c).mpr ⟨hsub c hc, not_names_next hc⟩

lemma effect_startRollback (targetVersion : ℕ) :
    Wp steadyExec (startRollback true app appID dep targetVersion old)
      (Effect appID (.name (containerName app.id dep.version)) old w.runtime) w := by
  refine wp_quiet_bind (quiet_call rfl) fun _ w1 hw1 => ?_
  refine wp_quiet_bind (quiet_call rfl) fun answer w2 hw2 => ?_
  have hrt : w2.runtime = w.runtime := hw2.trans hw1
  rw [if_pos rfl, ← hrt]
  refine wp_call_bind.mpr ?_
  intro o3 r3 w3 h3
  have hexec := deployExec_of_steadyExec h3
  rcases create_of_deployExec hexec with ⟨rfl, hw3⟩ | ⟨e, rfl, hw3⟩
  case inr =>
    refine effect_of_not_started fun c hc => ?_
    rcases hw3 with hw3 | hw3
    · rwa [hw3]
    · rw [hw3, Runtime.mem_create]
      exact .inl hc
  case inl =>
    have hfree := free_of_create hexec
    refine wp_quiet_bind (allCalls_healthCheck rfl) fun healthy w4 hw4 => ?_
    have hcreated := hw4.trans hw3
    split
    · refine wp_finishRollback.mono ?_
      rintro result w' ⟨d, rfl, hd, hw'⟩
      refine .ok hfree hd ?_ fun c => by rw [hw' c, hcreated, Runtime.mem_create]
      exact of_fresh_rollback w2.runtime rfl
    · refine effect_of_unhealthy hfree fun c hc => ?_
      rw [hcreated, Runtime.mem_create]
      exact .inl hc

lemma id_of_getApp {apps : AppTable} (happ : DB.getApp apps appID = some app) : app.id = appID :=
  (Table.find?_eq_some_iff.mp happ).2

lemma getApp_of_deployExec
    (h : deployExec (.getApp appID) w o = some (.ok app, w')) : DB.getApp w.apps appID = some app := by
  simp only [deployExec] at h
  split at h
  case h_1 => cases h
  case h_2 found hfound =>
    rcases answer_eq_some h with ⟨e, -, he, -⟩ | ⟨-, hok, -⟩
    · cases he
    · cases hok
      exact hfound

lemma latest_of_steadyExec {answer : DeployAnswer (.getLatestDeployment appID)}
    (h : steadyExec (.getLatestDeployment appID) w o = some (answer, w')) :
    answeredContainer answer = oldContainer w appID := by
  have hfails := fails_of_steadyExec h rfl
  have hexec := deployExec_of_steadyExec h
  simp only [deployExec, DeployChoice.answer, hfails] at hexec
  split at hexec
  case h_1 hnone =>
    cases hexec
    exact congrArg (bind · _) hnone.symm
  case h_2 d hd =>
    cases hexec
    exact congrArg (Option.bind · _) hd.symm

/-- A rollback that fails before it comes to its container changes none. -/
def Outcome (appID : String) (w : DeployWorld) (result : Except String Deployment)
    (w' : DeployWorld) : Prop :=
  (∃ e, result = .error e) ∧ w'.runtime = w.runtime ∨
    Effect appID (rollbackName w appID) (oldContainer w appID) w.runtime result w'

/-- `Rollback`, once the old container is known: a row is reserved. -/
def reserveRollback (app : Application) (appID : String) (target : Deployment)
    (oldContainerID : Option ℕ) : DeployM (Except String Deployment) := do
  let now ← call .now
  let deployment : Deployment :=
    { appID, image := target.image, status := .deploying, commitSHA := target.commitSHA,
      commitMessage := "Rollback to v" ++ toString target.version, triggeredBy := "rollback",
      strategy := "recreate", startedAt := some now }
  match ← call (.createDeploymentAtomicVersion deployment) with
  | .error e => return .error ("create rollback deployment: " ++ e)
  | .ok deployment => startRollback true app appID deployment target.version oldContainerID

lemma rollbackTo_eq (app : Application) (appID : String) (target : Deployment) :
    rollbackTo true app appID target = call (.getLatestDeployment appID) >>= fun answer =>
      reserveRollback app appID target (answeredContainer answer) := by
  refine congrArg (call (.getLatestDeployment appID) >>= ·) (funext fun answer => ?_)
  cases answer <;> rfl

variable {s : DeployWorld}

lemma outcome_reserve (target : Deployment) (happ : app.id = appID)
    (hrt : s.runtime = w.runtime) (hdep : s.deployments = w.deployments) :
    Wp steadyExec (reserveRollback app appID target (oldContainer w appID)) (Outcome appID w) s := by
  intro o1 now s1 h1
  have hframe1 := framed_of_deployExec (deployExec_of_steadyExec h1)
  refine wp_call_bind.mpr ?_
  intro o2 answer s2 h2
  have hexec := deployExec_of_steadyExec h2
  have hrt2 : s2.runtime = w.runtime :=
    ((framed_of_deployExec hexec).runtime rfl).trans ((hframe1.runtime rfl).trans hrt)
  rcases reserve_of_deployExec hexec with ⟨e, rfl, -⟩ | ⟨rfl, -, -⟩
  · exact .inl ⟨⟨_, rfl⟩, hrt2⟩
  refine (effect_startRollback target.version).mono fun result w' heffect => .inr ?_
  rw [hrt2, happ] at heffect
  have hversion : s1.deployments = w.deployments := (hframe1.deployments rfl).trans hdep
  rw [hversion] at heffect
  exact heffect

lemma outcome_rollbackTo {target : Deployment} (happ : app.id = appID) :
    Wp steadyExec (rollbackTo true app appID target) (Outcome appID w) w := by
  rw [rollbackTo_eq, wp_call_bind]
  intro o answer w1 h
  have hframe := framed_of_deployExec (deployExec_of_steadyExec h)
  rw [latest_of_steadyExec h]
  exact outcome_reserve target happ (hframe.runtime rfl) (hframe.deployments rfl)

lemma outcome_congr (hrt : s.runtime = w.runtime)
    (hdep : s.deployments = w.deployments) : Outcome appID s = Outcome appID w := by
  unfold Outcome rollbackName oldContainer
  rw [hrt, hdep]

/-- The version can be gone back to: its deployment is among the last 50 and has an image, and the
application exists. -/
def Feasible (w : DeployWorld) (appID : String) (targetVersion : ℕ) : Prop :=
  (∃ app, DB.getApp w.apps appID = some app) ∧
    ∃ target, (DB.listDeploymentsByApp w.deployments appID 50).find?
      (·.version = targetVersion) = some target ∧ target.image ≠ ""

/-- **What a rollback does to the containers**: nothing when it fails early, and only a feasible one
comes to its container. -/
theorem outcome_rollback (w : DeployWorld) (appID : String) (targetVersion : ℕ) :
    Wp steadyExec (rollback true appID targetVersion) (fun result w' =>
      (∃ e, result = .error e) ∧ w'.runtime = w.runtime ∨ Feasible w appID targetVersion ∧
        Effect appID (rollbackName w appID) (oldContainer w appID) w.runtime result w') w := by
  have hearly {s : DeployWorld} {e : String} (hs : s.runtime = w.runtime) :
      (∃ e', Except.error (ε := String) (α := Deployment) e = .error e') ∧ s.runtime = w.runtime ∨
        Feasible w appID targetVersion ∧
          Effect appID (rollbackName w appID) (oldContainer w appID) w.runtime (.error e) s :=
    .inl ⟨⟨e, rfl⟩, hs⟩
  refine wp_call_bind.mpr ?_
  intro o1 answer w1 h1
  have hframe1 := framed_of_deployExec (deployExec_of_steadyExec h1)
  rcases answer_eq_some (deployExec_of_steadyExec h1) with ⟨e, -, rfl, -⟩ | ⟨-, rfl, -⟩
  · exact hearly (hframe1.runtime rfl)
  dsimp only
  split
  case h_1 => exact hearly (hframe1.runtime rfl)
  case h_2 target htarget =>
    split
    case isTrue => exact hearly (hframe1.runtime rfl)
    case isFalse himage =>
      refine wp_call_bind.mpr ?_
      intro o2 answer2 w2 h2
      have hframe2 := framed_of_deployExec (deployExec_of_steadyExec h2)
      have hrt : w2.runtime = w.runtime := (hframe2.runtime rfl).trans (hframe1.runtime rfl)
      have hdep : w2.deployments = w.deployments :=
        (hframe2.deployments rfl).trans (hframe1.deployments rfl)
      rcases answer2 with e | app
      · exact hearly hrt
      have happ : DB.getApp w.apps appID = some app :=
        hframe1.apps rfl ▸ getApp_of_deployExec (deployExec_of_steadyExec h2)
      refine (outcome_rollbackTo (id_of_getApp happ)).mono fun result w' hout => ?_
      rw [outcome_congr hrt hdep] at hout
      exact hout.imp_right fun heffect => ⟨⟨⟨app, happ⟩, target, htarget, himage⟩, heffect⟩

/-! ## Rollbacks that are possible -/

variable {targetVersion : ℕ}

lemma steadyExec_enabled (c : DeployCall) (w : DeployWorld) : ∃ o x, steadyExec c w o = some x := by
  refine ⟨{ rowID := "x" }, ?_⟩
  have hsteady : steadyExec c w { rowID := "x" } = deployExec c w { rowID := "x" } :=
    if_neg fun h => nomatch h.2
  rw [hsteady]
  cases c with
  | createDeploymentAtomicVersion d =>
    simp only [deployExec, DeployChoice.answer]
    rw [if_neg (by decide)]
    split <;> exact ⟨_, rfl⟩
  | getApp | getLatestDeployment | stats | stop | remove | restart | createAndStart =>
    simp only [deployExec, DeployChoice.answer]
    split <;> exact ⟨_, rfl⟩
  | _ => exact ⟨_, rfl⟩

lemma may_healthCheck {rt : Runtime} {Q : Bool → DeployWorld → Prop}
    (hs : s.runtime = rt.create localNode opts true) (hQ : Q true (s.wait 0)) :
    May steadyExec (healthCheck rt.next) Q s := by
  have hold : rt.containers.find? (fun c => (ContainerRef.id rt.next).names localNode c) = none := by
    refine find?_eq_none.mpr fun c hc => ?_
    rw [not_names_next hc]
    exact Bool.false_ne_true
  have hfind : s.runtime.containers.find? (fun c => (ContainerRef.id rt.next).names localNode c) =
      some (rt.fresh localNode opts true) := by
    rw [hs]
    show (rt.containers ++ [_]).find? _ = _
    rw [find?_append, hold, none_or, find?_singleton, if_pos]
    exact decide_eq_true ⟨rfl, rfl⟩
  have hstats : steadyExec (.stats localNode (.id rt.next)) s {} = some (.ok true, s.wait 0) := by
    show deployExec (.stats localNode (.id rt.next)) s {} = _
    simp only [deployExec, DeployChoice.answer]
    have hwait : (s.wait 0).runtime = s.runtime := rfl
    rw [hwait, hfind]
    rfl
  refine (may_bind ..).mpr ⟨{}, _, _, hstats, ?_⟩
  exact hQ

lemma create_of_free (hfree : s.runtime.has localNode (.name opts.name) = false) :
    steadyExec (.createAndStart localNode opts) s {} = some (.ok s.runtime.next,
      { s.wait 0 with runtime := s.runtime.create localNode opts true }) := by
  exact if_neg (Bool.eq_false_iff.mp hfree)

lemma may_startRollback
    (hfree : w.runtime.has localNode (.name (containerName app.id dep.version)) = false) :
    May steadyExec (startRollback true app appID dep targetVersion old)
      (fun result _ => ∃ d, result = .ok d) w := by
  refine may_call_bind.mpr ⟨{}, _, _, rfl, ?_⟩
  refine may_call_bind.mpr ⟨{}, _, _, rfl, ?_⟩
  refine may_call_bind.mpr ⟨{}, _, _, create_of_free hfree, ?_⟩
  refine (may_bind ..).mpr (may_healthCheck rfl ?_)
  refine Wp.may steadyExec_enabled (wp_finishRollback.mono ?_)
  rintro result w' ⟨d, hd, -⟩
  exact ⟨d, hd⟩

lemma getApp_possible (happ : DB.getApp w.apps appID = some app) :
    steadyExec (.getApp appID) w {} = some (.ok app, w.wait 0) := by
  have hfound : DB.getApp (w.wait 0).apps appID = some app := happ
  show deployExec (.getApp appID) w {} = _
  simp only [deployExec, hfound, DeployChoice.answer]

lemma reserve_possible (w : DeployWorld) (d : Deployment) : ∃ o dep w',
    steadyExec (.createDeploymentAtomicVersion d) w o = some (.ok dep, w') ∧
      dep.version = maxVersion w.deployments.rows d.appID + 1 ∧ w'.runtime = w.runtime := by
  obtain ⟨rowID, hrowID⟩ := Infinite.exists_notMem_finset
    (insert "" (w.deployments.rows.map Deployment.id).toFinset)
  rw [Finset.mem_insert, List.mem_toFinset, not_or] at hrowID
  have hcreate : DB.createDeploymentAtomicVersion (w.wait 0).deployments d rowID (w.wait 0).now =
      some (w.deployments.insert (versioned w.deployments d rowID (w.wait 0).now) hrowID.2) :=
    dif_neg hrowID.2
  refine ⟨{ rowID }, returned w.deployments d rowID,
    { w.wait 0 with
      deployments := w.deployments.insert (versioned w.deployments d rowID (w.wait 0).now) hrowID.2 },
    ?_, rfl, rfl⟩
  show deployExec (.createDeploymentAtomicVersion d) w { rowID } = _
  simp only [deployExec, if_neg hrowID.1, hcreate, DeployChoice.answer]
  rfl

variable (hfeasible : Feasible w appID targetVersion)
include hfeasible

lemma may_rollback {Q : Except String Deployment → DeployWorld → Prop} (hstart : ∀ app dep target s, app.id = appID →
      dep.version = maxVersion w.deployments.rows appID + 1 → s.runtime = w.runtime →
      May steadyExec (startRollback true app appID dep target (oldContainer w appID)) Q s) :
    May steadyExec (rollback true appID targetVersion) Q w := by
  obtain ⟨⟨app, happ⟩, target, htarget, himage⟩ := hfeasible
  obtain ⟨w1, hlist, hrt1, hdep1, happs1⟩ : ∃ w', steadyExec (.listDeploymentsByApp appID 50) w {} =
      some (.ok (DB.listDeploymentsByApp w.deployments appID 50), w') ∧ w'.runtime = w.runtime ∧
        w'.deployments = w.deployments ∧ w'.apps = w.apps :=
    ⟨w.wait 0, rfl, rfl, rfl, rfl⟩
  refine may_call_bind.mpr ⟨{}, _, _, hlist, ?_⟩
  dsimp only
  rw [htarget]
  dsimp only
  rw [if_neg himage]
  refine may_call_bind.mpr ⟨{}, _, _, getApp_possible (happs1 ▸ happ), ?_⟩
  dsimp only
  rw [rollbackTo_eq]
  obtain ⟨o, ⟨answer, w2⟩, hlatest⟩ := steadyExec_enabled (.getLatestDeployment appID) (w1.wait 0)
  have hframe := framed_of_deployExec (deployExec_of_steadyExec hlatest)
  refine may_call_bind.mpr ⟨o, answer, w2, hlatest, ?_⟩
  have hold : answeredContainer answer = oldContainer w appID := by
    rw [latest_of_steadyExec hlatest, oldContainer, oldContainer, ← hdep1]
    rfl
  rw [hold]
  refine may_call_bind.mpr ⟨{}, _, _, rfl, ?_⟩
  obtain ⟨o', dep, w3, hreserve, hversion, hrt3⟩ := reserve_possible (w2.wait 0) _
  refine may_call_bind.mpr ⟨o', _, w3, hreserve, ?_⟩
  have hdep2 : w2.deployments = w.deployments := (hframe.deployments rfl).trans hdep1
  have hrt2 : w2.runtime = w.runtime := (hframe.runtime rfl).trans hrt1
  refine hstart app dep target.version w3 (id_of_getApp happ) ?_ (hrt3.trans hrt2)
  rw [hversion, ← hdep2]
  rfl

lemma may_effect :
    May steadyExec (rollback true appID targetVersion)
      (Effect appID (rollbackName w appID) (oldContainer w appID) w.runtime) w := by
  refine may_rollback hfeasible fun app dep target s happ hversion hs => ?_
  have hname : rollbackName w appID = .name (containerName app.id dep.version) := by
    rw [happ, hversion, rollbackName]
  rw [hname, ← hs]
  exact Wp.may steadyExec_enabled (effect_startRollback target)

lemma may_succeed (hfree : w.runtime.has localNode (rollbackName w appID) = false) :
    May steadyExec (rollback true appID targetVersion) (fun result _ => ∃ d, result = .ok d) w := by
  refine may_rollback hfeasible fun app dep target s happ hversion hs => may_startRollback ?_
  rw [happ, hversion, hs]
  exact hfree

omit hfeasible

/-! ## The old container is replaced -/

/-- Success leaves the new container as the only one of the application that runs. An error leaves
what was running. -/
def Replaced (appID : String) (rt : Runtime) : Except String Deployment → DeployWorld → Prop
  | .ok d, w' => ∃ c ∈ w'.runtime.containers, d.containerID = some c.id ∧ rt.next ≤ c.id ∧
      c.of appID = true ∧ c.state = .running ∧
        ∀ c' ∈ w'.runtime.containers, c'.of appID = true → c'.state = .running → c' = c
  | .error _, w' => ∀ c ∈ rt.containers, c.state = .running → c ∈ w'.runtime.containers

instance (appID : String) (rt : Runtime) (result : Except String Deployment) (w' : DeployWorld) :
    Decidable (Replaced appID rt result w') := by
  unfold Replaced
  split <;> infer_instance

def NameUnused (w : DeployWorld) (appID : String) : Prop :=
  ∀ c ∈ w.runtime.containers, c.state = .running → (rollbackName w appID).names localNode c = false

/-- The latest deployment has the only container of the application that runs, and none that is yet
to be created. -/
def CurrentOnly (w : DeployWorld) (appID : String) : Prop :=
  oldContainer w appID ≠ some w.runtime.next ∧
    ∀ c ∈ w.runtime.containers, c.of appID = true → c.state = .running →
      c.node = localNode ∧ oldContainer w appID = some c.id

variable {result : Except String Deployment}

lemma replaced_of_effect (hname : NameUnused w appID)
    (hcurrent : w.runtime.has localNode (rollbackName w appID) = false → CurrentOnly w appID)
    (h : Effect appID (rollbackName w appID) (oldContainer w appID) w.runtime result w') :
    Replaced appID w.runtime result w' := by
  cases h with
  | error kept gone => exact fun c hc hrunning => kept c hc (hname c hc hrunning)
  | ok free container labelled containers =>
    obtain ⟨hnext, honly⟩ := hcurrent free
    refine ⟨_, (containers _).mpr ⟨.inr rfl, ?_⟩, container, le_refl _, labelled, rfl, ?_⟩
    · intro id hid
      refine decide_eq_false fun hnames => hnext ?_
      rw [mem_def.mp hid, ← hnames.2]
      rfl
    · intro c hc hof hrunning
      obtain ⟨hc | hc, hold⟩ := (containers c).mp hc
      · obtain ⟨hnode, hid⟩ := honly c hc hof hrunning
        exact absurd ⟨hnode, rfl⟩ (of_decide_eq_false (hold c.id hid))
      · exact hc

lemma currentOnly_of_replaced {d : Deployment}
    (h : Effect appID (rollbackName w appID) (oldContainer w appID) w.runtime (.ok d) w')
    (hreplaced : Replaced appID w.runtime (.ok d) w') : CurrentOnly w appID := by
  obtain ⟨c0, hc0, -, hnew, -, -, hunique⟩ := hreplaced
  cases h with
  | ok free container labelled containers =>
    obtain ⟨hc | rfl, hold⟩ := (containers c0).mp hc0
    · exact absurd (w.runtime.lt_next c0 hc) (Nat.not_lt.mpr hnew)
    refine ⟨fun hnext => of_decide_eq_false (hold _ hnext) ⟨rfl, rfl⟩, fun c hc hof hrunning => ?_⟩
    by_contra hother
    have hstays : ∀ id ∈ oldContainer w appID, (ContainerRef.id id).names localNode c = false :=
      fun id hid => decide_eq_false fun hnames =>
        hother ⟨hnames.1, hnames.2 ▸ mem_def.mp hid⟩
    have hsame := hunique c ((containers c).mpr ⟨.inl hc, hstays⟩) hof hrunning
    have hlt := w.runtime.lt_next c hc
    rw [hsame] at hlt
    exact Nat.lt_irrefl _ hlt

lemma nameUnused_of_gone {e : String}
    (gone : ∀ c ∈ w'.runtime.containers, (rollbackName w appID).names localNode c = false)
    (hreplaced : Replaced appID w.runtime (.error e) w') : NameUnused w appID :=
  fun c hc hrunning => gone c (hreplaced c hc hrunning)

/-- **Every rollback replaces the running container** exactly when one that comes to its container
finds its name unused and, if it can succeed, the container that runs in the latest deployment. -/
theorem rollback_replaces_iff (w : DeployWorld) (appID : String) (targetVersion : ℕ) :
    (∀ os result w', solo steadyExec (rollback true appID targetVersion) w os = some (result, w') →
      Replaced appID w.runtime result w') ↔
    (Feasible w appID targetVersion → NameUnused w appID ∧
      (w.runtime.has localNode (rollbackName w appID) = false → CurrentOnly w appID)) := by
  have hout := outcome_rollback w appID targetVersion
  constructor
  · intro hall hfeasible
    constructor
    · by_cases hhas : w.runtime.has localNode (rollbackName w appID) = true
      case neg =>
        intro c hc _
        exact Runtime.names_of_not_has (Bool.eq_false_iff.mpr hhas) hc
      obtain ⟨os, result, w', hsolo, heffect⟩ := (may_effect hfeasible).exists_solo
      have hreplaced := hall os result w' hsolo
      cases heffect with
      | error kept gone => exact nameUnused_of_gone (gone hhas) hreplaced
      | ok free => exact absurd (free.symm.trans hhas) nofun
    · intro hfree
      obtain ⟨os, result, w', hsolo, d, rfl⟩ := (may_succeed hfeasible hfree).exists_solo
      rcases of_solo hout hsolo with ⟨⟨e, he⟩, -⟩ | ⟨-, heffect⟩
      · cases he
      · exact currentOnly_of_replaced heffect (hall os _ w' hsolo)
  · intro hcond os result w' hsolo
    rcases of_solo hout hsolo with ⟨⟨e, rfl⟩, hrt⟩ | ⟨hfeasible, heffect⟩
    · intro c hc _
      rw [hrt]
      exact hc
    · obtain ⟨hname, hcurrent⟩ := hcond hfeasible
      exact replaced_of_effect hname hcurrent heffect

def blogApp : Application := { id := "app1", tenantID := "t1", name := "blog" }

def blogVersion (id : String) (version : ℕ) (status : DeployStatus) (containerID : Option ℕ) :
    Deployment :=
  { id, appID := "app1", version, image := "blog:1", containerID, status, triggeredBy := "manual",
    strategy := "recreate" }

/-- An application whose first container runs, after its second deployment. -/
def blogWorld (status : DeployStatus) (containerID : Option ℕ) : DeployWorld where
  now := 0
  apps := ⟨[blogApp], nodup_singleton _⟩
  deployments :=
    ⟨[blogVersion "dep_1" 1 .running (some 0), blogVersion "dep_2" 2 status containerID],
      (by decide : ["dep_1", "dep_2"].Nodup)⟩
  runtime := Runtime.empty.create localNode
    (deployOpts blogApp 1 "blog:1" (rollbackLabels blogApp "app1" 1 1)) true
  events := []

theorem rollback_replaces_iff_blogWorld : Feasible (blogWorld .running (some 0)) "app1" 1 ∧
    ∀ os result w',
      solo steadyExec (rollback true "app1" 1) (blogWorld .running (some 0)) os = some (result, w') →
        Replaced "app1" (blogWorld .running (some 0)).runtime result w' := by
  refine ⟨⟨⟨blogApp, rfl⟩, blogVersion "dep_1" 1 .running (some 0), rfl, by decide⟩, ?_⟩
  refine (rollback_replaces_iff _ _ 1).mpr fun _ => ⟨?_, fun _ => ⟨by decide, ?_⟩⟩
  · unfold NameUnused
    decide +kernel
  · decide +kernel

def doneRollback : List DeployChoice :=
  [{}, {}, {}, {}, { rowID := "dep_3" }, {}, {}, {}, {}, {}, {}, {}, {}]

/-- The choices of a rollback that removes the old container and cannot record its end. -/
def lostRollback : List DeployChoice :=
  [{}, {}, {}, {}, { rowID := "dep_3" }, {}, {}, {}, {}, {}, {}, {},
    { fails := some "database is locked" }]

/-- **A rollback leaves two containers running** after a deployment that failed without one, and
returns an error with the old container gone when its end cannot be recorded. -/
theorem blogWorld_not_replaced :
    (∃ x, solo steadyExec (rollback true "app1" 1) (blogWorld .failed none) doneRollback = some x ∧
      x.1.isOk = true ∧ x.2.runtime.containers.map (fun c => (c.id, c.of "app1", c.state)) =
        [(0, true, .running), (1, true, .running)] ∧
      ¬ Replaced "app1" (blogWorld .failed none).runtime x.1 x.2) ∧
    ∃ x, solo deployExec (rollback true "app1" 1) (blogWorld .running (some 0)) lostRollback =
        some x ∧
      x.1.isOk = false ∧ x.2.runtime.containers.map Container.id = [1] ∧
      ¬ Replaced "app1" (blogWorld .running (some 0)).runtime x.1 x.2 :=
  ⟨by decide +kernel, by decide +kernel⟩

end DeployMonster.Deploy
