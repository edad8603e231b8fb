import DeployMonster.Deploy.Convergence
import DeployMonster.Handlers.DeployOutcome

/-!
# Concurrent deployments of one application

Nothing keeps two deployments of one application apart: the reservation gives each a version of its
own, but each removes every container of the application except its own.
-/

namespace DeployMonster.Handlers

open DB Deploy CleanupStage Program StepMachine List Pool Runtime

structure GitRequest where
  app : Application
  (triggeredBy commitSHA : String)

variable (h : DeployTriggerHandler)

def GitRequest.prog (q : GitRequest) : DeployM (Except String Unit) :=
  deployGitApp h q.app q.triggeredBy q.commitSHA

/-! ## The protocol -/

/-- Calls that change neither containers nor versions. -/
def Idle (c : DeployCall) : Prop :=
  c.writesRuntime = false ∧ (c.writesDeployments = false ∨ ∃ d, c = .updateDeployment d)

variable {c : DeployCall}

lemma idle_of_quiet (hc : Quiet c) : Idle c := ⟨hc.2, .inl hc.1⟩

def CleanupStage.cleansUp : CleanupStage → Bool
  | .created _ _ | .cleaning _ _ (_ :: _) _ => true
  | _ => false

/-- What a git deployment does, one call at a time: the call, its answer, and the stages before and
after. -/
inductive GitMove (node appID : String) :
    CleanupStage → (c : DeployCall) → DeployAnswer c → CleanupStage → Prop
  | idle {g : CleanupStage} {c : DeployCall} {r : DeployAnswer c} (hc : Idle c)
      (hg : CleanupStage.cleansUp g = false) : GitMove node appID g c r g
  | reserve {d dep : Deployment} (hd : d.appID = appID) :
      GitMove node appID .before (.createDeploymentAtomicVersion d) (.ok dep) (.reserved dep.version)
  | unreserved {d : Deployment} {e : String} :
      GitMove node appID .before (.createDeploymentAtomicVersion d) (.error e) .failed
  | create {v id : ℕ} {opts : ContainerOpts}
      (happ : opts.labels.lookup "monster.app.id" = some appID)
      (hversion : opts.labels.lookup "monster.deploy.version" = some (toString v)) :
      GitMove node appID (.reserved v) (.createAndStart node opts) (.ok id) (.created v id)
  | uncreated {v : ℕ} {opts : ContainerOpts} {e : String} :
      GitMove node appID (.reserved v) (.createAndStart node opts) (.error e) .failed
  | list {v id : ℕ} {cs : List Container} :
      GitMove node appID (.created v id) (.listByLabel node "monster.app.id" appID) (.ok cs)
        (.cleaning v id ((cs.map Container.id).filter (· ≠ id)) false)
  | unlisted {v id : ℕ} {e : String} :
      GitMove node appID (.created v id) (.listByLabel node "monster.app.id" appID) (.error e)
        (.cleaning v id [] false)
  | stop {v id x : ℕ} {todo : List ℕ} {r : Except String Unit} :
      GitMove node appID (.cleaning v id (x :: todo) false) (.stop node (.id x)) r
        (.cleaning v id (x :: todo) true)
  | remove {v id x : ℕ} {todo : List ℕ} {r : Except String Unit} :
      GitMove node appID (.cleaning v id (x :: todo) true) (.remove node (.id x)) r
        (.cleaning v id todo false)

/-- A deployment does not return in the middle of its clean-up, and one that has succeeded is at the
end of it. -/
def GitDone (g : CleanupStage) (r : Except String Unit) : Prop :=
  CleanupStage.cleansUp g = false ∧ (r = .ok () → ∃ v id, g = .cleaning v id [] false)

section

variable {node appID : String} {app : Application}

lemma follows_removeContainers (v id : ℕ) (cs : List Container) :
    Follows (GitMove node appID) (fun g _ => g = .cleaning v id [] false)
      (removeContainers node id cs)
      (.cleaning v id ((cs.map Container.id).filter (· ≠ id)) false) := by
  induction cs with
  | nil => rfl
  | cons c cs ih =>
    rw [removeContainers, map_cons, filter_cons]
    by_cases hne : c.id ≠ id
    · rw [if_pos hne, if_pos (decide_eq_true hne)]
      exact fun _ => ⟨_, .stop, fun _ => ⟨_, .remove, ih⟩⟩
    · rw [if_neg hne, if_neg fun h => hne (of_decide_eq_true h)]
      exact ih

lemma follows_finishGit (dep : Deployment) (result : BuildResult) (v id : ℕ) :
    Follows (GitMove node app.id) GitDone (finishGit app node dep result id) (.created v id) := by
  have hcleanup : Follows (GitMove node app.id) (fun g _ => g = .cleaning v id [] false)
      (cleanupPreviousAppContainers node app.id id) (.created v id) := by
    rintro (e | cs)
    · exact ⟨_, .unlisted, rfl⟩
    · exact ⟨_, .list, follows_removeContainers v id cs⟩
  refine hcleanup.bind fun g _ hg => ?_
  obtain rfl := hg
  exact fun _ => ⟨_, .idle ⟨rfl, .inr ⟨_, rfl⟩⟩ rfl, fun _ => ⟨_, .idle ⟨rfl, .inl rfl⟩ rfl,
    fun _ => ⟨_, .idle ⟨rfl, .inl rfl⟩ rfl, rfl, fun _ => ⟨v, id, rfl⟩⟩⟩⟩

lemma gitProtocol (app : Application) : GitProtocol (GitMove (appNode app) app.id) GitDone app .before
    (fun dep => .reserved dep.version) (fun _ g => CleanupStage.cleansUp g = false) where
  unreserved := rfl
  holds _ := rfl
  error hg _ := ⟨hg, by rintro ⟨⟩⟩
  quiet hg _ hc _ := .idle (idle_of_quiet hc) hg
  update hg _ _ := .idle ⟨rfl, .inr ⟨_, rfl⟩⟩ hg
  refuse _ _ := ⟨_, .unreserved, rfl⟩
  reserve hd _ := .reserve hd
  create dep result labels r := by
    cases r with
    | error => exact ⟨_, .uncreated, fun _ _ => rfl, by rintro _ ⟨⟩⟩
    | ok id =>
      refine ⟨_, .create rfl rfl, by rintro _ ⟨⟩, ?_⟩
      rintro _ ⟨⟩
      exact follows_finishGit dep result dep.version id

end

def dooms {α : Type} (c : Container) : DeployM α → Bool
  | .call (.listByLabel node _ _) k => (k (.ok [c])).next? = some (.stop node (.id c.id))
  | _ => false

def Container.ofVersion (version : ℕ) (c : Container) : Bool :=
  c.labelled "monster.deploy.version" (toString version)

def DeployCall.listsOrRemoves : DeployCall → Bool
  | .listByLabel _ _ _ | .remove _ _ => true
  | _ => false

/-- A clean-up does not fail, and lists the containers only while the container of the highest
version, if it was created since `base`, is its own or is not there. -/
def SparesNewest (appID : String) (base : ℕ) (s : DeployWorld × List (DeployM (Except String Unit)))
    (a : ℕ × DeployChoice) : Prop :=
  ∀ p ∈ s.2[a.1]?,
    (p.next?.any DeployCall.listsOrRemoves = true → a.2.fails = none) ∧
      ∀ c ∈ s.1.runtime.containers, base ≤ c.id → Container.of appID c = true →
        Container.ofVersion (maxVersion s.1.deployments.rows appID) c = true → dooms c p = false
  deriving Decidable

instance (c : DeployCall) : Inhabited (DeployAnswer c) := by
  cases c with
  | now => exact ⟨(0 : ℤ)⟩
  | publish | sleep => exact ⟨()⟩
  | _ => exact ⟨.error ""⟩

variable {node appID : String} {v id : ℕ}

lemma dooms_of_follows {c : Container}
    {k : DeployAnswer (.listByLabel node "monster.app.id" appID) → DeployM (Except String Unit)}
    (hfollows : Follows (GitMove node appID) GitDone
      (.call (.listByLabel node "monster.app.id" appID) k) (.created v id))
    (hne : c.id ≠ id) : dooms c (.call (.listByLabel node "monster.app.id" appID) k) = true := by
  obtain ⟨g, hmove, hk⟩ := hfollows (.ok [c])
  have hg : g = .cleaning v id [c.id] false := by
    cases hmove with
    | idle _ hg => cases hg
    | list => simp [hne]
  subst hg
  refine decide_eq_true ?_
  cases hp : k (.ok [c]) with
  | ret r =>
    rw [hp] at hk
    cases hk.1
  | call c' k' =>
    rw [hp] at hk
    obtain ⟨_, hmove, -⟩ := hk default
    cases hmove with
    | idle _ hg => cases hg
    | stop => rfl

/-! ## The invariant -/

def live (appID : String) (rt : Runtime) : Set ℕ :=
  {x | ∃ c ∈ rt.containers, Container.of appID c = true ∧ c.id = x}

variable {x : ℕ} {opts : ContainerOpts}

section

variable {appID node : String} {rt : Runtime}

lemma live_lt (hx : x ∈ live appID rt) : x < rt.next := by
  obtain ⟨c, hc, -, rfl⟩ := hx
  exact rt.lt_next c hc

lemma live_create (happ : opts.labels.lookup "monster.app.id" = some appID) (started : Bool) :
    live appID (rt.create node opts started) = insert rt.next (live appID rt) := by
  ext x
  constructor
  · rintro ⟨c, hc, hof, rfl⟩
    rcases mem_create.mp hc with hc | rfl
    · exact .inr ⟨c, hc, hof, rfl⟩
    · exact .inl rfl
  · rintro (rfl | ⟨c, hc, hof, rfl⟩)
    · exact ⟨_, mem_create.mpr (.inr rfl), decide_eq_true happ, rfl⟩
    · exact ⟨c, mem_create.mpr (.inl hc), hof, rfl⟩

lemma live_stop (ref : ContainerRef) : live appID (rt.stop node ref) = live appID rt := by
  ext x
  constructor
  · rintro ⟨c, hc, hof, rfl⟩
    obtain ⟨c', hc', rfl⟩ := mem_stop.mp hc
    have hsame := same_stopped node ref c'
    exact ⟨c', hc', (hsame.labelled _ _).trans hof, hsame.id⟩
  · rintro ⟨c, hc, hof, rfl⟩
    have hsame := same_stopped node ref c
    exact ⟨_, mem_stop.mpr ⟨c, hc, rfl⟩, (hsame.labelled _ _).symm.trans hof, hsame.id.symm⟩

variable (hnode : ∀ c ∈ rt.containers, Container.of appID c = true → c.node = node)
include hnode

lemma live_remove (x : ℕ) : live appID (rt.remove node (.id x)) = live appID rt \ {x} := by
  ext y
  constructor
  · rintro ⟨c, hc, hof, rfl⟩
    obtain ⟨hc, hnames⟩ := mem_remove.mp hc
    refine ⟨⟨c, hc, hof, rfl⟩, fun hid => ?_⟩
    exact absurd ⟨hnode c hc hof, hid⟩ (of_decide_eq_false hnames)
  · rintro ⟨⟨c, hc, hof, rfl⟩, hne⟩
    refine ⟨c, mem_remove.mpr ⟨hc, ?_⟩, hof, rfl⟩
    exact decide_eq_false fun hnames => hne hnames.2

lemma live_of_not_has
    (hhas : rt.has node (.id x) = false) : live appID rt = live appID rt \ {x} := by
  refine (Set.sdiff_singleton_eq_self ?_).symm
  rintro ⟨c, hc, hof, rfl⟩
  refine absurd hhas (Bool.ne_false_iff.mpr (any_eq_true.mpr ⟨c, hc, ?_⟩))
  exact decide_eq_true ⟨hnode c hc hof, rfl⟩

end

/-- The containers of the application are on its node, those that deployments have created since
`base` carry their versions, and the clean-ups converge. -/
structure Racing (node appID : String) (base : ℕ) (w : DeployWorld) (stages : List CleanupStage) :
    Prop where
  node : ∀ c ∈ w.runtime.containers, Container.of appID c = true → c.node = node
  base_le : base ≤ w.runtime.next
  labelled : ∀ g ∈ stages, ∀ v x, g.Holds v x → base ≤ x ∧
    ∀ c ∈ w.runtime.containers, c.id = x → Container.ofVersion v c = true
  converging : Converging (live appID w.runtime) w.runtime.next
    (maxVersion w.deployments.rows appID) stages

variable {r : DeployAnswer c}

section

variable {node appID : String} {base i : ℕ} {w t : DeployWorld} {stages : List CleanupStage}
  {o : DeployChoice} {g g' : CleanupStage}

lemma Racing.of_shrinks (hs : Racing node appID base w stages) (hi : stages[i]? = some g)
    (hshrinks : w.runtime.Shrinks t.runtime) (hg' : ∀ v x, g'.Holds v x → g.Holds v x)
    (hconv : Converging (live appID t.runtime) w.runtime.next
      (maxVersion t.deployments.rows appID) (stages.set i g')) :
    Racing node appID base t (stages.set i g') := by
  have hlabelled : ∀ q ∈ stages, ∀ v x, q.Holds v x → base ≤ x ∧
      ∀ c ∈ t.runtime.containers, c.id = x → Container.ofVersion v c = true := by
    intro q hq v x hx
    refine (hs.labelled q hq v x hx).imp_right fun hold c hc hid => ?_
    obtain ⟨c', hc', hsame⟩ := hshrinks.same c hc
    exact (hsame.labelled _ _).symm.trans (hold c' hc' (hsame.id.trans hid))
  constructor
  case node =>
    intro c hc hof
    obtain ⟨c', hc', hsame⟩ := hshrinks.same c hc
    exact hsame.node ▸ hs.node c' hc' ((hsame.labelled _ _).trans hof)
  case base_le => exact hshrinks.next ▸ hs.base_le
  case labelled =>
    exact forall_set hlabelled fun v x hx =>
      hlabelled g (mem_of_getElem? hi) v x (hg' v x hx)
  case converging =>
    rw [hshrinks.next]
    exact hconv

lemma maxVersion_of_idle (hc : Idle c) (h : deployExec c w o = some (r, t)) (appID : String) :
    maxVersion t.deployments.rows appID = maxVersion w.deployments.rows appID := by
  rcases hc.2 with hc | ⟨d, rfl⟩
  · rw [(framed_of_deployExec h).deployments hc]
  · rcases answer_eq_some h with ⟨-, -, -, rfl⟩ | ⟨-, -, rfl⟩
    · rfl
    · exact maxVersion_updateDeployment w.deployments d appID

variable (hs : Racing node appID base w stages)
include hs

lemma Racing.idle (hi : stages[i]? = some g) (hc : Idle c)
    (h : deployExec c w o = some (r, t)) : Racing node appID base t (stages.set i g) := by
  have hrt : t.runtime = w.runtime := (framed_of_deployExec h).runtime hc.1
  rw [set_self hi]
  constructor
  case node => exact hrt ▸ hs.node
  case base_le => exact hrt ▸ hs.base_le
  case labelled => exact hrt ▸ hs.labelled
  case converging =>
    rw [hrt, maxVersion_of_idle hc h]
    exact hs.converging

lemma Racing.reserve (hi : stages[i]? = some .before) {d dep : Deployment} (hd : d.appID = appID)
    (h : deployExec (.createDeploymentAtomicVersion d) w o = some (.ok dep, t)) :
    Racing node appID base t (stages.set i (.reserved dep.version)) := by
  have hrt : t.runtime = w.runtime := (framed_of_deployExec h).runtime rfl
  obtain ⟨hdep, hmax⟩ : dep.version = maxVersion w.deployments.rows appID + 1 ∧
      maxVersion t.deployments.rows appID = maxVersion w.deployments.rows appID + 1 := by
    rcases reserve_of_deployExec h with ⟨e, he, -⟩ | ⟨hdep, -, hrows⟩
    · cases he
    cases hdep
    subst hd
    refine ⟨rfl, ?_⟩
    have happ : (versioned w.deployments d o.rowID (w.now + o.elapsed)).appID = d.appID := rfl
    rw [hrows, maxVersion_append, maxVersion_singleton, if_pos happ]
    exact Nat.max_eq_right (Nat.le_succ _)
  refine hs.of_shrinks hi (shrinks_of_deployExec rfl h) nofun ?_
  rw [hrt, hmax, hdep]
  exact hs.converging.reserve hi

lemma Racing.create (hi : stages[i]? = some (.reserved v))
    (happ : opts.labels.lookup "monster.app.id" = some appID)
    (hversion : opts.labels.lookup "monster.deploy.version" = some (toString v))
    (h : deployExec (.createAndStart node opts) w o = some (.ok id, t)) :
    Racing node appID base t (stages.set i (.created v id)) := by
  have hdep : t.deployments = w.deployments := (framed_of_deployExec h).deployments rfl
  obtain ⟨rfl, hrt⟩ : id = w.runtime.next ∧ t.runtime = w.runtime.create node opts true := by
    rcases create_of_deployExec h with ⟨hid, hrt⟩ | ⟨e, he, -⟩
    · exact ⟨Except.ok.inj hid, hrt⟩
    · cases he
  constructor
  case node =>
    rw [hrt]
    intro c hc hof
    rcases mem_create.mp hc with hc | rfl
    · exact hs.node c hc hof
    · rfl
  case base_le =>
    rw [hrt]
    exact Nat.le_succ_of_le hs.base_le
  case labelled =>
    rw [hrt]
    refine forall_set (fun q hq v' x hx => ?_) fun v' x hx => ?_
    · refine (hs.labelled q hq v' x hx).imp_right fun hold c hc hid => ?_
      rcases mem_create.mp hc with hc | rfl
      · exact hold c hc hid
      · obtain rfl : w.runtime.next = x := hid
        exact absurd (hs.converging.container_lt q hq _ hx.2) (Nat.lt_irrefl _)
    · obtain rfl : v = v' := Option.some.inj hx.1
      obtain rfl : w.runtime.next = x := Option.some.inj hx.2
      refine ⟨hs.base_le, fun c hc hid => ?_⟩
      rcases mem_create.mp hc with hc | rfl
      · exact absurd (w.runtime.lt_next c hc) (hid ▸ Nat.lt_irrefl _)
      · exact decide_eq_true hversion
  case converging =>
    rw [hrt, hdep, live_create happ]
    exact hs.converging.create hi

lemma Racing.list (hi : stages[i]? = some (.created v id)) {cs : List Container}
    (h : deployExec (.listByLabel node "monster.app.id" appID) w o = some (.ok cs, t))
    (hguard : ∀ c ∈ w.runtime.containers, base ≤ c.id → Container.of appID c = true →
      Container.ofVersion (maxVersion w.deployments.rows appID) c = true → c.id = id) :
    Racing node appID base t
      (stages.set i (.cleaning v id ((cs.map Container.id).filter (· ≠ id)) false)) := by
  have hrt : t.runtime = w.runtime := (framed_of_deployExec h).runtime rfl
  have hdep : t.deployments = w.deployments := (framed_of_deployExec h).deployments rfl
  have hcs : cs = w.runtime.listByLabel node "monster.app.id" appID := by
    rcases answer_eq_some h with ⟨e, -, he, -⟩ | ⟨-, hcs, -⟩
    · cases he
    · exact Except.ok.inj hcs
  have hsnapshot : ∀ y, y ∈ (cs.map Container.id).filter (· ≠ id) ↔
      y ∈ live appID w.runtime ∧ y ≠ id := by
    intro y
    rw [mem_filter, decide_eq_true_iff, mem_map, hcs]
    refine and_congr_left fun _ => exists_congr fun c => ?_
    rw [mem_listByLabel]
    constructor
    · rintro ⟨⟨hc, -, hof⟩, hid⟩
      exact ⟨hc, hof, hid⟩
    · rintro ⟨hc, hof, hid⟩
      exact ⟨⟨hc, hs.node c hc hof, hof⟩, hid⟩
  have hown : ∀ q ∈ stages, ∀ y, q.Holds (maxVersion w.deployments.rows appID) y → y = id := by
    intro q hq y hy
    obtain ⟨c, hc, hof, rfl⟩ := hs.converging.present q hq y hy
    obtain ⟨hbase, hversion⟩ := hs.labelled q hq _ _ hy
    exact hguard c hc hbase hof (hversion c hc rfl)
  refine hs.of_shrinks hi (shrinks_of_deployExec rfl h) (fun _ _ hx => hx) ?_
  rw [hrt, hdep]
  exact hs.converging.list hi hsnapshot hown

lemma Racing.stop {todo : List ℕ} (hi : stages[i]? = some (.cleaning v id (x :: todo) false))
    {r : Except String Unit} (h : deployExec (.stop node (.id x)) w o = some (r, t)) :
    Racing node appID base t (stages.set i (.cleaning v id (x :: todo) true)) := by
  have hdep : t.deployments = w.deployments := (framed_of_deployExec h).deployments rfl
  refine hs.of_shrinks hi (shrinks_of_deployExec rfl h) (fun _ _ hx => hx) ?_
  have hlive : live appID t.runtime = live appID w.runtime := by
    rcases stop_of_deployExec h with hrt | hrt
    · rw [hrt]
    · rw [hrt, live_stop]
  rw [hlive, hdep]
  exact hs.converging.stop hi

lemma Racing.remove {todo : List ℕ}
    (hi : stages[i]? = some (.cleaning v id (x :: todo) true)) {r : Except String Unit}
    (hfails : o.fails = none) (h : deployExec (.remove node (.id x)) w o = some (r, t)) :
    Racing node appID base t (stages.set i (.cleaning v id todo false)) := by
  have hdep : t.deployments = w.deployments := (framed_of_deployExec h).deployments rfl
  refine hs.of_shrinks hi (shrinks_of_deployExec rfl h) (fun _ _ hx => hx) ?_
  have hlive : live appID t.runtime = live appID w.runtime \ {x} := by
    simp only [deployExec] at h
    split at h
    case isTrue =>
      rcases answer_eq_some h with ⟨e, he, -⟩ | ⟨-, -, rfl⟩
      · rw [hfails] at he
        cases he
      · exact live_remove hs.node x
    case isFalse hhas =>
      obtain ⟨-, rfl⟩ := answer_inj h
      exact live_of_not_has hs.node (Bool.eq_false_iff.mpr hhas)
  rw [hlive, hdep]
  exact hs.converging.remove hi

end

def OnTheWay (node appID : String) (base : ℕ) (w : DeployWorld) (stages : List CleanupStage) : Prop :=
  .failed ∈ stages ∨ Racing node appID base w stages

lemma failed_of_move {g g' : CleanupStage} {stages : List CleanupStage} {i : ℕ}
    (hi : stages[i]? = some g) (hmove : GitMove node appID g c r g') (hfailed : .failed ∈ stages) :
    .failed ∈ stages.set i g' := by
  by_cases hg : CleanupStage.failed = g
  · subst hg
    cases hmove with
    | idle => rwa [set_self hi]
  · exact mem_set_of_ne hi hfailed hg g'

/-- **Every call of a deployment keeps the invariant, when it spares the newest container.** -/
theorem racing_step {base : ℕ} {t : DeployWorld}
    {s : DeployWorld × List (DeployM (Except String Unit))} {a : ℕ × DeployChoice}
    {stages : List CleanupStage} {k : DeployAnswer c → DeployM (Except String Unit)}
    {g g' : CleanupStage} (hs : OnTheWay node appID base s.1 stages)
    (hguard : SparesNewest appID base s a) (hp : s.2[a.1]? = some (.call c k))
    (hi : stages[a.1]? = some g) (hfollows : Follows (GitMove node appID) GitDone (.call c k) g)
    (h : deployExec c s.1 a.2 = some (r, t)) (hmove : GitMove node appID g c r g') :
    OnTheWay node appID base t (stages.set a.1 g') := by
  rcases hs with hfailed | hs
  · exact .inl (failed_of_move hi hmove hfailed)
  obtain ⟨hfails, hspares⟩ := hguard _ hp
  have hmem : ∀ q, q ∈ stages.set a.1 q := fun q =>
    mem_of_getElem? (getElem?_set_self hi q)
  cases hmove with
  | idle hc => exact .inr (hs.idle hi hc h)
  | reserve hd => exact .inr (hs.reserve hi hd h)
  | unreserved | uncreated => exact .inl (hmem _)
  | create happ hversion => exact .inr (hs.create hi happ hversion h)
  | list =>
    refine .inr (hs.list hi h fun c hc hbase hof hversion => ?_)
    by_contra hne
    have hdooms := hspares c hc hbase hof hversion
    rw [dooms_of_follows hfollows hne] at hdooms
    cases hdooms
  | unlisted =>
    rcases answer_eq_some h with ⟨e, he, -⟩ | ⟨-, hr, -⟩
    · rw [hfails rfl] at he
      cases he
    · cases hr
  | stop => exact .inr (hs.stop hi h)
  | remove => exact .inr (hs.remove hi (hfails rfl) h)

/-! ## What a run leaves -/

/-- One container of the application is there, and it is the one of the highest version, created
since `base`. -/
def Converged (appID : String) (base : ℕ) (s : DeployWorld) : Prop :=
  ∃ c, s.runtime.containers.filter (Container.of appID) = [c] ∧ base ≤ c.id ∧
    Container.ofVersion (maxVersion s.deployments.rows appID) c = true

lemma Racing.converged {base : ℕ} {w : DeployWorld} {stages : List CleanupStage}
    (hs : Racing node appID base w stages) (hne : stages ≠ [])
    (hdone : ∀ g ∈ stages, ∃ v x, g = .cleaning v x [] false) : Converged appID base w := by
  obtain ⟨x, hmem, hlive⟩ := hs.converging.live_eq hne hdone
  obtain ⟨c, hc, hof, hid⟩ : x ∈ live appID w.runtime := hlive ▸ Set.mem_singleton x
  obtain ⟨hbase, hversion⟩ := hs.labelled _ hmem _ x ⟨rfl, rfl⟩
  refine ⟨c, ?_, hid ▸ hbase, hversion c hc hid⟩
  have hall : ∀ c' ∈ w.runtime.containers.filter (Container.of appID), c' = c := by
    intro c' hc'
    obtain ⟨hc', hof'⟩ := mem_filter.mp hc'
    have hid' : c'.id ∈ live appID w.runtime := ⟨c', hc', hof', rfl⟩
    rw [hlive] at hid'
    exact eq_of_id_eq hc' hc (hid'.trans hid.symm)
  have hnodup : (w.runtime.containers.filter (Container.of appID)).Nodup :=
    (List.Nodup.of_map _ w.runtime.table.nodup).filter _
  have hreplicate := eq_replicate_of_mem hall
  have hpos : 0 < (w.runtime.containers.filter (Container.of appID)).length :=
    length_pos_of_mem (mem_filter.mpr ⟨hc, hof⟩)
  have hle : (w.runtime.containers.filter (Container.of appID)).length ≤ 1 := by
    rw [hreplicate] at hnodup
    exact nodup_replicate.mp hnodup
  rw [hreplicate, show (w.runtime.containers.filter (Container.of appID)).length = 1 by omega]
  rfl

/-- **Git deployments of an application that all succeed leave one container of it, that of the
highest version**, when no clean-up fails, or lists the containers while that one is there and not
its own; the application's containers are on the node to which it is deployed. -/
theorem gitDeploys_converge (h : DeployTriggerHandler) (requests : List GitRequest)
    (node appID : String) (w : DeployWorld) (s : DeployWorld × List (DeployM (Except String Unit)))
    (as : List (ℕ × DeployChoice)) (hne : requests ≠ [])
    (happ : ∀ q ∈ requests, q.app.id = appID ∧ appNode q.app = node)
    (hprior : ∀ c ∈ w.runtime.containers, Container.of appID c = true → c.node = node)
    (hguard : Along (poolStep deployExec) (SparesNewest appID w.runtime.next)
      (w, requests.map (GitRequest.prog h)) as)
    (hrun : run (poolStep deployExec) (w, requests.map (GitRequest.prog h)) as = some s)
    (hdone : ∀ p ∈ s.2, p.result? = some (.ok ())) : Converged appID w.runtime.next s.1 := by
  have hfollows : ∀ p ∈ requests.map (GitRequest.prog h),
      Follows (GitMove node appID) GitDone p .before := by
    refine forall_mem_map.mpr fun q hq => ?_
    obtain ⟨rfl, rfl⟩ := happ q hq
    exact (gitProtocol q.app).follows_deployGitApp h q.triggeredBy q.commitSHA
  have hstart : OnTheWay node appID w.runtime.next w
      (replicate (requests.map (GitRequest.prog h)).length .before) := by
    refine .inr ⟨hprior, le_rfl, ?_, Converging.start (fun _ => live_lt) _ _⟩
    intro g hg v x hx
    rw [eq_of_mem_replicate hg] at hx
    cases hx.1
  obtain ⟨stages, htracks, hend⟩ := Tracks.of_along (I := OnTheWay node appID w.runtime.next)
    (fun _ _ _ _ _ _ _ _ _ hs hguard hp hi hfollows hexec hmove =>
      racing_step hs hguard hp hi hfollows hexec hmove)
    (tracks_replicate hfollows) hstart hguard hrun
  have hended : ∀ g ∈ stages, ∃ v x, g = .cleaning v x [] false := by
    intro g hg
    obtain ⟨i, hi⟩ := getElem?_of_mem hg
    have hlt : i < s.2.length := htracks.length ▸ (List.getElem?_eq_some_iff.mp hi).1
    have hp : s.2[i]? = some s.2[i] := getElem?_eq_getElem hlt
    have hret := Prog.result?_eq_some (hdone _ (mem_of_getElem? hp))
    rw [hret] at hp
    exact (htracks.follows i _ g hp hi).2 rfl
  have hstages : stages ≠ [] := by
    rw [← length_pos_iff, htracks.length, length_of_run hrun, length_map]
    exact length_pos_iff.mpr hne
  rcases hend with hfailed | hs
  · obtain ⟨v, x, hfailed⟩ := hended _ hfailed
    cases hfailed
  · exact hs.converged hstages hended

def twoDeploys : DeployWorld × List (DeployM (Except String Unit)) :=
  (newWorld (webApp .git),
    [⟨webApp .git, "manual", ""⟩, ⟨webApp .git, "webhook", "abc"⟩].map
      (GitRequest.prog ⟨true, false⟩))

def gitCalls (i : ℕ) (rowID : String) : List (ℕ × DeployChoice) :=
  [(i, {}), (i, { build := ⟨"web:abc", "abc"⟩ }), (i, {}), (i, { rowID }), (i, {}), (i, {}), (i, {}),
    (i, {})]

def moreCalls (i n : ℕ) : List (ℕ × DeployChoice) := replicate n (i, ({} : DeployChoice))

/-- Both deployments have reserved their versions before the first one creates its container; the
second one creates its own after the first one has cleaned up. -/
def deploysInTurn : List (ℕ × DeployChoice) :=
  (gitCalls 0 "d1").take 4 ++ (gitCalls 1 "d2").take 4 ++
    (gitCalls 0 "d1").drop 4 ++ moreCalls 0 3 ++ (gitCalls 1 "d2").drop 4 ++ moreCalls 1 5

def deploysTogether : List (ℕ × DeployChoice) :=
  (gitCalls 0 "d1").take 7 ++ gitCalls 1 "d2" ++ moreCalls 0 6 ++ moreCalls 1 5

theorem gitDeploys_converge_deploysInTurn :
    ∃ s, run (poolStep deployExec) twoDeploys deploysInTurn = some s ∧
      (∀ p ∈ s.2, p.result? = some (.ok ())) ∧ Converged "web" 0 s.1 := by
  refine exists_of_run_and (by decide +kernel) fun s hrun hdone => ?_
  exact gitDeploys_converge ⟨true, false⟩ _ "local" "web" (newWorld (webApp .git)) s deploysInTurn
    (cons_ne_nil _ _) (by simp [webApp, appNode, isRemoteApp, localNode]) nofun
    (by decide +kernel) hrun hdone

/-- **Two deployments leave the application without a container**: each has created its own before
either lists them, and removes the other's; no call fails. -/
theorem gitDeploys_remove_each_other :
    ∃ s, run (poolStep deployExec) twoDeploys deploysTogether = some s ∧
      (∀ p ∈ s.2, p.result? = some (.ok ())) ∧ (∀ a ∈ deploysTogether, a.2.fails = none) ∧
      maxVersion s.1.deployments.rows "web" = 2 ∧ s.1.runtime.containers = [] :=
  by decide +kernel

end DeployMonster.Handlers
