import DeployMonster.Handlers.DeployOutcome

/-!
# The versions of an application

`deployGitApp`, the image branch of `TriggerDeploy` and `Rollback` reserve a version by
`CreateDeploymentAtomicVersion`, one statement that inserts the row with the next version.
-/

namespace DeployMonster.Handlers

open DB Deploy Program StepMachine List Option

/-- A caller of `CreateDeploymentAtomicVersion`. -/
inductive VersionRequest
  | git (h : DeployTriggerHandler) (app : Application) (triggeredBy commitSHA : String)
  | trigger (h : DeployTriggerHandler) (frozen : Bool) (app : Application)
  | rollback (runtime : Bool) (appID : String) (targetVersion : ℕ)

inductive VersionReply
  | git (answer : Except String Unit)
  | trigger (answer : TriggerResponse)
  | rollback (answer : Except String Deployment)

def VersionRequest.prog : VersionRequest → DeployM VersionReply
  | git h app triggeredBy commitSHA => do
    let answer ← deployGitApp h app triggeredBy commitSHA
    return .git answer
  | trigger h frozen app => do
    let answer ← triggerDeploy h frozen app
    return .trigger answer
  | rollback runtime appID targetVersion => do
    let answer ← Deploy.rollback runtime appID targetVersion
    return .rollback answer

/-- The deployment that a caller answers with. -/
def VersionReply.deployment? : VersionReply → Option Deployment
  | git _ => none
  | trigger (.deployed d) => some d
  | trigger _ => none
  | rollback (.ok d) => some d
  | rollback (.error _) => none

/-- The callers, and what they were given, in the order in which the reservations took effect. -/
structure VersionState where
  pool : DeployWorld × List (DeployM VersionReply)
  given : List (ℕ × Deployment)

def reservedBy : (c : DeployCall) → DeployAnswer c → Option Deployment
  | .createDeploymentAtomicVersion _, .ok dep => some dep
  | _, _ => none

/-- The deployment that the thread is given when it performs its next call. -/
def given? (s : DeployWorld × List (DeployM VersionReply)) (a : ℕ × DeployChoice) :
    Option Deployment :=
  match s.2[a.1]? with
  | some (.call c _) => (deployExec c s.1 a.2).bind fun (r, _) => reservedBy c r
  | _ => none

def versionStep (s : VersionState) (a : ℕ × DeployChoice) : Option VersionState :=
  (poolStep deployExec s.pool a).map fun pool =>
    ⟨pool, s.given ++ (given? s.pool a).toList.map (a.1, ·)⟩

def versionKey (d : Deployment) : String × ℕ := (d.id, d.version)

/-- A caller reserves at most one row, and updates only the one that it has reserved. -/
inductive OwnMove : Option (String × ℕ) → (c : DeployCall) → DeployAnswer c →
    Option (String × ℕ) → Prop
  | other {own : Option (String × ℕ)} {c : DeployCall} {r : DeployAnswer c}
      (hc : c.writesDeployments = false) : OwnMove own c r own
  | reserve (d dep : Deployment) :
      OwnMove none (.createDeploymentAtomicVersion d) (.ok dep) (some (versionKey dep))
  | refused (d : Deployment) (e : String) :
      OwnMove none (.createDeploymentAtomicVersion d) (.error e) none
  | update {own : String × ℕ} {d : Deployment} {r : Except String Unit} (hd : versionKey d = own) :
      OwnMove (some own) (.updateDeployment d) r (some own)

variable (own : Option (String × ℕ))

/-- A caller answers with its own row. -/
def OwnReply (reply : VersionReply) : Prop :=
  ∀ d, reply.deployment? = some d → own = some (versionKey d)

lemma OwnReply.of_none {own : Option (String × ℕ)} {reply : VersionReply}
    (h : reply.deployment? = none) : OwnReply own reply := by
  intro d hd
  cases h.symm.trans hd

variable {d : Deployment} {α : Type} {app : Application} {dep : Deployment}

lemma follows_of_allCalls {p : DeployM α} (hp : AllCalls (·.writesDeployments = false) p)
    (own : Option (String × ℕ)) : Follows OwnMove (fun g _ => g = own) p own :=
  hp.follows (fun _ hc _ => .other hc) (.of_forall (fun _ => rfl) p)

lemma follows_of_quiet {p : DeployM α} (hp : AllCalls Quiet p) (own : Option (String × ℕ)) :
    Follows OwnMove (fun g _ => g = own) p own :=
  follows_of_allCalls (hp.mono fun _ hc => hc.1) own

lemma follows_cleanup (node appID : String) (keep : ℕ) (own : Option (String × ℕ)) :
    Follows OwnMove (fun g _ => g = own) (cleanupPreviousAppContainers node appID keep) own := by
  refine follows_of_allCalls ((allCalls_cleanup node appID keep).mono fun c hc => ?_) own
  cases c with
  | listByLabel | stop | remove => rfl
  | _ => exact hc.elim

variable (node : String)

lemma follows_finishGit_own (result : BuildResult) (containerID : ℕ) :
    Follows OwnMove (fun _ _ => True) (finishGit app node dep result containerID)
      (some (versionKey dep)) := by
  refine (follows_cleanup node app.id containerID _).bind ?_
  rintro _ _ rfl
  exact fun _ => ⟨_, .update (by rfl), fun _ => ⟨_, .other rfl, fun _ =>
    ⟨_, .other rfl, trivial⟩⟩⟩

variable (h : DeployTriggerHandler)

lemma ownProtocol (app : Application) : GitProtocol OwnMove (fun _ _ => True) app none
    (fun dep => some (versionKey dep)) (fun row g => g = row.map versionKey) where
  unreserved := rfl
  holds _ := rfl
  error _ _ := trivial
  quiet _ _ hc _ := .other hc.1
  update hg _ _ := hg ▸ .update rfl
  refuse d e := ⟨none, .refused d e, rfl⟩
  reserve _ dep := .reserve _ dep
  create _ result _ _ :=
    ⟨_, .other rfl, fun _ _ => rfl, fun id _ => follows_finishGit_own _ result id⟩

/-- A response with a deployment has the caller's own. -/
def OwnResponse (response : TriggerResponse) : Prop :=
  OwnReply own (.trigger response)

lemma follows_failImage : Follows OwnMove OwnResponse (failImage app) own :=
  fun _ => ⟨_, .other rfl, OwnReply.of_none rfl⟩

lemma follows_finishImage (hd : versionKey d = versionKey dep) :
    Follows OwnMove OwnResponse (finishImage app d) (some (versionKey dep)) := by
  refine fun _ => ⟨_, .other rfl, fun _ => ⟨_, .other rfl, ?_⟩⟩
  rintro _ ⟨⟩
  exact congrArg some hd.symm

lemma follows_startImage :
    Follows OwnMove OwnResponse (startImage app node dep) (some (versionKey dep)) := by
  refine (follows_of_quiet (allCalls_buildDeployLabels app dep.version) _).bind ?_
  rintro _ labels rfl
  rintro (e | _)
  · exact ⟨_, .other rfl, follows_failImage _⟩
  refine ⟨_, .other rfl, ?_⟩
  rintro (e | containerID)
  · exact ⟨_, .other rfl, follows_failImage _⟩
  refine ⟨_, .other rfl, fun _ => ⟨_, .update (by rfl), ?_⟩⟩
  refine (follows_cleanup node app.id containerID _).bind ?_
  rintro _ _ rfl
  exact follows_finishImage rfl

lemma follows_placeImage :
    Follows OwnMove OwnResponse (placeImage h app dep) (some (versionKey dep)) := by
  refine (follows_of_quiet (allCalls_deployRuntimeForApp h app) _).bind ?_
  rintro _ (e | node) rfl
  · dsimp only
    split
    · exact follows_failImage _
    · exact follows_finishImage rfl
  · exact follows_startImage node

lemma follows_triggerDeploy (frozen : Bool) (app : Application) :
    Follows OwnMove OwnResponse (triggerDeploy h frozen app) none := by
  unfold triggerDeploy
  split
  · exact OwnReply.of_none rfl
  split
  · refine fun _ => ⟨_, .other rfl, ?_⟩
    rintro (e | dep)
    · exact ⟨_, .refused _ e, OwnReply.of_none rfl⟩
    · exact ⟨_, .reserve _ dep, follows_placeImage h⟩
  · exact OwnReply.of_none rfl

/-! ### A rollback -/

/-- A rollback that succeeds answers with the caller's own row. -/
def OwnRollback (answer : Except String Deployment) : Prop :=
  OwnReply own (.rollback answer)

lemma follows_finishRollback {runtime : Bool} {appID : String} {oldContainerID : Option ℕ}
    (hd : versionKey d = versionKey dep) :
    Follows OwnMove OwnRollback (finishRollback runtime app appID d oldContainerID)
      (some (versionKey dep)) := by
  have hrecord : Follows OwnMove OwnRollback (recordRollback app appID d) (some (versionKey dep)) := by
    refine fun finished => ⟨_, .other rfl, ?_⟩
    rintro (e | _)
    · exact ⟨_, .update (by exact hd), OwnReply.of_none rfl⟩
    refine ⟨_, .update (by exact hd), fun _ => ⟨_, .other rfl, fun _ => ⟨_, .other rfl, ?_⟩⟩⟩
    rintro _ ⟨⟩
    exact congrArg some hd.symm
  cases runtime with
  | false => exact hrecord
  | true =>
    cases oldContainerID with
    | none => exact hrecord
    | some id => exact fun _ => ⟨_, .other rfl, fun _ => ⟨_, .other rfl, hrecord⟩⟩

lemma follows_failRollback {appID : String} {status : AppStatus}
    (hd : versionKey d = versionKey dep) :
    Follows OwnMove (fun g _ => g = some (versionKey dep)) (failRollback app appID d status)
      (some (versionKey dep)) :=
  fun _ => ⟨_, .other rfl, fun _ => ⟨_, .update (by exact hd), fun _ => ⟨_, .other rfl, rfl⟩⟩⟩

lemma follows_startRollback (runtime : Bool) (appID : String) (targetVersion : ℕ)
    (oldContainerID : Option ℕ) :
    Follows OwnMove OwnRollback
      (startRollback runtime app appID dep targetVersion oldContainerID)
      (some (versionKey dep)) := by
  refine fun _ => ⟨_, .other rfl, fun answer => ⟨_, .other rfl, ?_⟩⟩
  cases runtime with
  | false =>
    show Follows OwnMove OwnRollback (finishRollback false app appID dep oldContainerID) _
    exact follows_finishRollback rfl
  | true =>
    rintro (e | newContainerID)
    · refine ⟨_, .other rfl, (follows_failRollback rfl).bind ?_⟩
      rintro _ _ rfl
      exact fun _ => ⟨_, .other rfl, fun _ => ⟨_, .other rfl, OwnReply.of_none rfl⟩⟩
    refine ⟨_, .other rfl, (follows_of_allCalls (allCalls_healthCheck rfl) _).bind ?_⟩
    rintro _ healthy rfl
    cases healthy with
    | true =>
      show Follows OwnMove OwnRollback (finishRollback true app appID
        { dep with containerID := some newContainerID } oldContainerID) _
      exact follows_finishRollback rfl
    | false =>
      refine fun _ => ⟨_, .other rfl, fun _ => ⟨_, .other rfl, ?_⟩⟩
      refine (follows_failRollback rfl).bind ?_
      rintro _ _ rfl
      exact OwnReply.of_none rfl

lemma follows_rollback (runtime : Bool) (appID : String) (targetVersion : ℕ) :
    Follows OwnMove OwnRollback (Deploy.rollback runtime appID targetVersion) none := by
  rintro (e | deployments)
  · exact ⟨_, .other rfl, OwnReply.of_none rfl⟩
  refine ⟨_, .other rfl, ?_⟩
  dsimp only [Prog.bind]
  split
  · exact OwnReply.of_none rfl
  split
  · exact OwnReply.of_none rfl
  rintro (e | app)
  · exact ⟨_, .other rfl, OwnReply.of_none rfl⟩
  refine ⟨_, .other rfl, fun _ => ⟨_, .other rfl, fun now => ⟨_, .other rfl, ?_⟩⟩⟩
  rintro (e | dep)
  · exact ⟨_, .refused _ e, OwnReply.of_none rfl⟩
  · exact ⟨_, .reserve _ dep, follows_startRollback runtime appID _ _⟩

/-- **Every caller keeps to its own row.** -/
theorem follows_request (request : VersionRequest) : Follows OwnMove OwnReply request.prog none := by
  cases request with
  | git h app triggeredBy commitSHA =>
    exact ((ownProtocol app).follows_deployGitApp h triggeredBy commitSHA).bind fun _ _ _ => OwnReply.of_none rfl
  | trigger h frozen app => exact (follows_triggerDeploy h frozen app).bind fun _ _ hreply => hreply
  | rollback runtime appID targetVersion =>
    exact (follows_rollback runtime appID targetVersion).bind fun _ _ hreply => hreply

def appRows (t : DeploymentTable) (appID : String) : List Deployment := t.rows.filter (·.appID = appID)

def Numbered (t : DeploymentTable) (appID : String) : Prop :=
  (appRows t appID).map Deployment.version = range' 1 (appRows t appID).length
  deriving Decidable

variable {t t' : DeploymentTable} {appID : String}

lemma foldr_max_range' (n m : ℕ) : (range' 1 n).foldr max m = max n m := by
  induction n generalizing m with
  | zero => simp
  | succ n ih =>
    rw [range'_concat, foldr_append, foldr_cons, foldr_nil, ih]
    omega

lemma maxVersion_of_numbered (h : Numbered t appID) :
    maxVersion t.rows appID = (appRows t appID).length := by
  rw [maxVersion, ← appRows, h, foldr_max_range', Nat.max_zero]

lemma appRows_updateDeployment (t : DeploymentTable) (d : Deployment) (appID : String) :
    (appRows (updateDeployment t d) appID).map versionKey = (appRows t appID).map versionKey := by
  let f : Deployment → Deployment := fun r => if r.id = d.id then d.write r else r
  have happ : ∀ r, (f r).appID = r.appID := fun r => by
    show (if r.id = d.id then d.write r else r).appID = _
    split <;> rfl
  have hkey : ∀ r, versionKey (f r) = versionKey r := fun r => by
    show versionKey (if r.id = d.id then d.write r else r) = _
    split <;> rfl
  show ((t.rows.map f).filter (·.appID = appID)).map versionKey = _
  rw [List.filter_map, List.map_map]
  have hfilter : ((fun r : Deployment => decide (r.appID = appID)) ∘ f) =
      fun r => decide (r.appID = appID) := funext fun r => by simp [happ]
  rw [hfilter]
  exact map_congr_left fun r _ => hkey r

lemma appRows_reserve {id : String} {now : ℤ} (ht : t'.rows = t.rows ++ [versioned t d id now])
    (appID : String) :
    appRows t' appID =
      appRows t appID ++ if d.appID = appID then [versioned t d id now] else [] := by
  rw [appRows, ht, filter_append]
  by_cases happ : d.appID = appID
  · rw [if_pos happ, filter_singleton]
    simp [versioned, happ, appRows]
  · rw [if_neg happ, filter_singleton]
    simp [versioned, happ, appRows]

lemma numbered_iff_keys : Numbered t appID ↔ ((appRows t appID).map versionKey).map Prod.snd =
      List.range' 1 ((appRows t appID).map versionKey).length := by
  rw [Numbered, List.map_map, length_map]
  rfl

/-! ## All interleavings -/

def givenOf (appID : String) (given : List (ℕ × Deployment)) : List (String × ℕ) :=
  (given.filter (·.2.appID = appID)).map fun x => versionKey x.2

lemma givenOf_snoc (appID : String) (given : List (ℕ × Deployment)) (i : ℕ) (d : Deployment) :
    givenOf appID (given ++ [(i, d)]) =
      givenOf appID given ++ if d.appID = appID then [versionKey d] else [] := by
  rw [givenOf, filter_append, map_append, filter_singleton, givenOf]
  by_cases happ : d.appID = appID <;> simp [happ]

/-- What the callers were given is what has become of the table since the start. -/
structure Ordered (t0 : DeploymentTable) (appID : String) (t : DeploymentTable)
    (given : List (ℕ × Deployment)) : Prop where
  numbered : Numbered t appID
  keys : (appRows t appID).map versionKey = (appRows t0 appID).map versionKey ++ givenOf appID given

variable {own own' : Option (String × ℕ)}
  {t0 : DeploymentTable} {w w' : DeployWorld} {o : DeployChoice}
  {given : List (ℕ × Deployment)}

lemma Ordered.of_keys (h : Ordered t0 appID t given)
    (hkeys : (appRows t' appID).map versionKey = (appRows t appID).map versionKey) :
    Ordered t0 appID t' given := by
  refine ⟨numbered_iff_keys.mpr ?_, hkeys.trans h.keys⟩
  rw [hkeys]
  exact numbered_iff_keys.mp h.numbered

variable {i : ℕ}

lemma Ordered.reserve {now : ℤ} (h : Ordered t0 appID t given)
    {id : String} (ht : t'.rows = t.rows ++ [versioned t d id now]) :
    Ordered t0 appID t' (given ++ [(i, returned t d id)]) := by
  have hrows := appRows_reserve ht appID
  by_cases happ : d.appID = appID
  · rw [if_pos happ] at hrows
    constructor
    · have hversion : (versioned t d id now).version = 1 + (appRows t appID).length := by
        show maxVersion t.rows d.appID + 1 = _
        rw [happ, maxVersion_of_numbered h.numbered, Nat.add_comm]
      rw [Numbered, hrows, map_append, h.numbered, length_append, length_singleton,
        range'_concat, map_singleton, hversion, Nat.one_mul]
    · rw [hrows, map_append, h.keys, append_assoc, givenOf_snoc,
        if_pos (show (returned t d id).appID = appID from happ)]
      rfl
  · rw [if_neg happ, append_nil] at hrows
    refine ⟨by rw [Numbered, hrows]; exact h.numbered, ?_⟩
    rw [hrows, h.keys, givenOf_snoc, if_neg (show (returned t d id).appID ≠ appID from happ),
      append_nil]

variable {c : DeployCall} {r : DeployAnswer c}

/-- **A call of a caller keeps the order.** -/
theorem Ordered.step (h : Ordered t0 appID w.deployments given) (hmove : OwnMove own c r own')
    (hexec : deployExec c w o = some (r, w')) :
    Ordered t0 appID w'.deployments (given ++ (reservedBy c r).toList.map (i, ·)) := by
  cases hmove with
  | other hc =>
    have hnone : reservedBy c r = none := by
      cases c with
      | createDeploymentAtomicVersion => cases hc
      | _ => rfl
    rw [hnone, toList_none, map_nil, append_nil, (framed_of_deployExec hexec).deployments hc]
    exact h
  | refused d e =>
    rcases reserve_of_deployExec hexec with ⟨_, -, hsame⟩ | ⟨hok, -⟩
    · rw [hsame]
      simpa [reservedBy] using h
    · cases hok
  | reserve d dep =>
    rcases reserve_of_deployExec hexec with ⟨_, herr, -⟩ | ⟨hok, -, hrows⟩
    · cases herr
    · cases hok
      exact h.reserve hrows
  | update hd =>
    show Ordered t0 appID w'.deployments (given ++ [])
    rw [append_nil]
    rcases update_of_deployExec hexec with hsame | hupdate
    · exact hsame ▸ h
    · rw [hupdate]
      exact h.of_keys (appRows_updateDeployment _ _ appID)

/-- Each caller was given what its stage says. -/
def Owned (given : List (ℕ × Deployment)) (stages : List (Option (String × ℕ))) : Prop :=
  ∀ i, (given.filter (·.1 = i)).map (fun x => versionKey x.2) = (stages[i]?.getD none).toList

lemma OwnMove.toList_eq (h : OwnMove own c r own') :
    own'.toList = own.toList ++ (reservedBy c r).toList.map versionKey := by
  cases h with
  | other hc =>
    cases c with
    | createDeploymentAtomicVersion => cases hc
    | _ => exact (append_nil _).symm
  | reserve => rfl
  | refused => rfl
  | update => rfl

lemma Owned.step {given : List (ℕ × Deployment)} {stages : List (Option (String × ℕ))} (h : Owned given stages) (hown : stages[i]? = some own)
    (hmove : OwnMove own c r own') :
    Owned (given ++ (reservedBy c r).toList.map (i, ·)) (stages.set i own') := by
  intro j
  rw [filter_append, map_append, h j]
  by_cases hij : i = j
  · subst hij
    rw [Pool.getElem?_set_self hown, hown, getD_some, getD_some, hmove.toList_eq]
    cases reservedBy c r <;> simp
  · rw [getElem?_set_ne hij]
    cases reservedBy c r <;> simp [hij]

/-- The callers keep to the protocol, each with its own row, and the rows of the application are in
order. -/
structure VersionInv (t0 : DeploymentTable) (appID : String) (s : VersionState) : Prop where
  ordered : Ordered t0 appID s.pool.1.deployments s.given
  owned : ∃ stages, Tracks OwnMove OwnReply s.pool.2 stages ∧ Owned s.given stages

lemma versionInv_step {s s' : VersionState}
    {a : ℕ × DeployChoice} (h : VersionInv t0 appID s) (hstep : versionStep s a = some s') :
    VersionInv t0 appID s' := by
  obtain ⟨hordered, stages, htracks, howned⟩ := h
  obtain ⟨pool, hpool, rfl⟩ := map_eq_some_iff.mp hstep
  obtain ⟨c, k, r, own, own', hi, hown, hexec, hmove, -, htracks'⟩ := htracks.step hpool
  have hgiven : given? s.pool a = reservedBy c r := by
    simp only [given?, hi, hexec, bind_some]
  rw [hgiven]
  exact ⟨hordered.step hmove hexec, _, htracks', howned.step hown hmove⟩

/-- **The versions of an application are consecutive, in the order of the reservations.** However
deployments and rollbacks are interleaved, the rows are those of the start, followed by those that
the callers were given, in the order of the reservations; they are numbered 1, 2, 3, …; no caller
was given two, and one that answers with a deployment answers with its own row. -/
theorem versions_consecutive (requests : List VersionRequest) (w : DeployWorld) (appID : String)
    (as : List (ℕ × DeployChoice)) (s : VersionState) (hw : Numbered w.deployments appID)
    (hrun : run versionStep ⟨(w, requests.map VersionRequest.prog), []⟩ as = some s) :
    ((appRows s.pool.1.deployments appID).map Deployment.version).Nodup ∧
    (appRows s.pool.1.deployments appID).map Deployment.version =
      range' 1 (appRows s.pool.1.deployments appID).length ∧
    (appRows s.pool.1.deployments appID).map versionKey =
      (appRows w.deployments appID).map versionKey ++ givenOf appID s.given ∧
    (∀ i, (s.given.filter (·.1 = i)).length ≤ 1) ∧
    ∀ i reply d, s.pool.2[i]? = some (.ret reply) → reply.deployment? = some d →
      ∃ d', (i, d') ∈ s.given ∧ versionKey d' = versionKey d := by
  have hinv : VersionInv w.deployments appID s := by
    refine invariant_of_run (fun _ _ _ h hstep => versionInv_step h hstep) ?_ hrun
    refine ⟨⟨hw, (append_nil _).symm⟩, _, tracks_replicate (g := none) ?_, ?_⟩
    · exact forall_mem_map.mpr fun request _ => follows_request request
    · intro i
      cases hi : (replicate _ none)[i]? with
      | none => rfl
      | some own =>
        obtain rfl := eq_of_mem_replicate (mem_of_getElem? hi)
        rfl
  obtain ⟨⟨hnumbered, hkeys⟩, stages, htracks, howned⟩ := hinv
  refine ⟨?_, hnumbered, hkeys, ?_, ?_⟩
  · rw [hnumbered]
    exact nodup_range'
  · intro i
    have hlength := congrArg length (howned i)
    rw [length_map] at hlength
    exact hlength.trans_le length_toList_le
  intro i reply d hreply hd
  obtain ⟨own, hown⟩ := htracks.exists_stage hreply
  have hgiven := howned i
  rw [hown, htracks.follows i _ _ hreply hown d hd, getD_some, toList_some] at hgiven
  have hmem : versionKey d ∈ (s.given.filter (·.1 = i)).map fun x => versionKey x.2 :=
    hgiven ▸ mem_singleton_self _
  obtain ⟨⟨i', d'⟩, hx, hkey⟩ := mem_map.mp hmem
  obtain ⟨hgave, hi⟩ := mem_filter.mp hx
  obtain rfl : i' = i := of_decide_eq_true hi
  exact ⟨d', hgave, hkey⟩

def threeCallers : List VersionRequest :=
  [.git ⟨true, false⟩ (webApp .git) "manual" "", .git ⟨true, false⟩ (webApp .git) "webhook" "abc",
    .rollback true "web" 1]

/-- The rollback reserves its version while the second deployment builds. -/
def rollbackBetween : List (ℕ × DeployChoice) :=
  [(0, {}), (0, { build := ⟨"web:abc", "abc"⟩ }), (0, {}), (0, { rowID := "d1" }),
    (1, {}), (1, { build := ⟨"web:def", "def"⟩ }),
    (2, {}), (2, {}), (2, {}), (2, {}), (2, { rowID := "d2" }), (1, {}), (1, { rowID := "d3" })]

theorem versions_consecutive_rollbackBetween :
    ∃ s, run versionStep ⟨(newWorld (webApp .git), threeCallers.map VersionRequest.prog), []⟩
        rollbackBetween = some s ∧
      s.given.map (fun x => (x.1, versionKey x.2)) = [(0, "d1", 1), (2, "d2", 2), (1, "d3", 3)] ∧
      (appRows s.pool.1.deployments "web").map versionKey = givenOf "web" s.given := by
  refine exists_of_run_and (by decide +kernel) fun s hrun _ => ?_
  have hversions := versions_consecutive _ _ "web" _ s (by decide) hrun
  exact hversions.2.2.1

end DeployMonster.Handlers
