import DeployMonster.Deploy.Rollback

/-!
# The sweeps at the start

`reclaimStaleDeployments` and `cleanOrphanContainers` of `internal/deploy/module.go`, which the deploy
module runs when it starts: the rows of deployments that a crash has left in flight are marked
`failed`, and the containers of deleted applications are removed.

## Main results

* `reclaim_keeps_iff`: when the sweep of the rows keeps the build logs, and marks just the
  applications whose latest row it reclaims.
-/

namespace DeployMonster.Deploy

open Handlers Program DB List Option Table

/-! ## The reclaim sweep -/

def statusText : DeployStatus → String
  | .pending => "pending"
  | .building => "building"
  | .deploying => "deploying"
  | .running => "running"
  | .failed => "failed"

variable (finished : ℤ)

/-- The note in the build log of a row that the sweep reclaims. -/
def reclaimNote (stale : DeployStatus) : String :=
  "[reclaimed on startup after crash — previous status: " ++ statusText stale ++ "]"

/-- What the sweep makes of a row that it finds; `finished` is the time. -/
def reclaimedRow (stale : DeployStatus) (d : Deployment) : Deployment :=
  let reason := reclaimNote stale
  { d with
    status := .failed
    finishedAt := some finished
    buildLog := if d.buildLog = "" then reason else d.buildLog ++ "\n" ++ reason }

def reclaimedApp (a : Application) : Application :=
  { a with status := .failed, updatedAt := Clock.unix finished }

/-- The body of the loop: the row, then its application. -/
def reclaimRow (stale : DeployStatus) (w : DeployWorld) (d : Deployment) : DeployWorld :=
  let w := { w with deployments := updateDeployment w.deployments (reclaimedRow finished stale d) }
  match getApp w.apps d.appID with
  | none => w
  | some app => { w with apps := updateAppStatus w.apps d.appID .failed app.tenantID finished }

def reclaimStatus (w : DeployWorld) (stale : DeployStatus) : DeployWorld :=
  (listDeploymentsByStatus w.deployments stale).foldl (reclaimRow finished stale) w

def reclaimStaleDeployments (w : DeployWorld) : DeployWorld :=
  [DeployStatus.deploying, .building].foldl (reclaimStatus finished) w

def reclaimed (t : DeploymentTable) : List Deployment :=
  listDeploymentsByStatus t .deploying ++ listDeploymentsByStatus t .building

variable {finished : ℤ} {stale status : DeployStatus} {w : DeployWorld} {d row : Deployment}

lemma reclaimRow_deployments : (reclaimRow finished stale w d).deployments =
    updateDeployment w.deployments (reclaimedRow finished stale d) := by
  unfold reclaimRow
  dsimp only
  split <;> rfl

variable (id : String)

lemma getApp_reclaimRow : getApp (reclaimRow finished stale w d).apps id =
    (getApp w.apps id).map fun a =>
      if d.appID = id then reclaimedApp finished a else a := by
  unfold reclaimRow
  dsimp only
  split
  case h_1 hnone =>
    rcases eq_or_ne d.appID id with rfl | hne
    · rw [hnone]
      rfl
    · simp [if_neg hne]
  case h_2 app happ =>
    rw [getApp_updateAppStatus]
    rcases eq_or_ne d.appID id with rfl | hne
    · rw [happ]
      simp [Application.setStatus, reclaimedApp]
    · simp [if_neg hne, if_neg hne.symm]

lemma filter_reclaimRow (hstatus : status ≠ .failed)
    (hd : ∀ r ∈ w.deployments.rows, r.id = d.id → r.status ≠ status) :
    (reclaimRow finished stale w d).deployments.rows.filter (·.status = status) =
      w.deployments.rows.filter (·.status = status) := by
  rw [reclaimRow_deployments]
  refine filter_rows_update fun r hr hid => ⟨?_, ?_⟩
  · simpa using hd r hr hid
  · exact decide_eq_false hstatus.symm

variable {ds : List Deployment}

lemma mem_foldl_reclaimRow (hrow : row ∈ w.deployments.rows) (hds : ∀ d ∈ ds, row.id ≠ d.id) :
    row ∈ (ds.foldl (reclaimRow finished stale) w).deployments.rows := by
  refine foldlRecOn (motive := fun (w : DeployWorld) => row ∈ w.deployments.rows) ds _ hrow ?_
  intro w hrow d hd
  rw [reclaimRow_deployments]
  exact mem_update.mpr (.inl ⟨hrow, hds d hd⟩)

lemma getApp_foldl_reclaimRow :
    getApp (ds.foldl (reclaimRow finished stale) w).apps id =
      (getApp w.apps id).map fun a =>
        if ∃ d ∈ ds, d.appID = id then reclaimedApp finished a else a := by
  induction ds generalizing w with
  | nil => simp
  | cons d ds ih =>
    rw [foldl_cons, ih, getApp_reclaimRow, Option.map_map]
    refine map_congr fun a _ => ?_
    by_cases hd : d.appID = id <;> by_cases hds : ∃ d ∈ ds, d.appID = id <;> simp [hd, hds, reclaimedApp]

lemma filter_foldl_reclaimRow (hstatus : status ≠ .failed)
    (hds : ∀ d ∈ ds, ∀ r ∈ w.deployments.rows, r.id = d.id → r.status ≠ status) :
    (ds.foldl (reclaimRow finished stale) w).deployments.rows.filter (·.status = status) =
      w.deployments.rows.filter (·.status = status) := by
  induction ds generalizing w with
  | nil => rfl
  | cons d ds ih =>
    have hd := hds d (mem_cons_self ..)
    rw [foldl_cons, ih, filter_reclaimRow hstatus hd]
    intro d' hd' r hr hid
    rw [reclaimRow_deployments] at hr
    rcases mem_update.mp hr with ⟨hr, -⟩ | ⟨old, -, -, rfl⟩
    · exact hds d' (mem_cons_of_mem _ hd') r hr hid
    · exact hstatus.symm

variable {t : DeploymentTable}

lemma exists_of_mem_listDeploymentsByStatus (hd : d ∈ listDeploymentsByStatus t status) :
    ∃ row ∈ t.rows, row.status = status ∧ d = row.selected := by
  obtain ⟨row, hrow, rfl⟩ := mem_map.mp hd
  obtain ⟨hmem, hstatus⟩ := mem_of_mem_newest hrow
  exact ⟨row, hmem, by simpa using hstatus, rfl⟩

lemma status_of_mem_listDeploymentsByStatus (hd : d ∈ listDeploymentsByStatus t status)
    (hrow : row ∈ t.rows) (hid : row.id = d.id) : row.status = status := by
  obtain ⟨row', hrow', hstatus, rfl⟩ := exists_of_mem_listDeploymentsByStatus hd
  rw [eq_of_key_eq hrow hrow' hid, hstatus]

lemma listDeploymentsByStatus_reclaimStatus :
    listDeploymentsByStatus (reclaimStatus finished w .deploying).deployments .building =
      listDeploymentsByStatus w.deployments .building := by
  unfold listDeploymentsByStatus newest
  rw [reclaimStatus, filter_foldl_reclaimRow (by decide)]
  intro d hd r hr hid
  rw [status_of_mem_listDeploymentsByStatus hd hr hid]
  decide

/-- **A row that is not in flight stays as it is.** -/
theorem mem_reclaimStaleDeployments (hrow : row ∈ w.deployments.rows)
    (hstatus : row.status.inFlight = false) :
    row ∈ (reclaimStaleDeployments finished w).deployments.rows := by
  have hstep : ∀ {w} {stale}, row ∈ w.deployments.rows →
      stale.inFlight = true → row ∈ (reclaimStatus finished w stale).deployments.rows := by
    intro w stale hrow hstale
    refine mem_foldl_reclaimRow hrow fun d hd hid => ?_
    rw [status_of_mem_listDeploymentsByStatus hd hrow hid, hstale] at hstatus
    cases hstatus
  exact hstep (hstep hrow rfl) rfl

/-- **The application of every row that the sweep finds is marked `failed`**, and no other one. -/
theorem getApp_reclaimStaleDeployments :
    getApp (reclaimStaleDeployments finished w).apps id =
      (getApp w.apps id).map fun a =>
        if ∃ d ∈ reclaimed w.deployments, d.appID = id then reclaimedApp finished a else a := by
  show getApp (reclaimStatus finished (reclaimStatus finished w .deploying) .building).apps id = _
  rw [reclaimStatus, getApp_foldl_reclaimRow, listDeploymentsByStatus_reclaimStatus, reclaimStatus,
    getApp_foldl_reclaimRow, Option.map_map]
  refine map_congr fun a _ => ?_
  simp only [reclaimed, mem_append, or_and_right, exists_or, Function.comp_apply]
  by_cases hd : ∃ d ∈ listDeploymentsByStatus w.deployments .deploying, d.appID = id <;>
    by_cases hb : ∃ d ∈ listDeploymentsByStatus w.deployments .building, d.appID = id <;>
    simp [hd, hb, reclaimedApp]

/-- The latest row of the application is one that the sweep finds. -/
def LatestReclaimed (t : DeploymentTable) (appID : String) : Prop :=
  ∃ row ∈ t.rows, row.appID = appID ∧ row.selected ∈ reclaimed t ∧
    ∀ r ∈ t.rows, r.appID = appID → r.version ≤ row.version
  deriving Decidable

lemma exists_reclaimStatus {id : String} (h : ∃ row ∈ w.deployments.rows, row.id = id) :
    ∃ row ∈ (reclaimStatus finished w stale).deployments.rows, row.id = id := by
  refine foldlRecOn (motive := fun (w : DeployWorld) => ∃ row ∈ w.deployments.rows,
    row.id = id) _ _ h ?_
  rintro w ⟨row, hrow, rfl⟩ d -
  rw [reclaimRow_deployments]
  by_cases hid : row.id = d.id
  · exact ⟨_, mem_update.mpr (.inr ⟨row, hrow, hid, rfl⟩), rfl⟩
  · exact ⟨row, mem_update.mpr (.inl ⟨hrow, hid⟩), rfl⟩

lemma log_foldl_reclaimRow (hds : ∀ d ∈ ds, d.buildLog = "")
    (hrow : row ∈ (ds.foldl (reclaimRow finished stale) w).deployments.rows) :
    row ∈ w.deployments.rows ∧ (∀ d ∈ ds, row.id ≠ d.id) ∨
      row.buildLog = reclaimNote stale ∧ ∃ d ∈ ds, row.id = d.id := by
  induction ds generalizing w with
  | nil => exact .inl ⟨hrow, by simp⟩
  | cons d ds ih =>
    obtain ⟨hd, hds⟩ := forall_mem_cons.mp hds
    rcases ih hds hrow with ⟨hrow, hne⟩ | ⟨hlog, d', hd', hid⟩
    · rw [reclaimRow_deployments] at hrow
      rcases mem_update.mp hrow with ⟨hrow, hid⟩ | ⟨old, -, hid, rfl⟩
      · exact .inl ⟨hrow, forall_mem_cons.mpr ⟨hid, hne⟩⟩
      · exact .inr ⟨if_pos hd, d, mem_cons_self, hid⟩
    · exact .inr ⟨hlog, d', mem_cons_of_mem _ hd', hid⟩

lemma log_reclaimStatus (hrow : row ∈ (reclaimStatus finished w stale).deployments.rows) :
    row ∈ w.deployments.rows ∧ (∀ d ∈ listDeploymentsByStatus w.deployments stale, row.id ≠ d.id) ∨
      row.buildLog = reclaimNote stale ∧
        ∃ d ∈ listDeploymentsByStatus w.deployments stale, row.id = d.id := by
  refine log_foldl_reclaimRow (fun d hd => ?_) hrow
  obtain ⟨row, -, -, rfl⟩ := exists_of_mem_listDeploymentsByStatus hd
  rfl

/-- The build log of a reclaimed row is the note alone: the listing does not load the log. -/
lemma log_reclaimStaleDeployments {row' : Deployment} (hrow : row ∈ w.deployments.rows)
    (hfound : row.selected ∈ reclaimed w.deployments)
    (hrow' : row' ∈ (reclaimStaleDeployments finished w).deployments.rows) (hid : row'.id = row.id) :
    row'.buildLog = reclaimNote row.status := by
  have hstatus {status : DeployStatus} {d : Deployment}
      (hd : d ∈ listDeploymentsByStatus w.deployments status) (hid' : row'.id = d.id) :
      row.status = status :=
    status_of_mem_listDeploymentsByStatus hd hrow (hid.symm.trans hid')
  have hbuilding : listDeploymentsByStatus (reclaimStatus finished w .deploying).deployments .building =
      listDeploymentsByStatus w.deployments .building := listDeploymentsByStatus_reclaimStatus
  rcases log_reclaimStatus hrow' with ⟨hfirst, hne⟩ | ⟨hlog, d, hd, hid'⟩
  · rw [hbuilding] at hne
    rcases log_reclaimStatus hfirst with ⟨-, hne'⟩ | ⟨hlog, d, hd, hid'⟩
    · rcases mem_append.mp hfound with hd | hd
      · exact absurd hid (hne' row.selected hd)
      · exact absurd hid (hne row.selected hd)
    · rw [hlog, hstatus hd hid']
  · rw [hbuilding] at hd
    rw [hlog, hstatus hd hid']

/-- The build logs of the reclaimed rows begin as before, the rows that are not in flight are as
before, and just the applications whose latest row is reclaimed are marked `failed`. -/
structure SweepKeeps (finished : ℤ) (w : DeployWorld) : Prop where
  logs : ∀ row ∈ w.deployments.rows, row.selected ∈ reclaimed w.deployments →
    ∃ row' ∈ (reclaimStaleDeployments finished w).deployments.rows,
      row'.id = row.id ∧ row.buildLog.toList <+: row'.buildLog.toList
  others : ∀ row ∈ w.deployments.rows, row.status.inFlight = false →
    row ∈ (reclaimStaleDeployments finished w).deployments.rows
  apps : ∀ id, getApp (reclaimStaleDeployments finished w).apps id = (getApp w.apps id).map fun a =>
    if LatestReclaimed w.deployments id then reclaimedApp finished a else a

/-- **The reclaim sweep** keeps what it should exactly when each row that it finds has a build log that
the note begins with, as an empty one, and each application of such a row, if there is one, has its
latest row among them or looks as if it had been marked. -/
theorem reclaim_keeps_iff (finished : ℤ) (w : DeployWorld) :
    SweepKeeps finished w ↔
      (∀ row ∈ w.deployments.rows, row.selected ∈ reclaimed w.deployments →
        row.buildLog.toList <+: (reclaimNote row.status).toList) ∧
      ∀ d ∈ reclaimed w.deployments, ∀ a, getApp w.apps d.appID = some a →
        LatestReclaimed w.deployments d.appID ∨ reclaimedApp finished a = a := by
  constructor
  · intro h
    refine ⟨fun row hrow hfound => ?_, fun d hd a ha => ?_⟩
    · obtain ⟨row', hrow', hid, hlog⟩ := h.logs row hrow hfound
      rwa [log_reclaimStaleDeployments hrow hfound hrow' hid] at hlog
    · have happ := h.apps d.appID
      rw [getApp_reclaimStaleDeployments, ha, map_some, map_some, some.injEq,
        if_pos ⟨d, hd, rfl⟩] at happ
      split_ifs at happ with hlatest
      · exact .inl hlatest
      · exact .inr happ
  · rintro ⟨hlog, hlatest⟩
    refine ⟨fun row hrow hfound => ?_, fun row => mem_reclaimStaleDeployments, fun id => ?_⟩
    · obtain ⟨row', hrow', hid⟩ :=
        exists_reclaimStatus (exists_reclaimStatus ⟨row, hrow, rfl⟩)
      refine ⟨row', hrow', hid, ?_⟩
      rw [log_reclaimStaleDeployments hrow hfound hrow' hid]
      exact hlog row hrow hfound
    · rw [getApp_reclaimStaleDeployments]
      refine map_congr fun a ha => ?_
      by_cases hfound : ∃ d ∈ reclaimed w.deployments, d.appID = id
      · obtain ⟨d, hd, rfl⟩ := hfound
        rw [if_pos ⟨d, hd, rfl⟩]
        rcases hlatest d hd a ha with h | h
        · rw [if_pos h]
        · rw [h, ite_self]
      · have hnot : ¬LatestReclaimed w.deployments id := by
          rintro ⟨row, -, happ, hrow, -⟩
          exact hfound ⟨_, hrow, happ⟩
        rw [if_neg hfound, if_neg hnot]

/-- A first deployment that was building when the master stopped, and perhaps a second one. -/
def stopped (buildLog : String) (later : List DeployStatus) : DeployWorld where
  now := 0
  apps := ⟨[{ id := "web", tenantID := "t1", name := "web", status := .running }], by decide⟩
  deployments := empty.put
    { id := "d1", appID := "web", version := 1, image := "web:1", status := .building, buildLog,
      triggeredBy := "api", strategy := "recreate" } |> later.foldl fun t status => t.put
    { id := "d2", appID := "web", version := 2, image := "web:2", status,
      triggeredBy := "api", strategy := "recreate" }
  runtime := .empty
  events := []

/-- The build log is replaced, and the application of a running deployment is marked `failed`. -/
theorem reclaim_replaces_log :
    (reclaimStaleDeployments 5 (stopped "cloned" [.running])).deployments.rows.map
        (fun d => (d.version, d.status, d.buildLog)) =
      [(1, .failed, "[reclaimed on startup after crash — previous status: building]"),
        (2, .running, "")] ∧
    (getApp (reclaimStaleDeployments 5 (stopped "cloned" [.running])).apps "web").map
      (·.status) = some .failed ∧
    ¬ LatestReclaimed (stopped "cloned" [.running]).deployments "web" := by
  decide +kernel

/-! ## The sweep of orphan containers

`cleanOrphanContainers` of `internal/deploy/module.go`. It lists the containers by the label
`monster.managed`, which no deployment and no rollback sets.
-/

/-- What `GetApp` answers. -/
inductive AppLookup
  | found | notFound
  | failed (error : String)
  deriving DecidableEq

variable (lookup : String → AppLookup) (rt : Runtime)

/-- The body of the loop: every error of the lookup is taken for an application that is gone. -/
def sweepContainer (rt : Runtime) (c : Container) : Runtime :=
  if c.appID = "" then rt
  else if lookup c.appID = .found then rt
  else rt.remove localNode (.id c.id)

def cleanOrphanContainers : Runtime :=
  (rt.listByLabel localNode "monster.managed" "true").foldl (sweepContainer lookup) rt

/-- The container has the labels of a deployment, or of a rollback. -/
def Created (c : Container) : Prop :=
  ∃ app version domains,
    c.labels = deployLabels app version ++ routingLabels app 0 domains ∨
    ∃ target, c.labels = rollbackLabels app app.id version target ++ routingLabels app 0 domains

variable {lookup rt} {c : Container}

lemma managed_ne (s t u : String) (h : ¬ s.toList <+: "monster.managed".toList) :
    ("monster.managed" == s ++ t ++ u) = false :=
  beq_false_of_ne fun heq =>
    h ⟨(t ++ u).toList, by rw [← String.toList_append, ← String.append_assoc, ← heq]⟩

lemma lookup_routingLabels (app : Application) (i : ℕ) (domains : List String) :
    (routingLabels app i domains).lookup "monster.managed" = none := by
  induction domains generalizing i with
  | nil => rfl
  | cons fqdn domains ih =>
    rw [routingLabels, lookup_cons, managed_ne "monster.http.routers." _ _ (by decide +kernel),
      lookup_cons, managed_ne "monster.http.services." _ _ (by decide +kernel), ih]

lemma Created.not_managed (h : Created c) : c.labelled "monster.managed" "true" = false := by
  obtain ⟨app, version, domains, hlabels | ⟨target, hlabels⟩⟩ := h <;>
    simp [Container.labelled, hlabels, lookup_routingLabels, deployLabels, rollbackLabels,
      lookup]

/-- A container that is not listed survives the sweep. -/
lemma mem_foldl_sweepContainer {cs : List Container} (hc : c ∈ rt.containers)
    (hnot : ∀ c' ∈ cs, c'.id ≠ c.id) : c ∈ (cs.foldl (sweepContainer lookup) rt).containers := by
  induction cs generalizing rt with
  | nil => exact hc
  | cons c' cs ih =>
    refine ih ?_ fun x hx => hnot x (mem_cons_of_mem _ hx)
    unfold sweepContainer
    split_ifs
    · exact hc
    · exact hc
    · refine Runtime.mem_remove.mpr ⟨hc, ?_⟩
      simp [ContainerRef.names, (hnot c' mem_cons_self).symm]

lemma Created.mem_cleanOrphanContainers (h : Created c) (hc : c ∈ rt.containers) :
    c ∈ (cleanOrphanContainers lookup rt).containers := by
  refine mem_foldl_sweepContainer hc fun c' hc' hid => ?_
  obtain ⟨hmem, -, hlabelled⟩ := Runtime.mem_listByLabel.mp hc'
  obtain rfl := rt.table.eq_of_key_eq hmem hc hid
  rw [h.not_managed] at hlabelled
  cases hlabelled

/-- **The sweep does what it is for exactly when no application is gone**: it leaves every container
of a deployment or a rollback. -/
theorem orphans_removed_iff (lookup : String → AppLookup) (rt : Runtime) :
    (∀ c ∈ rt.containers, Created c →
      (lookup c.appID ≠ .notFound → c ∈ (cleanOrphanContainers lookup rt).containers) ∧
      (lookup c.appID = .notFound → c ∉ (cleanOrphanContainers lookup rt).containers)) ↔
    ∀ c ∈ rt.containers, Created c → lookup c.appID ≠ .notFound := by
  constructor
  · intro h c hc hcreated hgone
    exact (h c hc hcreated).2 hgone (hcreated.mem_cleanOrphanContainers hc)
  · intro h c hc hcreated
    exact ⟨fun _ => hcreated.mem_cleanOrphanContainers hc,
      fun hgone => absurd hgone (h c hc hcreated)⟩

def blogOpts : ContainerOpts :=
  let app := { id := "app1", tenantID := "t1", name := "blog" }
  deployOpts app 1 "nginx" (deployLabels app 1)

/-- The application is gone, and its container stays. -/
theorem orphan_kept : ∃ c ∈ (Runtime.empty.create localNode blogOpts true).containers, Created c ∧
    c ∈ (cleanOrphanContainers (fun _ => .notFound)
      (Runtime.empty.create localNode blogOpts true)).containers := by
  have hcreated : Created (Runtime.empty.fresh localNode blogOpts true) :=
    ⟨_, 1, [], .inl (append_nil _).symm⟩
  have hmem := Runtime.mem_create.mpr (.inr (Eq.refl (Runtime.empty.fresh localNode blogOpts true)))
  exact ⟨_, hmem, hcreated, hcreated.mem_cleanOrphanContainers hmem⟩

end DeployMonster.Deploy
