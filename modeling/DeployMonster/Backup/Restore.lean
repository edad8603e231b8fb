import DeployMonster.Backup.Retention

/-!
# Restoring a backup

`RestoreBackup` of `internal/backup/module.go`. The archive was made from the list query, which
selects neither the Dockerfile nor the environment variables nor the labels.
-/

namespace DeployMonster.Backup

open DB Clock Program StepMachine List Option Table

def statusText : BackupStatus → String
  | .pending => "pending"
  | .completed => "completed"
  | .failed => "failed"

/-- The backup whose archive is restored: for an incremental one, the last in the list of the full
ones before it. -/
def targetBackup (backups : List Backup) (backup : Backup) : Option Backup :=
  if backup.backupType = some .incremental then
    (backups.filter fun b => b.sourceID = backup.sourceID ∧ b.backupType = some .full ∧
      b.createdAt < backup.createdAt).getLast?
  else some backup

/-- The fields of the archive, copied onto an application. -/
def restored (existing archivedApp : Application) (now : ℤ) : Application :=
  { existing with
    type := archivedApp.type, sourceURL := archivedApp.sourceURL, branch := archivedApp.branch,
    dockerfile := archivedApp.dockerfile, buildPack := archivedApp.buildPack,
    envVarsEnc := archivedApp.envVarsEnc, labelsJSON := archivedApp.labelsJSON,
    replicas := archivedApp.replicas, port := archivedApp.port, updatedAt := unix now }

def existingApp (apps : List Application) (name tenantID : String) : Option Application :=
  apps.find? fun a => a.name = name ∧ a.tenantID = tenantID

/-- `RestoreBackup`, when the application is gone. -/
def recreateApp (archivedApp : Application) (tenantID : String) : BackupM (Except String Unit) := do
  let id ← call .generateID
  let now ← call .now
  match ← call (.createApp { archivedApp with id, tenantID, createdAt := unix now }) with
  | .error e => return .error ("recreate app from backup: " ++ e)
  | .ok () => return .ok ()

/-- `RestoreBackup`, when the application is there. -/
def overwriteApp (existing archivedApp : Application) : BackupM (Except String Unit) := do
  let now ← call .now
  match ← call (.updateApp (restored existing archivedApp now)) with
  | .error e => return .error ("update app from backup: " ++ e)
  | .ok () => return .ok ()

/-- `RestoreBackup`, once the archive is read. -/
def restoreApp (archivedApp : Application) (tenantID : String) : BackupM (Except String Unit) := do
  match ← call (.listAppsByTenant tenantID 1000 0) with
  | .error e => return .error ("list tenant apps: " ++ e)
  | .ok apps =>
    match existingApp apps archivedApp.name tenantID with
    | none => recreateApp archivedApp tenantID
    | some existing => overwriteApp existing archivedApp

/-- `RestoreBackup`, once the backup is chosen. -/
def restoreArchive (target : Backup) (tenantID : String) : BackupM (Except String Unit) := do
  if ← call (.hasStorage target.storageTarget) then
    match ← call (.download target.storageTarget target.filePath) with
    | .error e => return .error ("download backup: " ++ e)
    | .ok archivedApp => restoreApp archivedApp tenantID
  else return .error ("unknown storage target: " ++ target.storageTarget)

def restoreBackup (backupID tenantID : String) : BackupM (Except String Unit) := do
  match ← call (.listBackupsByTenant tenantID 1000) with
  | .error e => return .error ("list backups: " ++ e)
  | .ok backups =>
    match backups.find? (·.id = backupID) with
    | none => return .error ("backup not found: " ++ backupID)
    | some backup =>
      if backup.status = .completed then
        match targetBackup backups backup with
        | none => return .error ("incremental " ++ backupID ++ " has no preceding full backup")
        | some target => restoreArchive target tenantID
      else
        return .error ("backup not completed: " ++ backupID ++ " (status=" ++
          statusText backup.status ++ ")")

/-! ## What a restore leaves -/

/-- The configuration that a restore should bring back. -/
structure SameConfig (a a' : Application) : Prop where
  type : a'.type = a.type
  sourceURL : a'.sourceURL = a.sourceURL
  branch : a'.branch = a.branch
  dockerfile : a'.dockerfile = a.dockerfile
  buildPack : a'.buildPack = a.buildPack
  envVarsEnc : a'.envVarsEnc = a.envVarsEnc
  labelsJSON : a'.labelsJSON = a.labelsJSON
  replicas : a'.replicas = a.replicas

def restoreTarget (apps : AppTable) (name tenantID : String) : Option Application :=
  existingApp (listAppsByTenant apps tenantID 1000 0) name tenantID

/-- What the list query does not select: the archive does not have it. -/
def Bare (a : Application) : Prop := a.dockerfile = "" ∧ a.envVarsEnc = "" ∧ a.labelsJSON = ""

lemma sameConfig_refl (a : Application) : SameConfig a a := ⟨rfl, rfl, rfl, rfl, rfl, rfl, rfl, rfl⟩

lemma sameConfig_restored_iff (a : Application) (now now' : ℤ) :
    SameConfig a ((restored a.listed (payload a.listed) now).write now' a) ↔ Bare a := by
  constructor
  · intro h
    exact ⟨h.dockerfile.symm, h.envVarsEnc.symm, h.labelsJSON.symm⟩
  · rintro ⟨hdockerfile, henv, hlabels⟩
    exact ⟨rfl, rfl, rfl, hdockerfile.symm, rfl, henv.symm, hlabels.symm, rfl⟩

/-- What a restore of the archive of the application leaves: the archive is copied onto the
application when the restore succeeds and finds it. -/
def Outcome (apps : AppTable) (a : Application) (r : Except String Unit) (w' : BackupWorld) : Prop :=
  (r = .ok () ∧ restoreTarget apps a.name a.tenantID = some a.listed ∧
      ∃ now now', getApp w'.apps a.id =
        some ((restored a.listed (payload a.listed) now).write now' a)) ∨
    ((r = .ok () → restoreTarget apps a.name a.tenantID ≠ some a.listed) ∧
      getApp w'.apps a.id = some a)

variable {w : BackupWorld} {a : Application} {apps : AppTable}

lemma Outcome.of_error {e : String} (h : getApp w.apps a.id = some a) :
    Outcome apps a (.error e) w := .inr ⟨nofun, h⟩

lemma Outcome.same_iff {r : Except String Unit} (h : Outcome apps a r w) :
    (∃ row, getApp w.apps a.id = some row ∧ SameConfig a row) ↔
      (r = .ok () → restoreTarget apps a.name a.tenantID = some a.listed → Bare a) := by
  rcases h with ⟨hr, htarget, now, now', hrow⟩ | ⟨htarget, hrow⟩
  · constructor
    · rintro ⟨row, hrow', hsame⟩ _ _
      obtain rfl := some.inj (hrow.symm.trans hrow')
      exact (sameConfig_restored_iff a now now').mp hsame
    · intro hbare
      exact ⟨_, hrow, (sameConfig_restored_iff a now now').mpr (hbare hr htarget)⟩
  · constructor
    · exact fun _ hr hsome => absurd hsome (htarget hr)
    · exact fun _ => ⟨a, hrow, sameConfig_refl a⟩

variable {existing : Application}

lemma eq_listed_of_restoreTarget {name tenantID : String}
    (h : restoreTarget apps name tenantID = some existing) (hid : existing.id = a.id)
    (ha : getApp apps a.id = some a) : existing = a.listed := by
  obtain ⟨row, hrow, rfl⟩ := mem_map.mp (mem_of_find?_eq_some h)
  obtain ⟨hmem, -⟩ := find?_eq_some_iff.mp ha
  rw [eq_of_key_eq (mem_of_mem_page hrow).1 hmem hid]

variable (ha : getApp w.apps a.id = some a)
include ha

lemma recreateApp_outcome {archivedApp : Application}
    (htarget : restoreTarget apps a.name a.tenantID = none) (tenantID : String) :
    Wp backupExec (recreateApp archivedApp tenantID) (Outcome apps a) w := by
  have hdone : ∀ {r} {w'}, getApp w'.apps a.id = some a →
      Outcome apps a r w' := fun h => .inr ⟨fun _ => by rw [htarget]; exact nofun, h⟩
  unfold recreateApp
  rw [wp_call_bind]
  intro o id w1 h1
  rw [wp_call_bind]
  intro o' now w2 h2
  have ha2 : getApp w2.apps a.id = some a := by
    rw [(step_backupExec h2).2.apps rfl, (step_backupExec h1).2.apps rfl, ha]
  rw [wp_call_bind]
  intro o'' r w3 h3
  simp only [backupExec] at h3
  split at h3
  case h_1 =>
    obtain ⟨rfl, rfl⟩ := answer_inj h3
    exact hdone ha2
  case h_2 t ht =>
    rcases attempt_eq_some h3 with ⟨e, -, rfl, rfl⟩ | ⟨-, rfl, rfl⟩
    · exact hdone ha2
    · exact hdone (getApp_createApp ht ha2)

lemma overwriteApp_outcome (htarget : restoreTarget w.apps a.name a.tenantID = some existing) :
    Wp backupExec (overwriteApp existing (payload a.listed)) (Outcome w.apps a) w := by
  unfold overwriteApp
  rw [wp_call_bind]
  intro o now w1 h1
  have ha1 : getApp w1.apps a.id = some a := by
    rw [(step_backupExec h1).2.apps rfl, ha]
  rw [wp_call_bind]
  intro o' r w2 h2
  rcases attempt_eq_some h2 with ⟨e, -, rfl, rfl⟩ | ⟨-, rfl, rfl⟩
  · exact .of_error ha1
  have hrow : getApp (updateApp w1.apps (restored existing (payload a.listed) now)
      (w1.wait o'.elapsed).now) a.id = _ := getApp_updateApp ..
  rw [ha1, map_some] at hrow
  by_cases hid : existing.id = a.id
  · obtain rfl := eq_listed_of_restoreTarget htarget hid ha
    exact .inl ⟨rfl, htarget, now, _, hrow.trans (congrArg some (if_pos rfl))⟩
  · refine .inr ⟨fun _ hsome => hid ?_, hrow.trans (congrArg some (if_neg (Ne.symm hid)))⟩
    rw [some.inj (htarget.symm.trans hsome)]
    rfl

lemma restoreApp_outcome :
    Wp backupExec (restoreApp (payload a.listed) a.tenantID) (Outcome w.apps a) w := by
  unfold restoreApp
  rw [wp_call_bind]
  intro o r w1 h1
  have happs : w1.apps = w.apps := (step_backupExec h1).2.apps rfl
  have hanswered := answered_of_backupExec h1
  rw [← happs] at ha ⊢
  cases r with
  | error e => exact .of_error ha
  | ok apps =>
    obtain rfl : apps = listAppsByTenant w1.apps a.tenantID 1000 0 := hanswered
    dsimp only
    split
    case h_1 hnone => exact recreateApp_outcome ha hnone a.tenantID
    case h_2 existing hsome => exact overwriteApp_outcome ha hsome

lemma restoreArchive_outcome {target : Backup}
    (hcontent : ∀ x ∈ w.archives, x.at target.storageTarget target.filePath = true →
      x.content = payload a.listed) :
    Wp backupExec (restoreArchive target a.tenantID) (Outcome w.apps a) w := by
  unfold restoreArchive
  rw [wp_call_bind]
  intro o known w1 h1
  have happs1 : w1.apps = w.apps := (step_backupExec h1).2.apps rfl
  have harchives1 : w1.archives = w.archives := (step_backupExec h1).1.2
  split
  case isFalse => exact .of_error (happs1 ▸ ha)
  rw [wp_call_bind]
  intro o' r w2 h2
  have happs2 : w2.apps = w.apps := ((step_backupExec h2).2.apps rfl).trans happs1
  have harchives2 : w2.archives = w.archives := (step_backupExec h2).1.2.trans harchives1
  have hanswered := answered_of_backupExec h2
  cases r with
  | error e => exact .of_error (happs2 ▸ ha)
  | ok archivedApp =>
    obtain ⟨x, hx, hat, rfl⟩ := hanswered
    rw [harchives2] at hx
    rw [hcontent x hx hat, ← happs2]
    exact restoreApp_outcome (happs2 ▸ ha)

omit ha

variable {b : Backup}

lemma restoreBackup_outcome {hash : Application → String} (hledger : Ledger hash w)
    (hb : b ∈ w.backups.rows) (ha : getApp w.apps a.id = some a)
    (hcontent : ∀ x ∈ w.archives, x.at b.storageTarget b.filePath = true →
      x.content = payload a.listed) :
    Wp backupExec (restoreBackup b.id a.tenantID) (Outcome w.apps a) w := by
  unfold restoreBackup
  rw [wp_call_bind]
  intro o r w1 h1
  have happs : w1.apps = w.apps := (step_backupExec h1).2.apps rfl
  obtain ⟨hbackups, harchives⟩ := (step_backupExec h1).1.of_reads rfl
  have hanswered := answered_of_backupExec h1
  cases r with
  | error e => exact .of_error (happs ▸ ha)
  | ok backups =>
    dsimp only
    split
    case h_1 => exact .of_error (happs ▸ ha)
    case h_2 backup hfound =>
      obtain rfl : backup = b := by
        refine eq_of_key_eq (hbackups ▸ hanswered _ (mem_of_find?_eq_some hfound)) hb ?_
        simpa using find?_some hfound
      split
      case isFalse => exact .of_error (happs ▸ ha)
      have htarget : targetBackup backups backup = some backup := by
        rw [targetBackup, hledger.untyped backup hb, if_neg nofun]
      rw [htarget, ← happs]
      exact restoreArchive_outcome (happs ▸ ha) fun x hx => hcontent x (harchives ▸ hx)

/-! ## What a sweep records -/

def RecordOf (hash : Application → String) (apps : AppTable) (b : Backup) : Prop :=
  ∃ row ∈ apps.rows, b.sourceID = row.id ∧ b.encryption = hash (payload row.listed)

/-- The list query shows the applications of the table. -/
def ListedFrom (apps : AppTable) : (c : BackupCall) → BackupAnswer c → Prop
  | .listAppsByTenant _ _ _, .ok listed => ∀ app ∈ listed, ∃ row ∈ apps.rows, row.listed = app
  | _, _ => True

def SweepCall (hash : Application → String) (apps : AppTable) (c : BackupCall) : Prop :=
  c.writesApps = false ∧ ∀ b, c = .createBackup b → RecordOf hash apps b

variable {hash : Application → String} {c : BackupCall}

lemma sweepCall_of (happs : c.writesApps = false)
    (hc : ∀ b, c ≠ .createBackup b) : SweepCall hash apps c := ⟨happs, fun b h => absurd h (hc b)⟩

lemma sweepCall_createBackup (hb : RecordOf hash apps b) :
    SweepCall hash apps (.createBackup b) :=
  ⟨rfl, fun _ h => BackupCall.createBackup.inj h ▸ hb⟩

def Recording {α : Type} (hash : Application → String) (apps : AppTable) (p : BackupM α) : Prop :=
  CallsIn (ListedFrom apps) (SweepCall hash apps) p

lemma Recording.bind {α β : Type} {p : BackupM α} {f : α → BackupM β}
    (hp : Recording hash apps p) (hf : ∀ a, Recording hash apps (f a)) :
    Recording hash apps (p >>= f) := CallsIn.bind hp hf

lemma Recording.call {α : Type} {f : BackupAnswer c → BackupM α}
    (hc : SweepCall hash apps c) (hf : ∀ r, ListedFrom apps c r → Recording hash apps (f r)) :
    Recording hash apps (call c >>= f) := ⟨hc, hf⟩

lemma completeBackup_recording (b : Backup) : Recording hash apps (completeBackup b) :=
  .call (sweepCall_of rfl nofun) fun _ _ => trivial

lemma fullBackup_recording (hb : RecordOf hash apps b) (content : Application) :
    Recording hash apps (fullBackup b content) := by
  refine .call (sweepCall_createBackup hb) fun r _ => ?_
  cases r with
  | error e => trivial
  | ok =>
    refine .call (sweepCall_of rfl nofun) fun r _ => ?_
    cases r with
    | error e => exact .call (sweepCall_of rfl nofun) fun _ _ => trivial
    | ok => exact completeBackup_recording b

lemma incrementalBackup_recording (hb : RecordOf hash apps b) :
    Recording hash apps (incrementalBackup b) := by
  refine .call (sweepCall_createBackup hb) fun r _ => ?_
  cases r with
  | error e => trivial
  | ok => exact completeBackup_recording b

lemma findLastBackupForApp_recording (tenantID appID : String) :
    Recording hash apps (findLastBackupForApp tenantID appID) := by
  refine .call (sweepCall_of rfl nofun) fun r _ => ?_
  cases r <;> trivial

lemma backupApp_recording {app : Application} (happ : ∃ row ∈ apps.rows, row.listed = app)
    (tenantID storage : String) : Recording hash apps (backupApp hash tenantID app storage) := by
  obtain ⟨row, hrow, rfl⟩ := happ
  have hb : ∀ backupID key backupType, RecordOf hash apps
      (backupRow hash tenantID row.listed storage backupID key backupType) :=
    fun _ _ _ => ⟨row, hrow, rfl, rfl⟩
  refine .call (sweepCall_of rfl nofun) fun backupID _ => ?_
  refine .bind (findLastBackupForApp_recording ..) fun last => ?_
  cases last with
  | none => exact fullBackup_recording (hb ..) _
  | some last =>
    dsimp only
    split
    · exact incrementalBackup_recording (hb ..)
    · exact fullBackup_recording (hb ..) _

lemma deleteOld_recording (storage : String) (cutoff : ℤ) (es : List BackupEntry) :
    Recording hash apps (deleteOld storage cutoff es) := by
  induction es with
  | nil => trivial
  | cons e es ih =>
    rw [deleteOld]
    split
    · refine .call (sweepCall_of rfl (by rintro _ ⟨⟩)) fun r _ => ?_
      cases r with
      | error => exact ih
      | ok => exact ih.bind fun _ => trivial
    · exact ih

lemma cleanupOldBackups_recording (storage tenantID : String) :
    Recording hash apps (cleanupOldBackups storage tenantID) := by
  refine .call (sweepCall_of rfl nofun) fun r _ => ?_
  cases r with
  | error e => trivial
  | ok entries =>
    refine .call (sweepCall_of rfl nofun) fun now _ => ?_
    exact (deleteOld_recording ..).bind fun _ => trivial

lemma runBackups_recording (pages : ℕ) : Recording hash apps (runBackups hash pages) := by
  have hrules : SweepRules hash (fun app => ∃ row ∈ apps.rows, row.listed = app)
      fun p => Recording hash apps p :=
    { ret := fun a => trivial
      bind := fun hp hf => hp.bind hf
      read := fun hc happs hf => .call ⟨happs, fun b hb => by rw [hb] at hc; cases hc⟩ fun r _ => hf r
      list := fun herror hok => .call (sweepCall_of rfl nofun) fun r hr => by
        cases r with
        | error e => exact herror e
        | ok listed => exact hok listed hr
      backupApp := fun tenantID _ storage happ => backupApp_recording happ tenantID storage
      cleanup := cleanupOldBackups_recording }
  exact hrules.runBackups pages

variable {pages : ℕ} {w' : BackupWorld} {os : List BackupChoice}

/-- The table is as it was, and every new row is one of an application of it. -/
def Recorded (hash : Application → String) (w s : BackupWorld) : Prop :=
  s.apps = w.apps ∧ ∀ b ∈ s.backups.rows,
    b.id ∈ w.backups.rows.map Backup.id ∨ RecordOf hash w.apps b

lemma Recorded.listed {s s' : BackupWorld} {o : BackupChoice} {r : BackupAnswer c}
    (hs : Recorded hash w s) (hexec : backupExec c s o = some (r, s')) : ListedFrom w.apps c r := by
  have hanswered := answered_of_backupExec hexec
  have happs := (step_backupExec hexec).2.apps
  cases c with
  | listAppsByTenant =>
    cases r with
    | error => trivial
    | ok listed =>
      obtain rfl := hanswered
      intro app happ
      obtain ⟨row, hrow, hlisted⟩ := mem_map.mp happ
      rw [happs rfl, hs.1] at hrow
      exact ⟨row, (mem_of_mem_page hrow).1, hlisted⟩
  | _ => trivial

lemma Recorded.step {s s' : BackupWorld} {o : BackupChoice} {r : BackupAnswer c}
    (hc : SweepCall hash w.apps c) (hs : Recorded hash w s)
    (hexec : backupExec c s o = some (r, s')) : Recorded hash w s' := by
  refine ⟨((step_backupExec hexec).2.apps hc.1).trans hs.1, fun b hb => ?_⟩
  rcases (step_backupExec hexec).1.row hb with ⟨b0, hb0, hsame⟩ | ⟨b0, rfl, rfl⟩
  · rw [RecordOf, hsame.id, hsame.sourceID, hsame.encryption]
    exact hs.2 b0 hb0
  · exact .inr (hc.2 b0 rfl)

lemma recorded_of_sweep (h : solo backupExec (runBackups hash pages) w os = some ((), w')) :
    Recorded hash w w' := by
  have hwp : Wp backupExec (runBackups hash pages) (fun _ s => Recorded hash w s) w := by
    refine CallsIn.wp (fun _ _ _ _ _ hs hexec => hs.listed hexec)
      (fun _ _ _ _ _ hc hs hexec => hs.step hc hexec) (runBackups_recording pages) ?_
    exact ⟨rfl, fun b hb => .inl (mem_map_of_mem hb)⟩
  exact (of_solo hwp h :)

lemma ledger_of_sweep (hledger : Ledger hash w)
    (h : solo backupExec (runBackups hash pages) w os = some ((), w')) : Ledger hash w' := by
  have hstep : ∀ c s o r s' g g', Ledger hash s ∧ Stage.Holds s g → Next hash g c r g' →
      backupExec c s o = some (r, s') → Ledger hash s' ∧ Stage.Holds s' g' := by
    intro c s o r s' g g' hs hnext hexec
    obtain ⟨⟨hledger', -⟩, hholds'⟩ := hs.1.step hs.2 hnext hexec
    exact ⟨hledger', hholds'⟩
  have hwp := Follows.wp (I := fun s g => Ledger hash s ∧ g.Holds s) hstep
    (runBackups_follows (g := .idle) pages) ⟨hledger, trivial⟩
  obtain ⟨g, -, hledger', -⟩ := of_solo hwp h
  exact hledger'

/-- **A backup and its restore keep the configuration of an application exactly when there was
nothing to lose**, or the restore fails or finds another application of the name. -/
theorem restore_config_iff (hash : Application → String) (sweeps : List ℕ) {w0 : BackupWorld}
    (hbackups : w0.backups.rows = []) (harchives : w0.archives = []) {as : List BackupAction}
    {w : BackupWorld} {progs : List (BackupM Unit)}
    (hrun : run backupStep (w0, sweeps.map (runBackups hash)) as = some (w, progs))
    {a : Application} (ha : getApp w.apps a.id = some a)
    {pages : ℕ} {os : List BackupChoice} {w1 : BackupWorld}
    (hsweep : solo backupExec (runBackups hash pages) w os = some ((), w1))
    {b : Backup} (hb : b ∈ w1.backups.rows) (hnew : b.id ∉ w.backups.rows.map Backup.id)
    (hsource : b.sourceID = a.id)
    (hcollision : ∀ x ∈ w1.archives, hash x.content = hash (payload a.listed) →
      x.content = payload a.listed)
    {os' : List BackupChoice} {r : Except String Unit} {w2 : BackupWorld}
    (hrestore : solo backupExec (restoreBackup b.id a.tenantID) w1 os' = some (r, w2)) :
    (∃ row, getApp w2.apps a.id = some row ∧ SameConfig a row) ↔
      (r = .ok () → restoreTarget w.apps a.name a.tenantID = some a.listed →
        a.dockerfile = "" ∧ a.envVarsEnc = "" ∧ a.labelsJSON = "") := by
  have hledger : Ledger hash w1 := ledger_of_sweep (ledger_of_run hbackups harchives hrun) hsweep
  obtain ⟨happs, hrecorded⟩ := recorded_of_sweep hsweep
  obtain ⟨row, hrow, hid, hhash⟩ := (hrecorded b hb).resolve_left hnew
  obtain rfl : row = a := by
    refine eq_of_key_eq hrow (find?_eq_some_iff.mp ha).1 ?_
    exact hid.symm.trans hsource
  rw [← happs] at ha ⊢
  refine (of_solo (restoreBackup_outcome hledger hb ha fun x hx hat => ?_) hrestore).same_iff
  exact hcollision x hx ((hledger.hash_eq hb hx (Archive.at_iff.mp hat).2).trans hhash)

def firstSweep : List BackupChoice := replicate 15 { id := "0" }

def plainRestore : List BackupChoice := replicate 6 {}

theorem restore_config_iff_bareApp : ∃ w1 w2,
    solo backupExec (runBackups (·.sourceURL) 1) (fleet webApp) firstSweep = some ((), w1) ∧
      solo backupExec (restoreBackup "0" "acme") w1 plainRestore = some (.ok (), w2) ∧
      ∃ row, getApp w2.apps "web" = some row ∧ SameConfig webApp row := by
  obtain ⟨w1, hsweep, ⟨b, hb, hid, hsource⟩, hcontent, w2, hrestore⟩ :
      ∃ w1, solo backupExec (runBackups (·.sourceURL) 1) (fleet webApp) firstSweep = some ((), w1) ∧
        (∃ b ∈ w1.backups.rows, b.id = "0" ∧ b.sourceID = "web") ∧
        (∀ y ∈ w1.archives, y.content = payload webApp.listed) ∧
        ∃ w2, solo backupExec (restoreBackup "0" "acme") w1 plainRestore = some (.ok (), w2) := by
    decide +kernel
  refine ⟨w1, w2, hsweep, hrestore, ?_⟩
  rw [← hid] at hrestore
  have hrun : run backupStep (fleet webApp, [].map (runBackups (·.sourceURL))) [] =
      some (fleet webApp, []) := rfl
  refine (restore_config_iff _ [] rfl rfl hrun (a := webApp) rfl hsweep hb not_mem_nil hsource
    (fun x hx _ => hcontent x hx) hrestore).mpr ?_
  exact fun _ _ => ⟨rfl, rfl, rfl⟩

/-- The restore erases the environment variables that the application had when it was backed up. -/
theorem restore_erasesEnvVars : ∃ w1 w2,
    solo backupExec (runBackups (·.sourceURL) 1) (fleet { webApp with envVarsEnc := "enc:v1" })
        firstSweep = some ((), w1) ∧
      w1.backups.rows.map (fun b => (b.id, b.sourceID, b.status)) = [("0", "web", .completed)] ∧
      solo backupExec (restoreBackup "0" "acme") w1 plainRestore = some (.ok (), w2) ∧
      (getApp w2.apps "web").map Application.envVarsEnc = some "" := by
  decide +kernel

/-! ## Which archive a restore downloads -/

/-- The full backups of the source that precede the backup. -/
def precedingFull (backups : List Backup) (backup : Backup) : List Backup :=
  backups.filter fun b => b.sourceID = backup.sourceID ∧ b.backupType = some .full ∧
    b.createdAt < backup.createdAt

def MostRecent (backups : List Backup) (target : Backup) : Prop :=
  target ∈ backups ∧ ∀ b ∈ backups, b.createdAt ≤ target.createdAt

/-- The backups are ordered newest first, at distinct times. -/
def NewestFirst (backups : List Backup) : Prop := backups.Pairwise fun b b' => b'.createdAt < b.createdAt
  deriving Decidable

/-- The last of a list is its newest only if it has no other. -/
lemma getLast?_mostRecent_iff {backups : List Backup} (h : NewestFirst backups) :
    (∀ target, MostRecent backups target → backups.getLast? = some target) ↔ backups.length ≤ 1 := by
  match backups, h with
  | [], _ => exact iff_of_true (fun _ htarget => nomatch htarget.1) (Nat.zero_le 1)
  | [b], _ => exact iff_of_true (fun _ htarget => by rw [mem_singleton.mp htarget.1]; rfl) le_rfl
  | b :: b' :: rest, h =>
    obtain ⟨hnewest, -⟩ := pairwise_cons.mp h
    refine iff_of_false (fun hlast => ?_) (by simp)
    have hb : getLast? (b :: b' :: rest) = some b :=
      hlast b ⟨mem_cons_self, forall_mem_cons.mpr ⟨le_rfl, fun x hx => (hnewest x hx).le⟩⟩
    exact lt_irrefl _ (hnewest b (mem_of_getLast? hb))

/-- **Which full backup the restore of an incremental one downloads.** It fails exactly when none
precedes; else it is the most recent one exactly when it is the only one. -/
theorem restore_mostRecent_iff (backups : List Backup) (backup : Backup) (backupID tenantID : String)
    (hsorted : NewestFirst backups) (hfound : backups.find? (·.id = backupID) = some backup)
    (hstatus : backup.status = .completed) (htype : backup.backupType = some .incremental) :
    ∃ restore, restoreBackup backupID tenantID = .call (.listBackupsByTenant tenantID 1000) restore ∧
      restore (.ok backups) = (match targetBackup backups backup with
        | none => .ret (.error ("incremental " ++ backupID ++ " has no preceding full backup"))
        | some target => restoreArchive target tenantID) ∧
      (targetBackup backups backup = none ↔ precedingFull backups backup = []) ∧
      ((∀ target, MostRecent (precedingFull backups backup) target →
        targetBackup backups backup = some target) ↔ (precedingFull backups backup).length ≤ 1) := by
  have htarget : targetBackup backups backup = (precedingFull backups backup).getLast? := if_pos htype
  refine ⟨_, rfl, ?_, ?_, ?_⟩
  · simp only [Prog.bind, hfound, if_pos hstatus]
    rfl
  · rw [htarget, getLast?_eq_none_iff]
  · rw [htarget]
    exact getLast?_mostRecent_iff (hsorted.sublist filter_sublist)

/-- A backup of the day, with the archive of its own. -/
def dayBackup (id : String) (backupType : BackupType) (day : ℤ) : Backup :=
  ⟨id, "t1", "a1", "local", ⟨"t1", "a1", id⟩, "", .completed, some backupType, day⟩

theorem restore_mostRecent_one :
    MostRecent [dayBackup "b1" .full 1] (dayBackup "b1" .full 1) ∧
      targetBackup [dayBackup "b2" .incremental 2, dayBackup "b1" .full 1]
        (dayBackup "b2" .incremental 2) = some (dayBackup "b1" .full 1) := by
  have hrecent : MostRecent [dayBackup "b1" .full 1] (dayBackup "b1" .full 1) :=
    ⟨mem_cons_self, forall_mem_singleton.mpr le_rfl⟩
  obtain ⟨_, -, -, -, h⟩ := restore_mostRecent_iff
    [dayBackup "b2" .incremental 2, dayBackup "b1" .full 1] (dayBackup "b2" .incremental 2) "b2" "t1"
    (by decide) (by decide) rfl rfl
  exact ⟨hrecent, h.mpr (by decide) _ hrecent⟩

/-- Of two full backups, the restore of an incremental one downloads the oldest. -/
theorem restore_downloads_oldest :
    targetBackup [dayBackup "b3" .incremental 3, dayBackup "b2" .full 2, dayBackup "b1" .full 1]
      (dayBackup "b3" .incremental 3) = some (dayBackup "b1" .full 1) := by
  decide

end DeployMonster.Backup
