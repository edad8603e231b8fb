import DeployMonster.Core.Clock
import DeployMonster.Library.StepMachine
import DeployMonster.Library.Table

/-!
# Applications

`internal/db/apps.go` over the table `applications`. There is no column for the port, so a row that
is read has the port 0.
-/

namespace DeployMonster.DB

open Clock List Option Table

inductive AppType
  | service | worker | static | database | cron | composeStack
  deriving DecidableEq

inductive SourceType
  | git | image | compose | dockerfile | marketplace
  deriving DecidableEq

inductive AppStatus
  | pending | building | deploying | running | stopped | crashed | failed
  deriving DecidableEq

def AppType.text : AppType → String
  | service => "service"
  | worker => "worker"
  | static => "static"
  | database => "database"
  | cron => "cron"
  | composeStack => "compose-stack"

def SourceType.text : SourceType → String
  | git => "git"
  | image => "image"
  | compose => "compose"
  | dockerfile => "dockerfile"
  | marketplace => "marketplace"

def AppStatus.text : AppStatus → String
  | pending => "pending"
  | building => "building"
  | deploying => "deploying"
  | running => "running"
  | stopped => "stopped"
  | crashed => "crashed"
  | failed => "failed"

structure Application where
  id : String
  projectID : String := ""
  (tenantID name : String)
  type : AppType := .service
  sourceType : SourceType := .git
  sourceURL : String := ""
  branch : String := ""
  dockerfile : String := ""
  buildPack : String := ""
  envVarsEnc : String := ""
  labelsJSON : String := ""
  replicas : ℤ := 1
  port : ℤ := 0
  status : AppStatus := .pending
  serverID : String := ""
  createdAt : ℤ := 0
  /-- Unix time, as `CURRENT_TIMESTAMP` has it. -/
  updatedAt : ℤ := 0
  deriving DecidableEq

abbrev AppTable := Table Application.id

variable (t : AppTable)

def getApp (id : String) : Option Application := t.find? id

/-- `GetAppByName`: the first application of the tenant that has the name. -/
def getAppByName (tenantID name : String) : Option Application :=
  t.rows.find? fun a => a.tenantID = tenantID ∧ a.name = name

/-- The columns that `ListAppsByTenant` selects; the other fields stay zero. -/
def Application.listed (a : Application) : Application :=
  { a with dockerfile := "", buildPack := "", envVarsEnc := "", labelsJSON := "" }

def listAppsByTenant (tenantID : String) (limit offset : ℕ) : List Application :=
  (t.page (·.tenantID = tenantID) Application.createdAt limit offset).map Application.listed

/-- `CreateApp`: the port has no column, and the timestamps are set; unless the primary key refuses
the id. -/
def createApp (a : Application) (now : ℤ) : Option AppTable :=
  if hid : a.id ∈ t.rows.map Application.id then none
  else
    some (t.insert { a with port := 0, createdAt := unix now, updatedAt := unix now } hid)

def Application.write (a : Application) (now : ℤ) (row : Application) : Application :=
  { row with
    name := a.name, sourceURL := a.sourceURL, branch := a.branch, dockerfile := a.dockerfile,
    envVarsEnc := a.envVarsEnc, labelsJSON := a.labelsJSON, replicas := a.replicas,
    status := a.status, serverID := a.serverID, updatedAt := unix now }

def updateApp (a : Application) (now : ℤ) : AppTable :=
  t.update a.id (a.write now) fun _ => rfl

variable (status : AppStatus)

def Application.setStatus (tenantID : String) (now : ℤ) (row : Application) : Application :=
  if row.tenantID = tenantID then { row with status, updatedAt := unix now } else row

variable (tenantID : String)

lemma Application.setStatus_id (now : ℤ)
    (row : Application) : (row.setStatus status tenantID now).id = row.id := by
  unfold setStatus
  split <;> rfl

lemma Application.setStatus_tenantID (now : ℤ)
    (row : Application) : (row.setStatus status tenantID now).tenantID = row.tenantID := by
  unfold setStatus
  split <;> rfl

def updateAppStatus (id : String) (status : AppStatus) (tenantID : String) (now : ℤ) : AppTable :=
  t.update id (·.setStatus status tenantID now) (Application.setStatus_id status tenantID now)

def deleteApp (id tenantID : String) : AppTable :=
  t.filter fun row => ¬ (row.id = id ∧ row.tenantID = tenantID)

lemma getApp_updateAppStatus (id id' : String) (status : AppStatus)
    (tenantID : String) (now : ℤ) : getApp (updateAppStatus t id status tenantID now) id' =
      (getApp t id').map fun a => if id' = id then a.setStatus status tenantID now else a :=
  find?_update

lemma getApp_updateApp (a : Application) (now : ℤ) (id : String) : getApp (updateApp t a now) id =
      (getApp t id).map fun row => if id = a.id then a.write now row else row :=
  find?_update

lemma getApp_createApp_self {t t' : AppTable} {a : Application} {now : ℤ}
    (h : createApp t a now = some t') : getApp t' a.id =
      some { a with port := 0, createdAt := unix now, updatedAt := unix now } := by
  rw [createApp, dite_none_left_eq_some] at h
  obtain ⟨hid, h⟩ := h
  rw [← some.inj h]
  exact find?_eq_some_iff.mpr ⟨mem_append_right _ (mem_singleton_self _), rfl⟩

lemma getApp_createApp {t t' : AppTable} {a row : Application} {now : ℤ} {id : String}
    (h : createApp t a now = some t') (hrow : getApp t id = some row) : getApp t' id = some row := by
  rw [createApp, dite_none_left_eq_some] at h
  obtain ⟨hid, h⟩ := h
  obtain ⟨hmem, hkey⟩ := find?_eq_some_iff.mp hrow
  rw [← some.inj h]
  exact find?_eq_some_iff.mpr ⟨mem_append_left _ hmem, hkey⟩

/-!
# Deployments

`internal/db/deployments.go` over the table `deployments`. `CreateDeploymentAtomicVersion`
allocates the version and inserts the row in one statement.
-/

inductive DeployStatus
  | pending | building | deploying | running | failed
  deriving DecidableEq

def DeployStatus.inFlight : DeployStatus → Bool
  | building | deploying => true
  | pending | running | failed => false

structure Deployment where
  id : String := ""
  appID : String
  version : ℕ := 0
  image : String
  containerID : Option ℕ := none
  status : DeployStatus
  buildLog : String := ""
  commitSHA : String := ""
  commitMessage : String := ""
  (triggeredBy strategy : String)
  startedAt : Option ℤ := none
  finishedAt : Option ℤ := none
  createdAt : ℤ := 0
  deriving DecidableEq

abbrev DeploymentTable := Table Deployment.id

/-- `COALESCE(MAX(version), 0)` over the rows of an application. -/
def maxVersion (rows : List Deployment) (appID : String) : ℕ :=
  ((rows.filter (·.appID = appID)).map Deployment.version).foldr max 0

variable (t : DeploymentTable)

/-- The row that `CreateDeploymentAtomicVersion` inserts at the time `now`, with its id. -/
def versioned (d : Deployment) (id : String) (now : ℤ) : Deployment :=
  { d with id, version := maxVersion t.rows d.appID + 1, createdAt := now }

/-- `CreateDeploymentAtomicVersion`, unless the primary key refuses the id. -/
def createDeploymentAtomicVersion (d : Deployment) (id : String) (now : ℤ) :
    Option DeploymentTable :=
  if hid : id ∈ t.rows.map Deployment.id then none
  else some (t.insert (versioned t d id now) hid)

def Deployment.write (d row : Deployment) : Deployment :=
  { row with
    status := d.status, containerID := d.containerID, buildLog := d.buildLog,
    finishedAt := d.finishedAt }

def updateDeployment (d : Deployment) : DeploymentTable :=
  t.update d.id d.write fun _ => rfl

def Deployment.selected (d : Deployment) : Deployment := { d with buildLog := "" }

/-- `ListDeploymentsByApp`: the highest versions first. -/
def listDeploymentsByApp (appID : String) (limit : ℕ) : List Deployment :=
  (t.newest (·.appID = appID) (fun d => (d.version : ℤ)) limit).map Deployment.selected

def getLatestDeployment (appID : String) : Option Deployment :=
  (listDeploymentsByApp t appID 1).head?

/-- `ListDeploymentsByStatus`: the newest 10000. -/
def listDeploymentsByStatus (status : DeployStatus) : List Deployment :=
  (t.newest (·.status = status) Deployment.createdAt 10000).map Deployment.selected

lemma updateDeployment_rows_append {t : DeploymentTable} {rows : List Deployment}
    {row d : Deployment} (ht : t.rows = rows ++ [row]) (hid : d.id = row.id) :
    (updateDeployment t d).rows = rows ++ [d.write row] := by
  have hnodup := t.nodup
  rw [ht, map_append, nodup_append'] at hnodup
  show t.rows.map (fun r => if r.id = d.id then d.write r else r) = _
  rw [ht, map_append, map_singleton, if_pos hid.symm]
  congr 1
  refine (map_congr_left fun r hr => if_neg fun hr' => ?_).trans (map_id _)
  exact hnodup.2.2 (mem_map_of_mem hr) (by simp [hr', hid])

variable {rows : List Deployment} {d : Deployment} {appID : String}

lemma maxVersion_append (rows rows' : List Deployment) (appID : String) :
    maxVersion (rows ++ rows') appID = max (maxVersion rows appID) (maxVersion rows' appID) := by
  induction rows with
  | nil => simp [maxVersion]
  | cons d rows ih =>
    simp only [maxVersion, cons_append, filter_cons] at ih ⊢
    split
    · simp only [map_cons, foldr_cons, ih]
      omega
    · exact ih

lemma maxVersion_singleton (d : Deployment) (appID : String) :
    maxVersion [d] appID = if d.appID = appID then d.version else 0 := by
  by_cases happ : d.appID = appID <;> simp [maxVersion, happ]

lemma maxVersion_updateDeployment (d : Deployment) (appID : String) :
    maxVersion (updateDeployment t d).rows appID = maxVersion t.rows appID := by
  show maxVersion (t.rows.map _) appID = _
  induction t.rows with
  | nil => rfl
  | cons row rows ih =>
    rw [← singleton_append, maxVersion_append, map_append, maxVersion_append]
    refine congrArg₂ max ?_ ih
    simp only [map_cons, map_nil, maxVersion_singleton]
    split <;> rfl

/-!
# The stored secrets and their versions

The tables `secrets` and `secret_versions`: every version of a secret is a row with its ciphertext,
under a primary key.
-/

structure Secret where
  (id scope name : String)

/-- `SELECT … FROM secrets WHERE scope = ? AND name = ?`, the first row. -/
def getSecretByScopeAndName (secrets : Table Secret.id) (scope name : String) :
    Except String Secret :=
  match secrets.rows.find? fun s => s.scope = scope ∧ s.name = name with
  | some s => .ok s
  | none => .error ("secret " ++ scope ++ "/" ++ name ++ " not found")

/-- A row of `secret_versions`, with a ciphertext of type `C`. -/
structure SecretVersion (C : Type) where
  (id secretID : String)
  version : ℕ
  valueEnc : C
  deriving DecidableEq

/-- The table; `id` is its primary key. -/
structure SecretTable (C : Type) where
  rows : List (SecretVersion C)
  id_nodup : (rows.map (·.id)).Nodup

variable {C : Type}

def listedBefore (r r' : SecretVersion C) : Prop :=
  r.secretID < r'.secretID ∨ r.secretID = r'.secretID ∧ r.version ≤ r'.version

instance : DecidableRel (listedBefore (C := C)) :=
  fun _ _ => inferInstanceAs (Decidable (_ ∨ _))

def listLimit : ℕ := 10000

namespace SecretTable

variable (t : SecretTable C)

/-- `SELECT … FROM secret_versions ORDER BY secret_id, version LIMIT 10000`. -/
def listAllSecretVersions : List (SecretVersion C) :=
  (t.rows.insertionSort listedBefore).take listLimit

/-- `SELECT … FROM secret_versions WHERE secret_id = ? ORDER BY version DESC LIMIT 1`. -/
def getLatestSecretVersion (secretID : String) : Except String (SecretVersion C) :=
  let versions := t.rows.filter (·.secretID = secretID)
  match (versions.insertionSort fun r r' => r'.version ≤ r.version).head? with
  | some r => .ok r
  | none => .error ("no versions found for secret " ++ secretID)

/-- The row after `UPDATE secret_versions SET value_enc = ? WHERE id = ?`. -/
def updateRow (id : String) (valueEnc : C) (r : SecretVersion C) : SecretVersion C :=
  if r.id = id then { r with valueEnc := valueEnc } else r

@[simp] lemma id_updateRow (id : String) (valueEnc : C) (r : SecretVersion C) :
    (updateRow id valueEnc r).id = r.id := by
  unfold updateRow
  split_ifs <;> rfl

/-- `UPDATE secret_versions SET value_enc = ? WHERE id = ?`, in a transaction of its own. -/
def updateSecretVersionValue (id : String) (valueEnc : C) : SecretTable C where
  rows := t.rows.map (updateRow id valueEnc)
  id_nodup := by simpa [Function.comp_def] using t.id_nodup

/-- `INSERT INTO secret_versions …`, which is refused when the key is taken, or the number of the
version. -/
def createSecretVersion (r : SecretVersion C) : Option (SecretTable C) :=
  if h : r.id ∉ t.rows.map (·.id) ∧
      ¬∃ r' ∈ t.rows, r'.secretID = r.secretID ∧ r'.version = r.version then
    some
      { rows := t.rows ++ [r]
        id_nodup := by
          rw [map_append, map_singleton]
          exact nodup_append'.mpr ⟨t.id_nodup, nodup_singleton _, by simpa using h.1⟩ }
  else none

variable {r : SecretVersion C}

lemma rows_createSecretVersion {t t' : SecretTable C} (h : t.createSecretVersion r = some t') :
    t'.rows = t.rows ++ [r] := by
  unfold createSecretVersion at h
  split at h
  · rw [← Option.some.inj h]
  · cases h

variable {t : SecretTable C}

lemma mem_listAllSecretVersions (h : r ∈ t.listAllSecretVersions) : r ∈ t.rows :=
  (perm_insertionSort _ _).mem_iff.mp (mem_of_mem_take h)

lemma mem_listAllSecretVersions_of_length (hlen : t.rows.length ≤ listLimit) (hr : r ∈ t.rows) :
    r ∈ t.listAllSecretVersions := by
  rw [listAllSecretVersions, take_of_length_le (by rwa [length_insertionSort])]
  exact (mem_insertionSort _).mpr hr

lemma listAllSecretVersions_eq_nil (h : t.listAllSecretVersions = []) : t.rows = [] := by
  have hsorted : t.rows.insertionSort listedBefore = [] := by
    simpa [listAllSecretVersions, listLimit] using h
  have hperm := perm_insertionSort listedBefore t.rows
  rw [hsorted] at hperm
  exact hperm.symm.eq_nil

lemma eq_of_id_eq {r' : SecretVersion C} (hr : r ∈ t.rows) (hr' : r' ∈ t.rows)
    (hid : r.id = r'.id) : r = r' :=
  inj_on_of_nodup_map t.id_nodup hr hr' hid

lemma mem_updateSecretVersionValue (hr : r ∈ t.rows) (id : String) (valueEnc : C) :
    updateRow id valueEnc r ∈ (t.updateSecretVersionValue id valueEnc).rows :=
  mem_map_of_mem hr

end SecretTable

/-!
# Backup records

`internal/db/backups.go` over the table `backups`. The type has no column, so a row that is read has
none.
-/

inductive BackupStatus
  | pending | completed | failed
  deriving DecidableEq

inductive BackupType
  | full | incremental
  deriving DecidableEq

structure ArchiveKey where
  (tenantID appID backupID : String)
  deriving DecidableEq

structure Backup where
  (id tenantID sourceID storageTarget : String)
  filePath : ArchiveKey
  /-- The hash of the payload. -/
  encryption : String
  status : BackupStatus
  backupType : Option BackupType
  createdAt : ℤ := 0
  deriving DecidableEq

/-- The key of the archive is the one of the row: the row is not metadata-only. -/
def Backup.Full (b : Backup) : Prop := b.filePath.backupID = b.id
  deriving Decidable

abbrev BackupTable := Table Backup.id

/-- What `CreateBackup` makes of its argument. -/
def Backup.inserted (b : Backup) (now : ℤ) : Backup := { b with backupType := none, createdAt := now }

variable (t : BackupTable)

/-- `CreateBackup`, unless the primary key refuses the id. -/
def createBackup (b : Backup) (now : ℤ) : Option BackupTable :=
  if hid : b.id ∈ t.rows.map Backup.id then none else some (t.insert (b.inserted now) hid)

/-- `ListBackupsByTenant`, from the offset 0: the newest backups of the tenant. -/
def listBackupsByTenant (tenantID : String) (limit : ℕ) : List Backup :=
  t.newest (·.tenantID = tenantID) Backup.createdAt limit

variable (status : BackupStatus)

def Backup.setStatus (tenantID : String) (row : Backup) : Backup :=
  if row.tenantID = tenantID then { row with status } else row

lemma Backup.setStatus_id (tenantID : String) (row : Backup) :
    (row.setStatus status tenantID).id = row.id := by
  unfold setStatus
  split <;> rfl

def updateBackupStatus (id : String) (status : BackupStatus) (tenantID : String) : BackupTable :=
  t.update id (·.setStatus status tenantID) (Backup.setStatus_id status tenantID)

/-- The rows are the same but for the status. -/
structure Backup.Same (b b' : Backup) : Prop where
  id : b'.id = b.id
  sourceID : b'.sourceID = b.sourceID
  storageTarget : b'.storageTarget = b.storageTarget
  filePath : b'.filePath = b.filePath
  encryption : b'.encryption = b.encryption
  backupType : b'.backupType = b.backupType
  createdAt : b'.createdAt = b.createdAt

lemma Backup.Same.refl (b : Backup) : b.Same b := ⟨rfl, rfl, rfl, rfl, rfl, rfl, rfl⟩

lemma Backup.Same.trans {b b' b'' : Backup} (h : b.Same b') (h' : b'.Same b'') : b.Same b'' where
  id := h'.id.trans h.id
  sourceID := h'.sourceID.trans h.sourceID
  storageTarget := h'.storageTarget.trans h.storageTarget
  filePath := h'.filePath.trans h.filePath
  encryption := h'.encryption.trans h.encryption
  backupType := h'.backupType.trans h.backupType
  createdAt := h'.createdAt.trans h.createdAt

lemma Backup.Same.full {b b' : Backup} (h : b.Same b') : b'.Full ↔ b.Full := by
  unfold Backup.Full
  rw [h.filePath, h.id]

lemma Backup.same_setStatus (tenantID : String) (row : Backup) :
    row.Same (row.setStatus status tenantID) := by
  unfold setStatus
  split
  · exact ⟨rfl, rfl, rfl, rfl, rfl, rfl, rfl⟩
  · exact .refl row

lemma createBackup_eq_some {t t' : BackupTable} {b : Backup} {now : ℤ}
    (h : createBackup t b now = some t') :
    b.id ∉ t.rows.map Backup.id ∧ t'.rows = t.rows ++ [b.inserted now] := by
  rw [createBackup, Option.dite_none_left_eq_some] at h
  obtain ⟨hid, h⟩ := h
  rw [← Option.some.inj h]
  exact ⟨hid, rfl⟩

variable {t : BackupTable} {id tenantID : String} {status : BackupStatus} {b : Backup}

/-- **An update writes the status of the row of the id, and nothing else.** -/
theorem mem_updateBackupStatus (hb : b ∈ (updateBackupStatus t id status tenantID).rows) :
    ∃ b0 ∈ t.rows, b0.Same b ∧
      (b = b0 ∨ b0.id = id ∧ b0.tenantID = tenantID ∧ b.status = status) := by
  rcases mem_update.mp hb with ⟨hb, -⟩ | ⟨b0, hb0, hid, rfl⟩
  · exact ⟨b, hb, .refl b, .inl rfl⟩
  refine ⟨b0, hb0, b0.same_setStatus status tenantID, ?_⟩
  by_cases htenant : b0.tenantID = tenantID
  · rw [Backup.setStatus, if_pos htenant]
    exact .inr ⟨hid, htenant, rfl⟩
  · rw [Backup.setStatus, if_neg htenant]
    exact .inl rfl

lemma exists_mem_updateBackupStatus (hb : b ∈ t.rows) :
    ∃ b' ∈ (updateBackupStatus t id status tenantID).rows, b.Same b' := by
  by_cases hid : b.id = id
  · exact ⟨_, mem_update.mpr (.inr ⟨b, hb, hid, rfl⟩), b.same_setStatus status tenantID⟩
  · exact ⟨b, mem_update.mpr (.inl ⟨hb, hid⟩), .refl b⟩

lemma status_updateBackupStatus (hb : b ∈ t.rows) (hid : b.id = id)
    (htenant : b.tenantID = tenantID) :
    { b with status } ∈ (updateBackupStatus t id status tenantID).rows := by
  refine mem_update.mpr (.inr ⟨b, hb, hid, ?_⟩)
  rw [Backup.setStatus, if_pos htenant]

/-!
# Users, members and invitations

The tables `users`, `team_members` and `invitations`, with the queries of `internal/db/users.go`,
`internal/db/setup.go` and `internal/db/invites.go`.
-/

structure UserRow where
  (id email passwordHash name : String)
  totpEnabled : Bool := false
  /-- The encrypted secret. -/
  totpSecret : String := ""
  /-- The hashes of the backup codes that are left. -/
  totpBackupCodes : List String := []

/-- A member that is active. -/
structure TeamMember where
  (userID tenantID roleID : String)

inductive InviteStatus
  | pending | accepted | other
  deriving DecidableEq

structure Invitation where
  (id tenantID email roleID tokenHash : String)
  expiresAt : ℤ
  status : InviteStatus

structure Accounts where
  users : Table UserRow.id
  members : List TeamMember
  invitations : Table Invitation.id

namespace Accounts

variable (db : Accounts)

def getUser (id : String) : Option UserRow := db.users.find? id

def getUserByEmail (email : String) : Option UserRow :=
  db.users.rows.find? (·.email = email)

def getUserMembership (userID : String) : Option TeamMember :=
  db.members.find? (·.userID = userID)

/-- `CreateUserWithMembership` with the id that is drawn; it and the address are unique. -/
def createUserWithMembership (id email passwordHash name tenantID roleID : String) :
    Option Accounts :=
  if h : id ∈ db.users.rows.map UserRow.id then none
  else if (db.getUserByEmail email).isSome then none
  else some
    { db with
      users := db.users.insert { id, email, passwordHash, name } h
      members := db.members ++ [⟨id, tenantID, roleID⟩] }

def updatePassword (userID passwordHash : String) : Accounts :=
  { db with
    users := db.users.update userID (fun u => { u with passwordHash := passwordHash }) fun _ => rfl }

def updateTOTPBackupCodes (userID : String) (hashes : List String) : Accounts :=
  { db with
    users := db.users.update userID (fun u => { u with totpBackupCodes := hashes }) fun _ => rfl }

def getInviteByTokenHash (tokenHash : String) : Option Invitation :=
  db.invitations.rows.find? (·.tokenHash = tokenHash)

/-- `AcceptInvite`: only a pending invitation is accepted. -/
def acceptInvite (id : String) : Option Accounts :=
  if (db.invitations.find? id).any (·.status = .pending) then
    some
      { db with
        invitations := db.invitations.update id (fun inv => { inv with status := .accepted })
          fun _ => rfl }
  else none

end Accounts

/-!
# What is read back of an application

The statements of `internal/db/apps.go` list their columns by hand. The fields of `core.Application`
are texts; the columns of the type, the source type and the status have `CHECK` constraints.
-/

open StepMachine

structure AppConfig where
  tenantID : String
  type : String := "service"
  sourceType : String := "git"
  sourceURL : String := ""
  branch : String := ""
  dockerfile : String := ""
  buildPack : String := ""
  envVarsEnc : String := ""
  labelsJSON : String := ""
  replicas : ℤ := 1
  port : ℤ := 0
  status : String := "pending"
  serverID : String := ""
  deriving DecidableEq

/-- `core.Application`, without the timestamps, which are not written. -/
structure AppValue where
  id : String
  projectID : String := ""
  name : String
  config : AppConfig
  deriving DecidableEq

def Application.config (a : Application) : AppConfig where
  tenantID := a.tenantID
  type := a.type.text
  sourceType := a.sourceType.text
  sourceURL := a.sourceURL
  branch := a.branch
  dockerfile := a.dockerfile
  buildPack := a.buildPack
  envVarsEnc := a.envVarsEnc
  labelsJSON := a.labelsJSON
  replicas := a.replicas
  port := a.port
  status := a.status.text
  serverID := a.serverID

def Application.value (a : Application) : AppValue where
  id := a.id
  projectID := a.projectID
  name := a.name
  config := a.config

/-- `GetApp` returns the configuration of the value. -/
def ReadsBack (t : AppTable) (v : AppValue) : Prop :=
  (getApp t v.id).map Application.config = some v.config
  deriving Decidable

/-! ## Writing values -/

/-- A `CHECK` constraint: the one of the allowed values that has this text. -/
def check {α : Type} (text : α → String) (allowed : List α) (s : String) : Option α :=
  allowed.find? (text · = s)

lemma text_of_check {α : Type} {text : α → String} {allowed : List α} {s : String} {a : α}
    (h : check text allowed s = some a) : text a = s := by
  have hfound := find?_some h
  exact of_decide_eq_true hfound

def AppType.check : String → Option AppType :=
  DB.check text [service, worker, static, database, cron, composeStack]

def SourceType.check : String → Option SourceType :=
  DB.check text [git, image, compose, dockerfile, marketplace]

def AppStatus.check : String → Option AppStatus :=
  DB.check text [pending, building, deploying, running, stopped, crashed, failed]

variable (v : AppValue) {now : ℤ}

namespace AppValue

/-- The value with the id that `CreateApp` draws when it has none. -/
def withID (generated : String) : AppValue :=
  if v.id = "" then { v with id := generated } else v

/-- The row of a value, if the constraints allow it. -/
def row? : Option Application := do
  let type ← AppType.check v.config.type
  let sourceType ← SourceType.check v.config.sourceType
  let status ← AppStatus.check v.config.status
  return {
    id := v.id, projectID := v.projectID, tenantID := v.config.tenantID, name := v.name, type,
    sourceType, sourceURL := v.config.sourceURL, branch := v.config.branch,
    dockerfile := v.config.dockerfile, buildPack := v.config.buildPack,
    envVarsEnc := v.config.envVarsEnc, labelsJSON := v.config.labelsJSON,
    replicas := v.config.replicas, port := v.config.port, status, serverID := v.config.serverID }

def create (t : AppTable) (generated : String) (now : ℤ) : Option AppTable :=
  (v.withID generated).row?.bind fun a => createApp t a now

def onto (status : AppStatus) (row : Application) : Application :=
  { row with
    name := v.name, sourceURL := v.config.sourceURL, branch := v.config.branch,
    dockerfile := v.config.dockerfile, envVarsEnc := v.config.envVarsEnc,
    labelsJSON := v.config.labelsJSON, replicas := v.config.replicas, status,
    serverID := v.config.serverID }

/-- `UpdateApp`. Without a row there is nothing to check, and nothing is written. -/
def update (t : AppTable) (now : ℤ) : Option AppTable :=
  match getApp t v.id with
  | none => some t
  | some row => (AppStatus.check v.config.status).map fun status =>
    updateApp t (v.onto status row) now

variable (generated : String)

lemma withID_config : (v.withID generated).config = v.config := by
  unfold withID
  split <;> rfl

lemma withID_name : (v.withID generated).name = v.name := by
  unfold withID
  split <;> rfl

lemma of_row?_eq_some {v : AppValue} {a : Application} (h : v.row? = some a) :
    a.id = v.id ∧ a.name = v.name ∧ a.config = v.config := by
  simp only [row?, bind_eq_bind, bind_eq_some_iff, Option.pure_def,
    some.injEq] at h
  obtain ⟨type, htype, sourceType, hsource, status, hstatus, rfl⟩ := h
  have htype := text_of_check htype
  have hsource := text_of_check hsource
  have hstatus := text_of_check hstatus
  exact ⟨rfl, rfl, by simp only [Application.config, htype, hsource, hstatus]⟩

lemma rows_of_create {v : AppValue} {t t' : AppTable} {generated : String}
    (h : v.create t generated now = some t') :
    ∃ row, t'.rows = t.rows ++ [row] ∧ row.tenantID = v.config.tenantID ∧ row.name = v.name := by
  obtain ⟨a, hrow, hcreate⟩ := bind_eq_some_iff.mp h
  obtain ⟨-, hname, hconfig⟩ := of_row?_eq_some hrow
  rw [v.withID_name] at hname
  rw [v.withID_config] at hconfig
  rw [createApp, dite_none_left_eq_some] at hcreate
  obtain ⟨hid, hcreate⟩ := hcreate
  refine ⟨_, congrArg Table.rows (some.inj hcreate).symm, ?_, hname⟩
  exact congrArg AppConfig.tenantID hconfig

end AppValue

inductive AppEvent
  | create (v : AppValue) (generated : String) (now : ℤ)
  | update (v : AppValue) (now : ℤ)
  | updateStatus (id : String) (status : AppStatus) (tenantID : String) (now : ℤ)
  | delete (id tenantID : String)

/-- A statement; one that fails changes nothing. -/
def appStep (t : AppTable) : AppEvent → Option AppTable
  | .create v generated now => some ((v.create t generated now).getD t)
  | .update v now => some ((v.update t now).getD t)
  | .updateStatus id status tenantID now => some (updateAppStatus t id status tenantID now)
  | .delete id tenantID => some (deleteApp t id tenantID)

def NoPorts (t : AppTable) : Prop := ∀ row ∈ t.rows, row.port = 0

variable {t t' : AppTable}

lemma NoPorts.createApp {a : Application} (h : NoPorts t)
    (hcreate : createApp t a now = some t') : NoPorts t' := by
  rw [DB.createApp, dite_none_left_eq_some] at hcreate
  obtain ⟨hid, hcreate⟩ := hcreate
  rw [← some.inj hcreate]
  exact forall_mem_append.mpr ⟨h, forall_mem_singleton.mpr rfl⟩

lemma NoPorts.update (h : NoPorts t) {id : String} {f : Application → Application}
    {hf : ∀ row, (f row).id = row.id} (hport : ∀ row, (f row).port = row.port) :
    NoPorts (t.update id f hf) := by
  refine forall_mem_map.mpr fun row hrow => ?_
  split
  · rw [hport, h row hrow]
  · exact h row hrow

lemma NoPorts.updateApp (h : NoPorts t) (a : Application) (now : ℤ) :
    NoPorts (updateApp t a now) :=
  h.update fun _ => rfl

lemma noPorts_step {e : AppEvent} (h : NoPorts t) (hstep : appStep t e = some t') :
    NoPorts t' := by
  cases e with
  | create v generated now =>
    cases hstep
    cases hcreate : v.create t generated now with
    | none => exact h
    | some t' =>
      obtain ⟨a, -, ha⟩ := bind_eq_some_iff.mp hcreate
      exact h.createApp ha
  | update v now =>
    cases hstep
    unfold AppValue.update
    split
    · exact h
    · cases AppStatus.check v.config.status with
      | none => exact h
      | some status => exact h.updateApp _ now
  | updateStatus id status tenantID now =>
    cases hstep
    refine h.update fun row => ?_
    unfold Application.setStatus
    split <;> rfl
  | delete id tenantID =>
    cases hstep
    exact fun row hrow => h row (mem_of_mem_filter hrow)

variable {events : List AppEvent}

lemma port_of_run (hrun : run appStep .empty events = some t)
    {id : String} {row : Application} (hrow : getApp t id = some row) : row.port = 0 := by
  have hports : NoPorts t :=
    invariant_of_run (fun _ _ _ h hstep => noPorts_step h hstep)
      (fun _ h => absurd h not_mem_nil) hrun
  exact hports row (Table.find?_eq_some_iff.mp hrow).1

/-- **What is created is read back when it has no port.** -/
theorem create_readsBack_iff {v : AppValue} {generated : String}
    (h : v.create t generated now = some t') :
    ReadsBack t' (v.withID generated) ↔ v.config.port = 0 := by
  obtain ⟨a, hrow, hcreate⟩ := bind_eq_some_iff.mp h
  obtain ⟨hid, -, hconfig⟩ := AppValue.of_row?_eq_some hrow
  rw [v.withID_config] at hconfig
  have hread : (getApp t' a.id).map Application.config = some { a.config with port := 0 } := by
    rw [getApp_createApp_self hcreate]
    rfl
  rw [ReadsBack, ← hid, hread, v.withID_config, hconfig, some.injEq]
  constructor
  · intro h
    exact (congrArg AppConfig.port h).symm
  · intro h
    rw [← h]

/-- The row has what `UpdateApp` does not write. -/
def AppValue.Matches (row : Application) : Prop :=
  v.config.port = 0 ∧ v.config.tenantID = row.tenantID ∧ v.config.type = row.type.text ∧
    v.config.sourceType = row.sourceType.text ∧ v.config.buildPack = row.buildPack
  deriving Decidable

/-- **What is updated is read back when there is a row**, and the row has what `UpdateApp` does not
write. -/
theorem update_readsBack_iff
    (hrun : run appStep .empty events = some t) {v : AppValue} (h : v.update t now = some t') :
    ReadsBack t' v ↔ ∃ row, getApp t v.id = some row ∧ v.Matches row := by
  unfold AppValue.update at h
  cases hrow : getApp t v.id with
  | none =>
    rw [hrow] at h
    cases h
    simp [ReadsBack, hrow]
  | some row =>
    rw [hrow] at h
    obtain ⟨status, hstatus, rfl⟩ := map_eq_some_iff.mp h
    have hstatus := text_of_check hstatus
    have hport := port_of_run hrun hrow
    have hid : v.id = (v.onto status row).id := (Table.find?_eq_some_iff.mp hrow).2.symm
    rw [ReadsBack, getApp_updateApp, hrow, map_some, if_pos hid, map_some, some.injEq]
    simp only [exists_eq_left', AppValue.Matches, some.injEq]
    constructor
    · intro h
      rw [← h]
      exact ⟨hport, rfl, rfl, rfl, rfl⟩
    · rintro ⟨hzero, htenant, htype, hsource, hpack⟩
      simp only [Application.config, Application.write, AppValue.onto, hstatus, hport, ← hzero,
        ← htenant, ← htype, ← hsource, ← hpack]

end DeployMonster.DB
