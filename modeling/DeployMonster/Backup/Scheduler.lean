import DeployMonster.DB.Tables
import DeployMonster.Library.Program

/-!
# What the backup engine acts on

The store and the storage targets of `internal/backup`, as the scheduler and the module call them. A
call that fails changes nothing.
-/

namespace DeployMonster.Backup

open DB Clock Program List

/-- What `encoding/json` keeps of an application: the environment variables have the tag `-`. -/
def payload (a : Application) : Application := { a with envVarsEnc := "" }

/-- A file of a storage target. -/
structure Archive where
  storage : String
  key : ArchiveKey
  content : Application
  modTime : ℤ

/-- `core.BackupEntry`, with the Unix time of the file. -/
structure BackupEntry where
  key : ArchiveKey
  createdAt : ℤ

def Archive.entry (x : Archive) : BackupEntry := ⟨x.key, unix x.modTime⟩

def Archive.at (storage : String) (key : ArchiveKey) (x : Archive) : Bool :=
  x.storage = storage ∧ x.key = key

lemma Archive.at_iff {storage : String} {key : ArchiveKey} {x : Archive} :
    x.at storage key = true ↔ x.storage = storage ∧ x.key = key := decide_eq_true_iff

structure BackupWorld where
  now : ℤ
  /-- The names of the registered targets. -/
  storages : List String
  /-- The ids of the tenants, the newest first. -/
  tenants : List String
  apps : AppTable
  backups : BackupTable
  archives : List Archive

inductive BackupCall
  | now
  /-- `ctx.Err`. -/
  | canceled
  | generateID | pickStorage
  | hasStorage (name : String)
  | listAllTenants (limit offset : ℕ)
  | listAppsByTenant (tenantID : String) (limit offset : ℕ)
  | createApp (app : Application)
  | updateApp (app : Application)
  | listBackupsByTenant (tenantID : String) (limit : ℕ)
  | createBackup (backup : Backup)
  | updateBackupStatus (id : String) (status : BackupStatus) (tenantID : String)
  | upload (storage : String) (key : ArchiveKey) (content : Application)
  | download (storage : String) (key : ArchiveKey)
  | list (storage tenantID : String)
  | delete (storage : String) (key : ArchiveKey)
  deriving DecidableEq

@[reducible] def BackupAnswer : BackupCall → Type
  | .now => ℤ
  | .canceled | .hasStorage _ => Bool
  | .generateID => String
  | .pickStorage => Option String
  | .listAllTenants _ _ => Except String (List String)
  | .listAppsByTenant _ _ _ => Except String (List Application)
  | .listBackupsByTenant _ _ => Except String (List Backup)
  | .download _ _ => Except String Application
  | .list _ _ => Except String (List BackupEntry)
  | .createApp _ | .updateApp _ | .createBackup _ | .updateBackupStatus _ _ _ | .upload _ _ _
  | .delete _ _ => Except String Unit

/-- What the environment decides at a call: the time passed, the error, whether the scheduler shuts
down, which target the iteration over the map meets first, and the generated id. -/
structure BackupChoice where
  elapsed : ℕ := 0
  fails : Option String := none
  canceled : Bool := false
  storage : String := ""
  id : String := ""

variable (w : BackupWorld)

def BackupWorld.wait (elapsed : ℕ) : BackupWorld := { w with now := w.now + elapsed }

def BackupWorld.upload (storage : String) (key : ArchiveKey)
    (content : Application) : BackupWorld :=
  { w with archives := w.archives.filter (! ·.at storage key) ++ [⟨storage, key, content, w.now⟩] }

def BackupWorld.delete (storage : String) (key : ArchiveKey) : BackupWorld :=
  { w with archives := w.archives.filter (! ·.at storage key) }

def BackupWorld.list (storage tenantID : String) : List BackupEntry :=
  ((w.archives.filter fun x => x.storage = storage ∧ x.key.tenantID = tenantID).map
    Archive.entry).insertionSort fun e e' => e'.createdAt ≤ e.createdAt

def backupExec : (c : BackupCall) → BackupWorld → BackupChoice → Option (BackupAnswer c × BackupWorld)
  | .now, w, o => some ((w.wait o.elapsed).now, w.wait o.elapsed)
  | .canceled, w, o => some (o.canceled, w.wait o.elapsed)
  | .generateID, w, o => some (o.id, w.wait o.elapsed)
  | .pickStorage, w, o =>
    some (if o.storage ∈ w.storages then some o.storage else w.storages.head?, w.wait o.elapsed)
  | .hasStorage name, w, o => some (decide (name ∈ w.storages), w.wait o.elapsed)
  | .listAllTenants limit offset, w, o =>
    let w := w.wait o.elapsed
    attempt o.fails w ((w.tenants.drop offset).take limit) w
  | .listAppsByTenant tenantID limit offset, w, o =>
    let w := w.wait o.elapsed
    attempt o.fails w (DB.listAppsByTenant w.apps tenantID limit offset) w
  | .createApp app, w, o =>
    let w := w.wait o.elapsed
    match DB.createApp w.apps app w.now with
    | none => some (.error "UNIQUE constraint failed", w)
    | some apps => attempt o.fails w () { w with apps }
  | .updateApp app, w, o =>
    let w := w.wait o.elapsed
    attempt o.fails w () { w with apps := DB.updateApp w.apps app w.now }
  | .listBackupsByTenant tenantID limit, w, o =>
    let w := w.wait o.elapsed
    attempt o.fails w (DB.listBackupsByTenant w.backups tenantID limit) w
  | .createBackup backup, w, o =>
    let w := w.wait o.elapsed
    match DB.createBackup w.backups backup w.now with
    | none => some (.error "UNIQUE constraint failed", w)
    | some backups => attempt o.fails w () { w with backups }
  | .updateBackupStatus id status tenantID, w, o =>
    let w := w.wait o.elapsed
    attempt o.fails w () { w with backups := DB.updateBackupStatus w.backups id status tenantID }
  | .upload storage key content, w, o =>
    let w := w.wait o.elapsed
    attempt o.fails w () (w.upload storage key content)
  | .download storage key, w, o =>
    let w := w.wait o.elapsed
    match w.archives.find? (·.at storage key) with
    | none => some (.error "open backup: no such file or directory", w)
    | some x => attempt o.fails w x.content w
  | .list storage tenantID, w, o =>
    let w := w.wait o.elapsed
    attempt o.fails w (w.list storage tenantID) w
  | .delete storage key, w, o =>
    let w := w.wait o.elapsed
    attempt o.fails w () (w.delete storage key)

abbrev BackupM := Prog BackupCall BackupAnswer

def call (c : BackupCall) : BackupM (BackupAnswer c) := Prog.perform c

lemma wp_call_bind {α : Type} {c : BackupCall} {f : BackupAnswer c → BackupM α}
    {Q : α → BackupWorld → Prop} {w : BackupWorld} : Wp backupExec (call c >>= f) Q w ↔
      ∀ o r w', backupExec c w o = some (r, w') → Wp backupExec (f r) Q w' := Iff.rfl

/-! ## What a call does -/

def BackupCall.reads : BackupCall → Bool
  | .createBackup _ | .updateBackupStatus _ _ _ | .upload _ _ _ | .delete _ _ => false
  | _ => true

def Effect (w w' : BackupWorld) : (c : BackupCall) → BackupAnswer c → Prop
  | .createBackup b, .ok () => b.id ∉ w.backups.rows.map Backup.id ∧
      w'.backups.rows = w.backups.rows ++ [b.inserted w'.now] ∧ w'.archives = w.archives
  | .updateBackupStatus id status tenantID, .ok () =>
      w'.backups = DB.updateBackupStatus w.backups id status tenantID ∧ w'.archives = w.archives
  | .upload storage key content, .ok () => w'.backups = w.backups ∧
      w'.archives = w.archives.filter (! ·.at storage key) ++ [⟨storage, key, content, w'.now⟩]
  | .delete storage key, .ok () => w'.backups = w.backups ∧
      w'.archives = w.archives.filter (! ·.at storage key)
  | _, _ => w'.backups = w.backups ∧ w'.archives = w.archives

def Answered : (c : BackupCall) → BackupAnswer c → Prop
  | .now, now => now = w.now
  | .listAppsByTenant tenantID limit offset, .ok apps =>
    apps = DB.listAppsByTenant w.apps tenantID limit offset
  | .listBackupsByTenant _ _, .ok backups => ∀ b ∈ backups, b ∈ w.backups.rows
  | .list storage _, .ok entries => ∀ e ∈ entries, ∃ x ∈ w.archives, x.storage = storage ∧ x.entry = e
  | .download storage key, .ok content =>
    ∃ x ∈ w.archives, x.at storage key = true ∧ x.content = content
  | _, _ => True

def BackupCall.writesApps : BackupCall → Bool
  | .createApp _ | .updateApp _ => true
  | _ => false

/-- The time passes, and the table of applications changes only where the call says so. -/
structure Framed (o : BackupChoice) (c : BackupCall) (w w' : BackupWorld) : Prop where
  now : w'.now = w.now + o.elapsed
  apps : c.writesApps = false → w'.apps = w.apps

variable {w w' : BackupWorld} {o : BackupChoice} {c : BackupCall} {r : BackupAnswer c}

lemma step_backupExec (h : backupExec c w o = some (r, w')) :
    Effect w w' c r ∧ Framed o c w w' := by
  cases c with
  | now | canceled | generateID | pickStorage | hasStorage =>
    cases h
    exact ⟨⟨rfl, rfl⟩, rfl, fun _ => rfl⟩
  | createApp | download =>
    simp only [backupExec] at h
    split at h
    · cases h
      exact ⟨⟨rfl, rfl⟩, rfl, fun _ => rfl⟩
    · rcases attempt_eq_some h with ⟨-, -, -, rfl⟩ | ⟨-, -, rfl⟩ <;>
        exact ⟨⟨rfl, rfl⟩, rfl, fun hc => by cases hc <;> rfl⟩
  | createBackup =>
    simp only [backupExec] at h
    split at h
    case h_1 =>
      cases h
      exact ⟨⟨rfl, rfl⟩, rfl, fun _ => rfl⟩
    case h_2 t ht =>
      rcases attempt_eq_some h with ⟨-, -, rfl, rfl⟩ | ⟨-, rfl, rfl⟩
      · exact ⟨⟨rfl, rfl⟩, rfl, fun _ => rfl⟩
      · obtain ⟨hfresh, hrows⟩ := createBackup_eq_some ht
        exact ⟨⟨hfresh, hrows, rfl⟩, rfl, fun _ => rfl⟩
  | _ =>
    rcases attempt_eq_some h with ⟨-, -, rfl, rfl⟩ | ⟨-, rfl, rfl⟩ <;>
      exact ⟨⟨rfl, rfl⟩, rfl, fun hc => by cases hc <;> rfl⟩

lemma Effect.of_reads (hc : c.reads = true) (h : Effect w w' c r) :
    w'.backups = w.backups ∧ w'.archives = w.archives := by
  cases c with
  | createBackup | updateBackupStatus | upload | delete => cases hc
  | _ => exact h

lemma Effect.row (h : Effect w w' c r) {b : Backup} (hb : b ∈ w'.backups.rows) :
    (∃ b0 ∈ w.backups.rows, b0.Same b) ∨ ∃ b0, c = .createBackup b0 ∧ b = b0.inserted w'.now := by
  have hsame : w'.backups = w.backups → ∃ b0 ∈ w.backups.rows, b0.Same b :=
    fun hbackups => ⟨b, hbackups ▸ hb, .refl b⟩
  cases c with
  | createBackup b0 =>
    cases r with
    | error => exact .inl (hsame h.1)
    | ok =>
      rw [h.2.1, mem_append, mem_singleton] at hb
      rcases hb with hb | hb
      · exact .inl ⟨b, hb, .refl b⟩
      · exact .inr ⟨b0, rfl, hb⟩
  | updateBackupStatus =>
    cases r with
    | error => exact .inl (hsame h.1)
    | ok =>
      rw [h.1] at hb
      obtain ⟨b0, hb0, hsame, -⟩ := mem_updateBackupStatus hb
      exact .inl ⟨b0, hb0, hsame⟩
  | upload | delete =>
    cases r with
    | error | ok => exact .inl (hsame h.1)
  | _ => exact .inl (hsame h.1)

lemma answered_of_backupExec (h : backupExec c w o = some (r, w')) : Answered w' c r := by
  cases c with
  | now =>
    cases h
    exact rfl
  | listAppsByTenant =>
    rcases attempt_eq_some h with ⟨-, -, rfl, rfl⟩ | ⟨-, rfl, rfl⟩
    · trivial
    · exact rfl
  | listBackupsByTenant =>
    rcases attempt_eq_some h with ⟨-, -, rfl, rfl⟩ | ⟨-, rfl, rfl⟩
    · trivial
    · exact fun b hb => (Table.mem_of_mem_newest hb).1
  | list =>
    rcases attempt_eq_some h with ⟨-, -, rfl, rfl⟩ | ⟨-, rfl, rfl⟩
    · trivial
    intro e he
    obtain ⟨x, hx, rfl⟩ := mem_map.mp ((mem_insertionSort _).mp he)
    obtain ⟨hmem, hx⟩ := mem_filter.mp hx
    exact ⟨x, hmem, (of_decide_eq_true hx).1, rfl⟩
  | download =>
    simp only [backupExec] at h
    split at h
    case h_1 =>
      cases h
      trivial
    case h_2 x hx =>
      rcases attempt_eq_some h with ⟨-, -, rfl, rfl⟩ | ⟨-, rfl, rfl⟩
      · trivial
      · exact ⟨x, mem_of_find?_eq_some hx, find?_some hx, rfl⟩
  | _ => trivial

/-!
# The backup scheduler

The sweep of `internal/backup/scheduler.go`. `TriggerNow` runs a sweep beside the daily ones, so
sweeps may overlap. The loops over the pages of a query take the number of pages they go on for; the
hash of a payload is a parameter.
-/

/-! ## The sweep -/

/-- `findLastBackupForApp`: the last backup of the tenant, if it is a completed one of the
application. -/
def findLastBackupForApp (tenantID appID : String) : BackupM (Option Backup) := do
  match ← call (.listBackupsByTenant tenantID 1) with
  | .error _ => return none
  | .ok backups => return backups.find? fun b => b.sourceID = appID ∧ b.status = .completed

def markFailed (backupID tenantID : String) : BackupM Unit := do
  let _ ← call (.updateBackupStatus backupID .failed tenantID)

/-- `backupApp`, once the payload is stored. -/
def completeBackup (b : Backup) : BackupM Bool := do
  let _ ← call (.updateBackupStatus b.id .completed b.tenantID)
  return true

/-- `backupApp`, of a payload that has changed. -/
def fullBackup (b : Backup) (content : Application) : BackupM Bool := do
  match ← call (.createBackup b) with
  | .error _ => return false
  | .ok () =>
    match ← call (.upload b.storageTarget b.filePath content) with
    | .error _ =>
      markFailed b.id b.tenantID
      return false
    | .ok () => completeBackup b

/-- `backupApp`, of a payload that the last backup has: nothing is uploaded. -/
def incrementalBackup (b : Backup) : BackupM Bool := do
  match ← call (.createBackup b) with
  | .error _ => return false
  | .ok () => completeBackup b

variable (hash : Application → String)

def backupRow (tenantID : String) (app : Application)
    (storage backupID : String) (key : ArchiveKey) (backupType : BackupType) : Backup where
  id := backupID
  tenantID := tenantID
  sourceID := app.id
  storageTarget := storage
  filePath := key
  encryption := hash (payload app)
  status := .pending
  backupType := some backupType

def backupApp (tenantID : String) (app : Application) (storage : String) : BackupM Bool := do
  let backupID ← call .generateID
  let row := backupRow hash tenantID app storage backupID
  match ← findLastBackupForApp tenantID app.id with
  | some last =>
    if last.encryption = hash (payload app) then incrementalBackup (row last.filePath .incremental)
    else fullBackup (row ⟨tenantID, app.id, backupID⟩ .full) (payload app)
  | none => fullBackup (row ⟨tenantID, app.id, backupID⟩ .full) (payload app)

/-- The loop of `CleanupOldBackups`: how many archives it has deleted. -/
def deleteOld (storage : String) (cutoff : ℤ) : List BackupEntry → BackupM ℕ
  | [] => return 0
  | e :: es => do
    if e.createdAt < cutoff then
      match ← call (.delete storage e.key) with
      | .error _ => deleteOld storage cutoff es
      | .ok () => return (← deleteOld storage cutoff es) + 1
    else deleteOld storage cutoff es

def retentionDays : ℤ := 30

/-- `CleanupOldBackups`, under the prefix of the tenant. -/
def cleanupOldBackups (storage tenantID : String) : BackupM (Except String ℕ) := do
  match ← call (.list storage tenantID) with
  | .error e => return .error ("list backups: " ++ e)
  | .ok entries =>
    let now ← call .now
    let deleted ← deleteOld storage (unix (now - retentionDays * day)) entries
    return .ok deleted

def pageSize : ℕ := 500

/-- The applications of a page; `false` when the run is canceled. -/
def backupApps (tenantID storage : String) : List Application → BackupM Bool
  | [] => return true
  | app :: apps => do
    if ← call .canceled then return false
    else
      let _ ← backupApp hash tenantID app storage
      backupApps tenantID storage apps

/-- The pages of the applications, from the offset on; `false` when the run is canceled or the query
fails. -/
def backupPages (tenantID storage : String) (offset : ℕ) : ℕ → BackupM Bool
  | 0 => return true
  | pages + 1 => do
    if ← call .canceled then return false
    else
      match ← call (.listAppsByTenant tenantID pageSize offset) with
      | .error _ => return false
      | .ok apps =>
        if apps = [] then return true
        else if ← backupApps hash tenantID storage apps then
          if apps.length < pageSize then return true
          else backupPages tenantID storage (offset + apps.length) pages
        else return false

def backupTenant (pages : ℕ) (tenantID storage : String) : BackupM Unit := do
  if ← backupPages hash tenantID storage 0 pages then
    let _ ← cleanupOldBackups storage tenantID

/-- The tenants of a page; `false` when the run is canceled. -/
def backupTenants (pages : ℕ) (storage : String) : List String → BackupM Bool
  | [] => return true
  | tenantID :: tenants => do
    if ← call .canceled then return false
    else
      backupTenant hash pages tenantID storage
      backupTenants pages storage tenants

def tenantPages (pages : ℕ) (storage : String) (offset : ℕ) : ℕ → BackupM Unit
  | 0 => return
  | n + 1 => do
    if ← call .canceled then return
    else
      match ← call (.listAllTenants pageSize offset) with
      | .error _ => return
      | .ok tenants =>
        if tenants = [] then return
        else if ← backupTenants hash pages storage tenants then
          if tenants.length < pageSize then return
          else tenantPages pages storage (offset + tenants.length) n

def runBackups (pages : ℕ) : BackupM Unit := do
  if ← call .canceled then return
  else
    match ← call .pickStorage with
    | none => return
    | some storage => tenantPages hash pages storage 0 pages

/-- What a property of programs has to be closed under to hold of a sweep; `P` is what it needs to
know about the applications that are listed. -/
structure SweepRules (hash : Application → String) (P : Application → Prop)
    (Φ : ∀ {α}, BackupM α → Prop) : Prop where
  ret {α : Type} (a : α) : Φ (.ret a)
  bind {α β : Type} {p : BackupM α} {f : α → BackupM β} (hp : Φ p) (hf : ∀ a, Φ (f a)) :
    Φ (p >>= f)
  read {α : Type} {c : BackupCall} {f : BackupAnswer c → BackupM α} (hc : c.reads = true)
    (happs : c.writesApps = false) (hf : ∀ r, Φ (f r)) : Φ (call c >>= f)
  list {α : Type} {tenantID : String} {limit offset : ℕ}
    {f : Except String (List Application) → BackupM α} (herror : ∀ e, Φ (f (.error e)))
    (hok : ∀ apps, (∀ app ∈ apps, P app) → Φ (f (.ok apps))) :
    Φ (call (.listAppsByTenant tenantID limit offset) >>= f)
  backupApp (tenantID : String) {app : Application} (storage : String) (happ : P app) :
    Φ (backupApp hash tenantID app storage)
  cleanup (storage tenantID : String) : Φ (cleanupOldBackups storage tenantID)

namespace SweepRules

variable {hash : Application → String} {P : Application → Prop} {Φ : ∀ {α}, BackupM α → Prop}
  (h : SweepRules hash P Φ)

include h

lemma backupApps {apps : List Application} (happs : ∀ app ∈ apps, P app)
    (tenantID storage : String) : Φ (backupApps hash tenantID storage apps) := by
  induction apps with
  | nil => exact h.ret true
  | cons app apps ih =>
    refine h.read rfl rfl fun canceled => ?_
    split
    · exact h.ret false
    · refine h.bind (h.backupApp tenantID storage (happs app (mem_cons_self ..))) fun _ => ?_
      exact ih fun app' happ' => happs app' (mem_cons_of_mem _ happ')

lemma backupPages (tenantID storage : String) (offset pages : ℕ) :
    Φ (backupPages hash tenantID storage offset pages) := by
  induction pages generalizing offset with
  | zero => exact h.ret true
  | succ pages ih =>
    refine h.read rfl rfl fun canceled => ?_
    split
    · exact h.ret false
    refine h.list (fun _ => h.ret false) fun apps happs => ?_
    dsimp only
    split
    · exact h.ret true
    refine h.bind (h.backupApps happs tenantID storage) fun ok => ?_
    split
    · split
      · exact h.ret true
      · exact ih _
    · exact h.ret false

variable (pages : ℕ)

lemma backupTenant (tenantID storage : String) :
    Φ (backupTenant hash pages tenantID storage) := by
  refine h.bind (h.backupPages tenantID storage 0 pages) fun ok => ?_
  split
  · exact h.bind (h.cleanup storage tenantID) fun _ => h.ret ()
  · exact h.ret ()

lemma backupTenants (storage : String) (tenants : List String) :
    Φ (backupTenants hash pages storage tenants) := by
  induction tenants with
  | nil => exact h.ret true
  | cons tenantID tenants ih =>
    refine h.read rfl rfl fun canceled => ?_
    split
    · exact h.ret false
    · exact h.bind (h.backupTenant pages tenantID storage) fun _ => ih

lemma tenantPages (storage : String) (offset n : ℕ) :
    Φ (tenantPages hash pages storage offset n) := by
  induction n generalizing offset with
  | zero => exact h.ret ()
  | succ n ih =>
    refine h.read rfl rfl fun canceled => ?_
    split
    · exact h.ret ()
    refine h.read rfl rfl fun tenants => ?_
    cases tenants with
    | error e => exact h.ret ()
    | ok tenants =>
      dsimp only
      split
      · exact h.ret ()
      refine h.bind (h.backupTenants pages storage tenants) fun ok => ?_
      split
      · split
        · exact h.ret ()
        · exact ih _
      · exact h.ret ()

/-- **A property that is closed under the rules holds of a sweep.** -/
theorem runBackups : Φ (runBackups hash pages) := by
  refine h.read rfl rfl fun canceled => ?_
  split
  · exact h.ret ()
  refine h.read rfl rfl fun storage => ?_
  cases storage with
  | none => exact h.ret ()
  | some storage => exact h.tenantPages pages storage 0 pages

end SweepRules

inductive BackupAction
  | call (sweep : ℕ) (o : BackupChoice)
  /-- Applications are created, changed or deleted. -/
  | edit (elapsed : ℕ) (apps : AppTable)

def backupStep (s : BackupWorld × List (BackupM Unit)) :
    BackupAction → Option (BackupWorld × List (BackupM Unit))
  | .call sweep o => poolStep backupExec s (sweep, o)
  | .edit elapsed apps => some ({ s.1.wait elapsed with apps }, s.2)

/-! ## The protocol of a sweep -/

/-- What a sweep is about. -/
inductive Stage
  | idle
  /-- It has listed backups, and is about to create a row. -/
  | listed (backups : List Backup)
  | created (b : Backup)
  /-- It has uploaded the archive, and is about to complete the row. -/
  | uploaded (b : Backup)
  /-- It has created a row that points at the archive of another one, and is about to complete it.
  -/
  | pointed (b : Backup)
  /-- It has listed the archives of a tenant. -/
  | swept (storage : String) (entries : List BackupEntry)
  /-- It deletes those of them that are older than the cutoff. -/
  | pruning (storage : String) (entries : List BackupEntry) (cutoff : ℤ)

def found : Except String (List Backup) → List Backup
  | .error _ => []
  | .ok backups => backups

/-- How the calls of a sweep lead from one stage to the next. -/
inductive Next (hash : Application → String) : Stage → (c : BackupCall) → BackupAnswer c → Stage → Prop
  | read {g : Stage} {c : BackupCall} {r : BackupAnswer c} (hc : c.reads = true) :
      Next hash g c r .idle
  | list {g : Stage} {tenantID : String} {limit : ℕ} {r : Except String (List Backup)} :
      Next hash g (.listBackupsByTenant tenantID limit) r (.listed (found r))
  | refused {g : Stage} {b : Backup} {e : String} (hpending : b.status = .pending) :
      Next hash g (.createBackup b) (.error e) .idle
  | create {backups : List Backup} {b : Backup} (hb : b.Full) (hpending : b.status = .pending) :
      Next hash (.listed backups) (.createBackup b) (.ok ()) (.created b)
  | point {backups : List Backup} {last b : Backup} (hlast : last ∈ backups)
      (hpath : b.filePath = last.filePath) (hhash : b.encryption = last.encryption)
      (hpending : b.status = .pending) :
      Next hash (.listed backups) (.createBackup b) (.ok ()) (.pointed b)
  | upload {b : Backup} {content : Application} (hhash : b.encryption = hash content) :
      Next hash (.created b) (.upload b.storageTarget b.filePath content) (.ok ()) (.uploaded b)
  | notUploaded {g : Stage} {storage : String} {key : ArchiveKey} {content : Application}
      {e : String} : Next hash g (.upload storage key content) (.error e) .idle
  | fail {g : Stage} {id tenantID : String} {r : Except String Unit} :
      Next hash g (.updateBackupStatus id .failed tenantID) r .idle
  | complete {g : Stage} {b : Backup} {r : Except String Unit} (hg : g = .uploaded b ∨ g = .pointed b) :
      Next hash g (.updateBackupStatus b.id .completed b.tenantID) r .idle
  | sweep {g : Stage} {storage tenantID : String} {entries : List BackupEntry} :
      Next hash g (.list storage tenantID) (.ok entries) (.swept storage entries)
  | cutoff {storage : String} {entries : List BackupEntry} {now : ℤ} :
      Next hash (.swept storage entries) .now now
        (.pruning storage entries (unix (now - retentionDays * day)))
  | delete {storage : String} {entries : List BackupEntry} {cutoff : ℤ} {e : BackupEntry}
      {r : Except String Unit} (he : e ∈ entries) (hold : e.createdAt < cutoff) :
      Next hash (.pruning storage entries cutoff) (.delete storage e.key) r
        (.pruning storage entries cutoff)

variable {b : Backup}

lemma Next.pending {hash : Application → String} {g g' : Stage} {c : BackupCall}
    {r : BackupAnswer c} (h : Next hash g c r g') (hc : c = .createBackup b) :
    b.status = .pending := by
  cases h with
  | read hreads =>
    rw [hc] at hreads
    cases hreads
  | refused hpending | create _ hpending | point _ _ _ hpending =>
    rw [← BackupCall.createBackup.inj hc]
    exact hpending
  | _ => cases hc

def Sweeps {α : Type} (p : BackupM α) (g : Stage) : Prop :=
  Follows (Next hash) (fun _ _ => True) p g

variable {hash : Application → String} {α β : Type} {g : Stage}

lemma Sweeps.ret (a : α) : Sweeps hash (.ret a) g := trivial

lemma Sweeps.bind {p : BackupM α} {f : α → BackupM β} (hp : Sweeps hash p g)
    (hf : ∀ g a, Sweeps hash (f a) g) : Sweeps hash (p >>= f) g :=
  Follows.bind hp fun g a _ => hf g a

lemma Sweeps.read {c : BackupCall} {f : BackupAnswer c → BackupM α} (hc : c.reads = true)
    (hf : ∀ r, Sweeps hash (f r) .idle) : Sweeps hash (call c >>= f) g :=
  fun r => ⟨.idle, .read hc, hf r⟩

lemma completeBackup_follows (hg : g = .uploaded b ∨ g = .pointed b) :
    Sweeps hash (completeBackup b) g :=
  fun _ => ⟨.idle, .complete hg, trivial⟩

variable {backups : List Backup}

lemma fullBackup_follows {content : Application}
    (hb : b.Full) (hpending : b.status = .pending) (hhash : b.encryption = hash content) :
    Sweeps hash (fullBackup b content) (.listed backups) := by
  intro r
  cases r with
  | error e => exact ⟨.idle, .refused hpending, trivial⟩
  | ok =>
    refine ⟨.created b, .create hb hpending, ?_⟩
    intro r
    cases r with
    | error e => exact ⟨.idle, .notUploaded, fun _ => ⟨.idle, .fail, trivial⟩⟩
    | ok => exact ⟨.uploaded b, .upload hhash, completeBackup_follows (.inl rfl)⟩

lemma incrementalBackup_follows {last : Backup} (hlast : last ∈ backups)
    (hpath : b.filePath = last.filePath) (hhash : b.encryption = last.encryption)
    (hpending : b.status = .pending) : Sweeps hash (incrementalBackup b) (.listed backups) := by
  intro r
  cases r with
  | error e => exact ⟨.idle, .refused hpending, trivial⟩
  | ok =>
    exact ⟨.pointed b, .point hlast hpath hhash hpending, completeBackup_follows (.inr rfl)⟩

lemma findLastBackupForApp_follows (tenantID appID : String) :
    Follows (Next hash) (fun g last => ∃ backups, g = .listed backups ∧ ∀ b ∈ last, b ∈ backups)
      (findLastBackupForApp tenantID appID) g := by
  intro r
  refine ⟨.listed (found r), .list, ?_⟩
  cases r with
  | error e => exact ⟨_, rfl, nofun⟩
  | ok backups => exact ⟨_, rfl, fun b hb => mem_of_find?_eq_some hb⟩

lemma backupApp_follows (tenantID : String) (app : Application) (storage : String) :
    Sweeps hash (backupApp hash tenantID app storage) g := by
  refine Sweeps.read rfl fun backupID => ?_
  refine Follows.bind (findLastBackupForApp_follows tenantID app.id) ?_
  rintro _ last ⟨backups, rfl, hlast⟩
  cases last with
  | none => exact fullBackup_follows rfl rfl rfl
  | some last =>
    dsimp only
    split
    case isTrue hhash => exact incrementalBackup_follows (hlast last rfl) rfl hhash.symm rfl
    case isFalse => exact fullBackup_follows rfl rfl rfl

lemma deleteOld_follows {storage : String} {entries : List BackupEntry} {cutoff : ℤ}
    {es : List BackupEntry} (hes : ∀ e ∈ es, e ∈ entries) :
    Sweeps hash (deleteOld storage cutoff es) (.pruning storage entries cutoff) := by
  induction es with
  | nil => trivial
  | cons e es ih =>
    have ih' := ih fun e' he' => hes e' (mem_cons_of_mem e he')
    rw [deleteOld]
    split
    case isTrue hold =>
      intro r
      refine ⟨_, .delete (hes e (mem_cons_self ..)) hold, ?_⟩
      cases r with
      | error => exact ih'
      | ok => exact ih'.bind fun _ _ => trivial
    case isFalse => exact ih'

lemma cleanupOldBackups_follows (storage tenantID : String) :
    Sweeps hash (cleanupOldBackups storage tenantID) g := by
  intro r
  cases r with
  | error e => exact ⟨.idle, .read rfl, trivial⟩
  | ok entries =>
    refine ⟨_, .sweep, fun now => ⟨_, .cutoff, ?_⟩⟩
    exact (deleteOld_follows fun e he => he).bind fun _ _ => trivial

/-- **A sweep keeps to the protocol**, from any stage on, since it starts with a call that only
reads. -/
theorem runBackups_follows (pages : ℕ) : Sweeps hash (runBackups hash pages) g := by
  have hrules : SweepRules hash (fun _ => True) fun p => ∀ g, Sweeps hash p g :=
    { ret := fun a g => .ret a
      bind := fun hp hf g => (hp g).bind fun g a => hf a g
      read := fun hc _ hf g => .read hc fun r => hf r .idle
      list := fun herror hok g => .read rfl fun r => by
        cases r with
        | error e => exact herror e .idle
        | ok apps => exact hok apps (fun _ _ => trivial) .idle
      backupApp := fun tenantID app storage _ g => backupApp_follows tenantID app storage
      cleanup := fun storage tenantID g => cleanupOldBackups_follows storage tenantID }
  exact hrules.runBackups pages g

end DeployMonster.Backup
