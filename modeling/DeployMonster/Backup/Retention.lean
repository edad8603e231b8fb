import DeployMonster.Backup.Scheduler
import DeployMonster.Library.Path

/-!
# The local backup storage

`List` of `internal/backup/local.go`, and the clean-up over it. A path has the names under the root.
-/

namespace DeployMonster.Backup

open List Path

structure LocalFile where
  path : List (List Char)
  symlink : Bool
  /-- In seconds. -/
  modTime : ℤ
  deriving DecidableEq

/-- What `os.Stat` finds to be directories, beside the root, and what a walk finds to be none. -/
structure LocalStorage where
  dirs : List (List (List Char))
  files : List LocalFile
  parents : ∀ f ∈ files, ∀ dir ∈ f.path.inits, dir ≠ f.path → dir = [] ∨ dir ∈ dirs
  plain : ∀ f ∈ files, f.symlink = false → f.path ∉ dirs

def tenantBackupPrefix (tenantID : List Char) : List Char :=
  (tenantID.dropWhile (· = '/')).rdropWhile (· = '/') ++ ['/']

namespace LocalStorage

variable (l : LocalStorage)

/-- `List`, when the walk meets no error. If the target is no directory, its parent is walked for the
files whose names begin with its last name. -/
def list (pre : List Char) : Except String (List LocalFile) :=
  let target := resolve false [] (pre.splitOn '/')
  if ['.', '.'] <+: target.head?.getD [] then
    .error "invalid backup prefix: path outside storage root"
  else
    let isDir : Bool := target = [] ∨ target ∈ l.dirs
    let walkRoot := if isDir then target else target.dropLast
    let filenameFilter := if isDir then [] else target.getLast?.getD []
    .ok ((l.files.filter fun f => walkRoot <+: f.path ∧ f.symlink = false ∧
      filenameFilter <+: f.path.getLast?.getD []).insertionSort fun f f' => f'.modTime ≤ f.modTime)

/-- `CleanupOldBackups`, which passes over the files that cannot be deleted. -/
def cleanupOldBackups (pre : List Char) (cutoff : ℤ) (fails : LocalFile → Bool) :
    Except String LocalStorage :=
  match l.list pre with
  | .error e => .error ("list backups: " ++ e)
  | .ok entries => .ok { l with
      files := l.files.filter fun f => ¬(f ∈ entries ∧ f.modTime < cutoff ∧ fails f = false)
      parents := fun f hf => l.parents f (mem_of_mem_filter hf)
      plain := fun f hf => l.plain f (mem_of_mem_filter hf) }

end LocalStorage

/-- The key of the file starts with the id and a slash. -/
def BelongsTo (tenantID : List Char) (f : LocalFile) : Prop :=
  [tenantID] ∈ f.path.inits ∧ [tenantID] ≠ f.path

variable {tenantID : List Char}

lemma resolve_tenantBackupPrefix (hname : IsName tenantID) (hdots : ¬['.', '.'] <+: tenantID)
    (hdot : tenantID ≠ ['.']) :
    resolve false [] ((tenantBackupPrefix tenantID).splitOn '/') = [tenantID] := by
  have hslash (c : Char) (hc : c ∈ tenantID) : ¬decide (c = '/') = true := fun h =>
    hname.2 (of_decide_eq_true h ▸ hc)
  have htrim : tenantBackupPrefix tenantID = tenantID ++ ['/'] := by
    rw [tenantBackupPrefix, dropWhile_eq_self_iff.mpr fun _ => hslash _ (getElem_mem _),
      rdropWhile_eq_self_iff.mpr fun _ => hslash _ (getLast_mem _)]
  have hparent : tenantID ≠ ['.', '.'] := fun h => hdots (h ▸ prefix_rfl)
  rw [htrim, splitOn_append_cons_self_of_not_mem hname.2]
  simp [resolve, hname.1, hdot, hparent]

/-- **When a tenant's listing has only its own files**, and so the clean-up deletes no other: when the
tenant has a directory, or no file has a name that begins with its id. -/
theorem list_isolated_iff (l : LocalStorage) (tenantID : List Char) (hname : IsName tenantID)
    (hdots : ¬['.', '.'] <+: tenantID) (hdot : tenantID ≠ ['.']) :
    ∃ entries, l.list (tenantBackupPrefix tenantID) = .ok entries ∧
      ((∀ f ∈ entries, BelongsTo tenantID f) ↔ [tenantID] ∈ l.dirs ∨
        ∀ f ∈ l.files, f.symlink = false → ¬tenantID <+: f.path.getLast?.getD []) ∧
      ∀ cutoff fails, ∃ l', l.cleanupOldBackups (tenantBackupPrefix tenantID) cutoff fails = .ok l' ∧
        ∀ f ∈ l.files, f ∉ l'.files → f ∈ entries := by
  obtain ⟨entries, hlist, hentries⟩ : ∃ entries, l.list (tenantBackupPrefix tenantID) = .ok entries ∧
      ∀ f, f ∈ entries ↔ f ∈ l.files ∧ f.symlink = false ∧ if [tenantID] ∈ l.dirs
        then [tenantID] <+: f.path else tenantID <+: f.path.getLast?.getD [] := by
    rw [LocalStorage.list, resolve_tenantBackupPrefix hname hdots hdot]
    refine ⟨_, if_neg hdots, fun f => ?_⟩
    by_cases hdir : [tenantID] ∈ l.dirs
    · simp [hdir, and_comm (a := [tenantID] <+: f.path)]
    · simp [hdir]
  refine ⟨entries, hlist, ?_, fun cutoff fails => ⟨_, by rw [LocalStorage.cleanupOldBackups, hlist], ?_⟩⟩
  · simp only [hentries]
    split_ifs with hdir
    · refine iff_of_true (fun f ⟨hf, hlink, hroot⟩ => ⟨(mem_inits _ _).mpr hroot, ?_⟩) (.inl hdir)
      exact fun heq => l.plain f hf hlink (heq ▸ hdir)
    · have hnone (f : LocalFile) (hf : f ∈ l.files) : ¬BelongsTo tenantID f := fun h =>
        hdir ((l.parents f hf _ h.1 h.2).resolve_left (cons_ne_nil _ _))
      rw [or_iff_right hdir]
      exact ⟨fun h f hf hlink hpre => hnone f hf (h f ⟨hf, hlink, hpre⟩),
        fun h f ⟨hf, hlink, hpre⟩ => absurd hpre (h f hf hlink)⟩
  · intro f hf hgone
    by_contra hentry
    exact hgone (mem_filter.mpr ⟨hf, decide_eq_true fun h => hentry h.1⟩)

/-- One file, of the tenant `t2`. -/
def oneFile : LocalStorage where
  dirs := [["t2".toList]]
  files := [⟨["t2".toList, "t1.sql".toList], false, 0⟩]
  parents := by decide
  plain := by decide

theorem list_isolated_iff_t2 : [] ≠ oneFile.files ∧ ∃ entries,
    oneFile.list (tenantBackupPrefix "t2".toList) = .ok entries ∧
      ∀ f ∈ entries, BelongsTo "t2".toList f := by
  obtain ⟨entries, hlist, hown, -⟩ := list_isolated_iff oneFile "t2".toList ⟨nofun, by decide⟩ (by decide)
    (by decide)
  exact ⟨by decide, entries, hlist, hown.mpr (.inl (by decide))⟩

/-- The tenant `t1`, which has no directory, is listed the file of `t2`, and the clean-up deletes it. -/
theorem otherTenant_listed : oneFile.list (tenantBackupPrefix "t1".toList) = .ok oneFile.files ∧
    (oneFile.cleanupOldBackups (tenantBackupPrefix "t1".toList) 1 fun _ => false).map (·.files) =
      .ok [] := by
  decide

/-!
# Retention

Every backup that is completed and younger than 30 days should have its archive. The clean-up
deletes archives by their age alone, and a metadata-only row points at an older archive.
-/

open DB Clock Program StepMachine Table

variable (w : BackupWorld)

def Young (b : Backup) : Prop := w.now - b.createdAt < retentionDays * day
  deriving Decidable

def Present (b : Backup) : Prop :=
  ∃ x ∈ w.archives, x.at b.storageTarget b.filePath = true
  deriving Decidable

def Retained : Prop :=
  ∀ b ∈ w.backups.rows, b.status = .completed → Young w b → Present w b
  deriving Decidable

/-! ## What the sweeps keep -/

/-- The row points at the archive of a full one with its hash. -/
def HasOrigin (b : Backup) : Prop :=
  ∃ b0 ∈ w.backups.rows,
    b0.id = b.filePath.backupID ∧ b0.filePath = b.filePath ∧ b0.encryption = b.encryption

/-- The file has a row that is not younger. -/
def Dated (e : BackupEntry) : Prop :=
  ∃ row ∈ w.backups.rows, row.id = e.key.backupID ∧ unix row.createdAt ≤ e.createdAt

/-- The backups and the archives belong together. -/
structure Ledger (hash : Application → String) (w : BackupWorld) : Prop where
  past : ∀ b ∈ w.backups.rows, b.createdAt ≤ w.now
  untyped : ∀ b ∈ w.backups.rows, b.backupType = none
  origin : ∀ b ∈ w.backups.rows, HasOrigin w b
  archive : ∀ x ∈ w.archives, ∃ b ∈ w.backups.rows, b.id = x.key.backupID ∧ b.filePath = x.key ∧
    b.encryption = hash x.content ∧ b.createdAt ≤ x.modTime
  kept : ∀ b ∈ w.backups.rows, b.Full → b.status = .completed → Young w b → Present w b

def Stage.Holds : Stage → Prop
  | .idle => True
  | .listed backups => ∀ b ∈ backups, ∃ row ∈ w.backups.rows, b.Same row
  | .created b => ∃ row ∈ w.backups.rows, (b.inserted row.createdAt).Same row ∧ row.Full
  | .uploaded b => ∃ row ∈ w.backups.rows, row.id = b.id ∧ row.Full ∧ (Young w row → Present w row)
  | .pointed b => ∃ row ∈ w.backups.rows, row.id = b.id ∧ ¬ row.Full
  | .swept _ entries => ∀ e ∈ entries, Dated w e
  | .pruning _ entries cutoff =>
    cutoff ≤ unix (w.now - retentionDays * day) ∧ ∀ e ∈ entries, Dated w e

/-- What every step leaves to the others: time passes, rows stay but for their status, and so do the
archives of young full rows. -/
structure Later (w w' : BackupWorld) : Prop where
  now : w.now ≤ w'.now
  rows : ∀ b ∈ w.backups.rows, ∃ b' ∈ w'.backups.rows, b.Same b'
  archives : ∀ b ∈ w.backups.rows, b.Full → Young w' b → Present w b → Present w' b

variable {storage : String} {x : Archive}

section

variable {w w' : BackupWorld} {b b' : Backup}

lemma Young.of_le (hnow : w.now ≤ w'.now) (h : Young w' b) : Young w b := by
  unfold Young at *
  omega

lemma young_congr (h : b.Same b') : Young w b' ↔ Young w b := by
  unfold Young
  rw [h.createdAt]

lemma present_congr (h : b.Same b') : Present w b' ↔ Present w b := by
  unfold Present
  rw [h.storageTarget, h.filePath]

lemma not_young_of_cutoff {created cutoff : ℤ} (hnow : w.now ≤ w'.now)
    (hcutoff : cutoff ≤ unix (w.now - retentionDays * day)) (hold : created < cutoff)
    (hb : unix b.createdAt ≤ created) : ¬ Young w' b := by
  intro hyoung
  have hle : w.now - retentionDays * day ≤ b.createdAt := by
    have := hyoung.of_le hnow
    unfold Young at this
    omega
  exact absurd (unix_mono hle) (by omega)

lemma HasOrigin.congr (h : HasOrigin w b) (hpath : b'.filePath = b.filePath)
    (hhash : b'.encryption = b.encryption) : HasOrigin w b' := by
  unfold HasOrigin
  rwa [hpath, hhash]

lemma present_upload {key : ArchiveKey} (hx : x.at storage key = true)
    (harchives : w'.archives = w.archives.filter (! ·.at storage key) ++ [x]) (h : Present w b) :
    Present w' b := by
  obtain ⟨y, hy, hat⟩ := h
  rw [Present, harchives]
  by_cases hyx : y.at storage key = true
  · refine ⟨x, mem_append_right _ (mem_singleton_self x), ?_⟩
    rw [Archive.at_iff] at *
    exact ⟨hx.1.trans (hyx.1.symm.trans hat.1), hx.2.trans (hyx.2.symm.trans hat.2)⟩
  · exact ⟨y, mem_append_left _ (mem_filter.mpr ⟨hy, by simp [hyx]⟩), hat⟩

lemma present_delete {key : ArchiveKey}
    (harchives : w'.archives = w.archives.filter (! ·.at storage key))
    (hb : b.storageTarget = storage → b.filePath ≠ key) (h : Present w b) : Present w' b := by
  obtain ⟨y, hy, hat⟩ := h
  rw [Present, harchives]
  refine ⟨y, mem_filter.mpr ⟨hy, ?_⟩, hat⟩
  rw [Bool.not_eq_true', ← Bool.not_eq_true]
  intro hdel
  obtain ⟨hstorage, hkey⟩ := Archive.at_iff.mp hat
  obtain ⟨hstorage', hkey'⟩ := Archive.at_iff.mp hdel
  exact hb (hstorage.symm.trans hstorage') (hkey.symm.trans hkey')

end

section

variable {hash : Application → String} {w w' : BackupWorld} {b : Backup}

lemma Later.of_rows (hnow : w.now ≤ w'.now)
    (hrows : ∀ b ∈ w.backups.rows, ∃ b' ∈ w'.backups.rows, b.Same b')
    (harchives : w'.archives = w.archives) : Later w w' where
  now := hnow
  rows := hrows
  archives := by
    intro b _ _ _ h
    rwa [Present, harchives]

lemma Later.origin (h : Later w w') (hb : HasOrigin w b) : HasOrigin w' b := by
  obtain ⟨b0, hb0, hid, hpath, hhash⟩ := hb
  obtain ⟨b0', hb0', hsame⟩ := h.rows b0 hb0
  exact ⟨b0', hb0', hsame.id.trans hid, hsame.filePath.trans hpath, hsame.encryption.trans hhash⟩

lemma Later.dated (h : Later w w') {e : BackupEntry} (he : Dated w e) : Dated w' e := by
  obtain ⟨row, hrow, hid, hcreated⟩ := he
  obtain ⟨row', hrow', hsame⟩ := h.rows row hrow
  exact ⟨row', hrow', hsame.id.trans hid, by rwa [hsame.createdAt]⟩

lemma Later.holds (h : Later w w') {g : Stage} (hg : g.Holds w) : g.Holds w' := by
  cases g with
  | idle => trivial
  | listed backups =>
    intro b hb
    obtain ⟨row, hrow, hsame⟩ := hg b hb
    obtain ⟨row', hrow', hsame'⟩ := h.rows row hrow
    exact ⟨row', hrow', hsame.trans hsame'⟩
  | created b =>
    obtain ⟨row, hrow, hsame, hfull⟩ := hg
    obtain ⟨row', hrow', hsame'⟩ := h.rows row hrow
    refine ⟨row', hrow', ?_, hsame'.full.mpr hfull⟩
    rw [hsame'.createdAt]
    exact hsame.trans hsame'
  | uploaded b =>
    obtain ⟨row, hrow, hid, hfull, hpresent⟩ := hg
    obtain ⟨row', hrow', hsame⟩ := h.rows row hrow
    refine ⟨row', hrow', hsame.id.trans hid, hsame.full.mpr hfull, fun hyoung => ?_⟩
    have hyoung : Young w' row := (young_congr hsame).mp hyoung
    exact (present_congr hsame).mpr
      (h.archives row hrow hfull hyoung (hpresent (hyoung.of_le h.now)))
  | pointed b =>
    obtain ⟨row, hrow, hid, hfull⟩ := hg
    obtain ⟨row', hrow', hsame⟩ := h.rows row hrow
    exact ⟨row', hrow', hsame.id.trans hid, mt hsame.full.mp hfull⟩
  | swept storage entries => exact fun e he => h.dated (hg e he)
  | pruning storage entries cutoff =>
    refine ⟨hg.1.trans (unix_mono ?_), fun e he => h.dated (hg.2 e he)⟩
    exact Int.sub_le_sub_right h.now _

end

section

variable {hash : Application → String} {w w' : BackupWorld} (h : Ledger hash w)
include h

lemma Ledger.hash_eq {b : Backup} (hb : b ∈ w.backups.rows)
    (hx : x ∈ w.archives) (hkey : x.key = b.filePath) : hash x.content = b.encryption := by
  obtain ⟨b0, hb0, hid0, -, hhash0⟩ := h.origin b hb
  obtain ⟨b1, hb1, hid1, -, hhash1, -⟩ := h.archive x hx
  obtain rfl : b0 = b1 := eq_of_key_eq hb0 hb1 (by rw [hid0, hid1, hkey])
  rw [← hhash1, hhash0]

lemma Ledger.of_rows (hlater : Later w w') (harchives : w'.archives = w.archives)
    (hrows : ∀ b' ∈ w'.backups.rows, ∃ b ∈ w.backups.rows, b.Same b')
    (hkept : ∀ b ∈ w'.backups.rows, b.Full → b.status = .completed → Young w' b → Present w' b) :
    Ledger hash w' where
  past := by
    intro b' hb'
    obtain ⟨b, hb, hsame⟩ := hrows b' hb'
    rw [hsame.createdAt]
    exact (h.past b hb).trans hlater.now
  untyped := by
    intro b' hb'
    obtain ⟨b, hb, hsame⟩ := hrows b' hb'
    rw [hsame.backupType]
    exact h.untyped b hb
  origin := by
    intro b' hb'
    obtain ⟨b, hb, hsame⟩ := hrows b' hb'
    exact (hlater.origin (h.origin b hb)).congr hsame.filePath hsame.encryption
  archive := by
    intro x hx
    rw [harchives] at hx
    obtain ⟨b, hb, hid, hpath, hhash, hcreated⟩ := h.archive x hx
    obtain ⟨b', hb', hsame⟩ := hlater.rows b hb
    refine ⟨b', hb', hsame.id.trans hid, hsame.filePath.trans hpath, hsame.encryption.trans hhash, ?_⟩
    rwa [hsame.createdAt]
  kept := hkept

variable (hnow : w.now ≤ w'.now)
include hnow

lemma Ledger.of_archives (hbackups : w'.backups = w.backups)
    (harchive : ∀ x ∈ w'.archives, x ∈ w.archives ∨ ∃ b ∈ w.backups.rows, b.id = x.key.backupID ∧
      b.filePath = x.key ∧ b.encryption = hash x.content ∧ b.createdAt ≤ x.modTime)
    (hpresent : ∀ b ∈ w.backups.rows, b.Full → Young w' b → Present w b → Present w' b) :
    Ledger hash w' ∧ Later w w' := by
  have hlater : Later w w' := ⟨hnow, fun b hb => ⟨b, hbackups ▸ hb, .refl b⟩, hpresent⟩
  refine ⟨⟨?_, ?_, ?_, ?_, ?_⟩, hlater⟩
  · intro b hb
    rw [hbackups] at hb
    exact (h.past b hb).trans hnow
  · intro b hb
    rw [hbackups] at hb
    exact h.untyped b hb
  · intro b hb
    rw [hbackups] at hb
    exact hlater.origin (h.origin b hb)
  · intro x hx
    rw [hbackups]
    rcases harchive x hx with hx | hx
    · exact h.archive x hx
    · exact hx
  · intro b hb hfull hstatus hyoung
    rw [hbackups] at hb
    exact hpresent b hb hfull hyoung (h.kept b hb hfull hstatus (hyoung.of_le hnow))

lemma Ledger.of_unchanged
    (hbackups : w'.backups = w.backups) (harchives : w'.archives = w.archives) :
    Ledger hash w' ∧ Later w w' := by
  refine h.of_archives hnow hbackups (fun x hx => .inl (harchives ▸ hx)) ?_
  intro b _ _ _ hpresent
  rwa [Present, harchives]

lemma Ledger.create {b : Backup} (hrows : w'.backups.rows = w.backups.rows ++ [b.inserted w'.now])
    (harchives : w'.archives = w.archives) (hpending : b.status = .pending)
    (horigin : b.Full ∨ HasOrigin w b) : Ledger hash w' ∧ Later w w' := by
  have hmem : ∀ row, row ∈ w'.backups.rows ↔ row ∈ w.backups.rows ∨ row = b.inserted w'.now := by
    intro row
    rw [hrows, mem_append, mem_singleton]
  have hlater : Later w w' :=
    .of_rows hnow (fun row hrow => ⟨row, (hmem row).mpr (.inl hrow), .refl row⟩) harchives
  refine ⟨⟨?_, ?_, ?_, ?_, ?_⟩, hlater⟩
  · intro row hrow
    rcases (hmem row).mp hrow with hrow | rfl
    · exact (h.past row hrow).trans hnow
    · exact le_rfl
  · intro row hrow
    rcases (hmem row).mp hrow with hrow | rfl
    · exact h.untyped row hrow
    · rfl
  · intro row hrow
    rcases (hmem row).mp hrow with hrow' | rfl
    · exact hlater.origin (h.origin row hrow')
    · rcases horigin with hfull | horigin
      · exact ⟨_, hrow, hfull.symm, rfl, rfl⟩
      · exact hlater.origin horigin
  · intro x hx
    rw [harchives] at hx
    obtain ⟨row, hrow, hx⟩ := h.archive x hx
    exact ⟨row, (hmem row).mpr (.inl hrow), hx⟩
  · intro row hrow hfull hstatus hyoung
    rcases (hmem row).mp hrow with hrow | rfl
    · exact hlater.archives row hrow hfull hyoung
        (h.kept row hrow hfull hstatus (hyoung.of_le hnow))
    · exact absurd (hpending.symm.trans hstatus) (by decide)

lemma Ledger.update {id tenantID : String} {status : BackupStatus}
    (hbackups : w'.backups = DB.updateBackupStatus w.backups id status tenantID)
    (harchives : w'.archives = w.archives) (hid : status = .completed →
      ∀ b ∈ w.backups.rows, b.id = id → b.Full → Young w b → Present w b) :
    Ledger hash w' ∧ Later w w' := by
  have hlater : Later w w' := by
    refine .of_rows hnow (fun b hb => ?_) harchives
    rw [hbackups]
    exact exists_mem_updateBackupStatus hb
  have hrows : ∀ b' ∈ w'.backups.rows, ∃ b ∈ w.backups.rows,
      b.Same b' ∧ (b' = b ∨ b.id = id ∧ b.tenantID = tenantID ∧ b'.status = status) := by
    intro b' hb'
    rw [hbackups] at hb'
    exact mem_updateBackupStatus hb'
  refine ⟨h.of_rows hlater harchives (fun b' hb' => ?_) ?_, hlater⟩
  · obtain ⟨b, hb, hsame, -⟩ := hrows b' hb'
    exact ⟨b, hb, hsame⟩
  intro b' hb' hfull hcompleted hyoung
  obtain ⟨b, hb, hsame, hb'⟩ := hrows b' hb'
  have hfull : b.Full := hsame.full.mp hfull
  have hyoung' : Young w' b := (young_congr hsame).mp hyoung
  refine (present_congr hsame).mpr (hlater.archives b hb hfull hyoung' ?_)
  rcases hb' with rfl | ⟨hid', -, hstatus⟩
  · exact h.kept b' hb hfull hcompleted (hyoung.of_le hnow)
  · exact hid (hstatus.symm.trans hcompleted) b hb hid' hfull (hyoung'.of_le hnow)

lemma Ledger.upload {row : Backup} (hrow : row ∈ w.backups.rows) (hfull : row.Full)
    (hx : x.at row.storageTarget row.filePath = true) (hhash : row.encryption = hash x.content)
    (htime : x.modTime = w'.now) (hbackups : w'.backups = w.backups) (harchives : w'.archives =
      w.archives.filter (! ·.at row.storageTarget row.filePath) ++ [x]) :
    Ledger hash w' ∧ Later w w' := by
  refine h.of_archives hnow hbackups ?_ fun b _ _ _ hb => present_upload hx harchives hb
  intro y hy
  rw [harchives, mem_append, mem_singleton] at hy
  rcases hy with hy | rfl
  · exact .inl (mem_of_mem_filter hy)
  · have hkey := (Archive.at_iff.mp hx).2
    refine .inr ⟨row, hrow, ?_, hkey.symm, hhash, htime ▸ (h.past row hrow).trans hnow⟩
    rw [hkey, hfull]

lemma Ledger.delete {cutoff : ℤ} {e : BackupEntry} (he : Dated w e) (hold : e.createdAt < cutoff)
    (hcutoff : cutoff ≤ unix (w.now - retentionDays * day)) (hbackups : w'.backups = w.backups)
    (harchives : w'.archives = w.archives.filter (! ·.at storage e.key)) :
    Ledger hash w' ∧ Later w w' := by
  refine h.of_archives hnow hbackups (fun x hx => ?_) ?_
  · rw [harchives] at hx
    exact .inl (mem_of_mem_filter hx)
  intro b hb hfull hyoung
  refine present_delete harchives fun _ hkey => ?_
  obtain ⟨row, hrow, hid, hcreated⟩ := he
  obtain rfl : row = b := eq_of_key_eq hrow hb (by rw [hid, ← hkey, hfull])
  exact not_young_of_cutoff hnow hcutoff hold hcreated hyoung

omit hnow

/-- **A call that keeps to the protocol keeps the ledger**, and what the other sweeps know. -/
theorem Ledger.step {g g' : Stage} (hg : g.Holds w) {c : BackupCall}
    {r : BackupAnswer c} {o : BackupChoice} (hnext : Next hash g c r g')
    (hexec : backupExec c w o = some (r, w')) : (Ledger hash w' ∧ Later w w') ∧ g'.Holds w' := by
  have hnow : w.now ≤ w'.now := by
    rw [(step_backupExec hexec).2.now]
    omega
  have heffect := (step_backupExec hexec).1
  have hanswered := answered_of_backupExec hexec
  cases hnext with
  | read hc =>
    obtain ⟨hbackups, harchives⟩ := heffect.of_reads hc
    exact ⟨h.of_unchanged hnow hbackups harchives, trivial⟩
  | @list _ _ _ r =>
    obtain ⟨hbackups, harchives⟩ := heffect.of_reads rfl
    refine ⟨h.of_unchanged hnow hbackups harchives, ?_⟩
    cases r with
    | error => exact nofun
    | ok backups => exact fun b hb => ⟨b, hanswered b hb, .refl b⟩
  | refused | notUploaded => exact ⟨h.of_unchanged hnow heffect.1 heffect.2, trivial⟩
  | @create _ b hfull hpending =>
    obtain ⟨hfresh, hrows, harchives⟩ := heffect
    refine ⟨h.create hnow hrows harchives hpending (.inl hfull), b.inserted w'.now, ?_, .refl _, hfull⟩
    rw [hrows]
    exact mem_append_right _ (mem_singleton_self _)
  | @point _ last b hlast hpath hhash hpending =>
    obtain ⟨hfresh, hrows, harchives⟩ := heffect
    obtain ⟨row, hrow, hsame⟩ := hg last hlast
    have horigin : HasOrigin w b :=
      (h.origin row hrow).congr (hpath.trans hsame.filePath.symm) (hhash.trans hsame.encryption.symm)
    refine ⟨h.create hnow hrows harchives hpending (.inr horigin), b.inserted w'.now, ?_, rfl, ?_⟩
    · rw [hrows]
      exact mem_append_right _ (mem_singleton_self _)
    intro hfull
    obtain ⟨b0, hb0, hid, -⟩ := horigin
    exact hfresh (mem_map.mpr ⟨b0, hb0, hid.trans hfull⟩)
  | @upload b content hhash =>
    obtain ⟨hbackups, harchives⟩ := heffect
    obtain ⟨row, hrow, hsame, hfull⟩ := hg
    have hstorage : row.storageTarget = b.storageTarget := hsame.storageTarget
    have hpath : row.filePath = b.filePath := hsame.filePath
    rw [← hstorage, ← hpath] at harchives
    refine ⟨h.upload hnow hrow hfull (Archive.at_iff.mpr ⟨rfl, rfl⟩) ?_ rfl hbackups harchives,
      row, hbackups ▸ hrow, hsame.id, hfull, fun _ => ?_⟩
    · exact hsame.encryption.trans hhash
    · rw [Present, harchives]
      exact ⟨_, mem_append_right _ (mem_singleton_self _), Archive.at_iff.mpr ⟨rfl, rfl⟩⟩
  | @fail _ _ _ r =>
    refine ⟨?_, trivial⟩
    cases r with
    | error => exact h.of_unchanged hnow heffect.1 heffect.2
    | ok => exact h.update hnow heffect.1 heffect.2 nofun
  | @complete _ b r hstage =>
    refine ⟨?_, trivial⟩
    cases r with
    | error => exact h.of_unchanged hnow heffect.1 heffect.2
    | ok =>
      refine h.update hnow heffect.1 heffect.2 ?_
      intro _ row hrow hid hfull hyoung
      rcases hstage with rfl | rfl
      · obtain ⟨row', hrow', hid', -, hpresent⟩ := hg
        obtain rfl : row = row' := eq_of_key_eq hrow hrow' (hid.trans hid'.symm)
        exact hpresent hyoung
      · obtain ⟨row', hrow', hid', hnot⟩ := hg
        obtain rfl : row = row' := eq_of_key_eq hrow hrow' (hid.trans hid'.symm)
        exact absurd hfull hnot
  | sweep =>
    obtain ⟨hledger, hlater⟩ := h.of_unchanged hnow heffect.1 heffect.2
    refine ⟨⟨hledger, hlater⟩, fun e he => ?_⟩
    obtain ⟨x, hx, -, rfl⟩ := hanswered e he
    obtain ⟨row, hrow, hid, -, -, hcreated⟩ := hledger.archive x hx
    exact ⟨row, hrow, hid, unix_mono hcreated⟩
  | @cutoff _ _ now =>
    obtain ⟨hledger, hlater⟩ := h.of_unchanged hnow heffect.1 heffect.2
    refine ⟨⟨hledger, hlater⟩, ?_, fun e he => hlater.dated (hg e he)⟩
    rw [show now = w'.now from hanswered]
  | @delete _ _ _ _ r he hold =>
    have hstep : Ledger hash w' ∧ Later w w' := by
      cases r with
      | error => exact h.of_unchanged hnow heffect.1 heffect.2
      | ok => exact h.delete hnow (hg.2 _ he) hold hg.1 heffect.1 heffect.2
    exact ⟨hstep, hstep.2.holds hg⟩

end

def Sound (hash : Application → String) (s : BackupWorld × List (BackupM Unit)) : Prop :=
  Ledger hash s.1 ∧ ∃ stages, Tracks (Next hash) (fun _ _ => True) s.2 stages ∧
    ∀ g ∈ stages, g.Holds s.1

section

variable {hash : Application → String} {s s' : BackupWorld × List (BackupM Unit)}

lemma sound_init {w : BackupWorld} (hbackups : w.backups.rows = []) (harchives : w.archives = [])
    (sweeps : List ℕ) : Sound hash (w, sweeps.map (runBackups hash)) := by
  have hnone : ∀ b, b ∉ w.backups.rows := by
    rw [hbackups]
    exact fun b => not_mem_nil
  refine ⟨⟨?_, ?_, ?_, ?_, ?_⟩, _, tracks_replicate (g := .idle) fun p hp => ?_, fun g hg => ?_⟩
  · exact fun b hb => absurd hb (hnone b)
  · exact fun b hb => absurd hb (hnone b)
  · exact fun b hb => absurd hb (hnone b)
  · rw [harchives]
    exact fun x hx => absurd hx not_mem_nil
  · exact fun b hb => absurd hb (hnone b)
  · obtain ⟨pages, -, rfl⟩ := mem_map.mp hp
    exact runBackups_follows pages
  · rw [eq_of_mem_replicate hg]
    trivial

lemma Sound.edit (h : Sound hash s) (elapsed : ℕ) (apps : AppTable) :
    Sound hash ({ s.1.wait elapsed with apps }, s.2) := by
  obtain ⟨hledger, stages, htracks, hholds⟩ := h
  have hnow : s.1.now ≤ ({ s.1.wait elapsed with apps } : BackupWorld).now :=
    Int.le_add_of_nonneg_right (Int.natCast_nonneg elapsed)
  obtain ⟨hledger', hlater⟩ := hledger.of_unchanged hnow rfl rfl
  exact ⟨hledger', stages, htracks, fun g hg => hlater.holds (hholds g hg)⟩

lemma Sound.call (h : Sound hash s) {i : ℕ} {o : BackupChoice}
    (hstep : poolStep backupExec s (i, o) = some s') :
    Sound hash s' ∧ ∃ c k r g g', s.2[i]? = some (.call c k) ∧
      backupExec c s.1 o = some (r, s'.1) ∧ Next hash g c r g' := by
  obtain ⟨hledger, stages, htracks, hholds⟩ := h
  obtain ⟨c, k, r, g, g', hi, hg, hexec, hnext, -, htracks'⟩ := htracks.step hstep
  obtain ⟨⟨hledger', hlater⟩, hg'⟩ := hledger.step (hholds g (mem_of_getElem? hg)) hnext hexec
  refine ⟨⟨hledger', _, htracks', ?_⟩, c, k, r, g, g', hi, hexec, hnext⟩
  exact Pool.forall_set (fun g hg => hlater.holds (hholds g hg)) hg'

lemma Sound.step (h : Sound hash s) {a : BackupAction} (hstep : backupStep s a = some s') :
    Sound hash s' := by
  cases a with
  | call i o => exact (h.call hstep).1
  | edit elapsed apps =>
    rw [← Option.some.inj hstep]
    exact h.edit elapsed apps

/-- **After every interleaving of sweeps and edits** the full backups that are young have their
archives, and each archive has the hash of the rows that point at it. -/
theorem ledger_of_run {w : BackupWorld} (hbackups : w.backups.rows = [])
    (harchives : w.archives = []) {sweeps : List ℕ} {as : List BackupAction}
    (hrun : run backupStep (w, sweeps.map (runBackups hash)) as = some s) : Ledger hash s.1 :=
  (invariant_of_run (fun _ _ _ h hstep => Sound.step h hstep)
    (sound_init hbackups harchives sweeps) hrun).1

end

/-! ## Metadata-only rows -/

/-- The call leaves no young metadata-only row without its archive: it completes none that has not
got it, and deletes no archive at which a completed one points. -/
def BackupCall.Spares (c : BackupCall) : Prop :=
  ∀ b ∈ w.backups.rows, ¬ b.Full → Young w b →
    (c = .updateBackupStatus b.id .completed b.tenantID → Present w b) ∧
      (b.status = .completed → c ≠ .delete b.storageTarget b.filePath)
  deriving Decidable

/-- A sweep whose next call does not fail spares the metadata-only rows. -/
def Guarded (s : BackupWorld × List (BackupM Unit)) : BackupAction → Prop
  | .call i o => o.fails = none →
      ∀ c ∈ s.2[i]?.bind Prog.next?, c.Spares (s.1.wait o.elapsed)
  | .edit _ _ => True

instance (s : BackupWorld × List (BackupM Unit)) (a : BackupAction) : Decidable (Guarded s a) := by
  unfold Guarded
  split <;> infer_instance

section

variable {hash : Application → String} {w w' : BackupWorld} {c : BackupCall} {r : BackupAnswer c}
  {o : BackupChoice} {b : Backup}

lemma Retained.call (hw : Retained w) (hledger : Ledger hash w')
    (hpending : ∀ b, c = .createBackup b → b.status = .pending)
    (hexec : backupExec c w o = some (r, w'))
    (hspares : o.fails = none → c.Spares (w.wait o.elapsed)) : Retained w' := by
  have heffect := (step_backupExec hexec).1
  have hnow : (w.wait o.elapsed).now = w'.now := (step_backupExec hexec).2.now.symm
  have hyoung : ∀ b, Young w' b → Young (w.wait o.elapsed) b := fun b => .of_le hnow.le
  have hold : ∀ b ∈ w.backups.rows, b.status = .completed → Young w' b → Present w b :=
    fun b hb hstatus hb' =>
      hw b hb hstatus (hb'.of_le (hnow ▸ Int.le_add_of_nonneg_right (Int.natCast_nonneg _)))
  have hunchanged : w'.backups = w.backups → w'.archives = w.archives → Retained w' := by
    intro hbackups harchives b hb hstatus hb'
    rw [Present, harchives]
    exact hold b (hbackups ▸ hb) hstatus hb'
  cases c with
  | createBackup b0 =>
    cases r with
    | error => exact hunchanged heffect.1 heffect.2
    | ok =>
      obtain ⟨-, hrows, harchives⟩ := heffect
      intro b hb hstatus hb'
      rw [hrows, mem_append, mem_singleton] at hb
      rw [Present, harchives]
      rcases hb with hb | rfl
      · exact hold b hb hstatus hb'
      · exact absurd ((hpending b0 rfl).symm.trans hstatus) (by decide)
  | updateBackupStatus id status tenantID =>
    rcases attempt_eq_some hexec with ⟨e, -, rfl, -⟩ | ⟨hfails, rfl, -⟩
    · exact hunchanged heffect.1 heffect.2
    intro b hb hstatus hb'
    by_cases hfull : b.Full
    · exact hledger.kept b hb hfull hstatus hb'
    rw [heffect.1] at hb
    rw [Present, heffect.2]
    obtain ⟨b0, hb0, hsame, rfl | ⟨hid, htenant, rfl⟩⟩ := mem_updateBackupStatus hb
    · exact hold b hb0 hstatus hb'
    rw [hstatus] at hspares
    refine (present_congr hsame).mpr ?_
    refine (hspares hfails b0 hb0 (mt hsame.full.mpr hfull)
      (hyoung b0 ((young_congr hsame).mp hb'))).1 ?_
    rw [hid, htenant]
  | upload storage key content =>
    cases r with
    | error => exact hunchanged heffect.1 heffect.2
    | ok =>
      intro b hb hstatus hb'
      rw [heffect.1] at hb
      exact present_upload (x := ⟨storage, key, content, w'.now⟩) (Archive.at_iff.mpr ⟨rfl, rfl⟩)
        heffect.2 (hold b hb hstatus hb')
  | delete storage key =>
    rcases attempt_eq_some hexec with ⟨e, -, rfl, -⟩ | ⟨hfails, rfl, -⟩
    · exact hunchanged heffect.1 heffect.2
    intro b hb hstatus hb'
    by_cases hfull : b.Full
    · exact hledger.kept b hb hfull hstatus hb'
    rw [heffect.1] at hb
    refine present_delete heffect.2 (fun hstorage hkey => ?_) (hold b hb hstatus hb')
    refine (hspares hfails b hb hfull (hyoung b hb')).2 hstatus ?_
    rw [hstorage, hkey]
  | _ => exact hunchanged heffect.1 heffect.2

lemma Retained.spares (hw : Retained w') (hexec : backupExec c w o = some (r, w'))
    (hfails : o.fails = none) : c.Spares (w.wait o.elapsed) := by
  have heffect := (step_backupExec hexec).1
  have hnow : w'.now = (w.wait o.elapsed).now := (step_backupExec hexec).2.now
  intro b hb _ hyoung
  have hyoung : Young w' b := hyoung.of_le hnow.le
  constructor
  · rintro rfl
    rcases attempt_eq_some hexec with ⟨e, he, -⟩ | ⟨-, rfl, -⟩
    · exact absurd (hfails.symm.trans he) nofun
    obtain ⟨hbackups, harchives⟩ := heffect
    have hmem : { b with status := .completed } ∈ w'.backups.rows := by
      rw [hbackups]
      exact status_updateBackupStatus hb rfl rfl
    obtain ⟨x, hx, hat⟩ := hw _ hmem rfl hyoung
    exact ⟨x, harchives ▸ hx, hat⟩
  · rintro hstatus rfl
    rcases attempt_eq_some hexec with ⟨e, he, -⟩ | ⟨-, rfl, -⟩
    · exact absurd (hfails.symm.trans he) nofun
    obtain ⟨hbackups, harchives⟩ := heffect
    obtain ⟨x, hx, hat⟩ := hw b (hbackups ▸ hb) hstatus hyoung
    rw [harchives, mem_filter, hat] at hx
    exact absurd hx.2 (by decide)

end

/-- **The backups are retained along a run exactly when every step spares the metadata-only rows**:
none is completed without its archive, and no clean-up deletes an archive of a young one. -/
theorem retained_iff (hash : Application → String) (sweeps : List ℕ) {w : BackupWorld}
    (hbackups : w.backups.rows = []) (harchives : w.archives = []) {as : List BackupAction}
    {s : BackupWorld × List (BackupM Unit)}
    (hrun : run backupStep (w, sweeps.map (runBackups hash)) as = some s) :
    Always backupStep (fun s => Retained s.1) (w, sweeps.map (runBackups hash)) as ↔
      Along backupStep Guarded (w, sweeps.map (runBackups hash)) as := by
  refine always_iff_along (I := fun s => Sound hash s ∧ Retained s.1) (fun s h => h.2) ?_ ?_
    ⟨sound_init hbackups harchives sweeps, ?_⟩ hrun
  · rintro s a s' ⟨hsound, hretained⟩ hguard hstep
    refine ⟨hsound.step hstep, ?_⟩
    cases a with
    | call i o =>
      obtain ⟨hsound', c, k, r, g, g', hi, hexec, hnext⟩ := hsound.call hstep
      refine hretained.call hsound'.1 (fun b => hnext.pending) hexec fun hfails => ?_
      exact hguard hfails c (by rw [hi]; rfl)
    | edit elapsed apps =>
      cases hstep
      intro b hb hstatus hyoung
      refine hretained b hb hstatus (hyoung.of_le ?_)
      exact Int.le_add_of_nonneg_right (Int.natCast_nonneg elapsed)
  · rintro s a s' ⟨hsound, -⟩ hstep hretained
    cases a with
    | call i o =>
      obtain ⟨c, k, r, hi, hexec, -⟩ := poolStep_eq_some hstep
      intro hfails c' hc'
      rw [hi] at hc'
      cases hc'
      exact Retained.spares hretained hexec hfails
    | edit elapsed apps => trivial
  · intro b hb
    have hb : b ∈ w.backups.rows := hb
    rw [hbackups] at hb
    exact absurd hb not_mem_nil

def webApp : Application := { id := "web", tenantID := "acme", name := "web" }

def fleet (app : Application) : BackupWorld where
  now := 0
  storages := ["local"]
  tenants := ["acme"]
  apps := ⟨[app], nodup_singleton _⟩
  backups := .empty
  archives := []

def dailySweep (sweep calls : ℕ) : List BackupAction :=
  .call sweep { elapsed := 86400000000000 } ::
    replicate calls (.call sweep { id := toString sweep })

/-- The sweep of the first day uploads the archive, and the one of the day after points at it. -/
def twoDays : List BackupAction := dailySweep 0 14 ++ dailySweep 1 13

/-- The application is not edited, and the sweep of the last day deletes the archive. -/
def month : List BackupAction :=
  dailySweep 0 14 ++ (range 30).flatMap (fun day => dailySweep (day + 1) 13) ++
    dailySweep 31 14

theorem retained_iff_twoDays :
    (∃ s, run backupStep (fleet webApp, [1, 1].map (runBackups (·.sourceURL))) twoDays = some s ∧
      s.1.backups.rows.map (fun b => (b.id, b.status, b.filePath.backupID)) =
        [("0", .completed, "0"), ("1", .completed, "0")]) ∧
      Always backupStep (fun s => Retained s.1) (fleet webApp, [1, 1].map (runBackups (·.sourceURL)))
        twoDays := by
  obtain ⟨s, hrun⟩ : ∃ s,
      run backupStep (fleet webApp, [1, 1].map (runBackups (·.sourceURL))) twoDays = some s := by
    decide +kernel
  exact ⟨by decide +kernel, (retained_iff _ _ rfl rfl hrun).mpr (by decide +kernel)⟩

/-- After a month of daily sweeps, the archive at which the backups of the month point is gone. -/
theorem month_notRetained : ∃ s, run backupStep
    (fleet webApp, (replicate 32 1).map (runBackups (·.sourceURL))) month = some s ∧ ¬ Retained s.1 :=
  by decide +kernel

end DeployMonster.Backup
