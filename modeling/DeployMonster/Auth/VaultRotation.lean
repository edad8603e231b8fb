import DeployMonster.Auth.TOTP
import DeployMonster.Secrets.Boots

/-!
# TOTP secrets and the rotation of the vault

A user's TOTP secret is encrypted with the vault of the secrets module and kept in the users table,
which no re-encryption touches.
-/

namespace DeployMonster.Auth

open DB Interruption Program Secrets List Option

variable {N : Type} {cipher : Cipher String N} {old new : Vault} {db : Accounts}

/-! ## Users and vaults -/

def TOTPService.withVault (svc : TOTPService) (cipher : Cipher String N) (v : Vault) : TOTPService :=
  { svc with vault := some fun c => (cipher.decrypt v c).toOption }

def Enrolled (cipher : Cipher String N) (v : Vault) (db : Accounts) : Prop :=
  ∀ user ∈ db.users.rows, user.totpEnabled = true → ∃ p, cipher.decrypt v user.totpSecret = .ok p

def NoTOTP (db : Accounts) : Prop := ∀ user ∈ db.users.rows, user.totpEnabled = false

structure TOTPKept (cipher : Cipher String N) (old new : Vault) (db : Accounts) : Prop where
  decrypts : ∀ user ∈ db.users.rows, user.totpEnabled = true → ∀ p,
    cipher.decrypt old user.totpSecret = .ok p → cipher.decrypt new user.totpSecret = .ok p
  accepts : ∀ (svc : TOTPService) (userID code : String) (w w' : TOTPWorld) (os : List TOTPChoice)
    (step : ℤ), w.db = db →
    solo totpExec (validateStoredSecret (svc.withVault cipher old) userID code true) w os =
      some (some step, w') →
    solo totpExec (validateStoredSecret (svc.withVault cipher new) userID code true) w os =
      some (some step, w')

/-- **A vault that decrypts the secret accepts the same codes.** -/
theorem solo_validateStoredSecret {svc : TOTPService} {userID code : String} {w w' : TOTPWorld}
    {os : List TOTPChoice} {step : ℤ}
    (hdec : ∀ user ∈ w.db.users.rows, user.totpEnabled = true → ∀ p,
      cipher.decrypt old user.totpSecret = .ok p → cipher.decrypt new user.totpSecret = .ok p)
    (h : solo totpExec (validateStoredSecret (svc.withVault cipher old) userID code true) w os =
      some (some step, w')) :
    solo totpExec (validateStoredSecret (svc.withVault cipher new) userID code true) w os =
      some (some step, w') := by
  have hrefused : ∀ {w} {os},
      solo totpExec (Prog.ret none : TOTP (Option ℤ)) w os ≠ some (some step, w') := by
    intro w os hret
    cases os with
    | nil => cases hret
    | cons o os => cases hret
  cases os with
  | nil => cases h
  | cons o os =>
    unfold validateStoredSecret TOTPService.withVault at h ⊢
    simp only [TOTP.getUser, Prog.perform_bind, solo, totpExec, TOTPCall.perform, bind_some] at h ⊢
    cases huser : (if o.fails then none else (w.wait o.elapsed).db.getUser userID) with
    | none =>
      rw [huser] at h
      exact absurd h hrefused
    | some user =>
      rw [huser] at h
      dsimp only at h ⊢
      have hmem : user ∈ w.db.users.rows := by
        obtain ⟨-, hget⟩ := ite_none_left_eq_some.mp huser
        exact (Table.find?_eq_some_iff.mp hget).1
      by_cases hempty : user.totpSecret = ""
      · rw [if_pos hempty] at h
        exact absurd h hrefused
      rw [if_neg hempty] at h ⊢
      by_cases hdisabled : True ∧ ¬user.totpEnabled = true
      · rw [if_pos hdisabled] at h
        exact absurd h hrefused
      rw [if_neg hdisabled] at h ⊢
      have henabled : user.totpEnabled = true := by simpa using hdisabled
      cases hp : cipher.decrypt old user.totpSecret with
      | error e =>
        rw [hp] at h
        exact absurd h hrefused
      | ok p =>
        rw [hdec user hmem henabled p hp]
        rw [hp] at h
        exact h

/-- **The users' secrets survive a change of the vault when there are none**, or the vault is the
same. -/
theorem totpKept_iff (h : Enrolled cipher old db) :
    TOTPKept cipher old new db ↔ NoTOTP db ∨ new = old := by
  constructor
  · rintro ⟨hdec, -⟩
    refine or_iff_not_imp_left.mpr fun hsome => ?_
    obtain ⟨user, hmem, henabled⟩ : ∃ user ∈ db.users.rows, user.totpEnabled = true := by
      simpa [NoTOTP] using hsome
    obtain ⟨p, hp⟩ := h user hmem henabled
    exact cipher.eq_of_decrypt (hdec user hmem henabled p hp) hp
  · intro hcases
    have hdec : ∀ user ∈ db.users.rows, user.totpEnabled = true → ∀ p,
        cipher.decrypt old user.totpSecret = .ok p →
          cipher.decrypt new user.totpSecret = .ok p := by
      intro user hmem henabled p hp
      rcases hcases with hnone | rfl
      · exact absurd henabled (by rw [hnone user hmem]; decide)
      · exact hp
    refine ⟨hdec, fun svc userID code w w' os step hdb hrun => ?_⟩
    subst hdb
    exact solo_validateStoredSecret hdec hrun

/-! ## Re-encryptions and restarts -/

variable {m m' : Module String} {drawn : DrawnSalt} {nonces : ℕ → N} {stop : Option Stop} {c : ℕ}

/-- The vault after a re-encryption with the drawn salt and a restart with the master secret: without
a KV store the salt is lost. -/
def restartVault (m : Module String) (masterSecret : String) (drawn : Salt) : Vault :=
  match m.kv with
  | none => newLegacyVault masterSecret
  | some _ => newVaultWithSalt masterSecret drawn

/-- **A restart after a re-encryption comes up with `restartVault`.** -/
theorem boot_of_rekeyed (cipher : Cipher String N) (hkv : m'.kv = m.kv.map fun _ => some drawn.1)
    (masterSecret : String) (draws : Draws N) :
    (m'.boot cipher masterSecret {} draws).1 = .returned () ∧
      (m'.boot cipher masterSecret {} draws).2.vault = restartVault m masterSecret drawn := by
  unfold restartVault
  cases hm : m.kv with
  | none =>
    rw [hm] at hkv
    rw [Module.boot, Module.init, Module.resolveVaultSalt, hkv]
    dsimp only [map_none]
    rw [hkv]
    exact ⟨rfl, rfl⟩
  | some stored =>
    rw [hm] at hkv
    have hne : drawn.1 ≠ [] := by
      intro hnil
      exact absurd drawn.2 (by rw [hnil]; decide)
    have hread : readSalt none (some drawn.1) = some drawn.1 :=
      readSalt_eq_some.mpr ⟨rfl, rfl, hne⟩
    have hlen : ¬drawn.1.length < 16 := by
      rw [drawn.2]
      decide
    rw [Module.boot, Module.init, Module.resolveVaultSalt, hkv]
    dsimp only [map_some]
    rw [hread]
    dsimp only
    rw [if_neg hlen]
    dsimp only [Module.start]
    rw [hkv]
    dsimp only [map_some]
    rw [hread]
    exact ⟨rfl, rfl⟩

lemma switch_fields (masterSecret : String) (v : Vault) (m : Module String) :
    (m.switch masterSecret v).store = m.store ∧ (m.switch masterSecret v).kv = m.kv := ⟨rfl, rfl⟩

lemma kv_of_rotate_returns {newMasterSecret : String} {rotated : ℕ}
    (h : Returns (rotateEncryptionKey cipher newMasterSecret drawn nonces) stop 0 m rotated c m') :
    m'.kv = m.kv.map fun _ => some drawn.1 := by
  obtain ⟨_, _, _, hget, hrest⟩ := exists_of_bind_returns h
  cases hget
  split_ifs at hrest
  · exact kv_of_rekey_returns (switch_fields newMasterSecret) hrest
  · cases hrest

lemma kv_of_migrate_returns
    (h : Returns (migrateLegacyVault cipher drawn nonces) stop 0 m () c m') :
    m'.kv = m.kv.map fun _ => some drawn.1 := by
  obtain ⟨_, _, _, hget, hrest⟩ := exists_of_bind_returns h
  cases hget
  obtain ⟨_, _, _, hrekey, hret⟩ := exists_of_bind_returns hrest
  cases hret
  exact kv_of_rekey_returns setVault_fields hrekey

/-- **When a re-encryption keeps the users' secrets.** After a rotation or migration that returned,
and a restart, they are lost unless there are none or the vault has not changed. -/
theorem totp_survives_iff (cipher : Cipher String N) (m : Module String) (db : Accounts)
    (drawn : DrawnSalt) (nonces : ℕ → N) (stop : Option Stop) (draws : Draws N) :
    (∀ newMasterSecret rotated c m', Enrolled cipher m.vault db →
      Returns (rotateEncryptionKey cipher newMasterSecret drawn nonces) stop 0 m rotated c m' →
      (m'.boot cipher newMasterSecret {} draws).1 = .returned () ∧
      (TOTPKept cipher m.vault (m'.boot cipher newMasterSecret {} draws).2.vault db ↔
        NoTOTP db ∨ restartVault m newMasterSecret drawn = m.vault)) ∧
    (∀ c m', Enrolled cipher (newLegacyVault m.masterSecret) db →
      Returns (migrateLegacyVault cipher drawn nonces) stop 0 m () c m' →
      (m'.boot cipher m.masterSecret {} draws).1 = .returned () ∧
      (TOTPKept cipher (newLegacyVault m.masterSecret)
          (m'.boot cipher m.masterSecret {} draws).2.vault db ↔
        NoTOTP db ∨ restartVault m m.masterSecret drawn = newLegacyVault m.masterSecret)) := by
  constructor
  · intro newMasterSecret rotated c m' henrolled hrotated
    obtain ⟨hboot, hvault⟩ :=
      boot_of_rekeyed cipher (kv_of_rotate_returns hrotated) newMasterSecret draws
    rw [hvault]
    exact ⟨hboot, totpKept_iff henrolled⟩
  · intro c m' henrolled hmigrated
    obtain ⟨hboot, hvault⟩ :=
      boot_of_rekeyed cipher (kv_of_migrate_returns hmigrated) m.masterSecret draws
    rw [hvault]
    exact ⟨hboot, totpKept_iff henrolled⟩

def rotatingModule (byte : UInt8) : Module String where
  hasStore := true
  store := ⟨[], nodup_nil⟩
  kv := some (some (replicate vaultSaltLen byte))
  vault := ⟨"master", replicate vaultSaltLen byte⟩
  masterSecret := "master"

def oneUser (v : Vault) : Accounts where
  users :=
    ⟨[{ id := "alice", email := "alice@example.com", passwordHash := "", name := "Alice",
        totpEnabled := true, totpSecret := textSealing.encrypt v () "JBSWY3DPEHPK3PXP" }],
      nodup_singleton _⟩
  members := []
  invitations := ⟨[], nodup_nil⟩

lemma enrolled_oneUser (v : Vault) : Enrolled textSealing v (oneUser v) := by
  intro user hmem _
  obtain rfl := mem_singleton.mp hmem
  exact ⟨_, textSealing.decrypt_encrypt v () "JBSWY3DPEHPK3PXP"⟩

def zeroCodes : TOTPService where
  vault := none
  replay := false
  backupStore := false
  base32 _ := some []
  hmacSHA1 _ _ := replicate 20 0
  bcrypt _ _ := false

/-- What is answered to the code 000000 of the user, after a number of calls. -/
def checkCode (v : Vault) (calls : ℕ) : Option (Option ℤ) :=
  (solo totpExec (validateStoredSecret (zeroCodes.withVault textSealing v) "alice" "000000" true)
    { now := 1700000000 * Clock.second
      kv := fun _ _ => none
      db := oneUser (rotatingModule 1).vault }
    (replicate calls {})).map (·.1)

/-- A rotation that draws the salt that is in use, for the same master secret, loses nothing. -/
theorem totp_survives_iff_same :
    Enrolled textSealing (rotatingModule 1).vault (oneUser (rotatingModule 1).vault) ∧
    ∃ rotated c m', Returns (rotateEncryptionKey textSealing "master" (drawsOf 1 1).initSalt fun _ => ())
        none 0 (rotatingModule 1) rotated c m' ∧
      TOTPKept textSealing (rotatingModule 1).vault
        (m'.boot textSealing "master" {} (drawsOf 3 4)).2.vault
        (oneUser (rotatingModule 1).vault) := by
  refine ⟨enrolled_oneUser _, _, _, _, rfl, ?_⟩
  exact (((totp_survives_iff _ _ (oneUser (rotatingModule 1).vault) (drawsOf 1 1).initSalt (fun _ =>
    ()) none (drawsOf 3 4)).1 "master" _ _ _ (enrolled_oneUser _) rfl).2).mpr (.inr rfl)

/-- A rotation to a new master secret returns, and after the restart the user's secret does not
decrypt: a code that was accepted is refused. -/
theorem rotation_loses_totp :
    Enrolled textSealing (rotatingModule 1).vault (oneUser (rotatingModule 1).vault) ∧
    ∃ m', Returns (rotateEncryptionKey textSealing "renewed" (drawsOf 2 2).initSalt fun _ => ())
        none 0 (rotatingModule 1) 0 4 m' ∧
      (m'.boot textSealing "renewed" {} (drawsOf 3 4)).1 = .returned () ∧
      checkCode (rotatingModule 1).vault 2 = some (some 56666665) ∧
      checkCode (m'.boot textSealing "renewed" {} (drawsOf 3 4)).2.vault 1 = some none ∧
      ¬TOTPKept textSealing (rotatingModule 1).vault
        (m'.boot textSealing "renewed" {} (drawsOf 3 4)).2.vault
        (oneUser (rotatingModule 1).vault) := by
  refine ⟨enrolled_oneUser _, _, rfl, rfl, by decide, by decide, fun hkept => ?_⟩
  rcases (totpKept_iff (enrolled_oneUser _)).mp hkept with hnone | hsame
  · exact absurd (hnone _ (mem_singleton_self _)) (by decide)
  · exact absurd (congrArg Vault.masterSecret hsame) (by decide)

end DeployMonster.Auth
