import DeployMonster.DB.Tables
import DeployMonster.Library.Interruption

/-!
# Vaults and their cipher

A vault holds the key derived from a master secret and a salt; the model keeps the pair. The cipher
is an abstract one that is correct: no ciphertext decrypts under two pairs.
-/

namespace DeployMonster.Secrets

open List

abbrev Salt := List UInt8

def vaultSaltLen : ℕ := 32

/-- The salt of installations from before per-deployment salts: the first 16 bytes of the SHA-256
digest of the text deploymonster-vault-salt-v1. -/
def legacyVaultSalt : Salt :=
  [71, 144, 90, 39, 40, 121, 10, 3, 156, 0, 64, 49, 209, 115, 226, 44]

/-- A vault, by the pair its key is derived from. -/
@[ext] structure Vault where
  masterSecret : String
  salt : Salt
  deriving DecidableEq

def newVaultWithSalt (masterSecret : String) (salt : Salt) : Vault :=
  ⟨masterSecret, if salt.length = 0 then legacyVaultSalt else salt⟩

def newLegacyVault (masterSecret : String) : Vault :=
  newVaultWithSalt masterSecret legacyVaultSalt

lemma newVaultWithSalt_salt {salt : Salt} (h : salt.length = vaultSaltLen)
    (masterSecret : String) : newVaultWithSalt masterSecret salt = ⟨masterSecret, salt⟩ := by
  rw [newVaultWithSalt, if_neg (by rw [h]; decide)]

lemma ne_legacyVaultSalt {salt : Salt} (h : salt.length = vaultSaltLen) :
    salt ≠ legacyVaultSalt := by
  rintro rfl
  exact absurd h (by decide)

/-- A correct cipher with ciphertexts `C` and nonces `N`; decryption reports why it fails. -/
structure Cipher (C N : Type) where
  encrypt : Vault → N → String → C
  decrypt : Vault → C → Except String String
  decrypt_encrypt : ∀ v n p, decrypt v (encrypt v n p) = .ok p
  eq_of_decrypt : ∀ {v w c p q}, decrypt v c = .ok p → decrypt w c = .ok q → v = w

/-- A ciphertext is an envelope that names its vault and opens under no other. -/
def sealing : Cipher (Vault × String) Unit where
  encrypt v _ p := (v, p)
  decrypt v c :=
    if c.1 = v then .ok c.2 else .error "decrypt: cipher: message authentication failed"
  decrypt_encrypt v n p := if_pos rfl
  eq_of_decrypt {v w c p q} hv hw := by
    split_ifs at hv hw with hcv hcw
    exact hcv.symm.trans hcw

def spell (cs : List Char) : List Char := cs.flatMap (fun c => ['+', c]) ++ ['.']

lemma spell_append_inj {cs ds t u : List Char} (h : spell cs ++ t = spell ds ++ u) :
    cs = ds ∧ t = u := by
  induction cs generalizing ds with
  | nil =>
    cases ds with
    | nil => exact ⟨rfl, tail_eq_of_cons_eq h⟩
    | cons d ds => exact absurd (head_eq_of_cons_eq h) (by decide)
  | cons c cs ih =>
    cases ds with
    | nil => exact absurd (head_eq_of_cons_eq h) (by decide)
    | cons d ds =>
      have htail := tail_eq_of_cons_eq h
      obtain ⟨rfl, rfl⟩ := ih (tail_eq_of_cons_eq htail)
      exact ⟨by rw [head_eq_of_cons_eq htail], rfl⟩

def Vault.head (v : Vault) : List Char :=
  spell v.masterSecret.toList ++ spell (v.salt.map Char.ofUInt8)

lemma ofUInt8_injective : Function.Injective Char.ofUInt8 := by
  intro b c h
  have hnat : b.toUInt32.toNat = c.toUInt32.toNat := congrArg (fun d => d.val.toNat) h
  rw [UInt8.toNat_toUInt32, UInt8.toNat_toUInt32] at hnat
  exact UInt8.toNat_inj.mp hnat

lemma Vault.head_append_inj {v w : Vault} {t u : List Char} (h : v.head ++ t = w.head ++ u) :
    v = w := by
  unfold Vault.head at h
  rw [append_assoc, append_assoc] at h
  obtain ⟨hsecret, hrest⟩ := spell_append_inj h
  obtain ⟨hsalt, -⟩ := spell_append_inj hrest
  have hsecret := String.toList_inj.mp hsecret
  have hsalt : v.salt = w.salt := (map_inj_right ofUInt8_injective).mp hsalt
  exact Vault.ext hsecret hsalt

/-- A ciphertext is a text that begins with the head of its vault. -/
def textSealing : Cipher String Unit where
  encrypt v _ p := String.ofList (v.head ++ p.toList)
  decrypt v c :=
    if v.head <+: c.toList then .ok (String.ofList (c.toList.drop v.head.length))
    else .error "decrypt: cipher: message authentication failed"
  decrypt_encrypt v n p := by
    rw [String.toList_ofList, if_pos (prefix_append _ _), drop_left, String.ofList_toList]
  eq_of_decrypt {v w c p q} hv hw := by
    split_ifs at hv hw with hcv hcw
    obtain ⟨t, ht⟩ := hcv
    obtain ⟨u, hu⟩ := hcw
    exact Vault.head_append_inj (ht.trans hu.symm)

/-!
# Re-encryption of the stored secrets

`RotateEncryptionKey` and `migrateLegacyVault` of `internal/secrets/module.go`. The effects are
numbered from 0: the salt is drawn, the versions are listed, each version takes an encryption and an
update, and the salt is persisted.
-/

open DB Interruption SecretTable Stops

/-- What the two operations use of the module. -/
structure Module (C : Type) where
  /-- Whether the module has its store yet. -/
  hasStore : Bool
  store : SecretTable C
  /-- The KV store, if there is one, and its entry `vault/salt`. -/
  kv : Option (Option Salt)
  vault : Vault
  masterSecret : String

variable {C N ε : Type} (m : Module C)

def Module.setStore (store : SecretTable C) : Module C :=
  { m with store := store }

def Module.setVault (newVault : Vault) (m : Module C) : Module C :=
  { m with vault := newVault }

def Module.switch (newMasterSecret : String) (newVault : Vault) (m : Module C) : Module C :=
  { m with vault := newVault, masterSecret := newMasterSecret }

def generateVaultSalt (wrap : String → ε) (drawn : Salt) : Op (Module C) ε Salt :=
  Op.effect (fun reason => wrap ("vault salt rand: " ++ reason)) fun m => (drawn, m)

def persistSalt (wrap : String → ε) (salt : Salt) : Op (Module C) ε Unit := do
  let m ← Op.get
  match m.kv with
  | none => pure ()
  | some _ => Op.effect wrap fun m => ((), { m with kv := some (some salt) })

/-- The errors of a re-encryption; `rotated` is the number of versions rewritten so far. -/
structure Errors (C ε : Type) where
  (salt list : String → ε)
  (decrypt reencrypt update : SecretVersion C → (rotated : ℕ) → String → ε)
  persist : (rotated : ℕ) → String → ε

variable (cipher : Cipher C N) (errs : Errors C ε) (nonces : ℕ → N)

/-- The loop over the listed versions. -/
def reencryptVersions (old new : Vault) :
    List (SecretVersion C) → ℕ → Op (Module C) ε ℕ
  | [], rotated => pure rotated
  | v :: vs, rotated => do
    let plaintext ← match cipher.decrypt old v.valueEnc with
      | .ok p => pure p
      | .error e => Op.fail (errs.decrypt v rotated e)
    let newEnc ← Op.effect
      (fun reason => errs.reencrypt v rotated ("generate nonce: " ++ reason))
      fun m => (cipher.encrypt new (nonces rotated) plaintext, m)
    Op.effect (errs.update v rotated) fun m =>
      ((), m.setStore (m.store.updateSecretVersionValue v.id newEnc))
    reencryptVersions old new vs (rotated + 1)

/-- The common course of the two operations: from the vault `old` to one with the given master
secret and a drawn salt, to which `switch` turns the running module. -/
def rekey (old : Vault) (masterSecret : String) (drawn : Salt)
    (switch : Vault → Module C → Module C) : Op (Module C) ε ℕ := do
  let newSalt ← generateVaultSalt errs.salt drawn
  let newVault := newVaultWithSalt masterSecret newSalt
  let versions ← Op.effect errs.list fun m => (m.store.listAllSecretVersions, m)
  let rotated ← reencryptVersions cipher errs nonces old newVault versions 0
  persistSalt (errs.persist rotated) newSalt
  Op.modify (switch newVault)
  Op.checkpoint
  pure rotated

def rotateErrors : Errors C (ℕ × String) where
  salt e := (0, "generate vault salt: " ++ e)
  list e := (0, "list secret versions: " ++ e)
  decrypt v rotated e :=
    (rotated, "decrypt version " ++ v.id ++ " (secret " ++ v.secretID ++ "): " ++ e)
  reencrypt v rotated e := (rotated, "re-encrypt version " ++ v.id ++ ": " ++ e)
  update v rotated e := (rotated, "update version " ++ v.id ++ ": " ++ e)
  persist rotated e := (rotated, "persist rotated salt: " ++ e)

/-- Re-encrypts every listed version under a new master secret and a new salt; returns how many. -/
def rotateEncryptionKey (cipher : Cipher C N) (newMasterSecret : String) (drawn : Salt)
    (nonces : ℕ → N) : Op (Module C) (ℕ × String) ℕ := do
  let m ← Op.get
  if m.hasStore then
    rekey cipher rotateErrors nonces m.vault newMasterSecret drawn (Module.switch newMasterSecret)
  else
    Op.fail (0, "store not initialized")

def migrateErrors : Errors C String where
  salt e := e
  list e := "list versions: " ++ e
  decrypt v _ e := "decrypt legacy version " ++ v.id ++ ": " ++ e
  reencrypt v _ e := "re-encrypt version " ++ v.id ++ ": " ++ e
  update v _ e := "update version " ++ v.id ++ ": " ++ e
  persist _ e := "persist salt: " ++ e

/-- Re-encrypts every listed version from the legacy salt to a new one, under the same master
secret. -/
def migrateLegacyVault (cipher : Cipher C N) (drawn : Salt) (nonces : ℕ → N) :
    Op (Module C) String Unit := do
  let m ← Op.get
  let _rotated ← rekey cipher migrateErrors nonces (newLegacyVault m.masterSecret) m.masterSecret
    drawn Module.setVault
  pure ()

variable {v : SecretVersion C}
  {cipher : Cipher C N} {errs : Errors C ε} {nonces : ℕ → N} {old new : Vault}
  {t t' : SecretTable C} {done : List (SecretVersion C)} {stop : Option Stop} {c : ℕ} {m : Module C}

/-- From the table `t` to `t'` the versions in `done` went from the vault `old` to the vault `new`
and no other changed. -/
def Rewritten (cipher : Cipher C N) (old new : Vault) (done : List (SecretVersion C))
    (t t' : SecretTable C) : Prop :=
  ∀ r ∈ t.rows, ∃ r' ∈ t'.rows, r'.id = r.id ∧
    (r ∈ done → ∃ p, cipher.decrypt old r.valueEnc = .ok p ∧
      cipher.decrypt new r'.valueEnc = .ok p) ∧
    (r ∉ done → r'.valueEnc = r.valueEnc)

lemma rewritten_nil : Rewritten cipher old new [] t t :=
  fun r hr => ⟨r, hr, rfl, fun h => absurd h not_mem_nil, fun _ => rfl⟩

lemma Rewritten.snoc (h : Rewritten cipher old new done t t') (hv : v ∈ t.rows) {p : String}
    (hp : cipher.decrypt old v.valueEnc = .ok p) (n : N) :
    Rewritten cipher old new (done ++ [v]) t
      (t'.updateSecretVersionValue v.id (cipher.encrypt new n p)) := by
  intro r hr
  obtain ⟨r', hr', hid, hdone, hother⟩ := h r hr
  refine ⟨_, mem_updateSecretVersionValue hr' _ _, by simpa using hid, ?_⟩
  by_cases hrv : r = v
  · subst hrv
    have hval : (updateRow r.id (cipher.encrypt new n p) r').valueEnc =
        cipher.encrypt new n p := by
      rw [updateRow, if_pos hid]
    rw [hval]
    exact ⟨fun _ => ⟨p, hp, cipher.decrypt_encrypt new n p⟩, fun hr => by simp at hr⟩
  · have hne : r'.id ≠ v.id := fun heq => hrv (eq_of_id_eq hr hv (hid ▸ heq))
    rw [updateRow, if_neg hne]
    simpa [hrv] using ⟨hdone, hother⟩

/-- The loop cannot pass the version `v` with its first effect at `c`. -/
def Blocked (cipher : Cipher C N) (old : Vault) (stop : Option Stop) (c : ℕ)
    (v : SecretVersion C) : Prop :=
  (∀ p, cipher.decrypt old v.valueEnc ≠ .ok p) ∨ ¬ Clear stop c (c + 2)

variable {vs : List (SecretVersion C)} {rotated : ℕ}

lemma reencryptVersions_blocked (h : Blocked cipher old stop c v) :
    Stops (reencryptVersions cipher errs nonces old new (v :: vs) rotated) stop c m m := by
  rw [reencryptVersions]
  cases hdec : cipher.decrypt old v.valueEnc with
  | error e => exact bind_left (fail_stops _)
  | ok p =>
    have hclear : ¬ Clear stop c (c + 2) := h.resolve_left fun hno => hno p hdec
    refine bind_right (pure_returns p) ?_
    by_cases henc : Clear stop c (c + 1)
    · refine bind_right (effect_returns _ _ henc) (bind_left (effect_stops _ _ ?_))
      exact fun hupd => hclear (henc.trans hupd)
    · exact bind_left (effect_stops _ _ henc)

lemma reencryptVersions_passes {p : String}
    (hdec : cipher.decrypt old v.valueEnc = .ok p) (hclear : Clear stop c (c + 2)) :
    reencryptVersions cipher errs nonces old new (v :: vs) rotated stop c m =
      reencryptVersions cipher errs nonces old new vs (rotated + 1) stop (c + 2) (m.setStore
        (m.store.updateSecretVersionValue v.id (cipher.encrypt new (nonces rotated) p))) := by
  rw [reencryptVersions, hdec]
  refine bind_eq_of_returns (pure_returns p) ?_
  refine bind_eq_of_returns (effect_returns _ _ (hclear.mono le_rfl (by omega))) ?_
  exact bind_eq_of_returns (effect_returns _ _ (hclear.mono (by omega) le_rfl)) rfl

/-- **What the loop leaves**: it passes every version, or the ones before a version at which it is
blocked. -/
theorem reencryptVersions_ends (errs : Errors C ε) (nonces : ℕ → N) (stop : Option Stop) (c : ℕ)
    (vs : List (SecretVersion C)) (hvs : ∀ v ∈ vs, v ∈ t.rows)
    (h : Rewritten cipher old new done t m.store) (rotated : ℕ) :
    (∃ t', Returns (reencryptVersions cipher errs nonces old new vs rotated) stop c m
        (rotated + vs.length) (c + 2 * vs.length) (m.setStore t') ∧
      Rewritten cipher old new (done ++ vs) t t' ∧ Clear stop c (c + 2 * vs.length)) ∨
    ∃ pre v post t', vs = pre ++ v :: post ∧
      Stops (reencryptVersions cipher errs nonces old new vs rotated) stop c m
        (m.setStore t') ∧
      Rewritten cipher old new (done ++ pre) t t' ∧ Clear stop c (c + 2 * pre.length) ∧
      Blocked cipher old stop (c + 2 * pre.length) v := by
  induction vs generalizing done rotated c m with
  | nil =>
    refine Or.inl ⟨m.store, pure_returns _, by simpa using h, fun s _ => ?_⟩
    show s.point < c ∨ c ≤ s.point
    omega
  | cons v vs ih =>
    by_cases hb : Blocked cipher old stop c v
    · refine Or.inr ⟨[], v, vs, m.store, rfl, reencryptVersions_blocked hb, by simpa using h,
        fun s _ => ?_, hb⟩
      show s.point < c ∨ c ≤ s.point
      omega
    obtain ⟨hdec, hclear⟩ := not_or.mp hb
    obtain ⟨p, hp⟩ : ∃ p, cipher.decrypt old v.valueEnc = .ok p := by simpa using hdec
    have hclear : Clear stop c (c + 2) := not_not.mp hclear
    have hsnoc := h.snoc (hvs v (by simp)) hp (nonces rotated)
    simp only [Returns, Stops, reencryptVersions_passes hp hclear]
    obtain ⟨t', hret, hrew, hrest⟩ | ⟨pre, u, post, t', rfl, hstops, hrew, hrest, hblocked⟩ :=
      ih (m := m.setStore _) (c + 2) (fun u hu => hvs u (by simp [hu])) hsnoc (rotated + 1)
    · have hlen : c + 2 * (v :: vs).length = c + 2 + 2 * vs.length := by
        rw [length_cons]
        omega
      have hcount : rotated + (v :: vs).length = rotated + 1 + vs.length := by
        rw [length_cons]
        omega
      rw [hlen, hcount]
      exact Or.inl ⟨t', hret, by simpa using hrew, hclear.trans hrest⟩
    · have hlen : c + 2 * (v :: pre).length = c + 2 + 2 * pre.length := by
        rw [length_cons]
        omega
      refine Or.inr ⟨v :: pre, u, post, t', rfl, hstops, by simpa using hrew, ?_, ?_⟩
      · rw [hlen]
        exact hclear.trans hrest
      · rwa [hlen]

variable {drawn : Salt} {switch : Vault → Module C → Module C}

def Module.saltWrites : ℕ := if m.kv.isSome then 1 else 0

def Module.setSalt (salt : Salt) : Module C :=
  { m with kv := m.kv.map fun _ => some salt }

variable {wrap : String → ε}

lemma persistSalt_returns (h : Clear stop c (c + m.saltWrites)) :
    Returns (persistSalt wrap drawn) stop c m () (c + m.saltWrites) (m.setSalt drawn) := by
  refine Returns.bind get_returns ?_
  cases hkv : m.kv with
  | none =>
    have hwrites : m.saltWrites = 0 := by simp [Module.saltWrites, hkv]
    have hsame : m.setSalt drawn = m := by
      cases m
      simp_all [Module.setSalt]
    rw [hwrites, hsame]
    exact pure_returns ()
  | some stored =>
    have hwrites : m.saltWrites = 1 := by simp [Module.saltWrites, hkv]
    rw [hwrites] at h ⊢
    simpa [Module.setSalt, hkv] using effect_returns wrap (s := m)
      (fun m => ((), { m with kv := some (some drawn) })) h

lemma persistSalt_stops (h : ¬ Clear stop c (c + m.saltWrites)) :
    Stops (persistSalt wrap drawn) stop c m m := by
  refine bind_right get_returns ?_
  cases hkv : m.kv with
  | none =>
    have hwrites : m.saltWrites = 0 := by simp [Module.saltWrites, hkv]
    refine absurd (fun s _ => ?_) h
    omega
  | some stored =>
    have hwrites : m.saltWrites = 1 := by simp [Module.saltWrites, hkv]
    rw [hwrites] at h
    exact effect_stops _ _ h

/-- The number of the point between the last effect and the return: the salt is drawn, the versions
are listed, each is encrypted and updated, the salt is persisted. -/
def Module.lastPoint : ℕ :=
  2 + 2 * m.store.listAllSecretVersions.length + m.saltWrites

def Rewrites (cipher : Cipher C N) (m : Module C) (old : Vault) (stop : Option Stop) : Prop :=
  ∃ v ∈ m.store.listAllSecretVersions.head?, (∃ p, cipher.decrypt old v.valueEnc = .ok p) ∧
    Clear stop 0 4

/-- Every effect takes place. -/
def Completes (cipher : Cipher C N) (m : Module C) (old : Vault) (stop : Option Stop) : Prop :=
  (∀ v ∈ m.store.listAllSecretVersions, ∃ p, cipher.decrypt old v.valueEnc = .ok p) ∧
    Clear stop 0 m.lastPoint

/-- A re-encryption that completes leaves every listed version under the new vault and the salt
persisted. -/
def Finished (cipher : Cipher C N) (m : Module C) (old new : Vault) (drawn : Salt)
    (m' : Module C) : Prop :=
  Rewritten cipher old new m.store.listAllSecretVersions m.store m'.store ∧
    m'.kv = m.kv.map fun _ => some drawn

/-- A re-encryption that is cut short leaves the versions of an initial piece of the listing under
the new vault, and the salt as it was. -/
def CutShort (cipher : Cipher C N) (m : Module C) (old new : Vault) (stop : Option Stop)
    (m' : Module C) : Prop :=
  ∃ pre, pre <+: m.store.listAllSecretVersions ∧ (Rewrites cipher m old stop ↔ pre ≠ []) ∧
    Rewritten cipher old new pre m.store m'.store ∧ m'.kv = m.kv

lemma reencryptListed_ends (cipher : Cipher C N) (errs : Errors C ε) (nonces : ℕ → N)
    (old new : Vault) (stop : Option Stop) (m : Module C) :
    (∃ t', Returns (reencryptVersions cipher errs nonces old new m.store.listAllSecretVersions 0)
        stop 2 m m.store.listAllSecretVersions.length
        (2 + 2 * m.store.listAllSecretVersions.length) (m.setStore t') ∧
      Rewritten cipher old new m.store.listAllSecretVersions m.store t' ∧
      Clear stop 2 (2 + 2 * m.store.listAllSecretVersions.length)) ∨
    ∃ pre v post t', m.store.listAllSecretVersions = pre ++ v :: post ∧
      Stops (reencryptVersions cipher errs nonces old new m.store.listAllSecretVersions 0)
        stop 2 m (m.setStore t') ∧
      Rewritten cipher old new pre m.store t' ∧ Clear stop 2 (2 + 2 * pre.length) ∧
      Blocked cipher old stop (2 + 2 * pre.length) v := by
  have hstart : Rewritten cipher old new [] m.store m.store := rewritten_nil
  have hends := reencryptVersions_ends errs nonces stop 2 m.store.listAllSecretVersions
    (fun v hv => mem_listAllSecretVersions hv) hstart 0
  rwa [Nat.zero_add] at hends

variable {pre : List (SecretVersion C)}

lemma Completes.not_blocked (h : Completes cipher m old stop) {post : List (SecretVersion C)}
    (hsplit : m.store.listAllSecretVersions = pre ++ v :: post) :
    ¬ Blocked cipher old stop (2 + 2 * pre.length) v := by
  obtain ⟨hdec, hclear⟩ := h
  rintro (hno | hstop)
  · obtain ⟨p, hp⟩ := hdec v (by simp [hsplit])
    exact hno p hp
  · refine hstop (hclear.mono (Nat.zero_le _) ?_)
    rw [Module.lastPoint, hsplit, length_append, length_cons]
    omega

lemma Completes.rows_eq_nil (h : Completes cipher m old stop)
    (hnone : ¬ Rewrites cipher m old stop) : m.store.rows = [] := by
  obtain ⟨hdec, hclear⟩ := h
  refine listAllSecretVersions_eq_nil ?_
  by_contra hne
  obtain ⟨v, vs, hvs⟩ := exists_cons_of_ne_nil hne
  refine hnone ⟨v, by simp [hvs], hdec v (by simp [hvs]), hclear.mono le_rfl ?_⟩
  rw [Module.lastPoint, hvs, length_cons]
  omega

/-- **A re-encryption that completes** returns, unless it is killed right before that. -/
theorem rekey_completes (errs : Errors C ε) (nonces : ℕ → N) (masterSecret : String) (drawn : Salt)
    (hswitch : ∀ v m, (switch v m).store = m.store ∧ (switch v m).kv = m.kv)
    (h : Completes cipher m old stop) :
    ∃ m', Finished cipher m old (newVaultWithSalt masterSecret drawn) drawn m' ∧
      (∃ t', m' = switch (newVaultWithSalt masterSecret drawn) ((m.setStore t').setSalt drawn)) ∧
      if stop = some ⟨m.lastPoint, .kill⟩ then
        Stops (rekey cipher errs nonces old masterSecret drawn switch) stop 0 m m'
      else ∃ rotated c, Returns (rekey cipher errs nonces old masterSecret drawn switch) stop 0 m
        rotated c m' := by
  have hsalt : Clear stop 0 1 := h.2.mono le_rfl (by rw [Module.lastPoint]; omega)
  have hlist : Clear stop 1 2 := h.2.mono (by omega) (by rw [Module.lastPoint]; omega)
  have hpersist : Clear stop (2 + 2 * m.store.listAllSecretVersions.length) m.lastPoint :=
    h.2.mono (Nat.zero_le _) le_rfl
  obtain ⟨t', hloop, hrew, -⟩ | ⟨pre, v, post, -, hsplit, -, -, -, hblocked⟩ :=
    reencryptListed_ends cipher errs nonces old (newVaultWithSalt masterSecret drawn) stop m
  · obtain ⟨hstore, hkv⟩ := hswitch (newVaultWithSalt masterSecret drawn)
      ((m.setStore t').setSalt drawn)
    refine ⟨_, ⟨hstore ▸ hrew, hkv⟩, ⟨t', rfl⟩, ?_⟩
    split_ifs with hkill
    · exact bind_right (effect_returns _ _ hsalt) <|
        bind_right (effect_returns _ _ hlist) <| bind_right hloop <|
        bind_right (persistSalt_returns hpersist) <|
        bind_right (modify_returns _) <| bind_left (checkpoint_stops hkill)
    · exact ⟨_, _, Returns.bind (effect_returns _ _ hsalt) <|
        Returns.bind (effect_returns _ _ hlist) <| Returns.bind hloop <|
        Returns.bind (persistSalt_returns hpersist) <| Returns.bind (modify_returns _) <|
        Returns.bind (checkpoint_returns hkill) (pure_returns _)⟩
  · exact absurd hblocked (h.not_blocked hsplit)

lemma Rewritten.decrypts
    (h : Rewritten cipher old new pre m.store t) (hpre : pre <+: m.store.listAllSecretVersions)
    (hv : v ∈ pre) : ∃ p, cipher.decrypt old v.valueEnc = .ok p := by
  obtain ⟨_, _, _, hdone, _⟩ := h v (mem_listAllSecretVersions (hpre.subset hv))
  obtain ⟨p, hp, _⟩ := hdone hv
  exact ⟨p, hp⟩

lemma Rewritten.rewrites
    (h : Rewritten cipher old new pre m.store t) (hpre : pre <+: m.store.listAllSecretVersions)
    (hne : pre ≠ []) (hclear : Clear stop 0 (2 + 2 * pre.length)) : Rewrites cipher m old stop := by
  obtain ⟨v, pre, rfl⟩ := exists_cons_of_ne_nil hne
  obtain ⟨post, hpost⟩ := hpre
  refine ⟨v, by simp [← hpost], h.decrypts ⟨post, hpost⟩ (by simp), hclear.mono le_rfl ?_⟩
  rw [length_cons]
  omega

lemma cutShort_self (h : ¬ Clear stop 0 2) : CutShort cipher m old new stop m := by
  refine ⟨[], nil_prefix, ⟨?_, fun hne => absurd rfl hne⟩, rewritten_nil, rfl⟩
  rintro ⟨_, _, _, hclear⟩
  exact absurd (hclear.mono le_rfl (by omega)) h

/-- **A re-encryption that does not complete** fails or is killed. -/
theorem rekey_cutShort (errs : Errors C ε) (nonces : ℕ → N) (masterSecret : String) (drawn : Salt)
    (switch : Vault → Module C → Module C) (h : ¬ Completes cipher m old stop) :
    ∃ m', CutShort cipher m old (newVaultWithSalt masterSecret drawn) stop m' ∧
      (∃ t', m' = m.setStore t') ∧
      Stops (rekey cipher errs nonces old masterSecret drawn switch) stop 0 m m' := by
  by_cases hsalt : Clear stop 0 1
  swap
  · exact ⟨m, cutShort_self fun hclear => hsalt (hclear.mono le_rfl (by omega)), ⟨m.store, rfl⟩,
      bind_left (effect_stops _ _ hsalt)⟩
  by_cases hlist : Clear stop 1 2
  swap
  · exact ⟨m, cutShort_self fun hclear => hlist (hclear.mono (by omega) le_rfl), ⟨m.store, rfl⟩,
      bind_right (effect_returns _ _ hsalt) (bind_left (effect_stops _ _ hlist))⟩
  obtain ⟨t', hloop, hrew, hclear⟩ | ⟨pre, v, post, t', hsplit, hloop, hrew, hclear, hblocked⟩ :=
    reencryptListed_ends cipher errs nonces old (newVaultWithSalt masterSecret drawn) stop m
  · have hbefore := (hsalt.trans hlist).trans hclear
    have hpersist : ¬ Clear stop (2 + 2 * m.store.listAllSecretVersions.length)
        (2 + 2 * m.store.listAllSecretVersions.length + (m.setStore t').saltWrites) :=
      fun hpersist => h ⟨fun v => hrew.decrypts prefix_rfl, hbefore.trans hpersist⟩
    refine ⟨m.setStore t', ⟨_, prefix_rfl, ⟨?_, ?_⟩, hrew, rfl⟩, ⟨t', rfl⟩, ?_⟩
    · rintro ⟨v, hv, _⟩ hnil
      simp [hnil] at hv
    · exact fun hne => hrew.rewrites prefix_rfl hne hbefore
    · exact bind_right (effect_returns _ _ hsalt) <|
        bind_right (effect_returns _ _ hlist) <| bind_right hloop <|
        bind_left (persistSalt_stops hpersist)
  · have hpre : pre <+: m.store.listAllSecretVersions := ⟨v :: post, hsplit.symm⟩
    refine ⟨m.setStore t', ⟨pre, hpre, ⟨?_, ?_⟩, hrew, rfl⟩, ⟨t', rfl⟩, ?_⟩
    · rintro ⟨u, hu, ⟨p, hp⟩, hfour⟩ rfl
      obtain rfl : v = u := by simpa [hsplit] using hu
      exact hblocked.elim (fun hno => hno p hp) fun hstop => hstop (hfour.mono (by omega) le_rfl)
    · exact fun hne => hrew.rewrites hpre hne ((hsalt.trans hlist).trans hclear)
    · exact bind_right (effect_returns _ _ hsalt) <|
        bind_right (effect_returns _ _ hlist) <| bind_left hloop

lemma kv_of_rekey_returns {masterSecret : String}
    {m' : Module C} (hswitch : ∀ v m, (switch v m).store = m.store ∧ (switch v m).kv = m.kv)
    (h : Returns (rekey cipher errs nonces old masterSecret drawn switch) stop 0 m rotated c m') :
    m'.kv = m.kv.map fun _ => some drawn := by
  by_cases hcompletes : Completes cipher m old stop
  · obtain ⟨m'', ⟨-, hkv⟩, -, hends⟩ :=
      rekey_completes errs nonces masterSecret drawn hswitch hcompletes
    split_ifs at hends
    · exact absurd hends h.not_stops
    · obtain ⟨_, _, hends⟩ := hends
      rw [h.state_eq hends, hkv]
  · obtain ⟨m'', -, -, hstops⟩ := rekey_cutShort errs nonces masterSecret drawn switch hcompletes
    exact absurd hstops h.not_stops

lemma ids_updateSecretVersionValue (t : SecretTable C) (id : String) (valueEnc : C) :
    (t.updateSecretVersionValue id valueEnc).rows.map (·.id) = t.rows.map (·.id) := by
  rw [updateSecretVersionValue, map_map]
  exact map_congr_left fun r _ => id_updateRow id valueEnc r

lemma reencryptVersions_frame (vs : List (SecretVersion C)) (rotated : ℕ) :
    Frame (reencryptVersions cipher errs nonces old new vs rotated)
      (fun m : Module C => m.store.rows.map (·.id)) := by
  induction vs generalizing rotated with
  | nil => exact Frame.pure _
  | cons v vs ih =>
    rw [reencryptVersions]
    split
    · refine Frame.bind (Frame.pure _) fun p => Frame.bind ?_ fun newEnc => Frame.bind ?_ fun _ => ih _
      · exact Frame.effect fun m => rfl
      · exact Frame.effect fun m => ids_updateSecretVersionValue m.store v.id newEnc
    · exact Frame.fail_bind _

lemma rekey_frame (masterSecret : String) (drawn : Salt) (switch : Vault → Module C → Module C)
    (hswitch : ∀ v m, (switch v m).store = m.store) :
    Frame (rekey cipher errs nonces old masterSecret drawn switch)
      (fun m : Module C => m.store.rows.map (·.id)) := by
  refine Frame.bind (Frame.effect fun m => rfl) fun newSalt => Frame.bind (Frame.effect fun m => rfl)
    fun versions => Frame.bind (reencryptVersions_frame _ _) fun rotated => Frame.bind ?_ fun _ =>
    Frame.bind (Frame.modify fun m => by rw [hswitch]) fun _ => Frame.bind Frame.checkpoint fun _ =>
    Frame.pure _
  refine Frame.bind Frame.get fun m => ?_
  split
  · exact Frame.pure _
  · exact Frame.effect fun m => rfl

end DeployMonster.Secrets
