import DeployMonster.Secrets.Rotation

/-!
# What a re-encryption preserves

A stored version can be recovered as long as a salt that survives the process and a master secret
the operator knows open it. A re-encryption should never take that away.
-/

namespace DeployMonster.Secrets

open DB Interruption List Option SecretTable

variable {C N ε α : Type}

/-- A salt that survives the process, with `kv` what the KV store holds. -/
def Available (kv : Option (Option Salt)) (salt : Salt) : Prop :=
  salt = legacyVaultSalt ∨ kv = some (some salt)
  deriving Decidable

variable (cipher : Cipher C N)

/-- A surviving salt and a master secret among the `known` ones decrypt the ciphertext `c` to the
plaintext `p`. -/
def Recoverable (known : List String) (kv : Option (Option Salt)) (c : C) (p : String) : Prop :=
  ∃ v : Vault, v.masterSecret ∈ known ∧ Available kv v.salt ∧ cipher.decrypt v c = .ok p

/-- Every version of `t` is in `t'`, and a plaintext it had by `Before` it has by `After`. -/
def Keeps (t t' : SecretTable C) (Before After : C → String → Prop) : Prop :=
  ∀ r ∈ t.rows, ∃ r' ∈ t'.rows, r'.id = r.id ∧ ∀ p, Before r.valueEnc p → After r'.valueEnc p

/-- The operation, started on the module `m` and stopped at `stop`, loses no version: one that
fails or is killed leaves them recoverable, one that returns leaves them under the vault `new`. -/
def Preserved (known : List String) (new : Vault) (m : Module C)
    (op : Op (Module C) ε α) (stop : Option Stop) : Prop :=
  match op stop 0 m with
  | (.returned _, _, m') => Keeps m.store m'.store (Recoverable cipher known m.kv)
      fun c p => cipher.decrypt new c = .ok p
  | (_, _, m') => Keeps m.store m'.store (Recoverable cipher known m.kv)
      (Recoverable cipher known m'.kv)

def LeftBehind (m : Module C) (r : SecretVersion C) : Prop :=
  r ∈ m.store.rows ∧ r ∉ m.store.listAllSecretVersions

/-- Everything takes place and, of the versions left behind, none was recoverable. When the process
is killed between the persisted salt and the return, there has to be a KV store instead for those
under the legacy salt. -/
def Concludes (known : List String) (m : Module C) (old : Vault) (stop : Option Stop) : Prop :=
  Completes cipher m old stop ∧
    (stop = some ⟨m.lastPoint, .kill⟩ → m.kv.isSome ∧ ∀ r, LeftBehind m r → ∀ p,
      Recoverable cipher known m.kv r.valueEnc p → Recoverable cipher known none r.valueEnc p) ∧
    (stop ≠ some ⟨m.lastPoint, .kill⟩ → ∀ r, LeftBehind m r → ∀ p,
      ¬ Recoverable cipher known m.kv r.valueEnc p)

/-- The stops at which a re-encryption from the vault `old` loses no version. -/
def Harmless (known : List String) (m : Module C) (old : Vault) (stop : Option Stop) : Prop :=
  ¬ Rewrites cipher m old stop ∨ Concludes cipher known m old stop

variable {cipher : Cipher C N} {known : List String} {old new : Vault} {t t' : SecretTable C}
  {done : List (SecretVersion C)} {kv kv' : Option (Option Salt)} {r : SecretVersion C}
  {Before After : C → String → Prop} {p : String}

lemma Recoverable.mono {c : C} (h : Recoverable cipher known none c p) :
    Recoverable cipher known kv c p := by
  obtain ⟨v, hknown, hsalt | hsalt, hdec⟩ := h
  · exact ⟨v, hknown, Or.inl hsalt, hdec⟩
  · exact absurd hsalt (by simp)

lemma Recoverable.eq {c : C} {q : String} (h : Recoverable cipher known kv c p)
    (hdec : cipher.decrypt old c = .ok q) : p = q := by
  obtain ⟨v, -, -, hv⟩ := h
  obtain rfl := cipher.eq_of_decrypt hv hdec
  exact Except.ok.inj (hv.symm.trans hdec)

lemma Recoverable.available {c : C} {q : String} (h : Recoverable cipher known kv c p)
    (hdec : cipher.decrypt old c = .ok q) : Available kv old.salt := by
  obtain ⟨v, -, havailable, hv⟩ := h
  obtain rfl := cipher.eq_of_decrypt hv hdec
  exact havailable

lemma exists_fresh (kv : Option (Option Salt)) :
    ∃ drawn : Salt, drawn.length = vaultSaltLen ∧ ¬ Available kv drawn := by
  by_cases h : kv = some (some (replicate vaultSaltLen 0))
  · refine ⟨replicate vaultSaltLen 1, by simp, ?_⟩
    rintro (hlegacy | hkv)
    · exact ne_legacyVaultSalt (by simp) hlegacy
    · rw [h] at hkv
      exact absurd hkv (by decide)
  · refine ⟨replicate vaultSaltLen 0, by simp, ?_⟩
    rintro (hlegacy | hkv)
    · exact ne_legacyVaultSalt (by simp) hlegacy
    · exact h hkv

variable (h : Rewritten cipher old new done t t')
include h

lemma Rewritten.after_of_keeps
    (hkeeps : Keeps t t' Before After) (hr : r ∈ t.rows) (hdone : r ∈ done)
    (hbefore : ∀ p, cipher.decrypt old r.valueEnc = .ok p → Before r.valueEnc p) :
    ∃ c p, cipher.decrypt new c = .ok p ∧ After c p := by
  obtain ⟨r', hr', hid, hrew, -⟩ := h r hr
  obtain ⟨p, hold, hnew⟩ := hrew hdone
  obtain ⟨r'', hr'', hid', hafter⟩ := hkeeps r hr
  obtain rfl : r'' = r' := eq_of_id_eq hr'' hr' (hid'.trans hid.symm)
  exact ⟨r''.valueEnc, p, hnew, hafter p (hbefore p hold)⟩

lemma Rewritten.after_of_keeps_other (hkeeps : Keeps t t' Before After) (hr : r ∈ t.rows)
    (hdone : r ∉ done) (hbefore : Before r.valueEnc p) : After r.valueEnc p := by
  obtain ⟨r', hr', hid, -, hother⟩ := h r hr
  obtain ⟨r'', hr'', hid', hafter⟩ := hkeeps r hr
  obtain rfl : r'' = r' := eq_of_id_eq hr'' hr' (hid'.trans hid.symm)
  rw [← hother hdone]
  exact hafter p hbefore

lemma Rewritten.keeps (hdone : ∀ c p, cipher.decrypt new c = .ok p → After c p)
    (hother : ∀ r ∈ t.rows, r ∉ done → ∀ p, Recoverable cipher known kv r.valueEnc p →
      After r.valueEnc p) :
    Keeps t t' (Recoverable cipher known kv) After := by
  intro r hr
  obtain ⟨r', hr', hid, hrew, hsame⟩ := h r hr
  refine ⟨r', hr', hid, fun p hp => ?_⟩
  by_cases hmem : r ∈ done
  · obtain ⟨q, hold, hnew⟩ := hrew hmem
    obtain rfl := hp.eq hold
    exact hdone _ _ hnew
  · rw [hsame hmem]
    exact hother r hr hmem p hp

omit h

variable {errs : Errors C ε} {nonces : ℕ → N} {masterSecret : String} {drawn : Salt}
  {switch : Vault → Module C → Module C} {stop : Option Stop} {c : ℕ} {m m' : Module C}
  {op : Op (Module C) ε α} {a : α} {v : SecretVersion C}

lemma preserved_of_returns (h : Returns op stop 0 m a c m') :
    Preserved cipher known new m op stop ↔ Keeps m.store m'.store (Recoverable cipher known m.kv)
      fun c p => cipher.decrypt new c = .ok p := by
  rw [Preserved, h]

lemma preserved_of_stops (h : Stops op stop 0 m m') :
    Preserved cipher known new m op stop ↔ Keeps m.store m'.store (Recoverable cipher known m.kv)
      (Recoverable cipher known m'.kv) := by
  obtain ⟨hout, rfl⟩ := h
  rw [Preserved]
  rcases hop : op stop 0 m with ⟨a | e | _, c, m'⟩
  · exact absurd (by rw [hop]) (hout a)
  all_goals rfl

lemma preserved_of_rows_eq_nil (h : m.store.rows = []) :
    Preserved cipher known new m op stop := by
  rw [Preserved]
  split <;> exact fun r hr => by simp [h] at hr

lemma Rewritten.not_keeps (h : Rewritten cipher old new done m.store m'.store)
    (hold : old.masterSecret ∈ known) (hsalt : Available m.kv old.salt) (hv : v ∈ m.store.rows)
    (hdone : v ∈ done) (hnew : ¬ Available m'.kv new.salt) :
    ¬ Keeps m.store m'.store (Recoverable cipher known m.kv) (Recoverable cipher known m'.kv) := by
  intro hkeeps
  obtain ⟨c, p, hdec, hafter⟩ := h.after_of_keeps hkeeps hv hdone
    fun p hp => ⟨old, hold, hsalt, hp⟩
  exact hnew (hafter.available hdec)

/-- With a salt that survives nowhere yet, a re-encryption that has begun must conclude. -/
lemma concludes_of_preserved (hold : old.masterSecret ∈ known) (hsalt : Available m.kv old.salt)
    (hswitch : ∀ v m, (switch v m).store = m.store ∧ (switch v m).kv = m.kv)
    (hlen : drawn.length = vaultSaltLen) (hfresh : ¬ Available m.kv drawn)
    (hrewrites : Rewrites cipher m old stop)
    (h : Preserved cipher known (newVaultWithSalt masterSecret drawn) m
      (rekey cipher errs nonces old masterSecret drawn switch) stop) :
    Concludes cipher known m old stop := by
  have hnew : (newVaultWithSalt masterSecret drawn).salt = drawn := by
    rw [newVaultWithSalt_salt hlen]
  obtain ⟨v, hhead, -⟩ := id hrewrites
  have hlisted : v ∈ m.store.listAllSecretVersions := mem_of_mem_head? hhead
  have hrows : v ∈ m.store.rows := mem_listAllSecretVersions hlisted
  by_cases hcompletes : Completes cipher m old stop
  · obtain ⟨m', ⟨hrew, hkv⟩, -, hends⟩ :=
      rekey_completes errs nonces masterSecret drawn hswitch hcompletes
    refine ⟨hcompletes, fun hkill => ?_, fun hkill r ⟨hr, hleft⟩ p hp => ?_⟩
    · rw [if_pos hkill] at hends
      have hkeeps := (preserved_of_stops hends).mp h
      refine ⟨?_, fun r ⟨hr, hleft⟩ p hp => ?_⟩
      · by_contra hnone
        have hsame : m'.kv = m.kv := by
          rw [hkv, not_isSome_iff_eq_none.mp hnone, map_none]
        exact hrew.not_keeps hold hsalt hrows hlisted (by rwa [hsame, hnew]) hkeeps
      · obtain ⟨w, hknown, hlegacy | hdrawn, hdec⟩ := hrew.after_of_keeps_other hkeeps hr hleft hp
        · exact ⟨w, hknown, Or.inl hlegacy, hdec⟩
        · obtain ⟨_, -, hw⟩ := map_eq_some_iff.mp (hkv.symm.trans hdrawn)
          exact absurd (some.inj hw ▸ hp.available hdec) hfresh
    · rw [if_neg hkill] at hends
      obtain ⟨rotated, c, hreturns⟩ := hends
      have hkeeps := (preserved_of_returns hreturns).mp h
      exact hfresh (hnew ▸ hp.available (hrew.after_of_keeps_other hkeeps hr hleft hp))
  · obtain ⟨m', ⟨pre, hpre, hne, hrew, hkv⟩, -, hstops⟩ :=
      rekey_cutShort errs nonces masterSecret drawn switch hcompletes
    obtain ⟨u, pre, rfl⟩ := exists_cons_of_ne_nil (hne.mp hrewrites)
    obtain rfl : u = v := by
      obtain ⟨post, hpost⟩ := hpre
      simpa [← hpost] using hhead
    refine absurd ((preserved_of_stops hstops).mp h) ?_
    exact hrew.not_keeps hold hsalt hrows (by simp) (by rwa [hkv, hnew])

lemma preserved_of_harmless (hknown : masterSecret ∈ known)
    (hswitch : ∀ v m, (switch v m).store = m.store ∧ (switch v m).kv = m.kv)
    (hlen : drawn.length = vaultSaltLen) (h : Harmless cipher known m old stop) :
    Preserved cipher known (newVaultWithSalt masterSecret drawn) m
      (rekey cipher errs nonces old masterSecret drawn switch) stop := by
  by_cases hcompletes : Completes cipher m old stop
  · obtain ⟨m', ⟨hrew, hkv⟩, -, hends⟩ :=
      rekey_completes errs nonces masterSecret drawn hswitch hcompletes
    rcases h with hnone | ⟨-, hkilled, hreturned⟩
    · exact preserved_of_rows_eq_nil (hcompletes.rows_eq_nil hnone)
    split_ifs at hends with hkill
    · obtain ⟨hsome, hleft⟩ := hkilled hkill
      refine (preserved_of_stops hends).mpr (hrew.keeps (fun c p hdec => ?_) ?_)
      · obtain ⟨stored, hstored⟩ := isSome_iff_exists.mp hsome
        refine ⟨_, ?_, Or.inr ?_, hdec⟩
        · rwa [newVaultWithSalt_salt hlen]
        · rw [hkv, hstored, newVaultWithSalt_salt hlen, map_some]
      · exact fun r hr hnot p hp => (hleft r ⟨hr, hnot⟩ p hp).mono
    · obtain ⟨rotated, c, hreturns⟩ := hends
      exact (preserved_of_returns hreturns).mpr <| hrew.keeps (fun c p hdec => hdec)
        fun r hr hnot p hp => absurd hp (hreturned hkill r ⟨hr, hnot⟩ p)
  · obtain ⟨m', ⟨pre, hpre, hne, hrew, hkv⟩, -, hstops⟩ :=
      rekey_cutShort errs nonces masterSecret drawn switch hcompletes
    have hnone : ¬ Rewrites cipher m old stop := h.resolve_right fun hc => hcompletes hc.1
    obtain rfl : pre = [] := by
      by_contra hpre
      exact hnone (hne.mpr hpre)
    refine (preserved_of_stops hstops).mpr fun r hr => ?_
    obtain ⟨r', hr', hid, -, hsame⟩ := hrew r hr
    refine ⟨r', hr', hid, fun p hp => ?_⟩
    rwa [hsame not_mem_nil, hkv]

/-- **A re-encryption loses no version exactly at the harmless stops.** -/
theorem rekey_preserved_iff (errs : Errors C ε) (nonces : ℕ → N)
    (switch : Vault → Module C → Module C)
    (hswitch : ∀ v m, (switch v m).store = m.store ∧ (switch v m).kv = m.kv)
    (hold : old.masterSecret ∈ known) (hsalt : Available m.kv old.salt)
    (hknown : masterSecret ∈ known) : (∀ drawn : Salt, drawn.length = vaultSaltLen →
      Preserved cipher known (newVaultWithSalt masterSecret drawn) m
        (rekey cipher errs nonces old masterSecret drawn switch) stop) ↔
      Harmless cipher known m old stop := by
  constructor
  · intro h
    by_cases hrewrites : Rewrites cipher m old stop
    · obtain ⟨drawn, hlen, hfresh⟩ := exists_fresh m.kv
      exact Or.inr <|
        concludes_of_preserved hold hsalt hswitch hlen hfresh hrewrites (h drawn hlen)
    · exact Or.inl hrewrites
  · exact fun h drawn hlen => preserved_of_harmless hknown hswitch hlen h

lemma preserved_discard {op : Op (Module C) ε α} :
    Preserved cipher known new m (do let _ ← op; pure ()) stop ↔
      Preserved cipher known new m op stop := by
  show Preserved cipher known new m (Op.bind op fun _ => Op.pure ()) stop ↔ _
  simp only [Preserved, Op.bind, Op.pure]
  rcases op stop 0 m with ⟨a | e | _, c, m'⟩ <;> rfl

lemma preserved_rotate {newMasterSecret : String} (hstore : m.hasStore) :
    Preserved cipher known new m (rotateEncryptionKey cipher newMasterSecret drawn nonces) stop ↔
      Preserved cipher known new m (rekey cipher rotateErrors nonces m.vault newMasterSecret drawn
        (Module.switch newMasterSecret)) stop := by
  have hop : rotateEncryptionKey cipher newMasterSecret drawn nonces stop 0 m =
      rekey cipher rotateErrors nonces m.vault newMasterSecret drawn
        (Module.switch newMasterSecret) stop 0 m :=
    bind_eq_of_returns get_returns (by rw [if_pos hstore])
  rw [Preserved, hop]
  rfl

lemma preserved_migrate :
    Preserved cipher known new m (migrateLegacyVault cipher drawn nonces) stop ↔
      Preserved cipher known new m (rekey cipher migrateErrors nonces
        (newLegacyVault m.masterSecret) m.masterSecret drawn Module.setVault) stop := by
  have hop : migrateLegacyVault cipher drawn nonces stop 0 m =
      (do let _ ← rekey cipher migrateErrors nonces (newLegacyVault m.masterSecret) m.masterSecret
            drawn Module.setVault
          pure () : Op (Module C) String Unit) stop 0 m :=
    bind_eq_of_returns get_returns rfl
  refine Iff.trans ?_ preserved_discard
  rw [Preserved, Preserved, hop]

/-- **Rotation and migration lose no version exactly at the harmless stops**: one that fails or is
killed leaves every stored version recoverable under a surviving salt and a known master secret, and
one that returns leaves it under the new vault. -/
theorem reencryption_preserved_iff (cipher : Cipher C N) (known : List String) (m : Module C)
    (newMasterSecret : String) (nonces : ℕ → N) (stop : Option Stop)
    (hstore : m.hasStore) (hmaster : m.masterSecret ∈ known) (hnew : newMasterSecret ∈ known)
    (hvault : m.vault.masterSecret = m.masterSecret) (hsalt : Available m.kv m.vault.salt) :
    ((∀ drawn : Salt, drawn.length = vaultSaltLen →
        Preserved cipher known (newVaultWithSalt newMasterSecret drawn) m
          (rotateEncryptionKey cipher newMasterSecret drawn nonces) stop) ↔
      Harmless cipher known m m.vault stop) ∧
    ((∀ drawn : Salt, drawn.length = vaultSaltLen →
        Preserved cipher known (newVaultWithSalt m.masterSecret drawn) m
          (migrateLegacyVault cipher drawn nonces) stop) ↔
      Harmless cipher known m (newLegacyVault m.masterSecret) stop) := by
  constructor
  · rw [← rekey_preserved_iff rotateErrors nonces (Module.switch newMasterSecret)
      (fun _ _ => ⟨rfl, rfl⟩) (hvault ▸ hmaster) hsalt hnew]
    exact forall₂_congr fun drawn _ => preserved_rotate hstore
  · rw [← rekey_preserved_iff migrateErrors nonces Module.setVault (fun _ _ => ⟨rfl, rfl⟩) hmaster
      (Or.inl rfl) hmaster]
    exact forall₂_congr fun drawn _ => preserved_migrate

def saltOf (byte : UInt8) : Salt := replicate vaultSaltLen byte

def oneVersion (vault : Vault) : SecretTable (Vault × String) :=
  ⟨[⟨"v1", "s1", 1, (vault, "hunter2")⟩], by simp⟩

def saltedModule : Module (Vault × String) :=
  ⟨true, oneVersion ⟨"old", saltOf 0⟩, some (some (saltOf 0)), ⟨"old", saltOf 0⟩, "old"⟩

def legacyModule : Module (Vault × String) :=
  ⟨true, oneVersion (newLegacyVault "old"), some none, newLegacyVault "old", "old"⟩

theorem reencryption_preserved_iff_saltedModule :
    Harmless sealing ["old", "new"] saltedModule saltedModule.vault none ∧
    ∀ drawn : Salt, drawn.length = vaultSaltLen →
      Preserved sealing ["old", "new"] (newVaultWithSalt "new" drawn) saltedModule
        (rotateEncryptionKey sealing "new" drawn fun _ => ()) none := by
  have hlisted : saltedModule.store.listAllSecretVersions = saltedModule.store.rows := rfl
  have hharmless : Harmless sealing ["old", "new"] saltedModule saltedModule.vault none := by
    refine Or.inr ⟨⟨fun v hv => ?_, by simp [Clear]⟩, by simp, fun _ r ⟨hr, hleft⟩ => ?_⟩
    · obtain rfl : v = _ := mem_singleton.mp hv
      exact ⟨"hunter2", rfl⟩
    · exact absurd (hlisted ▸ hr) hleft
  exact ⟨hharmless, (reencryption_preserved_iff _ _ _ _
    (fun _ => ()) _ rfl (by decide) (by decide) rfl (Or.inr rfl)).1.mpr hharmless⟩

lemma oneVersion_not_keeps {kv kv' : Option (Option Salt)} (hknown : old.masterSecret ∈ known)
    (hold : Available kv old.salt) (hnew : ¬ Available kv' new.salt) :
    ¬ Keeps (oneVersion old) (oneVersion new) (Recoverable sealing known kv)
      (Recoverable sealing known kv') := by
  intro h
  obtain ⟨r, hr, -, hp⟩ := h _ (mem_singleton_self _)
  obtain rfl : r = _ := mem_singleton.mp hr
  have hafter := hp "hunter2" ⟨old, hknown, hold, sealing.decrypt_encrypt old () "hunter2"⟩
  exact hnew (hafter.available (sealing.decrypt_encrypt new () "hunter2"))

/-- Killed between the last version and the salt, a rotation and a migration have lost it. -/
theorem reencryption_loses :
    ¬ Preserved sealing ["old", "new"] (newVaultWithSalt "new" (saltOf 1)) saltedModule
        (rotateEncryptionKey sealing "new" (saltOf 1) fun _ => ()) (some ⟨4, .kill⟩) ∧
    ¬ Preserved sealing ["old"] (newVaultWithSalt "old" (saltOf 1)) legacyModule
        (migrateLegacyVault sealing (saltOf 1) fun _ => ()) (some ⟨4, .kill⟩) := by
  constructor
  · have hrun : rotateEncryptionKey sealing "new" (saltOf 1) (fun _ => ()) (some ⟨4, .kill⟩) 0
        saltedModule =
          (.killed, 5, saltedModule.setStore (oneVersion ⟨"new", saltOf 1⟩)) := rfl
    rw [Preserved, hrun]
    exact oneVersion_not_keeps (by decide) (Or.inr rfl) (by decide)
  · have hrun : migrateLegacyVault sealing (saltOf 1) (fun _ => ()) (some ⟨4, .kill⟩) 0
        legacyModule = (.killed, 5, legacyModule.setStore (oneVersion ⟨"old", saltOf 1⟩)) := rfl
    rw [Preserved, hrun]
    exact oneVersion_not_keeps (by decide) (Or.inl rfl) (by decide)

end DeployMonster.Secrets
