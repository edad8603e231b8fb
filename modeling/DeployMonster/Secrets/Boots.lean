import DeployMonster.Secrets.Rotation

/-!
# Boots of the secrets module

`Init` and `Start` of `internal/secrets/module.go`. A read that fails is taken for an absent salt,
and a listing that fails for an empty store.
-/

namespace DeployMonster.Secrets

open DB Interruption StepMachine List Option SecretTable

variable {C N : Type}

abbrev DrawnSalt := { salt : Salt // salt.length = vaultSaltLen }

structure BootFaults where
  /-- `Init` reads the salt. -/
  initRead : Option String := none
  /-- `Init` lists the versions. -/
  initList : Option String := none
  startRead : Option String := none
  /-- The migration lists the versions. -/
  startList : Option String := none

structure Draws (N : Type) where
  (initSalt startSalt : DrawnSalt)
  nonces : ℕ → N

/-- What `Get` leaves of the entry `vault/salt`; an empty text is no salt. -/
def readSalt (fault : Option String) (stored : Option Salt) : Option Salt :=
  if fault.isSome then none else stored.filter (· ≠ [])

namespace Module

/-- `resolveVaultSalt`, with the module it leaves: the salt, and whether the vault of the legacy salt is
used. -/
def resolveVaultSalt (m : Module C) (faults : BootFaults) (drawn : Salt) :
    Except String ((Salt × Bool) × Module C) :=
  match m.kv with
  | none => .ok ((legacyVaultSalt, false), m)
  | some stored =>
    match readSalt faults.initRead stored with
    | some salt =>
      if salt.length < 16 then
        .error ("stored salt too short (" ++ toString salt.length ++ " bytes)")
      else .ok ((salt, false), m)
    | none =>
      if m.hasStore ∧ faults.initList = none ∧ m.store.listAllSecretVersions ≠ [] then
        .ok ((drawn, true), m)
      else .ok ((drawn, false), m.setSalt drawn)

/-- `Init`, in a process that is given the master secret. -/
def init (m : Module C) (secret : String) (faults : BootFaults) (drawn : Salt) :
    Except String (Module C) :=
  match m.resolveVaultSalt faults drawn with
  | .error e => .error ("resolve vault salt: " ++ e)
  | .ok ((salt, usedLegacy), m) => .ok
      { m with
        masterSecret := secret
        vault := if usedLegacy then newLegacyVault secret else newVaultWithSalt secret salt }

def start (m : Module C) (cipher : Cipher C N) (faults : BootFaults) (drawn : Salt)
    (nonces : ℕ → N) : Outcome String Unit × Module C :=
  match m.kv with
  | none => (.returned (), m)
  | some stored =>
    match readSalt faults.startRead stored with
    | some _ => (.returned (), m)
    | none =>
      let stop := faults.startList.map fun reason => ⟨1, .error reason⟩
      match migrateLegacyVault cipher drawn nonces stop 0 m with
      | (.failed e, _, m) => (.failed ("vault migration: " ++ e), m)
      | (outcome, _, m) => (outcome, m)

def boot (m : Module C) (cipher : Cipher C N) (secret : String) (faults : BootFaults)
    (draws : Draws N) : Outcome String Unit × Module C :=
  match m.init secret faults draws.initSalt with
  | .error e => (.failed e, m)
  | .ok m => m.start cipher faults draws.startSalt draws.nonces

def persistedVault (m : Module C) : Vault :=
  match m.kv with
  | some (some salt) => newVaultWithSalt m.masterSecret salt
  | _ => newLegacyVault m.masterSecret

end Module

/-! ## What a boot keeps -/

/-- Every stored version opens under the persisted salt, and the values in the book are those of their
versions. -/
structure Intact (cipher : Cipher C N) (m : Module C) (book : List (String × String)) : Prop where
  hasStore : m.hasStore = true
  salt_length : ∀ salt, m.kv = some (some salt) → salt.length = vaultSaltLen
  rows : ∀ r ∈ m.store.rows, ∃ p, cipher.decrypt m.persistedVault r.valueEnc = .ok p
  book : ∀ e ∈ book, ∃ r ∈ m.store.rows, r.id = e.1 ∧
    cipher.decrypt m.persistedVault r.valueEnc = .ok e.2

variable {cipher : Cipher C N} {m m' : Module C} {book : List (String × String)} {salt : Salt}

lemma persistedVault_of_salt (h : m.kv = some (some salt)) :
    m.persistedVault = newVaultWithSalt m.masterSecret salt := by
  rw [Module.persistedVault, h]

lemma persistedVault_of_none (h : ∀ salt, m.kv ≠ some (some salt)) :
    m.persistedVault = newLegacyVault m.masterSecret := by
  unfold Module.persistedVault
  split
  case h_1 salt hkv => exact absurd hkv (h salt)
  case h_2 => rfl

variable (h : Intact cipher m book)
include h

lemma Intact.persistedVault_ne
    (hkv : m.kv = some (some salt)) : m.persistedVault ≠ newLegacyVault m.masterSecret := by
  intro heq
  rw [persistedVault_of_salt hkv, newVaultWithSalt_salt (h.salt_length salt hkv)] at heq
  exact ne_legacyVaultSalt (h.salt_length salt hkv) (congrArg Vault.salt heq)

lemma Intact.setVault (v : Vault) :
    Intact cipher (m.setVault v) book :=
  ⟨h.hasStore, h.salt_length, h.rows, h.book⟩

lemma Intact.setSalt (hrows : m.store.rows = []) (drawn : DrawnSalt) :
    Intact cipher (m.setSalt drawn) book := by
  refine ⟨h.hasStore, fun salt hsalt => ?_, fun r hr => ?_, fun e he => ?_⟩
  · obtain ⟨_, -, hdrawn⟩ := map_eq_some_iff.mp (show m.kv.map _ = _ from hsalt)
    cases hdrawn
    exact drawn.2
  · rw [show (m.setSalt drawn).store.rows = [] from hrows] at hr
    cases hr
  · obtain ⟨r, hr, -⟩ := h.book e he
    rw [hrows] at hr
    cases hr

lemma Intact.of_rewritten {old new : Vault} {done : List (SecretVersion C)}
    (hrew : Rewritten cipher old new done m.store m'.store)
    (hids : m'.store.rows.map (·.id) = m.store.rows.map (·.id)) (hstore : m'.hasStore = m.hasStore)
    (hsalt : ∀ salt, m'.kv = some (some salt) → salt.length = vaultSaltLen)
    (hdone : ∀ r ∈ m.store.rows, r ∈ done → new = m'.persistedVault)
    (hother : ∀ r ∈ m.store.rows, r ∉ done → m.persistedVault = m'.persistedVault) :
    Intact cipher m' book := by
  have hopens : ∀ r ∈ m.store.rows, ∃ r' ∈ m'.store.rows, r'.id = r.id ∧
      ∀ p, cipher.decrypt m.persistedVault r.valueEnc = .ok p →
        cipher.decrypt m'.persistedVault r'.valueEnc = .ok p := by
    intro r hr
    obtain ⟨r', hr', hid, hrewritten, hsame⟩ := hrew r hr
    refine ⟨r', hr', hid, fun p hp => ?_⟩
    by_cases hmem : r ∈ done
    · obtain ⟨q, hold, hnew⟩ := hrewritten hmem
      obtain rfl := cipher.eq_of_decrypt hp hold
      cases hp.symm.trans hold
      rwa [← hdone r hr hmem]
    · rwa [hsame hmem, ← hother r hr hmem]
  refine ⟨hstore.trans h.hasStore, hsalt, fun r' hr' => ?_, fun e he => ?_⟩
  · have hid : r'.id ∈ m.store.rows.map (·.id) := hids ▸ mem_map_of_mem hr'
    obtain ⟨r, hr, hid⟩ := mem_map.mp hid
    obtain ⟨r'', hr'', hid', hval⟩ := hopens r hr
    obtain rfl := eq_of_id_eq hr'' hr' (hid'.trans hid)
    obtain ⟨p, hp⟩ := h.rows r hr
    exact ⟨p, hval p hp⟩
  · obtain ⟨r, hr, hid, hp⟩ := h.book e he
    obtain ⟨r', hr', hid', hval⟩ := hopens r hr
    exact ⟨r', hr', hid'.trans hid, hval e.2 hp⟩

omit h

variable {stored : Option Salt} {nonces : ℕ → N} {drawn : Salt} {stop : Option Stop} {c : ℕ}

lemma migrateLegacyVault_returns {rotated : ℕ}
    (h : Returns (rekey cipher migrateErrors nonces (newLegacyVault m.masterSecret) m.masterSecret
      drawn Module.setVault) stop 0 m rotated c m') :
    Returns (migrateLegacyVault cipher drawn nonces) stop 0 m () c m' :=
  Returns.bind get_returns (Returns.bind h (pure_returns ()))

lemma migrateLegacyVault_stops
    (h : Stops (rekey cipher migrateErrors nonces (newLegacyVault m.masterSecret) m.masterSecret
      drawn Module.setVault) stop 0 m m') :
    Stops (migrateLegacyVault cipher drawn nonces) stop 0 m m' :=
  Stops.bind_right get_returns (Stops.bind_left h)

lemma setVault_fields (v : Vault) (m : Module C) :
    (m.setVault v).store = m.store ∧ (m.setVault v).kv = m.kv := ⟨rfl, rfl⟩

lemma Intact.of_finished (h : Intact cipher m book) (hkv : m.kv = some stored)
    (hdrawn : drawn.length = vaultSaltLen) {t' : SecretTable C}
    (hm' : m' = ((m.setStore t').setSalt drawn).setVault (newVaultWithSalt m.masterSecret drawn))
    (hrew : Rewritten cipher (newLegacyVault m.masterSecret) (newVaultWithSalt m.masterSecret drawn)
      m.store.listAllSecretVersions m.store m'.store)
    (hids : m'.store.rows.map (·.id) = m.store.rows.map (·.id))
    (hlisted : ∀ r ∈ m.store.rows, r ∈ m.store.listAllSecretVersions) :
    Intact cipher m' book ∧ m'.vault = m'.persistedVault := by
  have hkv' : m'.kv = some (some drawn) := by
    rw [hm']
    show m.kv.map _ = _
    rw [hkv]
    rfl
  have hvault : m'.persistedVault = newVaultWithSalt m.masterSecret drawn := by
    rw [persistedVault_of_salt hkv', hm']
    rfl
  refine ⟨h.of_rewritten hrew hids ?_ ?_ ?_ ?_, ?_⟩
  · rw [hm']
    rfl
  · intro salt hsalt
    cases hkv'.symm.trans hsalt
    exact hdrawn
  · exact fun _ _ _ => hvault.symm
  · exact fun r hr hnot => absurd (hlisted r hr) hnot
  · rw [hvault, hm']
    rfl

/-- **A migration keeps what is intact.** It goes through when the versions are under the legacy salt
and the listing does not fail. -/
theorem migrate_intact (h : Intact cipher m book) (hkv : m.kv = some stored)
    (hlisted : m.persistedVault = newLegacyVault m.masterSecret →
      ∀ r ∈ m.store.rows, r ∈ m.store.listAllSecretVersions)
    (drawn : DrawnSalt) (nonces : ℕ → N) (fault : Option String) :
    (∃ c m', Returns (migrateLegacyVault cipher drawn nonces)
        (fault.map fun reason => ⟨1, .error reason⟩) 0 m () c m' ∧
      Intact cipher m' book ∧ m'.vault = m'.persistedVault) ∨
    ∃ m', Stops (migrateLegacyVault cipher drawn nonces)
        (fault.map fun reason => ⟨1, .error reason⟩) 0 m m' ∧
      Intact cipher m' book ∧ (m.persistedVault = newLegacyVault m.masterSecret → fault ≠ none) := by
  generalize hstop : (fault.map fun reason => (⟨1, .error reason⟩ : Stop)) = stop
  by_cases hcompletes : Completes cipher m (newLegacyVault m.masterSecret) stop
  · obtain ⟨m', ⟨hrew, -⟩, ⟨t', hm'⟩, hends⟩ := rekey_completes migrateErrors nonces m.masterSecret
      drawn.1 setVault_fields hcompletes
    have hkill : stop ≠ some ⟨m.lastPoint, .kill⟩ := by
      rw [← hstop]
      cases fault with
      | none => exact nofun
      | some reason => exact fun heq => nomatch congrArg (Option.map Stop.fault) heq
    rw [if_neg hkill] at hends
    obtain ⟨rotated, c, hreturns⟩ := hends
    have hids := (rekey_frame m.masterSecret drawn.1 Module.setVault
      fun v m => (setVault_fields v m).1).of_returns hreturns
    refine .inl ⟨c, m', migrateLegacyVault_returns hreturns, ?_⟩
    refine h.of_finished hkv drawn.2 hm' hrew hids ?_
    by_cases hlegacy : m.persistedVault = newLegacyVault m.masterSecret
    · exact hlisted hlegacy
    intro r hr
    have hnil : m.store.listAllSecretVersions = [] := by
      refine eq_nil_iff_forall_not_mem.mpr fun v hv => ?_
      obtain ⟨p, hp⟩ := hcompletes.1 v hv
      obtain ⟨q, hq⟩ := h.rows v (mem_listAllSecretVersions hv)
      exact hlegacy (cipher.eq_of_decrypt hq hp)
    rw [listAllSecretVersions_eq_nil hnil] at hr
    cases hr
  · obtain ⟨m', ⟨pre, hpre, hne, hrew, hkv'⟩, ⟨t', rfl⟩, hstops⟩ := rekey_cutShort migrateErrors
      nonces m.masterSecret drawn.1 Module.setVault hcompletes
    have hfault : m.persistedVault = newLegacyVault m.masterSecret → fault ≠ none := by
      rintro hlegacy rfl
      refine hcompletes ⟨fun v hv => ?_, by simp [← hstop, Clear]⟩
      obtain ⟨p, hp⟩ := h.rows v (mem_listAllSecretVersions hv)
      exact ⟨p, hlegacy ▸ hp⟩
    obtain rfl : pre = [] := by
      by_contra hnil
      obtain ⟨v, hhead, ⟨p, hp⟩, hclear⟩ := hne.mpr hnil
      have hv := mem_listAllSecretVersions (mem_of_mem_head? hhead)
      obtain ⟨q, hq⟩ := h.rows v hv
      obtain ⟨reason, rfl⟩ := ne_none_iff_exists'.mp (hfault (cipher.eq_of_decrypt hq hp))
      have := hclear ⟨1, .error reason⟩ hstop.symm
      dsimp only at this
      omega
    have hids := (rekey_frame m.masterSecret drawn.1 Module.setVault
      fun v m => (setVault_fields v m).1).of_stops hstops
    refine .inr ⟨_, migrateLegacyVault_stops hstops, ?_, hfault⟩
    exact h.of_rewritten hrew hids rfl h.salt_length
      (fun _ _ hmem => absurd hmem not_mem_nil) fun _ _ _ => rfl

/-! ## Boots that are safe -/

/-- A boot that keeps the stored versions. When a salt is persisted, `Init` reads it or lists the
versions; when none is, it lists the versions, and they are not more than a listing holds. -/
def SafeBoot (m : Module C) (faults : BootFaults) : Prop :=
  m.store.rows = [] ∨
    match m.kv with
    | none => True
    | some none => faults.initList = none ∧ m.store.rows.length ≤ listLimit
    | some (some _) => faults.initRead = none ∨ faults.initList = none

variable {faults : BootFaults} {fault : Option String}

lemma readSalt_eq_some :
    readSalt fault stored = some salt ↔ fault = none ∧ stored = some salt ∧ salt ≠ [] := by
  unfold readSalt
  cases fault with
  | none => simp [filter_eq_some_iff]
  | some reason => simp

lemma Intact.of_readSalt_none (h : Intact cipher m book) (hkv : m.kv = some stored)
    (hread : readSalt fault stored = none) (hfault : fault = none) : stored = none := by
  cases stored with
  | none => rfl
  | some salt =>
    have hne : salt ≠ [] := by
      rintro rfl
      exact absurd (h.salt_length [] hkv) (by decide)
    have hsome := readSalt_eq_some.mpr ⟨hfault, rfl, hne⟩
    rw [hread] at hsome
    cases hsome

lemma SafeBoot.rows_eq_nil (hsafe : SafeBoot m faults) (h : Intact cipher m book)
    (hkv : m.kv = some stored) (hread : readSalt faults.initRead stored = none)
    (hempty : ¬(m.hasStore ∧ faults.initList = none ∧ m.store.listAllSecretVersions ≠ [])) :
    m.store.rows = [] := by
  have hlist : faults.initList = none → m.store.rows = [] := by
    intro hlist
    by_contra hrows
    exact hempty ⟨h.hasStore, hlist, mt listAllSecretVersions_eq_nil hrows⟩
  rcases hsafe with hrows | hsafe
  · exact hrows
  rw [hkv] at hsafe
  cases stored with
  | none => exact hlist hsafe.1
  | some salt =>
    rcases hsafe with hinit | hinit
    · exact absurd (h.of_readSalt_none hkv hread hinit) nofun
    · exact hlist hinit

variable (h : Intact cipher m book)
include h

/-- **A safe `Init` keeps what is intact.** Unless its read fails, the vault is the one of the persisted
salt. -/
theorem init_intact (hsafe : SafeBoot m faults) (drawn : DrawnSalt) :
    ∃ m', m.init m.masterSecret faults drawn = .ok m' ∧ Intact cipher m' book ∧
      (m'.store.rows = [] ∨ m'.kv = m.kv ∧ m'.store = m.store) ∧
      (faults.initRead = none → m'.vault = m'.persistedVault) := by
  unfold Module.init Module.resolveVaultSalt
  cases hkv : m.kv with
  | none =>
    refine ⟨_, rfl, h.setVault _, .inr ⟨hkv, rfl⟩, fun _ => ?_⟩
    exact (persistedVault_of_none fun salt hsalt => nomatch hkv.symm.trans hsalt).symm
  | some stored =>
    dsimp only
    cases hread : readSalt faults.initRead stored with
    | some salt =>
      obtain ⟨-, rfl, -⟩ := readSalt_eq_some.mp hread
      have hlen : ¬salt.length < 16 := by
        rw [h.salt_length salt hkv]
        decide
      dsimp only
      rw [if_neg hlen]
      exact ⟨_, rfl, h.setVault _, .inr ⟨hkv, rfl⟩, fun _ => (persistedVault_of_salt hkv).symm⟩
    | none =>
      by_cases hempty : m.hasStore ∧ faults.initList = none ∧ m.store.listAllSecretVersions ≠ []
      · rw [if_pos hempty]
        refine ⟨_, rfl, h.setVault _, .inr ⟨hkv, rfl⟩, fun hinit => ?_⟩
        obtain rfl := h.of_readSalt_none hkv hread hinit
        exact (persistedVault_of_none fun salt hsalt => nomatch hkv.symm.trans hsalt).symm
      rw [if_neg hempty]
      have hrows := hsafe.rows_eq_nil h hkv hread hempty
      have hsalt : ((m.setSalt drawn).setVault (newVaultWithSalt m.masterSecret drawn)).kv =
          some (some drawn.1) := by
        show m.kv.map _ = _
        rw [hkv]
        rfl
      exact ⟨_, rfl, (h.setSalt hrows drawn).setVault _, .inl hrows,
        fun _ => (persistedVault_of_salt hsalt).symm⟩

/-- **`Start` keeps what is intact.** Without failures it returns, and the vault is the one of the
persisted salt. -/
theorem start_intact (hlisted : m.kv ≠ none → m.persistedVault = newLegacyVault m.masterSecret →
      ∀ r ∈ m.store.rows, r ∈ m.store.listAllSecretVersions)
    (drawn : DrawnSalt) (nonces : ℕ → N) :
    Intact cipher (m.start cipher faults drawn nonces).2 book ∧
      (m.vault = m.persistedVault → faults = {} →
        (m.start cipher faults drawn nonces).1 = .returned () ∧
        (m.start cipher faults drawn nonces).2.vault =
          (m.start cipher faults drawn nonces).2.persistedVault) := by
  unfold Module.start
  cases hkv : m.kv with
  | none => exact ⟨h, fun hvault _ => ⟨rfl, hvault⟩⟩
  | some stored =>
    dsimp only
    cases hread : readSalt faults.startRead stored with
    | some salt => exact ⟨h, fun hvault _ => ⟨rfl, hvault⟩⟩
    | none =>
      obtain ⟨c, m', hreturns, hintact, hvault⟩ | ⟨m', hstops, hintact, hfault⟩ :=
        migrate_intact h hkv (hlisted (by rw [hkv]; exact nofun)) drawn nonces faults.startList
      · rw [hreturns]
        exact ⟨hintact, fun _ _ => ⟨rfl, hvault⟩⟩
      obtain ⟨hout, hstate⟩ := hstops
      rcases hop : migrateLegacyVault cipher drawn.1 nonces _ 0 m with ⟨a | e | _, c, m''⟩
      · exact absurd (by rw [hop]) (hout a)
      all_goals
        rw [hop] at hstate
        subst hstate
        refine ⟨hintact, fun _ hclean => ?_⟩
        subst hclean
        obtain rfl := h.of_readSalt_none hkv hread rfl
        refine absurd rfl (hfault (persistedVault_of_none fun salt hsalt => ?_))
        exact nomatch hkv.symm.trans hsalt

/-- **A safe boot keeps what is intact**, and without failures it comes up with the vault of the
persisted salt. -/
theorem boot_intact (hsafe : SafeBoot m faults) (draws : Draws N) :
    Intact cipher (m.boot cipher m.masterSecret faults draws).2 book ∧
      (faults = {} → (m.boot cipher m.masterSecret faults draws).1 = .returned () ∧
        (m.boot cipher m.masterSecret faults draws).2.vault =
          (m.boot cipher m.masterSecret faults draws).2.persistedVault) := by
  obtain ⟨m', hinit, hintact, hkept, hvault⟩ := init_intact h hsafe draws.initSalt
  have hlisted : m'.kv ≠ none → m'.persistedVault = newLegacyVault m'.masterSecret →
      ∀ r ∈ m'.store.rows, r ∈ m'.store.listAllSecretVersions := by
    intro hsome hlegacy r hr
    refine mem_listAllSecretVersions_of_length ?_ hr
    rcases hkept with hrows | ⟨hkv, hstore⟩
    · rw [hrows]
      exact Nat.zero_le _
    rw [hkv] at hsome
    rw [hstore]
    rcases hsafe with hrows | hsafe
    · rw [hrows]
      exact Nat.zero_le _
    match hkv' : m.kv with
    | none => exact absurd hkv' hsome
    | some none =>
      rw [hkv'] at hsafe
      exact hsafe.2
    | some (some salt) => exact absurd hlegacy (hintact.persistedVault_ne (hkv.trans hkv'))
  rw [Module.boot, hinit]
  obtain ⟨hstart, hclean⟩ := start_intact hintact hlisted draws.startSalt draws.nonces
  exact ⟨hstart, fun hfaults => hclean (hvault (hfaults ▸ rfl)) hfaults⟩

omit h

/-! ## Boots, and what is stored between them -/

/-- The module over several boots with the same master secret; whether it is up; and, for the proof
only, the values that were stored, by the keys of their versions. -/
structure Deployment (C : Type) where
  module : Module C
  up : Bool := false
  book : List (String × String) := []

inductive Event (N : Type)
  | boot (faults : BootFaults) (draws : Draws N)
  /-- A value is encrypted with the vault, and the ciphertext becomes a version. -/
  | store (id secretID : String) (version : ℕ) (value : String) (nonce : N)
  | read (id : String)

def step (cipher : Cipher C N) (s : Deployment C) : Event N → Option (Deployment C)
  | .boot faults draws =>
    let (outcome, module) := s.module.boot cipher s.module.masterSecret faults draws
    some { s with module, up := outcome = .returned () }
  | .store id secretID version value nonce =>
    if s.up then
      let valueEnc := cipher.encrypt s.module.vault nonce value
      match s.module.store.createSecretVersion ⟨id, secretID, version, valueEnc⟩ with
      | none => some s
      | some store => some
          { s with module := s.module.setStore store, book := (id, value) :: s.book }
    else none
  | .read _ => if s.up then some s else none

/-- The events that keep the stored versions: boots that are safe, and values that are stored with the
vault of the persisted salt. -/
def Safe (s : Deployment C) : Event N → Prop
  | .boot faults _ => SafeBoot s.module faults
  | .store .. => s.module.vault = s.module.persistedVault
  | .read _ => True

instance [DecidableEq C] (m : Module C) (faults : BootFaults) : Decidable (SafeBoot m faults) := by
  unfold SafeBoot
  split <;> infer_instance

instance [DecidableEq C] (s : Deployment C) (e : Event N) : Decidable (Safe s e) := by
  unfold Safe
  split <;> infer_instance

def Readable (cipher : Cipher C N) (s : Deployment C) : Prop :=
  s.up = true ∧ ∀ e ∈ s.book, ∃ r ∈ s.module.store.rows, r.id = e.1 ∧
    cipher.decrypt s.module.vault r.valueEnc = .ok e.2

variable {s s' : Deployment C}

/-- **Safe events keep what is intact.** -/
theorem step_intact (e : Event N) (h : Intact cipher s.module s.book) (hsafe : Safe s e)
    (hstep : step cipher s e = some s') : Intact cipher s'.module s'.book := by
  cases e with
  | boot faults draws =>
    cases hstep
    exact (boot_intact h hsafe draws).1
  | read id =>
    obtain ⟨-, rfl⟩ := ite_some_none_eq_some.mp hstep
    exact h
  | store id secretID version value nonce =>
    obtain ⟨-, hs⟩ := ite_none_right_eq_some.mp hstep
    split at hs
    · cases hs
      exact h
    case h_2 store hcreate =>
      cases hs
      have hrows := rows_createSecretVersion hcreate
      have hnew : cipher.decrypt s.module.persistedVault
          (cipher.encrypt s.module.vault nonce value) = .ok value := by
        rw [← show s.module.vault = s.module.persistedVault from hsafe]
        exact cipher.decrypt_encrypt _ _ _
      refine ⟨h.hasStore, h.salt_length, ?_, forall_mem_cons.mpr ⟨?_, fun e he => ?_⟩⟩
      · show ∀ r ∈ store.rows, _
        rw [hrows]
        exact forall_mem_append.mpr ⟨h.rows, forall_mem_singleton.mpr ⟨value, hnew⟩⟩
      · refine ⟨⟨id, secretID, version, _⟩, ?_, rfl, hnew⟩
        exact hrows ▸ mem_append_right _ (mem_singleton_self _)
      · obtain ⟨r, hr, hid, hp⟩ := h.book e he
        exact ⟨r, hrows ▸ mem_append_left _ hr, hid, hp⟩

/-- **After safe events a boot without failures opens every value that was stored.** -/
theorem readable_after_boot (cipher : Cipher C N) {s0 s : Deployment C}
    (h0 : Intact cipher s0.module s0.book) {events : List (Event N)} {draws : Draws N}
    (hsafe : Along (step cipher) Safe s0 (events ++ [.boot {} draws]))
    (hrun : run (step cipher) s0 (events ++ [.boot {} draws]) = some s) : Readable cipher s := by
  obtain ⟨t, hevents, hboot⟩ := run_snoc.mp hrun
  obtain ⟨hbefore, hlast⟩ := along_snoc.mp hsafe
  have hintact : Intact cipher t.module t.book :=
    invariant_of_along (I := fun s => Intact cipher s.module s.book)
      (fun s e s' h hs hstep => step_intact e h hs hstep) h0 hbefore hevents
  cases hboot
  obtain ⟨hafter, hclean⟩ := boot_intact hintact (hlast t hevents) draws
  obtain ⟨hreturned, hvault⟩ := hclean rfl
  refine ⟨decide_eq_true hreturned, fun e he => ?_⟩
  obtain ⟨r, hr, hid, hp⟩ := hafter.book e he
  refine ⟨r, hr, hid, ?_⟩
  rwa [← hvault] at hp

def freshDeployment : Deployment (Vault × String) where
  module :=
    { hasStore := true, store := ⟨[], nodup_nil⟩, kv := some none, vault := ⟨"", []⟩,
      masterSecret := "master" }

def drawsOf (byte byte' : UInt8) : Draws Unit where
  initSalt := ⟨replicate vaultSaltLen byte, length_replicate⟩
  startSalt := ⟨replicate vaultSaltLen byte', length_replicate⟩
  nonces _ := ()

/-- Two boots, with a value that is stored in the first, and perhaps another in the second. -/
def twoBoots (faults : BootFaults) (more : List (Event Unit)) : List (Event Unit) :=
  [.boot {} (drawsOf 1 2), .store "v1" "s1" 1 "hunter2" (), .boot faults (drawsOf 3 4)] ++ more

lemma intact_freshDeployment : Intact sealing freshDeployment.module freshDeployment.book where
  hasStore := rfl
  salt_length _ h := nomatch h
  rows _ h := nomatch h
  book _ h := nomatch h

/-- A boot that cannot read the salt again does no harm when nothing is stored in it. -/
theorem readable_after_boot_twoBoots :
    Along (step sealing) Safe freshDeployment
      (twoBoots { initRead := some "disk I/O error" } [] ++ [.boot {} (drawsOf 5 6)]) ∧
    ∃ s, run (step sealing) freshDeployment
        (twoBoots { initRead := some "disk I/O error" } [] ++ [.boot {} (drawsOf 5 6)]) = some s ∧
      s.book = [("v1", "hunter2")] ∧ Readable sealing s := by
  have hsafe : Along (step sealing) Safe freshDeployment
      (twoBoots { initRead := some "disk I/O error" } [] ++ [.boot {} (drawsOf 5 6)]) := by
    decide
  exact ⟨hsafe, _, rfl, rfl, readable_after_boot _ intact_freshDeployment hsafe rfl⟩

/-- A boot that can neither read the salt nor list the versions replaces the salt, and a value
stored while the salt cannot be read is under the legacy one: both are lost in the next boot. -/
theorem boots_lose : (∃ s, run (step sealing) freshDeployment
        (twoBoots { initRead := some "disk I/O error", initList := some "database is locked" } [] ++
          [.boot {} (drawsOf 5 6)]) = some s ∧
      s.up = true ∧ s.book = [("v1", "hunter2")] ∧
      s.module.store.rows.map (fun r => (sealing.decrypt s.module.vault r.valueEnc).toOption) =
        [none] ∧ ¬Readable sealing s) ∧
    ∃ s, run (step sealing) freshDeployment
        (twoBoots { initRead := some "disk I/O error" } [.store "v2" "s2" 1 "t0ken" ()] ++
          [.boot {} (drawsOf 5 6)]) = some s ∧
      s.up = true ∧ s.book = [("v2", "t0ken"), ("v1", "hunter2")] ∧
      s.module.store.rows.map (fun r => (sealing.decrypt s.module.vault r.valueEnc).toOption) =
        [some "hunter2", none] ∧ ¬Readable sealing s := by
  refine ⟨⟨_, rfl, rfl, rfl, rfl, ?_⟩, _, rfl, rfl, rfl, rfl, ?_⟩
  · rintro ⟨-, hbook⟩
    obtain ⟨r, hr, -, hp⟩ := hbook ("v1", "hunter2") (mem_singleton_self _)
    obtain rfl := mem_singleton.mp hr
    cases hp
  · rintro ⟨-, hbook⟩
    obtain ⟨r, hr, hid, hp⟩ := hbook ("v2", "t0ken") mem_cons_self
    rcases mem_cons.mp hr with rfl | hr
    · exact absurd hid (by decide)
    · obtain rfl := mem_singleton.mp hr
      cases hp

end DeployMonster.Secrets
