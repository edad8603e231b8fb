import DeployMonster.Library.Table

/-!
# The key-value store

`internal/db/kv.go`: the table `kv_store` with the primary key `(bucket, key)`. An entry with an
expiry is not found from that second on; a write replaces the value and the expiry.
-/

namespace DeployMonster.DB

structure KVEntry (V : Type) where
  data : V
  /-- A Unix time, or 0 for an entry that does not expire. -/
  expiresAt : ℤ
  deriving DecidableEq

/-- The entry of each bucket and key. -/
def KVStore (V : Type) := String → String → Option (KVEntry V)

inductive KVError
  /-- `core.ErrKVNotFound`. -/
  | notFound
  | failed
  deriving DecidableEq

variable {V : Type} (kv : KVStore V)

/-- `Set` at the Unix time `now`; a TTL that is not positive means no expiry. -/
def KVStore.set (now : ℤ) (bucket key : String) (value : V) (ttlSeconds : ℤ) : KVStore V :=
  let expiresAt := if ttlSeconds > 0 then now + ttlSeconds else 0
  fun b k => if b = bucket ∧ k = key then some ⟨value, expiresAt⟩ else kv b k

/-- `Get` at the Unix time `now`. -/
def KVStore.get (now : ℤ) (bucket key : String) : Except KVError V :=
  match kv bucket key with
  | none => .error .notFound
  | some entry =>
    if entry.expiresAt > 0 ∧ now ≥ entry.expiresAt then .error .notFound else .ok entry.data

@[simp] lemma KVStore.set_self (now : ℤ) (bucket key : String) (value : V)
    (ttlSeconds : ℤ) : kv.set now bucket key value ttlSeconds bucket key =
      some ⟨value, if ttlSeconds > 0 then now + ttlSeconds else 0⟩ := by
  simp [KVStore.set]

variable {bucket key : String}

lemma KVStore.set_of_ne (now : ℤ) {bucket' key' : String} (value : V)
    (ttlSeconds : ℤ) (hne : bucket' ≠ bucket ∨ key' ≠ key) :
    kv.set now bucket key value ttlSeconds bucket' key' = kv bucket' key' :=
  if_neg fun h => hne.elim (fun hb => hb h.1) fun hk => hk h.2

lemma KVStore.get_of_lt {kv : KVStore V} {now : ℤ} {entry : KVEntry V}
    (hentry : kv bucket key = some entry) (hlive : now < entry.expiresAt) :
    kv.get now bucket key = .ok entry.data := by
  simp only [KVStore.get, hentry]
  exact if_neg fun h => absurd h.2 (Int.not_le.mpr hlive)

lemma KVStore.exists_of_get {kv : KVStore V} {now : ℤ} {value : V}
    (h : kv.get now bucket key = .ok value) :
    ∃ entry, kv bucket key = some entry ∧ entry.data = value := by
  unfold KVStore.get at h
  split at h
  case h_1 => cases h
  case h_2 entry hentry =>
    split at h
    · cases h
    · exact ⟨entry, hentry, Except.ok.inj h⟩

/-- The parts of a key can be told apart when the second one does not have the mark. -/
lemma append_cons_inj {α : Type*} {x : α} {l l' m m' : List α} (hm : x ∉ m) (hm' : x ∉ m')
    (h : l ++ x :: m = l' ++ x :: m') : l = l' ∧ m = m' := by
  simp only [List.append_eq_append_iff, List.cons_eq_append_iff, List.cons_eq_cons] at h
  rcases h with ⟨t, rfl, ⟨rfl, -, rfl⟩ | ⟨t, rfl, rfl⟩⟩ | ⟨t, rfl, ⟨rfl, -, rfl⟩ | ⟨t, rfl, rfl⟩⟩
  all_goals simp_all

/-!
# The tables of the key-value store

The tables `kv_store` and `kv_buckets` of `internal/db/kv.go`, for what depends on more than single
entries. What is found under a key is a `KVStore`.
-/

open List Table

variable {V : Type}

structure KVRow (V : Type) where
  (bucket key : String)
  entry : KVEntry V

def KVRow.id (r : KVRow V) : String × String := (r.bucket, r.key)

structure KVTable (V : Type) where
  rows : Table (KVRow.id : KVRow V → String × String)
  /-- The table `kv_buckets`. -/
  buckets : List String
  covered : ∀ r ∈ rows.rows, r.bucket ∈ buckets

namespace KVTable

def empty (buckets : List String) : KVTable V := ⟨Table.empty, buckets, nofun⟩

variable (t : KVTable V)

def store : KVStore V := fun bucket key => (t.rows.find? (bucket, key)).map KVRow.entry

def get (now : ℤ) (bucket key : String) : Except KVError V :=
  t.store.get now bucket key

/-- `Set`: the bucket is noted, and the row inserted or updated. -/
def set (now : ℤ) (bucket key : String) (value : V) (ttlSeconds : ℤ) : KVTable V where
  rows := t.rows.put ⟨bucket, key, value, if ttlSeconds > 0 then now + ttlSeconds else 0⟩
  buckets := bucket :: t.buckets
  covered r hr := by
    rcases mem_put hr with rfl | hr
    · exact mem_cons_self
    · exact mem_cons_of_mem _ (t.covered r hr)

def deleteRow (bucket key : String) : KVTable V :=
  { t with
    rows := t.rows.filter fun r => r.id ≠ (bucket, key)
    covered := fun r hr => t.covered r (mem_of_mem_filter hr) }

def delete (bucket key : String) : Except KVError (KVTable V) :=
  if bucket ∈ t.buckets then .ok (t.deleteRow bucket key) else .error .notFound

def liveKeys (now : ℤ) (bucket : String) : List String :=
  (t.rows.rows.filter fun r =>
    r.bucket = bucket ∧ (r.entry.expiresAt = 0 ∨ r.entry.expiresAt > now)).map KVRow.key

def list (now : ℤ) (bucket : String) : Except KVError (List String) :=
  if t.liveKeys now bucket = [] ∧ bucket ∉ t.buckets then .error .notFound
  else .ok (t.liveKeys now bucket)

lemma store_set (now : ℤ) (bucket key : String) (value : V) (ttlSeconds : ℤ) :
    (t.set now bucket key value ttlSeconds).store =
      t.store.set now bucket key value ttlSeconds := by
  funext b k
  simp only [store, set, find?_put, KVStore.set, KVRow.id, Prod.mk.injEq]
  by_cases h : b = bucket ∧ k = key
  · obtain ⟨rfl, rfl⟩ := h
    simp
  · rw [if_neg h, if_neg]
    rintro ⟨rfl, rfl⟩
    exact h ⟨rfl, rfl⟩

lemma store_deleteRow (bucket key b k : String) :
    (t.deleteRow bucket key).store b k =
      if bucket = b ∧ key = k then none else t.store b k := by
  simp only [store, deleteRow, Table.find?_filter]
  cases hfind : t.rows.find? (b, k) with
  | none => simp
  | some r =>
    obtain ⟨-, hid⟩ := Table.find?_eq_some_iff.mp hfind
    by_cases h : bucket = b ∧ key = k
    · obtain ⟨rfl, rfl⟩ := h
      simp [Option.filter_some, hid]
    · have hne : ¬(b = bucket ∧ k = key) := fun heq => h ⟨heq.1.symm, heq.2.symm⟩
      simp [Option.filter_some, hid, h, hne]

lemma store_delete {t t' : KVTable V} {bucket key : String} (h : t.delete bucket key = .ok t')
    (b k : String) : t'.store b k = if bucket = b ∧ key = k then none else t.store b k := by
  unfold delete at h
  split at h
  case isFalse => cases h
  case isTrue =>
    cases h
    exact t.store_deleteRow bucket key b k

lemma list_of_mem {t : KVTable V} {now : ℤ} {bucket key : String} {entry : KVEntry V}
    (hentry : t.store bucket key = some entry)
    (hlive : entry.expiresAt = 0 ∨ entry.expiresAt > now) :
    t.list now bucket = .ok (t.liveKeys now bucket) ∧ key ∈ t.liveKeys now bucket := by
  obtain ⟨r, hfind, rfl⟩ := Option.map_eq_some_iff.mp hentry
  obtain ⟨hr, hid⟩ := find?_eq_some_iff.mp hfind
  cases hid
  have hmem : r.key ∈ t.liveKeys now r.bucket := by
    refine mem_map_of_mem (mem_filter.mpr ⟨hr, ?_⟩)
    simpa using hlive
  refine ⟨if_neg ?_, hmem⟩
  rintro ⟨hnil, -⟩
  rw [hnil] at hmem
  cases hmem

end KVTable

end DeployMonster.DB
