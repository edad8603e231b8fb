import DeployMonster.DB.KV
import DeployMonster.Library.Interruption
import DeployMonster.Library.LastWrite

/-!
# Histories of the key-value store

The operations of `internal/db/kv.go`, statement by statement, with the clock and the TTL in 64
bits. `Get` takes an entry whose expiry is not positive for one that never expires; `Mutate` and
`List` do so only when the expiry is 0.
-/

namespace DeployMonster.DB

open Interruption LastWrite List Option Table Stops

variable {V D : Type}

/-! ## The operations -/

/-- JSON texts `D` of values `V`. What is encoded decodes to the same value. -/
structure Codec (V D : Type) where
  marshal : V → Except String D
  unmarshal : D → Except String V
  /-- `json.Valid`. -/
  valid : D → Bool
  unmarshal_marshal : ∀ {v d}, marshal v = .ok d → unmarshal d = .ok v
  valid_marshal : ∀ {v d}, marshal v = .ok d → valid d = true

inductive KVFailure
  /-- `core.ErrKVNotFound`, of the bucket. -/
  | notFound (bucket : String)
  | failed (text : String)

structure KVBatchItem (V : Type) where
  (bucket key : String)
  value : V
  ttl : Int64

def expiresAt (now ttlSeconds : Int64) : ℤ :=
  if ttlSeconds > 0 then (now + ttlSeconds).toInt else 0

namespace KVTable

def addBucket (t : KVTable D) (bucket : String) : KVTable D :=
  { t with
    buckets := t.buckets.insert bucket
    covered := fun r hr => mem_insert_of_mem (t.covered r hr) }

/-- `INSERT INTO kv_store … ON CONFLICT DO UPDATE`; the bucket is known by then. -/
def upsert (t : KVTable D) (bucket key : String) (entry : KVEntry D) : KVTable D where
  rows := t.rows.put ⟨bucket, key, entry⟩
  buckets := t.buckets.insert bucket
  covered r hr := by
    rcases mem_put hr with rfl | hr
    · exact mem_insert_self
    · exact mem_insert_of_mem (t.covered r hr)

abbrev KVOp (D : Type) := Op (KVTable D) KVFailure

/-- A statement that changes nothing: `Begin`, `Prepare` and `Commit`. -/
def statement (text : String) : KVOp D Unit :=
  Op.effect (fun e => .failed (text ++ ": " ++ e)) fun t => ((), t)

def liftError {α : Type} (text : String) : Except String α → KVOp D α
  | .ok a => pure a
  | .error e => Op.fail (.failed (text ++ ": " ++ e))

/-- The two statements that write a row. -/
def writeRow (text bucket key : String) (entry : KVEntry D) : KVOp D Unit := do
  Op.effect (fun e => .failed ("create sqlite kv bucket " ++ bucket ++ ": " ++ e))
    fun t => ((), t.addBucket bucket)
  Op.effect (fun e => .failed (text ++ " " ++ bucket ++ "/" ++ key ++ ": " ++ e))
    fun t => ((), t.upsert bucket key entry)

variable (codec : Codec V D)

def setOp (bucket key : String) (value : V) (ttlSeconds now : Int64) : KVOp D Unit := do
  let data ← liftError "marshal value" (codec.marshal value)
  statement "begin sqlite kv set"
  writeRow "sqlite kv set" bucket key ⟨data, expiresAt now ttlSeconds⟩
  statement "commit sqlite kv set"

def batchLoop (now : Int64) : List (KVBatchItem V) → KVOp D Unit
  | [] => pure ()
  | item :: items => do
    let data ← liftError ("marshal value for " ++ item.bucket ++ "/" ++ item.key)
      (codec.marshal item.value)
    writeRow "put" item.bucket item.key ⟨data, expiresAt now item.ttl⟩
    batchLoop now items

/-- `BatchSet`, which reads the clock once. -/
def batchSetOp (items : List (KVBatchItem V)) (now : Int64) : KVOp D Unit :=
  match items with
  | [] => pure ()
  | items => do
    statement "begin sqlite kv batch"
    statement "prepare sqlite kv bucket batch"
    statement "prepare sqlite kv batch"
    batchLoop codec now items
    statement "commit sqlite kv batch"

/-- What `Mutate` finds: whether there is an entry that has not expired, and what `dest` is then. -/
def mutateRead (t : KVTable D) (bucket key : String) (dest : V) (now : Int64) :
    Except String (Bool × V) :=
  match t.store bucket key with
  | some entry =>
    if entry.expiresAt = 0 ∨ now.toInt < entry.expiresAt then
      (codec.unmarshal entry.data).map fun value => (true, value)
    else .ok (false, dest)
  | none => .ok (false, dest)

/-- `Mutate`, which reads the clock twice. The callback is told whether there is an entry, and changes
what is in `dest`. -/
def mutateOp (bucket key : String) (dest : V) (ttlSeconds now now' : Int64)
    (callback : Option (Bool → V → Except String V)) : KVOp D Unit :=
  match callback with
  | none => Op.fail (.failed "mutate callback is required")
  | some callback => do
    statement "begin sqlite kv mutate"
    let read ← Op.effect
      (fun e => .failed ("read sqlite kv " ++ bucket ++ "/" ++ key ++ ": " ++ e))
      fun t => (mutateRead codec t bucket key dest now, t)
    let (found, dest) ← liftError "unmarshal value" read
    match callback found dest with
    | .error e => Op.fail (.failed e)
    | .ok dest => do
      let data ← liftError "marshal value" (codec.marshal dest)
      writeRow "write sqlite kv" bucket key ⟨data, expiresAt now' ttlSeconds⟩
      statement "commit sqlite kv mutate"

def deleteOp (bucket key : String) : KVOp D Unit := do
  let known ← Op.effect (fun e => .failed ("sqlite kv bucket lookup " ++ bucket ++ ": " ++ e))
    fun t => (decide (bucket ∈ t.buckets), t)
  if known then
    Op.effect (fun e => .failed ("sqlite kv delete " ++ bucket ++ "/" ++ key ++ ": " ++ e))
      fun t => ((), t.deleteRow bucket key)
  else Op.fail (.notFound bucket)

def getValue (t : KVTable D) (bucket key : String) (now : Int64) : Except KVError V := do
  let data ← t.get now.toInt bucket key
  (codec.unmarshal data).mapError fun _ => .failed

/-- The keys that `List` selects; those whose data is not JSON are skipped. -/
def validKeys (t : KVTable D) (bucket : String) (now : Int64) : List String :=
  (t.rows.rows.filter fun r => r.bucket = bucket ∧
    (r.entry.expiresAt = 0 ∨ r.entry.expiresAt > now.toInt) ∧ codec.valid r.entry.data).map KVRow.key

def listKeys (t : KVTable D) (bucket : String) (now : Int64) : Except KVError (List String) :=
  if t.validKeys codec bucket now = [] ∧ bucket ∉ t.buckets then .error .notFound
  else .ok (t.validKeys codec bucket now)

end KVTable

/-! ## Requests and their writes -/

/-- A writing request, with the readings of the clock. -/
inductive KVRequest (V : Type)
  | set (bucket key : String) (value : V) (ttlSeconds now : Int64)
  | batchSet (items : List (KVBatchItem V)) (now : Int64)
  | mutate (bucket key : String) (dest : V) (ttlSeconds now now' : Int64)
    (callback : Option (Bool → V → Except String V))
  | delete (bucket key : String)

/-- A write to a key: a value and its expiry, or nothing for a deletion. -/
structure KVWrite (V : Type) where
  (bucket key : String)
  content : Option (V × ℤ)

def KVWrite.contentAt (bucket key : String) (w : KVWrite V) : Option (Option (V × ℤ)) :=
  if w.bucket = bucket ∧ w.key = key then some w.content else none

namespace KVRequest

def keys : KVRequest V → List (String × String)
  | set bucket key .. => [(bucket, key)]
  | batchSet items _ => items.map fun item => (item.bucket, item.key)
  | mutate bucket key .. => [(bucket, key)]
  | delete bucket key => [(bucket, key)]

def writes (codec : Codec V D) (t : KVTable D) : KVRequest V → List (KVWrite V)
  | set bucket key value ttlSeconds now => [⟨bucket, key, some (value, expiresAt now ttlSeconds)⟩]
  | batchSet items now =>
    items.map fun item => ⟨item.bucket, item.key, some (item.value, expiresAt now item.ttl)⟩
  | mutate bucket key dest ttlSeconds now now' callback =>
    match callback, t.mutateRead codec bucket key dest now with
    | some callback, .ok (found, dest) =>
      match callback found dest with
      | .ok value => [⟨bucket, key, some (value, expiresAt now' ttlSeconds)⟩]
      | .error _ => []
    | _, _ => []
  | delete bucket key => [⟨bucket, key, none⟩]

/-- The sums of the clock and the TTLs are not negative, in 64 bits. -/
def InRange : KVRequest V → Prop
  | set _ _ _ ttlSeconds now => ttlSeconds > 0 → 0 ≤ now + ttlSeconds
  | batchSet items now => ∀ item ∈ items, item.ttl > 0 → 0 ≤ now + item.ttl
  | mutate _ _ _ ttlSeconds _ now' _ => ttlSeconds > 0 → 0 ≤ now' + ttlSeconds
  | delete .. => True

end KVRequest

namespace KVTable

variable (codec : Codec V D)

/-- A request, with the fault that it meets. -/
def apply (t : KVTable D) (r : KVRequest V) (stop : Option Stop) :
    Outcome KVFailure Unit × KVTable D :=
  match r with
  | .set bucket key value ttlSeconds now =>
    atomically (setOp codec bucket key value ttlSeconds now) stop t
  | .batchSet items now => atomically (batchSetOp codec items now) stop t
  | .mutate bucket key dest ttlSeconds now now' callback =>
    atomically (mutateOp codec bucket key dest ttlSeconds now now' callback) stop t
  | .delete bucket key =>
    let (outcome, _, t') := deleteOp bucket key stop 0 t
    (outcome, t')

def after : KVTable D → List (KVRequest V × Option Stop) → KVTable D
  | t, [] => t
  | t, (r, stop) :: rs => after (t.apply codec r stop).2 rs

/-- The writes of the requests that succeeded, in their order. -/
def history : KVTable D → List (KVRequest V × Option Stop) → List (KVWrite V)
  | _, [] => []
  | t, (r, stop) :: rs =>
    match t.apply codec r stop with
    | (.returned (), t') => r.writes codec t ++ history t' rs
    | (_, t') => history t' rs

def contents (t : KVTable D) (bucket key : String) : Option (V × ℤ) :=
  (t.store bucket key).bind fun entry =>
    (codec.unmarshal entry.data).toOption.map fun value => (value, entry.expiresAt)

def Encoded (t : KVTable D) : Prop :=
  ∀ bucket key entry, t.store bucket key = some entry → ∃ v, codec.marshal v = .ok entry.data

/-- The writes have taken effect, and nothing else has. -/
structure Applied (ws : List (KVWrite V)) (t t' : KVTable D) : Prop where
  encoded : t.Encoded codec → t'.Encoded codec
  contents : ∀ bucket key, t'.contents codec bucket key =
    (lastWrite (KVWrite.contentAt bucket key) ws).getD (t.contents codec bucket key)
  other : ∀ bucket key, (∀ w ∈ ws, ¬(w.bucket = bucket ∧ w.key = key)) →
    t'.store bucket key = t.store bucket key

variable {w : KVWrite V} {bucket key : String} {entry : KVEntry D}
  {ttlSeconds : Int64} {dest : V} {callback : Option (Bool → V → Except String V)}

section

variable {codec} {t t' t'' : KVTable D} {ws ws' : List (KVWrite V)} {stop : Option Stop} {c c' : ℕ}

lemma store_upsert (t : KVTable D) (bucket key : String) (entry : KVEntry D) (b k : String) :
    ((t.addBucket bucket).upsert bucket key entry).store b k =
      if bucket = b ∧ key = k then some entry else t.store b k := by
  simp only [store, upsert, find?_put, KVRow.id, Prod.mk.injEq]
  split <;> rfl

lemma applied_nil (t : KVTable D) : Applied codec [] t t :=
  ⟨id, fun _ _ => rfl, fun _ _ _ => rfl⟩

lemma Applied.append (h : Applied codec ws t t') (h' : Applied codec ws' t' t'') :
    Applied codec (ws ++ ws') t t'' where
  encoded := h'.encoded ∘ h.encoded
  contents b k := by rw [h'.contents, h.contents, lastWrite_append, getD_or]
  other b k hne := by
    rw [h'.other b k fun w hw => hne w (mem_append_right _ hw)]
    exact h.other b k fun w hw => hne w (mem_append_left _ hw)

lemma applied_singleton {entry : Option (KVEntry D)}
    (hstore : ∀ b k, t'.store b k = if w.bucket = b ∧ w.key = k then entry else t.store b k)
    (hentry : ∀ e ∈ entry, ∃ v, codec.marshal v = .ok e.data ∧ w.content = some (v, e.expiresAt))
    (hnone : entry = none → w.content = none) : Applied codec [w] t t' where
  encoded h b k e he := by
    rw [hstore] at he
    split_ifs at he
    · obtain ⟨v, hv, -⟩ := hentry e he
      exact ⟨v, hv⟩
    · exact h b k e he
  contents b k := by
    unfold KVTable.contents
    rw [hstore, lastWrite_cons, lastWrite_nil, none_or, KVWrite.contentAt]
    split_ifs
    · cases entry with
      | none => rw [hnone rfl]; rfl
      | some e =>
        obtain ⟨v, hv, hcontent⟩ := hentry e rfl
        rw [hcontent, bind_some, codec.unmarshal_marshal hv]
        rfl
    · rfl
  other b k hne := by rw [hstore, if_neg (hne w (mem_singleton_self _))]

variable {value : V}

lemma applied_upsert {data : D} (hdata : codec.marshal value = .ok data)
    (t : KVTable D) (bucket key : String) (e : ℤ) :
    Applied codec [⟨bucket, key, some (value, e)⟩] t
      ((t.addBucket bucket).upsert bucket key ⟨data, e⟩) := by
  refine applied_singleton (t.store_upsert bucket key ⟨data, e⟩) ?_ nofun
  rintro _ ⟨⟩
  exact ⟨value, hdata, rfl⟩

lemma applied_deleteRow (t : KVTable D) (bucket key : String) :
    Applied codec [⟨bucket, key, none⟩] t (t.deleteRow bucket key) :=
  applied_singleton (t.store_deleteRow bucket key) nofun fun _ => rfl

section

variable {a : Unit} {k : Unit → KVOp D Unit} {text : String}

lemma eq_of_statement_returns (h : Returns (statement text) stop c t a c' t') : t' = t :=
  (congrArg Prod.snd (eq_of_effect_returns h)).symm

lemma statement_bind_returns
    (h : Returns (statement text >>= k) stop c t a c' t') : ∃ c1, Returns (k ()) stop c1 t a c' t' :=
  exists_of_effect_bind_returns h

lemma liftError_bind_returns {α : Type} {x : Except String α}
    {k : α → KVOp D Unit} (h : Returns (liftError text x >>= k) stop c t a c' t') :
    ∃ b, x = .ok b ∧ Returns (k b) stop c t a c' t' := by
  cases x with
  | ok b => exact ⟨b, rfl, h⟩
  | error e => cases h

lemma writeRow_bind_returns (h : Returns (writeRow text bucket key entry >>= k) stop c t a c' t') :
    ∃ c1, Returns (k ()) stop c1 ((t.addBucket bucket).upsert bucket key entry) a c' t' := by
  obtain ⟨_, _, t1, hrow, hrest⟩ := exists_of_bind_returns h
  obtain ⟨_, hrow⟩ := exists_of_effect_bind_returns hrow
  obtain rfl : _ = t1 := congrArg Prod.snd (eq_of_effect_returns hrow)
  exact ⟨_, hrest⟩

end

lemma applied_setOp {now : Int64} {a : Unit}
    (h : Returns (setOp codec bucket key value ttlSeconds now) stop c t a c' t') :
    Applied codec [⟨bucket, key, some (value, expiresAt now ttlSeconds)⟩] t t' := by
  obtain ⟨data, hdata, hbegin⟩ := liftError_bind_returns h
  obtain ⟨_, hrow⟩ := statement_bind_returns hbegin
  obtain ⟨_, hcommit⟩ := writeRow_bind_returns hrow
  rw [eq_of_statement_returns hcommit]
  exact applied_upsert hdata t bucket key _

/-- **A `Set` that returns leaves the entry of `KVStore.set`**, when the sum fits into 64 bits. -/
theorem store_of_setOp_returns {now : Int64} {a : Unit}
    (h : Returns (setOp codec bucket key value ttlSeconds now) stop c t a c' t')
    (hsum : now.toInt + ttlSeconds.toInt < 2 ^ 63) :
    ∃ data, codec.marshal value = .ok data ∧
      t'.store = t.store.set now.toInt bucket key data ttlSeconds.toInt := by
  obtain ⟨data, hdata, hbegin⟩ := liftError_bind_returns h
  obtain ⟨_, hrow⟩ := statement_bind_returns hbegin
  obtain ⟨_, hcommit⟩ := writeRow_bind_returns hrow
  refine ⟨data, hdata, ?_⟩
  rw [eq_of_statement_returns hcommit]
  have hexpiry : expiresAt now ttlSeconds =
      if ttlSeconds.toInt > 0 then now.toInt + ttlSeconds.toInt else 0 := by
    unfold expiresAt
    have hpos : ttlSeconds > 0 ↔ ttlSeconds.toInt > 0 := Int64.lt_iff_toInt_lt
    have hnow := now.le_toInt
    split_ifs with h1 h2 h2
    · rw [Int64.toInt_add, Int.bmod_eq_of_le_mul_two] <;> omega
    · exact absurd (hpos.mp h1) h2
    · exact absurd (hpos.mpr h2) h1
    · rfl
  funext b k
  rw [store_upsert, KVStore.set, hexpiry]
  simp only [eq_comm]

variable {items : List (KVBatchItem V)}

lemma applied_batchLoop {now : Int64} {a : Unit}
    (h : Returns (batchLoop codec now items) stop c t a c' t') :
    Applied codec (items.map fun item =>
      ⟨item.bucket, item.key, some (item.value, expiresAt now item.ttl)⟩) t t' := by
  induction items generalizing c t with
  | nil =>
    cases h
    exact applied_nil _
  | cons item items ih =>
    obtain ⟨data, hdata, hrow⟩ := liftError_bind_returns h
    obtain ⟨_, hrest⟩ := writeRow_bind_returns hrow
    exact (applied_upsert hdata t item.bucket item.key _).append (ih hrest)

lemma applied_batchSetOp {now : Int64} {a : Unit}
    (h : Returns (batchSetOp codec items now) stop c t a c' t') :
    Applied codec (items.map fun item =>
      ⟨item.bucket, item.key, some (item.value, expiresAt now item.ttl)⟩) t t' := by
  cases items with
  | nil =>
    cases h
    exact applied_nil _
  | cons item items =>
    obtain ⟨_, hbuckets⟩ := statement_bind_returns h
    obtain ⟨_, hrows⟩ := statement_bind_returns hbuckets
    obtain ⟨_, hbody⟩ := statement_bind_returns hrows
    obtain ⟨_, _, _, hloop, hcommit⟩ := exists_of_bind_returns hbody
    rw [eq_of_statement_returns hcommit]
    exact applied_batchLoop hloop

lemma applied_mutateOp {now now' : Int64} {a : Unit}
    (h : Returns (mutateOp codec bucket key dest ttlSeconds now now' callback) stop c t a c' t') :
    Applied codec
      ((KVRequest.mutate bucket key dest ttlSeconds now now' callback).writes codec t) t t' := by
  cases callback with
  | none => cases h
  | some callback =>
    obtain ⟨_, hbegin⟩ := statement_bind_returns h
    obtain ⟨_, hread⟩ := exists_of_effect_bind_returns hbegin
    obtain ⟨⟨found, value⟩, hfound, hcall⟩ := liftError_bind_returns hread
    have hfound : mutateRead codec t bucket key dest now = .ok (found, value) := hfound
    dsimp only at hcall
    cases hvalue : callback found value with
    | error e =>
      rw [hvalue] at hcall
      cases hcall
    | ok value' =>
      rw [hvalue] at hcall
      obtain ⟨data, hdata, hrow⟩ := liftError_bind_returns hcall
      obtain ⟨_, hcommit⟩ := writeRow_bind_returns hrow
      rw [eq_of_statement_returns hcommit]
      simp only [KVRequest.writes, hfound, hvalue]
      exact applied_upsert hdata t bucket key _

lemma deleteOp_cases (t : KVTable D) (bucket key : String) (stop : Option Stop) :
    (∃ c, Returns (deleteOp bucket key) stop 0 t () c (t.deleteRow bucket key)) ∨
    Stops (deleteOp bucket key) stop 0 t t := by
  by_cases hlookup : Clear stop 0 1
  swap
  · exact .inr (bind_left (effect_stops _ _ hlookup))
  by_cases hknown : bucket ∈ t.buckets
  swap
  · refine .inr (bind_right (effect_returns _ _ hlookup) ?_)
    rw [if_neg (by simpa using hknown)]
    exact fail_stops _
  have hpass : decide (bucket ∈ t.buckets) = true := decide_eq_true hknown
  by_cases hdelete : Clear stop 1 2
  · refine .inl ⟨2, Returns.bind (effect_returns _ _ hlookup) ?_⟩
    rw [if_pos hpass]
    exact effect_returns _ _ hdelete
  · refine .inr (bind_right (effect_returns _ _ hlookup) ?_)
    rw [if_pos hpass]
    exact effect_stops _ _ hdelete

/-- **A request takes effect as a whole, or changes nothing.** -/
theorem apply_cases (codec : Codec V D) (t : KVTable D) (r : KVRequest V) (stop : Option Stop) :
    ((t.apply codec r stop).1 = .returned () ∧
      Applied codec (r.writes codec t) t (t.apply codec r stop).2) ∨
    (t.apply codec r stop).1 ≠ .returned () ∧ (t.apply codec r stop).2 = t := by
  have htransaction : ∀ {op : KVOp D Unit} {ws : List (KVWrite V)},
      (∀ {a c t'}, Returns op stop 0 t a c t' → Applied codec ws t t') →
      ((atomically op stop t).1 = .returned () ∧ Applied codec ws t (atomically op stop t).2) ∨
      (atomically op stop t).1 ≠ .returned () ∧ (atomically op stop t).2 = t := by
    intro op ws hop
    rcases atomically_cases op stop t with ⟨a, c, t', hreturns, heq⟩ | ⟨hnot, hsame⟩
    · rw [heq]
      exact .inl ⟨rfl, hop hreturns⟩
    · exact .inr ⟨hnot (), hsame⟩
  cases r with
  | set bucket key value ttlSeconds now => exact htransaction applied_setOp
  | batchSet items now => exact htransaction applied_batchSetOp
  | mutate bucket key dest ttlSeconds now now' callback => exact htransaction applied_mutateOp
  | delete bucket key =>
    rcases deleteOp_cases t bucket key stop with ⟨c, hreturns⟩ | ⟨hnot, hsame⟩
    · have heq : t.apply codec (.delete bucket key) stop = (.returned (), t.deleteRow bucket key) := by
        rw [apply, hreturns]
      rw [heq]
      exact .inl ⟨rfl, applied_deleteRow t bucket key⟩
    · exact .inr ⟨hnot (), hsame⟩

end

variable {rs : List (KVRequest V × Option Stop)}

section

variable (codec : Codec V D)

lemma encoded_after {t : KVTable D} (h : t.Encoded codec) (rs : List (KVRequest V × Option Stop)) :
    (t.after codec rs).Encoded codec := by
  induction rs generalizing t with
  | nil => exact h
  | cons request rs ih =>
    obtain ⟨r, stop⟩ := request
    refine ih ?_
    rcases apply_cases codec t r stop with ⟨-, happlied⟩ | ⟨-, hsame⟩
    · exact happlied.encoded h
    · rwa [hsame]

/-- **What a key holds is the last successful write to it.** -/
theorem contents_after (t : KVTable D) (rs : List (KVRequest V × Option Stop)) (b k : String) :
    (t.after codec rs).contents codec b k =
      (lastWrite (KVWrite.contentAt b k) (t.history codec rs)).getD (t.contents codec b k) := by
  induction rs generalizing t with
  | nil => rfl
  | cons request rs ih =>
    obtain ⟨r, stop⟩ := request
    rw [after, ih, history]
    rcases apply_cases codec t r stop with ⟨hreturned, happlied⟩ | ⟨hnot, hsame⟩
    · rcases hresult : t.apply codec r stop with ⟨outcome, t'⟩
      rw [hresult] at hreturned happlied
      subst hreturned
      rw [happlied.contents, lastWrite_append, getD_or]
    · rcases hresult : t.apply codec r stop with ⟨_ | e | _, t'⟩
      · exact absurd (by rw [hresult]) hnot
      all_goals
        rw [hresult] at hsame
        rw [show t' = t from hsame]

lemma exists_of_mem_history {t : KVTable D} (h : w ∈ t.history codec rs) :
    ∃ t' : KVTable D, ∃ r ∈ rs, w ∈ r.1.writes codec t' := by
  induction rs generalizing t with
  | nil => cases h
  | cons request rs ih =>
    obtain ⟨r, stop⟩ := request
    have hrest : ∀ {t' : KVTable D}, w ∈ t'.history codec rs →
        ∃ t' : KVTable D, ∃ r' ∈ (r, stop) :: rs, w ∈ r'.1.writes codec t' := by
      intro t' hw
      obtain ⟨t', r', hr', hw⟩ := ih hw
      exact ⟨t', r', mem_cons_of_mem _ hr', hw⟩
    rw [history] at h
    split at h
    · rcases mem_append.mp h with h | h
      · exact ⟨t, _, mem_cons_self, h⟩
      · exact hrest h
    · exact hrest h

end

/-! ## What the readers find -/

variable {v : V}

section

variable (codec : Codec V D)

def Listed (t : KVTable D) (bucket key : String) (now : Int64) : Prop :=
  ∃ keys, t.listKeys codec bucket now = .ok keys ∧ key ∈ keys

/-- The three readers agree, whenever they read, on whether a key is live. -/
def Agree (t : KVTable D) : Prop :=
  ∀ bucket key now dest,
    ((∃ v, t.getValue codec bucket key now = .ok v) ↔
      ∃ v, t.mutateRead codec bucket key dest now = .ok (true, v)) ∧
    ((∃ v, t.getValue codec bucket key now = .ok v) ↔ t.Listed codec bucket key now)

/-- What the three readers find under a key is the same. -/
def SameKey (t t' : KVTable D) (bucket key : String) : Prop :=
  ∀ now dest, t'.getValue codec bucket key now = t.getValue codec bucket key now ∧
    t'.mutateRead codec bucket key dest now = t.mutateRead codec bucket key dest now ∧
    (t'.Listed codec bucket key now ↔ t.Listed codec bucket key now)

variable {codec} {t t' : KVTable D} {bucket key : String} {now : Int64}

lemma listed_iff_mem : t.Listed codec bucket key now ↔ key ∈ t.validKeys codec bucket now := by
  unfold Listed listKeys
  constructor
  · rintro ⟨keys, hkeys, hmem⟩
    split_ifs at hkeys
    cases hkeys
    exact hmem
  · intro hmem
    exact ⟨_, if_neg fun h => ne_nil_of_mem hmem h.1, hmem⟩

lemma listed_iff : t.Listed codec bucket key now ↔ ∃ entry, t.store bucket key = some entry ∧
      (entry.expiresAt = 0 ∨ entry.expiresAt > now.toInt) ∧ codec.valid entry.data = true := by
  rw [listed_iff_mem, validKeys, List.mem_map]
  constructor
  · rintro ⟨r, hmem, rfl⟩
    obtain ⟨hr, hselected⟩ := mem_filter.mp hmem
    obtain ⟨rfl, hlive⟩ := of_decide_eq_true hselected
    have hfind : t.rows.find? (r.bucket, r.key) = some r := find?_eq_some_iff.mpr ⟨hr, rfl⟩
    exact ⟨r.entry, by rw [store, hfind]; rfl, hlive⟩
  · rintro ⟨entry, hentry, hlive⟩
    obtain ⟨r, hfind, rfl⟩ := map_eq_some_iff.mp hentry
    obtain ⟨hr, hid⟩ := find?_eq_some_iff.mp hfind
    cases hid
    exact ⟨r, mem_filter.mpr ⟨hr, decide_eq_true ⟨rfl, hlive⟩⟩, rfl⟩

lemma sameKey_of_store_eq (h : t'.store bucket key = t.store bucket key) :
    SameKey codec t t' bucket key := by
  intro now dest
  refine ⟨?_, ?_, ?_⟩
  · simp only [getValue, get, KVStore.get, h]
  · simp only [mutateRead, h]
  · simp only [listed_iff, h]

lemma getValue_eq_ok_iff : t.getValue codec bucket key now = .ok v ↔
    ∃ entry, t.store bucket key = some entry ∧
      (entry.expiresAt ≤ 0 ∨ now.toInt < entry.expiresAt) ∧ codec.unmarshal entry.data = .ok v := by
  unfold getValue KVTable.get KVStore.get
  cases hstore : t.store bucket key with
  | none => exact ⟨nofun, nofun⟩
  | some entry =>
    simp only [some.injEq, exists_eq_left']
    by_cases hdead : entry.expiresAt > 0 ∧ now.toInt ≥ entry.expiresAt
    · have hnot : ¬(entry.expiresAt ≤ 0 ∨ now.toInt < entry.expiresAt) := by omega
      rw [if_pos hdead]
      exact ⟨nofun, fun h => absurd h.1 hnot⟩
    have hlive : entry.expiresAt ≤ 0 ∨ now.toInt < entry.expiresAt := by omega
    rw [if_neg hdead]
    refine Iff.trans ?_ (and_iff_right hlive).symm
    show (codec.unmarshal entry.data).mapError _ = .ok v ↔ _
    cases codec.unmarshal entry.data with
    | ok value => exact ⟨fun h => congrArg _ (Except.ok.inj h), fun h => congrArg _ (Except.ok.inj h)⟩
    | error e => exact ⟨nofun, nofun⟩

lemma mutateRead_eq_ok_iff :
    t.mutateRead codec bucket key dest now = .ok (true, v) ↔
    ∃ entry, t.store bucket key = some entry ∧
      (entry.expiresAt = 0 ∨ now.toInt < entry.expiresAt) ∧ codec.unmarshal entry.data = .ok v := by
  unfold mutateRead
  cases hstore : t.store bucket key with
  | none => simp
  | some entry =>
    simp only [some.injEq, exists_eq_left']
    by_cases hlive : entry.expiresAt = 0 ∨ now.toInt < entry.expiresAt
    · rw [if_pos hlive]
      refine Iff.trans ?_ (and_iff_right hlive).symm
      cases codec.unmarshal entry.data with
      | ok | error => simp [Except.map]
    · rw [if_neg hlive]
      simp [hlive]

/-- **When the three readers agree.** -/
theorem agree_iff (h : t.Encoded codec) : t.Agree codec ↔
    ∀ bucket key entry, t.store bucket key = some entry → 0 ≤ entry.expiresAt := by
  constructor
  · intro hagree bucket key entry hentry
    by_contra hneg
    obtain ⟨v, hv⟩ := h bucket key entry hentry
    obtain ⟨value, hread⟩ := (hagree bucket key 0 v).1.mp ⟨v, getValue_eq_ok_iff.mpr
      ⟨entry, hentry, .inl (by omega), codec.unmarshal_marshal hv⟩⟩
    obtain ⟨entry', hentry', hlive, -⟩ := mutateRead_eq_ok_iff.mp hread
    cases hentry.symm.trans hentry'
    rw [Int64.toInt_zero] at hlive
    omega
  · intro hexpiry bucket key now dest
    simp only [getValue_eq_ok_iff, mutateRead_eq_ok_iff, listed_iff]
    have hiff : ∀ entry, t.store bucket key = some entry →
        (entry.expiresAt ≤ 0 ∨ now.toInt < entry.expiresAt ↔
          entry.expiresAt = 0 ∨ now.toInt < entry.expiresAt) := by
      intro entry hentry
      have := hexpiry bucket key entry hentry
      omega
    constructor
    · constructor
      · rintro ⟨v, entry, hentry, hlive, hv⟩
        exact ⟨v, entry, hentry, (hiff entry hentry).mp hlive, hv⟩
      · rintro ⟨v, entry, hentry, hlive, hv⟩
        exact ⟨v, entry, hentry, (hiff entry hentry).mpr hlive, hv⟩
    constructor
    · rintro ⟨v, entry, hentry, hlive, hv⟩
      obtain ⟨value, hvalue⟩ := h bucket key entry hentry
      exact ⟨entry, hentry, (hiff entry hentry).mp hlive, codec.valid_marshal hvalue⟩
    · rintro ⟨entry, hentry, hlive, -⟩
      obtain ⟨value, hvalue⟩ := h bucket key entry hentry
      exact ⟨value, entry, hentry, (hiff entry hentry).mpr hlive, codec.unmarshal_marshal hvalue⟩

end

/-! ## What the store promises -/

/-- What the store promises of a history that begins with an empty store. -/
structure Consistent (codec : Codec V D) (buckets : List String)
    (rs : List (KVRequest V × Option Stop)) : Prop where
  /-- At every moment the readers agree on whether a key is live. -/
  agree : ∀ pre, pre <+: rs → ((empty buckets).after codec pre).Agree codec
  last : ∀ pre, pre <+: rs → ∀ bucket key now dest v,
    ((empty buckets).after codec pre).getValue codec bucket key now = .ok v ∨
      ((empty buckets).after codec pre).mutateRead codec bucket key dest now = .ok (true, v) →
    ∃ e, lastWrite (KVWrite.contentAt bucket key) ((empty buckets).history codec pre) =
      some (some (v, e))
  others : ∀ pre r stop, pre ++ [(r, stop)] <+: rs → ∀ bucket key, (bucket, key) ∉ r.keys →
    SameKey codec ((empty buckets).after codec pre)
      (((empty buckets).after codec pre).apply codec r stop).2 bucket key
  /-- A request that does not return normally leaves every key. -/
  failed : ∀ pre r stop, pre ++ [(r, stop)] <+: rs →
    (((empty buckets).after codec pre).apply codec r stop).1 ≠ .returned () → ∀ bucket key,
    SameKey codec ((empty buckets).after codec pre)
      (((empty buckets).after codec pre).apply codec r stop).2 bucket key

section

variable {codec : Codec V D} {t : KVTable D} {r : KVRequest V}

lemma expiresAt_nonneg {now : Int64} (h : ttlSeconds > 0 → 0 ≤ now + ttlSeconds) :
    0 ≤ expiresAt now ttlSeconds := by
  unfold expiresAt
  split_ifs with hpos
  · exact Int64.le_iff_toInt_le.mp (h hpos)
  · exact le_rfl

lemma eq_of_mem_writes_mutate {now now' : Int64}
    (h : w ∈ (KVRequest.mutate bucket key dest ttlSeconds now now' callback).writes codec t) :
    ∃ value, w = ⟨bucket, key, some (value, expiresAt now' ttlSeconds)⟩ := by
  unfold KVRequest.writes at h
  dsimp only at h
  split at h
  · split at h
    · exact ⟨_, mem_singleton.mp h⟩
    · cases h
  · cases h

lemma spec_of_mem_writes (h : w ∈ r.writes codec t) : (w.bucket, w.key) ∈ r.keys ∧
    (r.InRange → ∀ v e, w.content = some (v, e) → 0 ≤ e) := by
  cases r with
  | set bucket key value ttlSeconds now =>
    obtain rfl := mem_singleton.mp h
    refine ⟨mem_singleton_self _, fun hr v e hcontent => ?_⟩
    cases hcontent
    exact expiresAt_nonneg hr
  | batchSet items now =>
    obtain ⟨item, hitem, rfl⟩ := mem_map.mp h
    refine ⟨mem_map_of_mem hitem, fun hr v e hcontent => ?_⟩
    cases hcontent
    exact expiresAt_nonneg (hr item hitem)
  | mutate bucket key dest ttlSeconds now now' callback =>
    obtain ⟨value, rfl⟩ := eq_of_mem_writes_mutate h
    refine ⟨mem_singleton_self _, fun hr v e hcontent => ?_⟩
    cases hcontent
    exact expiresAt_nonneg hr
  | delete bucket key =>
    obtain rfl := mem_singleton.mp h
    exact ⟨mem_singleton_self _, fun _ _ _ h => nomatch h⟩

lemma encoded_empty (codec : Codec V D) (buckets : List String) :
    (empty buckets : KVTable D).Encoded codec := nofun

variable {buckets : List String}

lemma lastWrite_of_store (hentry : ((empty buckets).after codec rs).store bucket key = some entry)
    (hv : codec.unmarshal entry.data = .ok v) :
    lastWrite (KVWrite.contentAt bucket key) ((empty buckets).history codec rs) =
      some (some (v, entry.expiresAt)) := by
  have hcontents := contents_after codec (empty buckets) rs bucket key
  unfold contents at hcontents
  rw [hentry, bind_some, hv] at hcontents
  cases hlast : lastWrite (KVWrite.contentAt bucket key) ((empty buckets).history codec rs) with
  | none =>
    rw [hlast] at hcontents
    cases hcontents
  | some content =>
    rw [hlast] at hcontents
    exact congrArg some hcontents.symm

lemma expiry_of_store (h : ∀ r ∈ rs, r.1.InRange)
    (hentry : ((empty buckets).after codec rs).store bucket key = some entry) :
    0 ≤ entry.expiresAt := by
  obtain ⟨v, hv⟩ := encoded_after codec (encoded_empty codec buckets) rs bucket key entry hentry
  obtain ⟨w, hw, hcontent⟩ :=
    exists_of_lastWrite (lastWrite_of_store hentry (codec.unmarshal_marshal hv))
  obtain ⟨-, hcontent⟩ := ite_none_right_eq_some.mp hcontent
  obtain ⟨t', r, hr, hw⟩ := exists_of_mem_history codec hw
  exact (spec_of_mem_writes hw).2 (h r hr) _ _ (some.inj hcontent)

end

/-- **A history in range is consistent.** -/
theorem consistent_of_inRange (codec : Codec V D) (buckets : List String)
    (h : ∀ r ∈ rs, r.1.InRange) : Consistent codec buckets rs where
  agree pre hpre := by
    refine (agree_iff (encoded_after codec (encoded_empty codec buckets) pre)).mpr ?_
    intro bucket key entry hentry
    exact expiry_of_store (fun r hr => h r (hpre.subset hr)) hentry
  last pre _ bucket key now dest v hread := by
    rcases hread with hget | hmutate
    · obtain ⟨entry, hentry, -, hv⟩ := getValue_eq_ok_iff.mp hget
      exact ⟨_, lastWrite_of_store hentry hv⟩
    · obtain ⟨entry, hentry, -, hv⟩ := mutateRead_eq_ok_iff.mp hmutate
      exact ⟨_, lastWrite_of_store hentry hv⟩
  others pre r stop _ bucket key hkey := by
    refine sameKey_of_store_eq ?_
    rcases apply_cases codec ((empty buckets).after codec pre) r stop with
      ⟨-, happlied⟩ | ⟨-, hsame⟩
    · refine happlied.other bucket key fun w hw => ?_
      rintro ⟨rfl, rfl⟩
      exact hkey (spec_of_mem_writes hw).1
    · rw [hsame]
  failed pre r stop _ hfailed bucket key := by
    refine sameKey_of_store_eq ?_
    rcases apply_cases codec ((empty buckets).after codec pre) r stop with
      ⟨hreturned, -⟩ | ⟨-, hsame⟩
    · exact absurd hreturned hfailed
    · rw [hsame]

section

def plainCodec : Codec String String where
  marshal := .ok
  unmarshal := .ok
  valid _ := true
  unmarshal_marshal h := congrArg _ (Except.ok.inj h).symm
  valid_marshal _ := rfl

theorem store_of_setOp_session : ∃ t' data,
    Returns (setOp plainCodec "sessions" "alice" "token" 3600 1700000000) none 0
      (empty ["sessions"]) () 4 t' ∧
    t'.store = (empty ["sessions"]).store.set 1700000000 "sessions" "alice" data 3600 := by
  have hreturns : Returns (setOp plainCodec "sessions" "alice" "token" 3600 1700000000) none 0
      (empty ["sessions"]) () 4 _ := rfl
  obtain ⟨data, -, hstore⟩ := store_of_setOp_returns hreturns (by decide)
  exact ⟨_, data, hreturns, hstore⟩

/-- Two sessions are stored for an hour, one is renewed and the other one deleted. -/
def sessionRequests : List (KVRequest String × Option Stop) :=
  [(.set "sessions" "alice" "token" 3600 1700000000, none),
    (.set "sessions" "bob" "token" 3600 1700000000, none),
    (.mutate "sessions" "alice" "" 3600 1700000001 1700000002 (some fun _ v => .ok (v ++ "'")), none),
    (.delete "sessions" "bob", none)]

theorem consistent_of_inRange_session : (∀ r ∈ sessionRequests, r.1.InRange) ∧
    Consistent plainCodec ["sessions"] sessionRequests := by
  have hrange : ∀ r ∈ sessionRequests, r.1.InRange := by
    simp only [sessionRequests, forall_mem_cons, KVRequest.InRange]
    exact ⟨by decide, by decide, by decide, trivial, by simp⟩
  exact ⟨hrange, consistent_of_inRange _ _ hrange⟩

/-- A session that is stored for the longest time: the sum wraps around. `Get` finds it for ever,
`Mutate` and `List` never do. -/
theorem longest_ttl_disagrees :
    let t := (empty ["sessions"]).after plainCodec
      [(.set "sessions" "alice" "token" 9223372036854775807 1700000000, none)]
    t.getValue plainCodec "sessions" "alice" 1700000001 = .ok "token" ∧
    t.mutateRead plainCodec "sessions" "alice" "" 1700000001 = .ok (false, "") ∧
    t.listKeys plainCodec "sessions" 1700000001 = .ok [] ∧
    ¬Consistent plainCodec ["sessions"]
      [(.set "sessions" "alice" "token" 9223372036854775807 1700000000, none)] := by
  refine ⟨rfl, rfl, rfl, fun h => ?_⟩
  have hiff := (h.agree _ prefix_rfl "sessions" "alice" 1700000001 "").1
  obtain ⟨v, hv⟩ := hiff.mp ⟨"token", rfl⟩
  cases hv

end

end KVTable

end DeployMonster.DB
