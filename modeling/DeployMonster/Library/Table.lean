import Mathlib

/-!
# Tables with a primary key

The rows of a table in the order of their insertion, no two of which have the same key.
-/

@[ext] structure Table {ρ κ : Type} (key : ρ → κ) where
  rows : List ρ
  nodup : (rows.map key).Nodup

namespace Table

open List

variable {ρ κ : Type} {key : ρ → κ}

def empty : Table key := ⟨[], nodup_nil⟩

lemma eq_of_key_eq {t : Table key} {r r' : ρ} (hr : r ∈ t.rows) (hr' : r' ∈ t.rows)
    (hkey : key r = key r') : r = r' :=
  inj_on_of_nodup_map t.nodup hr hr' hkey

variable (t : Table key)

def filter (p : ρ → Bool) : Table key where
  rows := t.rows.filter p
  nodup := t.nodup.sublist (filter_sublist.map _)

/-- A change of rows that keeps their keys. -/
def modify (f : ρ → ρ) (hf : ∀ r, key (f r) = key r) : Table key where
  rows := t.rows.map f
  nodup := by
    have hkeys : (t.rows.map f).map key = t.rows.map key := by
      rw [map_map]
      exact map_congr_left fun r _ => hf r
    rw [hkeys]
    exact t.nodup

def insert (r : ρ) (hr : key r ∉ t.rows.map key) : Table key where
  rows := t.rows ++ [r]
  nodup := by
    rw [map_append]
    refine nodup_append'.mpr ⟨t.nodup, nodup_singleton _, ?_⟩
    simpa using hr

/-- The same rows in another order. -/
def reorder (rows : List ρ) (hperm : rows.Perm t.rows) : Table key where
  rows := rows
  nodup := (hperm.map key).nodup_iff.mpr t.nodup

/-- The rows with the greatest rank first, at most `limit` of them. -/
def newest (p : ρ → Bool) (rank : ρ → ℤ) (limit : ℕ) : List ρ :=
  ((t.rows.filter p).insertionSort fun r r' => rank r' ≤ rank r).take limit

/-- The same from an offset on. -/
def page (p : ρ → Bool) (rank : ρ → ℤ) (limit offset : ℕ) : List ρ :=
  (t.newest p rank (offset + limit)).drop offset

variable {p : ρ → Bool}

lemma mem_of_mem_newest {t : Table key} {rank : ρ → ℤ} {limit : ℕ} {r : ρ}
    (h : r ∈ t.newest p rank limit) : r ∈ t.rows ∧ p r = true := by
  have hmem := (mem_insertionSort _).mp (mem_of_mem_take h)
  exact mem_filter.mp hmem

lemma mem_of_mem_page {t : Table key} {rank : ρ → ℤ} {limit offset : ℕ} {r : ρ}
    (h : r ∈ t.page p rank limit offset) : r ∈ t.rows ∧ p r = true :=
  mem_of_mem_newest (mem_of_mem_drop h)

variable [DecidableEq κ]

def find? (k : κ) : Option ρ := t.rows.find? (key · = k)

/-- A change of the row of a key. -/
def update (k : κ) (f : ρ → ρ) (hf : ∀ r, key (f r) = key r) : Table key :=
  t.modify (fun r => if key r = k then f r else r) fun r => by
    split
    · exact hf r
    · rfl

/-- The row in the place of the one with its key, or at the end. -/
def put (r : ρ) : Table key :=
  if hr : key r ∈ t.rows.map key then
    t.modify (fun r' => if key r' = key r then r else r') fun r' => by
      split
      case isTrue h => exact h.symm
      case isFalse => rfl
  else t.insert r hr

variable {t : Table key} {k : κ} {r : ρ}

lemma find?_eq_some_iff : t.find? k = some r ↔ r ∈ t.rows ∧ key r = k := by
  constructor
  · intro h
    exact ⟨mem_of_find?_eq_some h, by simpa using find?_some h⟩
  rintro ⟨hr, rfl⟩
  cases h : t.find? (key r) with
  | none => simpa using find?_eq_none.mp h r hr
  | some r' =>
    have hkey : key r' = key r := by simpa using find?_some h
    rw [eq_of_key_eq (mem_of_find?_eq_some h) hr hkey]

lemma find?_insert {hr : key r ∉ t.rows.map key} :
    (t.insert r hr).find? k = if key r = k then some r else t.find? k := by
  split
  case isTrue hk => exact find?_eq_some_iff.mpr ⟨by simp [insert], hk⟩
  case isFalse hk => simp [find?, insert, hk]

lemma find?_reorder {rows : List ρ} {hperm : rows.Perm t.rows} :
    (t.reorder rows hperm).find? k = t.find? k := by
  ext r
  rw [find?_eq_some_iff, find?_eq_some_iff]
  exact and_congr_left fun _ => hperm.mem_iff

variable {f : ρ → ρ} {hf : ∀ r, key (f r) = key r}

lemma find?_modify : (t.modify f hf).find? k = (t.find? k).map f := by
  cases h : t.find? k with
  | none =>
    refine find?_eq_none.mpr (forall_mem_map.mpr fun r hr => ?_)
    simpa [hf] using find?_eq_none.mp h r hr
  | some r =>
    obtain ⟨hr, hk⟩ := find?_eq_some_iff.mp h
    exact find?_eq_some_iff.mpr ⟨mem_map_of_mem hr, (hf r).trans hk⟩

lemma find?_put : (t.put r).find? k = if key r = k then some r else t.find? k := by
  unfold put
  split
  case isTrue hr =>
    rw [find?_modify]
    cases h : t.find? k with
    | none =>
      rw [if_neg]
      · rfl
      · rintro rfl
        obtain ⟨r', hr', hkey⟩ := mem_map.mp hr
        exact absurd (find?_eq_some_iff.mpr ⟨hr', hkey⟩) (by rw [h]; exact nofun)
    | some r' =>
      obtain ⟨-, rfl⟩ := find?_eq_some_iff.mp h
      by_cases hkey : key r' = key r
      · simp [hkey]
      · simp [hkey, Ne.symm hkey]
  case isFalse => exact find?_insert

lemma mem_put {r' : ρ} (h : r' ∈ (t.put r).rows) : r' = r ∨ r' ∈ t.rows := by
  unfold put at h
  split at h
  case isTrue =>
    obtain ⟨r'', hr'', rfl⟩ := mem_map.mp h
    split
    · exact .inl rfl
    · exact .inr hr''
  case isFalse =>
    rcases mem_append.mp h with h | h
    · exact .inr h
    · exact .inl (mem_singleton.mp h)

lemma find?_filter : (t.filter p).find? k = (t.find? k).filter p := by
  ext r
  simp only [find?_eq_some_iff, Option.filter_eq_some_iff, filter, mem_filter]
  exact ⟨fun h => ⟨⟨h.1.1, h.2⟩, h.1.2⟩, fun h => ⟨⟨h.1.1, h.2⟩, h.1.2⟩⟩

lemma find?_update {k' : κ} :
    (t.update k' f hf).find? k = (t.find? k).map fun r => if k = k' then f r else r := by
  rw [update, find?_modify]
  cases h : t.find? k with
  | none => rfl
  | some r =>
    obtain ⟨-, rfl⟩ := find?_eq_some_iff.mp h
    rfl

lemma mem_update : r ∈ (t.update k f hf).rows ↔
    (r ∈ t.rows ∧ key r ≠ k) ∨ ∃ r' ∈ t.rows, key r' = k ∧ r = f r' := by
  simp only [update, modify, mem_map]
  constructor
  · rintro ⟨r', hr', rfl⟩
    split
    case isTrue hk => exact .inr ⟨r', hr', hk, rfl⟩
    case isFalse hk => exact .inl ⟨hr', hk⟩
  · rintro (⟨hr, hk⟩ | ⟨r', hr', hk, rfl⟩)
    · exact ⟨r, hr, if_neg hk⟩
    · exact ⟨r', hr', if_pos hk⟩

lemma filter_rows_update (hp : ∀ r ∈ t.rows, key r = k → p r = false ∧ p (f r) = false) :
    (t.update k f hf).rows.filter p = t.rows.filter p := by
  show (t.rows.map fun r => if key r = k then f r else r).filter p = t.rows.filter p
  rw [filter_map]
  have hfilter : t.rows.filter (p ∘ fun r => if key r = k then f r else r) = t.rows.filter p := by
    refine filter_congr fun r hr => ?_
    by_cases hk : key r = k
    · simp [hk, hp r hr hk]
    · simp [hk]
  rw [hfilter]
  refine (map_congr_left fun r hr => if_neg fun hk => ?_).trans (map_id _)
  obtain ⟨hr, hpr⟩ := mem_filter.mp hr
  exact absurd hpr (by simp [(hp r hr hk).1])

end Table
