import DeployMonster.Library.LastWrite
import DeployMonster.Library.Table

/-!
# Dictionaries

Keys with values, in an order that nothing depends on.
-/

/-- Keys with values. -/
abbrev Dict (κ ν : Type) := Table (Prod.fst : κ × ν → κ)

namespace Dict

open LastWrite List Option Table

variable {κ ν : Type} [DecidableEq κ]

def get? (d : Dict κ ν) (k : κ) : Option ν := (d.find? k).map Prod.snd

def set (d : Dict κ ν) (k : κ) (v : ν) : Dict κ ν := d.put (k, v)

/-- The assignments, in turn. -/
def setAll (d : Dict κ ν) (entries : List (κ × ν)) : Dict κ ν :=
  entries.foldl (fun d e => d.set e.1 e.2) d

variable {d : Dict κ ν} {k : κ} {v : ν}

lemma get?_eq_some_iff : d.get? k = some v ↔ (k, v) ∈ d.rows := by
  rw [get?, map_eq_some_iff]
  constructor
  · rintro ⟨⟨k', v'⟩, hfind, rfl⟩
    obtain ⟨hmem, rfl⟩ := find?_eq_some_iff.mp hfind
    exact hmem
  · exact fun hmem => ⟨(k, v), find?_eq_some_iff.mpr ⟨hmem, rfl⟩, rfl⟩

lemma get?_set (d : Dict κ ν) (k k' : κ) (v : ν) :
    (d.set k v).get? k' = if k = k' then some v else d.get? k' := by
  rw [get?, set, find?_put]
  split <;> rfl

/-- **The last assignment to a key is the one that counts.** -/
theorem get?_setAll (d : Dict κ ν) (entries : List (κ × ν)) (k : κ) : (d.setAll entries).get? k =
      (lastWrite (fun e => if e.1 = k then some e.2 else none) entries).or (d.get? k) := by
  induction entries generalizing d with
  | nil => rfl
  | cons e entries ih =>
    show (setAll (d.set e.1 e.2) entries).get? k = _
    rw [ih, get?_set, lastWrite_cons, Option.or_assoc]
    split <;> rfl

lemma setAll_append (d : Dict κ ν) (entries entries' : List (κ × ν)) :
    d.setAll (entries ++ entries') = (d.setAll entries).setAll entries' :=
  foldl_append

variable {entries : List (κ × ν)}

lemma get?_setAll_of_ne (d : Dict κ ν) (hne : ∀ e ∈ entries, e.1 ≠ k) :
    (d.setAll entries).get? k = d.get? k := by
  have hnone : lastWrite (fun e => if e.1 = k then some e.2 else none) entries = none := by
    refine eq_none_iff_forall_ne_some.mpr fun v hv => ?_
    obtain ⟨e, he, hwrite⟩ := exists_of_lastWrite hv
    rw [if_neg (hne e he)] at hwrite
    cases hwrite
  rw [get?_setAll, hnone, none_or]

lemma exists_get?_setAll (d : Dict κ ν) (hmem : k ∈ entries.map Prod.fst) :
    ∃ e ∈ entries, e.1 = k ∧ (d.setAll entries).get? k = some e.2 := by
  rw [get?_setAll]
  cases hlast : lastWrite (fun e => if e.1 = k then some e.2 else none) entries with
  | none =>
    obtain ⟨e, he, hkey⟩ := mem_map.mp hmem
    have hnil := filterMap_eq_nil_iff.mp (getLast?_eq_none_iff.mp hlast) e he
    rw [if_pos hkey] at hnil
    cases hnil
  | some v =>
    obtain ⟨e, he, hwrite⟩ := exists_of_lastWrite hlast
    obtain ⟨hkey, hv⟩ := ite_none_right_eq_some.mp hwrite
    exact ⟨e, he, hkey, hv.symm⟩

lemma get?_setAll_of_mem (d : Dict κ ν) (hmem : (k, v) ∈ entries)
    (hval : ∀ e ∈ entries, e.1 = k → e.2 = v) : (d.setAll entries).get? k = some v := by
  obtain ⟨e, he, hkey, hget⟩ := d.exists_get?_setAll (mem_map_of_mem (f := Prod.fst) hmem)
  rw [hget, hval e he hkey]

lemma get?_setAll_of_nodup (d : Dict κ ν) (hnodup : (entries.map Prod.fst).Nodup)
    (hmem : (k, v) ∈ entries) : (d.setAll entries).get? k = some v := by
  refine d.get?_setAll_of_mem hmem fun e he hkey => ?_
  rw [inj_on_of_nodup_map hnodup he hmem hkey]

lemma get?_setAll_rows (d d' : Dict κ ν) (k : κ) :
    (d.setAll d'.rows).get? k = (d'.get? k).or (d.get? k) := by
  cases hget : d'.get? k with
  | some v => exact d.get?_setAll_of_nodup d'.nodup (get?_eq_some_iff.mp hget)
  | none =>
    refine d.get?_setAll_of_ne fun e he hkey => ?_
    have hsome := get?_eq_some_iff.mpr he
    rw [hkey, hget] at hsome
    cases hsome

lemma get?_empty (k : κ) : Dict.get? (.empty : Dict κ ν) k = none := rfl

lemma mem_keys_setAll_empty :
    k ∈ (setAll .empty entries).rows.map Prod.fst ↔ k ∈ entries.map Prod.fst := by
  constructor
  · intro hmem
    obtain ⟨e, he, rfl⟩ := mem_map.mp hmem
    by_contra hnone
    have hget := get?_setAll_of_ne (k := e.1) .empty fun e' he' hkey =>
      hnone (hkey ▸ mem_map_of_mem (f := Prod.fst) he')
    rw [get?_eq_some_iff.mpr he, get?_empty] at hget
    cases hget
  · intro hmem
    obtain ⟨e, -, -, hget⟩ := exists_get?_setAll .empty hmem
    exact mem_map_of_mem (f := Prod.fst) (get?_eq_some_iff.mp hget)

/-- **Every key that is assigned has one row.** -/
theorem length_setAll_empty (entries : List (κ × ν)) :
    (setAll .empty entries).rows.length = (entries.map Prod.fst).toFinset.card := by
  have hkeys : ((setAll .empty entries).rows.map Prod.fst).toFinset =
      (entries.map Prod.fst).toFinset := by
    ext k
    rw [List.mem_toFinset, List.mem_toFinset, mem_keys_setAll_empty]
  rw [← hkeys, toFinset_card_of_nodup (setAll .empty entries).nodup, length_map]

lemma length_setAll_empty_iff (entries : List (κ × ν)) :
    (setAll .empty entries).rows.length = entries.length ↔ (entries.map Prod.fst).Nodup := by
  rw [length_setAll_empty, ← length_map (f := Prod.fst)]
  exact Multiset.toFinset_card_eq_card_iff_nodup (m := (entries.map Prod.fst : Multiset κ))

lemma find?_setAll_empty_eq_iff {k' : κ} (hk : k ∈ entries.map Prod.fst) :
    (setAll .empty entries).find? k = (setAll .empty entries).find? k' ↔ k = k' := by
  constructor
  · intro heq
    obtain ⟨e, he, hkey⟩ := mem_map.mp (mem_keys_setAll_empty.mpr hk)
    have hfind := find?_eq_some_iff.mpr ⟨he, hkey⟩
    rw [heq] at hfind
    exact hkey.symm.trans (find?_eq_some_iff.mp hfind).2
  · rintro rfl
    rfl

end Dict
