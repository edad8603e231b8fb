import Mathlib

/-!
# The first match in a sorted list

A linear scan over a list sorted by a descending key finds a matching element of the greatest key.
-/

namespace FirstMatch

open List

variable {α κ : Type*} [LinearOrder κ] {key : α → κ} {p : α → Bool} {l l' : List α} {a b : α}

def Descending (key : α → κ) (l : List α) : Prop := l.Pairwise fun x y => key y ≤ key x

structure Best (key : α → κ) (p : α → Bool) (l : List α) (a : α) : Prop where
  mem : a ∈ l
  isMatch : p a = true
  le : ∀ b ∈ l, p b = true → key b ≤ key a

lemma Best.perm (h : Best key p l a) (hl : l.Perm l') : Best key p l' a where
  mem := hl.mem_iff.mp h.mem
  isMatch := h.isMatch
  le := fun b hb => h.le b (hl.mem_iff.mpr hb)

variable (hl : Descending key l)
include hl

lemma best_of_find? (h : l.find? p = some a) : Best key p l a := by
  refine ⟨mem_of_find?_eq_some h, find?_some h, fun b hb hpb => ?_⟩
  obtain ⟨-, l1, l2, rfl, hl1⟩ := find?_eq_some_iff_append.mp h
  rcases mem_append.mp hb with hb | hb
  · have hne := hl1 b hb
    rw [hpb] at hne
    cases hne
  · have htail := (pairwise_append.mp hl).2.1
    rcases mem_cons.mp hb with rfl | hb
    · exact le_refl _
    · exact rel_of_pairwise_cons htail hb

omit hl in
lemma Best.exists_find? (h : Best key p l a) : ∃ b, l.find? p = some b := by
  cases hfind : l.find? p with
  | none => exact absurd h.isMatch (find?_eq_none.mp hfind a h.mem)
  | some b => exact ⟨b, rfl⟩

lemma find?_eq_of_unique (ha : Best key p l a)
    (huniq : ∀ b, Best key p l b → b = a) : l.find? p = some a := by
  obtain ⟨b, hb⟩ := ha.exists_find?
  rw [hb, huniq b (best_of_find? hl hb)]

lemma exists_find?_of_best [DecidableEq α] (ha : Best key p l a) :
    ∃ l', l'.Perm l ∧ Descending key l' ∧ l'.find? p = some a := by
  let before := (l.erase a).filter fun x => key a < key x
  let after := (l.erase a).filter fun x => !decide (key a < key x)
  have hbefore : ∀ x ∈ before, key a < key x := fun x hx => by
    simpa using (mem_filter.mp hx).2
  have hafter : ∀ x ∈ after, key x ≤ key a := fun x hx => by
    simpa using (mem_filter.mp hx).2
  have hsub : Descending key (l.erase a) := List.Pairwise.sublist erase_sublist hl
  refine ⟨before ++ a :: after, ?_, ?_, ?_⟩
  · have hperm : (before ++ after).Perm (l.erase a) := filter_append_perm _ _
    exact perm_middle.trans ((hperm.cons a).trans (perm_cons_erase ha.mem).symm)
  · refine pairwise_append.mpr ⟨hsub.filter _, pairwise_cons.mpr
      ⟨hafter, hsub.filter _⟩, fun x hx => ?_⟩
    have hlt := hbefore x hx
    exact forall_mem_cons.mpr ⟨hlt.le, fun y hy => (hafter y hy).trans hlt.le⟩
  · have hnone : before.find? p = none := by
      refine find?_eq_none.mpr fun x hx hpx => ?_
      have hmem : x ∈ l := mem_of_mem_erase (mem_of_mem_filter hx)
      exact absurd (ha.le x hmem hpx) (not_le.mpr (hbefore x hx))
    rw [find?_append, hnone, Option.none_or, find?_cons_of_pos ha.isMatch]

/-- The order of equal keys is irrelevant exactly when the best match is unique. -/
lemma find?_eq_iff [DecidableEq α] :
    (∀ l', l'.Perm l → Descending key l' → l'.find? p = l.find? p) ↔
      ∀ a b, Best key p l a → Best key p l b → a = b := by
  constructor
  · intro h a b ha hb
    obtain ⟨la, hla, hda, hfa⟩ := exists_find?_of_best hl ha
    obtain ⟨lb, hlb, hdb, hfb⟩ := exists_find?_of_best hl hb
    rw [h la hla hda] at hfa
    rw [h lb hlb hdb, hfa] at hfb
    exact Option.some.inj hfb
  · intro huniq l' hperm hl'
    cases hfind : l.find? p with
    | some a =>
      have ha := best_of_find? hl hfind
      exact find?_eq_of_unique hl' (ha.perm hperm.symm) fun b hb =>
        huniq b a (hb.perm hperm) ha
    | none =>
      rw [find?_eq_none] at hfind ⊢
      exact fun x hx => hfind x (hperm.mem_iff.mp hx)

end FirstMatch
