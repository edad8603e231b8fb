import Mathlib

/-!
# Lists in dependency order

A list is in dependency order when everything an element depends on stands before it.
-/

namespace DependencyOrder

open List

variable {V : Type*} {deps : V → List V} {l : List V} {x y : V}

/-- The dependencies of every element of the list stand before it. -/
def Ordered (deps : V → List V) (l : List V) : Prop :=
  ∀ l1 x l2, l = l1 ++ x :: l2 → ∀ d ∈ deps x, d ∈ l1

/-- `a` stands before `b`. -/
def Precedes (l : List V) (a b : V) : Prop := [a, b].Sublist l

lemma Ordered.nil : Ordered deps [] := by
  intro l1 x l2 h
  simp at h

lemma Ordered.snoc (h : Ordered deps l) (hx : ∀ d ∈ deps x, d ∈ l) : Ordered deps (l ++ [x]) := by
  intro l1 y l2 heq d hd
  rcases eq_nil_or_concat l2 with rfl | ⟨l2, z, rfl⟩
  · obtain ⟨rfl, rfl⟩ : l = l1 ∧ x = y := by
      have := append_inj' heq rfl
      simpa using this
    exact hx d hd
  · rw [concat_eq_append, ← cons_append, ← append_assoc] at heq
    exact h l1 y l2 (append_inj_left' heq rfl) d hd

lemma Ordered.mem (h : Ordered deps l) (hx : x ∈ l) {d : V} (hd : d ∈ deps x) : d ∈ l := by
  obtain ⟨l1, l2, rfl⟩ := append_of_mem hx
  exact mem_append_left _ (h l1 x l2 rfl d hd)

lemma Ordered.precedes (h : Ordered deps l) (hx : x ∈ l) {d : V} (hd : d ∈ deps x) :
    Precedes l d x := by
  obtain ⟨l1, l2, rfl⟩ := append_of_mem hx
  have hl1 : [d].Sublist l1 := singleton_sublist.mpr (h l1 x l2 rfl d hd)
  exact hl1.append ((nil_sublist l2).cons_cons x)

lemma Precedes.reverse (h : Precedes l x y) : Precedes l.reverse y x := by
  simpa [Precedes] using List.Sublist.reverse h

/-- Dependency lists that agree on the elements order them alike. -/
lemma Ordered.congr {deps' : V → List V} (h : Ordered deps l)
    (hdeps : ∀ x ∈ l, deps' x = deps x) : Ordered deps' l := by
  intro l1 x l2 heq d hd
  rw [hdeps x (by simp [heq])] at hd
  exact h l1 x l2 heq d hd

section

variable [DecidableEq V]

lemma Ordered.idxOf_lt (h : Ordered deps l) (hx : x ∈ l) {d : V} (hd : d ∈ deps x) :
    l.idxOf d < l.idxOf x := by
  obtain ⟨l1, l2, rfl, hx1⟩ := eq_append_cons_of_mem hx
  have hd1 := h l1 x l2 rfl d hd
  rw [idxOf_append_of_mem hd1, idxOf_append_of_notMem hx1]
  exact Nat.lt_of_lt_of_le (idxOf_lt_length_of_mem hd1) (Nat.le_add_right _ _)

lemma Ordered.idxOf_lt_of_transGen (h : Ordered deps l) (hx : x ∈ l)
    (hxy : Relation.TransGen (fun a b => b ∈ deps a) x y) : y ∈ l ∧ l.idxOf y < l.idxOf x := by
  induction hxy with
  | single hd => exact ⟨h.mem hx hd, h.idxOf_lt hx hd⟩
  | tail _ hd ih => exact ⟨h.mem ih.1 hd, Nat.lt_trans (h.idxOf_lt ih.1 hd) ih.2⟩

lemma Ordered.not_transGen (h : Ordered deps l) (hx : x ∈ l) :
    ¬ Relation.TransGen (fun a b => b ∈ deps a) x x := fun hxx =>
  Nat.lt_irrefl _ (h.idxOf_lt_of_transGen hx hxx).2

end

end DependencyOrder
