import Mathlib

/-!
# Smooth weighted round-robin

In each round every candidate is credited with its weight; the candidate with the greatest credit is
picked and pays the total of all weights.
-/

namespace SmoothRoundRobin

open List

variable {ι : Type*} [DecidableEq ι] {w : ι → ℤ} {s : Finset ι} {picks : List ι} {i : ι}

def total (w : ι → ℤ) (s : Finset ι) : ℤ := ∑ i ∈ s, w i

/-- The credits after the given picks. -/
def credit (w : ι → ℤ) (s : Finset ι) (picks : List ι) (i : ι) : ℤ :=
  picks.length * w i - total w s * picks.count i

/-- Each pick has a positive weight and the greatest credit, its weight added, of the candidates of
positive weight. -/
inductive Greedy (w : ι → ℤ) (s : Finset ι) : List ι → Prop
  | nil : Greedy w s []
  | snoc {picks : List ι} {i : ι} : Greedy w s picks → i ∈ s → 0 < w i →
      (∀ j ∈ s, 0 < w j → credit w s picks j + w j ≤ credit w s picks i + w i) →
      Greedy w s (picks ++ [i])

@[simp] lemma credit_nil (w : ι → ℤ) (s : Finset ι) (i : ι) : credit w s [] i = 0 := by
  simp [credit]

/-- One round: everyone is credited, and the pick pays. -/
lemma credit_snoc (w : ι → ℤ) (s : Finset ι) (picks : List ι) (i j : ι) :
    credit w s (picks ++ [i]) j =
      credit w s picks j + w j - if i = j then total w s else 0 := by
  unfold credit
  rw [length_append, count_append, count_singleton, length_singleton]
  by_cases hij : i = j
  · simp [hij]
    ring
  · simp [hij]
    ring

lemma Greedy.mem (h : Greedy w s picks) (hi : i ∈ picks) : i ∈ s ∧ 0 < w i := by
  induction h with
  | nil => simp at hi
  | snoc _ hs hpos _ ih =>
    rcases mem_append.mp hi with hi | hi
    · exact ih hi
    · obtain rfl := mem_singleton.mp hi
      exact ⟨hs, hpos⟩

/-- The pick pays what the others are credited with. -/
lemma Greedy.sum_credit (h : Greedy w s picks) : ∑ i ∈ s, credit w s picks i = 0 := by
  induction h with
  | nil => simp
  | @snoc picks i h hs _ _ ih =>
    simp only [credit_snoc]
    rw [Finset.sum_sub_distrib, Finset.sum_add_distrib, ih, Finset.sum_ite_eq, if_pos hs, total]
    ring

lemma Greedy.credit_of_weight_zero (h : Greedy w s picks) (hi : w i = 0) :
    credit w s picks i = 0 := by
  have hcount : picks.count i = 0 := by
    refine count_eq_zero.mpr fun hmem => ?_
    have hpos := (h.mem hmem).2
    omega
  simp [credit, hi, hcount]

section

variable (hw : ∀ i ∈ s, 0 ≤ w i)
include hw

variable (h : Greedy w s picks)
include h

variable (htotal : 0 < total w s)
include htotal

/-- The greatest credit of a round is positive: the credits of the round sum to the total. -/
lemma Greedy.pick_pos
    (hmax : ∀ j ∈ s, 0 < w j → credit w s picks j + w j ≤ credit w s picks i + w i) :
    0 < credit w s picks i + w i := by
  by_contra hle
  have hsum : ∑ j ∈ s, (credit w s picks j + w j) ≤ 0 := by
    refine Finset.sum_nonpos fun j hj => ?_
    rcases (hw j hj).eq_or_lt with hzero | hpos
    · rw [h.credit_of_weight_zero hzero.symm, ← hzero, add_zero]
    · exact le_trans (hmax j hj hpos) (not_lt.mp hle)
  rw [Finset.sum_add_distrib, h.sum_credit, zero_add] at hsum
  exact absurd htotal (not_lt.mpr hsum)

lemma Greedy.neg_total_lt_credit (hi : i ∈ s) :
    -total w s < credit w s picks i := by
  induction h generalizing i with
  | nil => simpa using htotal
  | @snoc picks j h hj _ hmax ih =>
    rw [credit_snoc]
    split_ifs with hij
    · subst hij
      have hpos := h.pick_pos hw htotal hmax
      linarith
    · have hge := ih hi
      have hwi := hw i hi
      linarith

/-- A credit is bounded by what all the others can owe. -/
lemma Greedy.credit_add_le (hi : i ∈ s) :
    credit w s picks i + w i ≤ s.card * total w s := by
  have hsum := h.sum_credit
  rw [← Finset.add_sum_erase s _ hi] at hsum
  have hothers : ∑ _j ∈ s.erase i, -total w s ≤ ∑ j ∈ s.erase i, credit w s picks j :=
    Finset.sum_le_sum fun j hj => (h.neg_total_lt_credit hw htotal (Finset.mem_of_mem_erase hj)).le
  rw [Finset.sum_const, Finset.card_erase_of_mem hi, nsmul_eq_mul] at hothers
  have hwi : w i ≤ total w s := Finset.single_le_sum hw hi
  have hcard : ((s.card - 1 : ℕ) : ℤ) = s.card - 1 := by
    have := Finset.card_pos.mpr ⟨i, hi⟩
    omega
  rw [hcard] at hothers
  linarith

lemma Greedy.credit_eq_zero {m : ℕ}
    (hlen : (picks.length : ℤ) = m * total w s) (hi : i ∈ s) : credit w s picks i = 0 := by
  have hnonneg : ∀ j ∈ s, 0 ≤ credit w s picks j := by
    intro j hj
    have hmul : credit w s picks j = total w s * (m * w j - picks.count j) := by
      rw [credit, hlen]
      ring
    have hlt := h.neg_total_lt_credit hw htotal hj
    rw [hmul] at hlt ⊢
    refine mul_nonneg htotal.le ?_
    by_contra hneg
    have hle : m * w j - picks.count j ≤ -1 := by omega
    nlinarith
  exact (Finset.sum_eq_zero_iff_of_nonneg hnonneg).mp h.sum_credit i hi

/-- In whole cycles each candidate is picked as often as its weight says. -/
lemma Greedy.count_eq {m : ℕ}
    (hlen : (picks.length : ℤ) = m * total w s) (hi : i ∈ s) : (picks.count i : ℤ) = m * w i := by
  have hzero := h.credit_eq_zero hw htotal hlen hi
  rw [credit, hlen] at hzero
  have hmul : total w s * (m * w i - picks.count i) = 0 := by linarith
  rcases mul_eq_zero.mp hmul with htot | hdiff
  · exact absurd htot htotal.ne'
  · linarith

end

end SmoothRoundRobin
