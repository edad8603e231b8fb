import DeployMonster.Library.Table

/-!
# Loops that stop when they are canceled

A loop over rows asks before each of them whether it was canceled, and stops for good when it was.
The checks are numbered; those from a certain one on find the cancellation.
-/

namespace CancelableLoop

open List

variable {α β κ : Type}

/-- The check `i` comes before the cancellation. -/
def passes (stop : Option ℕ) (i : ℕ) : Bool := stop.all (i < ·)

variable {i : ℕ}

lemma passes_of_le {stop : Option ℕ} {j : ℕ} (hij : i ≤ j) (hj : passes stop j = true) :
    passes stop i = true := by
  cases stop with
  | none => rfl
  | some c =>
    simp only [passes, Option.all_some, decide_eq_true_eq] at hj ⊢
    omega

def loop (stop : Option ℕ) (body : α → List β) : ℕ → List α → List β × Bool
  | _, [] => ([], true)
  | i, x :: xs =>
    if passes stop i then
      let rest := loop stop body (i + 1) xs
      (body x ++ rest.1, rest.2)
    else ([], false)

variable {stop : Option ℕ} {body : α → List β}

lemma loop_completed {xs : List α} (h : passes stop (i + xs.length) = true) :
    (loop stop body i xs).2 = true := by
  induction xs generalizing i with
  | nil => rfl
  | cons x xs ih =>
    rw [length_cons] at h
    rw [loop, if_pos (passes_of_le (by omega) h)]
    exact ih (by rwa [show i + 1 + xs.length = i + (xs.length + 1) by omega])

section

variable {key : α → κ} {k : κ} {f : β → ℕ}

lemma sum_loop_of_not_mem {xs : List α}
    (hother : ∀ x, key x ≠ k → ((body x).map f).sum = 0) (hk : k ∉ xs.map key) :
    (((loop stop body i xs).1).map f).sum = 0 := by
  induction xs generalizing i with
  | nil => rfl
  | cons x xs ih =>
    rw [map_cons, mem_cons, not_or] at hk
    rw [loop]
    split
    · rw [map_append, sum_append, hother x (Ne.symm hk.1), ih hk.2]
    · rfl

variable [DecidableEq κ]

/-- **What the loop puts out for a key** is what the turn of its row puts out, when the check before
it passes. -/
theorem sum_loop (stop : Option ℕ) (i : ℕ) (t : Table key) (f : β → ℕ)
    (hother : ∀ x, key x ≠ k → ((body x).map f).sum = 0) :
    (((loop stop body i t.rows).1).map f).sum =
      if passes stop (i + (t.rows.map key).idxOf k) then
        ((t.find? k).map fun x => ((body x).map f).sum).getD 0
      else 0 := by
  obtain ⟨xs, hnodup⟩ := t
  dsimp only [Table.find?]
  induction xs generalizing i with
  | nil => simp [loop]
  | cons x xs ih =>
    rw [map_cons, nodup_cons] at hnodup
    by_cases hx : key x = k
    · subst hx
      rw [map_cons, idxOf_cons_self, Nat.add_zero, find?_cons_of_pos (by simp), loop]
      by_cases hi : passes stop i = true
      · rw [if_pos hi, if_pos hi, map_append, sum_append, sum_loop_of_not_mem hother hnodup.1]
        rfl
      · rw [if_neg hi, if_neg hi]
        rfl
    · rw [map_cons, idxOf_cons_ne _ hx, find?_cons_of_neg (by simpa using hx), loop]
      by_cases hi : passes stop i = true
      · rw [if_pos hi, map_append, sum_append, hother x hx, Nat.zero_add,
          ih (i := i + 1) hnodup.2, Nat.add_assoc, Nat.add_comm 1]
      · rw [if_neg hi, if_neg fun hpass => hi (passes_of_le (Nat.le_add_right _ _) hpass)]
        rfl

end

end CancelableLoop
