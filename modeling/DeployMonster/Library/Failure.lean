/-!
# Computations that may fail

What the success or the failure of a sequence says of its parts.
-/

namespace Failure

variable {ε α β : Type} {x : Except ε α} {f : α → Except ε β}

theorem bind_eq_ok {b : β} : x >>= f = .ok b ↔ ∃ a, x = .ok a ∧ f a = .ok b := by
  cases x <;> simp [bind, Except.bind]

theorem bind_eq_error {err : ε} :
    x >>= f = .error err ↔ x = .error err ∨ ∃ a, x = .ok a ∧ f a = .error err := by
  cases x <;> simp [bind, Except.bind]

theorem ite_error_eq_ok {c : Prop} [Decidable c] {err : ε} {a : α} :
    (if c then .error err else x) = .ok a ↔ ¬c ∧ x = .ok a := by
  by_cases hc : c <;> simp [hc]

theorem forall_of_forM {xs : List α} {check : α → Except ε Unit} (h : xs.forM check = .ok ()) :
    ∀ x ∈ xs, check x = .ok () := by
  induction xs with
  | nil => exact fun _ hx => absurd hx List.not_mem_nil
  | cons x xs ih =>
    have hbind : (check x >>= fun _ => xs.forM check) = .ok () := h
    obtain ⟨⟨⟩, hx, hxs⟩ := bind_eq_ok.mp hbind
    exact List.forall_mem_cons.mpr ⟨hx, ih hxs⟩

end Failure
