import Mathlib

/-!
# Step machines and their runs

A step machine is a partial step function. Whatever a scheduler, a clock or a caller may choose is
part of the action, so a property of every interleaving is a property of every list of actions.
-/

namespace StepMachine

open Option

variable {σ α : Type*} (step : σ → α → Option σ)

/-- The state after the actions `as`, when each is enabled in its turn. -/
def run : σ → List α → Option σ
  | s, [] => some s
  | s, a :: as => (step s a).bind fun s' => run s' as

/-- The guard `G` allows every action of `as` in the state it is taken in. -/
def Along (G : σ → α → Prop) : σ → List α → Prop
  | _, [] => True
  | s, a :: as => G s a ∧ ∀ s' ∈ step s a, Along G s' as

instance decidableAlong (G : σ → α → Prop) [∀ s a, Decidable (G s a)] :
    ∀ s as, Decidable (Along step G s as)
  | _, [] => .isTrue trivial
  | s, a :: as =>
    have : ∀ s', Decidable (Along step G s' as) := fun s' => decidableAlong G s' as
    inferInstanceAs (Decidable (G s a ∧ ∀ s' ∈ step s a, Along step G s' as))

/-- `P` holds in every state of the run, from `s` to its last state. -/
def Always (P : σ → Prop) : σ → List α → Prop
  | s, [] => P s
  | s, a :: as => P s ∧ ∀ s' ∈ step s a, Always P s' as

variable {step}

@[simp] lemma run_nil (s : σ) : run step s [] = some s := rfl

lemma run_cons (s : σ) (a : α) (as : List α) :
    run step s (a :: as) = (step s a).bind fun s' => run step s' as := rfl

lemma run_append (s : σ) (as bs : List α) :
    run step s (as ++ bs) = (run step s as).bind fun s' => run step s' bs := by
  induction as generalizing s with
  | nil => rfl
  | cons a as ih =>
    rw [List.cons_append, run_cons, run_cons, bind_assoc]
    exact congrArg _ (funext fun s' => ih s')

variable {s s' : σ} {as : List α}

lemma run_snoc {a : α} :
    run step s (as ++ [a]) = some s' ↔ ∃ t, run step s as = some t ∧ step t a = some s' := by
  rw [run_append, bind_eq_some_iff]
  simp [run_cons]

/-! ## Evaluation

What a partial computation ends in can be evaluated, and then what another ends in from there.
-/

section

variable {β : Type*} {x : Option α} {P : α → Prop}

instance decidableExistsSome [DecidablePred P] : Decidable (∃ a, x = some a ∧ P a) :=
  decidable_of_iff (∃ a ∈ x, P a) Iff.rfl

instance decidableIsSome : Decidable (∃ a, x = some a) := decidable_of_iff x.isSome isSome_iff_exists

instance decidableExistsPair [DecidableEq α] {x : Option (α × β)} {a : α} {P : β → Prop}
    [DecidablePred P] : Decidable (∃ b, x = some (a, b) ∧ P b) :=
  decidable_of_iff (∃ y, x = some y ∧ y.1 = a ∧ P y.2) (by simp)

instance decidableIsPair [DecidableEq α] {x : Option (α × β)} {a : α} :
    Decidable (∃ b, x = some (a, b)) :=
  decidable_of_iff (∃ b, x = some (a, b) ∧ True) (by simp)

instance decidableExistsThen {Q : α → β → Prop} [Decidable (∃ a, P a ∧ ∃ b, Q a b)] :
    Decidable (∃ a b, P a ∧ Q a b) :=
  decidable_of_iff (∃ a, P a ∧ ∃ b, Q a b) (by simp)

instance decidableExistsThenTwo {γ : Type*} {Q : α → β → γ → Prop}
    [Decidable (∃ a, P a ∧ ∃ b c, Q a b c)] : Decidable (∃ a b c, P a ∧ Q a b c) :=
  decidable_of_iff (∃ a, P a ∧ ∃ b c, Q a b c) (by simp)

instance decidableExistsAnd {p : Prop} [Decidable p] [Decidable (∃ a, P a)] :
    Decidable (∃ a, p ∧ P a) :=
  decidable_of_iff (p ∧ ∃ a, P a) (by simp)

end

section

variable {P Q : σ → Prop} (h : ∃ s', run step s as = some s' ∧ P s')
  (hQ : ∀ s', run step s as = some s' → P s' → Q s')
include h hQ

/-- What evaluating a run shows about its end can be used to prove more about it. -/
lemma exists_of_run_imp : ∃ s', run step s as = some s' ∧ Q s' := by
  obtain ⟨s', hrun, hP⟩ := h
  exact ⟨s', hrun, hQ s' hrun hP⟩

lemma exists_of_run_and : ∃ s', run step s as = some s' ∧ P s' ∧ Q s' :=
  exists_of_run_imp h fun s' hrun hP => ⟨hP, hQ s' hrun hP⟩

end

/-- What every step keeps, every run keeps. -/
lemma invariant_of_run {I : σ → Prop} (hstep : ∀ s a s', I s → step s a = some s' → I s')
    (hs : I s) (h : run step s as = some s') : I s' := by
  induction as generalizing s with
  | nil =>
    obtain rfl : s = s' := some.inj h
    exact hs
  | cons a as ih =>
    obtain ⟨t, ht, h⟩ := bind_eq_some_iff.mp h
    exact ih (hstep s a t hs ht) h

variable {G : σ → α → Prop}

/-- What every guarded step keeps, every guarded run keeps. -/
lemma invariant_of_along {I : σ → Prop} (hstep : ∀ s a s', I s → G s a → step s a = some s' → I s')
    (hs : I s) (hG : Along step G s as) (h : run step s as = some s') : I s' := by
  induction as generalizing s with
  | nil =>
    obtain rfl : s = s' := some.inj h
    exact hs
  | cons a as ih =>
    obtain ⟨t, ht, h⟩ := bind_eq_some_iff.mp h
    exact ih (hstep s a t hs hG.1 ht) (hG.2 t ht) h

lemma along_snoc {a : α} :
    Along step G s (as ++ [a]) ↔ Along step G s as ∧ ∀ t, run step s as = some t → G t a := by
  induction as generalizing s with
  | nil => simp [Along]
  | cons b as ih =>
    have hrest : (∀ t ∈ step s b, Along step G t (as ++ [a])) ↔
        (∀ t ∈ step s b, Along step G t as) ∧ ∀ t, run step s (b :: as) = some t → G t a := by
      simp only [ih, run_cons, bind_eq_some_iff]
      exact ⟨fun h => ⟨fun t ht => (h t ht).1, fun t ⟨u, hu, hrun⟩ => (h u hu).2 t hrun⟩,
        fun h u hu => ⟨h.1 u hu, fun t hrun => h.2 t ⟨u, hu, hrun⟩⟩⟩
    rw [List.cons_append, Along, hrest, Along, and_assoc]

/-- Guards that agree on every step of a run from a state of the invariant allow the same runs. -/
lemma along_congr_of_invariant {I : σ → Prop} {G' : σ → α → Prop}
    (hI : ∀ s a s', I s → step s a = some s' → I s')
    (hG : ∀ s a s', I s → step s a = some s' → (G s a ↔ G' s a)) (hs : I s)
    (h : run step s as = some s') : Along step G s as ↔ Along step G' s as := by
  induction as generalizing s with
  | nil => rfl
  | cons a as ih =>
    obtain ⟨t, ht, h⟩ := bind_eq_some_iff.mp h
    simp only [Along, ht, mem_some_iff, forall_eq', hG s a t hs ht, ih (hI s a t hs ht) h]

lemma along_congr {G' : σ → α → Prop} (hG : ∀ s a s', step s a = some s' → (G s a ↔ G' s a))
    (h : run step s as = some s') : Along step G s as ↔ Along step G' s as :=
  along_congr_of_invariant (I := fun _ => True) (fun _ _ _ _ _ => trivial)
    (fun s a s' _ => hG s a s') trivial h

/-- A property that each step keeps exactly when the guard allows it holds at the end of a run
exactly when the guard allowed every step. -/
lemma along_iff_of_run {I P : σ → Prop} (hI : ∀ s a s', I s → step s a = some s' → I s')
    (hstep : ∀ s a s', I s → step s a = some s' → (P s' ↔ P s ∧ G s a)) (hs : I s)
    (h : run step s as = some s') : P s' ↔ P s ∧ Along step G s as := by
  induction as generalizing s with
  | nil =>
    obtain rfl : s = s' := some.inj h
    simp [Along]
  | cons a as ih =>
    obtain ⟨t, ht, h⟩ := bind_eq_some_iff.mp h
    rw [ih (hI s a t hs ht) h, hstep s a t hs ht]
    simp [Along, ht, and_assoc]

lemma Always.head {P : σ → Prop} : ∀ {s} {as}, Always step P s as → P s
  | _, [], h => h
  | _, _ :: _, h => h.1

/-- A property that a step keeps exactly when the guard allows it holds all along a run exactly when
the guard allowed every step, even if it may come back. The invariant `I` may say more than the
property. -/
lemma always_iff_along {I P : σ → Prop} (hP : ∀ s, I s → P s)
    (hI : ∀ s a s', I s → G s a → step s a = some s' → I s')
    (hG : ∀ s a s', I s → step s a = some s' → P s' → G s a) (hs : I s)
    (h : run step s as = some s') : Always step P s as ↔ Along step G s as := by
  induction as generalizing s with
  | nil => simp [Always, Along, hP s hs]
  | cons a as ih =>
    obtain ⟨t, ht, h⟩ := bind_eq_some_iff.mp h
    simp only [Always, Along, ht, mem_some_iff, forall_eq', hP s hs, true_and]
    constructor
    · intro hal
      have hGa : G s a := hG s a t hs ht hal.head
      exact ⟨hGa, (ih (hI s a t hs hGa ht) h).mp hal⟩
    · rintro ⟨hGa, hal⟩
      exact (ih (hI s a t hs hGa ht) h).mpr hal

/-- A relation between the actions so far and the state, kept by every step, holds after every
run. -/
lemma history_of_run {I : List α → σ → Prop} {s0 : σ} (h0 : I [] s0)
    (hstep : ∀ as s a s', I as s → step s a = some s' → I (as ++ [a]) s')
    (h : run step s0 as = some s) : I as s := by
  induction as using List.reverseRecOn generalizing s with
  | nil =>
    obtain rfl : s0 = s := some.inj h
    exact h0
  | append_singleton as a ih =>
    obtain ⟨t, ht, hs⟩ := run_snoc.mp h
    exact hstep as t a s (ih ht) hs

end StepMachine
