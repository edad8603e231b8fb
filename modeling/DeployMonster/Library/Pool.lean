import Mathlib

/-!
# Pools of threads

A pool is the list of the threads started so far; a thread is named by its position. The lemmas say
how the total of a quantity each thread contributes changes with a step.
-/

namespace Pool

open List Option Bool

variable {τ : Type*} (f : τ → ℕ)

/-- The total of what the threads of a pool contribute. -/
def total (pool : List τ) : ℕ := (pool.map f).sum

@[simp] lemma total_nil : total f [] = 0 := rfl

@[simp] lemma total_cons (c : τ) (pool : List τ) : total f (c :: pool) = f c + total f pool := by
  simp [total]

@[simp] lemma total_append (pool pool' : List τ) :
    total f (pool ++ pool') = total f pool + total f pool' := by
  simp [total]

variable {pool : List τ} {i : ℕ} {c : τ}

lemma sum_set (h : pool[i]? = some c) (c' : τ) :
    total f (pool.set i c') + f c = total f pool + f c' := by
  induction pool generalizing i with
  | nil => simp at h
  | cons d pool ih =>
    cases i with
    | zero =>
      obtain rfl : d = c := by simpa using h
      simp only [set_cons_zero, total_cons]
      omega
    | succ i =>
      have := ih (i := i) (by simpa using h)
      simp only [set_cons_succ, total_cons]
      omega

variable {p : τ → Bool}

lemma countP_set (h : pool[i]? = some c) (hc : p c = false) (c' : τ) :
    (pool.set i c').countP p = pool.countP p + if p c' then 1 else 0 := by
  obtain ⟨hi, hget⟩ := List.getElem?_eq_some_iff.mp h
  rw [List.countP_set hi, hget, hc]
  rfl

variable {c' : τ}

lemma forall_set {P : τ → Prop} (h : ∀ c ∈ pool, P c) (h' : P c') : ∀ c ∈ pool.set i c', P c := by
  intro c hc
  rcases mem_or_eq_of_mem_set hc with hc | rfl
  · exact h c hc
  · exact h'

lemma forall_snoc {P : τ → Prop} (h : ∀ c ∈ pool, P c) (h' : P c') : ∀ c ∈ pool ++ [c'], P c :=
  forall_mem_append.mpr ⟨h, forall_mem_singleton.mpr h'⟩

lemma getElem?_set {j : ℕ} (h : (pool.set i c')[j]? = some c) :
    j = i ∧ c = c' ∨ j ≠ i ∧ pool[j]? = some c := by
  rcases eq_or_ne j i with rfl | hne
  · rw [getElem?_set_self'] at h
    obtain ⟨_, _, rfl⟩ := map_eq_some_iff.mp h
    exact .inl ⟨rfl, rfl⟩
  · exact .inr ⟨hne, getElem?_set_ne hne.symm ▸ h⟩

lemma getElem?_set_of_ne {j : ℕ} (hne : j ≠ i) (c' : τ) (h : pool[j]? = some c) :
    (pool.set i c')[j]? = some c := by
  rwa [getElem?_set_ne hne.symm]

lemma getElem?_set_self (h : pool[i]? = some c) (c' : τ) : (pool.set i c')[i]? = some c' := by
  rw [getElem?_set_self', h]
  rfl

lemma set_self (h : pool[i]? = some c) : pool.set i c = pool := by
  obtain ⟨hlt, rfl⟩ := List.getElem?_eq_some_iff.mp h
  exact set_getElem_self hlt

lemma mem_set_of_ne {d : τ} (h : pool[i]? = some d) (hc : c ∈ pool) (hne : c ≠ d)
    (c' : τ) : c ∈ pool.set i c' := by
  obtain ⟨j, hj⟩ := getElem?_of_mem hc
  have hji : j ≠ i := by
    rintro rfl
    exact hne (some.inj (hj.symm.trans h))
  exact mem_of_getElem? (getElem?_set_of_ne hji c' hj)

lemma getElem?_snoc (h : (pool ++ [c'])[i]? = some c) :
    pool[i]? = some c ∨ i = pool.length ∧ c = c' := by
  rcases Nat.lt_or_ge i pool.length with hlt | hge
  · exact .inl (getElem?_append_left hlt ▸ h)
  · rw [getElem?_append_right hge, getElem?_singleton] at h
    obtain ⟨hi, hc⟩ := ite_none_right_eq_some.mp h
    exact .inr ⟨by omega, (some.inj hc).symm⟩

lemma le_total (h : c ∈ pool) : f c ≤ total f pool :=
  le_sum_of_mem (mem_map_of_mem h)

lemma total_mono {f f' : τ → ℕ} (h : ∀ c, f c ≤ f' c) (pool : List τ) :
    total f pool ≤ total f' pool := by
  induction pool with
  | nil => exact Nat.le_refl _
  | cons d pool ih =>
    rw [total_cons, total_cons]
    exact Nat.add_le_add (h d) ih

lemma total_eq_zero {f : τ → ℕ} (h : ∀ c ∈ pool, f c = 0) : total f pool = 0 := by
  induction pool with
  | nil => rfl
  | cons d pool ih =>
    rw [total_cons, h d (by simp), ih fun c hc => h c (by simp [hc])]

lemma eq_zero_of_total {f : τ → ℕ} (h : total f pool = 0) {c : τ} (hc : c ∈ pool) : f c = 0 :=
  Nat.le_zero.mp (h ▸ le_total f hc)

lemma countP_eq_total : pool.countP p = total (fun c => (p c).toNat) pool := by
  induction pool with
  | nil => rfl
  | cons d pool ih =>
    rw [countP_cons, total_cons, ih, Nat.add_comm]
    cases p d <;> rfl

lemma countP_le_sum {f : τ → ℕ} (h : ∀ c ∈ pool, p c = true → 1 ≤ f c) :
    pool.countP p ≤ total f pool := by
  rw [countP_eq_total]
  refine sum_le_sum fun c hc => ?_
  cases hp : p c with
  | false => exact Nat.zero_le _
  | true => exact h c hc hp

lemma sum_le_countP {f : τ → ℕ} (h : ∀ c ∈ pool, f c ≤ (p c).toNat) :
    total f pool ≤ pool.countP p :=
  countP_eq_total ▸ sum_le_sum h

end Pool
