import DeployMonster.Library.StepMachine

/-!
# Last writes

A state is folded over events, and some of the events write a field of it.
-/

namespace LastWrite

open List Option

variable {σ ε ν : Type*} (w : ε → Option ν)

/-- The last write of the events, where `w e` is what `e` writes. -/
def lastWrite (es : List ε) : Option ν := (es.filterMap w).getLast?

@[simp] lemma lastWrite_nil : lastWrite w [] = none := rfl

lemma lastWrite_cons (e : ε) (es : List ε) :
    lastWrite w (e :: es) = (lastWrite w es).or (w e) := by
  cases he : w e with
  | none => simp [lastWrite, he]
  | some v => cases hes : (es.filterMap w).getLast? <;> simp [lastWrite, he, getLast?_cons, hes]

/-- **The field is what the last write wrote**, along every fold whose steps keep an invariant under
which an event either writes the field or leaves it. -/
theorem foldl_eq_lastWrite {f : σ → ε → σ} {get : σ → ν} {w : ε → Option ν} {I : σ → Prop}
    (hI : ∀ s e, I s → I (f s e)) (hget : ∀ s e, I s → get (f s e) = (w e).getD (get s))
    (es : List ε) {s : σ} (hs : I s) : get (es.foldl f s) = (lastWrite w es).getD (get s) := by
  induction es generalizing s with
  | nil => rfl
  | cons e es ih => rw [foldl_cons, ih (hI s e hs), hget s e hs, lastWrite_cons, getD_or]

lemma exists_of_lastWrite {w : ε → Option ν} {es : List ε} {v : ν} (h : lastWrite w es = some v) :
    ∃ e ∈ es, w e = some v :=
  mem_filterMap.mp (mem_of_getLast? h)

lemma lastWrite_append (es es' : List ε) :
    lastWrite w (es ++ es') = (lastWrite w es').or (lastWrite w es) := by
  rw [lastWrite, lastWrite, lastWrite, filterMap_append, getLast?_append]

end LastWrite
