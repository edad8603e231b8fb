import Mathlib

/-!
# Operations that may be interrupted

An operation performs effects on a state, each atomic and numbered in the order they are reached. A
stop names the number of an effect and what happens there: the effect reports an error, or the
process is killed. An effect that is stopped has not taken place.
-/

namespace Interruption

/-- What goes wrong at an effect: it reports an error, or the process dies. -/
inductive Fault
  | error (reason : String)
  | kill
  deriving DecidableEq

/-- A fault at the effect number `point`. -/
structure Stop where
  point : ℕ
  fault : Fault
  deriving DecidableEq

/-- How an operation ends. -/
inductive Outcome (ε α : Type)
  | returned (a : α)
  | failed (e : ε)
  | killed
  deriving DecidableEq

/-- An operation: given the stop, the number of its first effect and the state, how it ends, the
number of the next effect and the state it leaves. -/
def Op (σ ε α : Type) := Option Stop → ℕ → σ → Outcome ε α × ℕ × σ

variable {σ ε α β : Type}

namespace Op

def pure (a : α) : Op σ ε α := fun _ c s => (.returned a, c, s)

def bind (op : Op σ ε α) (k : α → Op σ ε β) : Op σ ε β := fun stop c s =>
  match op stop c s with
  | (.returned a, c', s') => k a stop c' s'
  | (.failed e, c', s') => (.failed e, c', s')
  | (.killed, c', s') => (.killed, c', s')

instance : Monad (Op σ ε) where
  pure := pure
  bind := bind

/-- The state, which is in the process's memory. -/
def get : Op σ ε σ := fun _ c s => (.returned s, c, s)

/-- A change of what is in the process's memory. -/
def modify (f : σ → σ) : Op σ ε Unit := fun _ c s => (.returned (), c, f s)

def fail (e : ε) : Op σ ε α := fun _ c s => (.failed e, c, s)

/-- An atomic effect; the operation fails with `wrap reason` when it reports an error. -/
def effect (wrap : String → ε) (f : σ → α × σ) : Op σ ε α := fun stop c s =>
  match stop with
  | some ⟨point, fault⟩ =>
    if point = c then
      match fault with
      | .error reason => (.failed (wrap reason), c + 1, s)
      | .kill => (.killed, c + 1, s)
    else (.returned (f s).1, c + 1, (f s).2)
  | none => (.returned (f s).1, c + 1, (f s).2)

/-- A point between effects at which the process may be killed. -/
def checkpoint : Op σ ε Unit := fun stop c s =>
  if stop = some ⟨c, .kill⟩ then (.killed, c + 1, s) else (.returned (), c + 1, s)

end Op

/-- The operation returns `a`, with `c'` the number of the next effect and `s'` the state. -/
def Returns (op : Op σ ε α) (stop : Option Stop) (c : ℕ) (s : σ) (a : α) (c' : ℕ) (s' : σ) : Prop :=
  op stop c s = (.returned a, c', s')

/-- The operation fails or is killed, and leaves the state `s'`. -/
def Stops (op : Op σ ε α) (stop : Option Stop) (c : ℕ) (s s' : σ) : Prop :=
  (∀ a, (op stop c s).1 ≠ .returned a) ∧ (op stop c s).2.2 = s'

/-- No effect with a number from `a` up to `b` is stopped. -/
def Clear (stop : Option Stop) (a b : ℕ) : Prop :=
  ∀ t ∈ stop, t.point < a ∨ b ≤ t.point

variable {op : Op σ ε α} {k : α → Op σ ε β} {stop : Option Stop} {c c' c'' : ℕ} {s s' s'' : σ}
  {a : α} {b : β}

lemma Clear.mono {l m n k : ℕ} (h : Clear stop l m) (hl : l ≤ n) (hm : k ≤ m) :
    Clear stop n k := by
  intro t ht
  have := h t ht
  omega

lemma Clear.trans {l m n : ℕ} (h : Clear stop l m) (h' : Clear stop m n) : Clear stop l n := by
  intro t ht
  have := h t ht
  have := h' t ht
  omega

variable (h : Returns op stop c s a c' s')
include h

lemma bind_eq_of_returns {r : Outcome ε β × ℕ × σ}
    (hk : k a stop c' s' = r) : (op >>= k) stop c s = r := by
  show Op.bind op k stop c s = r
  rw [Op.bind, h]
  exact hk

lemma Returns.bind (hk : Returns (k a) stop c' s' b c'' s'') :
    Returns (op >>= k) stop c s b c'' s'' :=
  bind_eq_of_returns h hk

omit h in
lemma exists_of_bind_returns (h : Returns (op >>= k) stop c s b c'' s'') :
    ∃ a c' s', Returns op stop c s a c' s' ∧ Returns (k a) stop c' s' b c'' s'' := by
  change Op.bind op k stop c s = _ at h
  unfold Op.bind at h
  split at h
  case h_1 a c' s' hop => exact ⟨a, c', s', hop, h⟩
  all_goals cases h

lemma Stops.bind_right (hk : Stops (k a) stop c' s' s'') :
    Stops (op >>= k) stop c s s'' := by
  rw [Stops, bind_eq_of_returns h rfl]
  exact hk

omit h in
lemma Stops.bind_left (h : Stops op stop c s s') : Stops (op >>= k) stop c s s' := by
  obtain ⟨hout, hstate⟩ := h
  show (∀ b, (Op.bind op k stop c s).1 ≠ .returned b) ∧ (Op.bind op k stop c s).2.2 = s'
  rw [Op.bind]
  rcases hop : op stop c s with ⟨a | e | _, d, t⟩
  · exact absurd (by rw [hop]) (hout a)
  all_goals exact ⟨fun b hb => (nomatch hb), by rw [← hstate, hop]⟩

lemma Returns.not_stops : ¬Stops op stop c s s'' := by
  rintro ⟨hout, -⟩
  exact hout a (congrArg Prod.fst h)

lemma Returns.state_eq {a' : α} (h' : Returns op stop c s a' c'' s'') : s' = s'' :=
  congrArg (fun r => r.2.2) (h.symm.trans h')

omit h

lemma pure_returns (a : α) : Returns (pure a : Op σ ε α) stop c s a c s := rfl

lemma get_returns : Returns (Op.get : Op σ ε σ) stop c s s c s := rfl

lemma modify_returns (f : σ → σ) : Returns (Op.modify f : Op σ ε Unit) stop c s () c (f s) := rfl

lemma fail_stops (e : ε) : Stops (Op.fail e : Op σ ε α) stop c s s :=
  ⟨fun _ h => (nomatch h), rfl⟩

variable (wrap : String → ε) (f : σ → α × σ)

lemma effect_returns (h : Clear stop c (c + 1)) :
    Returns (Op.effect wrap f) stop c s (f s).1 (c + 1) (f s).2 := by
  rcases stop with _ | ⟨point, fault⟩
  · rfl
  have hpoint : point ≠ c := by
    have := h _ rfl
    dsimp only at this
    omega
  simp [Returns, Op.effect, hpoint]

lemma effect_stops (h : ¬ Clear stop c (c + 1)) : Stops (Op.effect wrap f) stop c s s := by
  obtain ⟨⟨point, fault⟩, rfl, hpoint⟩ : ∃ t ∈ stop, ¬ (t.point < c ∨ c + 1 ≤ t.point) := by
    simpa [Clear] using h
  obtain rfl : point = c := by
    dsimp only at hpoint
    omega
  cases fault <;> simp [Stops, Op.effect]

lemma eq_of_effect_returns {wrap : String → ε} {f : σ → α × σ}
    (h : Returns (Op.effect wrap f) stop c s a c' s') : f s = (a, s') := by
  by_cases hclear : Clear stop c (c + 1)
  · have hboth := h.symm.trans (effect_returns wrap f hclear)
    rw [Prod.mk.injEq, Prod.mk.injEq] at hboth
    obtain ⟨ha, -, hs⟩ := hboth
    exact Prod.ext (Outcome.returned.inj ha).symm hs.symm
  · exact absurd (effect_stops wrap f hclear) h.not_stops

lemma exists_of_effect_bind_returns {wrap : String → ε} {f : σ → α × σ}
    (h : Returns (Op.effect wrap f >>= k) stop c s b c'' s'') :
    ∃ c', Returns (k (f s).1) stop c' (f s).2 b c'' s'' := by
  obtain ⟨a, c', s', heffect, hrest⟩ := exists_of_bind_returns h
  rw [eq_of_effect_returns heffect]
  exact ⟨c', hrest⟩

lemma checkpoint_returns (h : stop ≠ some ⟨c, .kill⟩) :
    Returns (Op.checkpoint : Op σ ε Unit) stop c s () (c + 1) s := by
  rw [Returns, Op.checkpoint, if_neg h]

lemma checkpoint_stops (h : stop = some ⟨c, .kill⟩) :
    Stops (Op.checkpoint : Op σ ε Unit) stop c s s := by
  rw [Stops, Op.checkpoint, if_pos h]
  exact ⟨fun _ h => (nomatch h), rfl⟩

/-- However the operation ends, what `f` reads of the state is as before. -/
def Frame {β : Type} (op : Op σ ε α) (f : σ → β) : Prop :=
  ∀ stop c s, f (op stop c s).2.2 = f s

variable {γ : Type} {f : σ → γ}

lemma Frame.of_returns (h : Frame op f) (hret : Returns op stop c s a c' s') : f s' = f s := by
  have hframe := h stop c s
  rwa [hret] at hframe

lemma Frame.of_stops (h : Frame op f) (hstops : Stops op stop c s s') : f s' = f s :=
  hstops.2 ▸ h stop c s

lemma Frame.pure (a : α) : Frame (Pure.pure a : Op σ ε α) f := fun _ _ _ => rfl

lemma Frame.get : Frame (Op.get : Op σ ε σ) f := fun _ _ _ => rfl

lemma Frame.fail_bind (e : ε) : Frame ((Op.fail e : Op σ ε α) >>= k) f := fun _ _ _ => rfl

lemma Frame.modify {g : σ → σ} (h : ∀ s, f (g s) = f s) : Frame (Op.modify g : Op σ ε Unit) f :=
  fun _ _ s => h s

lemma Frame.checkpoint : Frame (Op.checkpoint : Op σ ε Unit) f := by
  intro stop c s
  rw [Op.checkpoint]
  split <;> rfl

lemma Frame.effect {wrap : String → ε} {g : σ → α × σ} (h : ∀ s, f (g s).2 = f s) :
    Frame (Op.effect wrap g) f := by
  intro stop c s
  by_cases hclear : Clear stop c (c + 1)
  · rw [effect_returns wrap g hclear]
    exact h s
  · rw [(effect_stops wrap g hclear).2]

lemma Frame.bind (h : Frame op f) (hk : ∀ a, Frame (k a) f) : Frame (op >>= k) f := by
  intro stop c s
  show f (Op.bind op k stop c s).2.2 = f s
  have hop := h stop c s
  rw [Op.bind]
  rcases heq : op stop c s with ⟨a | e | _, d, t⟩
  · rw [heq] at hop
    exact (hk a stop d t).trans hop
  all_goals
    rw [heq] at hop
    exact hop

/-- The operation in a transaction: what it has done is kept when it returns, and undone otherwise. -/
def atomically (op : Op σ ε α) (stop : Option Stop) (s : σ) : Outcome ε α × σ :=
  match op stop 0 s with
  | (.returned a, _, s') => (.returned a, s')
  | (.failed e, _, _) => (.failed e, s)
  | (.killed, _, _) => (.killed, s)

lemma atomically_cases (op : Op σ ε α) (stop : Option Stop) (s : σ) :
    (∃ a c s', Returns op stop 0 s a c s' ∧ atomically op stop s = (.returned a, s')) ∨
    (∀ a, (atomically op stop s).1 ≠ .returned a) ∧ (atomically op stop s).2 = s := by
  unfold atomically
  rcases hop : op stop 0 s with ⟨a | e | _, c, s'⟩
  · exact .inl ⟨a, c, s', hop, rfl⟩
  · exact .inr ⟨nofun, rfl⟩
  · exact .inr ⟨nofun, rfl⟩

end Interruption
