import DeployMonster.Library.Pool
import DeployMonster.Library.StepMachine

/-!
# Programs of atomic calls

A program calls atomic operations on a shared state and goes on with their answers. What else
decides an answer is the choice of the environment. Threads that run together are a pool of
programs, and an interleaving is a run of the step machine that lets one thread perform its next
call.
-/

namespace Program

section

open List Option

/-- A program: it has returned, or performs a call and goes on with the answer. -/
inductive Prog (C : Type) (R : C → Type) (α : Type)
  | ret (a : α)
  | call (c : C) (k : R c → Prog C R α)

variable {C σ ω α β : Type} {R : C → Type} {p : Prog C R α}

namespace Prog

def bind : Prog C R α → (α → Prog C R β) → Prog C R β
  | ret a, f => f a
  | call c k, f => call c fun r => (k r).bind f

instance : Monad (Prog C R) where
  pure := ret
  bind := bind

def perform (c : C) : Prog C R (R c) := call c ret

@[simp] lemma pure_eq (a : α) : (pure a : Prog C R α) = ret a := rfl

@[simp] lemma ret_bind (a : α) (f : α → Prog C R β) : (ret a >>= f) = f a := rfl

@[simp] lemma call_bind (c : C) (k : R c → Prog C R α) (f : α → Prog C R β) :
    (call c k >>= f) = call c fun r => k r >>= f := rfl

@[simp] lemma perform_bind (c : C) (f : R c → Prog C R β) : (perform c >>= f) = call c f := rfl

/-- The program with a label on each of its calls, by which the calls of the threads of a pool can
be told apart. -/
def label {τ : Type} (t : τ) : Prog C R α → Prog (τ × C) (fun c => R c.2) α
  | ret a => ret a
  | call c k => call (t, c) fun r => (k r).label t

def next? : Prog C R α → Option C
  | ret _ => none
  | call c _ => some c

def result? : Prog C R α → Option α
  | ret a => some a
  | call _ _ => none

lemma result?_eq_some {a : α} (h : p.result? = some a) : p = ret a := by
  cases p with
  | ret b => rw [some.inj h]
  | call => cases h

end Prog

open Prog

/-! ## A program alone -/

/-- The program alone: the environment's choices `os`, one for each call, lead to its return. -/
def solo (exec : (c : C) → σ → ω → Option (R c × σ)) : Prog C R α → σ → List ω → Option (α × σ)
  | ret a, s, [] => some (a, s)
  | call c k, s, o :: os => (exec c s o).bind fun (r, s') => solo exec (k r) s' os
  | _, _, _ => none

/-- Whatever the environment chooses, the program returns so that `Q` holds. -/
def Wp (exec : (c : C) → σ → ω → Option (R c × σ)) : Prog C R α → (α → σ → Prop) → σ → Prop
  | ret a, Q, s => Q a s
  | call c k, Q, s => ∀ o r s', exec c s o = some (r, s') → Wp exec (k r) Q s'

lemma answer_inj {α σ : Type*} {a a' : α} {s s' : σ} (h : some (a, s) = some (a', s')) :
    a = a' ∧ s = s' :=
  Prod.mk.inj (some.inj h)

variable {Q : α → σ → Prop} {exec : (c : C) → σ → ω → Option (R c × σ)}

@[simp] lemma wp_ret (a : α) (Q : α → σ → Prop) (s : σ) : Wp exec (ret a) Q s = Q a s := rfl

lemma wp_call (c : C) (k : R c → Prog C R α) (Q : α → σ → Prop) (s : σ) :
    Wp exec (call c k) Q s = ∀ o r s', exec c s o = some (r, s') → Wp exec (k r) Q s' := rfl

lemma wp_bind (p : Prog C R α) (f : α → Prog C R β) (Q : β → σ → Prop) (s : σ) :
    Wp exec (p >>= f) Q s ↔ Wp exec p (fun a => Wp exec (f a) Q) s := by
  induction p generalizing s with
  | ret a => rfl
  | call c k ih =>
    constructor
    · intro h o r s' ho
      exact (ih r s').mp (h o r s' ho)
    · intro h o r s' ho
      exact (ih r s').mpr (h o r s' ho)

lemma Wp.mono {Q' : α → σ → Prop} {s : σ} (h : Wp exec p Q s) (hQ : ∀ a s', Q a s' → Q' a s') :
    Wp exec p Q' s := by
  induction p generalizing s with
  | ret a => exact hQ a s h
  | call c k ih => exact fun o r s' ho => ih r (h o r s' ho)

lemma Wp.of_forall (hQ : ∀ a s, Q a s) (p : Prog C R α) (s : σ) : Wp exec p Q s := by
  induction p generalizing s with
  | ret a => exact hQ a s
  | call c k ih => exact fun o r s' _ => ih r s'

/-- What holds whatever the environment chooses holds of every run alone. -/
lemma of_solo {s s' : σ} {os : List ω} {a : α} (h : Wp exec p Q s)
    (hrun : solo exec p s os = some (a, s')) : Q a s' := by
  induction p generalizing s os with
  | ret b =>
    cases os with
    | nil =>
      obtain ⟨rfl, rfl⟩ := answer_inj hrun
      exact h
    | cons => cases hrun
  | call c k ih =>
    cases os with
    | nil => cases hrun
    | cons o os =>
      obtain ⟨⟨r, t⟩, hr, hrun⟩ := bind_eq_some_iff.mp hrun
      exact ih r (h o r t hr) hrun

/-- For some choices of the environment, the program returns so that `Q` holds. -/
def May (exec : (c : C) → σ → ω → Option (R c × σ)) : Prog C R α → (α → σ → Prop) → σ → Prop
  | ret a, Q, s => Q a s
  | call c k, Q, s => ∃ o r s', exec c s o = some (r, s') ∧ May exec (k r) Q s'

lemma may_bind (p : Prog C R α) (f : α → Prog C R β) (Q : β → σ → Prop) (s : σ) :
    May exec (p >>= f) Q s ↔ May exec p (fun a => May exec (f a) Q) s := by
  induction p generalizing s with
  | ret a => rfl
  | call c k ih =>
    constructor
    · rintro ⟨o, r, s', ho, h⟩
      exact ⟨o, r, s', ho, (ih r s').mp h⟩
    · rintro ⟨o, r, s', ho, h⟩
      exact ⟨o, r, s', ho, (ih r s').mpr h⟩

lemma May.exists_solo {s : σ} (h : May exec p Q s) :
    ∃ os a s', solo exec p s os = some (a, s') ∧ Q a s' := by
  induction p generalizing s with
  | ret a => exact ⟨[], a, s, rfl, h⟩
  | call c k ih =>
    obtain ⟨o, r, s', ho, h⟩ := h
    obtain ⟨os, a, t, hrun, hQ⟩ := ih r h
    refine ⟨o :: os, a, t, ?_, hQ⟩
    simp only [solo, ho, bind_some]
    exact hrun

lemma May.mono {Q' : α → σ → Prop} {s : σ} (h : May exec p Q s)
    (hQ : ∀ a s', Q a s' → Q' a s') : May exec p Q' s := by
  induction p generalizing s with
  | ret a => exact hQ a s h
  | call c k ih =>
    obtain ⟨o, r, s', ho, h⟩ := h
    exact ⟨o, r, s', ho, ih r h⟩

/-- A program whose calls always have an answer may return, and then what holds whatever the
environment chooses holds. -/
lemma Wp.may (henabled : ∀ c s, ∃ o x, exec c s o = some x) {s : σ} (h : Wp exec p Q s) :
    May exec p Q s := by
  induction p generalizing s with
  | ret a => exact h
  | call c k ih =>
    obtain ⟨o, ⟨r, s'⟩, ho⟩ := henabled c s
    exact ⟨o, r, s', ho, ih r (h o r s' ho)⟩

lemma eq_of_solo_ret {exec : (c : C) → σ → ω → Option (R c × σ)} {a b : α} {s s' : σ}
    {os : List ω} (h : solo exec (ret a) s os = some (b, s')) : b = a ∧ s' = s := by
  cases os with
  | nil =>
    obtain ⟨rfl, rfl⟩ := answer_inj h
    exact ⟨rfl, rfl⟩
  | cons => cases h

/-- As `exists_of_run_imp`, for a run alone that returns `a`. -/
lemma exists_of_solo_imp {exec : (c : C) → σ → ω → Option (R c × σ)} {s : σ} {os : List ω} {a : α}
    {P Q : σ → Prop} (h : ∃ s', solo exec p s os = some (a, s') ∧ P s')
    (hQ : ∀ s', solo exec p s os = some (a, s') → P s' → Q s') :
    ∃ s', solo exec p s os = some (a, s') ∧ Q s' := by
  obtain ⟨s', hrun, hP⟩ := h
  exact ⟨s', hrun, hQ s' hrun hP⟩

/-- The calls, when the environment only makes the choices that `ok` allows. -/
def restrict (ok : ω → Bool) (exec : (c : C) → σ → ω → Option (R c × σ)) (c : C) (s : σ) (o : ω) :
    Option (R c × σ) :=
  if ok o then exec c s o else none

lemma restrict_eq_some {ok : ω → Bool} {exec : (c : C) → σ → ω → Option (R c × σ)} {c : C} {s : σ}
    {o : ω} {x : R c × σ} (h : restrict ok exec c s o = some x) :
    ok o = true ∧ exec c s o = some x :=
  ite_none_right_eq_some.mp h

/-- A call that may fail: then it answers the error and changes nothing. -/
def attempt (fails : Option String) (s : σ) (a : α) (s' : σ) : Option (Except String α × σ) :=
  match fails with
  | some e => some (.error e, s)
  | none => some (.ok a, s')

lemma attempt_eq_some {fails : Option String} {s s' t : σ} {a : α} {r : Except String α}
    (h : attempt fails s a s' = some (r, t)) :
    (∃ e, fails = some e ∧ r = .error e ∧ t = s) ∨ (fails = none ∧ r = .ok a ∧ t = s') := by
  unfold attempt at h
  split at h
  case h_1 e =>
    obtain ⟨rfl, rfl⟩ := answer_inj h
    exact .inl ⟨e, rfl, rfl, rfl⟩
  case h_2 =>
    obtain ⟨rfl, rfl⟩ := answer_inj h
    exact .inr ⟨rfl, rfl, rfl⟩

/-! ## Threads -/

/-- One thread of the pool performs its next call. -/
def poolStep (exec : (c : C) → σ → ω → Option (R c × σ)) (s : σ × List (Prog C R α))
    (a : ℕ × ω) : Option (σ × List (Prog C R α)) :=
  match s.2[a.1]? with
  | some (.call c k) => (exec c s.1 a.2).map fun (r, s') => (s', s.2.set a.1 (k r))
  | _ => none

variable {s s' : σ × List (Prog C R α)}

lemma poolStep_eq_some {exec : (c : C) → σ → ω → Option (R c × σ)} {a : ℕ × ω}
    (h : poolStep exec s a = some s') :
    ∃ c k r, s.2[a.1]? = some (.call c k) ∧ exec c s.1 a.2 = some (r, s'.1) ∧
      s'.2 = s.2.set a.1 (k r) := by
  unfold poolStep at h
  split at h
  case h_1 c k hi =>
    obtain ⟨⟨r, t⟩, hr, rfl⟩ := map_eq_some_iff.mp h
    exact ⟨c, k, r, hi, hr, rfl⟩
  case h_2 => cases h

lemma length_of_run {exec : (c : C) → σ → ω → Option (R c × σ)} {as : List (ℕ × ω)}
    (h : StepMachine.run (poolStep exec) s as = some s') : s'.2.length = s.2.length := by
  refine StepMachine.invariant_of_run (I := fun t : σ × List (Prog C R α) =>
    t.2.length = s.2.length) ?_ rfl h
  intro t a t' ht hstep
  obtain ⟨c, k, r, -, -, hset⟩ := poolStep_eq_some hstep
  rw [hset, length_set, ht]

lemma getElem?_of_run {exec : (c : C) → σ → ω → Option (R c × σ)} {as : List (ℕ × ω)} {i : ℕ}
    (hi : ∀ a ∈ as, a.1 ≠ i) (h : StepMachine.run (poolStep exec) s as = some s') :
    s'.2[i]? = s.2[i]? := by
  induction as generalizing s with
  | nil =>
    cases h
    rfl
  | cons a as ih =>
    obtain ⟨s1, hstep, hrest⟩ := bind_eq_some_iff.mp h
    obtain ⟨c, k, r, -, -, hset⟩ := poolStep_eq_some hstep
    rw [ih (fun b hb => hi b (mem_cons_of_mem a hb)) hrest, hset,
      getElem?_set_ne (hi a mem_cons_self)]

/-- Every call that the program may come to perform is in `P`. -/
def AllCalls (P : C → Prop) : Prog C R α → Prop
  | ret _ => True
  | call c k => P c ∧ ∀ r, AllCalls P (k r)

lemma AllCalls.mono {P Q : C → Prop} (hp : AllCalls P p) (hPQ : ∀ c, P c → Q c) :
    AllCalls Q p := by
  induction p with
  | ret a => trivial
  | call c k ih => exact ⟨hPQ c hp.1, fun r => ih r (hp.2 r)⟩

variable {f : α → Prog C R β}

lemma AllCalls.bind {P : C → Prop} (hp : AllCalls P p) (hf : ∀ a, AllCalls P (f a)) :
    AllCalls P (p >>= f) := by
  induction p with
  | ret a => exact hf a
  | call c k ih => exact ⟨hp.1, fun r => ih r (hp.2 r)⟩

/-- Every value that the program may come to return is in `V`. -/
def Returns (V : α → Prop) : Prog C R α → Prop
  | ret a => V a
  | call _ k => ∀ r, Returns V (k r)

lemma Returns.of_forall {V : α → Prop} (hV : ∀ a, V a) (p : Prog C R α) : Returns V p := by
  induction p with
  | ret a => exact hV a
  | call c k ih => exact ih

lemma Returns.wp {V : α → Prop} {exec : (c : C) → σ → ω → Option (R c × σ)} (hp : Returns V p)
    (s : σ) : Wp exec p (fun a _ => V a) s := by
  induction p generalizing s with
  | ret a => exact hp
  | call c k ih => exact fun o r s' _ => ih r (hp r) s'

lemma AllCalls.bind_of_returns {P : C → Prop} {V : α → Prop} (hp : AllCalls P p)
    (hV : Returns V p) (hf : ∀ a, V a → AllCalls P (f a)) : AllCalls P (p >>= f) := by
  induction p with
  | ret a => exact hf a hV
  | call c k ih => exact ⟨hp.1, fun r => ih r (hp.2 r) (hV r)⟩

/-- Every call that the program may come to perform is in `P`, when its calls are answered as `A`
says. -/
def CallsIn (A : (c : C) → R c → Prop) (P : C → Prop) : Prog C R α → Prop
  | ret _ => True
  | call c k => P c ∧ ∀ r, A c r → CallsIn A P (k r)

variable {A : (c : C) → R c → Prop} {P : C → Prop}

lemma AllCalls.callsIn (hp : AllCalls P p) : CallsIn A P p := by
  induction p with
  | ret a => trivial
  | call c k ih => exact ⟨hp.1, fun r _ => ih r (hp.2 r)⟩

lemma CallsIn.bind (hp : CallsIn A P p) (hf : ∀ a, CallsIn A P (f a)) :
    CallsIn A P (p >>= f) := by
  induction p with
  | ret a => exact hf a
  | call c k ih => exact ⟨hp.1, fun r hr => ih r (hp.2 r hr)⟩

variable {I : σ → Prop}

lemma CallsIn.wp (hA : ∀ c s o r s', I s → exec c s o = some (r, s') → A c r)
    (hI : ∀ c s o r s', P c → I s → exec c s o = some (r, s') → I s') (hp : CallsIn A P p) {s : σ}
    (hs : I s) : Wp exec p (fun _ s' => I s') s := by
  induction p generalizing s with
  | ret a => exact hs
  | call c k ih =>
    intro o r s' ho
    exact ih r (hp.2 r (hA c s o r s' hs ho)) (hI c s o r s' hp.1 hs ho)

lemma AllCalls.wp (hp : AllCalls P p)
    (hI : ∀ c s o r s', P c → I s → exec c s o = some (r, s') → I s') {s : σ} (hs : I s) :
    Wp exec p (fun _ s' => I s') s :=
  CallsIn.wp (A := fun _ _ => True) (fun _ _ _ _ _ _ _ => trivial) hI hp.callsIn hs

variable (hA : ∀ c s o r s', I s → exec c s o = some (r, s') → A c r)
include hA

variable (hI : ∀ c s o r s', P c → I s → exec c s o = some (r, s') → I s')
include hI

lemma CallsIn.step {a : ℕ × ω} (hs : I s.1)
    (hcalls : ∀ p ∈ s.2, CallsIn A P p) (hstep : poolStep exec s a = some s') :
    I s'.1 ∧ ∀ p ∈ s'.2, CallsIn A P p := by
  obtain ⟨c, k, r, hi, hexec, hset⟩ := poolStep_eq_some hstep
  have hc : CallsIn A P (.call c k) := hcalls _ (mem_of_getElem? hi)
  refine ⟨hI c s.1 a.2 r s'.1 hc.1 hs hexec, ?_⟩
  rw [hset]
  exact Pool.forall_set hcalls (hc.2 r (hA c s.1 a.2 r s'.1 hs hexec))

/-- **What every call of the threads keeps, every interleaving of them keeps.** -/
theorem CallsIn.of_run {as : List (ℕ × ω)} (hs : I s.1) (hcalls : ∀ p ∈ s.2, CallsIn A P p)
    (hrun : StepMachine.run (poolStep exec) s as = some s') : I s'.1 := by
  refine (StepMachine.invariant_of_run (I := fun t : σ × List (Prog C R α) =>
    I t.1 ∧ ∀ p ∈ t.2, CallsIn A P p) ?_ ⟨hs, hcalls⟩ hrun).1
  rintro t a t' ⟨ht, hcalls⟩ hstep
  exact CallsIn.step hA hI ht hcalls hstep

omit hI

omit hA

/-- The program performs at most one call of `W` and returns with its answer, as `K` says; when it
performs none it returns a value of `V`. -/
def Commits (W : C → Prop) (K : (c : C) → R c → α → Prop) (V : α → Prop) : Prog C R α → Prop
  | ret a => V a
  | call c k => (W c → ∀ r, ∃ a, k r = ret a ∧ K c r a) ∧ (¬W c → ∀ r, Commits W K V (k r))

variable {W : C → Prop} {V : α → Prop}

lemma commits_of_write {K : (c : C) → R c → α → Prop} {c : C} {k : R c → Prog C R α} (hc : W c)
    (hk : ∀ r, ∃ a, k r = ret a ∧ K c r a) : Commits W K V (call c k) :=
  ⟨fun _ => hk, fun h => absurd hc h⟩

lemma commits_of_not_write {K : (c : C) → R c → α → Prop} {c : C} {k : R c → Prog C R α}
    (hc : ¬W c) (hk : ∀ r, Commits W K V (k r)) : Commits W K V (call c k) :=
  ⟨fun h => absurd h hc, fun _ => hk⟩

lemma Commits.bind {K : (c : C) → R c → α → Prop} {K' : (c : C) → R c → β → Prop} {V' : β → Prop}
    (hp : Commits W K V p) (hK : ∀ c r a, K c r a → ∃ b, f a = ret b ∧ K' c r b)
    (hV : ∀ a, V a → Commits W K' V' (f a)) : Commits W K' V' (p >>= f) := by
  induction p with
  | ret a => exact hV a hp
  | call c k ih =>
    refine ⟨fun hc r => ?_, fun hc r => ih r (hp.2 hc r)⟩
    obtain ⟨a, hk, ha⟩ := hp.1 hc r
    obtain ⟨b, hf, hb⟩ := hK c r a ha
    refine ⟨b, ?_, hb⟩
    show (k r >>= f) = ret b
    rw [hk]
    exact hf

/-!
# Calls made of calls

A call of one layer is a program over the calls of the layer below, so that it can stop halfway. Of
a run one may want to know whether every call met a condition: the watch keeps that beside the
state.
-/

open Prog

variable {C D σ ω α β : Type} {R : C → Type} {S : D → Type}

/-- The program over the lower layer. -/
def Prog.implement (impl : (c : C) → Prog D S (R c)) : Prog C R α → Prog D S α
  | ret a => ret a
  | call c k => impl c >>= fun r => (k r).implement impl

variable (p : Prog C R α) (f : α → Prog C R β)

lemma Prog.bind_assoc {γ : Type} (g : β → Prog C R γ) :
    (p >>= f >>= g) = p >>= fun a => f a >>= g := by
  induction p with
  | ret a => rfl
  | call c k ih => exact congrArg (call c) (funext ih)

variable {exec : (d : D) → σ → ω → Option (S d × σ)} {impl : (c : C) → Prog D S (R c)}

lemma implement_bind :
    (p >>= f).implement impl = p.implement impl >>= fun a => (f a).implement impl := by
  induction p with
  | ret a => rfl
  | call c k ih =>
    show (impl c >>= fun r => (k r >>= f).implement impl) = _
    simp only [ih]
    exact (bind_assoc (impl c) _ _).symm

lemma wp_implement_call (c : C) (k : R c → Prog C R α) (Q : α → σ → Prop) (s : σ) :
    Wp exec ((call c k).implement impl) Q s ↔
      Wp exec (impl c) (fun r => Wp exec ((k r).implement impl) Q) s :=
  wp_bind (impl c) _ Q s

lemma wp_implement_bind (Q : β → σ → Prop) (s : σ) :
    Wp exec ((p >>= f).implement impl) Q s ↔
      Wp exec (p.implement impl) (fun a => Wp exec ((f a).implement impl) Q) s := by
  rw [implement_bind, wp_bind]

/-- Every call of the run meets the condition. -/
def Allowed (exec : (c : C) → σ → ω → Option (R c × σ)) (G : C → ω → Bool) :
    Prog C R α → σ → List ω → Bool
  | call c k, s, o :: os => G c o && (exec c s o).all fun (r, s') => Allowed exec G (k r) s' os
  | _, _, _ => true

/-- The calls, with whether they all met the condition. -/
def watch (G : C → ω → Bool) (exec : (c : C) → σ → ω → Option (R c × σ)) (c : C) (s : σ × Bool)
    (o : ω) : Option (R c × (σ × Bool)) :=
  (exec c s.1 o).map fun (r, s') => (r, (s', s.2 && G c o))

variable {exec : (c : C) → σ → ω → Option (R c × σ)} {G : C → ω → Bool} {p : Prog C R α}

lemma watch_eq_some {c : C} {s : σ × Bool} {o : ω} {r : R c} {s' : σ × Bool}
    (h : watch G exec c s o = some (r, s')) :
    exec c s.1 o = some (r, s'.1) ∧ s'.2 = (s.2 && G c o) := by
  obtain ⟨⟨r', t⟩, hexec, heq⟩ := map_eq_some_iff.mp h
  cases heq
  exact ⟨hexec, rfl⟩

lemma solo_watch {s s' : σ} {b : Bool} {os : List ω} {a : α} (h : solo exec p s os = some (a, s')) :
    solo (watch G exec) p (s, b) os = some (a, (s', b && Allowed exec G p s os)) := by
  induction p generalizing s b os with
  | ret a' =>
    cases os with
    | nil =>
      cases h
      simp [solo, Allowed]
    | cons => cases h
  | call c k ih =>
    cases os with
    | nil => cases h
    | cons o os =>
      obtain ⟨⟨r, t⟩, hexec, hrun⟩ := bind_eq_some_iff.mp h
      have hwatch : watch G exec c (s, b) o = some (r, (t, b && G c o)) := by
        simp only [watch, hexec, map_some]
      simp only [solo, hwatch, bind_some, ih r hrun]
      simp [Allowed, hexec, Bool.and_assoc]

/-- **What holds under the watch holds of every run, with the verdict on it.** -/
theorem of_solo_watch {Q : α → σ × Bool → Prop} {s s' : σ} {os : List ω} {a : α}
    (hwp : Wp (watch G exec) p Q (s, true)) (h : solo exec p s os = some (a, s')) :
    Q a (s', Allowed exec G p s os) := by
  have hwatch := solo_watch (G := G) (b := true) h
  rw [Bool.true_and] at hwatch
  exact of_solo hwp hwatch

end

/-!
# Protocols

A protocol says which calls a thread may perform in a stage, and to which stage the answer leads. An
invariant of a pool of programs that keep to it can speak about the stages of the threads.
-/

section

open Prog StepMachine List Option Pool

variable {C σ ω α β γ : Type} {R : C → Type} {next : γ → (c : C) → R c → γ → Prop}

/-- From the stage on, the program keeps to the protocol. -/
def Follows (next : γ → (c : C) → R c → γ → Prop) (done : γ → α → Prop) : Prog C R α → γ → Prop
  | ret a, g => done g a
  | call c k, g => ∀ r, ∃ g', next g c r g' ∧ Follows next done (k r) g'

variable {done : γ → α → Prop} {p : Prog C R α} {g : γ}

lemma Follows.bind {done' : γ → β → Prop} {f : α → Prog C R β}
    (hp : Follows next done p g) (hf : ∀ g a, done g a → Follows next done' (f a) g) :
    Follows next done' (p >>= f) g := by
  induction p generalizing g with
  | ret a => exact hf g a hp
  | call c k ih =>
    intro r
    obtain ⟨g', hg', hk⟩ := hp r
    exact ⟨g', hg', ih r hk⟩

lemma AllCalls.follows {P : C → Prop} (hp : AllCalls P p)
    (hP : ∀ c, P c → ∀ r, next g c r g) (hdone : Returns (done g) p) : Follows next done p g := by
  induction p with
  | ret a => exact hdone
  | call c k ih => exact fun r => ⟨g, hP c hp.1 r, ih r (hp.2 r) (hdone r)⟩

lemma Follows.allCalls {P : C → Prop} [∀ c, Nonempty (R c)] (hP : ∀ g c r g', next g c r g' → P c)
    (hp : Follows next done p g) : AllCalls P p := by
  induction p generalizing g with
  | ret => trivial
  | call c k ih =>
    obtain ⟨r⟩ := ‹∀ c, Nonempty (R c)› c
    obtain ⟨g', hnext, -⟩ := hp r
    refine ⟨hP g c r g' hnext, fun r => ?_⟩
    obtain ⟨g', -, hk⟩ := hp r
    exact ih r hk

/-- The protocol of labelled programs: the calls of a thread carry its label. -/
def Labelled {τ : Type} (next : τ → γ → (c : C) → R c → γ → Prop) (g : τ × γ) (c : τ × C) (r : R c.2)
    (g' : τ × γ) : Prop :=
  c.1 = g.1 ∧ g'.1 = g.1 ∧ next g.1 g.2 c.2 r g'.2

variable {τ : Type}

lemma Follows.label {next : τ → γ → (c : C) → R c → γ → Prop} {done : τ → γ → α → Prop}
    {t : τ} (hp : Follows (next t) (done t) p g) :
    Follows (Labelled next) (fun g a => done g.1 g.2 a) (p.label t) (t, g) := by
  induction p generalizing g with
  | ret a => exact hp
  | call c k ih =>
    intro r
    obtain ⟨g', hg', hk⟩ := hp r
    exact ⟨(t, g'), ⟨rfl, rfl, hg'⟩, ih r hk⟩

/-- An invariant of the stage and the state that every call keeps holds when the program returns. -/
lemma Follows.wp {exec : (c : C) → σ → ω → Option (R c × σ)} {I : σ → γ → Prop}
    (hstep : ∀ c s o r s' g g', I s g → next g c r g' → exec c s o = some (r, s') → I s' g')
    (hp : Follows next done p g) {s : σ} (hs : I s g) :
    Wp exec p (fun a s' => ∃ g', done g' a ∧ I s' g') s := by
  induction p generalizing g s with
  | ret a => exact ⟨g, hp, hs⟩
  | call c k ih =>
    intro o r s' ho
    obtain ⟨g', hnext, hk⟩ := hp r
    exact ih r hk (hstep c s o r s' g g' hs hnext ho)

/-- Each program of the pool keeps to the protocol from its stage on. -/
structure Tracks (next : γ → (c : C) → R c → γ → Prop) (done : γ → α → Prop)
    (progs : List (Prog C R α)) (stages : List γ) : Prop where
  length : stages.length = progs.length
  follows : ∀ (i : ℕ) p g, progs[i]? = some p → stages[i]? = some g → Follows next done p g

variable {progs : List (Prog C R α)}

lemma tracks_replicate (h : ∀ p ∈ progs, Follows next done p g) :
    Tracks next done progs (List.replicate progs.length g) where
  length := length_replicate
  follows := by
    intro i p g' hp hg'
    obtain rfl : g' = g := eq_of_mem_replicate (mem_of_getElem? hg')
    exact h p (mem_of_getElem? hp)

lemma tracks_map {f : τ → Prog C R α} {stage : τ → γ} {xs : List τ}
    (h : ∀ x ∈ xs, Follows next done (f x) (stage x)) :
    Tracks next done (xs.map f) (xs.map stage) where
  length := by rw [length_map, length_map]
  follows := by
    intro i p g hp hg
    rw [getElem?_map, map_eq_some_iff] at hp hg
    obtain ⟨x, hx, rfl⟩ := hp
    obtain ⟨x', hx', rfl⟩ := hg
    obtain rfl := some.inj (hx.symm.trans hx')
    exact h x (mem_of_getElem? hx)

variable {exec : (c : C) → σ → ω → Option (R c × σ)} {stages : List γ}

lemma Tracks.exists_stage (ht : Tracks next done progs stages) {i : ℕ} (hp : progs[i]? = some p) :
    ∃ g, stages[i]? = some g := by
  have hlt : i < stages.length := by
    rw [ht.length]
    exact (List.getElem?_eq_some_iff.mp hp).1
  exact ⟨_, getElem?_eq_getElem hlt⟩

lemma Tracks.set (ht : Tracks next done progs stages) {i : ℕ}
    {g' : γ} (hg : stages[i]? = some g) (hp : Follows next done p g') :
    Tracks next done (progs.set i p) (stages.set i g') := by
  constructor
  · rw [length_set, length_set, ht.length]
  intro j q q' hq hq'
  rcases getElem?_set hq with ⟨rfl, rfl⟩ | ⟨hne, hq⟩
  · rw [getElem?_set_self hg] at hq'
    rw [← some.inj hq']
    exact hp
  · rw [getElem?_set_ne hne.symm] at hq'
    exact ht.follows j q q' hq hq'

variable {s s' : σ × List (Prog C R α)}

lemma Tracks.step {a : ℕ × ω} (ht : Tracks next done s.2 stages) (h : poolStep exec s a = some s') :
    ∃ c k r g g', s.2[a.1]? = some (.call c k) ∧ stages[a.1]? = some g ∧
      exec c s.1 a.2 = some (r, s'.1) ∧ next g c r g' ∧
      Follows next done (.call c k) g ∧ Tracks next done s'.2 (stages.set a.1 g') := by
  obtain ⟨c, k, r, hi, hexec, hset⟩ := poolStep_eq_some h
  obtain ⟨g, hg⟩ := ht.exists_stage hi
  have hfollows := ht.follows a.1 _ _ hi hg
  obtain ⟨g', hg', hk⟩ := hfollows r
  refine ⟨c, k, r, g, g', hi, hg, hexec, hg', hfollows, ?_⟩
  rw [hset]
  exact ht.set hg hk

/-- The same for labelled programs: the call, the stage before and the stage after have one label. -/
lemma Tracks.step_labelled {next : τ → γ → (c : C) → R c → γ → Prop}
    {done : τ × γ → α → Prop} {exec : (c : τ × C) → σ → ω → Option (R c.2 × σ)}
    {s s' : σ × List (Prog (τ × C) (fun c => R c.2) α)} {a : ℕ × ω} {stages : List (τ × γ)}
    (ht : Tracks (Labelled next) done s.2 stages) (h : poolStep exec s a = some s') :
    ∃ l c k r g g', s.2[a.1]? = some (.call (l, c) k) ∧ stages[a.1]? = some (l, g) ∧
      exec (l, c) s.1 a.2 = some (r, s'.1) ∧ s'.2 = s.2.set a.1 (k r) ∧ next l g c r g' ∧
      Follows (Labelled next) done (k r) (l, g') ∧
      Tracks (Labelled next) done s'.2 (stages.set a.1 (l, g')) := by
  obtain ⟨⟨l, c⟩, k, r, hi, hexec, hset⟩ := poolStep_eq_some h
  obtain ⟨⟨l', g⟩, hg⟩ := ht.exists_stage hi
  obtain ⟨⟨l'', g'⟩, ⟨hl, hl'', hnext⟩, hk⟩ := ht.follows a.1 _ _ hi hg r
  obtain rfl : l = l' := hl
  obtain rfl : l = l'' := Eq.symm hl''
  refine ⟨l, c, k, r, g, g', hi, hg, hexec, hset, hnext, hk, ?_⟩
  rw [hset]
  exact ht.set hg hk

variable {G : σ × List (Prog C R α) → ℕ × ω → Prop} {as : List (ℕ × ω)}

/-- **An invariant of the stages that every guarded step keeps holds after every guarded run.** -/
theorem Tracks.of_along {I : σ → List γ → Prop}
    (hstep : ∀ s a t stages c k r g g', I s.1 stages → G s a → s.2[a.1]? = some (.call c k) →
      stages[a.1]? = some g → Follows next done (.call c k) g → exec c s.1 a.2 = some (r, t) →
      next g c r g' → I t (stages.set a.1 g'))
    (ht : Tracks next done s.2 stages) (hI : I s.1 stages)
    (hG : Along (poolStep exec) G s as) (hrun : run (poolStep exec) s as = some s') :
    ∃ stages', Tracks next done s'.2 stages' ∧ I s'.1 stages' := by
  refine invariant_of_along (I := fun s : σ × List (Prog C R α) =>
    ∃ stages, Tracks next done s.2 stages ∧ I s.1 stages) ?_ ⟨stages, ht, hI⟩ hG hrun
  rintro s a s' ⟨stages, ht, hI⟩ ha h
  obtain ⟨c, k, r, g, g', hi, hg, hexec, hnext, hfollows, ht'⟩ := ht.step h
  exact ⟨_, ht', hstep s a s'.1 stages c k r g g' hI ha hi hg hfollows hexec hnext⟩

/-- **What the threads know of the state.** Every guarded step keeps `J`, leads its own thread to a
stage of which `K` holds, and keeps `K` of the stages of the other threads: then `J` holds after every
guarded run. -/
theorem Tracks.of_along_each {J : σ → Prop} {K : σ → γ → Prop}
    (hmove : ∀ s a t c k r g g', J s.1 → K s.1 g → G s a → s.2[a.1]? = some (.call c k) →
      exec c s.1 a.2 = some (r, t) → next g c r g' → J t ∧ K t g')
    (hothers : ∀ s a t c k r g j p g', J s.1 → K s.1 g → G s a → s.2[a.1]? = some (.call c k) →
      exec c s.1 a.2 = some (r, t) → j ≠ a.1 → s.2[j]? = some p → Follows next done p g' →
      K s.1 g' → K t g')
    (ht : Tracks next done s.2 stages) (hJ : J s.1) (hK : ∀ g ∈ stages, K s.1 g)
    (hG : Along (poolStep exec) G s as) (hrun : run (poolStep exec) s as = some s') : J s'.1 := by
  refine (invariant_of_along (I := fun s : σ × List (Prog C R α) => J s.1 ∧
    ∃ stages, Tracks next done s.2 stages ∧ ∀ g ∈ stages, K s.1 g) ?_ ⟨hJ, stages, ht, hK⟩ hG hrun).1
  rintro s a s' ⟨hJ, stages, ht, hK⟩ ha h
  obtain ⟨c, k, r, g, g', hi, hg, hexec, hnext, -, ht'⟩ := ht.step h
  have hKg := hK g (mem_of_getElem? hg)
  obtain ⟨hJ', hK'⟩ := hmove s a s'.1 c k r g g' hJ hKg ha hi hexec hnext
  refine ⟨hJ', _, ht', fun h hh => ?_⟩
  obtain ⟨j, hj⟩ := getElem?_of_mem hh
  rcases getElem?_set hj with ⟨-, rfl⟩ | ⟨hne, hj⟩
  · exact hK'
  obtain ⟨p, hp⟩ : ∃ p, s.2[j]? = some p := by
    have hlt : j < s.2.length := by
      rw [← ht.length]
      exact (List.getElem?_eq_some_iff.mp hj).1
    exact ⟨_, getElem?_eq_getElem hlt⟩
  exact hothers s a s'.1 c k r g j p h hJ hKg ha hi hexec hne hp (ht.follows j p h hp hj)
    (hK h (mem_of_getElem? hj))

end

/-!
# Pools with a log

A pool of programs that notes, with the thread, what its calls come to. When each stage tells the
entries of a thread that is in it, the log says nothing more than the stages do.
-/

open Prog List

variable {C σ ω α β γ : Type} {R : C → Type}

structure Logged (σ C : Type) (R : C → Type) (α β : Type) where
  state : σ
  threads : List (Prog C R α)
  log : List (ℕ × β)

/-- One thread performs its next call, which is logged when it is to be noted. -/
def logStep (exec : (c : C) → σ → ω → Option (R c × σ)) (note : (c : C) → R c → Option β)
    (s : Logged σ C R α β) (a : ℕ × ω) : Option (Logged σ C R α β) :=
  match s.threads[a.1]? with
  | some (.call c k) => (exec c s.state a.2).map fun (r, t) =>
      ⟨t, s.threads.set a.1 (k r), s.log ++ (note c r).toList.map (a.1, ·)⟩
  | _ => none

/-- What a thread has logged. -/
def entriesOf (i : ℕ) (log : List (ℕ × β)) : List β := (log.filter (·.1 = i)).map Prod.snd

lemma mem_entriesOf {i : ℕ} {e : β} {log : List (ℕ × β)} : e ∈ entriesOf i log ↔ (i, e) ∈ log := by
  simp [entriesOf]

lemma entriesOf_append (i j : ℕ) (log : List (ℕ × β)) (es : List β) :
    entriesOf i (log ++ es.map (j, ·)) = entriesOf i log ++ if j = i then es else [] := by
  rw [entriesOf, filter_append, map_append, entriesOf, filter_map, map_map]
  by_cases h : j = i <;> simp [h, Function.comp_def]

/-- Every thread has logged what its stage tells, and nobody else has logged anything. -/
def Recorded (events : γ → List β) (log : List (ℕ × β)) (stages : List γ) : Prop :=
  ∀ i, entriesOf i log = (stages[i]?.map events).getD []

variable {events : γ → List β} {log : List (ℕ × β)} {stages : List γ} {i : ℕ} {g g' : γ}

lemma Recorded.entries (h : Recorded events log stages) (hg : stages[i]? = some g) :
    entriesOf i log = events g := by
  rw [h i, hg]
  rfl

lemma Recorded.mem_iff (h : Recorded events log stages) (hg : stages[i]? = some g) {e : β} :
    (i, e) ∈ log ↔ e ∈ events g := by
  rw [← mem_entriesOf, h.entries hg]

lemma recorded_nil (h : ∀ g ∈ stages, events g = []) : Recorded events [] stages := by
  intro i
  cases hg : stages[i]? with
  | none => rfl
  | some g => exact (h g (mem_of_getElem? hg)).symm

lemma Recorded.step (h : Recorded events log stages) (hg : stages[i]? = some g) {es : List β}
    (hnext : events g' = events g ++ es) :
    Recorded events (log ++ es.map (i, ·)) (stages.set i g') := by
  intro j
  rw [entriesOf_append]
  by_cases hij : i = j
  · subst hij
    rw [if_pos rfl, h.entries hg, Pool.getElem?_set_self hg, ← hnext]
    rfl
  · rw [if_neg hij, append_nil, getElem?_set_ne hij, h j]

lemma Tracks.step_logged {exec : (c : C) → σ → ω → Option (R c × σ)}
    {note : (c : C) → R c → Option β} {next : γ → (c : C) → R c → γ → Prop} {done : γ → α → Prop}
    {s s' : Logged σ C R α β} {a : ℕ × ω} (ht : Tracks next done s.threads stages)
    (h : logStep exec note s a = some s') :
    ∃ c k r g g', s.threads[a.1]? = some (.call c k) ∧ stages[a.1]? = some g ∧
      exec c s.state a.2 = some (r, s'.state) ∧ next g c r g' ∧
      s'.log = s.log ++ (note c r).toList.map (a.1, ·) ∧
      Tracks next done s'.threads (stages.set a.1 g') := by
  unfold logStep at h
  split at h
  case h_1 c k hi =>
    obtain ⟨⟨r, t⟩, hexec, rfl⟩ := Option.map_eq_some_iff.mp h
    obtain ⟨g, hg⟩ := ht.exists_stage hi
    obtain ⟨g', hnext, hk⟩ := ht.follows a.1 _ _ hi hg r
    exact ⟨c, k, r, g, g', hi, hg, hexec, hnext, rfl, ht.set hg hk⟩
  case h_2 => cases h

end Program
