import Mathlib

/-!
# Splitting a command

`SplitCommand` of `internal/core/command_safety.go`, on bytes.
-/

namespace DeployMonster.Core

open List

/-- `WriteRune` of a byte, which is taken for a code point. -/
def writeRune (b : UInt8) : List UInt8 := if b < 128 then [b] else [192 + b / 64, 128 + b % 64]

/-- A token that has ended; an empty one is dropped. -/
def flush (current : List UInt8) : List (List UInt8) := if current = [] then [] else [current]

/-- The loop, with the quote it is in and the token so far. -/
def splitLoop : Option UInt8 → List UInt8 → List UInt8 → List (List UInt8)
  | _, current, [] => flush current
  | some quote, current, ch :: cmd =>
    if ch = quote then splitLoop none current cmd
    else splitLoop (some quote) (current ++ writeRune ch) cmd
  | none, current, ch :: cmd =>
    if ch = 39 ∨ ch = 34 then splitLoop (some ch) current cmd
    else if ch ∈ [32, 9, 10, 13] then flush current ++ splitLoop none [] cmd
    else splitLoop none (current ++ writeRune ch) cmd

def splitCommand (cmd : List UInt8) : List (List UInt8) :=
  let tokens := splitLoop none [] cmd
  if tokens = [] then ["/bin/true".toUTF8.data.toList] else tokens

/-- The arguments in single quotes, joined by spaces. -/
def quoteArgs (args : List (List UInt8)) : List UInt8 :=
  [32].intercalate (args.map fun arg => 39 :: arg ++ [39])

lemma splitLoop_quoted {arg : List UInt8} (harg : 39 ∉ arg) (current cmd : List UInt8) :
    splitLoop (some 39) current (arg ++ 39 :: cmd) =
      splitLoop none (current ++ arg.flatMap writeRune) cmd := by
  induction arg generalizing current with
  | nil => simp [splitLoop]
  | cons ch arg ih =>
    have hch : ch ≠ 39 := fun h => harg (h ▸ mem_cons_self)
    simp [splitLoop, hch, ih (fun h => harg (mem_cons_of_mem _ h))]

lemma splitLoop_quoteArgs {args : List (List UInt8)} (hargs : ∀ arg ∈ args, 39 ∉ arg) :
    splitLoop none [] (quoteArgs args) = args.flatMap fun arg => flush (arg.flatMap writeRune) := by
  induction args with
  | nil => rfl
  | cons arg args ih =>
    have hfirst (cmd : List UInt8) : splitLoop none [] (39 :: arg ++ 39 :: cmd) =
        splitLoop none (arg.flatMap writeRune) cmd := by
      simpa [splitLoop] using splitLoop_quoted (hargs arg mem_cons_self) [] cmd
    cases args with
    | nil => simpa [quoteArgs, splitLoop] using hfirst []
    | cons next args =>
      have hjoin : quoteArgs (arg :: next :: args) = 39 :: arg ++ 39 :: 32 :: quoteArgs (next :: args) := by
        simp [quoteArgs, intercalate]
      rw [hjoin, hfirst, flatMap_cons, ← ih fun a ha => hargs a (mem_cons_of_mem _ ha)]
      simp [splitLoop]

lemma length_le_length_flatMap_writeRune (arg : List UInt8) :
    arg.length ≤ (arg.flatMap writeRune).length := by
  induction arg with
  | nil => exact le_rfl
  | cons b arg ih =>
    have hb : 1 ≤ (writeRune b).length := by unfold writeRune; split <;> simp
    rw [flatMap_cons, length_append, length_cons]
    omega

/-- A byte from 128 on becomes two, so only bytes below 128 are written as they are. -/
lemma flatMap_writeRune_eq_iff (arg : List UInt8) :
    arg.flatMap writeRune = arg ↔ ∀ b ∈ arg, b < 128 := by
  refine ⟨fun h => ?_, fun h => (flatMap_congr fun b hb => if_pos (h b hb)).trans
    (flatMap_singleton' arg)⟩
  induction arg with
  | nil => simp
  | cons b arg ih =>
    rw [flatMap_cons, writeRune] at h
    split at h
    case isTrue hb => exact forall_mem_cons.mpr ⟨hb, ih (cons.inj h).2⟩
    case isFalse =>
      have hlength := congrArg length h
      have := length_le_length_flatMap_writeRune arg
      simp only [cons_append, nil_append, length_cons] at hlength
      omega

/-- The tokens are the arguments when every argument gives its own token. -/
lemma flatMap_flush_eq_iff (args : List (List UInt8)) :
    (args.flatMap fun arg => flush (arg.flatMap writeRune)) = args ↔
      ∀ arg ∈ args, arg ≠ [] ∧ ∀ b ∈ arg, b < 128 := by
  have hshort (args : List (List UInt8)) :
      (args.flatMap fun arg => flush (arg.flatMap writeRune)).length ≤ args.length := by
    induction args with
    | nil => exact le_rfl
    | cons arg args ih =>
      have harg : (flush (arg.flatMap writeRune)).length ≤ 1 := by unfold flush; split <;> simp
      rw [flatMap_cons, length_append, length_cons]
      omega
  induction args with
  | nil => simp
  | cons arg args ih =>
    rw [flatMap_cons, forall_mem_cons, ← flatMap_writeRune_eq_iff, flush]
    refine Iff.trans ?_ (and_congr_right fun _ => ih)
    split
    case isTrue hempty =>
      refine iff_of_false (fun h => ?_) fun h => h.1.1 (h.1.2.symm.trans hempty)
      have := hshort args
      rw [nil_append] at h
      rw [h, length_cons] at this
      omega
    case isFalse hne =>
      rw [singleton_append, cons.injEq]
      exact and_congr_left fun _ => ⟨fun h => ⟨h ▸ hne, h⟩, And.right⟩

/-- **Quoted arguments come back** exactly when none is empty and all their bytes are below 128. -/
theorem splitCommand_quoteArgs_iff {args : List (List UInt8)} (hne : args ≠ [])
    (hargs : ∀ arg ∈ args, 39 ∉ arg) :
    splitCommand (quoteArgs args) = args ↔ ∀ arg ∈ args, arg ≠ [] ∧ ∀ b ∈ arg, b < 128 := by
  rw [splitCommand, splitLoop_quoteArgs hargs, ← flatMap_flush_eq_iff]
  split
  case isTrue hempty =>
    refine iff_of_false ?_ fun h => hne (h.symm.trans hempty)
    rintro rfl
    revert hempty
    decide +kernel
  case isFalse => rfl

theorem splitCommand_quoteArgs_iff_two :
    splitCommand (quoteArgs [[97, 32, 34], [98]]) = [[97, 32, 34], [98]] :=
  (splitCommand_quoteArgs_iff (by decide) (by decide)).mpr (by decide +kernel)

/-- An empty argument is dropped, and a byte from 128 on becomes two. -/
theorem splitCommand_loses :
    splitCommand (quoteArgs [[97], []]) = [[97]] ∧ splitCommand (quoteArgs [[233]]) = [[195, 169]] := by
  decide

end DeployMonster.Core
