import DeployMonster.Library.Replace
import DeployMonster.Library.StepMachine

/-!
# The writer that redacts secrets

The output of `git clone` goes to the build log through `redactingWriter`, which replaces the token
by `[redacted]` in what each call of `Write` is given.
-/

namespace DeployMonster.Build

open StepMachine Replace List

def ascii (text : String) : List UInt8 := text.toList.map fun c => c.toNat.toUInt8

/-- `redactingWriter`. The destination is told apart from what is passed to it. -/
structure RedactingWriter where
  secrets : List (List UInt8)

variable (w : RedactingWriter)

namespace RedactingWriter

def redactedText : List UInt8 := ascii "[redacted]"

/-- The loop of `Write`, which skips empty secrets. -/
def redact (secrets : List (List UInt8)) (p : List UInt8) : List UInt8 :=
  secrets.foldl (fun out secret => if secret ≠ [] then replaceAll secret redactedText out else out) p

/-- `Write`: what it passes to the destination, and what it returns once that has answered. -/
def write (p : List UInt8) (answer : ℕ × Option String) : List UInt8 × ℕ × Option String :=
  if w.secrets.length = 0 then (p, answer)
  else (redact w.secrets p, p.length, answer.2)

def live : List (List UInt8) := w.secrets.filter (· ≠ [])

lemma mem_live {w : RedactingWriter} {s : List UInt8} : s ∈ w.live ↔ s ∈ w.secrets ∧ s ≠ [] := by
  simp [live]

lemma redact_eq (p : List UInt8) : redact w.secrets p = replaceEach redactedText w.live p := by
  unfold redact live replaceEach
  rw [foldl_filter]
  simp

lemma write_fst (p : List UInt8) (answer : ℕ × Option String) :
    (w.write p answer).1 = replaceEach redactedText w.live p := by
  unfold write
  split
  case isTrue hnone =>
    rw [live, length_eq_zero_iff.mp hnone]
    rfl
  case isFalse => exact redact_eq w p

end RedactingWriter

structure WriteCall where
  p : List UInt8
  answer : ℕ × Option String

def stream (calls : List WriteCall) : List UInt8 := (calls.map WriteCall.p).flatten

namespace RedactingWriter

def step (passed : List UInt8) (c : WriteCall) : Option (List UInt8) :=
  some (passed ++ (w.write c.p c.answer).1)

def SecretFree (passed : List UInt8) : Prop := ∀ s ∈ w.live, ¬ s <:+: passed

/-- No secret begins in what was passed on before and ends in the chunk, in front of the secrets that
are in the chunk. -/
def Uncut (passed : List UInt8) (c : WriteCall) : Prop :=
  ∀ s ∈ w.live, ∀ i ∈ range s.length, i ≠ 0 → s.take i <:+ passed → ¬ s.drop i <+: lead w.live c.p
  deriving Decidable

section

variable {w : RedactingWriter} {passed passed' : List UInt8} {c : WriteCall}
  (hapart : ∀ s ∈ w.live, Apart s redactedText)
include hapart

/-- **A call keeps the log free of secrets** exactly when it does not complete one. -/
theorem secretFree_step (h : w.step passed c = some passed') :
    w.SecretFree passed' ↔ w.SecretFree passed ∧ w.Uncut passed c := by
  cases h
  rw [write_fst]
  constructor
  · intro hfree
    refine ⟨fun s hs hin => hfree s hs (hin.trans (infix_append' [] _ _)), ?_⟩
    intro s hs i _ _ hbegin hend
    have hpre := (prefix_replaceEach_iff hapart (hapart s hs) (drop_suffix i s) c.p).mpr hend
    refine hfree s hs (infix_append_iff.mpr (.inr (.inr ⟨s.take i, s.drop i, ?_, hbegin, hpre⟩)))
    exact (take_append_drop i s).symm
  · rintro ⟨hfree, huncut⟩ s hs hin
    have hchunk := not_infix_replaceEach hapart c.p s hs
    rcases infix_append_iff.mp hin with hin | hin | ⟨x, y, rfl, hx, hy⟩
    · exact hfree s hs hin
    · exact hchunk hin
    by_cases hxnil : x = []
    · subst hxnil
      exact hchunk hy.isInfix
    by_cases hynil : y = []
    · rw [hynil, append_nil] at hs
      exact hfree x hs hx.isInfix
    have hi : x.length ∈ range (x ++ y).length := by
      have := length_pos_of_ne_nil hynil
      rw [mem_range, length_append]
      omega
    have hend := (prefix_replaceEach_iff hapart (hapart _ hs) (suffix_append x y) c.p).mp hy
    refine huncut _ hs x.length hi (mt length_eq_zero_iff.mp hxnil) ?_ ?_
    · rwa [take_left]
    · rwa [drop_left]

lemma infix_stream {calls : List WriteCall} {s : List UInt8} (hs : s ∈ w.live)
    (hrun : run w.step passed calls = some passed') (hin : s <:+: passed') :
    s <:+: passed ++ stream calls := by
  induction calls generalizing passed with
  | nil =>
    cases hrun
    exact hin.trans (infix_append' [] _ _)
  | cons c calls ih =>
    obtain ⟨next, hnext, hrun⟩ := Option.bind_eq_some_iff.mp hrun
    cases hnext
    have hrest := ih hrun
    rw [write_fst, append_assoc] at hrest
    exact infix_of_replaceEach (hapart s hs) (fun o ho => (hapart o ho).ne_nil) c.p passed _ hrest

end

end RedactingWriter

open RedactingWriter in
/-- **The log has no secret of the stream exactly when** no call completes one, for secrets that share
nothing with the text that replaces them. -/
theorem redacted_iff (w : RedactingWriter) (hapart : ∀ s ∈ w.secrets, s ≠ [] → Apart s redactedText)
    (calls : List WriteCall) (passed : List UInt8) (hrun : run w.step [] calls = some passed) :
    (∀ s ∈ w.secrets, s ≠ [] → s <:+: stream calls → ¬ s <:+: passed) ↔
      Along w.step w.Uncut [] calls := by
  have hlive : ∀ s ∈ w.live, Apart s redactedText := fun s hs =>
    hapart s (mem_live.mp hs).1 (mem_live.mp hs).2
  have hempty : w.SecretFree [] := fun s hs hin => (hlive s hs).ne_nil (infix_nil.mp hin)
  have hiff := along_iff_of_run (I := fun _ => True) (fun _ _ _ _ _ => trivial)
    (fun _ _ _ _ h => secretFree_step hlive h) trivial hrun
  rw [and_iff_right hempty] at hiff
  rw [← hiff]
  constructor
  · intro hall s hs hin
    exact hall s (mem_live.mp hs).1 (mem_live.mp hs).2 (infix_stream hlive hs hrun hin) hin
  · intro hfree s hs hne _
    exact hfree s (mem_live.mpr ⟨hs, hne⟩)

def writes (texts : List String) : List WriteCall :=
  texts.map fun text => ⟨ascii text, (text.length, none)⟩

def tokenWriter : RedactingWriter := ⟨[ascii "ghp_7f3", []]⟩

/-- The token is within one call. -/
theorem redacted_iff_tokenWriter : ∃ passed,
    run tokenWriter.step [] (writes ["fatal: ", "bad token ghp_7f3", "\n"]) = some passed ∧
      passed = ascii "fatal: bad token [redacted]\n" ∧
      ∀ s ∈ tokenWriter.secrets, s ≠ [] →
        s <:+: stream (writes ["fatal: ", "bad token ghp_7f3", "\n"]) → ¬ s <:+: passed := by
  refine exists_of_run_and (by decide +kernel) fun passed hrun _ => ?_
  exact (redacted_iff _ (by decide +kernel) _ _ hrun).mpr (by decide +kernel)

/-- **The token is in the log** when it is written in two pieces, and when the text that replaces it has
its letters. -/
theorem token_logged :
    run tokenWriter.step [] (writes ["bad token ghp_", "7f3"]) = some (ascii "bad token ghp_7f3") ∧
    run (RedactingWriter.step ⟨[ascii "red"]⟩) [] (writes ["red"]) = some (ascii "[redacted]") ∧
    ascii "ghp_7f3" <:+: ascii "bad token ghp_7f3" ∧ ascii "red" <:+: ascii "[redacted]" := by
  decide +kernel

end DeployMonster.Build
