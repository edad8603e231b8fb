import Mathlib

/-!
# Fixed-window counters

A counter admits at most `rate` requests in a window. The first request after the end of a window
opens the next one, which runs for `width` and includes both its ends.
-/

namespace FixedWindow

open List Option

structure Limit where
  (rate width : ℤ)

structure Window where
  (count resetAt : ℤ)

inductive Verdict
  | opened | counted | refused
  deriving DecidableEq

def Verdict.admits : Verdict → Bool
  | opened | counted => true
  | refused => false

/-- The window, if it has not ended. -/
def running (now : ℤ) (w : Option Window) : Option Window := w.filter fun w => now ≤ w.resetAt

lemma running_running {now later : ℤ} (h : now ≤ later) (w : Option Window) :
    running later (running now w) = running later w := by
  cases w with
  | none => rfl
  | some w =>
    by_cases hlater : later ≤ w.resetAt
    · simp [running, filter_some, h.trans hlater]
    · by_cases hnow : now ≤ w.resetAt <;> simp [running, filter_some, hlater, hnow]

variable {w : Option Window}

lemma running_eq_some {now : ℤ} {w' : Window} (h : running now w = some w') :
    w = some w' ∧ now ≤ w'.resetAt := by
  obtain ⟨hw, hle⟩ := filter_eq_some_iff.mp h
  exact ⟨hw, of_decide_eq_true hle⟩

variable {t : ℤ}

lemma running_eq_none {w : Window} (h : running t (some w) = none) : w.resetAt < t := by
  by_contra hle
  simp [running, filter_some, Int.not_lt.mp hle] at h

namespace Limit

variable (lim : Limit)

/-- One request: the verdict, and the window afterwards. -/
def judge (now : ℤ) (w : Option Window) : Verdict × Window :=
  match running now w with
  | none => (.opened, ⟨1, now + lim.width⟩)
  | some w =>
    if lim.rate ≤ w.count then (.refused, w) else (.counted, { w with count := w.count + 1 })

/-- The verdicts on requests at the given times. -/
def serve : Option Window → List ℤ → List (ℤ × Verdict)
  | _, [] => []
  | w, t :: ts => (t, (lim.judge t w).1) :: serve (some (lim.judge t w).2) ts

def after : Option Window → List ℤ → Option Window
  | w, [] => w
  | w, t :: ts => after (some (lim.judge t w).2) ts

end Limit

/-- One more verdict, after `n` requests have been admitted in the current window. -/
def tally (n : ℤ) (x : ℤ × Verdict) : ℤ :=
  match x.2 with
  | .opened => 1
  | .counted => n + 1
  | .refused => n

/-- The requests admitted since the last window was opened. -/
def inWindow (log : List (ℤ × Verdict)) : ℤ := log.foldl tally 0

variable {lim : Limit} {ts : List ℤ}

lemma judge_none (h : running t w = none) : lim.judge t w = (.opened, ⟨1, t + lim.width⟩) := by
  rw [Limit.judge, h]

lemma judge_some {w' : Window} (h : running t w = some w') :
    lim.judge t w = if lim.rate ≤ w'.count then (.refused, w')
      else (.counted, { w' with count := w'.count + 1 }) := by
  rw [Limit.judge, h]

lemma serve_snoc (lim : Limit) (w : Option Window) (ts : List ℤ) (t : ℤ) :
    lim.serve w (ts ++ [t]) = lim.serve w ts ++ [(t, (lim.judge t (lim.after w ts)).1)] := by
  induction ts generalizing w with
  | nil => rfl
  | cons t' ts ih =>
    rw [cons_append, Limit.serve, Limit.serve, ih]
    rfl

lemma after_snoc (lim : Limit) (w : Option Window) (ts : List ℤ) (t : ℤ) :
    lim.after w (ts ++ [t]) = some (lim.judge t (lim.after w ts)).2 := by
  induction ts generalizing w with
  | nil => rfl
  | cons t' ts ih =>
    rw [cons_append, Limit.after, ih]
    rfl

lemma inWindow_snoc (log : List (ℤ × Verdict)) (x : ℤ × Verdict) :
    inWindow (log ++ [x]) = tally (inWindow log) x := by
  rw [inWindow, foldl_append]
  rfl

variable {log : List (ℤ × Verdict)}

lemma exists_of_prefix_serve (h : log <+: lim.serve w ts) :
    ∃ ts', ts' <+: ts ∧ log = lim.serve w ts' := by
  induction ts using reverseRecOn with
  | nil => exact ⟨[], prefix_refl _, prefix_nil.mp h⟩
  | append_singleton ts t ih =>
    rw [serve_snoc] at h
    rcases prefix_concat_iff.mp h with rfl | h
    · exact ⟨ts ++ [t], prefix_refl _, (serve_snoc lim w ts t).symm⟩
    · obtain ⟨ts', hts', hlog⟩ := ih h
      exact ⟨ts', hts'.trans (prefix_append ts [t]), hlog⟩

/-- What the counter of a window says, and that it does not run over. -/
structure Sound (lim : Limit) (log : List (ℤ × Verdict)) (w : Window) : Prop where
  count_eq : w.count = inWindow log
  pos : 1 ≤ w.count
  le_rate : w.count ≤ lim.rate

variable (hrate : 1 ≤ lim.rate)
include hrate

lemma sound_judge (hw : ∀ w' ∈ w, Sound lim log w') (t : ℤ) :
    Sound lim (log ++ [(t, (lim.judge t w).1)]) (lim.judge t w).2 := by
  cases hrun : running t w with
  | none =>
    rw [judge_none hrun]
    exact ⟨by rw [inWindow_snoc]; rfl, le_refl _, hrate⟩
  | some w' =>
    obtain ⟨hcount, hpos, hle⟩ := hw w' (running_eq_some hrun).1
    rw [judge_some hrun]
    split
    case isTrue => exact ⟨by rw [inWindow_snoc]; exact hcount, hpos, hle⟩
    case isFalse hroom =>
      refine ⟨?_, by dsimp only; omega, by dsimp only; omega⟩
      rw [inWindow_snoc, ← hcount]
      rfl

lemma sound_after (ts : List ℤ) :
    ∀ w' ∈ lim.after none ts, Sound lim (lim.serve none ts) w' := by
  induction ts using reverseRecOn with
  | nil => exact nofun
  | append_singleton ts t ih =>
    intro w' hw'
    rw [after_snoc] at hw'
    cases hw'
    rw [serve_snoc]
    exact sound_judge hrate ih t

/-- **A window admits at most `rate` requests.** -/
theorem inWindow_le (h : log <+: lim.serve none ts) :
    inWindow log ≤ lim.rate := by
  obtain ⟨ts', -, rfl⟩ := exists_of_prefix_serve h
  induction ts' using reverseRecOn with
  | nil =>
    show (0 : ℤ) ≤ lim.rate
    omega
  | append_singleton ts' t =>
    have hsound := sound_judge hrate (sound_after hrate ts') t
    rw [serve_snoc, ← hsound.count_eq]
    exact hsound.le_rate

/-- **A request is refused only when its window has admitted `rate` requests.** -/
theorem inWindow_of_refused
    (h : log ++ [(t, .refused)] <+: lim.serve none ts) : inWindow log = lim.rate := by
  obtain ⟨ts', -, hlog⟩ := exists_of_prefix_serve h
  rcases eq_nil_or_concat' ts' with rfl | ⟨ts', t', rfl⟩
  · simp [Limit.serve] at hlog
  rw [serve_snoc] at hlog
  obtain ⟨rfl, hx⟩ := append_inj' hlog rfl
  obtain ⟨rfl, hrefused⟩ := Prod.mk.inj (cons.inj hx).1
  cases hrun : running t (lim.after none ts') with
  | none =>
    rw [judge_none hrun] at hrefused
    cases hrefused
  | some w =>
    obtain ⟨hcount, -, hle⟩ := sound_after hrate ts' w (running_eq_some hrun).1
    rw [judge_some hrun] at hrefused
    split at hrefused
    case isTrue hfull => omega
    case isFalse => cases hrefused

omit hrate

/-! ## Intervals -/

/-- A request that was admitted in the interval that begins with `a`. -/
def within (lim : Limit) (a : ℤ) (x : ℤ × Verdict) : Bool :=
  x.2.admits && (decide (a ≤ x.1) && decide (x.1 ≤ a + lim.width))

/-- How many requests can still be admitted in the interval that begins with `a`. A window that ends
before the interval leaves room for two, one that ends in it for the rest of it and one more, and one
that ends after it for the rest of it. -/
def room (lim : Limit) (a : ℤ) : Option Window → ℤ
  | none => 2 * lim.rate
  | some w =>
    if w.resetAt < a then 2 * lim.rate
    else if w.resetAt < a + lim.width then 2 * lim.rate - w.count
    else lim.rate - w.count

lemma times_serve (lim : Limit) (w : Option Window) (ts : List ℤ) :
    (lim.serve w ts).map Prod.fst = ts := by
  induction ts generalizing w with
  | nil => rfl
  | cons t ts ih => rw [Limit.serve, map_cons, ih]

variable {a : ℤ}

lemma countP_after (w : Option Window) (hts : ∀ t ∈ ts, a + lim.width < t) :
    (lim.serve w ts).countP (within lim a) = 0 := by
  rw [countP_eq_zero]
  intro x hx hwithin
  have hlt := hts x.1 (times_serve lim w ts ▸ mem_map_of_mem hx)
  simp only [within, Bool.and_eq_true, decide_eq_true_eq] at hwithin
  omega

lemma within_admitted {v : Verdict} (hv : v.admits = true)
    (ht : t ≤ a + lim.width) : within lim a (t, v) = decide (a ≤ t) := by
  simp [within, hv, ht]

variable (hrate : 1 ≤ lim.rate)
include hrate

lemma room_judge (hwidth : 0 ≤ lim.width)
    (hw : ∀ w' ∈ w, 1 ≤ w'.count ∧ w'.count ≤ lim.rate) (ht : t ≤ a + lim.width) :
    ((if within lim a (t, (lim.judge t w).1) then 1 else 0 : ℕ) : ℤ) +
      room lim a (some (lim.judge t w).2) ≤ room lim a w := by
  cases hrun : running t w with
  | none =>
    rw [judge_none hrun, within_admitted rfl ht]
    simp only [decide_eq_true_eq]
    cases w with
    | none =>
      simp only [room]
      split_ifs <;> omega
    | some w =>
      have hend := running_eq_none hrun
      obtain ⟨hpos, hle⟩ := hw w rfl
      simp only [room]
      split_ifs <;> omega
  | some w' =>
    obtain ⟨rfl, hend⟩ := running_eq_some hrun
    rw [judge_some hrun]
    split
    case isTrue => simp [within, Verdict.admits]
    case isFalse hroom =>
      rw [within_admitted rfl ht]
      simp only [decide_eq_true_eq, room]
      split_ifs <;> omega

variable (hw : ∀ w' ∈ w, 1 ≤ w'.count ∧ w'.count ≤ lim.rate)
include hw

lemma room_nonneg : 0 ≤ room lim a w := by
  cases w with
  | none =>
    simp only [room]
    omega
  | some w =>
    obtain ⟨hpos, hle⟩ := hw w rfl
    simp only [room]
    split_ifs <;> omega

lemma count_judge :
    1 ≤ (lim.judge t w).2.count ∧ (lim.judge t w).2.count ≤ lim.rate := by
  cases hrun : running t w with
  | none =>
    rw [judge_none hrun]
    exact ⟨le_refl _, hrate⟩
  | some w' =>
    obtain ⟨hpos, hle⟩ := hw w' (running_eq_some hrun).1
    rw [judge_some hrun]
    split
    · exact ⟨hpos, hle⟩
    · constructor <;> dsimp only <;> omega

omit hw

lemma countP_le_room (hwidth : 0 ≤ lim.width) (a : ℤ)
    (hw : ∀ w' ∈ w, 1 ≤ w'.count ∧ w'.count ≤ lim.rate) (hts : ts.Pairwise (· ≤ ·)) :
    ((lim.serve w ts).countP (within lim a) : ℤ) ≤ room lim a w := by
  induction ts generalizing w with
  | nil => exact room_nonneg hrate hw
  | cons t ts ih =>
    obtain ⟨hfirst, hts⟩ := pairwise_cons.mp hts
    by_cases ht : t ≤ a + lim.width
    · have hjudge := count_judge hrate hw (t := t)
      have hrest := ih (w := some (lim.judge t w).2)
        (fun w' hw' => some.inj hw' ▸ hjudge) hts
      have hroom := room_judge hrate hwidth hw ht
      rw [Limit.serve, countP_cons]
      omega
    · have hafter : ∀ t' ∈ t :: ts, a + lim.width < t' := by
        refine forall_mem_cons.mpr ⟨by omega, fun t' ht' => ?_⟩
        have := hfirst t' ht'
        omega
      rw [countP_after w hafter]
      exact room_nonneg hrate hw

/-- **An interval as long as a window holds at most `2 * rate` admitted requests.** -/
theorem countP_interval_le (a : ℤ) (hts : ts.Pairwise (· ≤ ·)) :
    ((lim.serve none ts).countP (within lim a) : ℤ) ≤ 2 * lim.rate := by
  by_cases hwidth : 0 ≤ lim.width
  · exact countP_le_room hrate hwidth a (w := none) (fun _ h => nomatch h) hts
  have hzero : (lim.serve none ts).countP (within lim a) = 0 := by
    rw [countP_eq_zero]
    intro x _ hwithin
    simp only [within, Bool.and_eq_true, decide_eq_true_eq] at hwithin
    omega
  rw [hzero]
  push_cast
  omega

end FixedWindow
