import Mathlib

/-!
# Replacing occurrences of a text

`replaceAll old mark text` replaces the occurrences of `old` in `text`, found from left to right and
not overlapping, by `mark`. The result has no occurrence of `old` when `old` and the mark are
`Apart`.
-/

namespace Replace

open List

variable {α : Type*}

/-- The text and the mark share nothing: neither is a part of the other, and no end of one is a
beginning of the other. -/
structure Apart (text mark : List α) : Prop where
  not_infix : ¬ text <:+: mark
  not_contains : ¬ mark <:+: text
  not_suffix : ∀ x ∈ text.inits, x ≠ [] → ¬ x <:+ mark
  not_prefix : ∀ y ∈ text.tails, y ≠ [] → ¬ y <+: mark

instance [DecidableEq α] (text mark : List α) : Decidable (Apart text mark) :=
  decidable_of_iff (¬ text <:+: mark ∧ ¬ mark <:+: text ∧ (∀ x ∈ text.inits, x ≠ [] → ¬ x <:+ mark) ∧
      ∀ y ∈ text.tails, y ≠ [] → ¬ y <+: mark)
    ⟨fun ⟨h1, h2, h3, h4⟩ => ⟨h1, h2, h3, h4⟩, fun ⟨h1, h2, h3, h4⟩ => ⟨h1, h2, h3, h4⟩⟩

namespace Apart

variable {t mark u v : List α}

lemma ne_nil (h : Apart t mark) : t ≠ [] := by
  rintro rfl
  exact h.not_infix nil_infix

lemma prefix_of_append (h : Apart t mark) {y : List α} (hy : y <:+ t)
    (hpre : y <+: u ++ (mark ++ v)) : y <+: u := by
  rcases prefix_or_prefix_of_prefix hpre (prefix_append u _) with hyu | ⟨z, rfl⟩
  · exact hyu
  have hz : z <+: mark ++ v := (prefix_append_right_inj u).mp hpre
  have hzt : z <:+ t := (suffix_append u z).trans hy
  by_cases hnil : z = []
  · rw [hnil, append_nil]
  · rcases prefix_or_prefix_of_prefix hz (prefix_append mark v) with hmark | hmark
    · exact absurd hmark (h.not_prefix z ((mem_tails z t).mpr hzt) hnil)
    · exact absurd (hmark.isInfix.trans hzt.isInfix) h.not_contains

lemma infix_of_append (h : Apart t mark) (hin : t <:+: u ++ (mark ++ v)) :
    t <:+: u ∨ t <:+: v := by
  rcases infix_append_iff.mp hin with hu | hright | ⟨x, y, rfl, hx, hy⟩
  · exact .inl hu
  · rcases infix_append_iff.mp hright with hmark | hv | ⟨x, y, rfl, hx, hy⟩
    · exact absurd hmark h.not_infix
    · exact .inr hv
    by_cases hnil : x = []
    · rw [hnil]
      exact .inr hy.isInfix
    · exact absurd hx (h.not_suffix x ((mem_inits x _).mpr (prefix_append x y)) hnil)
  · have hyu : y <+: [] ++ (mark ++ v) := hy
    rw [prefix_nil.mp (h.prefix_of_append (suffix_append x y) hyu), append_nil]
    exact .inl hx.isInfix

end Apart

/-! ## The replacement -/

variable [DecidableEq α]

/-- The scan of `replaceAll`, in which `skip` letters of an occurrence are still to be passed over. -/
def scan (old mark : List α) : ℕ → List α → List α
  | _, [] => []
  | skip + 1, _ :: text => scan old mark skip text
  | 0, a :: text =>
    if old <+: a :: text then mark ++ scan old mark (old.length - 1) text
    else a :: scan old mark 0 text

def replaceAll (old mark text : List α) : List α := scan old mark 0 text

/-- The text in front of the first occurrence, or all of it. -/
def before (old : List α) : List α → List α
  | [] => []
  | a :: text => if old <+: a :: text then [] else a :: before old text

def replaceEach (mark : List α) (olds : List (List α)) (text : List α) : List α :=
  olds.foldl (fun text old => replaceAll old mark text) text

/-- The text in front of the first occurrence that `replaceEach` replaces. -/
def lead (olds : List (List α)) (text : List α) : List α :=
  olds.foldl (fun text old => before old text) text

variable {old mark text : List α}

lemma scan_eq_drop (skip : ℕ) (text : List α) :
    scan old mark skip text = replaceAll old mark (text.drop skip) := by
  induction text generalizing skip with
  | nil => simp [scan, replaceAll]
  | cons a text ih =>
    cases skip with
    | zero => rfl
    | succ skip => exact ih skip

lemma before_isPrefix (old text : List α) : before old text <+: text := by
  induction text with
  | nil => exact prefix_refl []
  | cons a text ih =>
    unfold before
    split
    · exact nil_prefix
    · exact (prefix_cons_inj a).mpr ih

lemma not_infix_before (hold : old ≠ []) (text : List α) : ¬ old <:+: before old text := by
  induction text with
  | nil => exact fun h => hold (infix_nil.mp h)
  | cons a text ih =>
    unfold before
    split
    case isTrue => exact fun h => hold (infix_nil.mp h)
    case isFalse hnot =>
      rw [infix_cons_iff]
      rintro (hhead | htail)
      · exact hnot (hhead.trans ((prefix_cons_inj a).mpr (before_isPrefix old text)))
      · exact ih htail

lemma replaceAll_cases (hold : old ≠ []) (mark text : List α) :
    before old text = text ∧ replaceAll old mark text = text ∨
      ∃ rest, text = before old text ++ (old ++ rest) ∧
        replaceAll old mark text = before old text ++ (mark ++ replaceAll old mark rest) := by
  induction text with
  | nil => exact .inl ⟨rfl, rfl⟩
  | cons a text ih =>
    by_cases hhere : old <+: a :: text
    · obtain ⟨rest, hrest⟩ := hhere
      have hbefore : before old (a :: text) = [] := if_pos ⟨rest, hrest⟩
      have hscan : replaceAll old mark (a :: text) = mark ++ scan old mark (old.length - 1) text :=
        if_pos ⟨rest, hrest⟩
      obtain ⟨b, old', rfl⟩ := exists_cons_of_ne_nil hold
      rw [cons_append, cons.injEq] at hrest
      obtain ⟨rfl, rfl⟩ := hrest
      refine .inr ⟨rest, by rw [hbefore]; rfl, ?_⟩
      rw [hscan, hbefore, scan_eq_drop, length_cons, Nat.add_sub_cancel, drop_left, nil_append]
    · have hbefore : before old (a :: text) = a :: before old text := if_neg hhere
      have hscan : replaceAll old mark (a :: text) = a :: replaceAll old mark text := if_neg hhere
      rw [hbefore, hscan]
      rcases ih with ⟨hb, hr⟩ | ⟨rest, hb, hr⟩
      · exact .inl ⟨by rw [hb], by rw [hr]⟩
      · exact .inr ⟨rest, congrArg (a :: ·) hb, congrArg (a :: ·) hr⟩

lemma replaceAll_induction {P : List α → List α → Prop} (hold : old ≠ [])
    (same : ∀ text, before old text = text → P text text)
    (split : ∀ text rest out, text = before old text ++ (old ++ rest) → P rest out →
      P text (before old text ++ (mark ++ out))) (text : List α) :
    P text (replaceAll old mark text) := by
  induction hlen : text.length using Nat.strong_induction_on generalizing text with
  | _ n ih =>
    rcases replaceAll_cases hold mark text with ⟨hb, hr⟩ | ⟨rest, htext, hr⟩
    · rw [hr]
      exact same text hb
    have hshort : rest.length < n := by
      have hpos := length_pos_of_ne_nil hold
      rw [← hlen, htext, length_append, length_append]
      omega
    rw [hr]
    exact split text rest _ htext (ih rest.length hshort rest rfl)

variable {t : List α} {olds : List (List α)}

lemma not_infix_replaceAll (h : Apart old mark) (text : List α) :
    ¬ old <:+: replaceAll old mark text := by
  have habsent := not_infix_before h.ne_nil
  refine replaceAll_induction (P := fun _ out => ¬ old <:+: out) h.ne_nil ?_ ?_ text
  · intro text hb
    rw [← hb]
    exact habsent text
  intro text rest out _ ih hin
  rcases h.infix_of_append hin with hleft | hright
  · exact habsent text hleft
  · exact ih hright

/-- What is there after the replacement was there before, in every context. -/
lemma infix_of_replaceAll (h : Apart t mark) (hold : old ≠ []) (text : List α) :
    ∀ u v, t <:+: u ++ (replaceAll old mark text ++ v) → t <:+: u ++ (text ++ v) := by
  refine replaceAll_induction
    (P := fun text out => ∀ u v, t <:+: u ++ (out ++ v) → t <:+: u ++ (text ++ v)) hold ?_ ?_ text
  · exact fun _ _ _ _ hin => hin
  intro text rest out htext ih u v hin
  rw [append_assoc, append_assoc, ← append_assoc] at hin
  rw [htext]
  rcases h.infix_of_append hin with hleft | hright
  · exact hleft.trans ⟨[], old ++ (rest ++ v), by simp⟩
  · exact (ih [] v hright).trans ⟨u ++ (before old text ++ old), [], by simp⟩

lemma infix_of_replaceEach (h : Apart t mark) (holds : ∀ old ∈ olds, old ≠ []) (text u v : List α)
    (hin : t <:+: u ++ (replaceEach mark olds text ++ v)) : t <:+: u ++ (text ++ v) := by
  induction olds generalizing text with
  | nil => exact hin
  | cons old olds ih =>
    have hrest := ih (fun o ho => holds o (mem_cons_of_mem _ ho)) (replaceAll old mark text) hin
    exact infix_of_replaceAll h (holds old mem_cons_self) text u v hrest

/-- **None of the texts is left**, and none comes back in a later turn. -/
theorem not_infix_replaceEach (hapart : ∀ old ∈ olds, Apart old mark) (text : List α) :
    ∀ old ∈ olds, ¬ old <:+: replaceEach mark olds text := by
  induction olds generalizing text with
  | nil => exact fun _ h => absurd h not_mem_nil
  | cons first olds ih =>
    obtain ⟨hfirst, hothers⟩ := forall_mem_cons.mp hapart
    refine forall_mem_cons.mpr ⟨fun hin => ?_, ih hothers _⟩
    have hback := infix_of_replaceEach hfirst (fun o ho => (hothers o ho).ne_nil)
      (replaceAll first mark text) [] [] (by simpa [replaceEach] using hin)
    exact not_infix_replaceAll hfirst text (by simpa using hback)

variable {s y : List α}

lemma before_eq_self_iff (ht : t ≠ []) (u : List α) : before t u = u ↔ ¬ t <:+: u := by
  constructor
  · intro hb hin
    rw [← hb] at hin
    exact not_infix_before ht u hin
  · intro hnot
    rcases replaceAll_cases ht [] u with ⟨hb, -⟩ | ⟨rest, hu, -⟩
    · exact hb
    · exact absurd ⟨before t u, rest, by rw [append_assoc, ← hu]⟩ hnot

lemma before_mark (h : Apart t mark) {m : List α} (hm : m <:+ mark) (v : List α) :
    before t (m ++ v) = m ++ before t v := by
  induction m with
  | nil => rfl
  | cons a m ih =>
    have hnot : ¬ t <+: a :: m ++ v := by
      intro hpre
      rcases prefix_or_prefix_of_prefix hpre (prefix_append (a :: m) v) with ht | ht
      · exact h.not_infix (ht.isInfix.trans hm.isInfix)
      · exact h.not_suffix _ ((mem_inits _ t).mpr ht) (cons_ne_nil a m) hm
    exact (if_neg hnot).trans (congrArg (a :: ·) (ih ((suffix_cons a m).trans hm)))

lemma before_append (h : Apart t mark) (u v : List α) : before t (u ++ (mark ++ v)) =
    if t <:+: u then before t u else u ++ (mark ++ before t v) := by
  induction u with
  | nil =>
    rw [if_neg fun hin => h.ne_nil (infix_nil.mp hin)]
    exact before_mark h suffix_rfl v
  | cons a u ih =>
    by_cases hhere : t <+: a :: u
    · have hthere : t <+: a :: (u ++ (mark ++ v)) := hhere.trans (prefix_append (a :: u) _)
      rw [if_pos hhere.isInfix]
      exact (if_pos hthere).trans (if_pos hhere).symm
    have hnot : ¬ t <+: a :: (u ++ (mark ++ v)) := fun hpre =>
      hhere (h.prefix_of_append suffix_rfl hpre)
    have hleft : before t (a :: u ++ (mark ++ v)) = a :: before t (u ++ (mark ++ v)) := if_neg hnot
    have hright : before t (a :: u) = a :: before t u := if_neg hhere
    have hin : t <:+: a :: u ↔ t <:+: u := infix_cons_iff.trans (or_iff_right hhere)
    rw [hleft, hright, ih]
    simp only [hin]
    split <;> rfl

lemma prefix_lead_append (hapart : ∀ old ∈ olds, Apart old mark) (hs : Apart s mark) (hy : y <:+ s)
    (u v : List α) : y <+: lead olds (u ++ (mark ++ v)) ↔ y <+: lead olds u := by
  induction olds generalizing u v with
  | nil => exact ⟨fun hpre => hs.prefix_of_append hy hpre, fun hpre => hpre.trans (prefix_append u _)⟩
  | cons old olds ih =>
    obtain ⟨hold, hothers⟩ := forall_mem_cons.mp hapart
    show y <+: lead olds (before old (u ++ (mark ++ v))) ↔ y <+: lead olds (before old u)
    rw [before_append hold]
    split
    case isTrue => exact Iff.rfl
    case isFalse hnot =>
      rw [(before_eq_self_iff hold.ne_nil u).mpr hnot]
      exact ih hothers u (before old v)

/-- **What the result begins with**, as far as it can be continued to a text that is apart from the
mark. -/
theorem prefix_replaceEach_iff (hapart : ∀ old ∈ olds, Apart old mark) (hs : Apart s mark)
    (hy : y <:+ s) (text : List α) : y <+: replaceEach mark olds text ↔ y <+: lead olds text := by
  induction olds generalizing text with
  | nil => exact Iff.rfl
  | cons old olds ih =>
    obtain ⟨hold, hothers⟩ := forall_mem_cons.mp hapart
    show y <+: replaceEach mark olds (replaceAll old mark text) ↔ y <+: lead olds (before old text)
    rw [ih hothers]
    rcases replaceAll_cases hold.ne_nil mark text with ⟨hb, hr⟩ | ⟨rest, -, hr⟩
    · rw [hb, hr]
    · rw [hr, prefix_lead_append hothers hs hy]

end Replace
