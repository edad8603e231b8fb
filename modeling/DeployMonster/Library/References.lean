import DeployMonster.Library.Replace

/-!
# References in texts

A reference in a text is an opening, a name, and the letter that closes it. Two ways to replace
references by values are compared: one pass from left to right, and a search that begins at the left
again after every replacement.
-/

namespace References

open List Replace

variable {α : Type*} [DecidableEq α]

/-- The position of the first occurrence. -/
def indexOf? (pat : List α) : List α → Option ℕ
  | [] => if pat = [] then some 0 else none
  | a :: text => if pat <+: a :: text then some 0 else (indexOf? pat text).map (· + 1)

lemma indexOf?_eq {pat : List α} (hpat : pat ≠ []) (text : List α) :
    indexOf? pat text = if pat <:+: text then some (before pat text).length else none := by
  induction text with
  | nil =>
    rw [if_neg fun h => hpat (infix_nil.mp h)]
    exact if_neg hpat
  | cons a text ih =>
    rw [indexOf?, before]
    by_cases hhere : pat <+: a :: text
    · rw [if_pos hhere, if_pos hhere, if_pos hhere.isInfix, length_nil]
    have hin : pat <:+: a :: text ↔ pat <:+: text := infix_cons_iff.trans (or_iff_right hhere)
    rw [if_neg hhere, if_neg hhere, ih, length_cons]
    simp only [hin]
    split <;> rfl

variable {text : List α}

lemma exists_eq_before {pat : List α} (hpat : pat ≠ []) (h : pat <:+: text) :
    ∃ rest, text = before pat text ++ (pat ++ rest) := by
  rcases replaceAll_cases hpat [] text with ⟨hb, -⟩ | ⟨rest, htext, -⟩
  · exact absurd h ((before_eq_self_iff hpat text).mp hb)
  · exact ⟨rest, htext⟩

lemma before_isPrefix_of (pat u w : List α) : before pat (u ++ (pat ++ w)) <+: u := by
  induction u with
  | nil =>
    cases pat with
    | nil =>
      cases w with
      | nil => exact prefix_rfl
      | cons a w => rw [nil_append, nil_append, before, if_pos nil_prefix]
    | cons a pat =>
      have hbefore : before (a :: pat) (a :: pat ++ w) = [] := if_pos (prefix_append _ w)
      rw [nil_append, hbefore]
  | cons a u ih =>
    rw [cons_append, before]
    split
    · exact nil_prefix
    · exact (prefix_cons_inj a).mpr ih

variable {opening : List α} {close : α}

/-- The first reference of the text, with what is in front of it and behind it. -/
structure First (opening : List α) (close : α) (text pre name rest : List α) : Prop where
  text_eq : text = pre ++ (opening ++ (name ++ close :: rest))
  before_eq : before opening text = pre
  close_notMem : close ∉ name

def HasReference (opening : List α) (close : α) (text : List α) : Prop :=
  ∃ pre name rest, First opening close text pre name rest

variable {pre name rest : List α}

lemma First.not_infix (hopening : opening ≠ [])
    (h : First opening close text pre name rest) : ¬ opening <:+: pre :=
  h.before_eq ▸ not_infix_before hopening text

lemma First.length_lt (h : First opening close text pre name rest) : rest.length < text.length := by
  rw [h.text_eq]
  simp only [length_append, length_cons]
  omega

variable {u : List α}

lemma hasReference_of_mem {w : List α} (hopening : opening ≠ [])
    (htext : text = u ++ (opening ++ w)) (hclose : close ∈ w) : HasReference opening close text := by
  obtain ⟨v, hv⟩ := exists_eq_before hopening (⟨u, w, by rw [htext, append_assoc]⟩ : opening <:+: text)
  have hsuffix : w <:+ v := by
    have hlen : (before opening text).length ≤ u.length := by
      rw [htext]
      exact (before_isPrefix_of opening u w).length_le
    have hcount := congrArg length (hv.symm.trans htext)
    have hw : w <:+ text := ⟨u ++ opening, by rw [htext, append_assoc]⟩
    have hv' : v <:+ text := ⟨before opening text ++ opening, by rw [append_assoc, ← hv]⟩
    refine suffix_of_suffix_length_le hw hv' ?_
    simp only [length_append] at hcount
    omega
  obtain ⟨name, rest, hsplit, hname⟩ := eq_append_cons_of_mem (hsuffix.subset hclose)
  exact ⟨_, name, rest, hsplit ▸ hv, rfl, hname⟩

/-- No opening begins in the text, whatever follows it. -/
def Passed (opening u : List α) : Prop := ∀ w, before opening (u ++ w) = u ++ before opening w

lemma passed_nil : Passed opening [] := fun _ => rfl

lemma Passed.append_value {value : List α} (h : Passed opening u)
    (hpre : ¬ opening <:+: pre) (hvalue : Apart opening value) :
    Passed opening (u ++ (pre ++ value)) := by
  intro w
  rw [append_assoc, append_assoc, h, before_append hvalue, if_neg hpre]
  simp only [append_assoc]

/-- **What is passed does not matter for the first reference.** -/
theorem Passed.first_iff (h : Passed opening u) :
    First opening close (u ++ text) (u ++ pre) name rest ↔
      First opening close text pre name rest := by
  constructor
  · rintro ⟨htext, hbefore, hname⟩
    rw [append_assoc] at htext
    rw [h] at hbefore
    exact ⟨append_cancel_left htext, append_cancel_left hbefore, hname⟩
  · rintro ⟨htext, hbefore, hname⟩
    exact ⟨by rw [append_assoc, ← htext], by rw [h, hbefore], hname⟩

lemma Passed.hasReference_iff (h : Passed opening u) :
    HasReference opening close (u ++ text) ↔ HasReference opening close text := by
  constructor
  · rintro ⟨pre, name, rest, hfirst⟩
    have hpre : pre = u ++ before opening text := by rw [← hfirst.before_eq, h]
    rw [hpre] at hfirst
    exact ⟨_, name, rest, h.first_iff.mp hfirst⟩
  · rintro ⟨pre, name, rest, hfirst⟩
    exact ⟨u ++ pre, name, rest, h.first_iff.mpr hfirst⟩

/-- The references of the text, whose names are given in their order, are replaced by their values, and
nothing else is changed. -/
inductive Substitutes (opening : List α) (close : α) (value : List α → Option (List α)) :
    List α → List (List α) → List α → Prop
  | done {text : List α} (h : ¬ HasReference opening close text) :
      Substitutes opening close value text [] text
  | step {text pre name rest v out : List α} {names : List (List α)}
      (h : First opening close text pre name rest) (hvalue : value name = some v)
      (hrest : Substitutes opening close value rest names out) :
      Substitutes opening close value text (name :: names) (pre ++ (v ++ out))

/-! ## Values that take part in an opening -/

variable {t : List α}

omit [DecidableEq α] in
/-- **A value that is not apart from the opening completes it** between a beginning and an end of the
opening. -/
theorem exists_of_not_apart {v : List α} (hlen : 2 ≤ t.length) (h : ¬ Apart t v) :
    ∃ x y, (x <+: t ∧ x ≠ t) ∧ (y <:+ t ∧ y ≠ t) ∧ t <:+: x ++ (v ++ y) := by
  have hne : ([] : List α) ≠ t := by
    rintro rfl
    simp at hlen
  by_contra hnone
  have hapart : ∀ x y, x <+: t → x ≠ t → y <:+ t → y ≠ t → ¬ t <:+: x ++ (v ++ y) :=
    fun x y hx hxt hy hyt hin => hnone ⟨x, y, ⟨hx, hxt⟩, ⟨hy, hyt⟩, hin⟩
  refine h ⟨fun hin => ?_, ?_, fun x hx hx0 hsuffix => ?_, fun y hy hy0 hprefix => ?_⟩
  · exact hapart [] [] nil_prefix hne nil_suffix hne (by simpa using hin)
  · rintro ⟨x, y, hxy⟩
    by_cases hv : v = []
    · obtain ⟨a, b, t', rfl⟩ : ∃ a b t', t = a :: b :: t' := by
        match t, hlen with
        | a :: b :: t', _ => exact ⟨a, b, t', rfl⟩
      refine hapart [a] (b :: t') ⟨b :: t', rfl⟩ (by simp) ⟨[a], rfl⟩ ?_ ?_
      · exact fun heq => by simpa using congrArg length heq
      · rw [hv]
        exact infix_rfl
    · have hpos := length_pos_of_ne_nil hv
      have hlens := congrArg length hxy
      simp only [length_append] at hlens
      refine hapart x y ⟨v ++ y, by rw [← append_assoc, hxy]⟩ ?_ ⟨x ++ v, hxy⟩ ?_ ?_
      · rintro rfl
        omega
      · rintro rfl
        omega
      · rw [← append_assoc, hxy]
  · obtain ⟨y, hy⟩ := (mem_inits x t).mp hx
    refine hapart [] y nil_prefix hne ⟨x, hy⟩ ?_ ?_
    · rintro rfl
      exact hx0 (by simpa using hy)
    · obtain ⟨v', rfl⟩ := hsuffix
      exact ⟨v', [], by rw [nil_append, append_nil, append_assoc, hy]⟩
  · obtain ⟨x, hx⟩ := (mem_tails y t).mp hy
    refine hapart x [] ⟨y, hx⟩ ?_ nil_suffix hne ?_
    · rintro rfl
      exact hy0 (by simpa using hx)
    · obtain ⟨v', rfl⟩ := hprefix
      exact ⟨[], v', by rw [nil_append, append_nil, ← append_assoc, hx]⟩

/-- An opening of which no end is a beginning. -/
def Unbordered (t : List α) : Prop := ∀ z ∈ t.inits, z <:+ t → z = [] ∨ z = t

instance (t : List α) : Decidable (Unbordered t) := inferInstanceAs (Decidable (∀ z ∈ t.inits, _))

lemma before_of_unbordered {x : List α} (ht : Unbordered t) (hx : x <+: t) (hxt : x ≠ t)
    (w : List α) : before t (x ++ (t ++ w)) = x := by
  have hnil : t ≠ [] := by
    rintro rfl
    exact hxt (prefix_nil.mp hx)
  suffices hends : ∀ u, u <:+ x → before t (u ++ (t ++ w)) = u from hends x suffix_rfl
  intro u hu
  induction u with
  | nil =>
    obtain ⟨a, t', rfl⟩ := exists_cons_of_ne_nil hnil
    exact if_pos (prefix_append _ w)
  | cons a u ih =>
    have hnot : ¬ t <+: a :: u ++ (t ++ w) := by
      intro hpre
      have hshort : (a :: u).length < t.length := by
        have hlt := hx.length_le.lt_of_ne fun heq => hxt (hx.eq_of_length heq)
        exact hu.length_le.trans_lt hlt
      obtain ⟨z, hz⟩ : a :: u <+: t :=
        prefix_of_prefix_length_le (prefix_append _ _) hpre hshort.le
      have hzt : z <+: t ++ w := by
        refine (prefix_append_right_inj (a :: u)).mp ?_
        rw [hz]
        exact hpre
      have hlens := congrArg length hz
      simp only [length_append, length_cons] at hlens hshort
      have hbegin : z <+: t := prefix_of_prefix_length_le hzt (prefix_append t w) (by omega)
      rcases ht z ((mem_inits z t).mpr hbegin) ⟨a :: u, hz⟩ with rfl | rfl
      · simp at hlens
        omega
      · omega
    exact (if_neg hnot).trans (congrArg (a :: ·) (ih ((suffix_cons a u).trans hu)))

/-- A text in which a reference stands between a beginning and an end of the opening has that reference
only, when its value is replaced in one pass. -/
lemma substitutes_between {x y v : List α} {value : List α → Option (List α)}
    (ht : Unbordered t) (hx : x <+: t ∧ x ≠ t) (hy : y <:+ t ∧ y ≠ t)
    (hname : close ∉ name) (hvalue : value name = some v) :
    Substitutes t close value (x ++ (t ++ (name ++ close :: (y ++ [close])))) [name]
      (x ++ (v ++ (y ++ [close]))) := by
  refine .step ⟨rfl, before_of_unbordered ht hx.1 hx.2 _, hname⟩ hvalue (.done ?_)
  rintro ⟨pre, name', rest, htext, -, -⟩
  have hshort : y.length < t.length :=
    hy.1.length_le.lt_of_ne fun heq => hy.2 (hy.1.eq_of_length heq)
  have hlens := congrArg length htext
  simp only [length_append, length_cons, length_nil] at hlens
  omega

end References
