import Mathlib

/-!
# Paths with slashes

A path is cleaned without a look at the file system: empty names and `.` are dropped, and `..` takes
back the name in front of it.
-/

namespace Path

open List

/-- The names that are left, where `kept` has those so far, the last one first. -/
def resolve (rooted : Bool) : List (List Char) → List (List Char) → List (List Char)
  | kept, [] => kept.reverse
  | kept, name :: names =>
    if name = [] ∨ name = ['.'] then resolve rooted kept names
    else if name = ['.', '.'] then
      match kept with
      | [] => if rooted then resolve rooted [] names else resolve rooted [name] names
      | last :: kept =>
        if last = ['.', '.'] then resolve rooted (name :: last :: kept) names
        else resolve rooted kept names
    else resolve rooted (name :: kept) names

/-- The absolute path with the names. -/
def render (names : List (List Char)) : List Char := '/' :: ['/'].intercalate names

variable (path : List Char)

def isAbs : Bool := path.head? = some '/'

def clean : List Char :=
  let names := resolve (isAbs path) [] (path.splitOn '/')
  if isAbs path then render names
  else if names = [] then ['.']
  else ['/'].intercalate names

def components : List (List Char) := (path.splitOn '/').filter (· ≠ [])

/-- The second path is the first one, or in its directory. -/
def Within (p q : List Char) : Prop := components p <+: components q
  deriving Decidable

/-- What can be a name. -/
def IsName (name : List Char) : Prop := name ≠ [] ∧ '/' ∉ name

variable {name : List Char}

lemma not_mem_of_mem_splitOn {sep : Char} {path : List Char} (h : name ∈ path.splitOn sep) :
    sep ∉ name := by
  induction path generalizing name with
  | nil =>
    obtain rfl := mem_singleton.mp h
    exact not_mem_nil
  | cons c path ih =>
    rw [splitOn_cons_eq_if_modifyHead] at h
    split at h
    case isTrue =>
      rcases mem_cons.mp h with rfl | h
      · exact not_mem_nil
      · exact ih h
    case isFalse hc =>
      cases hsplit : path.splitOn sep with
      | nil => exact absurd hsplit (splitOn_ne_nil _ _)
      | cons first rest =>
        rw [hsplit, modifyHead_cons] at h
        rw [hsplit] at ih
        rcases mem_cons.mp h with rfl | h
        · rw [mem_cons, not_or]
          exact ⟨fun heq => hc (beq_iff_eq.mpr heq.symm), ih mem_cons_self⟩
        · exact ih (mem_cons_of_mem _ h)

variable {names : List (List Char)}

lemma mem_resolve {rooted : Bool} {kept : List (List Char)}
    (h : name ∈ resolve rooted kept names) : name ∈ kept ∨ name ∈ names ∧ name ≠ [] := by
  induction names generalizing kept with
  | nil => exact .inl (mem_reverse.mp h)
  | cons first names ih =>
    have hnext {kept' : List (List Char)} (hkept : ∀ n ∈ kept', n ∈ kept ∨ n = first ∧ n ≠ [])
        (h : name ∈ resolve rooted kept' names) : name ∈ kept ∨ name ∈ first :: names ∧ name ≠ [] := by
      rcases ih h with h | ⟨h, hne⟩
      · refine (hkept name h).imp_right fun ⟨heq, hne⟩ => ⟨heq ▸ mem_cons_self, hne⟩
      · exact .inr ⟨mem_cons_of_mem _ h, hne⟩
    unfold resolve at h
    split at h
    case isTrue => exact hnext (fun n hn => .inl hn) h
    case isFalse hfirst =>
      have hpush {kept' : List (List Char)} (hkept : ∀ n ∈ kept', n ∈ kept) :
          ∀ n ∈ first :: kept', n ∈ kept ∨ n = first ∧ n ≠ [] :=
        forall_mem_cons.mpr ⟨.inr ⟨rfl, fun hnil => hfirst (.inl hnil)⟩, fun n hn => .inl (hkept n hn)⟩
      split at h
      case isTrue =>
        cases kept with
        | nil =>
          dsimp only at h
          split at h
          · exact hnext (fun n hn => .inl hn) h
          · exact hnext (hpush fun n hn => hn) h
        | cons last kept =>
          dsimp only at h
          split at h
          · exact hnext (hpush fun n hn => hn) h
          · exact hnext (fun n hn => .inl (mem_cons_of_mem _ hn)) h
      case isFalse => exact hnext (hpush fun n hn => hn) h

lemma isName_of_mem_resolve {rooted : Bool} {path : List Char}
    (h : name ∈ resolve rooted [] (path.splitOn '/')) : IsName name := by
  rcases mem_resolve h with h | ⟨h, hne⟩
  · exact absurd h not_mem_nil
  · exact ⟨hne, not_mem_of_mem_splitOn h⟩

lemma components_render (hnames : ∀ name ∈ names, IsName name) :
    components (render names) = names := by
  have hkeep : names.filter (· ≠ []) = names :=
    filter_eq_self.mpr fun name hname => decide_eq_true (hnames name hname).1
  unfold components render
  rw [splitOn_cons_eq_if_modifyHead, if_pos (by decide), filter_cons_of_neg (by simp)]
  cases names with
  | nil => rfl
  | cons name names =>
    rw [splitOn_intercalate '/' (fun n hn => (hnames n hn).2) (cons_ne_nil _ _), hkeep]

lemma isAbs_intercalate (hnames : ∀ name ∈ names, IsName name) :
    isAbs (['/'].intercalate names) = false := by
  refine decide_eq_false fun hhead => ?_
  cases names with
  | nil => cases hhead
  | cons name names =>
    obtain ⟨hne, hslash⟩ := hnames name mem_cons_self
    obtain ⟨c, rest, rfl⟩ := exists_cons_of_ne_nil hne
    have hc : (['/'].intercalate ((c :: rest) :: names)).head? = some c := by
      cases names <;> rfl
    obtain rfl := Option.some.inj (hc.symm.trans hhead)
    exact hslash mem_cons_self

lemma clean_eq_render {path : List Char} (h : isAbs (clean path) = true) :
    clean path = render (components (clean path)) := by
  have hnames : ∀ name ∈ resolve (isAbs path) [] (path.splitOn '/'), IsName name :=
    fun name hname => isName_of_mem_resolve hname
  unfold clean at h ⊢
  dsimp only at h ⊢
  split at h
  case isTrue habs => rw [if_pos habs, components_render hnames]
  case isFalse habs =>
    split at h
    case isTrue => cases h
    case isFalse => exact absurd (h.symm.trans (isAbs_intercalate hnames)) nofun

end Path
