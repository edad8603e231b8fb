import DeployMonster.Library.References
import DeployMonster.Secrets.Rotation

/-!
# Secrets in templates

`Resolve` and `ResolveAll` of `internal/secrets/module.go`. After each replacement `ResolveAll`
searches the whole result again. The loop has a bound on its rounds, and that it terminates is that
some bound suffices.
-/

namespace DeployMonster.Secrets

section

open DB References Replace List

variable {C N : Type}

structure Resolver (C : Type) extends Module C where
  secrets : Table Secret.id

def buildScopeHierarchy (scope : String) : List String :=
  let scopeType := String.ofList (scope.toList.takeWhile (· ≠ '/'))
  if scopeType = "global" then ["global"]
  else if scopeType = "tenant" ∨ scopeType = "project" ∨ scopeType = "app" then [scope, "global"]
  else [scope]

namespace Resolver

variable (m : Resolver C) (cipher : Cipher C N) (scope name : String)

/-- The loop of `Resolve` over the scopes that are left to try, with the last error. -/
def resolveIn : List String → Option String → Except String String
  | [], some lastErr => .error ("secret " ++ scope ++ "/" ++ name ++ ": " ++ lastErr)
  | [], none => .error ("secret " ++ scope ++ "/" ++ name ++ " not found in any scope")
  | tryScope :: scopes, _ =>
    match getSecretByScopeAndName m.secrets tryScope name with
    | .error e => resolveIn scopes (some e)
    | .ok secret =>
      match m.store.getLatestSecretVersion secret.id with
      | .error e => resolveIn scopes (some e)
      | .ok version =>
        match cipher.decrypt m.vault version.valueEnc with
        | .error e => .error ("decrypt secret: " ++ e)
        | .ok value => .ok value

def resolve : Except String String :=
  if m.hasStore then m.resolveIn cipher scope name (buildScopeHierarchy scope) none
  else .error ("secret " ++ scope ++ "/" ++ name ++ ": not found (store not initialized)")

end Resolver

/-! ## The loop over a template -/

def secretOpening : List Char := "$\x7bSECRET:".toList

def secretClose : Char := '\x7d'

variable (resolve : String → Except String String) (quote : String → String)

/-- The rounds of `ResolveAll`, where `quote` is the verb `%q`: the names that are looked up, and the
result. -/
def resolveAllLoop : ℕ → List Char → Option (List String × Except String (List Char))
  | 0, _ => none
  | fuel + 1, result =>
    match indexOf? secretOpening result with
    | none => some ([], .ok result)
    | some idx =>
      match indexOf? [secretClose] (result.drop idx) with
      | none => some ([], .ok result)
      | some stop =>
        let ref := String.ofList ((result.drop (idx + 9)).take (stop - 9))
        match resolve ref with
        | .error e => some ([ref], .error ("resolve secret " ++ quote ref ++ ": " ++ e))
        | .ok value =>
          let result := result.take idx ++ (value.toList ++ result.drop (idx + stop + 1))
          (resolveAllLoop fuel result).map fun (refs, out) => (ref :: refs, out)

/-- `ResolveAll`, in at most so many rounds. -/
def Resolver.resolveAll (m : Resolver C) (cipher : Cipher C N) (quote : String → String)
    (scope template : String) (fuel : ℕ) : Option (List String × Except String (List Char)) :=
  resolveAllLoop (m.resolve cipher scope) quote fuel template.toList

variable {resolve : String → Except String String} {quote : String → String}
  {text pre name rest : List Char}

lemma indexOf?_close {u w : List Char} (h : secretClose ∉ u) :
    indexOf? [secretClose] (u ++ secretClose :: w) = some u.length := by
  induction u with
  | nil => exact if_pos ⟨w, rfl⟩
  | cons a u ih =>
    have hne : secretClose ≠ a := fun heq => h (heq ▸ mem_cons_self)
    have hu : secretClose ∉ u := fun hmem => h (mem_cons_of_mem a hmem)
    have hnot : ¬ [secretClose] <+: a :: (u ++ secretClose :: w) := by
      rw [cons_prefix_cons]
      exact fun heq => hne heq.1
    rw [cons_append, indexOf?, if_neg hnot, ih hu]
    rfl

lemma indexOf?_close_of_notMem (h : secretClose ∉ text) : indexOf? [secretClose] text = none := by
  rw [indexOf?_eq (cons_ne_nil _ _), if_neg]
  exact fun hin => h (hin.subset (mem_singleton_self _))

lemma close_notMem_opening : secretClose ∉ secretOpening := by decide

/-- **A round with a reference** looks it up, and puts the value in its place. -/
theorem resolveAllLoop_of_first (h : First secretOpening secretClose text pre name rest) (fuel : ℕ) :
    resolveAllLoop resolve quote (fuel + 1) text =
      match resolve (String.ofList name) with
      | .error e => some ([String.ofList name],
          .error ("resolve secret " ++ quote (String.ofList name) ++ ": " ++ e))
      | .ok value => (resolveAllLoop resolve quote fuel (pre ++ (value.toList ++ rest))).map
          fun (refs, out) => (String.ofList name :: refs, out) := by
  have hopening : indexOf? secretOpening text = some pre.length := by
    rw [indexOf?_eq (by decide), if_pos, h.before_eq]
    exact ⟨pre, name ++ secretClose :: rest, by rw [h.text_eq, append_assoc]⟩
  have hdrop : text.drop pre.length = (secretOpening ++ name) ++ secretClose :: rest := by
    rw [h.text_eq, drop_left, append_assoc]
  have hclose : indexOf? [secretClose] (text.drop pre.length) = some (9 + name.length) := by
    rw [hdrop, indexOf?_close, length_append]
    · rfl
    · exact fun hmem => (mem_append.mp hmem).elim close_notMem_opening h.close_notMem
  have hname : (text.drop (pre.length + 9)).take (9 + name.length - 9) = name := by
    rw [← drop_drop, hdrop, append_assoc, Nat.add_sub_cancel_left]
    exact take_left
  have hrest : text.drop (pre.length + (9 + name.length) + 1) = rest := by
    rw [Nat.add_assoc, ← drop_drop, hdrop, ← drop_drop]
    have hlen : 9 + name.length = (secretOpening ++ name).length := by
      rw [length_append]
      rfl
    rw [hlen, drop_left]
    rfl
  have htake : text.take pre.length = pre := by
    rw [h.text_eq, take_left]
  rw [resolveAllLoop, hopening]
  dsimp only
  rw [hclose]
  dsimp only
  rw [hname, hrest, htake]

lemma resolveAllLoop_of_none (h : ¬ HasReference secretOpening secretClose text) (fuel : ℕ) :
    resolveAllLoop resolve quote (fuel + 1) text = some ([], .ok text) := by
  rw [resolveAllLoop, indexOf?_eq (by decide)]
  by_cases hin : secretOpening <:+: text
  · obtain ⟨w, hw⟩ := exists_eq_before (by decide) hin
    have hnot : secretClose ∉ w := fun hmem => h (hasReference_of_mem (by decide) hw hmem)
    have hnone : indexOf? [secretClose] (text.drop (before secretOpening text).length) = none := by
      refine indexOf?_close_of_notMem ?_
      rw [hw, drop_left' (by rw [← hw])]
      exact fun hmem => (mem_append.mp hmem).elim close_notMem_opening hnot
    rw [if_pos hin]
    dsimp only
    rw [hnone]
  · rw [if_neg hin]

lemma not_hasReference_of_resolveAllLoop {fuel : ℕ} {refs : List String} {out : List Char}
    (h : resolveAllLoop resolve quote fuel text = some (refs, .ok out)) :
    ¬ HasReference secretOpening secretClose out := by
  induction fuel generalizing text refs with
  | zero => cases h
  | succ fuel ih =>
    by_cases href : HasReference secretOpening secretClose text
    · obtain ⟨pre, name, rest, hfirst⟩ := href
      rw [resolveAllLoop_of_first hfirst] at h
      cases hvalue : resolve (String.ofList name) with
      | error e =>
        rw [hvalue] at h
        cases h
      | ok value =>
        rw [hvalue] at h
        obtain ⟨⟨refs', out'⟩, hloop, heq⟩ := Option.map_eq_some_iff.mp h
        obtain ⟨-, rfl⟩ := Prod.mk.inj heq
        exact ih hloop
    · rw [resolveAllLoop_of_none href] at h
      cases h
      exact href

/-! ## One pass through the template -/

def valueOf (resolve : String → Except String String) (name : List Char) : Option (List Char) :=
  (resolve (String.ofList name)).toOption.map String.toList

/-- Every value that a reference can get is apart from the opening of a reference. -/
def ValuesApart (resolve : String → Except String String) : Prop :=
  ∀ name value, secretClose ∉ name.toList → resolve name = .ok value →
    Apart secretOpening value.toList

variable {u w : List Char}

lemma valueOf_eq_some {v : List Char} :
    valueOf resolve name = some v ↔ ∃ value, resolve (String.ofList name) = .ok value ∧
      value.toList = v := by
  rw [valueOf]
  cases resolve (String.ofList name) with
  | error | ok => simp [Except.toOption]

lemma ValuesApart.passed (h : ValuesApart resolve) (hu : Passed secretOpening u)
    (hfirst : First secretOpening secretClose w pre name rest)
    {value : String} (hvalue : resolve (String.ofList name) = .ok value) :
    Passed secretOpening (u ++ (pre ++ value.toList)) := by
  refine hu.append_value (hfirst.not_infix (by decide)) (h _ value ?_ hvalue)
  rw [String.toList_ofList]
  exact hfirst.close_notMem

lemma ValuesApart.terminates (h : ValuesApart resolve) (hu : Passed secretOpening u) {fuel : ℕ}
    (hfuel : w.length < fuel) : ∃ r, resolveAllLoop resolve quote fuel (u ++ w) = some r := by
  induction fuel generalizing u w with
  | zero => exact absurd hfuel (Nat.not_lt_zero _)
  | succ fuel ih =>
    by_cases href : HasReference secretOpening secretClose w
    · obtain ⟨pre, name, rest, hfirst⟩ := href
      rw [resolveAllLoop_of_first (hu.first_iff.mpr hfirst)]
      cases hvalue : resolve (String.ofList name) with
      | error e => exact ⟨_, rfl⟩
      | ok value =>
        obtain ⟨r, hr⟩ := ih (h.passed hu hfirst hvalue)
          (Nat.lt_of_lt_of_le hfirst.length_lt (Nat.le_of_lt_succ hfuel))
        have hassoc : u ++ pre ++ (value.toList ++ rest) = u ++ (pre ++ value.toList) ++ rest := by
          simp only [append_assoc]
        dsimp only
        rw [hassoc, hr]
        exact ⟨_, rfl⟩
    · exact ⟨_, resolveAllLoop_of_none (mt hu.hasReference_iff.mp href) fuel⟩

lemma ValuesApart.resolveAllLoop_eq (h : ValuesApart resolve) {names : List (List Char)}
    {out : List Char} (hsubst : Substitutes secretOpening secretClose (valueOf resolve) w names out)
    (hu : Passed secretOpening u) :
    resolveAllLoop resolve quote (names.length + 1) (u ++ w) =
      some (names.map String.ofList, .ok (u ++ out)) := by
  induction hsubst generalizing u with
  | done hnone => exact resolveAllLoop_of_none (mt hu.hasReference_iff.mp hnone) 0
  | @step w pre name rest v out names hfirst hvalue _ ih =>
    obtain ⟨value, hresolve, rfl⟩ := valueOf_eq_some.mp hvalue
    have hloop := ih (h.passed hu hfirst hresolve)
    simp only [append_assoc] at hloop
    rw [length_cons, resolveAllLoop_of_first (hu.first_iff.mpr hfirst), hresolve]
    dsimp only
    rw [append_assoc, hloop]
    rfl

/-- `ResolveAll` terminates. When every reference of the template resolves, it looks up these and no
others, and the result is the template with their values in their places. -/
def ReplacesOnce (m : Resolver C) (cipher : Cipher C N) (quote : String → String)
    (scope template : String) : Prop :=
  (∃ fuel r, m.resolveAll cipher quote scope template fuel = some r) ∧
    ∀ names out, Substitutes secretOpening secretClose (valueOf (m.resolve cipher scope))
        template.toList names out →
      ∃ fuel, m.resolveAll cipher quote scope template fuel =
        some (names.map String.ofList, .ok out)

/-- **Every template is resolved in one pass exactly when** no value that it can refer to is a part of
the opening of a reference, contains it, or shares an end with it. -/
theorem replacesOnce_iff (m : Resolver C) (cipher : Cipher C N) (quote : String → String)
    (scope : String) : (∀ template, ReplacesOnce m cipher quote scope template) ↔
      ValuesApart (m.resolve cipher scope) := by
  constructor
  · intro h name value hname hvalue
    by_contra hapart
    obtain ⟨x, y, hx, hy, u, w, hin⟩ := exists_of_not_apart (by decide) hapart
    have hsubst : Substitutes secretOpening secretClose (valueOf (m.resolve cipher scope))
        (String.ofList (x ++ (secretOpening ++ (name.toList ++
          secretClose :: (y ++ [secretClose]))))).toList
        [name.toList] (x ++ (value.toList ++ (y ++ [secretClose]))) := by
      rw [String.toList_ofList]
      refine substitutes_between (by decide) hx hy hname (valueOf_eq_some.mpr ⟨value, ?_, rfl⟩)
      rwa [String.ofList_toList]
    obtain ⟨fuel, hloop⟩ := (h _).2 _ _ hsubst
    refine not_hasReference_of_resolveAllLoop hloop ?_
    refine hasReference_of_mem (u := u) (w := w ++ [secretClose]) (by decide) ?_ (by simp)
    have hjoin : x ++ (value.toList ++ (y ++ [secretClose])) =
        x ++ (value.toList ++ y) ++ [secretClose] := by
      simp only [append_assoc]
    rw [hjoin, ← hin]
    simp only [append_assoc]
  · intro h template
    refine ⟨⟨_, h.terminates passed_nil (Nat.lt_succ_self _)⟩, fun names out hsubst => ?_⟩
    exact ⟨_, h.resolveAllLoop_eq hsubst passed_nil⟩

def oneSecret (value : String) : Resolver (Vault × String) where
  hasStore := true
  store := ⟨[⟨"v1", "s1", 1, (newLegacyVault "master", value)⟩], by simp⟩
  kv := none
  vault := newLegacyVault "master"
  masterSecret := "master"
  secrets := ⟨[⟨"s1", "global", "TOKEN"⟩], by simp⟩

lemma resolve_oneSecret {value name v : String} :
    (oneSecret value).resolve sealing "global" name = .ok v ↔ name = "TOKEN" ∧ value = v := by
  by_cases hname : name = "TOKEN"
  · have hok : (oneSecret value).resolve sealing "global" "TOKEN" = .ok value := rfl
    rw [hname, hok, and_iff_right rfl, Except.ok.injEq]
  refine iff_of_false ?_ fun h => hname h.1
  have hnone : getSecretByScopeAndName (oneSecret value).secrets "global" name =
      .error ("secret " ++ "global" ++ "/" ++ name ++ " not found") := by
    simp [getSecretByScopeAndName, oneSecret, Ne.symm hname]
  show Resolver.resolveIn _ sealing "global" name ["global"] none ≠ _
  rw [Resolver.resolveIn, hnone]
  rintro ⟨⟩

theorem replacesOnce_iff_oneSecret : ValuesApart ((oneSecret "hunter2").resolve sealing "global") ∧
    ∀ template, ReplacesOnce (oneSecret "hunter2") sealing String.quote "global" template := by
  have hapart : ValuesApart ((oneSecret "hunter2").resolve sealing "global") := by
    intro name value _ hvalue
    obtain ⟨-, rfl⟩ := resolve_oneSecret.mp hvalue
    decide
  exact ⟨hapart, (replacesOnce_iff _ _ _ _).mpr hapart⟩

/-- A secret whose value refers to itself is replaced by itself forever. -/
theorem resolveAll_never_ends :
    (oneSecret "$\x7bSECRET:TOKEN\x7d").resolve sealing "global" "TOKEN" =
        .ok "$\x7bSECRET:TOKEN\x7d" ∧
      (∀ fuel, (oneSecret "$\x7bSECRET:TOKEN\x7d").resolveAll sealing String.quote "global"
        "$\x7bSECRET:TOKEN\x7d" fuel = none) ∧
      ¬ ReplacesOnce (oneSecret "$\x7bSECRET:TOKEN\x7d") sealing String.quote "global"
        "$\x7bSECRET:TOKEN\x7d" := by
  have hresolve : (oneSecret "$\x7bSECRET:TOKEN\x7d").resolve sealing "global" "TOKEN" =
      .ok "$\x7bSECRET:TOKEN\x7d" := resolve_oneSecret.mpr ⟨rfl, rfl⟩
  have hnever : ∀ fuel, (oneSecret "$\x7bSECRET:TOKEN\x7d").resolveAll sealing String.quote "global"
      "$\x7bSECRET:TOKEN\x7d" fuel = none := by
    intro fuel
    induction fuel with
    | zero => rfl
    | succ fuel ih =>
      have hfirst : First secretOpening secretClose "$\x7bSECRET:TOKEN\x7d".toList [] "TOKEN".toList
          [] := ⟨by decide, by decide, by decide⟩
      rw [Resolver.resolveAll, resolveAllLoop_of_first hfirst, String.ofList_toList, hresolve]
      dsimp only
      rw [append_nil, nil_append]
      exact congrArg (Option.map _) ih
  refine ⟨hresolve, hnever, ?_⟩
  rintro ⟨⟨fuel, r, hr⟩, -⟩
  rw [hnever fuel] at hr
  cases hr

end

/-!
# The fallback to the global scope

The loop of `Resolve` of `internal/secrets/module.go` over any answers of the store. An error of a
lookup or of a version is remembered, and the next scope is tried all the same, so that a global
value can take the place of a secret that could not be read.
-/

open DB

/-- The error of a lookup. -/
inductive LookupError
  /-- `core.ErrNotFound` or `sql.ErrNoRows`. -/
  | sentinel
  /-- There is no such row, in the words of the store. -/
  | missing (text : String)
  | failed (text : String)

/-- What the store answers: the id of the secret of a scope and a name, and its latest version. -/
structure Answers (C : Type) where
  secret : String → String → Except LookupError (Option String)
  version : String → Except String (Option C)

/-- What a round of the loop comes to. The next scope is tried after the first two. -/
inductive Found
  /-- There is no such secret in the scope. -/
  | absent (err : Option String)
  /-- The lookup fails, or the latest version cannot be read. -/
  | unreadable (err : String)
  | undecryptable (err : String)
  | value (value : String)

namespace Answers

variable {C : Type} (store : Answers C) (decrypt : C → Except String String) (scope name : String)

/-- The body of the loop. -/
def tryScope (scope : String) : Found :=
  match store.secret scope name with
  | .error .sentinel | .ok none => .absent none
  | .error (.missing e) => .absent (some e)
  | .error (.failed e) => .unreadable e
  | .ok (some id) =>
    match store.version id with
    | .error e => .unreadable e
    | .ok none => .unreadable ("no versions found for secret " ++ id)
    | .ok (some valueEnc) =>
      match decrypt valueEnc with
      | .error e => .undecryptable e
      | .ok value => .value value

/-- The loop of `Resolve`, with the scope that the value is from. -/
def resolveIn : List String → Option String → Except String (String × String)
  | [], some lastErr => .error ("secret " ++ scope ++ "/" ++ name ++ ": " ++ lastErr)
  | [], none => .error ("secret " ++ scope ++ "/" ++ name ++ " not found in any scope")
  | s :: scopes, lastErr =>
    match store.tryScope decrypt name s with
    | .absent err => resolveIn scopes (err.or lastErr)
    | .unreadable err => resolveIn scopes (some err)
    | .undecryptable err => .error ("decrypt secret: " ++ err)
    | .value value => .ok (s, value)

def resolve : Except String (String × String) :=
  store.resolveIn decrypt scope name (buildScopeHierarchy scope) none

variable {store decrypt scope name}

/-- The lookup answers that there is no such secret in the scope. -/
def Absent (store : Answers C) (name scope : String) : Prop :=
  store.secret scope name = .error .sentinel ∨ store.secret scope name = .ok none ∨
    ∃ e, store.secret scope name = .error (.missing e)

/-- The lookup fails for another reason, or the secret has no latest version that can be read. -/
def Unreadable (store : Answers C) (name scope : String) : Prop :=
  (∃ e, store.secret scope name = .error (.failed e)) ∨
    ∃ id, store.secret scope name = .ok (some id) ∧
      (store.version id = .ok none ∨ ∃ e, store.version id = .error e)

/-- The latest version of the secret of the scope is decrypted to the value. -/
def Yields (store : Answers C) (decrypt : C → Except String String) (name scope value : String) :
    Prop :=
  ∃ id valueEnc, store.secret scope name = .ok (some id) ∧ store.version id = .ok (some valueEnc) ∧
    decrypt valueEnc = .ok value

/-- What a round of the loop comes to, by the answers of the store. -/
lemma tryScope_cases (store : Answers C) (decrypt : C → Except String String) (name scope : String) :
    ((∃ err, store.tryScope decrypt name scope = .absent err) ↔ store.Absent name scope) ∧
      ((∃ err, store.tryScope decrypt name scope = .unreadable err) ↔ store.Unreadable name scope) ∧
      ∀ value, store.tryScope decrypt name scope = .value value ↔
        store.Yields decrypt name scope value := by
  unfold Absent Unreadable Yields tryScope
  rcases store.secret scope name with (_ | _ | _) | (_ | id)
  case ok.some =>
    rcases hversion : store.version id with _ | _ | valueEnc
    · simp [hversion]
    · simp [hversion]
    · cases hvalue : decrypt valueEnc <;> simp [hversion, hvalue]
  all_goals simp

lemma exists_error_of_resolveIn_nil (lastErr : Option String) :
    ∃ e, store.resolveIn decrypt scope name [] lastErr = .error e := by
  cases lastErr <;> exact ⟨_, rfl⟩

lemma resolveIn_singleton (s : String) (lastErr : Option String) :
    (∃ e, store.resolveIn decrypt scope name [s] lastErr = .error e) ∧
        (∀ value, store.tryScope decrypt name s ≠ .value value) ∨
      ∃ value, store.tryScope decrypt name s = .value value ∧
        store.resolveIn decrypt scope name [s] lastErr = .ok (s, value) := by
  rw [resolveIn]
  cases store.tryScope decrypt name s with
  | absent | unreadable => exact .inl ⟨exists_error_of_resolveIn_nil _, by simp⟩
  | undecryptable err => exact .inl ⟨⟨_, rfl⟩, by simp⟩
  | value value => exact .inr ⟨value, rfl, rfl⟩

end Answers

/-- The part of a scope before the first slash. -/
def scopeKind (scope : String) : String := String.ofList (scope.toList.takeWhile (· ≠ '/'))

/-- The scopes that fall back to the global one. -/
def FallsBack (scope : String) : Prop := scopeKind scope ∈ ["tenant", "project", "app"]

/-- The scope that is asked for: every scope of the kind `global` is the global one. -/
def exactScope (scope : String) : String := if scopeKind scope = "global" then "global" else scope

lemma FallsBack.ne_global {scope : String} (h : FallsBack scope) : scope ≠ "global" := by
  rintro rfl
  exact absurd h (by unfold FallsBack; decide +kernel)

lemma FallsBack.exactScope_eq {scope : String} (h : FallsBack scope) : exactScope scope = scope := by
  refine if_neg fun hglobal => ?_
  rw [FallsBack, hglobal] at h
  exact absurd h (by decide)

lemma buildScopeHierarchy_of_fallsBack {scope : String} (h : FallsBack scope) :
    buildScopeHierarchy scope = [scope, "global"] := by
  have hglobal : scopeKind scope ≠ "global" := by
    intro hglobal
    rw [FallsBack, hglobal] at h
    exact absurd h (by decide)
  have hkind : scopeKind scope = "tenant" ∨ scopeKind scope = "project" ∨ scopeKind scope = "app" := by
    simpa [FallsBack] using h
  exact (if_neg hglobal).trans (if_pos hkind)

lemma buildScopeHierarchy_of_not_fallsBack {scope : String} (h : ¬FallsBack scope) :
    buildScopeHierarchy scope = [exactScope scope] := by
  have hkind : ¬(scopeKind scope = "tenant" ∨ scopeKind scope = "project" ∨
      scopeKind scope = "app") := by simpa [FallsBack] using h
  unfold exactScope
  split_ifs with hglobal
  · exact if_pos hglobal
  · exact (if_neg hglobal).trans (if_neg hkind)

/-- The global value is returned for another scope only where the secret is absent from that scope,
and an error where it is unreadable there. -/
def Unmasked {C : Type} (store : Answers C) (decrypt : C → Except String String)
    (scope name : String) : Prop :=
  (∀ value, store.resolve decrypt scope name = .ok ("global", value) → exactScope scope ≠ "global" →
    store.Absent name (exactScope scope)) ∧
  (store.Unreadable name (exactScope scope) → ∃ e, store.resolve decrypt scope name = .error e)

/-- **No secret is masked** by the global one exactly when the scope does not fall back, or its secret
is not unreadable, or the global scope yields no value. -/
theorem unmasked_iff {C : Type} (store : Answers C) (decrypt : C → Except String String)
    (scope name : String) :
    Unmasked store decrypt scope name ↔
      ¬(FallsBack scope ∧ store.Unreadable name scope ∧
        ∃ value, store.Yields decrypt name "global" value) := by
  obtain ⟨habsent, hunreadable, hyields⟩ := store.tryScope_cases decrypt name (exactScope scope)
  simp only [Unmasked, Answers.resolve, ← habsent, ← hunreadable,
    ← (store.tryScope_cases decrypt name "global").2.2]
  by_cases hfalls : FallsBack scope
  · rw [buildScopeHierarchy_of_fallsBack hfalls, Answers.resolveIn, hfalls.exactScope_eq]
    rw [hfalls.exactScope_eq] at hunreadable
    cases hexact : store.tryScope decrypt name scope with
    | absent err => simp [← hunreadable, hexact]
    | unreadable err =>
      simp only [hfalls, ← hunreadable, hexact]
      rcases @Answers.resolveIn_singleton _ store decrypt scope name "global" (some err) with
        ⟨⟨e, he⟩, hno⟩ | ⟨v, hv, h⟩
      · simp [he, hno]
      · simp [hv, h, hfalls.ne_global]
    | undecryptable err => simp [← hunreadable, hexact]
    | value value => simp [← hunreadable, hexact, hfalls.ne_global]
  · rw [buildScopeHierarchy_of_not_fallsBack hfalls]
    refine iff_of_true ?_ fun h => hfalls h.1
    rcases @Answers.resolveIn_singleton _ store decrypt scope name (exactScope scope) none with
      ⟨⟨e, he⟩, -⟩ | ⟨v, hv, h⟩
    · simp [he]
    · simp [h, hv]

/-- A global secret with the value `fallback`, and an answer to the lookup in the scope of a tenant. -/
def tenantStore (own : Except LookupError (Option String)) : Answers String where
  secret scope _ := if scope = "global" then .ok (some "s0") else own
  version id := if id = "s0" then .ok (some "fallback") else .error "database is locked"

/-- The lookup in the scope fails, or its version cannot be read: the global value is returned. -/
theorem resolve_masks :
    (tenantStore (.error (.failed "database is locked"))).resolve .ok "tenant/t1" "TOKEN" =
        .ok ("global", "fallback") ∧
      (tenantStore (.ok (some "s1"))).resolve .ok "tenant/t1" "TOKEN" =
        .ok ("global", "fallback") := by
  decide +kernel

def Resolver.answers {C : Type} (m : Resolver C) : Answers C where
  secret scope name := match getSecretByScopeAndName m.secrets scope name with
    | .error e => .error (.missing e)
    | .ok secret => .ok (some secret.id)
  version id := (m.store.getLatestSecretVersion id).map fun version => some version.valueEnc

/-- **The loop over the tables** is the loop over their answers. -/
theorem Resolver.resolveIn_eq_answers {C N : Type} (m : Resolver C) (cipher : Cipher C N)
    (scope name : String) (scopes : List String) (lastErr : Option String) :
    m.resolveIn cipher scope name scopes lastErr =
      (m.answers.resolveIn (cipher.decrypt m.vault) scope name scopes lastErr).map Prod.snd := by
  induction scopes generalizing lastErr with
  | nil => cases lastErr <;> rfl
  | cons s scopes ih =>
    rw [resolveIn, Answers.resolveIn, Answers.tryScope, answers]
    dsimp only
    rcases getSecretByScopeAndName m.secrets s name with e | secret
    · exact ih (some e)
    dsimp only
    rcases m.store.getLatestSecretVersion secret.id with e | version
    · exact ih (some e)
    · dsimp only [Except.map]
      rcases cipher.decrypt m.vault version.valueEnc with e | value <;> rfl

end DeployMonster.Secrets
