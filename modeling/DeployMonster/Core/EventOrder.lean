import DeployMonster.Core.EventBus

/-!
# The order of event handlers

`Publish` runs the synchronous handlers in the order of the list of subscriptions. `SubscribeNamed`
appends to the list, but `Unsubscribe` moves the last one to the place of the one it removes.
-/

namespace DeployMonster.Core

open StepMachine List Option Pool

variable {α β : Type} {p : α → Bool} {l : List α}

/-- The first element with the property is replaced by the last one. -/
def swapRemove (p : α → Bool) (l : List α) : List α :=
  match l.findIdx? p, l.getLast? with
  | some i, some last => (l.set i last).dropLast
  | _, _ => l

def jumped (p : α → Bool) (l : List α) : List α := (l.dropWhile fun x => !p x).tail.dropLast

lemma findIdx?_append_cons {l1 r : List α} {x : α} (hx : p x = true)
    (hl1 : ∀ y ∈ l1, p y = false) : (l1 ++ x :: r).findIdx? p = some l1.length := by
  rw [findIdx?_append, findIdx?_eq_none_iff.mpr hl1]
  simp [findIdx?_cons, hx]

lemma jumped_append_cons {l1 r : List α} {x : α} (hx : p x = true)
    (hl1 : ∀ y ∈ l1, p y = false) : jumped p (l1 ++ x :: r) = r.dropLast := by
  rw [jumped, dropWhile_append_of_pos fun y hy => by simp [hl1 y hy]]
  simp [hx]

/-- **What a removal does**: there is nothing to remove, or it is the last element, or the last element
comes before those after the removed one. -/
theorem swapRemove_cases (p : α → Bool) (l : List α) : (jumped p l = [] ∧ swapRemove p l = l) ∨
    (∃ l1 x, l = l1 ++ [x] ∧ jumped p l = [] ∧ swapRemove p l = l1) ∨
    ∃ l1 x l2 last, l = l1 ++ x :: (l2 ++ [last]) ∧ jumped p l = l2 ∧
      swapRemove p l = l1 ++ last :: l2 := by
  cases hfind : l.find? p with
  | none =>
    have hnone : ∀ y ∈ l, p y = false := by simpa using find?_eq_none.mp hfind
    refine .inl ⟨?_, ?_⟩
    · rw [jumped, dropWhile_eq_nil_iff.mpr fun y hy => by simp [hnone y hy]]
      rfl
    · rw [swapRemove, findIdx?_eq_none_iff.mpr hnone]
  | some x =>
    obtain ⟨hx, l1, r, rfl, hl1⟩ := find?_eq_some_iff_append.mp hfind
    have hl1 : ∀ y ∈ l1, p y = false := by simpa using hl1
    rcases eq_nil_or_concat' r with rfl | ⟨l2, last, rfl⟩
    · refine .inr (.inl ⟨l1, x, rfl, jumped_append_cons hx hl1, ?_⟩)
      simp [swapRemove, findIdx?_append_cons hx hl1]
    refine .inr (.inr ⟨l1, x, l2, last, rfl, ?_, ?_⟩)
    · rw [jumped_append_cons hx hl1, dropLast_concat]
    have hlast : (l1 ++ x :: (l2 ++ [last])).getLast? = some last := by
      rw [← cons_append, ← append_assoc, getLast?_concat]
    rw [swapRemove, findIdx?_append_cons hx hl1, hlast]
    dsimp only
    rw [set_append_right _ _ (le_refl _), Nat.sub_self, set_cons_zero,
      ← cons_append, ← append_assoc, dropLast_concat]

lemma swapRemove_map (f : α → β) (q : β → Bool) (l : List α) :
    swapRemove q (l.map f) = (swapRemove (fun x => q (f x)) l).map f := by
  simp only [swapRemove, findIdx?_map, getLast?_map, Function.comp_def]
  cases l.findIdx? (fun x => q (f x)) with
  | none => rfl
  | some i =>
    cases l.getLast? with
    | none => rfl
    | some last => simp [map_dropLast, map_set]

lemma perm_swapRemove (p : α → Bool) (l : List α) : ∃ r, l.Perm (swapRemove p l ++ r) := by
  rcases swapRemove_cases p l with ⟨-, h⟩ | ⟨l1, x, hl, -, h⟩ | ⟨l1, x, l2, last, hl, -, h⟩
  · exact ⟨[], by rw [h, append_nil]⟩
  · exact ⟨[x], by rw [h, hl]⟩
  refine ⟨[x], ?_⟩
  rw [h, hl, append_assoc]
  refine List.Perm.append_left l1 ?_
  have hlast : (x :: (l2 ++ [last])).Perm (x :: last :: l2) :=
    (perm_append_singleton last l2).cons x
  exact hlast.trans (perm_append_singleton x (last :: l2)).symm

lemma unsubscribe_subscriptions (eb : EventBus) (subID : String) :
    (eb.unsubscribe subID).1.subscriptions =
      swapRemove (fun sub => decide (sub.id = subID)) eb.subscriptions := by
  unfold EventBus.unsubscribe swapRemove
  cases eb.subscriptions.findIdx? (fun sub => decide (sub.id = subID)) with
  | none => rfl
  | some i => cases eb.subscriptions.getLast? <;> rfl

/-! ## Patterns -/

variable {sub sub' : Subscription} {eventType : String}

lemma cutSuffix_append (pre : List Char) (s : String) (h : s.toList = pre ++ ['.', '*']) :
    cutSuffix s ".*" = (String.ofList pre, true) := by
  have hsuffix : (".*".toList).isSuffixOf s.toList = true := by
    rw [h, isSuffixOf_iff_suffix]
    exact ⟨pre, rfl⟩
  have hlength : s.length - ".*".length = pre.length := by
    rw [← String.length_toList, h, length_append]
    rfl
  rw [cutSuffix, if_pos hsuffix, hlength, h, take_left]

lemma cutSuffix_eq_true {s pre : String} (h : cutSuffix s ".*" = (pre, true)) :
    s.toList = pre.toList ++ ['.', '*'] := by
  unfold cutSuffix at h
  split at h
  case isTrue hsuffix =>
    obtain ⟨l, hl⟩ := isSuffixOf_iff_suffix.mp hsuffix
    have hl : s.toList = l ++ ['.', '*'] := hl.symm
    have := cutSuffix_append l s hl
    rw [cutSuffix, if_pos hsuffix, h] at this
    obtain rfl := (Prod.mk.inj this).1
    rw [hl, String.toList_ofList]
  case isFalse => cases h

lemma take_and_dot_iff (pre t : List Char) :
    (t.length > pre.length ∧ t.take pre.length = pre) ∧ t[pre.length]? = some '.' ↔
      pre ++ ['.'] <+: t := by
  constructor
  · rintro ⟨⟨-, htake⟩, hdot⟩
    obtain ⟨hlt, hget⟩ := List.getElem?_eq_some_iff.mp hdot
    refine ⟨t.drop (pre.length + 1), ?_⟩
    have h := take_append_drop pre.length t
    rw [htake, drop_eq_getElem_cons hlt, hget] at h
    rw [append_assoc]
    exact h
  · rintro ⟨r, rfl⟩
    simp

lemma isMatch_iff : sub.isMatch eventType = true ↔
    sub.eventType = "*" ∨ sub.eventType = eventType ∨
      ∃ pre, sub.eventType.toList = pre ++ ['.', '*'] ∧ pre ++ ['.'] <+: eventType.toList := by
  unfold Subscription.isMatch
  split
  case isTrue h => simp [h]
  case isFalse h =>
    split
    case isTrue h' => simp [h']
    case isFalse h' =>
      simp only [h, h', false_or]
      split
      case h_1 pre hcut =>
        have hpre := cutSuffix_eq_true hcut
        simp only [Bool.and_eq_true, decide_eq_true_eq, ← String.length_toList]
        rw [take_and_dot_iff]
        constructor
        · exact fun hbegin => ⟨pre.toList, hpre, hbegin⟩
        · rintro ⟨pre', hpre', hbegin⟩
          rwa [append_cancel_right (hpre.symm.trans hpre')]
      case h_2 s hcut =>
        refine iff_of_false nofun ?_
        rintro ⟨pre, hpre, -⟩
        rw [cutSuffix_append pre _ hpre] at hcut
        cases hcut

lemma isMatch_self (sub : Subscription) : sub.isMatch sub.eventType = true :=
  isMatch_iff.mpr (.inr (.inl rfl))

/-- **Two patterns have an event in common exactly when one of them matches the other.** -/
theorem exists_isMatch_iff : (∃ eventType, sub.isMatch eventType = true ∧
    sub'.isMatch eventType = true) ↔
      sub.isMatch sub'.eventType = true ∨ sub'.isMatch sub.eventType = true := by
  constructor
  · rintro ⟨t, h, h'⟩
    rcases isMatch_iff.mp h with hstar | hexact | ⟨pre, hpre, ht⟩
    · exact .inl (isMatch_iff.mpr (.inl hstar))
    · exact .inr (hexact ▸ h')
    rcases isMatch_iff.mp h' with hstar | hexact | ⟨pre', hpre', ht'⟩
    · exact .inr (isMatch_iff.mpr (.inl hstar))
    · exact .inl (hexact ▸ h)
    rcases prefix_or_prefix_of_prefix ht ht' with hle | hle
    · refine .inl (isMatch_iff.mpr (.inr (.inr ⟨pre, hpre, hle.trans ?_⟩)))
      exact ⟨['*'], by simp [hpre']⟩
    · refine .inr (isMatch_iff.mpr (.inr (.inr ⟨pre', hpre', hle.trans ?_⟩)))
      exact ⟨['*'], by simp [hpre]⟩
  · rintro (h | h)
    · exact ⟨_, h, isMatch_self _⟩
    · exact ⟨_, isMatch_self _, h⟩

/-- Two synchronous handlers that some event runs both. -/
def Together (sub sub' : Subscription) : Prop :=
  sub.async = false ∧ sub'.async = false ∧
    (sub.isMatch sub'.eventType = true ∨ sub'.isMatch sub.eventType = true)
  deriving Decidable

lemma together_iff : Together sub sub' ↔ sub.async = false ∧ sub'.async = false ∧
    ∃ eventType, sub.isMatch eventType = true ∧ sub'.isMatch eventType = true := by
  rw [exists_isMatch_iff]
  rfl

/-- A subscription with its number. -/
abbrev Entry := ℕ × Subscription

/-- The history of a `Publish`. -/
structure Delivery where
  /-- The subscriptions it found, and those it has not come to. -/
  matched : List Entry
  rest : List Entry
  /-- The synchronous handlers it has run, and how they ended. -/
  ran : List (ℕ × Outcome)

structure OrderState where
  base : BusState
  entries : List Entry
  /-- How many subscriptions were made. -/
  subscribed : ℕ
  deliveries : List Delivery

def OrderState.start : OrderState := ⟨.start, [], 0, []⟩

def Delivery.new (matched : List Entry) : Delivery := ⟨matched, matched, []⟩

def Delivery.advance (outcome : Outcome) (d : Delivery) : Delivery :=
  match d.rest with
  | [] => d
  | e :: rest =>
    { d with rest, ran := if e.2.async then d.ran else d.ran ++ [(e.1, outcome)] }

/-- A step of the bus, with what it adds to the history. -/
def orderStep (s : OrderState) (a : BusAction) : Option OrderState :=
  (busStep s.base a).map fun base =>
    match a with
    | .subscribe sub =>
      { s with base, entries := s.entries ++ [(s.subscribed, sub)], subscribed := s.subscribed + 1 }
    | .unsubscribe subID =>
      { s with base, entries := swapRemove (fun e => decide (e.2.id = subID)) s.entries }
    | .publish event _ _ =>
      { s with
        base
        deliveries := s.deliveries ++ [.new (s.entries.filter fun e => e.2.isMatch event.type)] }
    | .publishNext p outcome =>
      { s with base, deliveries := s.deliveries.modify p (Delivery.advance outcome) }
    | .handler _ _ => { s with base }

def syncs (l : List Entry) : List Entry := l.filter fun e => !e.2.async

/-- For every event, the synchronous handlers stand in the order in which they were subscribed. -/
def InOrder (s : OrderState) : Prop :=
  ∀ eventType, (syncs (s.entries.filter fun e => e.2.isMatch eventType)).Pairwise
    fun e e' => e.1 < e'.1

/-- An unsubscription moves the last handler over none that runs together with it. -/
def KeepsOrder (s : OrderState) : BusAction → Prop
  | .unsubscribe subID =>
    ∀ last ∈ s.entries.getLast?, ∀ e ∈ jumped (fun e => decide (e.2.id = subID)) s.entries,
      ¬Together e.2 last.2
  | _ => True

instance (s : OrderState) (a : BusAction) : Decidable (KeepsOrder s a) := by
  unfold KeepsOrder
  split <;> infer_instance

/-! ## What a step does to the entries -/

variable {s s' : OrderState} {a : BusAction}

lemma orderStep_entries (h : orderStep s a = some s') :
    (∃ sub, a = .subscribe sub ∧ s'.entries = s.entries ++ [(s.subscribed, sub)] ∧
      s'.subscribed = s.subscribed + 1) ∨
    (∃ subID, a = .unsubscribe subID ∧
      s'.entries = swapRemove (fun e => decide (e.2.id = subID)) s.entries ∧
      s'.subscribed = s.subscribed) ∨
    ((∀ subID, a ≠ .unsubscribe subID) ∧ s'.entries = s.entries ∧ s'.subscribed = s.subscribed) := by
  obtain ⟨base, hbase, rfl⟩ := map_eq_some_iff.mp h
  cases a with
  | subscribe sub => exact .inl ⟨sub, rfl, rfl, rfl⟩
  | unsubscribe subID => exact .inr (.inl ⟨subID, rfl, rfl, rfl⟩)
  | publish | publishNext | handler => exact .inr (.inr ⟨nofun, rfl, rfl⟩)

/-- The entries have numbers of their own, all of which were given out. -/
structure Numbered (s : OrderState) : Prop where
  nodup : (s.entries.map Prod.fst).Nodup
  lt : ∀ e ∈ s.entries, e.1 < s.subscribed

lemma numbered_step (hs : Numbered s) (h : orderStep s a = some s') : Numbered s' := by
  rcases orderStep_entries h with ⟨sub, -, hentries, hcount⟩ | ⟨subID, -, hentries, hcount⟩ |
    ⟨-, hentries, hcount⟩
  · constructor
    · rw [hentries, map_append, nodup_append']
      refine ⟨hs.nodup, nodup_singleton _, ?_⟩
      intro n hn hn'
      obtain ⟨e, he, rfl⟩ := mem_map.mp hn
      have heq : e.1 = s.subscribed := by simpa using hn'
      exact absurd (hs.lt e he) (heq ▸ lt_irrefl _)
    · rw [hentries, hcount]
      exact forall_mem_append.mpr ⟨fun e he => (hs.lt e he).trans (Nat.lt_succ_self _),
        forall_mem_singleton.mpr (Nat.lt_succ_self _)⟩
  · obtain ⟨r, hperm⟩ := perm_swapRemove (fun e : Entry => decide (e.2.id = subID)) s.entries
    rw [← hentries] at hperm
    constructor
    · have hnodup := (hperm.map Prod.fst).nodup_iff.mp hs.nodup
      rw [map_append] at hnodup
      exact hnodup.of_append_left
    · rw [hcount]
      exact fun e he => hs.lt e (hperm.mem_iff.mpr (mem_append_left _ he))
  · exact ⟨hentries ▸ hs.nodup, by rw [hentries, hcount]; exact hs.lt⟩

def handlersOf (eventType : String) (l : List Entry) : List Entry :=
  syncs (l.filter fun e => e.2.isMatch eventType)

lemma handlersOf_append (eventType : String) (l l' : List Entry) :
    handlersOf eventType (l ++ l') = handlersOf eventType l ++ handlersOf eventType l' := by
  simp [handlersOf, syncs]

lemma mem_handlersOf {l : List Entry} {e : Entry} :
    e ∈ handlersOf eventType l ↔ e ∈ l ∧ e.2.isMatch eventType = true ∧ e.2.async = false := by
  simp only [handlersOf, syncs, mem_filter, Bool.not_eq_true', and_assoc]

lemma handlersOf_cons (eventType : String) (e : Entry) (l : List Entry) :
    handlersOf eventType (e :: l) = handlersOf eventType [e] ++ handlersOf eventType l :=
  handlersOf_append eventType [e] l

/-- **A step that keeps to the condition keeps the order.** -/
theorem inOrder_step (hs : Numbered s) (horder : InOrder s) (ha : KeepsOrder s a)
    (h : orderStep s a = some s') : InOrder s' := by
  intro eventType
  have hsorted : (handlersOf eventType s.entries).Pairwise fun e e' => e.1 < e'.1 :=
    horder eventType
  show (handlersOf eventType s'.entries).Pairwise fun e e' => e.1 < e'.1
  rcases orderStep_entries h with ⟨sub, -, hentries, -⟩ | ⟨subID, rfl, hentries, -⟩ |
    ⟨-, hentries, -⟩
  · rw [hentries, handlersOf_append, pairwise_append]
    refine ⟨hsorted, List.Pairwise.filter _ (List.Pairwise.filter _ (pairwise_singleton _ _)),
      fun e he e' he' => ?_⟩
    obtain rfl := mem_singleton.mp (mem_handlersOf.mp he').1
    exact hs.lt e (mem_handlersOf.mp he).1
  · rw [hentries]
    rcases swapRemove_cases (fun e : Entry => decide (e.2.id = subID)) s.entries with
      ⟨-, hsame⟩ | ⟨l1, x, hl, -, hremoved⟩ | ⟨l1, x, l2, last, hl, hjumped, hremoved⟩
    · rwa [hsame]
    · rw [hl, handlersOf_append, pairwise_append] at hsorted
      rw [hremoved]
      exact hsorted.1
    have hlast : last ∈ s.entries.getLast? := by
      rw [hl, ← cons_append, ← append_assoc, getLast?_concat]
      exact rfl
    have hmoved : ∀ e ∈ handlersOf eventType [last], ∀ e' ∈ handlersOf eventType l2,
        e.1 < e'.1 := by
      intro e he e' he'
      obtain ⟨hmem, hmatch, hsync⟩ := mem_handlersOf.mp he
      obtain ⟨hmem', hmatch', hsync'⟩ := mem_handlersOf.mp he'
      obtain rfl := mem_singleton.mp hmem
      exact absurd (together_iff.mpr ⟨hsync', hsync, eventType, hmatch', hmatch⟩)
        (ha e hlast e' (hjumped.symm ▸ hmem'))
    rw [hl, handlersOf_append, handlersOf_cons, handlersOf_append] at hsorted
    rw [hremoved, handlersOf_append, handlersOf_cons]
    simp only [pairwise_append, mem_append] at hsorted hmoved ⊢
    obtain ⟨hl1, ⟨-, ⟨hl2, hlast', -⟩, -⟩, hbefore⟩ := hsorted
    refine ⟨hl1, ⟨hlast', hl2, hmoved⟩, fun e he e' he' => hbefore e he e' ?_⟩
    tauto
  · rwa [hentries]

/-- **Only such a step keeps it.** -/
theorem keepsOrder_of_inOrder (horder : InOrder s) (h : orderStep s a = some s')
    (horder' : InOrder s') : KeepsOrder s a := by
  cases a with
  | subscribe | publish | publishNext | handler => trivial
  | unsubscribe subID =>
    intro last hlast e he htogether
    obtain ⟨hsync, hsync', eventType, hmatch, hmatch'⟩ := together_iff.mp htogether
    have hentries : s'.entries = swapRemove (fun e => decide (e.2.id = subID)) s.entries := by
      rcases orderStep_entries h with ⟨_, hsub, -⟩ | ⟨_, hunsub, hentries, -⟩ | ⟨hno, -⟩
      · cases hsub
      · cases hunsub
        exact hentries
      · exact absurd rfl (hno subID)
    have hsorted := horder eventType
    have hsorted' := horder' eventType
    change (handlersOf eventType s.entries).Pairwise _ at hsorted
    change (handlersOf eventType s'.entries).Pairwise _ at hsorted'
    rw [hentries] at hsorted'
    rcases swapRemove_cases (fun e : Entry => decide (e.2.id = subID)) s.entries with
      ⟨hjumped, -⟩ | ⟨_, _, -, hjumped, -⟩ | ⟨l1, x, l2, last', hl, hjumped, hremoved⟩
    · exact absurd he (hjumped ▸ not_mem_nil)
    · exact absurd he (hjumped ▸ not_mem_nil)
    rw [hl, ← cons_append, ← append_assoc, getLast?_concat] at hlast
    obtain rfl := some.inj hlast
    rw [hjumped] at he
    have he : e ∈ handlersOf eventType l2 := mem_handlersOf.mpr ⟨he, hmatch, hsync⟩
    have hmem : last' ∈ handlersOf eventType [last'] :=
      mem_handlersOf.mpr ⟨mem_singleton_self _, hmatch', hsync'⟩
    rw [hl, handlersOf_append, handlersOf_cons, handlersOf_append] at hsorted
    rw [hremoved, handlersOf_append, handlersOf_cons] at hsorted'
    simp only [pairwise_append] at hsorted hsorted'
    have hlt := hsorted.2.1.2.1.2.2 e he last' hmem
    have hlt' := hsorted'.2.1.2.2 last' hmem e he
    exact absurd hlt (lt_asymm hlt')

/-! ## What a `Publish` runs -/

variable {eb eb' : EventBus} {c : PublishCall}

lemma publishAdvance_call {c' : PublishCall} {outcome : Outcome}
    {g : Option Handler} (h : publishAdvance eb c outcome = some (eb', c', g)) :
    eb'.subscriptions = eb.subscriptions ∧ c.result = none ∧
      ((c.rest = [] ∧ c' = { c with result := some .ok }) ∨
      ∃ sub rest, c.rest = sub :: rest ∧
        ((sub.async = true ∧ c' = { c with rest }) ∨
        (sub.async = false ∧
          c' = { c with rest, result := if outcome = .ok then none else some outcome }))) := by
  unfold publishAdvance at h
  split at h
  case h_1 => cases h
  case h_2 hresult hrest =>
    cases h
    exact ⟨rfl, hresult, .inl ⟨hrest, rfl⟩⟩
  case h_3 sub rest hresult hrest =>
    split at h
    case isTrue hasync =>
      obtain ⟨sem, -, h⟩ := map_eq_some_iff.mp h
      cases h
      exact ⟨rfl, hresult, .inr ⟨sub, rest, hrest, .inl ⟨hasync, rfl⟩⟩⟩
    case isFalse hsync =>
      have hcall : eb'.subscriptions = eb.subscriptions ∧
          c' = { c with rest, result := if outcome = .ok then none else some outcome } := by
        split at h <;> cases h <;> simp [hresult]
      exact ⟨hcall.1, hresult, .inr ⟨sub, rest, hrest, .inr ⟨by simpa using hsync, hcall.2⟩⟩⟩

lemma handlerAdvance_subscriptions {g g' : Handler} {a : HandlerAction}
    (h : handlerAdvance eb g a = some (eb', g')) : eb'.subscriptions = eb.subscriptions := by
  unfold handlerAdvance at h
  split at h
  case h_5 | h_8 =>
    obtain ⟨sem, -, h⟩ := map_eq_some_iff.mp h
    cases h
    rfl
  case h_7 =>
    split at h <;> cases h
    rfl
  case h_11 =>
    split at h
    · cases h
      rfl
    · obtain ⟨sem, -, h⟩ := map_eq_some_iff.mp h
      cases h
      rfl
  case h_13 => cases h
  all_goals
    cases h
    rfl

/-- The record of a `Publish`: what it has run and what it has still to run is what it found, and no
handler runs after one that has failed. -/
structure Delivered (c : PublishCall) (d : Delivery) : Prop where
  mirror : d.rest.map Prod.snd = c.rest
  due : d.ran.map Prod.fst ++ (syncs d.rest).map Prod.fst = (syncs d.matched).map Prod.fst
  nodup : (d.matched.map Prod.fst).Nodup
  outcome : match c.result with
    | none => ∀ x ∈ d.ran, x.2 = .ok
    | some .ok => d.rest = [] ∧ ∀ x ∈ d.ran, x.2 = .ok
    | some o => ∃ init n, d.ran = init ++ [(n, o)] ∧ ∀ x ∈ init, x.2 = .ok

lemma delivered_new {matched : List Entry}
    (hrest : matched.map Prod.snd = c.rest) (hresult : c.result = none)
    (hnodup : (matched.map Prod.fst).Nodup) : Delivered c (.new matched) where
  mirror := hrest
  due := rfl
  nodup := hnodup
  outcome := by
    rw [hresult]
    exact fun x hx => absurd hx not_mem_nil

/-- **One operation of a `Publish`** runs the next synchronous handler, and ends when it fails. -/
theorem delivered_advance {c' : PublishCall} {outcome : Outcome}
    {g : Option Handler} {d : Delivery} (hd : Delivered c d)
    (h : publishAdvance eb c outcome = some (eb', c', g)) : Delivered c' (d.advance outcome) := by
  obtain ⟨hmirror, hdue, hnodup, hout⟩ := hd
  obtain ⟨-, hresult, hcases⟩ := publishAdvance_call h
  rw [hresult] at hout
  rcases hcases with ⟨hrest, rfl⟩ | ⟨sub, rest, hrest, hcases⟩
  · have hnil : d.rest = [] := map_eq_nil_iff.mp (hmirror.trans hrest)
    have hsame : d.advance outcome = d := by simp [Delivery.advance, hnil]
    rw [hsame]
    exact ⟨hmirror, hdue, hnodup, hnil, hout⟩
  obtain ⟨e, rest', hd, rfl, rfl⟩ : ∃ e rest', d.rest = e :: rest' ∧ e.2 = sub ∧
      rest'.map Prod.snd = rest := by
    rw [hrest] at hmirror
    exact map_eq_cons_iff.mp hmirror
  rcases hcases with ⟨hasync, rfl⟩ | ⟨hsync, rfl⟩
  · have hadvance : d.advance outcome = { d with rest := rest' } := by
      simp [Delivery.advance, hd, hasync]
    rw [hadvance]
    refine ⟨rfl, ?_, hnodup, ?_⟩
    · simpa [syncs, hd, hasync] using hdue
    · rw [hresult]
      exact hout
  · have hadvance : d.advance outcome =
        { d with rest := rest', ran := d.ran ++ [(e.1, outcome)] } := by
      simp [Delivery.advance, hd, hsync]
    rw [hadvance]
    refine ⟨rfl, ?_, hnodup, ?_⟩
    · simpa [syncs, hd, hsync] using hdue
    cases outcome with
    | ok => exact forall_snoc hout rfl
    | err | panic => exact ⟨d.ran, e.1, rfl, hout⟩

/-- The history goes along with the bus. -/
structure Recorded (s : OrderState) : Prop where
  numbered : Numbered s
  entries : s.entries.map Prod.snd = s.base.bus.subscriptions
  length : s.deliveries.length = s.base.publishes.length
  delivered : ∀ (p : ℕ) c d, s.base.publishes[p]? = some c → s.deliveries[p]? = some d →
    Delivered c d

lemma recorded_start : Recorded .start where
  numbered := ⟨nodup_nil, fun e he => absurd he not_mem_nil⟩
  entries := rfl
  length := rfl
  delivered p c d hc := by cases hc

/-- **Every step keeps the records.** -/
theorem recorded_step (s : OrderState) (a : BusAction) (s' : OrderState) (hs : Recorded s)
    (h : orderStep s a = some s') : Recorded s' := by
  have hnumbered := numbered_step hs.numbered h
  obtain ⟨base, hbase, rfl⟩ := map_eq_some_iff.mp h
  cases a with
  | subscribe sub =>
    cases hbase
    exact ⟨hnumbered, by simp [EventBus.subscribeNamed, hs.entries], hs.length, hs.delivered⟩
  | unsubscribe subID =>
    cases hbase
    refine ⟨hnumbered, ?_, hs.length, hs.delivered⟩
    show (swapRemove (fun e : Entry => decide (e.2.id = subID)) s.entries).map Prod.snd =
      (s.base.bus.unsubscribe subID).1.subscriptions
    rw [unsubscribe_subscriptions, ← hs.entries, swapRemove_map]
  | publish event generatedID now =>
    cases hbase
    refine ⟨hnumbered, hs.entries, by simp [hs.length], fun p c d hc hd => ?_⟩
    rcases getElem?_snoc hc with hc | ⟨rfl, rfl⟩
    · have hlt : p < s.deliveries.length := hs.length ▸ (List.getElem?_eq_some_iff.mp hc).1
      rw [getElem?_append_left hlt] at hd
      exact hs.delivered p c d hc hd
    rw [← hs.length, getElem?_concat_length] at hd
    cases hd
    refine delivered_new ?_ rfl ((filter_sublist.map Prod.fst).nodup hs.numbered.nodup)
    show (s.entries.filter fun e => e.2.isMatch event.type).map Prod.snd =
      s.base.bus.subscriptions.filter fun sub => sub.isMatch event.type
    rw [← hs.entries, List.filter_map]
    rfl
  | publishNext p outcome =>
    obtain ⟨c, hc, hbase⟩ := bind_eq_some_iff.mp hbase
    obtain ⟨⟨eb', c', g⟩, hadvance, rfl⟩ := map_eq_some_iff.mp hbase
    refine ⟨hnumbered, hs.entries.trans (publishAdvance_call hadvance).1.symm,
      by simp [hs.length], fun q cq dq hcq hdq => ?_⟩
    have hdq : (s.deliveries.modify p (Delivery.advance outcome))[q]? = some dq := hdq
    rw [getElem?_modify] at hdq
    obtain ⟨d, hd, rfl⟩ := map_eq_some_iff.mp hdq
    rcases getElem?_set hcq with ⟨rfl, rfl⟩ | ⟨hne, hcq⟩
    · rw [if_pos rfl]
      exact delivered_advance (hs.delivered q c d hc hd) hadvance
    · rw [if_neg hne.symm]
      exact hs.delivered q cq d hcq hd
  | handler i a =>
    obtain ⟨g, -, hbase⟩ := bind_eq_some_iff.mp hbase
    obtain ⟨⟨eb', g'⟩, hadvance, rfl⟩ := map_eq_some_iff.mp hbase
    exact ⟨hnumbered, hs.entries.trans (handlerAdvance_subscriptions hadvance).symm, hs.length,
      hs.delivered⟩

def FoundInOrder (s : OrderState) : Prop :=
  ∀ d ∈ s.deliveries, ((syncs d.matched).map Prod.fst).Pairwise (· < ·)

lemma matched_advance (outcome : Outcome) (d : Delivery) :
    (d.advance outcome).matched = d.matched := by
  unfold Delivery.advance
  split <;> rfl

lemma foundInOrder_step (hs : FoundInOrder s) (horder : InOrder s)
    (h : orderStep s a = some s') : FoundInOrder s' := by
  obtain ⟨base, -, rfl⟩ := map_eq_some_iff.mp h
  cases a with
  | subscribe | unsubscribe | handler => exact hs
  | publish event generatedID now =>
    exact forall_snoc hs (pairwise_map.mpr (horder event.type))
  | publishNext p outcome =>
    intro d hd
    obtain ⟨q, hq⟩ := getElem?_of_mem hd
    have hq : (s.deliveries.modify p (Delivery.advance outcome))[q]? = some d := hq
    rw [getElem?_modify] at hq
    obtain ⟨d0, hd0, rfl⟩ := map_eq_some_iff.mp hq
    have hmem := hs d0 (mem_of_getElem? hd0)
    split
    · rwa [matched_advance]
    · exact hmem

/-- The handlers of a `Publish`: each has run at most once, and they are the first of those it
found, all of them or those up to the one that failed. -/
structure Served (c : PublishCall) (d : Delivery) : Prop where
  once : (d.ran.map Prod.fst).Nodup
  first : d.ran.map Prod.fst <+: (syncs d.matched).map Prod.fst
  all : c.result = some .ok → d.ran.map Prod.fst = (syncs d.matched).map Prod.fst
  untilError : ∀ o, c.result = some o → o ≠ .ok →
    ∃ init n, d.ran = init ++ [(n, o)] ∧ ∀ x ∈ init, x.2 = .ok

lemma served_of_delivered {d : Delivery} (h : Delivered c d) : Served c d := by
  have hbegin : d.ran.map Prod.fst <+: (syncs d.matched).map Prod.fst := ⟨_, h.due⟩
  have hout := h.outcome
  refine ⟨?_, hbegin, fun hok => ?_, fun o ho hne => ?_⟩
  · exact (hbegin.sublist.trans (filter_sublist.map Prod.fst)).nodup h.nodup
  · rw [hok] at hout
    have hdue := h.due
    rwa [hout.1, syncs, filter_nil, map_nil, append_nil] at hdue
  · rw [ho] at hout
    cases o with
    | ok => exact absurd rfl hne
    | err => exact hout
    | panic => exact hout

def threeHandlers : List BusAction :=
  [.subscribe ⟨"a", "app.*", "", false⟩, .subscribe ⟨"b", "app.*", "", false⟩,
    .subscribe ⟨"c", "app.*", "", false⟩]

/-- An application is created, and the first handler it finds succeeds and the second fails. -/
def createdApp : List BusAction :=
  [.publish ⟨"", "app.created", 0⟩ "e" 1, .publishNext 0 .ok, .publishNext 0 .err]

end DeployMonster.Core
