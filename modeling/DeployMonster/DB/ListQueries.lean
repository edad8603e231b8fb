import DeployMonster.DB.Tables
import DeployMonster.Library.Cursor
import DeployMonster.Library.Dict

/-!
# The list methods of the SQLite store

`QueryContext` of `internal/db/sqlite.go` and the list methods over it. The wrapper cancels the
context of the query when it returns, and its caller reads the rows after that, so the rows may be
closed at any moment of the loop.
-/

namespace DeployMonster.DB.SQLite

open Cursor List Option

variable {ρ : Type}

/-- What happens to a query. The calls of `Next` and `Scan` on its rows are numbered from 0. -/
structure QueryTiming where
  /-- The error of the query itself. -/
  fails : Option String := none
  /-- The call before which the rows are closed, when the wrapper has canceled their context. -/
  closeAt : Option ℕ := none
  /-- The call before which the rows are closed because the caller cancels or the time is over. -/
  interrupted : Option (ℕ × String) := none

variable (t : QueryTiming)

/-- The query does not fail, the caller does not cancel, and the time is not over. -/
def QueryTiming.Quiet : Prop := t.fails = none ∧ t.interrupted = none

/-- The close comes after the last call of a loop over `n` rows. -/
def QueryTiming.Late (n : ℕ) : Prop := ∀ c ∈ t.closeAt, 2 * n < c

/-- The context of a query: whether it was canceled. -/
structure Ctx where
  canceled : Bool

variable (queryTimeout : ℤ)

/-- `withTimeout`: the context, and what the cancel function does to it. -/
def withTimeout : Ctx × (Ctx → Ctx) :=
  if queryTimeout > 0 then (⟨false⟩, fun _ => ⟨true⟩) else (⟨false⟩, id)

def Ctx.closing (ctx : Ctx) (t : QueryTiming) : Closing :=
  if ctx.canceled then t.closeAt.map fun c => (c, "context canceled") else t.interrupted

/-- `QueryContext`: the rows, with a context that the deferred cancel function has canceled. -/
def queryContext (selected : List ρ) (t : QueryTiming) : Except String (List ρ × Ctx) :=
  let (ctx, cancel) := withTimeout queryTimeout
  match t.fails with
  | some e => .error e
  | none => .ok (selected, cancel ctx)

/-- A query and the loop over its rows: what was read and the answer of `rows.Err`, or the error of the
query or of a `Scan`. -/
def collect (selected : List ρ) (t : QueryTiming) :
    Option (Except String (List ρ × Option String)) :=
  match queryContext queryTimeout selected t with
  | .error e => some (.error e)
  | .ok (rows, ctx) =>
    (Rows.readAll (ctx.closing t) rows).map fun result => result.map fun (read, rows) => (read, rows.err)

/-- A list method, by the rows that its query selects: what it returns, with the error. -/
def listRows (selected : List ρ) (t : QueryTiming) : Option (List ρ × Option String) :=
  (collect queryTimeout selected t).map fun
    | .error e => ([], some e)
    | .ok (read, err) => (read, err)

/-- `ListAppsByTenant`: the applications and their number. The count is a query of its own, whose
context is not canceled. -/
def listAppsByTenant (apps : AppTable) (tenantID : String) (limit offset : ℕ)
    (counting t : QueryTiming) : Option ((List Application × ℕ) × Option String) :=
  match counting.fails with
  | some e => some (([], 0), some e)
  | none =>
    let total := (apps.rows.filter (·.tenantID = tenantID)).length
    (collect queryTimeout (DB.listAppsByTenant apps tenantID limit offset) t).map fun
      | .error e => (([], 0), some e)
      | .ok (read, err) => ((read, total), err)

structure DomainRow where
  (id appID fqdn : String)
  type : String := "custom"
  dnsProvider : String := "manual"
  dnsSynced : Bool := false
  verified : Bool := false
  createdAt : ℤ := 0

abbrev DomainTable := Table DomainRow.id

def selectAllowed (apps : AppTable) (appIDs : List String) (tenantID : String) : List String :=
  (apps.rows.filter fun a => a.id ∈ appIDs ∧ a.tenantID = tenantID).map Application.id

def selectDomains (domains : DomainTable) (appIDs : List String) : List DomainRow :=
  (domains.rows.filter (·.appID ∈ appIDs)).insertionSort fun d d' => d.createdAt ≤ d'.createdAt

def groupByApp (rows : List DomainRow) : Dict String (List DomainRow) :=
  rows.foldl (fun result d => result.set d.appID ((result.get? d.appID).getD [] ++ [d])) .empty

def listDomainsByAppIDs (apps : AppTable) (domains : DomainTable)
    (appIDs : List String) (tenantID : String) (t1 t2 : QueryTiming) :
    Option (Option (Dict String (List DomainRow)) × Option String) :=
  if appIDs = [] then some (none, none)
  else
    (collect queryTimeout (selectAllowed apps appIDs tenantID) t1).bind fun
      | .error e => some (none, some e)
      | .ok (allowedIDs, _) =>
        if allowedIDs = [] then some (some .empty, none)
        else
          (collect queryTimeout (selectDomains domains allowedIDs) t2).map fun
            | .error e => (none, some e)
            | .ok (read, err) => (some (groupByApp read), err)

/-! ## The promise -/

/-- What is promised of a list method: when nothing interferes it returns everything, and it never
returns less without an error. -/
structure Kept {α : Type} (quiet : Prop) (expected : α) (result : Option (α × Option String)) :
    Prop where
  complete : quiet → result = some (expected, none)
  whole : ∀ x, result = some (x, none) → x = expected

variable {α : Type} {quiet : Prop} {expected x : α} {result : Option (α × Option String)}

lemma kept_of_ok (h : result = some (x, none)) : Kept quiet expected result ↔ x = expected := by
  subst h
  constructor
  · rintro ⟨-, hwhole⟩
    exact hwhole x rfl
  · rintro rfl
    exact ⟨fun _ => rfl, fun y hy => (congrArg Prod.fst (some.inj hy)).symm⟩

lemma kept_of_error {r : α × Option String} {e : String} (h : result = some r)
    (herror : r.2 = some e) : Kept quiet expected result ↔ ¬quiet := by
  obtain ⟨x, err⟩ := r
  obtain rfl : err = some e := herror
  subst h
  constructor
  · rintro ⟨hcomplete, -⟩ hquiet
    cases hcomplete hquiet
  · exact fun hquiet => ⟨fun h => absurd h hquiet, nofun⟩

variable {queryTimeout : ℤ} {t : QueryTiming}

lemma not_late_of_closeAt {n c : ℕ} (h : t.closeAt = some c) (hc : c ≤ 2 * n) : ¬t.Late n :=
  fun hlate => absurd (hlate c h) (Nat.not_lt.mpr hc)

variable (htimeout : 0 < queryTimeout)
include htimeout

variable (selected : List ρ)

/-- **How a query over the wrapper and its loop end.** -/
theorem collect_cases (t : QueryTiming) :
    (t.fails = none ∧ t.Late selected.length ∧
      collect queryTimeout selected t = some (.ok (selected, none))) ∨
    (t.fails = none ∧ ∃ k, t.closeAt = some (2 * k) ∧ k ≤ selected.length ∧
      collect queryTimeout selected t = some (.ok (selected.take k, some "context canceled"))) ∨
    ((t.fails ≠ none ∨ ∃ k, t.closeAt = some (2 * k + 1) ∧ k < selected.length) ∧
      ∃ e, collect queryTimeout selected t = some (.error e)) := by
  unfold collect queryContext withTimeout
  rw [if_pos htimeout]
  cases hfails : t.fails with
  | some e => exact .inr (.inr ⟨.inl nofun, e, rfl⟩)
  | none =>
    have hclosing : Ctx.closing ⟨true⟩ t = t.closeAt.map fun c => (c, "context canceled") := rfl
    dsimp only
    rw [hclosing]
    obtain ⟨hlate, rows, hread, herr⟩ | ⟨k, e, hclose, hk, rows, hread, herr⟩ |
        ⟨k, e, hclose, hk, hread⟩ :=
      Rows.readAll_cases (t.closeAt.map fun c => (c, "context canceled")) selected
    · refine .inl ⟨rfl, fun c hc => hlate _ (mem_map_of_mem _ hc), ?_⟩
      rw [hread, map_some]
      simp only [Except.map, herr]
    · obtain ⟨c, hc, heq⟩ := map_eq_some_iff.mp hclose
      cases heq
      refine .inr (.inl ⟨rfl, k, hc, hk, ?_⟩)
      rw [hread, map_some]
      simp only [Except.map, herr]
    · obtain ⟨c, hc, heq⟩ := map_eq_some_iff.mp hclose
      cases heq
      refine .inr (.inr ⟨.inr ⟨k, hc, hk⟩, "context canceled", ?_⟩)
      rw [hread, map_some]
      rfl

lemma collect_kept_iff (t : QueryTiming)
    (finish : Except String (List ρ × Option String) → α × Option String)
    (hok : finish (.ok (selected, none)) = (expected, none))
    (hcut : ∀ read e, (finish (.ok (read, some e))).2 = some e)
    (herror : ∀ e, (finish (.error e)).2 = some e) (hquiet : quiet → t.Quiet) :
    Kept quiet expected ((collect queryTimeout selected t).map finish) ↔
      (quiet → t.Late selected.length) := by
  obtain ⟨-, hlate, hcollect⟩ | ⟨-, k, hclose, hk, hcollect⟩ | ⟨hwhy, e, hcollect⟩ :=
    collect_cases htimeout selected t
  · rw [hcollect, map_some, hok, kept_of_ok rfl]
    exact iff_of_true rfl fun _ => hlate
  · rw [hcollect, map_some]
    refine (kept_of_error rfl (hcut _ _)).trans ?_
    exact (imp_iff_not (not_late_of_closeAt hclose (by omega))).symm
  · rw [hcollect, map_some]
    refine (kept_of_error rfl (herror e)).trans ⟨fun h hq => absurd hq h, fun h hq => ?_⟩
    rcases hwhy with hfails | ⟨k, hclose, hk⟩
    · exact hfails (hquiet hq).1
    · exact not_late_of_closeAt hclose (by omega) (h hq)

lemma listRows_kept_iff (t : QueryTiming) :
    Kept t.Quiet selected (listRows queryTimeout selected t) ↔
      (t.Quiet → t.Late selected.length) :=
  collect_kept_iff htimeout selected t _ rfl (fun _ _ => rfl) (fun _ => rfl) id

lemma listAppsByTenant_kept_iff (apps : AppTable) (tenantID : String)
    (limit offset : ℕ) (counting t : QueryTiming) :
    Kept (counting.Quiet ∧ t.Quiet)
        (DB.listAppsByTenant apps tenantID limit offset,
          (apps.rows.filter (·.tenantID = tenantID)).length)
        (listAppsByTenant queryTimeout apps tenantID limit offset counting t) ↔
      (counting.Quiet ∧ t.Quiet → t.Late (DB.listAppsByTenant apps tenantID limit offset).length) := by
  unfold listAppsByTenant
  cases hcount : counting.fails with
  | some e =>
    have hloud : ¬(counting.Quiet ∧ t.Quiet) := fun h => nomatch hcount.symm.trans h.1.1
    exact (kept_of_error rfl rfl).trans (iff_of_true hloud fun h => absurd h hloud)
  | none =>
    exact collect_kept_iff htimeout _ t _ rfl (fun _ _ => rfl) (fun _ => rfl) And.right

omit htimeout

/-! ## Two queries -/

/-- How many rows a loop over `n` rows reads before they are closed. -/
def QueryTiming.reads (n : ℕ) : ℕ := t.closeAt.elim n fun c => min n (c / 2)

/-- No `Scan` of a loop over `n` rows finds them closed. -/
def QueryTiming.Scans (n : ℕ) : Prop := ∀ c ∈ t.closeAt, c % 2 = 1 → 2 * n < c

lemma isSome_get?_groupByApp (rows : List DomainRow) (id : String) :
    ((groupByApp rows).get? id).isSome ↔ ∃ d ∈ rows, d.appID = id := by
  induction rows using reverseRecOn with
  | nil => simp [groupByApp, Dict.get?_empty]
  | append_singleton rows d ih =>
    rw [groupByApp, foldl_append, foldl_cons, foldl_nil, ← groupByApp, Dict.get?_set]
    simp only [mem_append, mem_singleton]
    by_cases hd : d.appID = id
    · rw [if_pos hd]
      exact iff_of_true rfl ⟨d, .inr rfl, hd⟩
    rw [if_neg hd, ih]
    constructor
    · rintro ⟨d', hd', hid⟩
      exact ⟨d', .inl hd', hid⟩
    · rintro ⟨d', hd' | rfl, hid⟩
      · exact ⟨d', hd', hid⟩
      · exact absurd hid hd

lemma mem_selectDomains {domains : DomainTable} {ids : List String} {d : DomainRow} :
    d ∈ selectDomains domains ids ↔ d ∈ domains.rows ∧ d.appID ∈ ids := by
  rw [selectDomains, mem_insertionSort, mem_filter, decide_eq_true_iff]

lemma groupByApp_eq_iff {domains : DomainTable} {ids ids' : List String} (hsub : ids ⊆ ids') :
    groupByApp (selectDomains domains ids) = groupByApp (selectDomains domains ids') ↔
      ∀ d ∈ domains.rows, d.appID ∈ ids' → d.appID ∈ ids := by
  constructor
  · intro heq d hd hid
    have hsome := (isSome_get?_groupByApp (selectDomains domains ids') d.appID).mpr
      ⟨d, mem_selectDomains.mpr ⟨hd, hid⟩, rfl⟩
    rw [← heq] at hsome
    obtain ⟨d', hd', hid'⟩ := (isSome_get?_groupByApp _ _).mp hsome
    exact hid' ▸ (mem_selectDomains.mp hd').2
  · intro h
    unfold selectDomains
    congr 2
    refine filter_congr fun d hd => ?_
    exact decide_eq_decide.mpr ⟨fun hid => hsub hid, h d hd⟩

variable {apps : AppTable} {domains : DomainTable} {appIDs : List String} {tenantID : String}
  {t1 t2 : QueryTiming}

/-- Neither query reports an error, when the first one reads the given ids. -/
def NoError (domains : DomainTable) (t1 t2 : QueryTiming) (n : ℕ) (ids : List String) : Prop :=
  (t1.fails = none ∧ t1.Scans n) ∧
    (ids = [] ∨ t2.fails = none ∧ t2.Late (selectDomains domains ids).length)

/-- When `ListDomainsByAppIDs` keeps the promise: without interference neither query reports an
error, and when neither does, the ids that the first did not read have no domains. -/
def DomainsInTime (apps : AppTable) (domains : DomainTable) (appIDs : List String)
    (tenantID : String) (t1 t2 : QueryTiming) : Prop :=
  let allowed := selectAllowed apps appIDs tenantID
  let ids := allowed.take (t1.reads allowed.length)
  (t1.Quiet ∧ t2.Quiet → NoError domains t1 t2 allowed.length ids) ∧
    (NoError domains t1 t2 allowed.length ids →
      ∀ d ∈ domains.rows, d.appID ∈ allowed → d.appID ∈ ids)

lemma collect_reads (htimeout : 0 < queryTimeout) (selected : List ρ) (t : QueryTiming) :
    ((t.fails = none ∧ t.Scans selected.length) ∧ ∃ err, collect queryTimeout selected t =
      some (.ok (selected.take (t.reads selected.length), err))) ∨
    (¬(t.fails = none ∧ t.Scans selected.length) ∧
      ∃ e, collect queryTimeout selected t = some (.error e)) := by
  obtain ⟨hfails, hlate, hcollect⟩ | ⟨hfails, k, hclose, hk, hcollect⟩ | ⟨hwhy, e, hcollect⟩ :=
    collect_cases htimeout selected t
  · refine .inl ⟨⟨hfails, fun c hc _ => hlate c hc⟩, none, ?_⟩
    have hreads : t.reads selected.length = selected.length := by
      unfold QueryTiming.reads
      cases hclose : t.closeAt with
      | none => rfl
      | some c =>
        have := hlate c hclose
        exact min_eq_left (by omega)
    rw [hcollect, hreads, take_length]
  · refine .inl ⟨⟨hfails, fun c hc hodd => ?_⟩, some "context canceled", ?_⟩
    · cases hclose.symm.trans hc
      omega
    have hreads : t.reads selected.length = k := by
      rw [QueryTiming.reads, hclose, elim_some, Nat.mul_div_cancel_left k (by decide)]
      exact min_eq_right hk
    rw [hcollect, hreads]
  · refine .inr ⟨?_, e, hcollect⟩
    rintro ⟨hfails, hscans⟩
    rcases hwhy with hwhy | ⟨k, hclose, hk⟩
    · exact hwhy hfails
    · have := hscans _ hclose (by omega)
      omega

lemma collect_grouped (htimeout : 0 < queryTimeout) (rows : List DomainRow) (t : QueryTiming) :
    ((t.fails = none ∧ t.Late rows.length) ∧
      (collect queryTimeout rows t).map (fun
        | .error e => (none, some e)
        | .ok (read, err) => (some (groupByApp read), err)) = some (some (groupByApp rows), none)) ∨
    (¬(t.fails = none ∧ t.Late rows.length) ∧ ∃ groups e,
      (collect queryTimeout rows t).map (fun
        | .error e => (none, some e)
        | .ok (read, err) => (some (groupByApp read), err)) = some (groups, some e)) := by
  obtain ⟨hfails, hlate, hcollect⟩ | ⟨hfails, k, hclose, hk, hcollect⟩ | ⟨hwhy, e, hcollect⟩ :=
    collect_cases htimeout rows t
  · rw [hcollect]
    exact .inl ⟨⟨hfails, hlate⟩, rfl⟩
  · rw [hcollect]
    exact .inr ⟨fun h => not_late_of_closeAt hclose (by omega) h.2, _, _, rfl⟩
  rw [hcollect]
  refine .inr ⟨?_, _, _, rfl⟩
  rintro ⟨hfails, hlate⟩
  rcases hwhy with hwhy | ⟨k, hclose, hk⟩
  · exact hwhy hfails
  · exact not_late_of_closeAt hclose (by omega) hlate

variable {allowed ids : List String} {n : ℕ}
  {result : Option (Option (Dict String (List DomainRow)) × Option String)}

lemma kept_iff_of_noError (hsub : ids ⊆ allowed)
    (hresult : result = some (some (groupByApp (selectDomains domains ids)), none))
    (hno : NoError domains t1 t2 n ids) :
    Kept (t1.Quiet ∧ t2.Quiet) (some (groupByApp (selectDomains domains allowed))) result ↔
      (t1.Quiet ∧ t2.Quiet → NoError domains t1 t2 n ids) ∧
        (NoError domains t1 t2 n ids → ∀ d ∈ domains.rows, d.appID ∈ allowed → d.appID ∈ ids) := by
  rw [kept_of_ok hresult, some.injEq, groupByApp_eq_iff hsub]
  exact ⟨fun h => ⟨fun _ => hno, fun _ => h⟩, fun h => h.2 hno⟩

lemma kept_iff_of_reported {groups expected : Option (Dict String (List DomainRow))} {e : String}
    {P : Prop} (hresult : result = some (groups, some e)) (hno : ¬NoError domains t1 t2 n ids) :
    Kept (t1.Quiet ∧ t2.Quiet) expected result ↔
      (t1.Quiet ∧ t2.Quiet → NoError domains t1 t2 n ids) ∧ (NoError domains t1 t2 n ids → P) := by
  rw [kept_of_error hresult rfl]
  exact ⟨fun hq => ⟨fun h => absurd h hq, fun h => absurd h hno⟩, fun h hq => hno (h.1 hq)⟩

lemma listDomainsByAppIDs_kept_iff (htimeout : 0 < queryTimeout) (apps : AppTable)
    (domains : DomainTable) (appIDs : List String) (tenantID : String) (t1 t2 : QueryTiming) :
    Kept (t1.Quiet ∧ t2.Quiet)
        (if appIDs = [] then none
          else some (groupByApp (selectDomains domains (selectAllowed apps appIDs tenantID))))
        (listDomainsByAppIDs queryTimeout apps domains appIDs tenantID t1 t2) ↔
      appIDs = [] ∨ DomainsInTime apps domains appIDs tenantID t1 t2 := by
  unfold listDomainsByAppIDs
  by_cases hempty : appIDs = []
  · rw [if_pos hempty, if_pos hempty]
    exact (kept_of_ok rfl).trans (iff_of_true rfl (.inl hempty))
  rw [if_neg hempty, if_neg hempty, or_iff_right hempty]
  unfold DomainsInTime
  dsimp only
  generalize selectAllowed apps appIDs tenantID = allowed
  obtain ⟨hread, err, hcollect⟩ | ⟨hread, e, hcollect⟩ := collect_reads htimeout allowed t1
  swap
  · rw [hcollect]
    exact kept_iff_of_reported rfl fun hno => hread hno.1
  rw [hcollect]
  generalize hids : allowed.take (t1.reads allowed.length) = ids
  have hsub : ids ⊆ allowed := hids ▸ take_subset _ _
  dsimp only [bind_some]
  by_cases hnil : ids = []
  · rw [if_pos hnil]
    refine kept_iff_of_noError hsub ?_ ⟨hread, .inl hnil⟩
    have hnone : selectDomains domains ids = [] := by
      rw [hnil]
      simp [selectDomains]
    rw [hnone]
    rfl
  · rw [if_neg hnil]
    obtain ⟨hsecond, hresult⟩ | ⟨hsecond, groups, e, hresult⟩ :=
      collect_grouped htimeout (selectDomains domains ids) t2
    · exact kept_iff_of_noError hsub hresult ⟨hread, .inr hsecond⟩
    · exact kept_iff_of_reported hresult fun hno => hno.2.elim hnil hsecond

/-- **When the list methods over the wrapper keep the promise**, with a positive timeout. -/
theorem list_kept_iff {queryTimeout : ℤ} (htimeout : 0 < queryTimeout) :
    (∀ (ρ : Type) (selected : List ρ) (t : QueryTiming),
      Kept t.Quiet selected (listRows queryTimeout selected t) ↔
        (t.Quiet → t.Late selected.length)) ∧
    (∀ apps tenantID limit offset counting t,
      Kept (counting.Quiet ∧ t.Quiet)
          (DB.listAppsByTenant apps tenantID limit offset,
            (apps.rows.filter (·.tenantID = tenantID)).length)
          (listAppsByTenant queryTimeout apps tenantID limit offset counting t) ↔
        (counting.Quiet ∧ t.Quiet →
          t.Late (DB.listAppsByTenant apps tenantID limit offset).length)) ∧
    ∀ (apps : AppTable) (domains : DomainTable) (appIDs : List String) (tenantID : String)
      (t1 t2 : QueryTiming),
      Kept (t1.Quiet ∧ t2.Quiet)
          (if appIDs = [] then none
            else some (groupByApp (selectDomains domains (selectAllowed apps appIDs tenantID))))
          (listDomainsByAppIDs queryTimeout apps domains appIDs tenantID t1 t2) ↔
        appIDs = [] ∨ DomainsInTime apps domains appIDs tenantID t1 t2 :=
  ⟨fun _ => listRows_kept_iff htimeout, listAppsByTenant_kept_iff htimeout,
    listDomainsByAppIDs_kept_iff htimeout⟩

def twoApps : AppTable :=
  ⟨[{ id := "a1", tenantID := "t1", name := "web" }, { id := "a2", tenantID := "t1", name := "api" }],
    by decide⟩

def twoDomains : DomainTable :=
  ⟨[{ id := "d1", appID := "a1", fqdn := "web.example.com" },
    { id := "d2", appID := "a2", fqdn := "api.example.com" }], by decide⟩

/-- Rows that are closed after the loop over them. -/
theorem list_kept_iff_late :
    Kept (QueryTiming.Quiet {} ∧ ({ closeAt := some 5 } : QueryTiming).Quiet)
      (DB.listAppsByTenant twoApps "t1" 10 0, (twoApps.rows.filter (·.tenantID = "t1")).length)
      (listAppsByTenant 5000000000 twoApps "t1" 10 0 {} { closeAt := some 5 }) := by
  refine ((list_kept_iff (by decide)).2.1 twoApps "t1" 10 0 {} { closeAt := some 5 }).mpr ?_
  rintro - c hc
  cases hc
  decide

/-- Rows that are closed before the second `Next`: `ListAppsByTenant` returns one of two
applications with an error, and `ListDomainsByAppIDs` the domains of one of them without. -/
theorem closed_early :
    let t : QueryTiming := { closeAt := some 2 }
    t.Quiet ∧ QueryTiming.Quiet {} ∧
    (listAppsByTenant 5000000000 twoApps "t1" 10 0 {} t).map (fun r => (r.1.1.map (·.id), r.2)) =
      some (["a1"], some "context canceled") ∧
    (listDomainsByAppIDs 5000000000 twoApps twoDomains ["a1", "a2"] "t1" t {}).map
        (fun r => (r.1.map fun m => m.rows.map Prod.fst, r.2)) =
      some (some ["a1"], none) ∧
    ¬Kept (QueryTiming.Quiet {} ∧ t.Quiet) (DB.listAppsByTenant twoApps "t1" 10 0, 2)
      (listAppsByTenant 5000000000 twoApps "t1" 10 0 {} t) ∧
    ¬Kept (t.Quiet ∧ QueryTiming.Quiet {})
      (some (groupByApp (selectDomains twoDomains (selectAllowed twoApps ["a1", "a2"] "t1"))))
      (listDomainsByAppIDs 5000000000 twoApps twoDomains ["a1", "a2"] "t1" t {}) := by
  refine ⟨⟨rfl, rfl⟩, ⟨rfl, rfl⟩, by decide, by decide, fun h => ?_, fun h => ?_⟩
  · have hcomplete := h.complete ⟨⟨rfl, rfl⟩, rfl, rfl⟩
    exact absurd (congrArg (Option.map Prod.snd) hcomplete) (by decide)
  · have hcomplete := h.complete ⟨⟨rfl, rfl⟩, rfl, rfl⟩
    exact absurd (congrArg (Option.map fun r => r.1.map fun m => m.rows.map Prod.fst) hcomplete)
      (by decide)

end DeployMonster.DB.SQLite
