import DeployMonster.Auth.JWT
import DeployMonster.Billing.StripeWebhook
import DeployMonster.DB.Tables

/-!
# Creating an application

`AppHandler.Create` of `internal/api/handlers/apps_domain.go`: the lookup of the name, the count and
the creation are three calls of the store, and no constraint of the table repeats the two checks.
-/

namespace DeployMonster.Handlers

open Billing DB Program StepMachine List

structure CreateWorld where
  apps : AppTable
  tenants : TenantTable

inductive CreateCall
  | getAppByName (tenantID name : String)
  | getTenant (id : String)
  | listAppsByTenant (tenantID : String) (limit offset : ℕ)
  | createApp (v : AppValue)
  | getApp (id : String)
  deriving DecidableEq

@[reducible] def CreateAnswer : CreateCall → Type
  | .getAppByName _ _ | .getApp _ => Except String Application
  | .getTenant _ => Except String Tenant
  | .listAppsByTenant _ _ _ => Except String (List Application × ℕ)
  | .createApp _ => Except String String

/-- What the environment decides at a call: the error when it fails, the id that is generated, and
the time. -/
structure CreateChoice where
  fails : Option String := none
  generated : String := ""
  now : ℤ := 0

def CreateChoice.found {α : Type} (o : CreateChoice) (w : CreateWorld) (r : Option α) :
    Option (Except String α × CreateWorld) :=
  match r with
  | none => some (.error (o.fails.getD "not found"), w)
  | some a => attempt o.fails w a w

def appCount (tenantID : String) (t : AppTable) : ℕ :=
  t.rows.countP fun a => a.tenantID = tenantID

def nameCount (tenantID name : String) (t : AppTable) : ℕ :=
  t.rows.countP fun a => a.tenantID = tenantID ∧ a.name = name

def createExec : (c : CreateCall) → CreateWorld → CreateChoice →
    Option (CreateAnswer c × CreateWorld)
  | .getAppByName tenantID name, w, o => o.found w (DB.getAppByName w.apps tenantID name)
  | .getTenant id, w, o => o.found w (w.tenants.find? id)
  | .listAppsByTenant tenantID limit offset, w, o =>
    attempt o.fails w
      (DB.listAppsByTenant w.apps tenantID limit offset, appCount tenantID w.apps) w
  | .createApp v, w, o =>
    match v.create w.apps o.generated o.now with
    | none => some (.error (o.fails.getD "constraint failed"), w)
    | some apps => attempt o.fails w (v.withID o.generated).id { w with apps }
  | .getApp id, w, o => o.found w (DB.getApp w.apps id)

abbrev CreateM := Prog CreateCall CreateAnswer

def storeCall (c : CreateCall) : CreateM (CreateAnswer c) := Prog.perform c

/-! ## The handler -/

/-- `AppHandler`: the operator's cap (`Limits.MaxAppsPerTenant`), and `build.ValidateGitURL`. -/
structure AppHandler where
  maxAppsPerTenant : ℤ
  validateGitURL : String → Except String Unit

/-- The ids of `billing.BuiltinPlans`, with the field `MaxApps`. -/
def builtinPlans : List (String × ℤ) :=
  [("free", 3), ("pro", 25), ("business", 100), ("enterprise", -1)]

def builtinPlanAppLimit (planID : String) : Option ℤ := builtinPlans.lookup planID

def stricterPositiveLimit (a b : ℤ) : ℤ :=
  if a ≤ 0 then b else if b ≤ 0 then a else if a < b then a else b

/-- The limit, with the plan of the tenant if it could be loaded. -/
def AppHandler.limitWith (h : AppHandler) (tenant : Option Tenant) : ℤ :=
  match tenant.bind fun t => builtinPlanAppLimit t.planID with
  | none => h.maxAppsPerTenant
  | some planLimit => stricterPositiveLimit h.maxAppsPerTenant planLimit

def AppHandler.limitOf (h : AppHandler) (tenants : TenantTable) (tenantID : String) : ℤ :=
  h.limitWith (tenants.find? tenantID)

def AppHandler.effectiveAppLimit (h : AppHandler) (tenantID : String) : CreateM ℤ := do
  match ← storeCall (.getTenant tenantID) with
  | .ok tenant => return h.limitWith (some tenant)
  | .error _ => return h.limitWith none

structure CreateAppRequest where
  name : String
  type : String := ""
  sourceType : String := ""
  sourceURL : String := ""
  branch : String := ""
  projectID : String := ""

inductive CreateResponse
  | error (status : ℕ) (message : String)
  | invalid (message : String) (fields : List (String × String))
  /-- 201. -/
  | created (app : AppValue)

/-- The pattern `validAppName`. -/
def validAppName (name : String) : Bool :=
  match name.toList with
  | [] => false
  | c :: cs => c.isAlphanum && cs.length ≤ 99 &&
    cs.all fun c => c.isAlphanum || c ∈ [' ', '.', '_', '-']

/-- `validateAppName`, with its error. -/
def validateAppName (name : String) : Option String :=
  if name = "" then some "name is required"
  else if 100 < name.utf8ByteSize then some "name must be 100 characters or fewer"
  else if ¬validAppName name then
    some ("name must start with a letter or digit and contain only letters, digits, spaces, dots, " ++
      "hyphens, or underscores")
  else none

def tooLong (field value : String) (max : ℕ) : List (String × String) :=
  if max < value.utf8ByteSize then [(field, "must be " ++ toString max ++ " characters or fewer")]
  else []

def AppHandler.gitURLErrors (h : AppHandler) (sourceURL : String) : List (String × String) :=
  if sourceURL = "" then []
  else
    match h.validateGitURL sourceURL with
    | .ok () => []
    | .error e => [("source_url", "invalid git URL: " ++ e)]

def AppHandler.fieldErrors (h : AppHandler) (req : CreateAppRequest) : List (String × String) :=
  tooLong "source_url" req.sourceURL 2048 ++ h.gitURLErrors req.sourceURL ++
    tooLong "branch" req.branch 100 ++ tooLong "type" req.type 50 ++
    tooLong "source_type" req.sourceType 50 ++ tooLong "project_id" req.projectID 100

def newApp (tenantID : String) (req : CreateAppRequest) : AppValue where
  id := ""
  projectID := req.projectID
  name := req.name
  config :=
    { tenantID
      type := if req.type = "" then "service" else req.type
      sourceType := if req.sourceType = "" then "image" else req.sourceType
      sourceURL := req.sourceURL
      branch := if req.branch = "" then "main" else req.branch
      status := "pending"
      replicas := 1 }

/-- `Create`, once the checks have passed. -/
def insertApp (v : AppValue) : CreateM CreateResponse := do
  match ← storeCall (.createApp v) with
  | .error _ => return .error 500 "failed to create application"
  | .ok id =>
    match ← storeCall (.getApp id) with
    | .ok saved => return .created saved.value
    | .error _ => return .created { v with id }

/-- `Create`, once the limit is known. -/
def insertWithin (limit : ℤ) (v : AppValue) : CreateM CreateResponse := do
  if 0 < limit then
    match ← storeCall (.listAppsByTenant v.config.tenantID 1 0) with
    | .error _ => return .error 500 "failed to check app quota"
    | .ok (_, total) =>
      if limit ≤ total then
        return .error 429
          ("tenant app quota exceeded (" ++ toString total ++ "/" ++ toString limit ++ ")")
      insertApp v
  else insertApp v

/-- `Create`, once the name is free: the quota. -/
def AppHandler.checkQuota (h : AppHandler) (v : AppValue) : CreateM CreateResponse := do
  let limit ← h.effectiveAppLimit v.config.tenantID
  insertWithin limit v

/-- `Create`, for a request that is well-formed. -/
def AppHandler.createNew (h : AppHandler) (v : AppValue) : CreateM CreateResponse := do
  match ← storeCall (.getAppByName v.config.tenantID v.name) with
  | .ok _ => return .error 409 "application with this name already exists"
  | .error _ => h.checkQuota v

structure CreateRequest where
  claims : Option Auth.Claims
  /-- The body, when it can be decoded. -/
  body : Option CreateAppRequest

/-- `Create`: POST /api/v1/apps. -/
def AppHandler.create (h : AppHandler) (r : CreateRequest) : CreateM CreateResponse :=
  match r.claims with
  | none => return .error 401 "unauthorized"
  | some claims =>
    match r.body with
    | none => return .error 400 "invalid request body"
    | some req =>
      match validateAppName req.name with
      | some e => return .error 400 e
      | none =>
        if h.fieldErrors req ≠ [] then
          return .invalid "field validation failed" (h.fieldErrors req)
        else h.createNew (newApp claims.tenantID req)

/-! ## The protocol -/

/-- How far a request has come. -/
inductive CreateStage
  | before
  /-- The name was not found. -/
  | looked (v : AppValue)
  /-- The limit is known. -/
  | limited (v : AppValue) (limit : ℤ)
  /-- The tenant is below its limit. -/
  | counted (v : AppValue)
  | done

/-- What a request does, one call at a time. -/
inductive CreateMove (h : AppHandler) :
    CreateStage → (c : CreateCall) → CreateAnswer c → CreateStage → Prop
  | found {tenantID name : String} {a : Application} :
      CreateMove h .before (.getAppByName tenantID name) (.ok a) .done
  | look {v : AppValue} {e : String} :
      CreateMove h .before (.getAppByName v.config.tenantID v.name) (.error e) (.looked v)
  | load {v : AppValue} {tenant : Tenant} :
      CreateMove h (.looked v) (.getTenant v.config.tenantID) (.ok tenant)
        (.limited v (h.limitWith (some tenant)))
  | unloaded {v : AppValue} {e : String} :
      CreateMove h (.looked v) (.getTenant v.config.tenantID) (.error e)
        (.limited v (h.limitWith none))
  | count {v : AppValue} {limit : ℤ} {apps : List Application} {total : ℕ} (hlt : total < limit) :
      CreateMove h (.limited v limit) (.listAppsByTenant v.config.tenantID 1 0) (.ok (apps, total))
        (.counted v)
  | exceeded {v : AppValue} {limit : ℤ} {apps : List Application} {total : ℕ} (hpos : 0 < limit)
      (hle : limit ≤ total) :
      CreateMove h (.limited v limit) (.listAppsByTenant v.config.tenantID 1 0) (.ok (apps, total))
        .done
  | uncounted {v : AppValue} {limit : ℤ} (hpos : 0 < limit) {e : String} :
      CreateMove h (.limited v limit) (.listAppsByTenant v.config.tenantID 1 0) (.error e) .done
  | create {v : AppValue} {r : Except String String} :
      CreateMove h (.counted v) (.createApp v) r .done
  | createUnlimited {v : AppValue} {limit : ℤ} (hle : limit ≤ 0) {r : Except String String} :
      CreateMove h (.limited v limit) (.createApp v) r .done
  | reread {id : String} {r : Except String Application} : CreateMove h .done (.getApp id) r .done

/-- A request returns before its first call or at its end. -/
def CreateDone : CreateStage → CreateResponse → Prop
  | .before, _ | .done, _ => True
  | _, _ => False

variable {h : AppHandler} {v : AppValue}

lemma follows_insertApp {g : CreateStage} (hg : ∀ r, CreateMove h g (.createApp v) r .done) :
    Follows (CreateMove h) CreateDone (insertApp v) g := by
  intro r
  refine ⟨.done, hg r, ?_⟩
  cases r with
  | error e => trivial
  | ok id =>
    rintro (e | saved) <;> exact ⟨.done, .reread, trivial⟩

lemma follows_insertWithin (limit : ℤ) :
    Follows (CreateMove h) CreateDone (insertWithin limit v) (.limited v limit) := by
  unfold insertWithin
  split
  case isTrue hpos =>
    rintro (e | ⟨apps, total⟩)
    · exact ⟨.done, .uncounted hpos, trivial⟩
    dsimp only [Prog.bind]
    split
    case isTrue hle => exact ⟨.done, .exceeded hpos hle, trivial⟩
    case isFalse hle => exact ⟨.counted v, .count (not_le.mp hle), follows_insertApp fun r => .create⟩
  case isFalse hpos => exact follows_insertApp fun r => .createUnlimited (not_lt.mp hpos)

lemma follows_checkQuota : Follows (CreateMove h) CreateDone (h.checkQuota v) (.looked v) := by
  rintro (e | tenant)
  · exact ⟨_, .unloaded, follows_insertWithin _⟩
  · exact ⟨_, .load, follows_insertWithin _⟩

/-- **The handler keeps to the protocol.** -/
theorem follows_create (h : AppHandler) (r : CreateRequest) :
    Follows (CreateMove h) CreateDone (h.create r) .before := by
  unfold AppHandler.create
  split
  · trivial
  split
  · trivial
  split
  · trivial
  split
  · trivial
  · rintro (e | a)
    · exact ⟨_, .look, follows_checkQuota⟩
    · exact ⟨_, .found, trivial⟩

def CreateStage.value? : CreateStage → Option AppValue
  | .looked v | .limited v _ | .counted v => some v
  | .before | .done => none

def CreateCall.creates : CreateCall → Bool
  | .createApp _ => true
  | _ => false

variable {c : CreateCall} {r : CreateAnswer c} {w w' : CreateWorld} {o : CreateChoice}

lemma of_found {α : Type} {r : Option α} {a : Except String α} (h : o.found w r = some (a, w')) :
    w' = w ∧ ((∃ e, a = .error e ∧ (o.fails = none → r = none)) ∨ ∃ x, r = some x ∧ a = .ok x) := by
  cases r with
  | none =>
    cases h
    exact ⟨rfl, .inl ⟨_, rfl, fun _ => rfl⟩⟩
  | some x =>
    rcases attempt_eq_some h with ⟨e, hfails, rfl, rfl⟩ | ⟨-, rfl, rfl⟩
    · exact ⟨rfl, .inl ⟨e, rfl, fun hnone => nomatch hfails.symm.trans hnone⟩⟩
    · exact ⟨rfl, .inr ⟨x, rfl, rfl⟩⟩

lemma tables_of_createExec (h : createExec c w o = some (r, w')) :
    w' = w ∨ ∃ v, c = .createApp v ∧ w'.tenants = w.tenants ∧
      v.create w.apps o.generated o.now = some w'.apps := by
  cases c with
  | getAppByName | getTenant | getApp => exact .inl (of_found h).1
  | listAppsByTenant =>
    rcases attempt_eq_some h with ⟨-, -, -, rfl⟩ | ⟨-, -, rfl⟩ <;> exact .inl rfl
  | createApp v =>
    dsimp only [createExec] at h
    split at h
    case h_1 =>
      cases h
      exact .inl rfl
    case h_2 apps hcreate =>
      rcases attempt_eq_some h with ⟨-, -, -, rfl⟩ | ⟨-, -, rfl⟩
      · exact .inl rfl
      · exact .inr ⟨v, rfl, rfl, hcreate⟩

lemma tenants_of_createExec (h : createExec c w o = some (r, w')) : w'.tenants = w.tenants := by
  rcases tables_of_createExec h with rfl | ⟨v, -, htenants, -⟩
  · rfl
  · exact htenants

lemma apps_of_createExec (h : createExec c w o = some (r, w')) (hc : c.creates = false) :
    w'.apps = w.apps := by
  rcases tables_of_createExec h with rfl | ⟨v, rfl, -, -⟩
  · rfl
  · nomatch hc

variable {t t' : AppTable} {generated : String} {now : ℤ}

lemma appCount_of_create (h : v.create t generated now = some t') (tenantID : String) :
    appCount tenantID t' = appCount tenantID t + if v.config.tenantID = tenantID then 1 else 0 := by
  obtain ⟨row, hrows, htenant, -⟩ := AppValue.rows_of_create h
  rw [appCount, hrows, countP_append, countP_singleton, htenant]
  simp only [decide_eq_true_eq, appCount]

lemma nameCount_of_create (h : v.create t generated now = some t') (tenantID name : String) :
    nameCount tenantID name t' = nameCount tenantID name t +
      if v.config.tenantID = tenantID ∧ v.name = name then 1 else 0 := by
  obtain ⟨row, hrows, htenant, hname⟩ := AppValue.rows_of_create h
  rw [nameCount, hrows, countP_append, countP_singleton, htenant, hname]
  simp only [decide_eq_true_eq, nameCount]

lemma nameCount_eq_zero {tenantID name : String} (h : DB.getAppByName t tenantID name = none) :
    nameCount tenantID name t = 0 :=
  countP_eq_zero.mpr fun row hrow => find?_eq_none.mp h row hrow

/-! ## The conditions -/

def CreateCall.createsFor (tenantID : String) : CreateCall → Bool
  | .createApp v => v.config.tenantID = tenantID
  | _ => false

def CreateCall.looksFor (tenantID : String) : CreateCall → Bool
  | .getAppByName t _ => t = tenantID
  | _ => false

/-- The application that a program is about to create, when it has looked for the name: what it does
if nothing is found to be wrong. -/
def pending {α : Type} : CreateM α → Option AppValue
  | .call (.createApp v) _ => some v
  | .call (.listAppsByTenant _ _ _) k => pending (k (.ok ([], 0)))
  | .call (.getTenant _) k => pending (k (.error ""))
  | _ => none

/-- The requests in flight. -/
abbrev CreateState := CreateWorld × List (CreateM CreateResponse)

def others (s : CreateState) (i : ℕ) : List (CreateM CreateResponse) := s.2.eraseIdx i

/-- A request of the tenant performs `CreateApp` only while no other is between its quota check and
its own; and the plan is read without an error, unless the limit does not depend on it. -/
def QuotaAlone (h : AppHandler) (tenantID : String) (s : CreateState) (a : ℕ × CreateChoice) : Prop :=
  ∀ p ∈ s.2[a.1]?, ∀ c ∈ p.next?,
    (c.createsFor tenantID = true →
      ∀ q ∈ others s a.1, ∀ c' ∈ q.next?, c'.createsFor tenantID = false) ∧
    (c = .getTenant tenantID →
      a.2.fails = none ∨ h.limitWith none = h.limitOf s.1.tenants tenantID)
  deriving Decidable

/-- A request of the tenant performs `CreateApp` only while no other one of the same name is between
its lookup and its own; and no lookup fails. -/
def NameAlone (tenantID : String) (s : CreateState) (a : ℕ × CreateChoice) : Prop :=
  ∀ p ∈ s.2[a.1]?, ∀ c ∈ p.next?,
    (c.createsFor tenantID = true → ∀ v ∈ pending p, ∀ q ∈ others s a.1, ∀ v' ∈ pending q,
      v'.config.tenantID = tenantID → v'.name ≠ v.name) ∧
    (c.looksFor tenantID = true → a.2.fails = none)
  deriving Decidable

instance (c : CreateCall) : Inhabited (CreateAnswer c) := by
  cases c with
  | _ => exact ⟨.error ""⟩

variable {p : CreateM CreateResponse} {s : CreateState} {i j : ℕ}

lemma mem_others (hne : j ≠ i) (hp : s.2[j]? = some p) : p ∈ others s i :=
  mem_eraseIdx_iff_getElem?.mpr ⟨j, hne, hp⟩

lemma next_of_counted (hp : Follows (CreateMove h) CreateDone p (.counted v)) :
    p.next? = some (.createApp v) := by
  cases p with
  | ret r => exact hp.elim
  | call c k =>
    obtain ⟨g, hmove, -⟩ := hp default
    cases hmove
    rfl

lemma pending_of_next (hp : p.next? = some (.createApp v)) : pending p = some v := by
  cases p with
  | ret r => nomatch hp
  | call c k =>
    cases hp
    rfl

lemma pending_of_limited {limit : ℤ}
    (hp : Follows (CreateMove h) CreateDone p (.limited v limit)) : pending p = some v := by
  cases p with
  | ret r => exact hp.elim
  | call c k =>
    obtain ⟨g, hmove, -⟩ := hp default
    cases c with
    | createApp v' =>
      cases hmove
      rfl
    | listAppsByTenant tenantID limit' offset =>
      obtain ⟨g', hmove', hk⟩ := hp (.ok ([], 0))
      cases hmove' with
      | count =>
        rw [pending]
        exact pending_of_next (next_of_counted hk)
      | exceeded hpos hle => exact absurd hle (not_le.mpr hpos)
    | getAppByName | getTenant | getApp => cases hmove

lemma pending_of_follows {g : CreateStage} (hg : g.value? = some v)
    (hp : Follows (CreateMove h) CreateDone p g) : pending p = some v := by
  cases g with
  | before | done => nomatch hg
  | looked v' =>
    cases hg
    cases p with
    | ret r => exact hp.elim
    | call c k =>
      obtain ⟨g, hmove, -⟩ := hp default
      cases c with
      | getTenant id =>
        obtain ⟨g', hmove', hk⟩ := hp (.error "")
        cases hmove'
        rw [pending]
        exact pending_of_limited hk
      | getAppByName | listAppsByTenant | createApp | getApp => cases hmove
  | limited v' limit =>
    cases hg
    exact pending_of_limited hp
  | counted v' =>
    cases hg
    exact pending_of_next (next_of_counted hp)

/-! ## The limit -/

/-- What the stage of a request says of the limit of the tenant: the limit that it knows is the
effective one, and once it has counted the tenant is below it. -/
def QuotaSeen (tenantID : String) (limit : ℤ) (w : CreateWorld) : CreateStage → Prop
  | .limited v l => v.config.tenantID = tenantID → l = limit
  | .counted v => v.config.tenantID = tenantID → appCount tenantID w.apps < limit
  | _ => True

structure Within (h : AppHandler) (tenantID : String) (w0 w : CreateWorld) : Prop where
  tenants : w.tenants = w0.tenants
  le : (appCount tenantID w.apps : ℤ) ≤
    max (h.limitOf w0.tenants tenantID) (appCount tenantID w0.apps)

variable {tenantID : String} {w0 : CreateWorld}

lemma Within.of_apps (hw : Within h tenantID w0 w) (hexec : createExec c w o = some (r, w'))
    (hc : c.creates = false) : Within h tenantID w0 w' where
  tenants := (tenants_of_createExec hexec).trans hw.tenants
  le := by
    rw [apps_of_createExec hexec hc]
    exact hw.le

lemma Within.of_create (hw : Within h tenantID w0 w) {r : Except String String}
    (hexec : createExec (.createApp v) w o = some (r, w')) (hroom : v.config.tenantID = tenantID →
      appCount tenantID w.apps < h.limitOf w0.tenants tenantID) : Within h tenantID w0 w' := by
  refine ⟨(tenants_of_createExec hexec).trans hw.tenants, ?_⟩
  rcases tables_of_createExec hexec with rfl | ⟨v', hv', -, hcreate⟩
  · exact hw.le
  cases hv'
  rw [appCount_of_create hcreate]
  split
  case isTrue htenant =>
    refine le_trans ?_ (le_max_left _ _)
    have := hroom htenant
    omega
  case isFalse => exact hw.le

lemma limitWith_of_getTenant {r : Except String Tenant}
    (hexec : createExec (.getTenant tenantID) w o = some (r, w'))
    (hread : o.fails = none ∨ h.limitWith none = h.limitOf w.tenants tenantID) :
    h.limitWith r.toOption = h.limitOf w.tenants tenantID := by
  rcases (of_found hexec).2 with ⟨e, rfl, hnone⟩ | ⟨tenant, htenant, rfl⟩
  · rcases hread with hfails | hsame
    · rw [AppHandler.limitOf, hnone hfails]
      rfl
    · exact hsame
  · rw [AppHandler.limitOf, htenant]
    rfl

variable {a : ℕ × CreateChoice} {t : CreateWorld} {k : CreateAnswer c → CreateM CreateResponse}
  {g g' : CreateStage}

lemma quota_move (hpos : 0 < h.limitOf w0.tenants tenantID) (hw : Within h tenantID w0 s.1)
    (hseen : QuotaSeen tenantID (h.limitOf w0.tenants tenantID) s.1 g)
    (halone : QuotaAlone h tenantID s a) (hi : s.2[a.1]? = some (.call c k))
    (hexec : createExec c s.1 a.2 = some (r, t)) (hmove : CreateMove h g c r g') :
    Within h tenantID w0 t ∧ QuotaSeen tenantID (h.limitOf w0.tenants tenantID) t g' := by
  cases hmove with
  | load | unloaded =>
    refine ⟨hw.of_apps hexec rfl, ?_⟩
    rintro rfl
    rw [← hw.tenants]
    exact limitWith_of_getTenant hexec ((halone _ hi _ rfl).2 rfl)
  | @count v limit apps total hlt =>
    refine ⟨hw.of_apps hexec rfl, ?_⟩
    rintro rfl
    rcases attempt_eq_some hexec with ⟨e, -, hanswer, -⟩ | ⟨-, hanswer, rfl⟩
    · nomatch hanswer
    · obtain ⟨-, htotal⟩ := Prod.mk.inj (Except.ok.inj hanswer)
      rw [← htotal, ← hseen rfl]
      exact hlt
  | create =>
    exact ⟨hw.of_create hexec hseen, trivial⟩
  | @createUnlimited v limit hle =>
    refine ⟨hw.of_create hexec fun htenant => ?_, trivial⟩
    exact absurd (hseen htenant ▸ hpos) (not_lt.mpr hle)
  | _ => exact ⟨hw.of_apps hexec rfl, trivial⟩

lemma quota_others (hseen : QuotaSeen tenantID (h.limitOf w0.tenants tenantID) s.1 g')
    (halone : QuotaAlone h tenantID s a) (hi : s.2[a.1]? = some (.call c k))
    (hexec : createExec c s.1 a.2 = some (r, t)) (hne : i ≠ a.1) (hp : s.2[i]? = some p)
    (hfollows : Follows (CreateMove h) CreateDone p g') :
    QuotaSeen tenantID (h.limitOf w0.tenants tenantID) t g' := by
  cases g' with
  | before | looked | done => trivial
  | limited => exact hseen
  | counted v =>
    intro htenant
    rcases tables_of_createExec hexec with rfl | ⟨v', rfl, -, hcreate⟩
    · exact hseen htenant
    rw [appCount_of_create hcreate]
    split
    case isFalse => exact hseen htenant
    case isTrue htenant' =>
      have hfalse := (halone _ hi _ rfl).1 (decide_eq_true htenant') p (mem_others hne hp) _
        (next_of_counted hfollows)
      exact absurd htenant (of_decide_eq_false hfalse)

/-! ## The names -/

/-- What the stage of a request says of the names of the tenant: none of its applications has the
name that the request has looked for. -/
def NameSeen (tenantID : String) (w : CreateWorld) (g : CreateStage) : Prop :=
  ∀ v ∈ g.value?, v.config.tenantID = tenantID → nameCount tenantID v.name w.apps = 0

/-- No name of the tenant has come to be used twice. -/
def Unique (tenantID : String) (w0 w : CreateWorld) : Prop :=
  ∀ name, nameCount tenantID name w.apps ≤ max 1 (nameCount tenantID name w0.apps)

lemma Unique.of_apps (hw : Unique tenantID w0 w) (hexec : createExec c w o = some (r, w'))
    (hc : c.creates = false) : Unique tenantID w0 w' := by
  rw [Unique, apps_of_createExec hexec hc]
  exact hw

lemma Unique.of_create (hw : Unique tenantID w0 w) {r : Except String String}
    (hexec : createExec (.createApp v) w o = some (r, w'))
    (hfree : v.config.tenantID = tenantID → nameCount tenantID v.name w.apps = 0) :
    Unique tenantID w0 w' := by
  intro name
  rcases tables_of_createExec hexec with rfl | ⟨v', hv', -, hcreate⟩
  · exact hw name
  cases hv'
  rw [nameCount_of_create hcreate]
  split
  case isTrue hname =>
    obtain ⟨htenant, rfl⟩ := hname
    rw [hfree htenant]
    exact le_max_left _ _
  case isFalse => exact hw name

lemma NameSeen.of_apps (hseen : NameSeen tenantID w g) (hexec : createExec c w o = some (r, w'))
    (hc : c.creates = false) (hvalue : g'.value? = g.value?) : NameSeen tenantID w' g' := by
  rw [NameSeen, hvalue, apps_of_createExec hexec hc]
  exact hseen

lemma nameSeen_of_value?_eq_none (hg : g.value? = none) :
    NameSeen tenantID w g := by
  intro v hv
  rw [hg] at hv
  nomatch hv

lemma name_move (hw : Unique tenantID w0 s.1) (hseen : NameSeen tenantID s.1 g)
    (halone : NameAlone tenantID s a) (hi : s.2[a.1]? = some (.call c k))
    (hexec : createExec c s.1 a.2 = some (r, t)) (hmove : CreateMove h g c r g') :
    Unique tenantID w0 t ∧ NameSeen tenantID t g' := by
  cases hmove with
  | found | exceeded | uncounted | reread => exact ⟨hw.of_apps hexec rfl, nameSeen_of_value?_eq_none rfl⟩
  | @look v e =>
    refine ⟨hw.of_apps hexec rfl, ?_⟩
    rintro _ ⟨rfl⟩ rfl
    have hfails := (halone _ hi _ rfl).2 (decide_eq_true rfl)
    obtain ⟨rfl, ⟨e', -, hnone⟩ | ⟨a, -, hanswer⟩⟩ := of_found hexec
    · exact nameCount_eq_zero (hnone hfails)
    · nomatch hanswer
  | load | unloaded | count => exact ⟨hw.of_apps hexec rfl, hseen.of_apps hexec rfl rfl⟩
  | create | createUnlimited => exact ⟨hw.of_create hexec (hseen _ rfl), nameSeen_of_value?_eq_none rfl⟩

lemma name_others (hseen : NameSeen tenantID s.1 g')
    (halone : NameAlone tenantID s a) (hi : s.2[a.1]? = some (.call c k))
    (hexec : createExec c s.1 a.2 = some (r, t)) (hne : i ≠ a.1) (hp : s.2[i]? = some p)
    (hfollows : Follows (CreateMove h) CreateDone p g') : NameSeen tenantID t g' := by
  intro v hv htenant
  rcases tables_of_createExec hexec with rfl | ⟨v', rfl, -, hcreate⟩
  · exact hseen v hv htenant
  rw [nameCount_of_create hcreate]
  split
  case isFalse => exact hseen v hv htenant
  case isTrue hname =>
    have hdiffers := (halone _ hi _ rfl).1 (decide_eq_true hname.1) v' rfl p (mem_others hne hp) v
      (pending_of_follows hv hfollows) htenant
    exact absurd hname.2.symm hdiffers

/-- **The limit and the names.** In every interleaving in which the applications of the tenant are
created alone, in the sense of `QuotaAlone`, the tenant does not exceed its limit; and in the sense
of `NameAlone`, no two of its applications come to have one name. -/
theorem create_within_limits (h : AppHandler) (tenantID : String) (requests : List CreateRequest)
    (w : CreateWorld) {as : List (ℕ × CreateChoice)} {s : CreateState}
    (hpos : 0 < h.limitOf w.tenants tenantID)
    (hrun : run (poolStep createExec) (w, requests.map h.create) as = some s) :
    (Along (poolStep createExec) (QuotaAlone h tenantID) (w, requests.map h.create) as →
      (appCount tenantID s.1.apps : ℤ) ≤
        max (h.limitOf w.tenants tenantID) (appCount tenantID w.apps)) ∧
    (Along (poolStep createExec) (NameAlone tenantID) (w, requests.map h.create) as →
      ∀ name, nameCount tenantID name s.1.apps ≤ max 1 (nameCount tenantID name w.apps)) := by
  have htracks : Tracks (CreateMove h) CreateDone (requests.map h.create)
      (requests.map fun _ => .before) := tracks_map fun r _ => follows_create h r
  have hbefore : ∀ g ∈ requests.map fun _ => CreateStage.before, g = .before :=
    forall_mem_map.mpr fun _ _ => rfl
  constructor
  · intro halong
    refine (Tracks.of_along_each (J := Within h tenantID w)
      (K := QuotaSeen tenantID (h.limitOf w.tenants tenantID)) ?_ ?_ htracks
      ⟨rfl, le_max_right _ _⟩ ?_ halong hrun).le
    · intro s a t c k r g g' hw hseen halone hi hexec hmove
      exact quota_move hpos hw hseen halone hi hexec hmove
    · intro s a t c k r g i p g' _ _ halone hi hexec hne hp hfollows hseen
      exact quota_others hseen halone hi hexec hne hp hfollows
    · intro g hg
      rw [hbefore g hg]
      trivial
  · intro halong
    refine Tracks.of_along_each (J := Unique tenantID w) (K := NameSeen tenantID) ?_ ?_ htracks
      (fun _ => le_max_right _ _) ?_ halong hrun
    · intro s a t c k r g g' hw hseen halone hi hexec hmove
      exact name_move hw hseen halone hi hexec hmove
    · intro s a t c k r g i p g' _ _ halone hi hexec hne hp hfollows hseen
      exact name_others hseen halone hi hexec hne hp hfollows
    · intro g hg
      rw [hbefore g hg]
      exact nameSeen_of_value?_eq_none rfl

def ownerClaims : Auth.Claims where
  registered := ⟨"deploymonster", "u1", [], none, none, none, ""⟩
  userID := "u1"
  tenantID := "t1"
  roleID := "role_owner"
  email := "owner@example.com"

def createNamed (name : String) : CreateRequest :=
  { claims := some ownerClaims, body := some { name, projectID := "p1" } }

def newTenant : CreateWorld where
  apps := .empty
  tenants := Table.empty.insert ⟨"t1", "free", .empty⟩ not_mem_nil

def capped (maxAppsPerTenant : ℤ) : AppHandler where
  maxAppsPerTenant
  validateGitURL _ := .ok ()

def inTurn : List (ℕ × CreateChoice) :=
  [(0, {}), (0, {}), (0, {}), (0, { generated := "a1" }), (0, {}),
    (1, {}), (1, {}), (1, {}), (1, { generated := "a2" }), (1, {})]

def together : List (ℕ × CreateChoice) :=
  [(0, {}), (1, {}), (0, {}), (1, {}), (0, {}), (1, {}), (0, { generated := "a1" }),
    (1, { generated := "a2" })]

theorem create_within_limits_inTurn :
    0 < (capped 2).limitOf newTenant.tenants "t1" ∧
    ∃ s, run (poolStep createExec)
        (newTenant, [createNamed "shop", createNamed "blog"].map (capped 2).create) inTurn = some s ∧
      (appCount "t1" s.1.apps : ℤ) ≤ 2 ∧ nameCount "t1" "shop" s.1.apps ≤ 1 := by
  have hpos : 0 < (capped 2).limitOf newTenant.tenants "t1" := by decide
  obtain ⟨s, hrun⟩ : ∃ s, run (poolStep createExec)
      (newTenant, [createNamed "shop", createNamed "blog"].map (capped 2).create) inTurn = some s := by
    decide +kernel
  obtain ⟨hquota, hnames⟩ := create_within_limits _ _ _ _ hpos hrun
  exact ⟨hpos, s, hrun, hquota (by decide +kernel), hnames (by decide +kernel) "shop"⟩

/-- A limit of one application, and two requests that run call by call: both pass both checks, and
the tenant has two applications of one name. -/
theorem together_exceed : (capped 1).limitOf newTenant.tenants "t1" = 1 ∧
    ∃ s, run (poolStep createExec)
        (newTenant, [createNamed "shop", createNamed "shop"].map (capped 1).create) together = some s ∧
      appCount "t1" s.1.apps = 2 ∧ nameCount "t1" "shop" s.1.apps = 2 :=
  ⟨by decide, by decide +kernel⟩

end DeployMonster.Handlers
