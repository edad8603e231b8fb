import DeployMonster.Auth.JWT
import DeployMonster.DB.Tables

/-!
# Transferring an application

`TransferApp` of `internal/api/handlers/app_features.go` writes the application with `UpdateApp`,
which does not write the tenant.
-/

namespace DeployMonster.Handlers

open DB StepMachine Option

structure TransferRequest where
  /-- The path value `id`. -/
  appID : String
  /-- `target_tenant_id`, when the body can be decoded. -/
  body : Option String
  claims : Option Auth.Claims := none

/-- What the store calls of a request meet. -/
structure TransferCalls where
  getAppFails : Bool := false
  /-- The ids of the tenants. -/
  tenants : List String
  getTenantFails : Bool := false
  /-- The statements of others between `GetApp` and `UpdateApp`. -/
  between : List AppEvent := []
  updateFails : Bool := false
  now : ℤ

inductive TransferResponse
  | error (status : ℕ) (message : String)
  /-- 200, with the status transferred. -/
  | transferred (appID fromTenant toTenant : String)
  deriving DecidableEq

/-- The check of the claims: a user of a tenant who is no super-admin has to be of the tenant of the
application. -/
def denied (claims : Option Auth.Claims) (app : Application) : Prop :=
  ∃ c ∈ claims, c.tenantID ≠ "" ∧ c.roleID ≠ "role_super_admin" ∧ app.tenantID ≠ c.tenantID
  deriving Decidable

/-- The part of `TransferApp` before the write: the application and the target. -/
def checkTransfer (r : TransferRequest) (calls : TransferCalls) (t : AppTable) :
    Except (ℕ × String) (Application × String) :=
  if r.appID = "" then .error (400, "id is required")
  else
    match r.body with
    | none => .error (400, "invalid request body")
    | some target =>
      if target = "" then .error (400, "target_tenant_id required")
      else
        match if calls.getAppFails then none else getApp t r.appID with
        | none => .error (404, "app not found")
        | some app =>
          if denied r.claims app then .error (403, "access denied to this app")
          else if app.tenantID = "" then .error (400, "app has no tenant assigned")
          else if calls.getTenantFails ∨ target ∉ calls.tenants then
            .error (404, "target tenant not found")
          else .ok (app, target)

def transferApp (r : TransferRequest) (calls : TransferCalls) (t : AppTable) :
    Option (TransferResponse × AppTable) :=
  (run appStep t calls.between).map fun t' =>
    match checkTransfer r calls t with
    | .error (status, message) => (.error status message, t')
    | .ok (app, target) =>
      if calls.updateFails then (.error 500 "transfer failed", t')
      else
        (.transferred r.appID app.tenantID target,
          updateApp t' { app with tenantID := target } calls.now)

variable {r : TransferRequest} {calls : TransferCalls} {t t' t'' : AppTable}
  {appID fromTenant toTenant : String}

lemma getApp_of_checkTransfer {app : Application} {target : String}
    (h : checkTransfer r calls t = .ok (app, target)) : getApp t r.appID = some app := by
  unfold checkTransfer at h
  split at h
  · nomatch h
  split at h
  · nomatch h
  split at h
  · nomatch h
  split at h
  · nomatch h
  rename_i found hfound
  have happ : found = app := by
    split_ifs at h
    exact (Prod.mk.inj (Except.ok.inj h)).1
  rw [← happ]
  exact (ite_none_left_eq_some.mp hfound).2

variable (h : transferApp r calls t = some (.transferred appID fromTenant toTenant, t''))
include h

lemma exists_of_transferred (hbetween : run appStep t calls.between = some t') :
    appID = r.appID ∧ ∃ app, getApp t appID = some app ∧ app.tenantID = fromTenant ∧
      t'' = updateApp t' { app with tenantID := toTenant } calls.now := by
  unfold transferApp at h
  rw [hbetween, map_some, some.injEq] at h
  cases hcheck : checkTransfer r calls t with
  | error refusal =>
    rw [hcheck] at h
    nomatch (Prod.mk.inj h).1
  | ok checked =>
    obtain ⟨app, target⟩ := checked
    rw [hcheck] at h
    dsimp only at h
    split at h
    · nomatch (Prod.mk.inj h).1
    · obtain ⟨hresponse, htable⟩ := Prod.mk.inj h
      obtain ⟨rfl, hfrom, rfl⟩ := TransferResponse.transferred.inj hresponse
      exact ⟨rfl, app, getApp_of_checkTransfer hcheck, hfrom, htable.symm⟩

/-- **The row keeps its tenant**: the application is the target's exactly when it was right before
the write. -/
theorem transferApp_tenant_iff (hbetween : run appStep t calls.between = some t') :
    (getApp t'' appID).map Application.tenantID = some toTenant ↔
      (getApp t' appID).map Application.tenantID = some toTenant := by
  obtain ⟨-, app, -, -, rfl⟩ := exists_of_transferred h hbetween
  rw [getApp_updateApp, map_map]
  have hkeeps : (Application.tenantID ∘ fun row => if appID = app.id then
      Application.write { app with tenantID := toTenant } calls.now row else row) =
      Application.tenantID := by
    funext row
    split <;> rfl
  rw [hkeeps]

omit h

/-- **When what is written is read back**: of what is created, when it has no port; of what is
updated, when there is a row and it has what `UpdateApp` does not write. A transferred application
belongs to the target when it did right before the write. -/
theorem stored_iff {events : List AppEvent} {t : AppTable}
    (hrun : run appStep .empty events = some t) :
    (∀ (v : AppValue) (generated : String) (now : ℤ) (t' : AppTable),
      v.create t generated now = some t' →
        (ReadsBack t' (v.withID generated) ↔ v.config.port = 0)) ∧
    (∀ (v : AppValue) (now : ℤ) (t' : AppTable), v.update t now = some t' →
      (ReadsBack t' v ↔ ∃ row, getApp t v.id = some row ∧ v.Matches row)) ∧
    ∀ (r : TransferRequest) (calls : TransferCalls) (appID fromTenant toTenant : String)
      (t' t'' : AppTable), run appStep t calls.between = some t' →
        transferApp r calls t = some (.transferred appID fromTenant toTenant, t'') →
          ((getApp t'' appID).map Application.tenantID = some toTenant ↔
            (getApp t' appID).map Application.tenantID = some toTenant) := by
  refine ⟨?_, ?_, ?_⟩
  · intro v generated now t' hcreate
    exact create_readsBack_iff hcreate
  · intro v now t' hupdate
    exact update_readsBack_iff hrun hupdate
  · intro r calls appID fromTenant toTenant t' t'' hbetween h
    exact transferApp_tenant_iff h hbetween

def shop : AppValue :=
  { id := "shop", projectID := "p1", name := "shop"
    config := { tenantID := "t1", sourceType := "image", sourceURL := "nginx:1.27" } }

def shopTable : AppTable := (shop.create .empty "" 0).getD .empty

def moveShop : TransferRequest := { appID := "shop", body := some "t2" }

def moveShopCalls : TransferCalls := { tenants := ["t1", "t2"], now := 60 }

theorem stored_iff_shop : run appStep .empty [.create shop "" 0] = some shopTable ∧
    ∃ t, transferApp moveShop moveShopCalls shopTable =
      some (.transferred "shop" "t1" "t2", t) ∧
        ((getApp t "shop").map Application.tenantID = some "t2" ↔
          (getApp shopTable "shop").map Application.tenantID = some "t2") := by
  have hcreated : run appStep .empty [.create shop "" 0] = some shopTable := rfl
  have hmoved : transferApp moveShop moveShopCalls shopTable =
    some (.transferred "shop" "t1" "t2", _) := rfl
  exact ⟨hcreated, _, hmoved, (stored_iff hcreated).2.2 _ _ _ _ _ _ _ rfl hmoved⟩

/-- The transfer of the shop answers that it is now of `t2`, and it still is of `t1`. A port that is
given to the shop is not read back. -/
theorem shop_stays : ((run appStep .empty [.create shop "" 0]).bind fun t =>
      (transferApp moveShop moveShopCalls t).map fun result =>
        (result.1, (getApp result.2 "shop").map Application.tenantID)) =
      some (.transferred "shop" "t1" "t2", some "t1") ∧
    ((run appStep .empty [.create { shop with config := { shop.config with port := 8080 } } "" 0]).bind
      fun t => (getApp t "shop").map Application.port) = some 0 := by
  decide

end DeployMonster.Handlers
