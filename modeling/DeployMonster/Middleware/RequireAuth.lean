import DeployMonster.Handlers.Auth

/-!
# Authentication of requests

`RequireAuth` of `internal/api/middleware/middleware.go`: a request is served with the claims of a
bearer token, of the cookie `dm_access` or of an API key, in this order.
-/

namespace DeployMonster.Middleware

open Clock Auth DB Handlers

/-- `models.APIKey`, as far as it is read. -/
structure APIKey where
  (userID tenantID keyHash : String)
  expiresAt : Option ℤ

/-- The key-value store: the revoked access tokens, and the API keys by their first characters. -/
structure AuthStores where
  revoked : KVStore AccessTokenRevocation
  getAPIKeyByPrefix : String → Option APIKey
  /-- Whether its reads fail. -/
  fails : Bool

/-- What `RequireAuth` is set up with; `kv` and `store` may be missing. `verifyAPIKey` compares a
key with a bcrypt hash. -/
structure AuthConfig where
  jwt : JWTService
  kv : Option AuthStores
  store : Option (String → Option Membership)
  verifyAPIKey : String → String → Bool

/-- The header `Authorization`: a token after `Bearer `, which need not be one, or something else.
-/
inductive Authorization
  | bearer (token : Option SignedToken)
  | other

structure Credentials where
  authorization : Authorization
  /-- The cookie `dm_access`, when it is not empty. -/
  cookie : Option (Option SignedToken)
  /-- The header `X-API-Key`, empty when it is absent. -/
  apiKey : String

inductive AuthResult
  | served (claims : Claims)
  /-- 401. -/
  | unauthorized (message : String)

def apiKeyPrefixLength : ℕ := 15

/-- `IsAccessTokenRevoked`: an error of the lookup counts as not revoked. -/
def isAccessTokenRevoked (kv : Option AuthStores) (now : ℤ) (jti : String) : Bool :=
  kv.any fun stores =>
    !stores.fails && (stores.revoked.get (unix now) "revoked_access_tokens" jti).isOk

variable (cfg : AuthConfig)

def validateJWTAndServe (now : ℤ) (token : Option SignedToken) : AuthResult :=
  match token.map (cfg.jwt.validateAccessToken now) with
  | some (.ok claims) =>
    if isAccessTokenRevoked cfg.kv now claims.registered.id then
      .unauthorized "token has been revoked"
    else .served claims
  | _ => .unauthorized "invalid token"

/-- The claims of an API key, with the role and, where the key has none, the tenant of its user's
membership. -/
def apiKeyClaims (store : Option (String → Option Membership)) (key : APIKey) : Claims :=
  let registered : RegisteredClaims := ⟨"", "", [], none, none, none, ""⟩
  match store.bind (· key.userID) with
  | none => ⟨registered, key.userID, key.tenantID, "", ""⟩
  | some membership =>
    ⟨registered, key.userID, if key.tenantID = "" then membership.tenantID else key.tenantID,
      membership.roleID, ""⟩

/-- The branch of `RequireAuth` for an API key. -/
def serveAPIKey (now : ℤ) (apiKey : String) : AuthResult :=
  if ¬"dm_".toList.isPrefixOf apiKey.toList then .unauthorized "invalid api key format"
  else if apiKey.length < apiKeyPrefixLength then .unauthorized "invalid api key"
  else
    match cfg.kv with
    | none => .unauthorized "api key authentication not available"
    | some stores =>
      match stores.getAPIKeyByPrefix (String.ofList (apiKey.toList.take apiKeyPrefixLength)) with
      | none => .unauthorized "invalid api key"
      | some storedKey =>
        if ¬cfg.verifyAPIKey apiKey storedKey.keyHash then .unauthorized "invalid api key"
        else if storedKey.expiresAt.any (now > ·) then .unauthorized "api key expired"
        else .served (apiKeyClaims cfg.store storedKey)

def requireAuth (now : ℤ) (r : Credentials) : AuthResult :=
  match r.authorization with
  | .bearer token => validateJWTAndServe cfg now token
  | .other =>
    match r.cookie with
    | some token => validateJWTAndServe cfg now token
    | none =>
      if r.apiKey ≠ "" then serveAPIKey cfg now r.apiKey
      else .unauthorized "missing authorization — use Bearer token or X-API-Key"

def withBearer (token : SignedToken) : Credentials := ⟨.bearer (some token), none, ""⟩

lemma requireAuth_withBearer (now : ℤ) (token : SignedToken) :
    (∃ claims, requireAuth cfg now (withBearer token) = .served claims) ↔
      ∃ claims, cfg.jwt.validateAccessToken now token = .ok claims ∧
        ¬isAccessTokenRevoked cfg.kv now claims.registered.id := by
  simp only [requireAuth, withBearer, validateJWTAndServe, Option.map_some]
  cases cfg.jwt.validateAccessToken now token with
  | error e => simp
  | ok claims =>
    by_cases hrevoked : isAccessTokenRevoked cfg.kv now claims.registered.id <;> simp [hrevoked]

/-- **When a token of one kind is refused as one of the other**: a refresh token only when it is
stale, and by `RequireAuth` also when its id is among the revoked ones; an access token only when it
is stale, or not valid yet. -/
theorem tokenKinds_refused_iff (cfg : AuthConfig) (j : JWTService) (issued now : ℤ)
    (accessID refreshID userID tenantID roleID email : String) :
    let pair := j.generateTokenPair issued accessID refreshID userID tenantID roleID email
    ((∀ claims, cfg.jwt.validateAccessToken now pair.signedRefresh ≠ .ok claims) ↔
        Stale j cfg.jwt now (issued + j.refreshExpiry)) ∧
      ((∀ claims, requireAuth cfg now (withBearer pair.signedRefresh) ≠ .served claims) ↔
        Stale j cfg.jwt now (issued + j.refreshExpiry) ∨
          isAccessTokenRevoked cfg.kv now refreshID) ∧
      ((∀ claims, cfg.jwt.validateSignedRefreshToken now pair.signedAccess ≠ .ok claims) ↔
        Stale j cfg.jwt now (issued + j.accessExpiry) ∨ unix now < unix issued) := by
  intro pair
  have hrefresh := validateAccessToken_refreshToken j cfg.jwt issued now accessID refreshID userID
    tenantID roleID email
  refine ⟨?_, ?_, ?_⟩
  · rw [hrefresh]
    by_cases hstale : Stale j cfg.jwt now (issued + j.refreshExpiry) <;> simp [hstale]
  · rw [← not_exists, requireAuth_withBearer, hrefresh]
    by_cases hstale : Stale j cfg.jwt now (issued + j.refreshExpiry) <;> simp [hstale]
  · rw [validateSignedRefreshToken_accessToken]
    by_cases hstale : Stale j cfg.jwt now (issued + j.accessExpiry) ∨ unix now < unix issued <;>
      simp [hstale]

def someService : JWTService := newJWTService "0123456789abcdef0123456789abcdef" []

def someConfig : AuthConfig where
  jwt := someService
  kv := some ⟨fun _ _ => none, fun _ => none, false⟩
  store := none
  verifyAPIKey := fun _ _ => false

def somePair : TokenPair :=
  someService.generateTokenPair 0 "a1" "r1" "alice" "t1" "owner" "alice@example.org"

/-- **Each token of a fresh pair is accepted as the other**, and `RequireAuth` serves a request with
the refresh token. -/
theorem somePair_exchanged : (someService.validateAccessToken 0 somePair.signedRefresh).isOk ∧
      (∃ claims, requireAuth someConfig 0 (withBearer somePair.signedRefresh) = .served claims) ∧
      someService.validateSignedRefreshToken 0 somePair.signedAccess = .ok ⟨"", "a1"⟩ :=
  ⟨by decide, ⟨_, rfl⟩, by decide⟩

end DeployMonster.Middleware
