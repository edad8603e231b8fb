import DeployMonster.Auth.Password
import DeployMonster.DB.Tables
import DeployMonster.Handlers.Auth
import DeployMonster.Library.SHA256

/-!
# Accounts and sessions

The handlers of `internal/api/handlers/auth.go` and `internal/api/handlers/sessions.go` that issue
and revoke refresh tokens, with the bookkeeping of sessions written out.
-/

namespace DeployMonster.Handlers.Accounts

open Clock DeployMonster.Auth DB Program

/-! ## Calls -/

structure SessionTrackingInfo where
  (userID jti ip userAgent : String)
  createdAt : ℤ

structure AccountRateLimitEntry where
  failedCount : ℤ
  /-- 0 when the account is not locked. -/
  lockedUntil : ℤ

/-- What the handlers keep in the key-value store. -/
inductive AuthValue
  | revoked (b : Bool)
  | session (info : SessionTrackingInfo)
  | rateLimit (entry : AccountRateLimitEntry)
  | accessRevocation (entry : AccessTokenRevocation)

inductive AccountCall
  | now
  | kvGet (bucket key : String)
  | kvSet (bucket key : String) (value : AuthValue) (ttlSeconds : ℤ)
  | kvDelete (bucket key : String)
  | kvList (bucket : String)
  | getUser (id : String)
  | getUserByEmail (email : String)
  | getUserMembership (userID : String)
  | updateLastLogin (userID : String)
  | updatePassword (userID passwordHash : String)
  | createTenantWithDefaults (name : String)
  | createUserWithMembership (email passwordHash name tenantID roleID : String)
  | getInviteByTokenHash (tokenHash : String)
  | acceptInvite (id : String)
  | validateTOTP (userID code : String)
  | generateTokenPair (jwt : JWTService) (userID tenantID roleID email : String)

@[reducible] def AccountAnswer : AccountCall → Type
  | .now => ℤ
  | .kvGet _ _ => Except KVError AuthValue
  | .kvSet _ _ _ _ | .kvDelete _ _ => Except KVError Unit
  | .kvList _ => Except KVError (List String)
  | .getUser _ | .getUserByEmail _ => Except StoreError UserRow
  | .getUserMembership _ => Except StoreError TeamMember
  | .updateLastLogin _ | .updatePassword _ _ | .acceptInvite _ => Except StoreError Unit
  | .createTenantWithDefaults _ | .createUserWithMembership _ _ _ _ _ => Except StoreError String
  | .getInviteByTokenHash _ => Except StoreError Invitation
  | .validateTOTP _ _ => Bool
  | .generateTokenPair _ _ _ _ _ => TokenPair

structure AccountWorld where
  now : ℤ
  kv : KVTable AuthValue
  db : Accounts

/-- What the environment decides at a call: the time passed, whether the key-value store or the
database fails, the order of listed keys (by default that of the table), the bytes and the id that
are drawn, and the verdict on a TOTP code. -/
structure AccountChoice where
  elapsed : ℕ := 0
  kvFails : Bool := false
  storeFails : Bool := false
  order : Option (List String) := none
  accessBytes : List UInt8 := []
  refreshBytes : List UInt8 := []
  newID : String := ""
  totp : Bool := false

def AccountWorld.wait (w : AccountWorld) (elapsed : ℕ) : AccountWorld :=
  { w with now := w.now + elapsed }

def query {α : Type} (o : AccountChoice) (row : Option α) : Except StoreError α :=
  if o.storeFails then .error .failed
  else
    match row with
    | none => .error .notFound
    | some a => .ok a

def write {α : Type} (o : AccountChoice) (w : AccountWorld) (a : α) (db : Option Accounts) :
    Except StoreError α × AccountWorld :=
  match if o.storeFails then none else db with
  | none => (.error .failed, w)
  | some db => (.ok a, { w with db := db })

def perform : (c : AccountCall) → AccountWorld → AccountChoice →
    Option (AccountAnswer c × AccountWorld)
  | .now, w, _ => some (w.now, w)
  | .kvGet bucket key, w, o =>
    some (if o.kvFails then .error .failed else w.kv.get (unix w.now) bucket key, w)
  | .kvSet bucket key value ttlSeconds, w, o =>
    if o.kvFails then some (.error .failed, w)
    else some (.ok (), { w with kv := w.kv.set (unix w.now) bucket key value ttlSeconds })
  | .kvDelete bucket key, w, o =>
    if o.kvFails then some (.error .failed, w)
    else
      match w.kv.delete bucket key with
      | .error e => some (.error e, w)
      | .ok kv => some (.ok (), { w with kv := kv })
  | .kvList bucket, w, o =>
    if o.kvFails then some (.error .failed, w)
    else
      match w.kv.list (unix w.now) bucket, o.order with
      | .ok keys, some order => if order.Perm keys then some (.ok order, w) else none
      | answer, _ => some (answer, w)
  | .getUser id, w, o => some (query o (w.db.getUser id), w)
  | .getUserByEmail email, w, o => some (query o (w.db.getUserByEmail email), w)
  | .getUserMembership userID, w, o => some (query o (w.db.getUserMembership userID), w)
  | .updateLastLogin _, w, o => some (query o (some ()), w)
  | .updatePassword userID passwordHash, w, o =>
    some (write o w () (some (w.db.updatePassword userID passwordHash)))
  | .createTenantWithDefaults _, w, o => some (query o (some o.newID), w)
  | .createUserWithMembership email passwordHash name tenantID roleID, w, o =>
    some (write o w o.newID
      (w.db.createUserWithMembership o.newID email passwordHash name tenantID roleID))
  | .getInviteByTokenHash tokenHash, w, o => some (query o (w.db.getInviteByTokenHash tokenHash), w)
  | .acceptInvite id, w, o => some (write o w () (w.db.acceptInvite id))
  | .validateTOTP _ _, w, o => some (o.totp, w)
  | .generateTokenPair jwt userID tenantID roleID email, w, o =>
    if o.accessBytes.length = 16 ∧ o.refreshBytes.length = 16 then
      some (jwt.generateTokenPair w.now (SHA256.hex o.accessBytes) (SHA256.hex o.refreshBytes)
        userID tenantID roleID email, w)
    else none

def accountExec (c : AccountCall) (w : AccountWorld) (o : AccountChoice) :
    Option (AccountAnswer c × AccountWorld) :=
  perform c (w.wait o.elapsed) o

abbrev Account := Prog AccountCall AccountAnswer

namespace Account

def now : Account ℤ := Prog.perform AccountCall.now

def kvGet (bucket key : String) : Account (Except KVError AuthValue) :=
  Prog.perform (AccountCall.kvGet bucket key)

def kvSet (bucket key : String) (value : AuthValue) (ttlSeconds : ℤ) :
    Account (Except KVError Unit) :=
  Prog.perform (AccountCall.kvSet bucket key value ttlSeconds)

def kvDelete (bucket key : String) : Account (Except KVError Unit) :=
  Prog.perform (AccountCall.kvDelete bucket key)

def kvList (bucket : String) : Account (Except KVError (List String)) :=
  Prog.perform (AccountCall.kvList bucket)

def getUser (id : String) : Account (Except StoreError UserRow) :=
  Prog.perform (AccountCall.getUser id)

def getUserByEmail (email : String) : Account (Except StoreError UserRow) :=
  Prog.perform (AccountCall.getUserByEmail email)

def getUserMembership (userID : String) : Account (Except StoreError TeamMember) :=
  Prog.perform (AccountCall.getUserMembership userID)

def updateLastLogin (userID : String) : Account (Except StoreError Unit) :=
  Prog.perform (AccountCall.updateLastLogin userID)

def updatePassword (userID passwordHash : String) : Account (Except StoreError Unit) :=
  Prog.perform (AccountCall.updatePassword userID passwordHash)

def createTenantWithDefaults (name : String) : Account (Except StoreError String) :=
  Prog.perform (AccountCall.createTenantWithDefaults name)

def createUserWithMembership (email passwordHash name tenantID roleID : String) :
    Account (Except StoreError String) :=
  Prog.perform (AccountCall.createUserWithMembership email passwordHash name tenantID roleID)

def getInviteByTokenHash (tokenHash : String) : Account (Except StoreError Invitation) :=
  Prog.perform (AccountCall.getInviteByTokenHash tokenHash)

def acceptInvite (id : String) : Account (Except StoreError Unit) :=
  Prog.perform (AccountCall.acceptInvite id)

def validateTOTP (userID code : String) : Account Bool :=
  Prog.perform (AccountCall.validateTOTP userID code)

def generateTokenPair (jwt : JWTService) (userID tenantID roleID email : String) :
    Account TokenPair :=
  Prog.perform (AccountCall.generateTokenPair jwt userID tenantID roleID email)

end Account

/-! ## Sessions -/

/-- What the handlers are set up with. The functions stand for bcrypt, for `mail.ParseAddress`,
and `strings.EqualFold`. -/
structure AccountHandler where
  jwt : JWTService
  kv : Bool
  verifyPassword : String → String → Bool
  hashPassword : String → Option String
  parseAddress : String → Bool
  equalFold : String → String → Bool
  registrationMode : Option String

/-- Where a request comes from. -/
structure Client where
  (ip userAgent : String)

def userSessionsBucket : String := "user_sessions"

def maxConcurrentSessions : ℕ := 10

def sessionKey (userID jti : String) : String := userID ++ ":" ++ jti

def readSessions (userID : String) : List String → Account (List (String × SessionTrackingInfo))
  | [] => return []
  | key :: keys =>
    if (userID ++ ":").toList.isPrefixOf key.toList then do
      match ← Account.kvGet userSessionsBucket key with
      | .ok (.session info) =>
        let sessions ← readSessions userID keys
        return (key, info) :: sessions
      | _ => readSessions userID keys
    else readSessions userID keys

/-- The loop that revokes the tokens of sessions and forgets the sessions; errors are logged. -/
def revokeEach : List (String × String) → Account Unit
  | [] => return
  | (key, jti) :: sessions => do
    let _ ← Account.kvSet "revoked_tokens" jti (.revoked true) RefreshTokenTTLSeconds
    let _ ← Account.kvDelete userSessionsBucket key
    revokeEach sessions

/-- The inner loop of the exchange sort in `enforceSessionLimit`: an element that is earlier changes
places with the first one. -/
def exchange {α : Type} (before : α → α → Bool) : α → List α → α × List α
  | x, [] => (x, [])
  | x, y :: ys =>
    if before y x then
      let (first, rest) := exchange before y ys
      (first, x :: rest)
    else
      let (first, rest) := exchange before x ys
      (first, y :: rest)

/-- The outer loop, for as many elements as are left. -/
def exchangeSort {α : Type} (before : α → α → Bool) : ℕ → List α → List α
  | n + 1, x :: xs =>
    let (first, rest) := exchange before x xs
    first :: exchangeSort before n rest
  | _, xs => xs

/-- The oldest sessions beyond the limit, with the keys they are stored under. -/
def beyondLimit (sessions : List (String × SessionTrackingInfo)) :
    List (String × SessionTrackingInfo) :=
  (exchangeSort (fun s t => s.2.createdAt < t.2.createdAt) sessions.length sessions).take
    (sessions.length - maxConcurrentSessions)

variable (h : AccountHandler)

def enforceSessionLimit (userID : String) : Account Unit := do
  if ¬h.kv then return
  else
    match ← Account.kvList userSessionsBucket with
    | .error _ => return
    | .ok keys =>
      let sessions ← readSessions userID keys
      revokeEach ((beyondLimit sessions).map fun s => (s.1, s.2.jti))

def trackSession (client : Client) (userID : String)
    (refreshToken : SignedToken) : Account Unit := do
  if ¬h.kv then return
  else
    let now ← Account.now
    match h.jwt.validateSignedRefreshToken now refreshToken with
    | .error _ => return
    | .ok rtClaims =>
      let createdAt ← Account.now
      match ← Account.kvSet userSessionsBucket (sessionKey userID rtClaims.jti)
          (.session ⟨userID, rtClaims.jti, client.ip, client.userAgent, createdAt⟩)
          RefreshTokenTTLSeconds with
      | .error _ => return
      | .ok () => enforceSessionLimit h userID

/-- `GetUserSessions`, the oldest first. -/
def getUserSessions (userID : String) : Account (Except KVError (List SessionTrackingInfo)) := do
  if ¬h.kv then return .ok []
  else
    match ← Account.kvList userSessionsBucket with
    | .error e => return .error e
    | .ok keys =>
      let sessions ← readSessions userID keys
      return .ok ((sessions.map Prod.snd).insertionSort fun s t => s.createdAt ≤ t.createdAt)

def revokeAllUserSessions (userID : String) : Account (Except KVError Unit) := do
  match ← getUserSessions h userID with
  | .error e => return .error e
  | .ok sessions =>
    revokeEach (sessions.map fun s => (sessionKey userID s.jti, s.jti))
    return .ok ()

/-- `RevokeAccessToken`, for a token that expires at a Unix time. -/
def revokeAccessToken (jti userID : String) (expiresAt : ℤ) : Account Unit := do
  let now ← Account.now
  let remaining := expiresAt * second - now
  if remaining ≤ 0 then return
  else
    let _ ← Account.kvSet "revoked_access_tokens" jti
      (.accessRevocation ⟨jti, expiresAt * second, userID⟩) (remaining.tdiv second)

/-- `revokeAccessTokenFromRequest`, for the token of the header or the cookie. -/
def revokeAccessTokenFromRequest (token : Option SignedToken) : Account Unit := do
  if ¬h.kv then return
  else
    match token with
    | none => return
    | some token =>
      let now ← Account.now
      match h.jwt.validateAccessToken now token with
      | .error _ => return
      | .ok claims =>
        match claims.registered.expiresAt with
        | none => return
        | some expiresAt =>
          if claims.registered.id = "" then return
          else revokeAccessToken claims.registered.id claims.userID expiresAt

/-! ## Handlers -/

inductive AccountReply
  | error (status : ℕ) (message : String)
  /-- 400, `validation failed`, with the fields and their messages. -/
  | invalid (fields : List (String × String))
  /-- 429, with `Retry-After`. -/
  | locked (retryAfter : ℤ)
  | tokens (status : ℕ) (tokens : TokenPair)
  /-- 200, with a status text. -/
  | done (message : String)
  /-- The handler has crashed. -/
  | crashed
  deriving DecidableEq

def AccountReply.tokens? : AccountReply → Option TokenPair
  | .tokens _ pair => some pair
  | _ => none

def maxFailedAttempts : ℤ := 5

def accountLockoutSeconds : ℤ := 15 * 60

def accountBucket : String := "account_rl"

/-- `checkPerAccountRateLimit`: until when the account is locked. -/
def checkPerAccountRateLimit (email : String) : Account (Option ℤ) := do
  if ¬h.kv then return none
  else
    match ← Account.kvGet accountBucket email with
    | .ok (.rateLimit entry) =>
      if entry.lockedUntil = 0 then return none
      else
        let now ← Account.now
        return if unix now < entry.lockedUntil then some entry.lockedUntil else none
    | _ => return none

def incrementPerAccountRateLimit (email : String) : Account Unit := do
  if ¬h.kv then return
  else
    let count (entry : AccountRateLimitEntry) : Account Unit := do
      let now ← Account.now
      if entry.lockedUntil > 0 then return
      else
        let failedCount := entry.failedCount + 1
        let lockedUntil :=
          if failedCount ≥ maxFailedAttempts then unix now + accountLockoutSeconds
          else entry.lockedUntil
        let _ ← Account.kvSet accountBucket email (.rateLimit ⟨failedCount, lockedUntil⟩)
          accountLockoutSeconds
    match ← Account.kvGet accountBucket email with
    | .ok (.rateLimit entry) => count entry
    | .error .notFound => count ⟨0, 0⟩
    | _ => return

structure LoginRequest where
  (email password totpCode : String)
  client : Client

/-- `Login`, once the user is authenticated. -/
def openSession (client : Client) (user : UserRow) : Account AccountReply := do
  match ← Account.getUserMembership user.id with
  | .error _ => return .error 500 "internal error"
  | .ok membership =>
    let tokens ← Account.generateTokenPair h.jwt user.id membership.tenantID membership.roleID
      user.email
    let _ ← Account.updateLastLogin user.id
    trackSession h client user.id tokens.signedRefresh
    return .tokens 200 tokens

/-- `Login`, once the password is verified. -/
def verifySecondFactor (req : LoginRequest) (user : UserRow) : Account AccountReply := do
  if ¬user.totpEnabled then openSession h req.client user
  else if req.totpCode = "" then return .error 401 "TOTP code required"
  else if ← Account.validateTOTP user.id req.totpCode then openSession h req.client user
  else
    incrementPerAccountRateLimit h req.email
    return .error 401 "invalid TOTP code"

/-- `Login`, once the user is found. -/
def authenticate (req : LoginRequest) (user : UserRow) : Account AccountReply := do
  match ← checkPerAccountRateLimit h req.email with
  | some until_ =>
    let now ← Account.now
    return .locked (until_ - unix now)
  | none =>
    if h.verifyPassword user.passwordHash req.password then verifySecondFactor h req user
    else
      incrementPerAccountRateLimit h req.email
      return .error 401 "invalid credentials"

/-- `Login`: POST /api/v1/auth/login. -/
def login (req : Option LoginRequest) : Account AccountReply := do
  match req with
  | none => return .error 400 "invalid request body"
  | some req =>
    if req.email = "" ∨ req.password = "" then return .error 400 "email and password required"
    else if req.password.utf8ByteSize > 256 then
      return .error 400 "password must not exceed 256 characters"
    else
      match ← Account.getUserByEmail req.email with
      | .error .notFound => return .error 401 "invalid credentials"
      | .error .failed => return .error 500 "internal error"
      | .ok user => authenticate h req user

structure RegisterRequest where
  (email password name inviteCode : String)

/-- The complaints of `Register` about the fields of a request. -/
def registerErrors (req : RegisterRequest) : List (String × String) :=
  (if req.email = "" then [("email", "email is required")]
    else if req.email.utf8ByteSize > 254 then [("email", "must not exceed 254 characters")]
    else if ¬h.parseAddress req.email then [("email", "invalid email format")]
    else []) ++
  (if req.password = "" then [("password", "password is required")]
    else if req.password.utf8ByteSize > 256 then [("password", "must not exceed 256 characters")]
    else (validatePasswordStrength req.password 0).toList.map ("password", ·)) ++
  (if req.name.utf8ByteSize > 100 then [("name", "must not exceed 100 characters")] else [])

def hashToken (token : String) : String := SHA256.hex (SHA256.sum (SHA256.utf8 token))

/-- `redeemInvite`: the invitation, or why there is none. -/
def redeemInvite (code email : String) : Account (Except String Invitation) := do
  match ← Account.getInviteByTokenHash (hashToken code) with
  | .error .notFound => return .error "invalid or expired invite code"
  | .error .failed => return .error "could not verify invite code"
  | .ok inv =>
    if inv.status ≠ .pending then return .error "invite code has already been used"
    else
      let now ← Account.now
      if now > inv.expiresAt then return .error "invite code has expired"
      else if inv.email ≠ "" ∧ ¬h.equalFold inv.email email then
        return .error "invite code does not match this email"
      else
        match ← Account.acceptInvite inv.id with
        | .error _ => return .error "invite code has already been used"
        | .ok () => return .ok inv

/-- The tenant and role that a new user gets, or the error that answers the request. -/
def joinTenant (mode : String) (req : RegisterRequest) (name : String) :
    Account (Except (ℕ × String) (String × String)) := do
  if mode = "open" ∨ mode = "approval" then
    match ← Account.createTenantWithDefaults (name ++ "'s Team") with
    | .error _ => return .error (500, "internal error")
    | .ok tenantID => return .ok (tenantID, "role_owner")
  else if req.inviteCode = "" then
    return .error (403, "registration is by invitation only")
  else
    match ← redeemInvite h req.inviteCode req.email with
    | .error message => return .error (403, message)
    | .ok inv => return .ok (inv.tenantID, inv.roleID)

/-- `Register`, once the tenant and the role are known. -/
def createAccount (req : RegisterRequest) (name tenantID roleID : String) :
    Account AccountReply := do
  match h.hashPassword req.password with
  | none => return .error 500 "internal error"
  | some hash =>
    match ← Account.createUserWithMembership req.email hash name tenantID roleID with
    | .error _ => return .error 500 "internal error"
    | .ok userID =>
      let tokens ← Account.generateTokenPair h.jwt userID tenantID roleID req.email
      return .tokens 201 tokens

/-- `Register`: POST /api/v1/auth/register. -/
def register (req : Option RegisterRequest) : Account AccountReply := do
  let mode := h.registrationMode.getD "invite_only"
  if mode = "disabled" then return .error 403 "registration is disabled"
  else
    match req with
    | none => return .error 400 "invalid request body"
    | some req =>
      if registerErrors h req ≠ [] then return .invalid (registerErrors h req)
      else
        match ← Account.getUserByEmail req.email with
        | .ok _ => return .error 409 "email already registered"
        | .error _ =>
          let name := if req.name = "" then req.email else req.name
          match ← joinTenant h mode req name with
          | .error (status, message) => return .error status message
          | .ok (tenantID, roleID) => createAccount h req name tenantID roleID

/-- A request of `Refresh` or `Logout`: the refresh token of the body, which may be missing or
undecodable, that of the cookie, and the access token of the header or the cookie. -/
structure SessionRequest where
  body : Except Unit (Option SignedToken)
  (cookie accessToken : Option SignedToken)
  client : Client

def SessionRequest.token? (req : SessionRequest) : Option SignedToken :=
  match req.body with
  | .error _ => none
  | .ok body => body.or req.cookie

/-- The revocation check of `Refresh`: an error of the lookup counts as not revoked. -/
def tokenRevoked (jti : String) : Account Bool := do
  if h.kv ∧ jti ≠ "" then
    match ← Account.kvGet "revoked_tokens" jti with
    | .ok (.revoked revoked) => return revoked
    | _ => return false
  else return false

/-- Revoking a refresh token: an error is logged. -/
def revokeToken (jti : String) : Account Unit := do
  if h.kv ∧ jti ≠ "" then
    let _ ← Account.kvSet "revoked_tokens" jti (.revoked true) RefreshTokenTTLSeconds
  else return

/-- `Refresh`, once the token is neither invalid nor revoked. -/
def rotate (req : SessionRequest) (rtClaims : RefreshTokenClaims) : Account AccountReply := do
  match ← Account.getUser rtClaims.userID with
  | .error _ => return .error 401 "user not found"
  | .ok user =>
    match ← Account.getUserMembership user.id with
    | .error _ => return .error 500 "internal error"
    | .ok membership =>
      revokeToken h rtClaims.jti
      revokeAccessTokenFromRequest h req.accessToken
      let tokens ← Account.generateTokenPair h.jwt user.id membership.tenantID membership.roleID
        user.email
      trackSession h req.client user.id tokens.signedRefresh
      return .tokens 200 tokens

/-- `Refresh`: POST /api/v1/auth/refresh. -/
def refresh (req : SessionRequest) : Account AccountReply := do
  match req.body with
  | .error _ => return .error 400 "invalid request body"
  | .ok body =>
    match body.or req.cookie with
    | none => return .error 400 "refresh_token required"
    | some token =>
      let now ← Account.now
      match h.jwt.validateSignedRefreshToken now token with
      | .error _ => return .error 401 "invalid refresh token"
      | .ok rtClaims =>
        if ← tokenRevoked h rtClaims.jti then return .error 401 "token has been revoked"
        else rotate h req rtClaims

/-- `Logout`: POST /api/v1/auth/logout. -/
def logout (req : SessionRequest) : Account AccountReply := do
  match req.body with
  | .error _ => return .error 400 "invalid request body"
  | .ok body =>
    revokeAccessTokenFromRequest h req.accessToken
    match body.or req.cookie with
    | none => return .done "ok"
    | some token =>
      let now ← Account.now
      match h.jwt.validateSignedRefreshToken now token with
      | .error _ => return .done "ok"
      | .ok rtClaims =>
        revokeToken h rtClaims.jti
        return .done "ok"

/-- Revoking the access token that a request was authenticated with; an access token without an
expiry would crash the handler. -/
def revokeCurrentToken (claims : Claims) (reply : AccountReply) : Account AccountReply := do
  if h.kv ∧ claims.registered.id ≠ "" then
    match claims.registered.expiresAt with
    | none => return .crashed
    | some expiresAt =>
      revokeAccessToken claims.registered.id claims.userID expiresAt
      return reply
  else return reply

/-- `ChangePassword`, once the new password is stored. -/
def endSessions (claims : Claims) : Account AccountReply := do
  if h.kv then
    let _ ← revokeAllUserSessions h claims.userID
    revokeCurrentToken h claims (.done "password changed")
  else return .done "password changed"

/-- `ChangePassword`: POST /api/v1/auth/change-password, with the current and the new password. -/
def changePassword (claims : Option Claims) (req : Option (String × String)) :
    Account AccountReply := do
  match claims, req with
  | none, _ => return .error 401 "unauthorized"
  | _, none => return .error 400 "invalid request body"
  | some claims, some (currentPassword, newPassword) =>
    if newPassword.utf8ByteSize > 256 then
      return .error 400 "password must not exceed 256 characters"
    else
      match ← Account.getUser claims.userID with
      | .error _ => return .error 404 "user not found"
      | .ok user =>
        if ¬h.verifyPassword user.passwordHash currentPassword then
          return .error 401 "current password is incorrect"
        else
          match validatePasswordStrength newPassword 0, h.hashPassword newPassword with
          | some message, _ => return .error 400 message
          | none, none => return .error 500 "internal error"
          | none, some hash =>
            match ← Account.updatePassword claims.userID hash with
            | .error _ => return .error 500 "password update failed"
            | .ok () => endSessions h claims

def logoutAll (claims : Option Claims) : Account AccountReply := do
  match claims with
  | none => return .error 401 "unauthorized"
  | some claims =>
    match ← revokeAllUserSessions h claims.userID with
    | .error _ => return .error 500 "failed to logout all sessions"
    | .ok () => revokeCurrentToken h claims (.done "all sessions logged out")

end DeployMonster.Handlers.Accounts
