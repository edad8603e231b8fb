import DeployMonster.Auth.JWT
import DeployMonster.DB.KV
import DeployMonster.Library.Program

/-!
# Refresh and logout

`internal/api/handlers/auth.go`: the handlers that rotate and revoke refresh tokens, as programs of
atomic calls. Time passes between the calls of a request, and the calls of other requests come in
between. `Accounts` has the handlers again, with the calls of `trackSession` one by one.
-/

namespace DeployMonster.Handlers

open Clock Auth DB Program Prog

structure User where
  (id email : String)

structure Membership where
  (tenantID roleID : String)

/-- Why a query of the store gives nothing. -/
inductive StoreError
  | notFound | failed

inductive AuthCall
  | now
  | kvGet (bucket key : String)
  | kvSet (bucket key : String) (value : Bool) (ttlSeconds : ℤ)
  | getUser (id : String)
  | getUserMembership (userID : String)
  | generateTokenPair (jwt : JWTService) (userID tenantID roleID email : String)
  /-- `trackSession`, with the limit of concurrent sessions. -/
  | trackSession (userID : String) (tokens : TokenPair)

@[reducible] def AuthAnswer : AuthCall → Type
  | .now => ℤ
  | .kvGet _ _ => Except KVError Bool
  | .kvSet _ _ _ _ => Except KVError Unit
  | .getUser _ => Except StoreError User
  | .getUserMembership _ => Except StoreError Membership
  | .generateTokenPair _ _ _ _ _ => Except StoreError TokenPair
  | .trackSession _ _ => Unit

/-- The clock and the key-value store. -/
structure AuthWorld where
  now : ℤ
  kv : KVStore Bool

/-- What the environment decides at a call: the time passed, whether it fails, the row that a query
finds, the ids of the generated tokens (never empty), and the tokens of the oldest sessions that
`trackSession` revokes. -/
structure AuthChoice where
  elapsed : ℕ := 0
  fails : Option StoreError := none
  email : String := ""
  membership : Membership := ⟨"", ""⟩
  accessID : String := ""
  refreshID : String := ""
  oldest : List String := []

def AuthWorld.wait (w : AuthWorld) (elapsed : ℕ) : AuthWorld := { w with now := w.now + elapsed }

@[simp] lemma AuthWorld.wait_zero (w : AuthWorld) : w.wait 0 = w := by
  simp [AuthWorld.wait]

def AuthWorld.revoke (w : AuthWorld) (jti : String) : AuthWorld :=
  { w with kv := w.kv.set (unix w.now) "revoked_tokens" jti true RefreshTokenTTLSeconds }

def authExec : (c : AuthCall) → AuthWorld → AuthChoice → Option (AuthAnswer c × AuthWorld)
  | .now, w, o => some ((w.wait o.elapsed).now, w.wait o.elapsed)
  | .kvGet bucket key, w, o =>
    let w := w.wait o.elapsed
    some (if o.fails.isSome then .error .failed else w.kv.get (unix w.now) bucket key, w)
  | .kvSet bucket key value ttlSeconds, w, o =>
    let w := w.wait o.elapsed
    if o.fails.isSome then some (.error .failed, w)
    else some (.ok (), { w with kv := w.kv.set (unix w.now) bucket key value ttlSeconds })
  | .getUser id, w, o =>
    some (match o.fails with
      | some e => .error e
      | none => .ok ⟨id, o.email⟩, w.wait o.elapsed)
  | .getUserMembership _, w, o =>
    some (match o.fails with
      | some e => .error e
      | none => .ok o.membership, w.wait o.elapsed)
  | .generateTokenPair jwt userID tenantID roleID email, w, o =>
    let w := w.wait o.elapsed
    if o.refreshID = "" then none
    else some (match o.fails with
      | some e => .error e
      | none =>
        .ok (jwt.generateTokenPair w.now o.accessID o.refreshID userID tenantID roleID email), w)
  | .trackSession _ _, w, o => some ((), o.oldest.foldl AuthWorld.revoke (w.wait o.elapsed))

abbrev Auth := Prog AuthCall AuthAnswer

def Auth.now : Auth ℤ := perform AuthCall.now

def Auth.kvGet (bucket key : String) : Auth (Except KVError Bool) :=
  perform (AuthCall.kvGet bucket key)

def Auth.kvSet (bucket key : String) (value : Bool) (ttlSeconds : ℤ) : Auth (Except KVError Unit) :=
  perform (AuthCall.kvSet bucket key value ttlSeconds)

def Auth.getUser (id : String) : Auth (Except StoreError User) :=
  perform (AuthCall.getUser id)

def Auth.getUserMembership (userID : String) : Auth (Except StoreError Membership) :=
  perform (AuthCall.getUserMembership userID)

def Auth.generateTokenPair (jwt : JWTService) (userID tenantID roleID email : String) :
    Auth (Except StoreError TokenPair) :=
  perform (AuthCall.generateTokenPair jwt userID tenantID roleID email)

def Auth.trackSession (userID : String) (tokens : TokenPair) : Auth Unit :=
  perform (AuthCall.trackSession userID tokens)

structure AuthHandler where
  jwt : JWTService
  kv : Bool

/-- A request of `Refresh` or `Logout`: the refresh token of the body, which may also be missing or
undecodable, and the one of the cookie. -/
structure TokenRequest where
  body : Except Unit (Option (Token RefreshClaims))
  cookie : Option (Token RefreshClaims)

def TokenRequest.token? (req : TokenRequest) : Option (Token RefreshClaims) :=
  match req.body with
  | .error _ => none
  | .ok body => body.or req.cookie

inductive ResponseBody
  | error (message : String)
  | tokens (tokens : TokenPair)
  | ok

structure Response where
  status : ℕ
  body : ResponseBody

def Response.error (status : ℕ) (message : String) : Response := ⟨status, .error message⟩

def Response.tokens? : Response → Option TokenPair
  | ⟨_, .tokens tokens⟩ => some tokens
  | _ => none

variable (h : AuthHandler)

/-- The revocation check: an error of the lookup counts as not revoked. -/
def tokenRevoked (jti : String) : Auth Bool :=
  if h.kv ∧ jti ≠ "" then do
    match ← Auth.kvGet "revoked_tokens" jti with
    | .ok revoked => return revoked
    | .error _ => return false
  else return false

/-- Revoking a refresh token: an error is logged. -/
def revokeToken (jti : String) : Auth Unit :=
  if h.kv ∧ jti ≠ "" then do
    let _ ← Auth.kvSet "revoked_tokens" jti true RefreshTokenTTLSeconds
  else return

/-- `Refresh`, once the old token is revoked. -/
def issueTokens (user : User) (membership : Membership) : Auth Response := do
  match ← Auth.generateTokenPair h.jwt user.id membership.tenantID membership.roleID user.email with
  | .error _ => return .error 500 "token generation failed"
  | .ok tokens =>
    if h.kv then Auth.trackSession user.id tokens
    return ⟨200, .tokens tokens⟩

/-- `Refresh`, once the user is known. -/
def rotateFor (rtClaims : RefreshTokenClaims) (user : User) : Auth Response := do
  match ← Auth.getUserMembership user.id with
  | .error _ => return .error 500 "internal error"
  | .ok membership =>
    revokeToken h rtClaims.jti
    issueTokens h user membership

/-- `Refresh`, once the token is neither invalid nor revoked. -/
def rotate (rtClaims : RefreshTokenClaims) : Auth Response := do
  match ← Auth.getUser rtClaims.userID with
  | .error _ => return .error 401 "user not found"
  | .ok user => rotateFor h rtClaims user

def refreshValid (rtClaims : RefreshTokenClaims) : Auth Response := do
  if ← tokenRevoked h rtClaims.jti then return .error 401 "token has been revoked"
  rotate h rtClaims

/-- `Refresh`: POST /api/v1/auth/refresh. -/
def refresh (req : TokenRequest) : Auth Response := do
  match req.body with
  | .error _ => return .error 400 "invalid request body"
  | .ok body =>
    match body.or req.cookie with
    | none => return .error 400 "refresh_token required"
    | some token =>
      let now ← Auth.now
      match h.jwt.validateRefreshToken now token with
      | .error _ => return .error 401 "invalid refresh token"
      | .ok rtClaims => refreshValid h rtClaims

/-- `Logout`: POST /api/v1/auth/logout. -/
def logout (req : TokenRequest) : Auth Response := do
  match req.body with
  | .error _ => return .error 400 "invalid request body"
  | .ok body =>
    match body.or req.cookie with
    | none => return ⟨200, .ok⟩
    | some token =>
      let now ← Auth.now
      match h.jwt.validateRefreshToken now token with
      | .error _ => return ⟨200, .ok⟩
      | .ok rtClaims =>
        revokeToken h rtClaims.jti
        return ⟨200, .ok⟩

variable {h : AuthHandler}

lemma refresh_of_token {req : TokenRequest} {token : Token RefreshClaims}
    (hreq : req.token? = some token) :
    refresh h req = .call .now fun now =>
      match h.jwt.validateRefreshToken now token with
      | .error _ => .ret (.error 401 "invalid refresh token")
      | .ok rtClaims => refreshValid h rtClaims := by
  obtain ⟨body, cookie⟩ := req
  cases body with
  | error => cases hreq
  | ok body =>
    have hor : body.or cookie = some token := hreq
    simp only [refresh, hor, Auth.now, perform_bind]
    rfl

lemma refreshValid_eq {rtClaims : RefreshTokenClaims} (hkv : h.kv = true) (hid : rtClaims.jti ≠ "") :
    refreshValid h rtClaims = .call (.kvGet "revoked_tokens" rtClaims.jti) fun r =>
      match r with
      | .ok true => .ret (.error 401 "token has been revoked")
      | _ => rotate h rtClaims := by
  simp only [refreshValid, tokenRevoked, hkv, hid, ne_eq, not_false_eq_true, and_self,
    if_true, Auth.kvGet, perform_bind, call_bind]
  congr 1
  funext r
  rcases r with e | revoked
  · rfl
  · cases revoked <;> rfl

lemma revokeToken_bind {jti : String} (hkv : h.kv = true) (hid : jti ≠ "")
    (f : Unit → Auth Response) : (revokeToken h jti >>= f) =
      .call (.kvSet "revoked_tokens" jti true RefreshTokenTTLSeconds) fun _ => f () := by
  simp only [revokeToken, hkv, hid, ne_eq, not_false_eq_true, and_self, if_true,
    Auth.kvSet, perform_bind, call_bind]
  rfl

lemma foldl_revoke_now (jtis : List String) (w : AuthWorld) :
    (jtis.foldl AuthWorld.revoke w).now = w.now := by
  induction jtis generalizing w with
  | nil => rfl
  | cons jti jtis ih => exact ih (w.revoke jti)

lemma now_le_of_authExec {c : AuthCall} {w w' : AuthWorld} {o : AuthChoice} {r : AuthAnswer c}
    (h : authExec c w o = some (r, w')) : w.now ≤ w'.now := by
  have hwait : w.now ≤ (w.wait o.elapsed).now := by simp [AuthWorld.wait]
  cases c with
  | now | kvGet | getUser | getUserMembership =>
    cases h
    exact hwait
  | kvSet bucket key value ttlSeconds =>
    simp only [authExec] at h
    split at h
    · cases h
      exact hwait
    · cases h
      exact hwait
  | generateTokenPair jwt userID tenantID roleID email =>
    obtain ⟨-, h⟩ := Option.ite_none_left_eq_some.mp h
    cases h
    exact hwait
  | trackSession userID tokens =>
    cases h
    rw [foldl_revoke_now]
    exact hwait

/-!
# The lifetime of a session

`ValidateRefreshToken` ends a session thirty days after `FirstIssuedAt`; but `GenerateTokenPair`
sets `FirstIssuedAt` to the time of each refresh.
-/

open DeployMonster.Clock DeployMonster.Auth DeployMonster.DB StepMachine List Option

/-- A session: the time of its login, the world, the refresh token it has come to, and its calls
with their times and whether they succeeded. -/
structure Session where
  login : ℤ
  world : AuthWorld
  token : Token RefreshClaims
  calls : List (ℤ × Bool)

/-- A later call of `Refresh`, by a handler that may have other keys: the time passed, what others
have made of the KV store, and what the environment decides. -/
structure RefreshCall where
  handler : AuthHandler
  refreshExpiry : handler.jwt.refreshExpiry = 7 * day
  cookie : Bool
  elapsed : ℕ
  others : KVStore Bool → KVStore Bool
  choices : List AuthChoice

def RefreshCall.request (c : RefreshCall) (token : Token RefreshClaims) : TokenRequest :=
  if c.cookie then ⟨.ok none, some token⟩ else ⟨.ok (some token), none⟩

def loginSession (jwt : JWTService) (t : ℤ) (kv : KVStore Bool) (accessID refreshID : String)
    (userID tenantID roleID email : String) : Session where
  login := t
  world := ⟨t, kv⟩
  token := (jwt.generateTokenPair t accessID refreshID userID tenantID roleID email).refreshToken
  calls := []

def RefreshCall.at (c : RefreshCall) (s : Session) : ℤ := s.world.now + c.elapsed

/-- A call with the token of the session, which goes on with the token it returns. -/
def sessionStep (s : Session) (c : RefreshCall) : Option Session :=
  (solo authExec (refresh c.handler (c.request s.token)) ⟨c.at s, c.others s.world.kv⟩ c.choices).map
    fun (resp, w) =>
      { s with
        world := w
        token := (resp.tokens?.map TokenPair.refreshToken).getD s.token
        calls := s.calls ++ [(c.at s, resp.tokens?.isSome)] }

/-- A call later than thirty days after the login presents a token that was issued at least seven
days before. -/
def PresentsWeekOld (s : Session) (c : RefreshCall) : Prop :=
  s.login + MaxAbsoluteSessionSeconds * second < c.at s →
    s.token.claims.issuedAt + RefreshTokenTTLSeconds ≤ unix (c.at s)
  deriving Decidable

/-- No call later than thirty days after the login has succeeded. -/
def Session.Ended (s : Session) : Prop :=
  ∀ call ∈ s.calls, s.login + MaxAbsoluteSessionSeconds * second < call.1 → call.2 = false

section

variable {h : AuthHandler} {req : TokenRequest} {token : Token RefreshClaims} {w : AuthWorld}

lemma RefreshCall.token?_request (c : RefreshCall) : (c.request token).token? = some token := by
  unfold RefreshCall.request
  split <;> rfl

lemma refresh_expired (hreq : req.token? = some token) (hexp : token.claims.expiresAt ≤ unix w.now) :
    Wp authExec (refresh h req) (fun resp _ => resp.tokens? = none) w := by
  rw [refresh_of_token hreq, wp_call]
  intro o now w' hexec
  have hnow : unix w.now ≤ unix now := by
    obtain ⟨rfl, -⟩ := answer_inj hexec
    exact unix_mono (Int.le_add_of_nonneg_right (Int.natCast_nonneg _))
  split
  case h_1 => rfl
  case h_2 rtClaims hvalid =>
    have hlt := (validateRefreshToken_ok hvalid).2
    omega

def SevenDays (token : Token RefreshClaims) : Prop :=
  token.claims.expiresAt = token.claims.issuedAt + RefreshTokenTTLSeconds

lemma sevenDays_generateTokenPair {j : JWTService} (hexpiry : j.refreshExpiry = 7 * day) (now : ℤ)
    (accessID refreshID userID tenantID roleID email : String) :
    SevenDays
      (j.generateTokenPair now accessID refreshID userID tenantID roleID email).refreshToken := by
  show unix (now + j.refreshExpiry) = unix now + RefreshTokenTTLSeconds
  rw [hexpiry]
  exact unix_add now RefreshTokenTTLSeconds

lemma wp_error (status : ℕ) (message : String) (w : AuthWorld) :
    Wp authExec (.ret (Response.error status message))
      (fun resp _ => ∀ tokens ∈ resp.tokens?, SevenDays tokens.refreshToken) w := by
  intro tokens htokens
  cases htokens

variable (hexpiry : h.jwt.refreshExpiry = 7 * day)
include hexpiry

lemma issueTokens_tokens (user : User)
    (membership : Membership) (w : AuthWorld) : Wp authExec (issueTokens h user membership)
      (fun resp _ => ∀ tokens ∈ resp.tokens?, SevenDays tokens.refreshToken) w := by
  intro o r w' hexec
  rcases r with e | tokens
  · exact wp_error _ _ _
  obtain ⟨-, hexec⟩ := ite_none_left_eq_some.mp hexec
  have hseven : SevenDays tokens.refreshToken := by
    obtain ⟨hr, -⟩ := answer_inj hexec
    cases hf : o.fails with
    | some e => simp [hf] at hr
    | none =>
      rw [hf] at hr
      cases hr
      exact sevenDays_generateTokenPair hexpiry ..
  have hQ : ∀ t ∈ Response.tokens? ⟨200, .tokens tokens⟩, SevenDays t.refreshToken := by
    rintro t ht
    cases ht
    exact hseven
  cases h.kv with
  | false => exact hQ
  | true => exact fun _ _ _ _ => hQ

lemma rotate_tokens (rtClaims : RefreshTokenClaims)
    (w : AuthWorld) : Wp authExec (rotate h rtClaims)
      (fun resp _ => ∀ tokens ∈ resp.tokens?, SevenDays tokens.refreshToken) w := by
  rintro o (e | user) w1 -
  · exact wp_error _ _ _
  simp only [rotateFor, Auth.getUserMembership, perform_bind]
  rintro o (e | membership) w2 -
  · exact wp_error _ _ _
  rw [wp_bind]
  refine Wp.of_forall (fun _ w3 => ?_) _ _
  exact issueTokens_tokens hexpiry user membership w3

lemma refresh_tokens (hreq : req.token? = some token) (w : AuthWorld) : Wp authExec (refresh h req)
      (fun resp _ => ∀ tokens ∈ resp.tokens?, SevenDays tokens.refreshToken) w := by
  rw [refresh_of_token hreq, wp_call]
  intro o now w1 _
  split
  · exact wp_error _ _ _
  rw [refreshValid, wp_bind]
  refine Wp.of_forall (fun revoked w2 => ?_) _ _
  cases revoked with
  | true => exact wp_error _ _ _
  | false => exact rotate_tokens hexpiry _ w2

end

section

variable {s s' : Session} {c : RefreshCall}

lemma sessionStep_eq_some (hs : SevenDays s.token) (hstep : sessionStep s c = some s') :
    SevenDays s'.token ∧ s'.login = s.login ∧
      ∃ ok, s'.calls = s.calls ++ [(c.at s, ok)] ∧
        (s.token.claims.issuedAt + RefreshTokenTTLSeconds ≤ unix (c.at s) → ok = false) := by
  obtain ⟨⟨resp, w⟩, hsolo, rfl⟩ := map_eq_some_iff.mp hstep
  have hreq : (c.request s.token).token? = some s.token := c.token?_request
  refine ⟨?_, rfl, _, rfl, ?_⟩
  · have htokens := of_solo (refresh_tokens c.refreshExpiry hreq _) hsolo
    show SevenDays ((resp.tokens?.map TokenPair.refreshToken).getD s.token)
    cases ht : resp.tokens? with
    | none => exact hs
    | some tokens => exact htokens tokens ht
  · intro hweek
    have hexp : s.token.claims.expiresAt ≤ unix (c.at s) := by
      rw [hs]
      exact hweek
    rw [of_solo (refresh_expired hreq hexp) hsolo]
    rfl

lemma ended_loginSession (jwt : JWTService) (t : ℤ) (kv : KVStore Bool)
    (accessID refreshID userID tenantID roleID email : String) :
    (loginSession jwt t kv accessID refreshID userID tenantID roleID email).Ended := by
  intro call hcall
  cases hcall

lemma ended_step (hs : SevenDays s.token ∧ s.Ended) (hG : PresentsWeekOld s c)
    (hstep : sessionStep s c = some s') : SevenDays s'.token ∧ s'.Ended := by
  obtain ⟨hseven, hended⟩ := hs
  obtain ⟨hseven', hlogin, ok, hcalls, hweek⟩ := sessionStep_eq_some hseven hstep
  refine ⟨hseven', ?_⟩
  rw [Session.Ended, hlogin, hcalls]
  exact forall_mem_append.mpr ⟨hended, forall_mem_singleton.mpr (hweek ∘ hG)⟩

end

/-- **A session ends after thirty days** along every chain of refreshes in which each later call
presents a token that is at least seven days old. -/
theorem session_ends (jwt : JWTService) (hexpiry : jwt.refreshExpiry = 7 * day) (t : ℤ)
    (kv : KVStore Bool) (accessID refreshID userID tenantID roleID email : String)
    (cs : List RefreshCall) (s : Session) (hrun : run sessionStep
      (loginSession jwt t kv accessID refreshID userID tenantID roleID email) cs = some s)
    (hG : Along sessionStep PresentsWeekOld
      (loginSession jwt t kv accessID refreshID userID tenantID roleID email) cs) : s.Ended :=
  (invariant_of_along (fun _ _ _ hs hG hstep => ended_step hs hG hstep)
    ⟨sevenDays_generateTokenPair hexpiry t accessID refreshID userID tenantID roleID email,
      ended_loginSession jwt t kv accessID refreshID userID tenantID roleID email⟩ hG hrun).2

/-! ## A session that is refreshed every six days -/

section

def chainID (n : ℕ) : String := String.ofList (List.replicate (n + 1) 'r')

variable {n : ℕ}

lemma chainID_injective {m : ℕ} (h : chainID m = chainID n) : m = n := by
  have hlen : (chainID m).length = (chainID n).length := by rw [h]
  simpa [chainID] using hlen

lemma chainID_ne_empty (n : ℕ) : chainID n ≠ "" := by
  intro h
  have hlen : (chainID n).length = 0 := by rw [h]; rfl
  simp [chainID] at hlen

/-- The choices of a refresh in which nothing fails, for the `n`-th token. -/
def smooth (n : ℕ) : List AuthChoice :=
  [{}, {}, {}, {}, {}, { refreshID := chainID n }, {}]

variable (jwt : JWTService) (hexpiry : jwt.refreshExpiry = 7 * day) (t : ℤ) (userID : String)

/-- The `n`-th token of the chain, issued at the time `now`. -/
def chainToken (now : ℤ) (n : ℕ) : Token RefreshClaims :=
  (jwt.generateTokenPair now "" (chainID n) userID "" "" "").refreshToken

def afterSixDays (n : ℕ) : RefreshCall where
  handler := ⟨jwt, true⟩
  refreshExpiry := hexpiry
  cookie := true
  elapsed := (6 * day).toNat
  others := id
  choices := smooth n

variable {jwt t userID}

include hexpiry in
lemma solo_refresh_chainToken {req : TokenRequest} {w : AuthWorld} {issued : ℤ}
    (hreq : req.token? = some (chainToken jwt userID issued n))
    (hnow : unix w.now < unix issued + RefreshTokenTTLSeconds)
    (hkv : w.kv "revoked_tokens" (chainID n) = none) :
    ∃ pair, solo authExec (refresh ⟨jwt, true⟩ req) w (smooth (n + 1)) =
        some (⟨200, .tokens pair⟩, w.revoke (chainID n)) ∧
      pair.refreshToken = chainToken jwt userID w.now (n + 1) := by
  have hvalid : jwt.validateRefreshToken w.now (chainToken jwt userID issued n) =
      .ok ⟨userID, chainID n⟩ :=
    validateRefreshToken_generated (mem_cons_self ..) hexpiry hnow
  refine ⟨jwt.generateTokenPair w.now "" (chainID (n + 1)) userID "" "" "", ?_, rfl⟩
  have hget : w.kv.get (unix w.now) "revoked_tokens" (chainID n) = .error .notFound := by
    simp [KVStore.get, hkv]
  rw [refresh_of_token hreq]
  simp only [smooth, solo, authExec, AuthWorld.wait_zero, bind_some, hvalid]
  rw [refreshValid_eq rfl (chainID_ne_empty n)]
  simp only [rotate, rotateFor, Auth.getUser, Auth.getUserMembership, perform_bind, solo,
    authExec, AuthWorld.wait_zero, bind_some, isSome_none, Bool.false_eq_true,
    if_false, hget]
  rw [revokeToken_bind rfl (chainID_ne_empty n)]
  simp [issueTokens, Auth.generateTokenPair, Auth.trackSession, solo, authExec,
    chainID_ne_empty, AuthWorld.revoke]

/-- The session after `n` refreshes that came six days after each other. -/
structure Chain (jwt : JWTService) (t : ℤ) (userID : String) (n : ℕ) (s : Session) : Prop where
  login : s.login = t
  now : s.world.now = t + n * (6 * day)
  token : s.token = chainToken jwt userID s.world.now n
  unrevoked : ∀ m, n ≤ m → s.world.kv "revoked_tokens" (chainID m) = none
  calls : s.calls = (List.range n).map fun k => (t + (k + 1 : ℕ) * (6 * day), true)

lemma chain_step {s : Session} (hs : Chain jwt t userID n s) :
    ∃ s', sessionStep s (afterSixDays jwt hexpiry (n + 1)) = some s' ∧
      Chain jwt t userID (n + 1) s' := by
  have hnext : s.world.now + 6 * day = t + (n + 1 : ℕ) * (6 * day) := by
    rw [hs.now, Int.natCast_succ, Int.add_mul, Int.one_mul, Int.add_assoc]
  have hnow : unix (s.world.now + 6 * day) < unix s.world.now + RefreshTokenTTLSeconds := by
    have hday : 6 * day = 6 * 24 * 60 * 60 * second := by decide
    rw [hday, unix_add, RefreshTokenTTLSeconds]
    omega
  obtain ⟨pair, hsolo, hpair⟩ := solo_refresh_chainToken hexpiry
    (w := ⟨s.world.now + 6 * day, s.world.kv⟩)
    ((afterSixDays jwt hexpiry (n + 1)).token?_request.trans (congrArg some hs.token)) hnow
    (hs.unrevoked n le_rfl)
  refine ⟨_, map_eq_some_iff.mpr ⟨_, hsolo, rfl⟩, hs.login, hnext, hpair, ?_, ?_⟩
  · intro m hm
    have hne : chainID m ≠ chainID n := by
      intro h
      have := chainID_injective h
      omega
    exact (KVStore.set_of_ne _ _ _ _ (.inr hne)).trans (hs.unrevoked m (by omega))
  · rw [range_succ, map_append, ← hs.calls, map_singleton, ← hnext]
    rfl

variable (jwt t userID) in
include hexpiry in
/-- **A session that is refreshed within seven days each time has no end**: after any number of
refreshes, six days after each other, the next one succeeds. -/
theorem session_goes_on (n : ℕ) :
    ∃ cs s, run sessionStep (loginSession jwt t (fun _ _ => none) "" (chainID 0) userID "" "" "") cs =
        some s ∧ Chain jwt t userID n s := by
  induction n with
  | zero =>
    refine ⟨[], _, rfl, rfl, ?_, rfl, fun _ _ => rfl, rfl⟩
    simp [loginSession]
  | succ n ih =>
    obtain ⟨cs, s, hrun, hs⟩ := ih
    obtain ⟨s', hstep, hs'⟩ := chain_step hexpiry hs
    exact ⟨cs ++ [afterSixDays jwt hexpiry (n + 1)], s', run_snoc.mpr ⟨s, hrun, hstep⟩, hs'⟩

end

def sessionService : JWTService := newJWTService "an-active-signing-key-of-32-bytes" []

def monthLater : List RefreshCall :=
  [afterSixDays sessionService rfl 1,
    { afterSixDays sessionService rfl 2 with elapsed := (30 * day).toNat, choices := [{}] }]

theorem session_ends_monthLater :
    ∃ s, run sessionStep (loginSession sessionService 0 (fun _ _ => none) "" (chainID 0) "u1" "" "" "")
        monthLater = some s ∧ s.calls = [(6 * day, true), (36 * day, false)] ∧ s.Ended := by
  refine exists_of_run_and (by decide) fun s hrun _ => ?_
  exact session_ends sessionService rfl 0 _ "" (chainID 0) "u1" "" "" "" monthLater s hrun (by decide)

/-- **A session outlives thirty days**: refreshed every six days, it is refreshed again after
thirty-six. -/
theorem session_outlives :
    ∃ cs s, run sessionStep
        (loginSession sessionService 0 (fun _ _ => none) "" (chainID 0) "u1" "" "" "") cs = some s ∧
      ¬ s.Ended := by
  obtain ⟨cs, s, hrun, hs⟩ := session_goes_on sessionService rfl 0 "u1" 6
  refine ⟨cs, s, hrun, fun hended => ?_⟩
  have hmem : (36 * day, true) ∈ s.calls := by
    rw [hs.calls]
    decide
  have hlate : s.login + MaxAbsoluteSessionSeconds * second < 36 * day := by
    rw [hs.login]
    decide
  exact absurd (hended _ hmem hlate) (by decide)

end DeployMonster.Handlers
