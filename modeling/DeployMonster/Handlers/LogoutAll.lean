import DeployMonster.Handlers.SessionBooks
import DeployMonster.Middleware.RequireAuth

/-!
# Revoked access tokens

`RevokeAccessToken` of `internal/auth/jwt.go` notes the id of an access token for the rest of its
lifetime: the remaining time in whole seconds, rounded down, added to the second of the write.
-/

namespace DeployMonster.Handlers.Accounts

open Clock DeployMonster.Auth DB Program StepMachine Middleware List Option

variable (w : AccountWorld)

def callStep (a : AccountCall × AccountChoice) : Option AccountWorld :=
  (accountExec a.1 w a.2).map Prod.snd

def AccountCall.Writes (bucket key : String) : AccountCall → Prop
  | .kvSet b k _ _ | .kvDelete b k => b = bucket ∧ k = key
  | _ => False

def AccountWorld.revoked : KVStore AccessTokenRevocation := fun bucket key =>
  match w.kv.store bucket key with
  | some ⟨.accessRevocation entry, expiresAt⟩ => some ⟨entry, expiresAt⟩
  | _ => none

/-- The store as `RequireAuth` reads it, with the given API keys. -/
def AccountWorld.authStores (apiKeys : String → Option APIKey) : AuthStores :=
  ⟨w.revoked, apiKeys, false⟩

variable {w w' : AccountWorld} {bucket key : String}

lemma callStep_eq_some {a : AccountCall × AccountChoice} (h : callStep w a = some w') :
    w'.now = w.now + a.2.elapsed ∧ KVEffect w'.now w.kv a.1 w'.kv := by
  obtain ⟨⟨r, t⟩, hexec, rfl⟩ := map_eq_some_iff.mp h
  obtain ⟨hnow, heffect⟩ := effect_of_perform hexec
  exact ⟨hnow, hnow ▸ heffect⟩

lemma noted_of_run {as : List (AccountCall × AccountChoice)}
    (hrun : run callStep w as = some w') (has : ∀ a ∈ as, ¬a.1.Writes bucket key) :
    w.now ≤ w'.now ∧ w'.kv.store bucket key = w.kv.store bucket key := by
  induction as generalizing w with
  | nil =>
    obtain rfl : w = w' := some.inj hrun
    exact ⟨le_rfl, rfl⟩
  | cons a as ih =>
    obtain ⟨t, hstep, hrun⟩ := bind_eq_some_iff.mp hrun
    obtain ⟨hle, hstore⟩ := ih hrun fun a ha => has a (mem_cons_of_mem _ ha)
    obtain ⟨hnow, heffect⟩ := callStep_eq_some hstep
    refine ⟨by omega, hstore.trans ?_⟩
    have hother := has a mem_cons_self
    rcases store_of_effect heffect bucket key with hsame | ⟨value, ttlSeconds, hset, -⟩ | ⟨hdel, -⟩
    · exact hsame
    · exact absurd (hset ▸ ⟨rfl, rfl⟩) hother
    · exact absurd (hdel ▸ ⟨rfl, rfl⟩) hother

lemma isAccessTokenRevoked_of_store {apiKeys : String → Option APIKey}
    {entry : AccessTokenRevocation} {expiresAt now : ℤ}
    (h : w.kv.store "revoked_access_tokens" key = some ⟨.accessRevocation entry, expiresAt⟩) :
    isAccessTokenRevoked (some (w.authStores apiKeys)) now key = true ↔
      ¬(expiresAt > 0 ∧ unix now ≥ expiresAt) := by
  simp only [isAccessTokenRevoked, AccountWorld.authStores, AccountWorld.revoked, KVStore.get, h,
    any_some, Bool.not_false, Bool.true_and]
  split
  case isTrue hgone => exact iff_of_false Bool.false_ne_true (not_not.mpr hgone)
  case isFalse hfound => exact iff_of_true rfl hfound

/-- The clock was read at `read` and the note written at `written`. The note lasts when no part of a
second is lost to the rounding, and when it does not expire at all: less than a second was left, or
its expiry is not after the epoch. -/
def LastsToExpiry (expiresAt read written : ℤ) : Prop :=
  read ≤ unix written * second ∨ expiresAt * second - read < second ∨
    expiresAt * second - read < (1 - unix written) * second
  deriving Decidable

def noteExpiry (expiresAt read written : ℤ) : ℤ :=
  let ttlSeconds := (expiresAt * second - read).tdiv second
  if ttlSeconds > 0 then unix written + ttlSeconds else 0

/-- **A note lasts exactly when the rounding takes nothing from it.** -/
theorem lasts_iff {expiresAt read written : ℤ} (hread : read < expiresAt * second)
    (hwritten : read ≤ written) : (∀ t, written ≤ t → unix t < expiresAt →
      ¬(noteExpiry expiresAt read written > 0 ∧ unix t ≥ noteExpiry expiresAt read written)) ↔
      LastsToExpiry expiresAt read written := by
  have hremaining : 0 ≤ expiresAt * second - read := by omega
  simp only [noteExpiry, LastsToExpiry, Int.tdiv_eq_ediv_of_nonneg hremaining]
  unfold unix second at *
  constructor
  · intro h
    by_contra hlasts
    refine h ((expiresAt - 1) * 1000000000) (by omega) (by omega) ?_
    rw [if_pos (by omega)]
    omega
  · intro hlasts t ht hexp hgone
    split at hgone
    · omega
    · exact absurd hgone.1 (lt_irrefl 0)

/-! ## A revocation -/

variable {jti userID : String} {expiresAt : ℤ} {o0 o1 : AccountChoice}

lemma revokeAccessToken_note (hread : w.now + o0.elapsed < expiresAt * second)
    (hwrite : o1.kvFails = false)
    (hrun : solo accountExec (revokeAccessToken jti userID expiresAt) w [o0, o1] = some ((), w')) :
    w'.now = w.now + o0.elapsed + o1.elapsed ∧
      w'.kv.store "revoked_access_tokens" jti =
        some ⟨.accessRevocation ⟨jti, expiresAt * second, userID⟩,
          noteExpiry expiresAt (w.now + o0.elapsed) w'.now⟩ := by
  have hleft : ¬expiresAt * second - (w.now + o0.elapsed) ≤ 0 := by omega
  have hsolo : solo accountExec (revokeAccessToken jti userID expiresAt) w [o0, o1] =
      solo accountExec (if expiresAt * second - (w.now + o0.elapsed) ≤ 0 then return else do
        let _ ← Account.kvSet "revoked_access_tokens" jti
          (.accessRevocation ⟨jti, expiresAt * second, userID⟩)
          ((expiresAt * second - (w.now + o0.elapsed)).tdiv second)) (w.wait o0.elapsed) [o1] := rfl
  rw [hsolo, if_neg hleft] at hrun
  obtain ⟨⟨r, t⟩, hexec, hret⟩ := bind_eq_some_iff.mp hrun
  obtain ⟨-, rfl⟩ := eq_of_solo_ret hret
  have hsession : sessionExec _ (w.wait o0.elapsed) o1 = some (r, w') :=
    (if_pos (by simp [hwrite])).trans hexec
  refine ⟨(effect_of_exec hsession).1, ?_⟩
  rw [(kvSet_answer hsession).2, store_set_eq, if_pos ⟨rfl, rfl⟩]
  rfl

/-- **A revoked access token is found revoked for as long as it is accepted, exactly when its note
lasts**: the store takes the note, afterwards any calls are performed other than one that writes it
again, and the token is presented to a service with any keys. -/
theorem revoked_while_accepted_iff (j : JWTService) (issued : ℤ)
    (accessID refreshID userID tenantID roleID email : String) (apiKeys : String → Option APIKey)
    (w w1 : AccountWorld) (o0 o1 : AccountChoice) (hissued : issued ≤ w.now + o0.elapsed)
    (hread : w.now + o0.elapsed < unix (issued + j.accessExpiry) * second)
    (hwrite : o1.kvFails = false) (hrun : solo accountExec
      (revokeAccessToken accessID userID (unix (issued + j.accessExpiry))) w [o0, o1] =
        some ((), w1)) :
    (∀ (j' : JWTService) as w2, run callStep w1 as = some w2 →
        (∀ a ∈ as, ¬a.1.Writes "revoked_access_tokens" accessID) →
        (j'.validateAccessToken w2.now (j.generateTokenPair issued accessID refreshID userID tenantID
          roleID email).signedAccess).isOk = true →
        isAccessTokenRevoked (some (w2.authStores apiKeys)) w2.now accessID = true) ↔
      LastsToExpiry (unix (issued + j.accessExpiry)) (w.now + o0.elapsed) w1.now := by
  obtain ⟨hnow, hnote⟩ := revokeAccessToken_note hread hwrite hrun
  rw [← lasts_iff hread (by omega)]
  constructor
  · intro h t ht hexp
    obtain ⟨elapsed, rfl⟩ : ∃ elapsed : ℕ, t = w1.now + elapsed :=
      ⟨(t - w1.now).toNat, by omega⟩
    have hfound := h j [(.now, { elapsed := elapsed })] (w1.wait elapsed) rfl (by simp [AccountCall.Writes])
      ((validateAccessToken_accessToken ..).mpr
        ⟨mem_cons_self, hexp, unix_mono (by show issued ≤ w1.now + elapsed; omega)⟩)
    exact (isAccessTokenRevoked_of_store hnote).mp hfound
  · intro h j' as w2 hlater has haccepted
    obtain ⟨hle, hsame⟩ := noted_of_run hlater has
    obtain ⟨-, hexp, -⟩ := (validateAccessToken_accessToken ..).mp haccepted
    exact (isAccessTokenRevoked_of_store (hsame.trans hnote)).mpr (h w2.now hle hexp)

def sessionStart : AccountWorld := ⟨0, .empty [], ⟨.empty, [], .empty⟩⟩

/-- A token that is revoked a second after its issue is found revoked until it expires. -/
theorem revoked_while_accepted_iff_wholeSecond :
    ∃ w1, solo accountExec (revokeAccessToken "0a" "usr_1" 900) sessionStart
        [{ elapsed := 1000000000 }, {}] = some ((), w1) ∧
      ∀ as w2, run callStep w1 as = some w2 →
        (∀ a ∈ as, ¬a.1.Writes "revoked_access_tokens" "0a") →
        (someService.validateAccessToken w2.now (someService.generateTokenPair 0 "0a" "0b" "usr_1"
          "ten_1" "role_owner" "owner@example.com").signedAccess).isOk = true →
        isAccessTokenRevoked (some (w2.authStores fun _ => none)) w2.now "0a" = true := by
  refine ⟨_, rfl, ?_⟩
  exact (revoked_while_accepted_iff _ 0 _ _ _ _ _ _ (fun _ => none) sessionStart _ { elapsed :=
    1000000000 } {} (by decide) (by decide) rfl rfl).mpr (by decide) someService

/-- Half a second later, the note is gone in the last second of the token. -/
theorem accepted_after_revocation :
    ∃ w1 w2, solo accountExec (revokeAccessToken "0a" "usr_1" 900) sessionStart
        [{ elapsed := 1500000000 }, {}] = some ((), w1) ∧
      run callStep w1 [(.now, { elapsed := 897500000000 })] = some w2 ∧
      (someService.validateAccessToken w2.now (someService.generateTokenPair 0 "0a" "0b" "usr_1"
        "ten_1" "role_owner" "owner@example.com").signedAccess).isOk = true ∧
      isAccessTokenRevoked (some (w2.authStores fun _ => none)) w2.now "0a" = false := by
  refine ⟨_, _, rfl, rfl, ?_, ?_⟩ <;> decide

/-!
# Ending all sessions of a user

`ChangePassword` and `LogoutAll` revoke the refresh tokens of a user that are noted; `Register` does
not note the token that it issues.
-/

inductive AccountRequest
  | register (req : Option RegisterRequest)
  | login (req : Option LoginRequest)
  | refresh (req : SessionRequest)
  | logout (req : SessionRequest)
  | changePassword (claims : Option Claims) (req : Option (String × String))
  | logoutAll (claims : Option Claims)

def AccountRequest.handle (h : AccountHandler) : AccountRequest → Account AccountReply
  | register req => Accounts.register h req
  | login req => Accounts.login h req
  | refresh req => Accounts.refresh h req
  | logout req => Accounts.logout h req
  | changePassword claims req => Accounts.changePassword h claims req
  | logoutAll claims => Accounts.logoutAll h claims

def AccountRequest.issuer : AccountRequest → Issuer
  | register _ => .register
  | _ => .session

structure History where
  world : AccountWorld
  issued : List (Issuer × Token RefreshClaims)

/-- A request with the choices of the environment for its calls. -/
def accountStep (h : AccountHandler) (s : History) (a : AccountRequest × List AccountChoice) :
    Option History :=
  (solo sessionExec (a.1.handle h) s.world a.2).map fun (reply, w) =>
    ⟨w, issuedBy a.1.issuer reply ++ s.issued⟩

variable {h : AccountHandler} {s s' : History} {dead : RefreshClaims → Prop}

lemma books_step (hkv : h.kv = true) (hexpiry : h.jwt.refreshExpiry = 7 * day)
    {a : AccountRequest × List AccountChoice} (hbooks : Books s.issued dead s.world)
    (hstep : accountStep h s a = some s') : Books s'.issued dead s'.world := by
  obtain ⟨⟨reply, w⟩, hrun, rfl⟩ := map_eq_some_iff.mp hstep
  refine of_solo (Q := Posted s.issued dead a.1.issuer) ?_ hrun
  obtain ⟨request, os⟩ := a
  have hquiet {p : Account AccountReply}
      (hp : Wp sessionExec p (fun reply w' => issuedBy .session reply = [] ∧
        Books s.issued dead w') s.world) :
      Wp sessionExec p (Posted s.issued dead .session) s.world := by
    refine hp.mono ?_
    rintro reply w' ⟨hreply, hbooks'⟩
    rw [Posted, hreply]
    exact hbooks'
  cases request with
  | register req => exact wp_register hbooks hexpiry req
  | login req => exact (opens_login req).wp hkv hexpiry hbooks
  | refresh req => exact (opens_refresh req).wp hkv hexpiry hbooks
  | logout req => exact wp_logout req hbooks
  | changePassword claims req =>
    exact hquiet ((wp_changePassword hbooks hkv claims req).mono fun _ _ h => ⟨h.1, h.2.1⟩)
  | logoutAll claims =>
    cases claims with
    | none => exact hbooks
    | some claims =>
      exact hquiet ((wp_logoutAll hbooks hkv claims).mono fun _ _ h =>
        ⟨h.1, h.2.mono fun _ => .inl⟩)

inductive EndsSessions (userID : String) : AccountRequest → AccountReply → Prop
  | logoutAll {claims : Claims} (h : claims.userID = userID) :
    EndsSessions userID (.logoutAll (some claims)) (.done "all sessions logged out")
  | changePassword {claims : Claims} {req : Option (String × String)} (h : claims.userID = userID) :
    EndsSessions userID (.changePassword (some claims) req) (.done "password changed")

variable {reply : AccountReply} {os : List AccountChoice}

/-- When the sessions of a user end, every token that was issued to the user is dead, provided that
those issued by `Register` were. -/
lemma books_of_endsSessions (hkv : h.kv = true) {userID : String} {request : AccountRequest}
    {w' : AccountWorld} (hbooks : Books s.issued (fun _ => False) s.world)
    (hregister : ∀ x ∈ s.issued, x.1 = .register → x.2.claims.subject = userID →
      Dead s.world x.2.claims)
    (hends : EndsSessions userID request reply)
    (hrun : solo sessionExec (request.handle h) s.world os = some (reply, w')) :
    Books s.issued (fun c => c ∈ claimsOf s.issued ∧ c.subject = userID) w' := by
  let registered (c : RefreshClaims) : Prop :=
    (∃ x ∈ s.issued, x.1 = .register ∧ x.2.claims = c) ∧ c.subject = userID
  have hstart : Books s.issued registered s.world := by
    refine ⟨hbooks.known, hbooks.bounded, hbooks.settled, ?_⟩
    rintro _ ⟨⟨x, hx, hissuer, rfl⟩, hsubject⟩
    exact ⟨hbooks.bounded x hx, hregister x hx hissuer hsubject⟩
  have hended : Books s.issued (Ended s.issued registered userID) w' := by
    cases hends with
    | logoutAll hclaims =>
      subst hclaims
      exact (of_solo (wp_logoutAll hstart hkv _) hrun).2
    | changePassword hclaims =>
      subst hclaims
      obtain ⟨-, -, hchanged⟩ := of_solo (wp_changePassword hstart hkv _ _) hrun
      obtain ⟨c, hc, hbooks'⟩ := hchanged rfl
      cases hc
      exact hbooks'
  refine hended.mono ?_
  rintro _ ⟨hc, hsubject⟩
  obtain ⟨x, hx, rfl⟩ := mem_map.mp hc
  cases hissuer : x.1 with
  | register => exact .inl ⟨⟨x, hx, hissuer, rfl⟩, hsubject⟩
  | session => exact .inr ⟨⟨x, hx, hissuer, rfl⟩, hsubject⟩

/-- The token expires after a request has validated it, and before it looks it up. -/
def ExpiresMeanwhile (now expiresAt : ℤ) : List AccountChoice → Prop
  | o1 :: o2 :: _ => unix (now + o1.elapsed) < expiresAt ∧
      expiresAt ≤ unix (now + o1.elapsed + o2.elapsed)
  | _ => False

/-- The answers of `Refresh` to a token that it does not accept. -/
def Refused (reply : AccountReply) : Prop :=
  reply = .error 401 "invalid refresh token" ∨ reply = .error 401 "token has been revoked"
  deriving Decidable

variable {req : SessionRequest}

lemma refresh_of_token {token : SignedToken} (htoken : req.token? = some token) :
    refresh h req = .call .now fun now =>
      match h.jwt.validateSignedRefreshToken now token with
      | .error _ => .ret (.error 401 "invalid refresh token")
      | .ok rtClaims => tokenRevoked h rtClaims.jti >>= fun revoked =>
        if revoked then .ret (.error 401 "token has been revoked") else rotate h req rtClaims := by
  obtain ⟨body, cookie, accessToken, client⟩ := req
  cases body with
  | error => cases htoken
  | ok body =>
    have hor : body.or cookie = some token := htoken
    simp only [refresh, hor, Account.now, Prog.perform_bind]
    rfl

lemma tokenRevoked_eq {jti : String} (hkv : h.kv = true) (hjti : jti ≠ "") :
    tokenRevoked h jti = .call (.kvGet "revoked_tokens" jti) fun answer =>
      match answer with
      | .ok (.revoked revoked) => .ret revoked
      | _ => .ret false := by
  rw [tokenRevoked, if_pos ⟨hkv, hjti⟩, Account.kvGet, Prog.perform_bind]
  refine congrArg _ (funext fun answer => ?_)
  rcases answer with e | value
  · rfl
  · cases value <;> rfl

lemma refused_of_dead (hkv : h.kv = true) {w w' : AccountWorld} {t : Token RefreshClaims}
    (hissued : Issued w t.claims) (hdead : Dead w t.claims)
    (htoken : req.token? = some (t.signed RefreshClaims.payload))
    (hmeanwhile : ¬ExpiresMeanwhile w.now t.claims.expiresAt os)
    (hrun : solo sessionExec (refresh h req) w os = some (reply, w')) : Refused reply := by
  rw [refresh_of_token htoken] at hrun
  cases os with
  | nil => cases hrun
  | cons o1 os =>
    obtain ⟨⟨now, w1⟩, hnow, hrun⟩ := bind_eq_some_iff.mp hrun
    obtain ⟨rfl, rfl⟩ := answer_inj (restrict_eq_some hnow).2
    dsimp only at hrun
    cases hvalidate : h.jwt.validateSignedRefreshToken (w.wait o1.elapsed).now
        (t.signed RefreshClaims.payload) with
    | error e =>
      rw [hvalidate] at hrun
      exact .inl (eq_of_solo_ret hrun).1
    | ok rtClaims =>
      rw [hvalidate] at hrun
      rw [validateSignedRefreshToken_signed] at hvalidate
      obtain ⟨rfl, hlive⟩ := validateRefreshToken_ok hvalidate
      obtain ⟨entry, hentry, hdata, hlong⟩ := hdead.resolve_left fun hexpired => by
        have hunix := unix_mono (now_le_of_exec hnow)
        omega
      have hjti : t.claims.given.jti ≠ "" := hissued.nonempty
      dsimp only at hrun
      rw [tokenRevoked_eq hkv hjti] at hrun
      cases os with
      | nil => cases hrun
      | cons o2 os =>
        obtain ⟨⟨answer, w2⟩, hget, hrun⟩ := bind_eq_some_iff.mp hrun
        obtain ⟨rfl, rfl⟩ := kvGet_answer hget
        have hlt : unix ((w.wait o1.elapsed).wait o2.elapsed).now < entry.expiresAt := by
          have := fun hexpired => hmeanwhile ⟨hlive, hexpired⟩
          have hlt := Int.not_le.mp this
          exact hlt.trans_le hlong
        have hrevoked : ((w.wait o1.elapsed).wait o2.elapsed).kv.get
            (unix ((w.wait o1.elapsed).wait o2.elapsed).now) "revoked_tokens" t.claims.given.jti =
              .ok (.revoked true) :=
          (KVStore.get_of_lt hentry hlt).trans (congrArg Except.ok hdata)
        rw [hrevoked] at hrun
        exact .inr (eq_of_solo_ret hrun).1

/-- **After the sessions of a user have ended**, no refresh token issued before is accepted any
more: when the tokens issued by `Register` were dead, and the token does not expire in the middle of
the request. -/
theorem refused_after_endSessions (h : AccountHandler) (w0 w1 w' : AccountWorld)
    (as bs : List (AccountRequest × List AccountChoice)) (s s' : History) (userID : String)
    (request : AccountRequest) (os os' : List AccountChoice) (reply reply' : AccountReply)
    (issuer : Issuer) (t : Token RefreshClaims) (req : SessionRequest)
    (hkv : h.kv = true) (hexpiry : h.jwt.refreshExpiry = 7 * day) (hw0 : Known w0.kv)
    (hbefore : run (accountStep h) ⟨w0, []⟩ as = some s)
    (hregister : ∀ x ∈ s.issued, x.1 = .register → x.2.claims.subject = userID →
      Dead s.world x.2.claims)
    (hends : EndsSessions userID request reply)
    (hrun : solo sessionExec (request.handle h) s.world os = some (reply, w1))
    (hafter : run (accountStep h) ⟨w1, s.issued⟩ bs = some s')
    (hissued : (issuer, t) ∈ s.issued) (hsubject : t.claims.subject = userID)
    (htoken : req.token? = some (t.signed RefreshClaims.payload))
    (hmeanwhile : ¬ExpiresMeanwhile s'.world.now t.claims.expiresAt os')
    (hrefresh : solo sessionExec (refresh h req) s'.world os' = some (reply', w')) :
    Refused reply' := by
  have hstart : Books [] (fun _ => False) w0 := ⟨hw0, nofun, nofun, nofun⟩
  have hbooks : Books s.issued (fun _ => False) s.world :=
    invariant_of_run (I := fun s : History => Books s.issued (fun _ => False) s.world)
      (fun _ _ _ hs hstep => books_step hkv hexpiry hs hstep) hstart hbefore
  have hended := books_of_endsSessions hkv hbooks hregister hends hrun
  have hbooks' := invariant_of_run
    (I := fun s' : History =>
      Books s'.issued (fun c => c ∈ claimsOf s.issued ∧ c.subject = userID) s'.world)
    (fun _ _ _ hs hstep => books_step hkv hexpiry hs hstep) hended hafter
  obtain ⟨hissued', hdead⟩ := hbooks'.gone t.claims ⟨mem_map_of_mem hissued, hsubject⟩
  exact refused_of_dead hkv hissued' hdead htoken hmeanwhile hrefresh

def openHandler : AccountHandler where
  jwt := newJWTService "0123456789abcdef0123456789abcdef" []
  kv := true
  verifyPassword := fun hash password => hash = password
  hashPassword := some
  parseAddress := fun _ => true
  equalFold := fun s t => s = t
  registrationMode := some "open"

def noUsers : AccountWorld where
  now := 0
  kv := KVTable.empty []
  db := ⟨Table.empty, [], Table.empty⟩

def aliceOnly : AccountWorld :=
  { noUsers with
    db := ⟨⟨[⟨"u1", "alice@example.org", "Correct-Horse-7", "alice", false, "", []⟩], nodup_singleton _⟩,
      [⟨"u1", "t1", "role_owner"⟩], Table.empty⟩ }

def plain (n : ℕ) : List AccountChoice := replicate n {}

def drawn (access refresh : UInt8) : AccountChoice :=
  { accessBytes := replicate 16 access, refreshBytes := replicate 16 refresh }

def registers : AccountRequest × List AccountChoice :=
  (.register (some ⟨"alice@example.org", "Correct-Horse-7", "alice", ""⟩),
    [{}, { newID := "t1" }, { newID := "u1" }, drawn 1 2])

def logsIn (elapsed : ℕ) : AccountRequest × List AccountChoice :=
  (.login (some ⟨"alice@example.org", "Correct-Horse-7", "", ⟨"203.0.113.9", "browser"⟩⟩),
    { elapsed := elapsed } :: plain 2 ++ drawn 3 4 :: plain 6)

def aliceClaims : Claims :=
  ⟨⟨tokenIssuer, "", [tokenAudience], none, none, none, ""⟩, "u1", "t1", "role_owner",
    "alice@example.org"⟩

def registeredToken : Token RefreshClaims :=
  (openHandler.jwt.generateTokenPair 0 "" (SHA256.hex (replicate 16 2)) "u1" "t1" "role_owner"
    "alice@example.org").refreshToken

def loginToken (at_ : ℤ) : Token RefreshClaims :=
  (openHandler.jwt.generateTokenPair at_ "" (SHA256.hex (replicate 16 4)) "u1" "t1"
    "role_owner" "alice@example.org").refreshToken

def refreshedPair : TokenPair :=
  openHandler.jwt.generateTokenPair 0 (SHA256.hex (replicate 16 5))
    (SHA256.hex (replicate 16 6)) "u1" "t1" "role_owner" "alice@example.org"

def presents (t : Token RefreshClaims) : SessionRequest :=
  ⟨.ok (some (t.signed RefreshClaims.payload)), none, none, ⟨"203.0.113.9", "browser"⟩⟩

def eightDays : ℕ := 8 * 86400000000000

/-- The token from the login is refused after the user has logged out everywhere; the one from the
registration had expired by then. -/
theorem refused_after_endSessions_eightDays : ∃ s w1 reply' w',
    run (accountStep openHandler) ⟨noUsers, []⟩ [registers, logsIn eightDays] = some s ∧
      solo sessionExec (logoutAll openHandler (some aliceClaims)) s.world (plain 4) =
        some (.done "all sessions logged out", w1) ∧
      solo sessionExec (refresh openHandler (presents (loginToken eightDays))) w1
        (plain 2) = some (reply', w') ∧ Refused reply' := by
  obtain ⟨s, hbefore, hissued, hregister, w1, hrun, ⟨reply', w'⟩, hrefresh⟩ : ∃ s,
      run (accountStep openHandler) ⟨noUsers, []⟩ [registers, logsIn eightDays] = some s ∧
        (Issuer.session, loginToken eightDays) ∈ s.issued ∧
        (∀ x ∈ s.issued, x.1 = .register → x.2.claims.expiresAt ≤ unix s.world.now) ∧
        ∃ w1, solo sessionExec (logoutAll openHandler (some aliceClaims)) s.world (plain 4) =
            some (.done "all sessions logged out", w1) ∧
          ∃ x, solo sessionExec (refresh openHandler (presents (loginToken eightDays))) w1
            (plain 2) = some x := by decide +kernel
  refine ⟨s, w1, reply', w', hbefore, hrun, hrefresh, ?_⟩
  refine refused_after_endSessions _ noUsers w1 w' _ [] s _ _ _ _ _ _ _ _ _ _ rfl rfl nofun hbefore
    (fun x hx hissuer _ => .inl (hregister x hx hissuer)) (.logoutAll rfl) hrun rfl hissued rfl rfl
    ?_ hrefresh
  rintro ⟨hlive, hexpired⟩
  have hsame : w1.now + (0 : ℕ) + (0 : ℕ) = w1.now + (0 : ℕ) := by omega
  exact absurd (hsame ▸ hexpired) (Int.not_le.mpr hlive)

/-- **The token from the registration survives** logging out everywhere: it is refreshed. -/
theorem registeredToken_refreshed : ∃ s w1,
    run (accountStep openHandler) ⟨noUsers, []⟩ [registers, logsIn 0] = some s ∧
      (Issuer.register, registeredToken) ∈ s.issued ∧ registeredToken.claims.subject = "u1" ∧
      solo sessionExec (logoutAll openHandler (some aliceClaims)) s.world (plain 4) =
        some (.done "all sessions logged out", w1) ∧
      ∃ tokens w', solo sessionExec (refresh openHandler (presents registeredToken)) w1
        (plain 5 ++ drawn 5 6 :: plain 5) = some (.tokens 200 tokens, w') := by
  obtain ⟨s, hbefore, hissued, w1, hrun, w', hrefresh⟩ : ∃ s,
      run (accountStep openHandler) ⟨noUsers, []⟩ [registers, logsIn 0] = some s ∧
        (Issuer.register, registeredToken) ∈ s.issued ∧
        ∃ w1, solo sessionExec (logoutAll openHandler (some aliceClaims)) s.world (plain 4) =
            some (.done "all sessions logged out", w1) ∧
          ∃ w', solo sessionExec (refresh openHandler (presents registeredToken)) w1
            (plain 5 ++ drawn 5 6 :: plain 5) = some (.tokens 200 refreshedPair, w') := by
    decide +kernel
  exact ⟨s, w1, hbefore, hissued, rfl, hrun, _, w', hrefresh⟩

end DeployMonster.Handlers.Accounts
