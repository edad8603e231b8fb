import DeployMonster.Core.Clock
import DeployMonster.Library.StepMachine

/-!
# Tokens

`internal/auth/jwt.go`. A token is the claims it carries and the key it is signed with: a signature
is accepted exactly under the key that made it.
-/

namespace DeployMonster.Auth

section

open Clock

def RotationGracePeriod : ℤ := 20 * minute

def tokenIssuer : String := "deploymonster"

def tokenAudience : String := "deploymonster"

def RefreshTokenTTLSeconds : ℤ := 7 * 24 * 60 * 60

def MaxAbsoluteSessionSeconds : ℤ := 30 * 24 * 60 * 60

inductive SigningMethod
  | HS256 | other
  deriving DecidableEq

/-- `Claims`, of an access token. Times are Unix times. -/
structure AccessClaims where
  (expiresAt issuedAt notBefore : ℤ)
  (id issuer : String)
  audience : List String
  (userID tenantID roleID email : String)
  deriving DecidableEq

structure RefreshClaims where
  (expiresAt issuedAt : ℤ)
  (subject id issuer : String)
  audience : List String
  firstIssuedAt : ℤ
  deriving DecidableEq

structure Token (Claims : Type) where
  method : SigningMethod
  key : String
  claims : Claims
  deriving DecidableEq

structure TokenPair where
  accessToken : Token AccessClaims
  refreshToken : Token RefreshClaims
  expiresIn : ℤ
  tokenType : String
  deriving DecidableEq

/-- `JWTService`. A previous key has the time it was added, or none when it comes from the
configuration (the zero time). -/
structure JWTService where
  secretKey : String
  previousKeys : List (String × Option ℤ)
  (accessExpiry refreshExpiry : ℤ)

/-- `NewJWTService`, for a secret that is long enough. -/
def newJWTService (secret : String) (previousSecrets : List String) : JWTService where
  secretKey := secret
  previousKeys := (previousSecrets.filter (· ≠ "")).map (·, none)
  accessExpiry := 15 * minute
  refreshExpiry := 7 * day

variable (j : JWTService)

/-- The previous keys that `purgeExpiredPreviousKeysLocked` keeps. -/
def JWTService.keptKeys (now : ℤ) : List (String × Option ℤ) :=
  j.previousKeys.filter fun (_, added) => added.all fun t => t > now - RotationGracePeriod

def JWTService.allKeys (now : ℤ) : List String :=
  j.secretKey :: (j.keptKeys now).map Prod.fst

/-- `GenerateTokenPair` at the time `now`, with the token ids that `generateTokenID` gives. -/
def JWTService.generateTokenPair (now : ℤ) (accessID refreshID : String)
    (userID tenantID roleID email : String) : TokenPair where
  accessToken :=
    { method := .HS256
      key := j.secretKey
      claims :=
        { expiresAt := unix (now + j.accessExpiry)
          issuedAt := unix now
          notBefore := unix now
          id := accessID
          issuer := tokenIssuer
          audience := [tokenAudience]
          userID, tenantID, roleID, email } }
  refreshToken :=
    { method := .HS256
      key := j.secretKey
      claims :=
        { expiresAt := unix (now + j.refreshExpiry)
          issuedAt := unix now
          subject := userID
          id := refreshID
          issuer := tokenIssuer
          audience := [tokenAudience]
          firstIssuedAt := unix now } }
  expiresIn := j.accessExpiry / second
  tokenType := "Bearer"

structure RefreshTokenClaims where
  (userID jti : String)
  deriving DecidableEq

def RefreshClaims.given (claims : RefreshClaims) : RefreshTokenClaims := ⟨claims.subject, claims.id⟩

inductive JWTError
  | signatureInvalid
  /-- `session expired (absolute timeout exceeded)`. -/
  | sessionExpired
  deriving DecidableEq

/-- `jwt.ParseWithClaims` under a key, with the options of `ValidateRefreshToken`: the method, the
signature, the issuer, the audience and the expiry. -/
def parses (key : String) (now : ℤ) (t : Token RefreshClaims) : Bool :=
  t.method = .HS256 ∧ t.key = key ∧ now < t.claims.expiresAt * second ∧
    t.claims.issuer = tokenIssuer ∧ tokenAudience ∈ t.claims.audience

/-- The loop of `ValidateRefreshToken` over the keys. -/
def validateWith (now : ℤ) (t : Token RefreshClaims) :
    List String → Except JWTError RefreshTokenClaims
  | [] => .error .signatureInvalid
  | key :: keys =>
    if parses key now t then
      if t.claims.firstIssuedAt > 0 ∧
          unix now - t.claims.firstIssuedAt > MaxAbsoluteSessionSeconds then
        .error .sessionExpired
      else .ok t.claims.given
    else validateWith now t keys

def JWTService.validateRefreshToken (now : ℤ) (t : Token RefreshClaims) :
    Except JWTError RefreshTokenClaims :=
  validateWith now t (j.allKeys now)

variable {j j' : JWTService} {now : ℤ} {t : Token RefreshClaims} {claims : RefreshTokenClaims}

lemma validateWith_ok {keys : List String} (h : validateWith now t keys = .ok claims) :
    claims = t.claims.given ∧ now < t.claims.expiresAt * second := by
  induction keys with
  | nil => cases h
  | cons key keys ih =>
    rw [validateWith] at h
    split at h
    case isTrue hp =>
      split at h
      case isTrue => cases h
      case isFalse =>
        cases h
        simp only [parses, Bool.decide_and, Bool.and_eq_true, decide_eq_true_eq] at hp
        exact ⟨rfl, hp.2.2.1⟩
    case isFalse => exact ih h

lemma validateRefreshToken_ok (h : j.validateRefreshToken now t = .ok claims) :
    claims = t.claims.given ∧ unix now < t.claims.expiresAt := by
  obtain ⟨hc, hexp⟩ := validateWith_ok h
  exact ⟨hc, unix_lt_iff.mpr hexp⟩

lemma validateWith_of_mem {keys : List String} (hkey : t.key ∈ keys)
    (hparse : parses t.key now t = true)
    (hsession : unix now - t.claims.firstIssuedAt ≤ MaxAbsoluteSessionSeconds) :
    validateWith now t keys = .ok t.claims.given := by
  induction keys with
  | nil => cases hkey
  | cons key keys ih =>
    rw [validateWith]
    split
    case isTrue =>
      rw [if_neg]
      rintro ⟨-, hlt⟩
      omega
    case isFalse hp =>
      have hne : t.key ≠ key := fun h => hp (h ▸ hparse)
      exact ih ((List.mem_cons.mp hkey).resolve_left hne)

lemma unix_add_refreshExpiry (hexpiry : j.refreshExpiry = 7 * day) (issued : ℤ) :
    unix (issued + j.refreshExpiry) = unix issued + RefreshTokenTTLSeconds := by
  rw [hexpiry]
  exact unix_add issued RefreshTokenTTLSeconds

/-- **A generated refresh token is accepted until it expires**, by every service that knows its key:
the session that it continues does not count. -/
theorem validateRefreshToken_generated {issued : ℤ} {accessID refreshID : String}
    {userID tenantID roleID email : String} (hkey : j.secretKey ∈ j'.allKeys now)
    (hexpiry : j.refreshExpiry = 7 * day) (hnow : unix now < unix issued + RefreshTokenTTLSeconds) :
    j'.validateRefreshToken now
        (j.generateTokenPair issued accessID refreshID userID tenantID roleID email).refreshToken =
      .ok ⟨userID, refreshID⟩ := by
  have hexp := unix_add_refreshExpiry hexpiry issued
  refine validateWith_of_mem hkey ?_ ?_
  · have hlt : now < (unix issued + RefreshTokenTTLSeconds) * second := unix_lt_iff.mp hnow
    simp [parses, JWTService.generateTokenPair, hexp, hlt]
  · show unix now - unix issued ≤ MaxAbsoluteSessionSeconds
    simp only [RefreshTokenTTLSeconds, MaxAbsoluteSessionSeconds] at *
    omega

/-!
# Tokens on the wire

The payload of a token is a JSON object that `jwt.ParseWithClaims` decodes into the struct of the
caller: a missing member leaves the zero value, and an unknown one is ignored. So a token of either
kind decodes as the other.
-/

open Option

/-- The names of the claims, as the JSON tags have them. -/
inductive ClaimName
  | iss | sub | aud | exp | nbf | iat | jti
  | uid | tid | rid | email | fia

inductive ClaimValue
  | text (s : String)
  | texts (l : List String)
  | number (n : ℤ)

def Payload := ClaimName → Option ClaimValue

structure SignedToken where
  method : SigningMethod
  key : String
  payload : Payload

def textOrAbsent (s : String) : Option ClaimValue := if s = "" then none else some (.text s)

def textsOrAbsent (l : List String) : Option ClaimValue := if l = [] then none else some (.texts l)

def AccessClaims.payload (c : AccessClaims) : Payload
  | .iss => textOrAbsent c.issuer
  | .aud => textsOrAbsent c.audience
  | .exp => some (.number c.expiresAt)
  | .nbf => some (.number c.notBefore)
  | .iat => some (.number c.issuedAt)
  | .jti => textOrAbsent c.id
  | .uid => some (.text c.userID)
  | .tid => some (.text c.tenantID)
  | .rid => some (.text c.roleID)
  | .email => some (.text c.email)
  | .sub | .fia => none

variable (c : RefreshClaims)

def RefreshClaims.payload : Payload
  | .iss => textOrAbsent c.issuer
  | .sub => textOrAbsent c.subject
  | .aud => textsOrAbsent c.audience
  | .exp => some (.number c.expiresAt)
  | .iat => some (.number c.issuedAt)
  | .jti => textOrAbsent c.id
  | .fia => some (.number c.firstIssuedAt)
  | .nbf | .uid | .tid | .rid | .email => none

def Token.signed {C : Type} (t : Token C) (payload : C → Payload) : SignedToken :=
  ⟨t.method, t.key, payload t.claims⟩

def TokenPair.signedAccess (pair : TokenPair) : SignedToken :=
  pair.accessToken.signed AccessClaims.payload

def TokenPair.signedRefresh (pair : TokenPair) : SignedToken :=
  pair.refreshToken.signed RefreshClaims.payload

/-- A text field: its zero value when the member is missing, an error when it is no text. -/
def asText? : Option ClaimValue → Option String
  | none => some ""
  | some (.text s) => some s
  | some _ => none

/-- `ClaimStrings`: one text or a list of them. -/
def asTexts? : Option ClaimValue → Option (List String)
  | none => some []
  | some (.text s) => some [s]
  | some (.texts l) => some l
  | some (.number _) => none

/-- A pointer to a `NumericDate`. -/
def asDate? : Option ClaimValue → Option (Option ℤ)
  | none => some none
  | some (.number n) => some (some n)
  | some _ => none

def asNumber? : Option ClaimValue → Option ℤ
  | none => some 0
  | some (.number n) => some n
  | some _ => none

/-- `jwt.RegisteredClaims`. -/
structure RegisteredClaims where
  (issuer subject : String)
  audience : List String
  (expiresAt notBefore issuedAt : Option ℤ)
  id : String

def RegisteredClaims.decode? (p : Payload) : Option RegisteredClaims := do
  return ⟨← asText? (p .iss), ← asText? (p .sub), ← asTexts? (p .aud), ← asDate? (p .exp),
    ← asDate? (p .nbf), ← asDate? (p .iat), ← asText? (p .jti)⟩

structure Claims where
  registered : RegisteredClaims
  (userID tenantID roleID email : String)

def Claims.decode? (p : Payload) : Option Claims := do
  return ⟨← RegisteredClaims.decode? p, ← asText? (p .uid), ← asText? (p .tid),
    ← asText? (p .rid), ← asText? (p .email)⟩

/-- `refreshTokenWithSession`. -/
structure SessionClaims where
  registered : RegisteredClaims
  firstIssuedAt : ℤ

def SessionClaims.decode? (p : Payload) : Option SessionClaims := do
  return ⟨← RegisteredClaims.decode? p, ← asNumber? (p .fia)⟩

/-- The library's validator with the options that both kinds are parsed with. A date that is missing
is not checked. -/
def RegisteredClaims.valid (c : RegisteredClaims) (now : ℤ) : Bool :=
  (c.expiresAt.all fun exp => now < exp * second) ∧ (c.notBefore.all fun nbf => nbf * second ≤ now) ∧
    c.issuer = tokenIssuer ∧ tokenAudience ∈ c.audience

section

variable {C : Type} (decode? : Payload → Option C) (registered : C → RegisteredClaims)

def parseWithClaims (now : ℤ) (t : SignedToken) (key : String) : Option C :=
  if t.method = .HS256 ∧ t.key = key then
    (decode? t.payload).filter fun c => (registered c).valid now
  else none

lemma findSome?_parseWithClaims (now : ℤ) (t : SignedToken) (keys : List String) :
    keys.findSome? (parseWithClaims decode? registered now t) =
      if t.key ∈ keys then parseWithClaims decode? registered now t t.key else none := by
  induction keys with
  | nil => rfl
  | cons key keys ih =>
    rw [List.findSome?_cons, ih]
    by_cases hkey : t.key = key
    · subst hkey
      cases parseWithClaims decode? registered now t t.key <;> simp
    · have hnone : parseWithClaims decode? registered now t key = none :=
        if_neg fun h => hkey h.2
      simp [hnone, hkey]

end

def JWTService.validateAccessToken (j : JWTService) (now : ℤ) (t : SignedToken) :
    Except JWTError Claims :=
  match (j.allKeys now).findSome? (parseWithClaims Claims.decode? Claims.registered now t) with
  | none => .error .signatureInvalid
  | some claims => .ok claims

def JWTService.validateSignedRefreshToken (j : JWTService) (now : ℤ) (t : SignedToken) :
    Except JWTError RefreshTokenClaims :=
  match (j.allKeys now).findSome?
      (parseWithClaims SessionClaims.decode? SessionClaims.registered now t) with
  | none => .error .signatureInvalid
  | some claims =>
    if claims.firstIssuedAt > 0 ∧
        unix now - claims.firstIssuedAt > MaxAbsoluteSessionSeconds then .error .sessionExpired
    else .ok ⟨claims.registered.subject, claims.registered.id⟩

structure AccessTokenRevocation where
  jti : String
  expiresAt : ℤ
  userID : String

/-! ## What the kinds are to each other -/

@[simp] lemma asText?_none : asText? none = some "" := rfl

@[simp] lemma asText?_textOrAbsent (s : String) : asText? (textOrAbsent s) = some s := by
  by_cases hs : s = "" <;> simp [asText?, textOrAbsent, hs]

@[simp] lemma asTexts?_textsOrAbsent (l : List String) : asTexts? (textsOrAbsent l) = some l := by
  by_cases hl : l = [] <;> simp [asTexts?, textsOrAbsent, hl]

@[simp] lemma asDate?_none : asDate? none = some none := rfl

@[simp] lemma asDate?_number (n : ℤ) : asDate? (some (.number n)) = some (some n) := rfl

@[simp] lemma asNumber?_none : asNumber? none = some 0 := rfl

@[simp] lemma asNumber?_number (n : ℤ) : asNumber? (some (.number n)) = some n := rfl

/-- The registered claims of a refresh token: it has no `nbf`. -/
def RefreshClaims.registered : RegisteredClaims :=
  ⟨c.issuer, c.subject, c.audience, some c.expiresAt, none, some c.issuedAt, c.id⟩

def AccessClaims.registered (c : AccessClaims) : RegisteredClaims :=
  ⟨c.issuer, "", c.audience, some c.expiresAt, some c.notBefore, some c.issuedAt, c.id⟩

@[simp] lemma RefreshClaims.decode?_payload :
    RegisteredClaims.decode? c.payload = some c.registered := by
  simp [RegisteredClaims.decode?, RefreshClaims.payload, RefreshClaims.registered]

@[simp] lemma AccessClaims.decode?_payload (c : AccessClaims) :
    RegisteredClaims.decode? c.payload = some c.registered := by
  simp [RegisteredClaims.decode?, AccessClaims.payload, AccessClaims.registered]

lemma Claims.decode?_refreshClaims :
    Claims.decode? c.payload = some ⟨c.registered, "", "", "", ""⟩ := by
  simp [Claims.decode?, RefreshClaims.payload]

lemma Claims.decode?_accessClaims (c : AccessClaims) :
    Claims.decode? c.payload = some ⟨c.registered, c.userID, c.tenantID, c.roleID, c.email⟩ := by
  simp [Claims.decode?, AccessClaims.payload, asText?]

lemma SessionClaims.decode?_accessClaims (c : AccessClaims) :
    SessionClaims.decode? c.payload = some ⟨c.registered, 0⟩ := by
  simp [SessionClaims.decode?, AccessClaims.payload]

lemma SessionClaims.decode?_refreshClaims :
    SessionClaims.decode? c.payload = some ⟨c.registered, c.firstIssuedAt⟩ := by
  simp [SessionClaims.decode?, RefreshClaims.payload]

lemma parseWithClaims_refreshToken (now : ℤ) (t : Token RefreshClaims) (key : String) :
    parseWithClaims SessionClaims.decode? SessionClaims.registered now
        (t.signed RefreshClaims.payload) key =
      if parses key now t then some ⟨t.claims.registered, t.claims.firstIssuedAt⟩ else none := by
  simp only [parseWithClaims, Token.signed, SessionClaims.decode?_refreshClaims, filter_some]
  by_cases hsigned : t.method = .HS256 ∧ t.key = key
  · rw [if_pos hsigned]
    simp [parses, RegisteredClaims.valid, RefreshClaims.registered, hsigned]
  rw [if_neg hsigned, if_neg]
  intro hparses
  have hparses := of_decide_eq_true hparses
  exact hsigned ⟨hparses.1, hparses.2.1⟩

/-- **On refresh tokens the validation is the typed one.** -/
theorem validateSignedRefreshToken_signed (j : JWTService) (now : ℤ) (t : Token RefreshClaims) :
    j.validateSignedRefreshToken now (t.signed RefreshClaims.payload) =
      j.validateRefreshToken now t := by
  rw [JWTService.validateSignedRefreshToken, JWTService.validateRefreshToken]
  induction j.allKeys now with
  | nil => rfl
  | cons key keys ih =>
    rw [List.findSome?_cons, validateWith, parseWithClaims_refreshToken]
    by_cases hparses : parses key now t = true
    · rw [if_pos hparses, if_pos hparses]
      rfl
    · rw [if_neg hparses, if_neg hparses]
      exact ih

lemma findSome?_of_decode? {C : Type} {decode? : Payload → Option C}
    {registered : C → RegisteredClaims} {t : SignedToken} {c : C} (hmethod : t.method = .HS256)
    (hdecode : decode? t.payload = some c) (now : ℤ) (keys : List String) :
    keys.findSome? (parseWithClaims decode? registered now t) =
      if t.key ∈ keys ∧ (registered c).valid now then some c else none := by
  have hparse : parseWithClaims decode? registered now t t.key =
      if (registered c).valid now then some c else none := by
    rw [parseWithClaims, if_pos ⟨hmethod, rfl⟩, hdecode, filter_some]
  rw [findSome?_parseWithClaims, hparse]
  by_cases hkey : t.key ∈ keys <;> simp [hkey]

/-- A token that `j` has signed is of no use to `j'` any more: its key is not accepted, or it has
expired. -/
def Stale (j j' : JWTService) (now expiresAt : ℤ) : Prop :=
  j.secretKey ∉ j'.allKeys now ∨ unix expiresAt ≤ unix now
  deriving Decidable

section

variable (j j' : JWTService) (issued now : ℤ)
variable (accessID refreshID userID tenantID roleID email : String)

/-- **A refresh token is an access token of nobody** while its key is accepted and it has not
expired. -/
theorem validateAccessToken_refreshToken :
    j'.validateAccessToken now
        (j.generateTokenPair issued accessID refreshID userID tenantID roleID email).signedRefresh =
      if Stale j j' now (issued + j.refreshExpiry) then .error .signatureInvalid
      else .ok ⟨⟨tokenIssuer, userID, [tokenAudience], some (unix (issued + j.refreshExpiry)), none,
        some (unix issued), refreshID⟩, "", "", "", ""⟩ := by
  rw [JWTService.validateAccessToken, TokenPair.signedRefresh,
    findSome?_of_decode? rfl (Claims.decode?_refreshClaims _)]
  have hvalid : (JWTService.generateTokenPair j issued accessID refreshID userID tenantID roleID
      email).refreshToken.claims.registered.valid now = true ↔
        unix now < unix (issued + j.refreshExpiry) := by
    simp [RegisteredClaims.valid, RefreshClaims.registered, JWTService.generateTokenPair,
      unix_lt_iff]
  by_cases hstale : Stale j j' now (issued + j.refreshExpiry)
  · rw [if_pos hstale, if_neg]
    rintro ⟨hkey, hnow⟩
    exact hstale.elim (fun h => h hkey) (fun h => absurd (hvalid.mp hnow) (Int.not_lt.mpr h))
  · obtain ⟨hkey, hnow⟩ := not_or.mp hstale
    rw [if_neg hstale, if_pos ⟨Decidable.not_not.mp hkey, hvalid.mpr (Int.not_le.mp hnow)⟩]
    rfl

lemma accessToken_valid_iff :
    (j.generateTokenPair issued accessID refreshID userID tenantID roleID
        email).accessToken.claims.registered.valid now = true ↔
      unix now < unix (issued + j.accessExpiry) ∧ unix issued ≤ unix now := by
  simp [RegisteredClaims.valid, AccessClaims.registered, JWTService.generateTokenPair, unix_lt_iff,
    le_unix_iff]

/-- **An access token is accepted** while its key is, from its issue to its expiry. -/
theorem validateAccessToken_accessToken :
    (j'.validateAccessToken now (j.generateTokenPair issued accessID refreshID userID tenantID roleID
        email).signedAccess).isOk = true ↔
      j.secretKey ∈ j'.allKeys now ∧ unix now < unix (issued + j.accessExpiry) ∧
        unix issued ≤ unix now := by
  rw [JWTService.validateAccessToken, TokenPair.signedAccess,
    findSome?_of_decode? rfl (Claims.decode?_accessClaims _)]
  have hvalid := accessToken_valid_iff j issued now accessID refreshID userID tenantID roleID email
  split
  case h_1 hnone =>
    refine iff_of_false Bool.false_ne_true fun ⟨hkey, hnow⟩ => ?_
    rw [if_pos ⟨hkey, hvalid.mpr hnow⟩] at hnone
    cases hnone
  case h_2 hsome =>
    obtain ⟨⟨hkey, hnow⟩, -⟩ := ite_none_right_eq_some.mp hsome
    exact iff_of_true rfl ⟨hkey, hvalid.mp hnow⟩

/-- **An access token is a refresh token of nobody** while its key is accepted and it is valid. -/
theorem validateSignedRefreshToken_accessToken :
    j'.validateSignedRefreshToken now
        (j.generateTokenPair issued accessID refreshID userID tenantID roleID email).signedAccess =
      if Stale j j' now (issued + j.accessExpiry) ∨ unix now < unix issued then
        .error .signatureInvalid
      else .ok ⟨"", accessID⟩ := by
  rw [JWTService.validateSignedRefreshToken, TokenPair.signedAccess,
    findSome?_of_decode? rfl (SessionClaims.decode?_accessClaims _)]
  have hvalid := accessToken_valid_iff j issued now accessID refreshID userID tenantID roleID email
  by_cases hstale : Stale j j' now (issued + j.accessExpiry) ∨ unix now < unix issued
  · rw [if_pos hstale, if_neg]
    rintro ⟨hkey, hnow⟩
    obtain ⟨hexp, hnbf⟩ := hvalid.mp hnow
    rcases hstale with (h | h) | h
    · exact h hkey
    · omega
    · omega
  · obtain ⟨hfresh, hnbf⟩ := not_or.mp hstale
    obtain ⟨hkey, hexp⟩ := not_or.mp hfresh
    rw [if_neg hstale, if_pos ⟨Decidable.not_not.mp hkey,
      hvalid.mpr ⟨Int.not_le.mp hexp, Int.not_lt.mp hnbf⟩⟩]
    rfl

end

end

/-!
# Previous keys

The rotated keys of `internal/auth/jwt.go`, as the two slices that `purgeExpiredPreviousKeysLocked`
compacts in place. A key from the configuration has the zero time, and is never purged.
-/

open StepMachine List

/-- `previousKeys` and `previousAdded`; the zero time is `none`. -/
structure KeyRing where
  keys : List String
  added : List (Option ℤ)

namespace KeyRing

/-- The test of the loop. -/
def fresh (now : ℤ) (added : Option ℤ) : Bool := added.all fun t => t > now - RotationGracePeriod

/-- The body of the loop at the index `i`, with `validIdx`. -/
def purgeStep (now : ℤ) (s : KeyRing × ℕ) (i : ℕ) : Option (KeyRing × ℕ) := do
  let t ← s.1.added[i]?
  if fresh now t then
    if s.2 ≠ i then
      let key ← s.1.keys[i]?
      return (⟨s.1.keys.set s.2 key, s.1.added.set s.2 t⟩, s.2 + 1)
    else return (s.1, s.2 + 1)
  else return s

def purge (now : ℤ) (r : KeyRing) : Option KeyRing := do
  let (r, validIdx) ← (range' 0 r.added.length).foldlM (purgeStep now) (r, 0)
  if validIdx < r.keys.length then return ⟨r.keys.take validIdx, r.added.take validIdx⟩
  else return r

/-- The slices of these keys with their times. -/
def of (l : List (String × Option ℤ)) : KeyRing := ⟨l.map Prod.fst, l.map Prod.snd⟩

variable (now : ℤ)

/-- **The loop compacts in place**: what it keeps moves to the front, over what it does not keep. -/
theorem foldlM_purgeStep (rest front junk : List (String × Option ℤ)) :
    ∃ junk', (range' (front.length + junk.length) rest.length).foldlM (purgeStep now)
        (of (front ++ junk ++ rest), front.length) =
      some (of (front ++ rest.filter (fresh now ·.2) ++ junk'),
        (front ++ rest.filter (fresh now ·.2)).length) := by
  induction rest generalizing front junk with
  | nil => exact ⟨junk, by simp⟩
  | cons x rest ih =>
    have hx : (front ++ junk ++ x :: rest)[front.length + junk.length]? = some x := by
      rw [← length_append, getElem?_append_right (Nat.le_refl _), Nat.sub_self]
      rfl
    have hstep : purgeStep now (of (front ++ junk ++ x :: rest), front.length)
        (front.length + junk.length) = some (if fresh now x.2 then
          (of (front ++ [x] ++ (junk ++ [x]).tail ++ rest), front.length + 1)
        else (of (front ++ (junk ++ [x]) ++ rest), front.length)) := by
      simp only [purgeStep, of, getElem?_map, hx, Option.map_some, Option.bind_eq_bind,
        Option.bind_some]
      rcases junk with _ | ⟨y, junk⟩ <;> by_cases h : fresh now x.2 = true <;> simp [h]
    rw [length_cons, range'_succ, foldlM_cons, hstep]
    by_cases h : fresh now x.2 = true
    · obtain ⟨junk', hloop⟩ := ih (front ++ [x]) (junk ++ [x]).tail
      exact ⟨junk', by simpa [h, Nat.add_right_comm] using hloop⟩
    · obtain ⟨junk', hloop⟩ := ih front (junk ++ [x])
      exact ⟨junk', by simpa [h, Nat.add_assoc] using hloop⟩

lemma purge_of (l : List (String × Option ℤ)) :
    (of l).purge now = some (of (l.filter (fresh now ·.2))) := by
  obtain ⟨junk, hloop⟩ := foldlM_purgeStep now l [] []
  have hlength : (of l).added.length = l.length := length_map ..
  simp only [nil_append, length_nil, Nat.add_zero] at hloop
  rw [purge, hlength, hloop]
  dsimp only [Option.bind_eq_bind, Option.bind_some]
  split_ifs with h
  · simp [of]
  · obtain rfl : junk = [] := by simpa [of] using h
    simp

/-- **The loop over the two slices keeps the keys that `keptKeys` keeps.** -/
theorem purge_previousKeys (j : JWTService) :
    (of j.previousKeys).purge now = some (of (j.keptKeys now)) :=
  purge_of now _

end KeyRing

open KeyRing

/-- The service at a time, with the keys that were registered since the last revocation. -/
structure KeyHistory where
  ring : KeyRing
  now : ℤ
  registered : List (String × Option ℤ)

/-- `NewJWTService` at a time. -/
def KeyHistory.start (secret : String) (previousSecrets : List String) (now : ℤ) : KeyHistory :=
  let previousKeys := (newJWTService secret previousSecrets).previousKeys
  ⟨.of previousKeys, now, previousKeys⟩

inductive KeyAction
  /-- `AddPreviousKey`, which reads the clock twice. -/
  | add (secret : String) (elapsed : ℕ)
  | revokeAll
  /-- A validation, by `allKeys`. -/
  | validate
  | advance (elapsed : ℕ)

def keyStep (s : KeyHistory) : KeyAction → Option KeyHistory
  | .add secret elapsed =>
    if secret = "" then some s
    else (KeyRing.mk (s.ring.keys ++ [secret]) (s.ring.added ++ [some s.now])).purge
      (s.now + elapsed) |>.map (⟨·, s.now + elapsed, s.registered ++ [(secret, some s.now)]⟩)
  | .revokeAll => some { s with ring := ⟨[], []⟩, registered := [] }
  | .validate => (s.ring.purge s.now).map (⟨·, s.now, s.registered⟩)
  | .advance elapsed => some { s with now := s.now + elapsed }

/-- The slices are what a purge has left of the registered keys, which all have times. -/
structure KeyHistory.Paired (s : KeyHistory) : Prop where
  ring : ∃ t ≤ s.now, s.ring = .of (s.registered.filter (fresh t ·.2))
  timed : ∀ x ∈ s.registered, x.2 ≠ none

lemma filter_fresh {t now : ℤ} (h : t ≤ now) (l : List (String × Option ℤ)) :
    (l.filter (fresh t ·.2)).filter (fresh now ·.2) = l.filter (fresh now ·.2) := by
  rw [filter_filter]
  refine filter_congr fun x _ => ?_
  rcases hx : x.2 with _ | added <;> simp [fresh]
  omega

variable {s : KeyHistory}

lemma KeyHistory.Paired.purge (h : s.Paired) :
    s.ring.purge s.now = some (.of (s.registered.filter (fresh s.now ·.2))) := by
  obtain ⟨t, ht, hring⟩ := h.ring
  rw [hring, purge_of, filter_fresh ht]

lemma KeyHistory.Paired.step (h : s.Paired) (a : KeyAction) :
    ∃ s', keyStep s a = some s' ∧ s'.Paired := by
  obtain ⟨⟨t, ht, hring⟩, htimed⟩ := id h
  match a with
  | .add secret elapsed =>
    rw [keyStep]
    split_ifs
    · exact ⟨s, rfl, ⟨t, ht, hring⟩, htimed⟩
    have hadd : KeyRing.mk (s.ring.keys ++ [secret]) (s.ring.added ++ [some s.now]) =
        .of (s.registered.filter (fresh t ·.2) ++ [(secret, some s.now)]) := by
      simp [hring, KeyRing.of]
    refine ⟨_, by rw [hadd, purge_of]; rfl, ⟨s.now + elapsed, Int.le_refl _, ?_⟩, ?_⟩
    · rw [filter_append, filter_append, filter_fresh (by omega)]
    · exact forall_mem_append.mpr ⟨htimed, by simp⟩
  | .revokeAll => exact ⟨_, rfl, ⟨t, ht, rfl⟩, fun _ h => nomatch h⟩
  | .validate =>
    rw [keyStep, h.purge]
    exact ⟨_, rfl, ⟨s.now, Int.le_refl _, rfl⟩, htimed⟩
  | .advance elapsed => exact ⟨_, rfl, ⟨t, by dsimp only; omega, hring⟩, htimed⟩

/-- **The previous keys along every history**, when none comes from the configuration: the slices stay
paired, and a key is accepted exactly within its grace period. -/
theorem previousKeys_paired (secret : String) (previousSecrets : List String) (t : ℤ)
    (hnone : ∀ s ∈ previousSecrets, s = "") (as : List KeyAction) :
    ∃ s, run keyStep (.start secret previousSecrets t) as = some s ∧
      (∃ l, List.Sublist l s.registered ∧ s.ring.keys = l.map Prod.fst ∧ s.ring.added = l.map Prod.snd) ∧
      ∃ ring, s.ring.purge s.now = some ring ∧
        (∀ key added, (key, some added) ∈ s.registered → s.now < added + RotationGracePeriod →
          key ∈ ring.keys) ∧
        ∀ key ∈ ring.keys, ∃ added, (key, some added) ∈ s.registered ∧
          s.now ≤ added + RotationGracePeriod := by
  obtain ⟨s, hrun, hs⟩ :
      ∃ s, run keyStep (.start secret previousSecrets t) as = some s ∧ s.Paired := by
    induction as using reverseRecOn with
    | nil =>
      have hempty : previousSecrets.filter (· ≠ "") = [] :=
        filter_eq_nil_iff.mpr fun s hs => by simp [hnone s hs]
      rw [KeyHistory.start, newJWTService, hempty]
      exact ⟨_, rfl, ⟨t, Int.le_refl t, rfl⟩, nofun⟩
    | append_singleton as a ih =>
      obtain ⟨s, hrun, hs⟩ := ih
      obtain ⟨s', hstep, hs'⟩ := hs.step a
      exact ⟨s', run_snoc.mpr ⟨s, hrun, hstep⟩, hs'⟩
  obtain ⟨t, -, hring⟩ := hs.ring
  refine ⟨s, hrun, ⟨_, filter_sublist, by rw [hring]; rfl, by rw [hring]; rfl⟩, _, hs.purge,
    fun key added hmem hnow => ?_, fun key hkey => ?_⟩
  · refine mem_map_of_mem (mem_filter.mpr ⟨hmem, ?_⟩)
    simp only [fresh, Option.all_some, decide_eq_true_eq]
    omega
  obtain ⟨⟨key, added⟩, hmem, rfl⟩ := mem_map.mp hkey
  obtain ⟨hmem, hfresh⟩ := mem_filter.mp hmem
  cases added with
  | none => exact absurd rfl (hs.timed _ hmem)
  | some added =>
    simp only [fresh, Option.all_some, decide_eq_true_eq] at hfresh
    exact ⟨added, hmem, by omega⟩

theorem previousKeys_paired_rotated :
    ∃ s, run keyStep (.start "0123456789abcdef0123456789abcdef" [""] 0)
        [.add "old" 1, .advance 5, .validate] = some s ∧
      ∃ ring, s.ring.purge s.now = some ring ∧ ∀ key ∈ ring.keys, ∃ added,
        (key, some added) ∈ s.registered ∧ s.now ≤ added + RotationGracePeriod := by
  obtain ⟨s, hrun, -, ring, hring, -, hkeys⟩ := previousKeys_paired _ [""] 0 (by decide) _
  exact ⟨s, hrun, ring, hring, hkeys⟩

/-- A key from the configuration is accepted after an hour. -/
theorem configured_key_kept :
    ∃ s, run keyStep (.start "0123456789abcdef0123456789abcdef" ["leaked"] 0)
        [.advance 3600000000000, .validate] = some s ∧
      s.ring.keys = ["leaked"] ∧ 0 + RotationGracePeriod < s.now :=
  by decide

end DeployMonster.Auth
