import DeployMonster.Handlers.Auth

/-!
# Single use of a refresh token

`Refresh` looks a token up among the revoked ones, queries the user and the membership, and only
then revokes the token.
-/

namespace DeployMonster.Handlers

open Function Pool

open DeployMonster.Clock DeployMonster.Auth DeployMonster.DB Program StepMachine List Option

inductive AuthRequest
  | refresh (req : TokenRequest)
  | logout (req : TokenRequest)

def AuthRequest.prog (h : AuthHandler) : AuthRequest → Auth Response
  | refresh req => Handlers.refresh h req
  | logout req => Handlers.logout h req

def AuthRequest.refreshes (token : Token RefreshClaims) : AuthRequest → Bool
  | refresh req => req.token? = some token
  | logout _ => false

/-- The clock and the store, and the requests with what is left of each. -/
abbrev AuthState := AuthWorld × List (Auth Response)

def AuthCall.rotating : AuthCall → Bool
  | .getUser _ | .getUserMembership _ | .kvSet _ _ _ _ => true
  | _ => false

def AuthCall.isLookup : AuthCall → Bool
  | .kvGet _ _ => true
  | _ => false

def AuthCall.isWrite : AuthCall → Bool
  | .kvSet _ _ _ _ => true
  | _ => false

/-- No refresh of the token but the request `i` is between its lookup and its write. -/
def NoneRotating (requests : List AuthRequest) (token : Token RefreshClaims) (s : AuthState)
    (i : ℕ) : Prop :=
  ∀ j < requests.length, j ≠ i → ∀ req ∈ requests[j]?, req.refreshes token = true →
    ∀ p ∈ s.2[j]?, p.next?.any AuthCall.rotating = false

instance (requests : List AuthRequest) (token : Token RefreshClaims) (s : AuthState) (i : ℕ) :
    Decidable (NoneRotating requests token s i) :=
  inferInstanceAs (Decidable (∀ j < requests.length, _))

/-- A refresh of the token looks it up while no other one is about to revoke it and before the token
expires, and neither its lookup nor its write fails. -/
def Serialized (requests : List AuthRequest) (token : Token RefreshClaims) (s : AuthState)
    (a : ℕ × AuthChoice) : Prop :=
  ∀ req ∈ requests[a.1]?, req.refreshes token = true → ∀ p ∈ s.2[a.1]?,
    (p.next?.any AuthCall.isLookup = true → a.2.fails = none ∧
      unix (s.1.now + a.2.elapsed) < token.claims.expiresAt ∧
      NoneRotating requests token s a.1) ∧
    (p.next?.any AuthCall.isWrite = true → a.2.fails = none)

instance (requests : List AuthRequest) (token : Token RefreshClaims) (s : AuthState)
    (a : ℕ × AuthChoice) : Decidable (Serialized requests token s a) :=
  inferInstanceAs (Decidable (∀ req ∈ requests[a.1]?, _))

/-- The token is revoked for as long as it is valid. -/
def Blocked (token : Token RefreshClaims) (w : AuthWorld) : Prop :=
  ∃ entry, w.kv "revoked_tokens" token.claims.id = some entry ∧ entry.data = true ∧
    token.claims.expiresAt ≤ entry.expiresAt

/-- The calls that never lift a revocation of a refresh token. -/
def SafeCall : AuthCall → Prop
  | .kvSet _ _ value ttlSeconds => value = true ∧ ttlSeconds = RefreshTokenTTLSeconds
  | _ => True

def IssueCall : AuthCall → Prop
  | .generateTokenPair _ _ _ _ _ | .trackSession _ _ => True
  | _ => False

variable {token : Token RefreshClaims} {w w' : AuthWorld}

lemma Blocked.get (hb : Blocked token w) {now : ℤ} (hnow : now < token.claims.expiresAt) :
    w.kv.get now "revoked_tokens" token.claims.id = .ok true := by
  obtain ⟨entry, hentry, hdata, hexp⟩ := hb
  simp only [KVStore.get, hentry, hdata]
  rw [if_neg]
  rintro ⟨-, hge⟩
  omega

variable (hexp : token.claims.expiresAt ≤ unix w.now + RefreshTokenTTLSeconds)
include hexp

variable (jti : String)

lemma blocked_set
    (hb : jti = token.claims.id ∨ Blocked token w) : Blocked token (w.revoke jti) := by
  rcases eq_or_ne jti token.claims.id with rfl | hne
  · exact ⟨_, KVStore.set_self .., rfl, by simpa [RefreshTokenTTLSeconds] using hexp⟩
  · obtain ⟨entry, hentry, hdata, hle⟩ := hb.resolve_left hne
    exact ⟨entry, (KVStore.set_of_ne _ _ _ _ (.inr hne.symm)).trans hentry, hdata, hle⟩

lemma blocked_foldl_revoke
    (jtis : List String) (hb : Blocked token w) : Blocked token (jtis.foldl AuthWorld.revoke w) := by
  induction jtis generalizing w with
  | nil => exact hb
  | cons jti jtis ih => exact ih (w := w.revoke jti) hexp (blocked_set hexp jti (.inr hb))

omit hexp

variable {c : AuthCall} {r : AuthAnswer c}

lemma Blocked.exec (hb : Blocked token w)
    (hexp : token.claims.expiresAt ≤ unix w.now + RefreshTokenTTLSeconds)
    (hc : SafeCall c) {o : AuthChoice} (h : authExec c w o = some (r, w')) : Blocked token w' := by
  have hexp : token.claims.expiresAt ≤ unix (w.wait o.elapsed).now + RefreshTokenTTLSeconds := by
    have hwait : unix w.now ≤ unix (w.wait o.elapsed).now :=
      unix_mono (Int.le_add_of_nonneg_right (Int.natCast_nonneg _))
    omega
  have hb : Blocked token (w.wait o.elapsed) := hb
  cases c with
  | now | kvGet | getUser | getUserMembership =>
    cases h
    exact hb
  | kvSet bucket key value ttlSeconds =>
    obtain ⟨rfl, rfl⟩ := hc
    simp only [authExec] at h
    split at h
    · cases h
      exact hb
    cases h
    rcases eq_or_ne bucket "revoked_tokens" with rfl | hne
    · exact blocked_set hexp key (.inr hb)
    · obtain ⟨entry, hentry, hdata, hle⟩ := hb
      exact ⟨entry, (KVStore.set_of_ne _ _ _ _ (.inl hne.symm)).trans hentry, hdata, hle⟩
  | generateTokenPair jwt userID tenantID roleID email =>
    obtain ⟨-, h⟩ := ite_none_left_eq_some.mp h
    cases h
    exact hb
  | trackSession userID tokens =>
    cases h
    exact blocked_foldl_revoke hexp _ hb

/-! ## The calls of one refresh -/

/-- How far a refresh of the token has come: not beyond its lookup, between its lookup and its
write, beyond its write, or refused. -/
inductive Stage
  | waiting | checked | rotated | refused

inductive At (h : AuthHandler) (token : Token RefreshClaims) : Stage → Auth Response → Prop
  | start (req : TokenRequest) (hreq : req.token? = some token) : At h token .waiting (refresh h req)
  | lookup : At h token .waiting (refreshValid h token.claims.given)
  | user : At h token .checked (rotate h token.claims.given)
  | membership (user : User) : At h token .checked (rotateFor h token.claims.given user)
  | revoke (user : User) (membership : Membership) : At h token .checked do
      revokeToken h token.claims.id
      issueTokens h user membership
  | issue {p : Auth Response} (hp : AllCalls IssueCall p) : At h token .rotated p
  | refused (resp : Response) (hresp : resp.tokens? = none) : At h token .refused (.ret resp)

inductive Moves (token : Token RefreshClaims) (c : AuthCall) (w w' : AuthWorld) :
    Stage → Stage → Prop
  | stay (stage : Stage) : Moves token c w w' stage stage
  | refuse (stage : Stage) : Moves token c w w' stage .refused
  | check (hc : c.isLookup = true) (hw : ¬ Blocked token w) : Moves token c w w' .waiting .checked
  | rotate (hw : Blocked token w') : Moves token c w w' .checked .rotated

variable {h : AuthHandler}

lemma allCalls_issueTokens (user : User) (membership : Membership) :
    AllCalls IssueCall (issueTokens h user membership) := by
  refine ⟨trivial, ?_⟩
  rintro (e | tokens)
  · trivial
  · cases h.kv with
    | false => trivial
    | true => exact ⟨trivial, fun _ => trivial⟩

variable {k : AuthAnswer c → Auth Response}

/-- One call of a refresh of the token: it passes its lookup only when the token is not revoked, and
its write revokes the token. -/
lemma At.step (hkv : h.kv = true) (hid : token.claims.id ≠ "")
    (hexp : token.claims.expiresAt ≤ unix w.now + RefreshTokenTTLSeconds)
    {stage : Stage} {p : Auth Response} (hat : At h token stage p)
    (hp : p = .call c k) {o : AuthChoice} (hexec : authExec c w o = some (r, w'))
    (hlookup : c.isLookup = true →
      o.fails = none ∧ unix (w.now + o.elapsed) < token.claims.expiresAt)
    (hwrite : c.isWrite = true → o.fails = none) :
    ∃ stage', Moves token c w w' stage stage' ∧ At h token stage' (k r) := by
  cases hat with
  | start req hreq =>
    rw [refresh_of_token hreq] at hp
    cases hp
    dsimp only
    split
    case h_1 => exact ⟨.refused, .refuse _, .refused _ rfl⟩
    case h_2 rtClaims hvalid =>
      obtain rfl : rtClaims = token.claims.given := (validateRefreshToken_ok hvalid).1
      exact ⟨.waiting, .stay _, .lookup⟩
  | lookup =>
    rw [refreshValid_eq hkv hid] at hp
    cases hp
    obtain ⟨hfails, hnow : unix (w.wait o.elapsed).now < _⟩ := hlookup rfl
    simp only [authExec, hfails, isSome_none, Bool.false_eq_true, if_false] at hexec
    cases hexec
    by_cases hb : Blocked token w
    · have hget : (w.wait o.elapsed).kv.get _ _ token.claims.given.jti = .ok true := hb.get hnow
      rw [hget]
      exact ⟨.refused, .refuse _, .refused _ rfl⟩
    · dsimp only
      split
      · exact ⟨.refused, .refuse _, .refused _ rfl⟩
      · exact ⟨.checked, .check rfl hb, .user⟩
  | user =>
    cases hp
    rcases r with e | user
    · exact ⟨.refused, .refuse _, .refused _ rfl⟩
    · exact ⟨.checked, .stay _, .membership _⟩
  | membership user =>
    cases hp
    rcases r with e | membership
    · exact ⟨.refused, .refuse _, .refused _ rfl⟩
    · exact ⟨.checked, .stay _, .revoke user _⟩
  | revoke user membership =>
    rw [revokeToken_bind hkv hid] at hp
    cases hp
    simp only [authExec, hwrite rfl, isSome_none, Bool.false_eq_true, if_false] at hexec
    cases hexec
    have hwait : unix w.now ≤ unix (w.wait o.elapsed).now :=
      unix_mono (Int.le_add_of_nonneg_right (Int.natCast_nonneg _))
    have hb : Blocked token ((w.wait o.elapsed).revoke token.claims.id) :=
      blocked_set (by omega) _ (.inl rfl)
    exact ⟨.rotated, .rotate hb, .issue (allCalls_issueTokens user membership)⟩
  | issue hcalls =>
    subst hp
    exact ⟨.rotated, .stay _, .issue (hcalls.2 r)⟩
  | refused => cases hp

lemma At.rotating (hkv : h.kv = true) (hid : token.claims.id ≠ "") {p : Auth Response}
    (hat : At h token .checked p) : p.next?.any AuthCall.rotating = true := by
  cases hat with
  | user | membership => rfl
  | revoke user membership =>
    rw [revokeToken_bind hkv hid]
    rfl

lemma At.rotated_of_tokens (hkv : h.kv = true) (hid : token.claims.id ≠ "") {stage : Stage}
    {resp : Response} (hat : At h token stage (.ret resp)) (hresp : resp.tokens?.isSome) :
    stage = .rotated := by
  generalize hp : (Prog.ret resp : Auth Response) = p at hat
  cases hat with
  | start req hreq =>
    rw [refresh_of_token hreq] at hp
    cases hp
  | lookup =>
    rw [refreshValid_eq hkv hid] at hp
    cases hp
  | user | membership => cases hp
  | revoke user membership =>
    rw [revokeToken_bind hkv hid] at hp
    cases hp
  | issue => rfl
  | refused resp' hresp' =>
    cases hp
    rw [hresp'] at hresp
    cases hresp

/-! ## The requests together -/

def Stage.entered : Stage → Bool
  | checked | rotated => true
  | waiting | refused => false

/-- The request `i` has returned a token pair. -/
def AuthState.granted (s : AuthState) (i : ℕ) : Prop :=
  ∃ p ∈ s.2[i]?, ∃ resp ∈ p.result?, resp.tokens?.isSome = true
  deriving Decidable

/-- The requests of the token with the stage that each has come to: at most one has passed its
lookup, and the token is revoked as soon as one is beyond its write. -/
structure Rotating (h : AuthHandler) (requests : List AuthRequest) (token : Token RefreshClaims)
    (stage : ℕ → Stage) (s : AuthState) : Prop where
  safe : ∀ p ∈ s.2, AllCalls SafeCall p
  lifetime : token.claims.expiresAt ≤ unix s.1.now + RefreshTokenTTLSeconds
  at_stage : ∀ i req p, requests[i]? = some req → req.refreshes token = true → s.2[i]? = some p →
    At h token (stage i) p
  present : ∀ i, (stage i).entered = true →
    (∃ req, requests[i]? = some req ∧ req.refreshes token = true) ∧ ∃ p, s.2[i]? = some p
  alone : ∀ i j, (stage i).entered = true → (stage j).entered = true → i = j
  blocked : ∀ i, stage i = .rotated → Blocked token s.1

variable {requests : List AuthRequest} {stage : ℕ → Stage} {s s' : AuthState} {a : ℕ × AuthChoice}

lemma Rotating.frame (hr : Rotating h requests token stage s) (hi : s.2[a.1]? = some (.call c k))
    (hexec : authExec c s.1 a.2 = some (r, s'.1)) (hs' : s'.2 = s.2.set a.1 (k r)) :
    (∀ p ∈ s'.2, AllCalls SafeCall p) ∧
      token.claims.expiresAt ≤ unix s'.1.now + RefreshTokenTTLSeconds ∧
      (Blocked token s.1 → Blocked token s'.1) := by
  have hsafe : AllCalls SafeCall (.call c k) := hr.safe _ (mem_of_getElem? hi)
  have hlifetime := hr.lifetime
  have hnow : unix s.1.now ≤ unix s'.1.now := unix_mono (now_le_of_authExec hexec)
  refine ⟨?_, by omega, fun hb => hb.exec hlifetime hsafe.1 hexec⟩
  rw [hs']
  exact forall_set hr.safe (hsafe.2 r)

lemma Rotating.not_entered (hkv : h.kv = true) (hid : token.claims.id ≠ "")
    (hr : Rotating h requests token stage s) {i j : ℕ} (hnone : NoneRotating requests token s i)
    (hw : ¬ Blocked token s.1) (hne : j ≠ i) : (stage j).entered = false := by
  cases hj : stage j with
  | waiting | refused => rfl
  | rotated => exact absurd (hr.blocked j hj) hw
  | checked =>
    obtain ⟨⟨req, hreq, href⟩, p, hp⟩ := hr.present j (by rw [hj]; rfl)
    have hat := hr.at_stage j req p hreq href hp
    rw [hj] at hat
    have hlt : j < requests.length := (List.getElem?_eq_some_iff.mp hreq).1
    exact absurd (hat.rotating hkv hid) (by simp [hnone j hlt hne req hreq href p hp])

lemma rotating_step_of_refreshes (hkv : h.kv = true) (hid : token.claims.id ≠ "")
    (hr : Rotating h requests token stage s) {req : AuthRequest} (hreq : requests[a.1]? = some req)
    (href : req.refreshes token = true) (hG : Serialized requests token s a)
    (hstep : poolStep authExec s a = some s') : ∃ stage', Rotating h requests token stage' s' := by
  obtain ⟨c, k, r, hi, hexec, hs'⟩ := poolStep_eq_some hstep
  obtain ⟨hlookup, hwrite⟩ := hG req hreq href _ hi
  obtain ⟨hsafe, hlifetime, hblocked⟩ := hr.frame hi hexec hs'
  obtain ⟨st, hmoves, hat⟩ := (hr.at_stage _ _ _ hreq href hi).step hkv hid hr.lifetime rfl hexec
    (fun hc => ⟨(hlookup hc).1, (hlookup hc).2.1⟩) hwrite
  have hothers : st.entered = true → ∀ j, j ≠ a.1 → (stage j).entered = false := by
    intro hst j hne
    generalize hi' : stage a.1 = st0 at hmoves
    cases hmoves with
    | refuse => cases hst
    | check hc hw => exact hr.not_entered hkv hid (hlookup hc).2.2 hw hne
    | stay | rotate =>
      exact Bool.eq_false_iff.mpr fun hj => hne (hr.alone j a.1 hj (by rw [hi']; trivial))
  refine ⟨update stage a.1 st, hsafe, hlifetime, ?_, ?_, ?_, ?_⟩
  case refine_1 =>
    intro i req' p hreq' href' hp
    rw [hs'] at hp
    rcases getElem?_set hp with ⟨rfl, rfl⟩ | ⟨hne, hp⟩
    · rw [update_self]
      exact hat
    · rw [update_of_ne hne]
      exact hr.at_stage i req' p hreq' href' hp
  case refine_2 =>
    intro i hent
    rcases eq_or_ne i a.1 with rfl | hne
    · exact ⟨⟨req, hreq, href⟩, k r, by rw [hs', getElem?_set_self hi]⟩
    · rw [update_of_ne hne] at hent
      rw [hs', getElem?_set_ne hne.symm]
      exact hr.present i hent
  case refine_3 =>
    intro i j hi' hj'
    rcases eq_or_ne i a.1 with rfl | hni <;> rcases eq_or_ne j a.1 with rfl | hnj
    · rfl
    · rw [update_self] at hi'
      rw [update_of_ne hnj, hothers hi' j hnj] at hj'
      cases hj'
    · rw [update_self] at hj'
      rw [update_of_ne hni, hothers hj' i hni] at hi'
      cases hi'
    · rw [update_of_ne hni] at hi'
      rw [update_of_ne hnj] at hj'
      exact hr.alone i j hi' hj'
  case refine_4 =>
    intro i hrot
    rcases eq_or_ne i a.1 with rfl | hne
    · rw [update_self] at hrot
      subst hrot
      generalize hi' : stage a.1 = st0 at hmoves
      cases hmoves with
      | stay => exact hblocked (hr.blocked a.1 hi')
      | rotate hw => exact hw
    · rw [update_of_ne hne] at hrot
      exact hblocked (hr.blocked i hrot)

lemma rotating_step_of_not_refreshes (hr : Rotating h requests token stage s)
    (hreq : ∀ req, requests[a.1]? = some req → req.refreshes token = false)
    (hstep : poolStep authExec s a = some s') : Rotating h requests token stage s' := by
  obtain ⟨c, k, r, hi, hexec, hs'⟩ := poolStep_eq_some hstep
  obtain ⟨hsafe, hlifetime, hblocked⟩ := hr.frame hi hexec hs'
  refine ⟨hsafe, hlifetime, ?_, ?_, hr.alone, fun i hrot => hblocked (hr.blocked i hrot)⟩
  · intro i req p hreq' href hp
    rw [hs'] at hp
    rcases getElem?_set hp with ⟨rfl, rfl⟩ | ⟨-, hp⟩
    · exact absurd href (by simp [hreq req hreq'])
    · exact hr.at_stage i req p hreq' href hp
  · intro i hent
    obtain ⟨⟨req, hreq', href⟩, p, hp⟩ := hr.present i hent
    have hne : i ≠ a.1 := by
      rintro rfl
      exact absurd href (by simp [hreq req hreq'])
    exact ⟨⟨req, hreq', href⟩, p, by rw [hs', getElem?_set_of_ne hne _ hp]⟩

lemma rotating_step (hkv : h.kv = true) (hid : token.claims.id ≠ "")
    (hr : ∃ stage, Rotating h requests token stage s) (hG : Serialized requests token s a)
    (hstep : poolStep authExec s a = some s') : ∃ stage, Rotating h requests token stage s' := by
  obtain ⟨stage, hr⟩ := hr
  by_cases href : ∃ req, requests[a.1]? = some req ∧ req.refreshes token = true
  · obtain ⟨req, hreq, href⟩ := href
    exact rotating_step_of_refreshes hkv hid hr hreq href hG hstep
  · refine ⟨stage, rotating_step_of_not_refreshes hr ?_ hstep⟩
    intro req hreq
    exact Bool.eq_false_iff.mpr fun hf => href ⟨req, hreq, hf⟩

lemma allCalls_revokeToken : AllCalls SafeCall (revokeToken h jti) := by
  unfold revokeToken
  split
  · exact ⟨⟨rfl, rfl⟩, fun _ => trivial⟩
  · trivial

lemma allCalls_tokenRevoked : AllCalls SafeCall (tokenRevoked h jti) := by
  unfold tokenRevoked
  split
  · refine ⟨trivial, ?_⟩
    rintro (e | revoked) <;> trivial
  · trivial

lemma allCalls_rotate (rtClaims : RefreshTokenClaims) :
    AllCalls SafeCall (rotate h rtClaims) := by
  refine ⟨trivial, ?_⟩
  rintro (e | user)
  · trivial
  refine ⟨trivial, ?_⟩
  rintro (e | membership)
  · trivial
  refine (allCalls_revokeToken rtClaims.jti).bind fun _ => ?_
  refine (allCalls_issueTokens user membership).mono fun c hc => ?_
  cases c with
  | kvSet => exact hc.elim
  | _ => trivial

lemma allCalls_prog (req : AuthRequest) : AllCalls SafeCall (req.prog h) := by
  rcases req with ⟨body, cookie⟩ | ⟨body, cookie⟩
  case refresh =>
    simp only [AuthRequest.prog, refresh]
    split
    · trivial
    split
    · trivial
    refine ⟨trivial, fun now => ?_⟩
    simp only [Prog.bind]
    split
    · trivial
    refine (allCalls_tokenRevoked _).bind fun revoked => ?_
    cases revoked with
    | true => trivial
    | false => exact allCalls_rotate _
  case logout =>
    simp only [AuthRequest.prog, logout]
    split
    · trivial
    split
    · trivial
    refine ⟨trivial, fun now => ?_⟩
    simp only [Prog.bind]
    split
    · trivial
    exact (allCalls_revokeToken _).bind fun _ => trivial

lemma rotating_init (hexp : token.claims.expiresAt ≤ unix w.now + RefreshTokenTTLSeconds) :
    Rotating h requests token (fun _ => .waiting) (w, requests.map (·.prog h)) where
  safe :=
    forall_mem_map.mpr fun req _ => allCalls_prog req
  lifetime := hexp
  at_stage := by
    intro i req p hreq href hp
    rw [getElem?_map, hreq] at hp
    cases hp
    cases req with
    | refresh req => exact .start req (of_decide_eq_true href)
    | logout req => cases href
  present := nofun
  alone := nofun
  blocked := nofun

lemma Rotating.entered_of_granted (hkv : h.kv = true) (hid : token.claims.id ≠ "")
    (hr : Rotating h requests token stage s) {i : ℕ} {req : AuthRequest}
    (hi : requests[i]? = some req) (href : req.refreshes token = true) (hgranted : s.granted i) :
    (stage i).entered = true := by
  obtain ⟨p, hp, resp, hresp, htokens⟩ := hgranted
  obtain rfl := Prog.result?_eq_some hresp
  rw [(hr.at_stage i req _ hi href hp).rotated_of_tokens hkv hid htokens]
  rfl

/-- **A refresh token is used once when its lookups are serialized**: when each refresh looks it up
while no other one is between its lookup and its write, and these operations do not fail, at most
one request gets a token pair. -/
theorem refresh_singleUse (h : AuthHandler) (hkv : h.kv = true) (j : JWTService)
    (hexpiry : j.refreshExpiry = 7 * day) (issued : ℤ) (accessID refreshID : String)
    (hid : refreshID ≠ "") (userID tenantID roleID email : String) (token : Token RefreshClaims)
    (htoken : token =
      (j.generateTokenPair issued accessID refreshID userID tenantID roleID email).refreshToken)
    (w : AuthWorld) (hissued : issued ≤ w.now) (requests : List AuthRequest)
    (as : List (ℕ × AuthChoice)) (s : AuthState)
    (hrun : run (poolStep authExec) (w, requests.map (·.prog h)) as = some s)
    (hG : Along (poolStep authExec) (Serialized requests token) (w, requests.map (·.prog h)) as)
    {i k : ℕ} {req req' : AuthRequest} (hi : requests[i]? = some req)
    (hk : requests[k]? = some req') (href : req.refreshes token = true)
    (href' : req'.refreshes token = true) (hgi : s.granted i) (hgk : s.granted k) : i = k := by
  subst htoken
  have hexp : unix (issued + j.refreshExpiry) ≤ unix w.now + RefreshTokenTTLSeconds := by
    have hmono : unix issued ≤ unix w.now := unix_mono hissued
    have hadd : unix (issued + 7 * day) = unix issued + RefreshTokenTTLSeconds :=
      unix_add issued RefreshTokenTTLSeconds
    rw [hexpiry, hadd]
    omega
  obtain ⟨stage, hr⟩ := invariant_of_along (fun _ _ _ hr hG hstep => rotating_step hkv hid hr hG hstep)
    ⟨_, rotating_init hexp⟩ hG hrun
  exact hr.alone i k (hr.entered_of_granted hkv hid hi href hgi)
    (hr.entered_of_granted hkv hid hk href' hgk)

/-- A service, the token of a login at the time 0, and a request that presents it. -/
def webService : JWTService := newJWTService "an-active-signing-key-of-32-bytes" []

def loginToken : Token RefreshClaims :=
  (webService.generateTokenPair 0 "a0" "r0" "u1" "t1" "owner" "dev@example.com").refreshToken

def loginRequest : AuthRequest := .refresh ⟨.ok (some loginToken), none⟩

/-- The choices of a refresh that goes through, a second for each call. -/
def refreshCalls (i : ℕ) (refreshID : String) : List (ℕ × AuthChoice) :=
  [(i, { elapsed := 1000000000 }), (i, { elapsed := 1000000000 }),
    (i, { elapsed := 1000000000, email := "dev@example.com" }),
    (i, { elapsed := 1000000000, membership := ⟨"t1", "owner"⟩ }), (i, { elapsed := 1000000000 }),
    (i, { elapsed := 1000000000, accessID := "a", refreshID }), (i, { elapsed := 1000000000 })]

def twoRefreshes : AuthState :=
  (⟨second, fun _ _ => none⟩, [loginRequest, loginRequest].map (·.prog ⟨webService, true⟩))

/-- The second request has validated the token before the first one revokes it, and looks it up
afterwards. -/
def refreshesInTurn : List (ℕ × AuthChoice) :=
  (refreshCalls 1 "r2").take 1 ++ refreshCalls 0 "r1" ++ ((refreshCalls 1 "r2").drop 1).take 1

def refreshesTogether : List (ℕ × AuthChoice) :=
  (refreshCalls 0 "r1").take 2 ++ refreshCalls 1 "r2" ++ (refreshCalls 0 "r1").drop 2

theorem refresh_singleUse_refreshesInTurn :
    ∃ s, run (poolStep authExec) twoRefreshes refreshesInTurn = some s ∧
      AuthState.granted s 0 ∧ ¬ AuthState.granted s 1 ∧ ∀ k, k < 2 → AuthState.granted s k → 0 = k := by
  refine exists_of_run_imp (P := fun s => AuthState.granted s 0 ∧ ¬ AuthState.granted s 1) (by decide)
    fun s hrun ⟨hs0, hs1⟩ => ⟨hs0, hs1, fun k hk hgk => ?_⟩
  have hk' : [loginRequest, loginRequest][k]? = some loginRequest := by
    interval_cases k <;> rfl
  exact refresh_singleUse _ rfl _ rfl 0 _ _ (by decide) _ _ _ _ loginToken rfl _ (by decide) _ _ s
    hrun (by decide) rfl hk' (by decide) (by decide) hs0 hgk

/-- **A refresh token is used twice** when two requests both look it up before either revokes it. -/
theorem refresh_usedTwice :
    ∃ s, run (poolStep authExec) twoRefreshes refreshesTogether = some s ∧
      AuthState.granted s 0 ∧ AuthState.granted s 1 := by decide

end DeployMonster.Handlers
