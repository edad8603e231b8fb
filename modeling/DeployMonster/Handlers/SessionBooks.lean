import DeployMonster.Handlers.Accounts

/-!
# The books on refresh tokens

`Login` and `Refresh` note every refresh token they issue in the bucket `user_sessions`. Each
handler keeps these books when the key-value store does not fail and requests do not overlap.
-/

namespace DeployMonster.Handlers.Accounts

open Clock DeployMonster.Auth DB Program List Option Prog

def sessionExec : (c : AccountCall) → AccountWorld → AccountChoice →
    Option (AccountAnswer c × AccountWorld) :=
  restrict (fun o => !o.kvFails) accountExec

/-! ## What a call does -/

/-- What a call may do to the key-value store at the time `now`. -/
inductive KVEffect (now : ℤ) (kv : KVTable AuthValue) : AccountCall → KVTable AuthValue → Prop
  | unchanged (c : AccountCall) : KVEffect now kv c kv
  | set (bucket key : String) (value : AuthValue) (ttlSeconds : ℤ) :
    KVEffect now kv (.kvSet bucket key value ttlSeconds)
      (kv.set (unix now) bucket key value ttlSeconds)
  | delete {bucket key : String} {kv' : KVTable AuthValue} (h : kv.delete bucket key = .ok kv') :
    KVEffect now kv (.kvDelete bucket key) kv'

variable {w w' : AccountWorld} {o : AccountChoice} {α : Type}

lemma write_kv {a : α} {db : Option Accounts} {r : Except StoreError α}
    (h : write o w a db = (r, w')) : w'.now = w.now ∧ w'.kv = w.kv := by
  unfold write at h
  split at h
  all_goals
    cases h
    exact ⟨rfl, rfl⟩

/-- Time passes, and only writes and deletions change the store. -/
lemma effect_of_perform {c : AccountCall} {r : AccountAnswer c}
    (h : perform c w o = some (r, w')) : w'.now = w.now ∧ KVEffect w.now w.kv c w'.kv := by
  cases c with
  | updatePassword | createUserWithMembership | acceptInvite =>
    obtain ⟨hnow, hkv⟩ := write_kv (some.inj h)
    exact ⟨hnow, hkv ▸ .unchanged _⟩
  | generateTokenPair =>
    obtain ⟨-, h⟩ := ite_none_right_eq_some.mp h
    cases h
    exact ⟨rfl, .unchanged _⟩
  | kvSet bucket key value ttlSeconds =>
    simp only [perform] at h
    split at h
    · cases h
      exact ⟨rfl, .unchanged _⟩
    · cases h
      exact ⟨rfl, .set ..⟩
  | kvDelete bucket key =>
    simp only [perform] at h
    split at h
    · cases h
      exact ⟨rfl, .unchanged _⟩
    split at h
    · cases h
      exact ⟨rfl, .unchanged _⟩
    case h_2 hdelete =>
      cases h
      exact ⟨rfl, .delete hdelete⟩
  | kvList bucket =>
    simp only [perform] at h
    split at h
    · cases h
      exact ⟨rfl, .unchanged _⟩
    split at h
    · obtain ⟨-, h⟩ := ite_none_right_eq_some.mp h
      cases h
      exact ⟨rfl, .unchanged _⟩
    · cases h
      exact ⟨rfl, .unchanged _⟩
  | _ =>
    cases h
    exact ⟨rfl, .unchanged _⟩

lemma effect_of_exec {c : AccountCall} {r : AccountAnswer c}
    (h : sessionExec c w o = some (r, w')) :
    w'.now = w.now + o.elapsed ∧ KVEffect w'.now w.kv c w'.kv := by
  obtain ⟨hnow, heffect⟩ := effect_of_perform (restrict_eq_some h).2
  exact ⟨hnow, hnow ▸ heffect⟩

lemma now_le_of_exec {c : AccountCall} {r : AccountAnswer c}
    (h : sessionExec c w o = some (r, w')) : w.now ≤ w'.now := by
  have := (effect_of_exec h).1
  omega

variable {bucket key : String}

lemma kvGet_answer {r : Except KVError AuthValue}
    (h : sessionExec (.kvGet bucket key) w o = some (r, w')) :
    r = w'.kv.get (unix w'.now) bucket key ∧ w' = w.wait o.elapsed := by
  obtain ⟨hok, h⟩ := restrict_eq_some h
  cases h
  exact ⟨if_neg (by simpa using hok), rfl⟩

lemma kvSet_answer {value : AuthValue} {ttlSeconds : ℤ} {r : Except KVError Unit}
    (h : sessionExec (.kvSet bucket key value ttlSeconds) w o = some (r, w')) :
    r = .ok () ∧ w'.kv = w.kv.set (unix w'.now) bucket key value ttlSeconds := by
  obtain ⟨hok, h⟩ := restrict_eq_some h
  simp only [accountExec, perform] at h
  rw [if_neg (by simpa using hok)] at h
  cases h
  exact ⟨rfl, rfl⟩

lemma kvList_answer {r : Except KVError (List String)}
    (h : sessionExec (.kvList bucket) w o = some (r, w')) :
    w' = w.wait o.elapsed ∧
      match r with
      | .error _ => ∃ e, w'.kv.list (unix w'.now) bucket = .error e
      | .ok keys => ∃ keys', w'.kv.list (unix w'.now) bucket = .ok keys' ∧ keys.Perm keys' := by
  obtain ⟨hok, h⟩ := restrict_eq_some h
  simp only [accountExec, perform] at h
  rw [if_neg (by simpa using hok)] at h
  cases hlist : (w.wait o.elapsed).kv.list (unix (w.wait o.elapsed).now) bucket with
  | error e =>
    rw [hlist] at h
    cases h
    exact ⟨rfl, e, hlist⟩
  | ok keys =>
    rw [hlist] at h
    cases horder : o.order with
    | none =>
      rw [horder] at h
      cases h
      exact ⟨rfl, keys, hlist, .refl _⟩
    | some order =>
      rw [horder] at h
      obtain ⟨hperm, h⟩ := ite_none_right_eq_some.mp h
      cases h
      exact ⟨rfl, keys, hlist, hperm⟩

/-! ## Tokens in the store -/

/-- The token will not be accepted any more: it has expired, or it is revoked until it expires. -/
def Dead (w : AccountWorld) (c : RefreshClaims) : Prop :=
  c.expiresAt ≤ unix w.now ∨
    ∃ entry, w.kv.store "revoked_tokens" c.id = some entry ∧ entry.data = .revoked true ∧
      c.expiresAt ≤ entry.expiresAt

/-- The token is noted until it expires. -/
def Noted (w : AccountWorld) (c : RefreshClaims) : Prop :=
  ∃ entry, w.kv.store userSessionsBucket (sessionKey c.subject c.id) = some entry ∧
    c.expiresAt ≤ entry.expiresAt

/-- A token that was issued by now: how long it can be valid, and what its id is like. -/
structure Issued (w : AccountWorld) (c : RefreshClaims) : Prop where
  bound : c.expiresAt ≤ unix w.now + RefreshTokenTTLSeconds
  noColon : ':' ∉ c.id.toList
  nonempty : c.id ≠ ""

/-- The entries of the bucket are sessions, each under the key that `trackSession` gives it. -/
def Known (kv : KVTable AuthValue) : Prop :=
  ∀ key entry, kv.store userSessionsBucket key = some entry →
    ∃ info, entry.data = .session info ∧ key = sessionKey info.userID info.jti ∧
      ':' ∉ info.jti.toList

lemma sessionKey_inj {userID userID' jti jti' : String} (hjti : ':' ∉ jti.toList)
    (hjti' : ':' ∉ jti'.toList) (h : sessionKey userID jti = sessionKey userID' jti') :
    userID = userID' ∧ jti = jti' := by
  have hlist := congrArg String.toList h
  simp only [sessionKey, String.toList_append, append_assoc] at hlist
  obtain ⟨huser, hjtis⟩ := append_cons_inj hjti hjti' hlist
  exact ⟨String.toList_inj.mp huser, String.toList_inj.mp hjtis⟩

/-- The writes that keep the books: revocations are for as long as a token can be valid, and so are
sessions, under their keys. -/
def Tame : AccountCall → Prop
  | .kvSet bucket key value ttlSeconds =>
    (bucket = "revoked_tokens" → value = .revoked true ∧ ttlSeconds = RefreshTokenTTLSeconds) ∧
      (bucket = userSessionsBucket → ttlSeconds = RefreshTokenTTLSeconds ∧
        ∃ info, value = .session info ∧ key = sessionKey info.userID info.jti ∧
          ':' ∉ info.jti.toList)
  | .kvDelete _ _ => False
  | _ => True

variable (jti : String)

lemma tame_revoke :
    Tame (.kvSet "revoked_tokens" jti (.revoked true) RefreshTokenTTLSeconds) :=
  ⟨fun _ => ⟨rfl, rfl⟩, fun hbucket => absurd hbucket (by decide)⟩

lemma tame_session (info : SessionTrackingInfo) (hjti : ':' ∉ info.jti.toList) :
    Tame (.kvSet userSessionsBucket (sessionKey info.userID info.jti) (.session info)
      RefreshTokenTTLSeconds) :=
  ⟨fun hbucket => absurd hbucket (by decide), fun _ => ⟨rfl, info, rfl, rfl, hjti⟩⟩

lemma tame_other {value : AuthValue} {ttlSeconds : ℤ}
    (hrevoked : bucket ≠ "revoked_tokens") (hsessions : bucket ≠ userSessionsBucket) :
    Tame (.kvSet bucket key value ttlSeconds) :=
  ⟨fun hbucket => absurd hbucket hrevoked, fun hbucket => absurd hbucket hsessions⟩

/-- The calls that `Login` and `Refresh` perform before they issue a token. -/
def Plain : AccountCall → Prop
  | .kvList _ | .generateTokenPair _ _ _ _ _ => False
  | c => Tame c

lemma tame_of_plain {c : AccountCall} (hc : Plain c) : Tame c := by
  cases c with
  | kvList | generateTokenPair => exact hc.elim
  | _ => exact hc

def KeepsRevoked (c : AccountCall) : Prop :=
  Tame c ∨ ∃ key, c = .kvDelete userSessionsBucket key

variable {c : RefreshClaims}
variable {call : AccountCall} {r : AccountAnswer call}

lemma Issued.later (h : Issued w c) (hnow : w.now ≤ w'.now) : Issued w' c where
  bound := by
    have hunix := unix_mono hnow
    have hbound := h.bound
    omega
  noColon := h.noColon
  nonempty := h.nonempty

lemma store_set_eq (kv : KVTable AuthValue) (now : ℤ) (bucket key b k : String)
    (value : AuthValue) (ttlSeconds : ℤ) : (kv.set now bucket key value ttlSeconds).store b k =
      if b = bucket ∧ k = key then
        some ⟨value, if ttlSeconds > 0 then now + ttlSeconds else 0⟩
      else kv.store b k := by
  rw [KVTable.store_set]
  rfl

lemma expiry_ttl (now : ℤ) :
    (if RefreshTokenTTLSeconds > 0 then now + RefreshTokenTTLSeconds else 0) =
      now + RefreshTokenTTLSeconds := if_pos (by decide)

lemma store_of_effect {now : ℤ} {kv kv' : KVTable AuthValue} (h : KVEffect now kv call kv')
    (b k : String) :
    kv'.store b k = kv.store b k ∨
      (∃ value ttlSeconds, call = .kvSet b k value ttlSeconds ∧ kv'.store b k =
        some ⟨value, if ttlSeconds > 0 then unix now + ttlSeconds else 0⟩) ∨
      (call = .kvDelete b k ∧ kv'.store b k = none) := by
  cases h with
  | unchanged => exact .inl rfl
  | set bucket key value ttlSeconds =>
    rw [store_set_eq]
    split
    case isTrue hkey =>
      obtain ⟨rfl, rfl⟩ := hkey
      exact .inr (.inl ⟨value, ttlSeconds, rfl, rfl⟩)
    case isFalse => exact .inl rfl
  | delete hdelete =>
    rw [KVTable.store_delete hdelete]
    split
    case isTrue hkey =>
      obtain ⟨rfl, rfl⟩ := hkey
      exact .inr (.inr ⟨rfl, rfl⟩)
    case isFalse => exact .inl rfl

lemma Dead.step (hissued : Issued w c) (hdead : Dead w c) (hcall : KeepsRevoked call)
    (hexec : sessionExec call w o = some (r, w')) : Dead w' c := by
  have hunix := unix_mono (now_le_of_exec hexec)
  rcases hdead with hexpired | ⟨entry, hentry, hdata, hlong⟩
  · exact .inl (by omega)
  right
  rcases store_of_effect (effect_of_exec hexec).2 "revoked_tokens" c.id with
    hsame | ⟨value, ttlSeconds, rfl, hset⟩ | ⟨rfl, -⟩
  · exact ⟨entry, hsame.trans hentry, hdata, hlong⟩
  · obtain ⟨rfl, rfl⟩ := (hcall.resolve_right (by simp)).1 rfl
    refine ⟨_, hset, rfl, ?_⟩
    have hbound := hissued.bound
    simp only [expiry_ttl]
    omega
  · rcases hcall with htame | ⟨key, hcall⟩
    · exact htame.elim
    · exact absurd (AccountCall.kvDelete.inj hcall).1 (by decide)

lemma Known.step (hknown : Known w.kv) (hcall : KeepsRevoked call)
    (hexec : sessionExec call w o = some (r, w')) : Known w'.kv := by
  intro k entry hentry
  rcases store_of_effect (effect_of_exec hexec).2 userSessionsBucket k with
    hsame | ⟨value, ttlSeconds, rfl, hset⟩ | ⟨rfl, hnone⟩
  · exact hknown k entry (hsame.symm.trans hentry)
  · obtain ⟨-, info, rfl, hinfo⟩ := (hcall.resolve_right (by simp)).2 rfl
    cases hset.symm.trans hentry
    exact ⟨info, rfl, hinfo⟩
  · cases hnone.symm.trans hentry

lemma Noted.step (hissued : Issued w c) (hnoted : Noted w c) (hcall : Tame call)
    (hexec : sessionExec call w o = some (r, w')) : Noted w' c := by
  have hunix := unix_mono (now_le_of_exec hexec)
  obtain ⟨entry, hentry, hlong⟩ := hnoted
  rcases store_of_effect (effect_of_exec hexec).2 userSessionsBucket (sessionKey c.subject c.id) with
    hsame | ⟨value, ttlSeconds, rfl, hset⟩ | ⟨rfl, -⟩
  · exact ⟨entry, hsame.trans hentry, hlong⟩
  · obtain ⟨rfl, -⟩ := hcall.2 rfl
    refine ⟨_, hset, ?_⟩
    have hbound := hissued.bound
    simp only [expiry_ttl]
    omega
  · exact hcall.elim

/-- Who has issued a token: `Register`, or `Login` and `Refresh`, which note it. -/
inductive Issuer
  | register | session
  deriving DecidableEq

/-- The invariant: what `Login` and `Refresh` have issued is dead or noted, and the tokens in `dead`
are dead. -/
structure Books (issued : List (Issuer × Token RefreshClaims)) (dead : RefreshClaims → Prop)
    (w : AccountWorld) : Prop where
  known : Known w.kv
  bounded : ∀ x ∈ issued, Issued w x.2.claims
  settled : ∀ x ∈ issued, x.1 = .session → Dead w x.2.claims ∨ Noted w x.2.claims
  gone : ∀ c, dead c → Issued w c ∧ Dead w c

variable {issued : List (Issuer × Token RefreshClaims)} {dead dead' : RefreshClaims → Prop}

lemma Books.mono (h : Books issued dead w) (hdead : ∀ c, dead' c → dead c) :
    Books issued dead' w :=
  { h with gone := fun c hc => h.gone c (hdead c hc) }

lemma Dead.later (h : Dead w c) (hkv : w'.kv = w.kv) (hnow : w.now ≤ w'.now) :
    Dead w' c := by
  rcases h with hexpired | hrevoked
  · exact .inl (hexpired.trans (unix_mono hnow))
  · exact .inr (hkv ▸ hrevoked)

lemma Books.later (h : Books issued dead w) (hkv : w'.kv = w.kv) (hnow : w.now ≤ w'.now) :
    Books issued dead w' := by
  refine ⟨hkv ▸ h.known, fun x hx => (h.bounded x hx).later hnow, fun x hx hsession => ?_,
    fun c hc => ⟨(h.gone c hc).1.later hnow, (h.gone c hc).2.later hkv hnow⟩⟩
  exact (h.settled x hx hsession).imp (·.later hkv hnow) fun hnoted => by
    unfold Noted
    rw [hkv]
    exact hnoted

lemma Books.step (h : Books issued dead w)
    (hcall : Tame call) (hexec : sessionExec call w o = some (r, w')) : Books issued dead w' where
  known := h.known.step (.inl hcall) hexec
  bounded x hx := (h.bounded x hx).later (now_le_of_exec hexec)
  settled x hx hsession :=
    (h.settled x hx hsession).imp (fun hdead => hdead.step (h.bounded x hx) (.inl hcall) hexec)
      fun hnoted => hnoted.step (h.bounded x hx) hcall hexec
  gone c hc :=
    ⟨(h.gone c hc).1.later (now_le_of_exec hexec),
      (h.gone c hc).2.step (h.gone c hc).1 (.inl hcall) hexec⟩

lemma wp_of_allCalls {p : Account α} (hp : AllCalls Plain p)
    (h : Books issued dead w) : Wp sessionExec p (fun _ w' => Books issued dead w') w :=
  hp.wp (fun _ _ _ _ _ hcall hbooks hexec => hbooks.step (tame_of_plain hcall) hexec) h

lemma wp_tame_bind {β : Type} {p : Account α} {f : α → Account β} {Q : β → AccountWorld → Prop}
    (hp : AllCalls Plain p) (h : Books issued dead w)
    (hf : ∀ a w', Books issued dead w' → Wp sessionExec (f a) Q w') :
    Wp sessionExec (p >>= f) Q w :=
  (wp_bind p f Q w).mpr ((wp_of_allCalls hp h).mono hf)

lemma tame_perform {c : AccountCall} (hc : Plain c) :
    AllCalls Plain (Prog.perform c : Account (AccountAnswer c)) := ⟨hc, fun _ => trivial⟩

lemma Books.forget {r : Except KVError Unit} (h : Books issued dead w)
    (hkey : ∀ x ∈ issued, sessionKey x.2.claims.subject x.2.claims.id = key → dead x.2.claims)
    (hexec : sessionExec (.kvDelete userSessionsBucket key) w o = some (r, w')) :
    Books issued dead w' := by
  have hcall : KeepsRevoked (.kvDelete userSessionsBucket key) := .inr ⟨key, rfl⟩
  have hdead (c : RefreshClaims) (hc : dead c) : Issued w' c ∧ Dead w' c :=
    ⟨(h.gone c hc).1.later (now_le_of_exec hexec), (h.gone c hc).2.step (h.gone c hc).1 hcall hexec⟩
  refine ⟨h.known.step hcall hexec, fun x hx => (h.bounded x hx).later (now_le_of_exec hexec),
    fun x hx hsession => ?_, hdead⟩
  rcases h.settled x hx hsession with hgone | ⟨entry, hentry, hlong⟩
  · exact .inl (hgone.step (h.bounded x hx) hcall hexec)
  by_cases hx' : sessionKey x.2.claims.subject x.2.claims.id = key
  · exact .inl (hdead _ (hkey x hx hx')).2
  rcases store_of_effect (effect_of_exec hexec).2 userSessionsBucket
    (sessionKey x.2.claims.subject x.2.claims.id) with hsame | ⟨_, _, hcall', -⟩ | ⟨hcall', -⟩
  · exact .inr ⟨entry, hsame.trans hentry, hlong⟩
  · cases hcall'
  · exact absurd (AccountCall.kvDelete.inj hcall').2.symm hx'

/-! ## Revoking sessions -/

def claimsOf (issued : List (Issuer × Token RefreshClaims)) : List RefreshClaims :=
  issued.map fun x => x.2.claims

lemma wp_revokeEach {sessions : List (String × String)}
    (hsessions : ∀ s ∈ sessions, ∃ userID, s.1 = sessionKey userID s.2 ∧ ':' ∉ s.2.toList)
    (h : Books issued dead w) :
    Wp sessionExec (revokeEach sessions) (fun _ w' => Books issued
      (fun c => dead c ∨ c ∈ claimsOf issued ∧ c.id ∈ sessions.map Prod.snd) w') w := by
  induction sessions generalizing w dead with
  | nil => exact h.mono fun c hc => hc.resolve_right (by simp)
  | cons s sessions ih =>
    obtain ⟨key, jti⟩ := s
    obtain ⟨userID, rfl, hjti⟩ : ∃ userID, key = sessionKey userID jti ∧ ':' ∉ jti.toList :=
      hsessions (key, jti) mem_cons_self
    intro o r w1 hset
    have hbooks := h.step (tame_revoke jti) hset
    have hrevoked : Books issued (fun c => dead c ∨ c ∈ claimsOf issued ∧ c.id = jti) w1 := by
      refine ⟨hbooks.known, hbooks.bounded, hbooks.settled, ?_⟩
      rintro c (hc | ⟨hc, rfl⟩)
      · exact hbooks.gone c hc
      obtain ⟨x, hx, rfl⟩ := mem_map.mp hc
      have hissued := hbooks.bounded x hx
      refine ⟨hissued, .inr ⟨⟨.revoked true, unix w1.now + RefreshTokenTTLSeconds⟩, ?_, rfl,
        hissued.bound⟩⟩
      rw [(kvSet_answer hset).2, store_set_eq, if_pos ⟨rfl, rfl⟩, expiry_ttl]
    intro o r w2 hdelete
    have hforgot := hrevoked.forget (fun x hx hkey => .inr ⟨mem_map_of_mem hx,
      (sessionKey_inj (hbooks.bounded x hx).noColon hjti hkey).2⟩) hdelete
    refine (ih (fun s hs => hsessions s (mem_cons_of_mem _ hs)) hforgot).mono ?_
    intro _ w3 hbooks
    refine hbooks.mono ?_
    rintro c (hc | ⟨hc, hid⟩)
    · exact .inl (.inl hc)
    · rcases mem_cons.mp hid with hid | hid
      · exact .inl (.inr ⟨hc, hid⟩)
      · exact .inr ⟨hc, hid⟩

lemma wp_readSessions (userID : String) (keys : List String) :
    Wp sessionExec (readSessions userID keys) (fun sessions w' =>
      w'.kv = w.kv ∧ w.now ≤ w'.now ∧
      (∀ s ∈ sessions, ∃ entry, w.kv.store userSessionsBucket s.1 = some entry ∧
        entry.data = .session s.2) ∧
      ∀ key ∈ keys, (userID ++ ":").toList.isPrefixOf key.toList = true →
        ∀ entry info, w.kv.store userSessionsBucket key = some entry → entry.data = .session info →
          unix w'.now < entry.expiresAt → (key, info) ∈ sessions) w := by
  induction keys generalizing w with
  | nil => exact ⟨rfl, le_refl _, nofun, nofun⟩
  | cons key keys ih =>
    rw [readSessions]
    split
    case isFalse hprefix =>
      refine (ih (w := w)).mono ?_
      rintro sessions w' ⟨hkv, hnow, hstored, hread⟩
      exact ⟨hkv, hnow, hstored, forall_mem_cons.mpr ⟨fun hkey => absurd hkey hprefix, hread⟩⟩
    case isTrue =>
      simp only [Account.kvGet, perform_bind]
      intro o r w1 hget
      obtain ⟨rfl, rfl⟩ := kvGet_answer hget
      have hnow : w.now ≤ (w.wait o.elapsed).now := now_le_of_exec hget
      have hlive {entry : KVEntry AuthValue} {w' : AccountWorld}
          (hentry : w.kv.store userSessionsBucket key = some entry)
          (hnow' : (w.wait o.elapsed).now ≤ w'.now) (hlt : unix w'.now < entry.expiresAt) :
          (w.wait o.elapsed).kv.get (unix (w.wait o.elapsed).now) userSessionsBucket key =
            .ok entry.data :=
        KVStore.get_of_lt hentry ((unix_mono hnow').trans_lt hlt)
      dsimp only
      split
      case h_1 info hfound =>
        rw [wp_bind]
        refine (ih (w := w.wait o.elapsed)).mono ?_
        rintro sessions w' ⟨hkv, hnow', hstored, hread⟩
        refine ⟨hkv, hnow.trans hnow', forall_mem_cons.mpr ⟨KVStore.exists_of_get hfound, hstored⟩,
          forall_mem_cons.mpr ⟨fun _ entry info' hentry hdata hlt => ?_, ?_⟩⟩
        · rw [hlive hentry hnow' hlt, hdata] at hfound
          cases hfound
          exact mem_cons_self
        · intro k hk hk' entry info' hentry hdata hlt
          exact mem_cons_of_mem _ (hread k hk hk' entry info' hentry hdata hlt)
      case h_2 hother =>
        refine (ih (w := w.wait o.elapsed)).mono ?_
        rintro sessions w' ⟨hkv, hnow', hstored, hread⟩
        refine ⟨hkv, hnow.trans hnow', hstored, forall_mem_cons.mpr ⟨?_, hread⟩⟩
        intro _ entry info hentry hdata hlt
        exact (hother info (hdata ▸ hlive hentry hnow' hlt)).elim

lemma mem_exchange (before : α → α → Bool) {x y : α} {ys : List α}
    (h : y ∈ (exchange before x ys).1 :: (exchange before x ys).2) : y ∈ x :: ys := by
  induction ys generalizing x with
  | nil => exact h
  | cons z zs ih =>
    rw [exchange] at h
    split at h
    · have := @ih z
      simp only [mem_cons] at h this ⊢
      tauto
    · have := @ih x
      simp only [mem_cons] at h this ⊢
      tauto

lemma mem_exchangeSort {before : α → α → Bool} {n : ℕ} {x : α} {xs : List α}
    (h : x ∈ exchangeSort before n xs) : x ∈ xs := by
  induction n generalizing xs with
  | zero => exact h
  | succ n ih =>
    cases xs with
    | nil => exact h
    | cons y ys =>
      refine mem_exchange before ?_
      rcases mem_cons.mp h with rfl | h
      · exact mem_cons_self
      · exact mem_cons_of_mem _ (ih h)

lemma Known.of_read {kv : KVTable AuthValue} (hknown : Known kv)
    {s : String × SessionTrackingInfo} {entry : KVEntry AuthValue}
    (hentry : kv.store userSessionsBucket s.1 = some entry) (hdata : entry.data = .session s.2) :
    s.1 = sessionKey s.2.userID s.2.jti ∧ ':' ∉ s.2.jti.toList := by
  obtain ⟨info, hinfo, hkey, hjti⟩ := hknown _ _ hentry
  cases hdata.symm.trans hinfo
  exact ⟨hkey, hjti⟩

variable {h : AccountHandler}

lemma wp_enforceSessionLimit (userID : String) (hbooks : Books issued dead w) :
    Wp sessionExec (enforceSessionLimit h userID) (fun _ w' => Books issued dead w') w := by
  unfold enforceSessionLimit
  split
  case isTrue => exact hbooks
  case isFalse =>
    simp only [Account.kvList, perform_bind]
    intro o r w1 hlist
    have hbooks1 := hbooks.step (show Tame (.kvList userSessionsBucket) from trivial) hlist
    cases r with
    | error e => exact hbooks1
    | ok keys =>
      rw [wp_bind]
      refine (wp_readSessions userID keys).mono ?_
      rintro sessions w2 ⟨hkv, hnow, hstored, -⟩
      refine (wp_revokeEach ?_ (hbooks1.later hkv hnow)).mono
        fun _ _ hbooks => hbooks.mono fun c hc => .inl hc
      refine forall_mem_map.mpr fun s' hs' => ?_
      obtain ⟨entry, hentry, hdata⟩ := hstored s' (mem_exchangeSort (mem_of_mem_take hs'))
      exact ⟨s'.2.userID, hbooks1.known.of_read hentry hdata⟩

lemma prefix_sessionKey (userID jti : String) :
    (userID ++ ":").toList.isPrefixOf (sessionKey userID jti).toList = true := by
  simp [sessionKey, isPrefixOf_iff_prefix]

lemma Books.listed (hbooks : Books issued dead w) {x : Issuer × Token RefreshClaims}
    (hx : x ∈ issued) (hsession : x.1 = .session) :
    Dead w x.2.claims ∨
      ∃ entry keys, w.kv.store userSessionsBucket
          (sessionKey x.2.claims.subject x.2.claims.id) = some entry ∧
        x.2.claims.expiresAt ≤ entry.expiresAt ∧
        w.kv.list (unix w.now) userSessionsBucket = .ok keys ∧
        sessionKey x.2.claims.subject x.2.claims.id ∈ keys := by
  rcases hbooks.settled x hx hsession with hdead | ⟨entry, hentry, hlong⟩
  · exact .inl hdead
  by_cases hexpired : x.2.claims.expiresAt ≤ unix w.now
  · exact .inl (.inl hexpired)
  · have hlive : entry.expiresAt > unix w.now := by omega
    obtain ⟨hlist, hmem⟩ := KVTable.list_of_mem hentry (.inr hlive)
    exact .inr ⟨entry, _, hentry, hlong, hlist, hmem⟩

lemma wp_getUserSessions (hkv : h.kv = true) (userID : String) (hbooks : Books issued dead w) :
    Wp sessionExec (getUserSessions h userID) (fun answer w' => Books issued dead w' ∧
      (∀ sessions, answer = .ok sessions → ∀ s ∈ sessions, ':' ∉ s.jti.toList) ∧
      ∀ x ∈ issued, x.1 = .session → x.2.claims.subject = userID → Dead w' x.2.claims ∨
        ∃ sessions, answer = .ok sessions ∧ x.2.claims.id ∈ sessions.map (·.jti)) w := by
  unfold getUserSessions
  rw [if_neg (by simp [hkv])]
  simp only [Account.kvList, perform_bind]
  intro o r w1 hlist
  have hbooks1 := hbooks.step (show Tame (.kvList userSessionsBucket) from trivial) hlist
  obtain ⟨-, hanswer⟩ := kvList_answer hlist
  cases r with
  | error e =>
    refine ⟨hbooks1, nofun, fun x hx hsession _ => ?_⟩
    rcases hbooks1.listed hx hsession with hdead | ⟨_, _, -, -, hkeys, -⟩
    · exact .inl hdead
    · obtain ⟨e', he'⟩ := hanswer
      rw [hkeys] at he'
      cases he'
  | ok keys =>
    obtain ⟨keys', hkeys', hperm⟩ := hanswer
    rw [wp_bind]
    refine (wp_readSessions userID keys).mono ?_
    rintro sessions w2 ⟨hkv2, hnow2, hstored, hread⟩
    have hbooks2 := hbooks1.later hkv2 hnow2
    refine ⟨hbooks2, ?_, fun x hx hsession hsubject => ?_⟩
    · rintro _ ⟨⟩ s hs
      obtain ⟨s', hs', rfl⟩ := mem_map.mp ((mem_insertionSort _).mp hs)
      obtain ⟨entry, hentry, hdata⟩ := hstored s' hs'
      exact (hbooks1.known.of_read hentry hdata).2
    rcases hbooks1.listed hx hsession with hdead | ⟨entry, _, hentry, hlong, hkeys, hmem⟩
    · exact .inl (hdead.later hkv2 hnow2)
    by_cases hexpired : x.2.claims.expiresAt ≤ unix w2.now
    · exact .inl (.inl hexpired)
    right
    cases hkeys'.symm.trans hkeys
    obtain ⟨info, hdata, hkey, hjti⟩ := hbooks1.known _ _ hentry
    have hinfo := hread _ (hperm.mem_iff.mpr hmem) (hsubject ▸ prefix_sessionKey _ _) entry
      info hentry hdata (by omega)
    refine ⟨_, rfl, mem_map.mpr ⟨info, ?_, ?_⟩⟩
    · exact (mem_insertionSort _).mpr (mem_map_of_mem hinfo)
    · exact (sessionKey_inj (hbooks1.bounded x hx).noColon hjti hkey).2.symm

/-- The tokens of the user that `Login` and `Refresh` have issued, beside those in `dead`. -/
def Ended (issued : List (Issuer × Token RefreshClaims)) (dead : RefreshClaims → Prop)
    (userID : String) (c : RefreshClaims) : Prop :=
  dead c ∨ (∃ x ∈ issued, x.1 = .session ∧ x.2.claims = c) ∧ c.subject = userID

/-- **The noted sessions of a user end**: what `Login` and `Refresh` have issued to the user is
dead. -/
theorem wp_revokeAllUserSessions (hkv : h.kv = true) (userID : String)
    (hbooks : Books issued dead w) :
    Wp sessionExec (revokeAllUserSessions h userID)
      (fun _ w' => Books issued (Ended issued dead userID) w') w := by
  unfold revokeAllUserSessions
  rw [wp_bind]
  refine (wp_getUserSessions hkv userID hbooks).mono ?_
  rintro answer w1 ⟨hbooks1, hjtis, hall⟩
  have hended {w' : AccountWorld} {dead' : RefreshClaims → Prop} (h' : Books issued dead' w')
      (hdead : ∀ c, dead c → dead' c)
      (hgone : ∀ x ∈ issued, x.1 = .session → x.2.claims.subject = userID → Dead w' x.2.claims) :
      Books issued (Ended issued dead userID) w' := by
    refine ⟨h'.known, h'.bounded, h'.settled, ?_⟩
    rintro c (hc | ⟨⟨x, hx, hsession, rfl⟩, hsubject⟩)
    · exact h'.gone c (hdead c hc)
    · exact ⟨h'.bounded x hx, hgone x hx hsession hsubject⟩
  cases answer with
  | error e =>
    refine hended hbooks1 (fun _ => id) fun x hx hsession hsubject => ?_
    exact (hall x hx hsession hsubject).resolve_right (by rintro ⟨_, h, -⟩; cases h)
  | ok sessions =>
    rw [wp_bind]
    have hbooks2 : Books issued (fun c => dead c ∨ c ∈ claimsOf issued ∧ Dead w1 c) w1 := by
      refine ⟨hbooks1.known, hbooks1.bounded, hbooks1.settled, ?_⟩
      rintro c (hc | ⟨hc, hdead⟩)
      · exact hbooks1.gone c hc
      · obtain ⟨x, hx, rfl⟩ := mem_map.mp hc
        exact ⟨hbooks1.bounded x hx, hdead⟩
    refine (wp_revokeEach ?_ hbooks2).mono ?_
    · exact forall_mem_map.mpr fun info hinfo => ⟨userID, rfl, hjtis sessions rfl info hinfo⟩
    intro _ w2 hbooks3
    refine hended hbooks3 (fun c hc => .inl (.inl hc)) fun x hx hsession hsubject => ?_
    have hmem : x.2.claims ∈ claimsOf issued := mem_map_of_mem hx
    rcases hall x hx hsession hsubject with hdead | ⟨_, hsessions, hid⟩
    · exact (hbooks3.gone _ (.inl (.inr ⟨hmem, hdead⟩))).2
    · cases hsessions
      refine (hbooks3.gone _ (.inr ⟨hmem, ?_⟩)).2
      simpa using hid

/-! ## Issuing tokens -/

def IssuedBy (h : AccountHandler) (userID : String) (t : Token RefreshClaims) (w : AccountWorld) :
    Prop :=
  ∃ at_ accessID refreshID tenantID roleID email,
    t = (h.jwt.generateTokenPair at_ accessID refreshID userID tenantID roleID
      email).refreshToken ∧ at_ ≤ w.now ∧ ':' ∉ refreshID.toList ∧ refreshID ≠ ""

variable {t : Token RefreshClaims} {userID : String}

lemma IssuedBy.later (ht : IssuedBy h userID t w) (hnow : w.now ≤ w'.now) :
    IssuedBy h userID t w' := by
  obtain ⟨at_, accessID, refreshID, tenantID, roleID, email, heq, hat, hid⟩ := ht
  exact ⟨at_, accessID, refreshID, tenantID, roleID, email, heq, hat.trans hnow, hid⟩

lemma IssuedBy.subject (ht : IssuedBy h userID t w) : t.claims.subject = userID := by
  obtain ⟨_, _, _, _, _, _, rfl, -⟩ := ht
  rfl

lemma IssuedBy.toIssued (hexpiry : h.jwt.refreshExpiry = 7 * day) (ht : IssuedBy h userID t w) :
    Issued w t.claims := by
  obtain ⟨at_, accessID, refreshID, tenantID, roleID, email, rfl, hat, hcolon, hid⟩ := ht
  refine ⟨?_, hcolon, hid⟩
  have hexp := unix_add_refreshExpiry hexpiry at_
  show unix (at_ + h.jwt.refreshExpiry) ≤ unix w.now + RefreshTokenTTLSeconds
  have hunix := unix_mono hat
  omega

lemma IssuedBy.expired {e : JWTError}
    (hexpiry : h.jwt.refreshExpiry = 7 * day) (ht : IssuedBy h userID t w)
    (hvalidate : h.jwt.validateSignedRefreshToken w.now (t.signed RefreshClaims.payload) =
      .error e) : t.claims.expiresAt ≤ unix w.now := by
  obtain ⟨at_, accessID, refreshID, tenantID, roleID, email, rfl, -, -⟩ := ht
  rw [validateSignedRefreshToken_signed] at hvalidate
  by_contra hlive
  have hexp := unix_add_refreshExpiry hexpiry at_
  have hnow : unix w.now < unix at_ + RefreshTokenTTLSeconds := by
    have : ¬unix (at_ + h.jwt.refreshExpiry) ≤ unix w.now := hlive
    omega
  rw [validateRefreshToken_generated (mem_cons_self) hexpiry hnow] at hvalidate
  cases hvalidate

lemma generateTokenPair_answer {pair : TokenPair}
    {tenantID roleID email : String}
    (hexec : sessionExec (.generateTokenPair h.jwt userID tenantID roleID email) w o =
      some (pair, w')) : IssuedBy h userID pair.refreshToken w' := by
  obtain ⟨-, hexec⟩ := restrict_eq_some hexec
  obtain ⟨hbytes, hexec⟩ := ite_none_right_eq_some.mp hexec
  cases hexec
  refine ⟨_, _, SHA256.hex o.refreshBytes, tenantID, roleID, email, rfl, le_refl _, ?_, ?_⟩
  · intro hcolon
    exact absurd (SHA256.mem_of_mem_hex hcolon) (by decide)
  intro hempty
  have hlength := SHA256.length_hex o.refreshBytes
  rw [hempty, hbytes.2] at hlength
  cases hlength

lemma wp_trackSession {client : Client} (hkv : h.kv = true)
    (hexpiry : h.jwt.refreshExpiry = 7 * day) (ht : IssuedBy h userID t w)
    (hbooks : Books issued dead w) :
    Wp sessionExec (trackSession h client userID (t.signed RefreshClaims.payload))
      (fun _ w' => Books ((.session, t) :: issued) dead w') w := by
  have hnew {w' : AccountWorld} (hnow : w.now ≤ w'.now) (h' : Books issued dead w')
      (hsettled : Dead w' t.claims ∨ Noted w' t.claims) :
      Books ((.session, t) :: issued) dead w' := by
    refine ⟨h'.known, ?_, ?_, h'.gone⟩
    · exact forall_mem_cons.mpr ⟨(ht.later hnow).toIssued hexpiry, h'.bounded⟩
    · exact forall_mem_cons.mpr ⟨fun _ => hsettled, h'.settled⟩
  unfold trackSession
  rw [if_neg (by simp [hkv])]
  simp only [Account.now, Account.kvSet, perform_bind]
  intro o now w1 hexec
  have hbooks1 := hbooks.step (show Tame .now from trivial) hexec
  have hnow1 := now_le_of_exec hexec
  obtain ⟨rfl, rfl⟩ := answer_inj (restrict_eq_some hexec).2
  cases hvalidate : h.jwt.validateSignedRefreshToken (w.wait o.elapsed).now
      (t.signed RefreshClaims.payload) with
  | error e =>
    simp only [hvalidate]
    exact hnew hnow1 hbooks1 (.inl (.inl ((ht.later hnow1).expired hexpiry hvalidate)))
  | ok rtClaims =>
    simp only [hvalidate]
    rw [validateSignedRefreshToken_signed] at hvalidate
    obtain ⟨rfl, -⟩ := validateRefreshToken_ok hvalidate
    intro o createdAt w2 hexec
    have hbooks2 := hbooks1.step (show Tame .now from trivial) hexec
    have hnow2 := hnow1.trans (now_le_of_exec hexec)
    intro o r w3 hset
    have hnow3 := hnow2.trans (now_le_of_exec hset)
    have hissued := (ht.later hnow3).toIssued hexpiry
    have hbooks3 := hbooks2.step (tame_session ⟨userID, t.claims.given.jti, client.ip,
      client.userAgent, createdAt⟩ hissued.noColon) hset
    obtain ⟨rfl, hkv3⟩ := kvSet_answer hset
    refine wp_enforceSessionLimit userID (hnew hnow3 hbooks3 (.inr ?_))
    refine ⟨⟨.session ⟨userID, t.claims.given.jti, client.ip, client.userAgent, createdAt⟩,
      unix w3.now + RefreshTokenTTLSeconds⟩, ?_, hissued.bound⟩
    rw [hkv3, store_set_eq, if_pos ⟨rfl, by rw [ht.subject]; rfl⟩, expiry_ttl]

/-! ## Handlers -/

lemma tame_revokeAccessToken (jti userID : String) (expiresAt : ℤ) :
    AllCalls Plain (revokeAccessToken jti userID expiresAt) := by
  refine AllCalls.bind (tame_perform trivial) fun now => ?_
  dsimp only
  split
  · trivial
  · exact AllCalls.bind (tame_perform (tame_other (by decide) (by decide))) fun _ => trivial

lemma tame_revokeAccessTokenFromRequest (token : Option SignedToken) :
    AllCalls Plain (revokeAccessTokenFromRequest h token) := by
  unfold revokeAccessTokenFromRequest
  split
  · trivial
  split
  · trivial
  refine AllCalls.bind (tame_perform trivial) fun now => ?_
  split
  · trivial
  split
  · trivial
  · split
    · trivial
    · exact tame_revokeAccessToken _ _ _

lemma tame_revokeToken : AllCalls Plain (revokeToken h jti) := by
  unfold revokeToken
  split
  · exact AllCalls.bind (tame_perform (tame_revoke jti)) fun _ => trivial
  · trivial

lemma tame_tokenRevoked : AllCalls Plain (tokenRevoked h jti) := by
  unfold tokenRevoked
  split
  · refine AllCalls.bind (tame_perform trivial) fun r => ?_
    split <;> trivial
  · trivial

lemma tame_checkPerAccountRateLimit (email : String) :
    AllCalls Plain (checkPerAccountRateLimit h email) := by
  unfold checkPerAccountRateLimit
  split
  · trivial
  refine AllCalls.bind (tame_perform trivial) fun r => ?_
  split
  · split
    · trivial
    · exact AllCalls.bind (tame_perform trivial) fun _ => trivial
  · trivial

lemma tame_incrementPerAccountRateLimit (email : String) :
    AllCalls Plain (incrementPerAccountRateLimit h email) := by
  unfold incrementPerAccountRateLimit
  split
  · trivial
  refine AllCalls.bind (tame_perform trivial) fun r => ?_
  split
  iterate 2
    refine AllCalls.bind (tame_perform trivial) fun now => ?_
    split
    · trivial
    · exact AllCalls.bind (tame_perform (tame_other (by decide) (by decide))) fun _ => trivial
  trivial

lemma tame_redeemInvite (code email : String) : AllCalls Plain (redeemInvite h code email) := by
  refine AllCalls.bind (tame_perform trivial) fun r => ?_
  split
  · trivial
  · trivial
  split
  · trivial
  refine AllCalls.bind (tame_perform trivial) fun now => ?_
  split
  · trivial
  split
  · trivial
  · refine AllCalls.bind (tame_perform trivial) fun r => ?_
    cases r <;> trivial

lemma tame_joinTenant (mode name : String) (req : RegisterRequest) :
    AllCalls Plain (joinTenant h mode req name) := by
  unfold joinTenant
  split
  · refine AllCalls.bind (tame_perform trivial) fun r => ?_
    cases r <;> trivial
  split
  · trivial
  · refine AllCalls.bind (tame_redeemInvite _ _) fun r => ?_
    cases r <;> trivial

def issuedBy (issuer : Issuer) : AccountReply → List (Issuer × Token RefreshClaims)
  | .tokens _ pair => [(issuer, pair.refreshToken)]
  | _ => []

def Posted (issued : List (Issuer × Token RefreshClaims)) (dead : RefreshClaims → Prop)
    (issuer : Issuer) (reply : AccountReply) (w : AccountWorld) : Prop :=
  Books (issuedBy issuer reply ++ issued) dead w

/-- The programs of `Login` and `Refresh`: plain calls, and at the end perhaps a pair of tokens, which
is tracked. -/
inductive Opens (h : AccountHandler) : Account AccountReply → Prop
  | reply {r : AccountReply} (hr : r.tokens? = none) : Opens h (.ret r)
  | plain {β : Type} {p : Account β} {f : β → Account AccountReply} (hp : AllCalls Plain p)
    (hf : ∀ b, Opens h (f b)) : Opens h (p >>= f)
  | issue {userID tenantID roleID email : String} {client : Client} {status : ℕ} {β : Type}
    {p : Account β} (hp : AllCalls Plain p) :
    Opens h do
      let tokens ← Account.generateTokenPair h.jwt userID tenantID roleID email
      let _ ← p
      trackSession h client userID tokens.signedRefresh
      return .tokens status tokens

lemma opens_openSession (client : Client) (user : UserRow) :
    Opens h (openSession h client user) := by
  refine .plain (tame_perform trivial) fun r => ?_
  cases r with
  | error e => exact .reply rfl
  | ok membership => exact .issue (tame_perform trivial)

lemma opens_verifySecondFactor (req : LoginRequest) (user : UserRow) :
    Opens h (verifySecondFactor h req user) := by
  unfold verifySecondFactor
  split
  · exact opens_openSession _ _
  split
  · exact .reply rfl
  refine .plain (tame_perform trivial) fun valid => ?_
  cases valid with
  | true => exact opens_openSession _ _
  | false => exact .plain (tame_incrementPerAccountRateLimit _) fun _ => .reply rfl

lemma opens_authenticate (req : LoginRequest) (user : UserRow) :
    Opens h (authenticate h req user) := by
  refine .plain (tame_checkPerAccountRateLimit _) fun locked => ?_
  cases locked with
  | some until_ => exact .plain (tame_perform trivial) fun _ => .reply rfl
  | none =>
    dsimp only
    split
    · exact opens_verifySecondFactor _ _
    · exact .plain (tame_incrementPerAccountRateLimit _) fun _ => .reply rfl

lemma opens_login (req : Option LoginRequest) : Opens h (login h req) := by
  unfold login
  split
  · exact .reply rfl
  split
  · exact .reply rfl
  split
  · exact .reply rfl
  refine .plain (tame_perform trivial) fun r => ?_
  split
  · exact .reply rfl
  · exact .reply rfl
  · exact opens_authenticate _ _

variable (req : SessionRequest)

lemma opens_rotate (rtClaims : RefreshTokenClaims) : Opens h (rotate h req rtClaims) := by
  refine .plain (tame_perform trivial) fun r => ?_
  cases r with
  | error e => exact .reply rfl
  | ok user =>
    refine .plain (tame_perform trivial) fun r => ?_
    cases r with
    | error e => exact .reply rfl
    | ok membership =>
      refine .plain (tame_revokeToken _) fun _ => ?_
      refine .plain (tame_revokeAccessTokenFromRequest _) fun _ => ?_
      exact .issue (p := pure ()) trivial

lemma opens_refresh : Opens h (refresh h req) := by
  unfold refresh
  split
  · exact .reply rfl
  split
  · exact .reply rfl
  refine .plain (tame_perform trivial) fun now => ?_
  split
  · exact .reply rfl
  refine .plain (tame_tokenRevoked _) fun revoked => ?_
  cases revoked with
  | true => exact .reply rfl
  | false => exact opens_rotate _ _

lemma Opens.wp (hkv : h.kv = true) (hexpiry : h.jwt.refreshExpiry = 7 * day)
    {p : Account AccountReply} (hp : Opens h p) (hbooks : Books issued dead w) :
    Wp sessionExec p (Posted issued dead .session) w := by
  induction hp generalizing w with
  | @reply r hr =>
    cases r with
    | tokens => cases hr
    | _ => exact hbooks
  | plain hp _ ih => exact wp_tame_bind hp hbooks fun b w1 hbooks1 => ih b hbooks1
  | issue hp =>
    simp only [Account.generateTokenPair, perform_bind]
    intro o pair w1 hgenerate
    have hissued := generateTokenPair_answer hgenerate
    have hbooks1 := hbooks.step (show Tame (.generateTokenPair _ _ _ _ _) from trivial) hgenerate
    rw [wp_bind]
    have hkept : Wp sessionExec _ (fun _ w' => Books issued dead w' ∧ w1.now ≤ w'.now) w1 :=
      hp.wp (fun _ _ _ _ _ hcall hI hexec => ⟨hI.1.step (tame_of_plain hcall) hexec,
        hI.2.trans (now_le_of_exec hexec)⟩) ⟨hbooks1, le_refl _⟩
    refine hkept.mono ?_
    rintro _ w2 ⟨hbooks2, hnow⟩
    rw [wp_bind]
    exact wp_trackSession hkv hexpiry (hissued.later hnow) hbooks2

variable (hbooks : Books issued dead w)
include hbooks

lemma wp_createAccount (hexpiry : h.jwt.refreshExpiry = 7 * day) (req : RegisterRequest)
    (name tenantID roleID : String) :
    Wp sessionExec (createAccount h req name tenantID roleID) (Posted issued dead .register) w := by
  unfold createAccount
  split
  · exact hbooks
  refine wp_tame_bind (tame_perform trivial) hbooks fun r w1 hbooks1 => ?_
  cases r with
  | error e => exact hbooks1
  | ok userID =>
    intro o pair w2 hgenerate
    have hbooks2 := hbooks1.step (show Tame (.generateTokenPair _ _ _ _ _) from trivial) hgenerate
    have hissued := (generateTokenPair_answer hgenerate).toIssued hexpiry
    refine ⟨hbooks2.known, forall_mem_cons.mpr ⟨hissued, hbooks2.bounded⟩, ?_, hbooks2.gone⟩
    exact forall_mem_cons.mpr ⟨nofun, hbooks2.settled⟩

lemma wp_register (hexpiry : h.jwt.refreshExpiry = 7 * day) (req : Option RegisterRequest) :
    Wp sessionExec (register h req) (Posted issued dead .register) w := by
  unfold register
  dsimp only
  split
  · exact hbooks
  split
  · exact hbooks
  split
  · exact hbooks
  refine wp_tame_bind (tame_perform trivial) hbooks fun r w1 hbooks1 => ?_
  cases r with
  | ok user => exact hbooks1
  | error e =>
    refine wp_tame_bind (tame_joinTenant _ _ _) hbooks1 fun r w2 hbooks2 => ?_
    cases r with
    | error e => exact hbooks2
    | ok joined => exact wp_createAccount hbooks2 hexpiry _ _ _ _

lemma wp_logout : Wp sessionExec (logout h req) (Posted issued dead .session) w := by
  unfold logout
  split
  · exact hbooks
  refine wp_tame_bind (tame_revokeAccessTokenFromRequest _) hbooks fun _ w1 hbooks1 => ?_
  split
  · exact hbooks1
  refine wp_tame_bind (tame_perform trivial) hbooks1 fun now w2 hbooks2 => ?_
  split
  · exact hbooks2
  · exact wp_tame_bind (tame_revokeToken _) hbooks2 fun _ _ hbooks3 => hbooks3

lemma wp_revokeCurrentToken (claims : Claims) (message : String) :
    Wp sessionExec (revokeCurrentToken h claims (.done message))
      (fun reply w' => issuedBy .session reply = [] ∧ Books issued dead w') w := by
  unfold revokeCurrentToken
  split
  · split
    · exact ⟨rfl, hbooks⟩
    · exact wp_tame_bind (tame_revokeAccessToken _ _ _) hbooks fun _ _ hbooks1 => ⟨rfl, hbooks1⟩
  · exact ⟨rfl, hbooks⟩

lemma wp_logoutAll (hkv : h.kv = true) (claims : Claims) :
    Wp sessionExec (logoutAll h (some claims)) (fun reply w' => issuedBy .session reply = [] ∧
      Books issued (Ended issued dead claims.userID) w') w := by
  simp only [logoutAll]
  rw [wp_bind]
  refine (wp_revokeAllUserSessions hkv claims.userID hbooks).mono fun answer w1 hbooks1 => ?_
  cases answer with
  | error e => exact ⟨rfl, hbooks1⟩
  | ok => exact wp_revokeCurrentToken hbooks1 claims _

lemma wp_endSessions (hkv : h.kv = true) (claims : Claims) :
    Wp sessionExec (endSessions h claims) (fun reply w' => issuedBy .session reply = [] ∧
      Books issued (Ended issued dead claims.userID) w') w := by
  rw [endSessions, if_pos hkv, wp_bind]
  exact (wp_revokeAllUserSessions hkv claims.userID hbooks).mono fun _ _ hbooks1 =>
    wp_revokeCurrentToken hbooks1 claims _

lemma wp_changePassword (hkv : h.kv = true) (claims : Option Claims)
    (req : Option (String × String)) :
    Wp sessionExec (changePassword h claims req) (fun reply w' => issuedBy .session reply = [] ∧
      Books issued dead w' ∧ (reply = .done "password changed" →
        ∃ c, claims = some c ∧ Books issued (Ended issued dead c.userID) w')) w := by
  unfold changePassword
  split
  · exact ⟨rfl, hbooks, nofun⟩
  · exact ⟨rfl, hbooks, nofun⟩
  split
  · exact ⟨rfl, hbooks, nofun⟩
  refine wp_tame_bind (tame_perform trivial) hbooks fun r w1 hbooks1 => ?_
  cases r with
  | error e => exact ⟨rfl, hbooks1, nofun⟩
  | ok user =>
    dsimp only
    split
    · exact ⟨rfl, hbooks1, nofun⟩
    split
    · exact ⟨rfl, hbooks1, nofun⟩
    · exact ⟨rfl, hbooks1, nofun⟩
    refine wp_tame_bind (tame_perform trivial) hbooks1 fun r w2 hbooks2 => ?_
    cases r with
    | error e => exact ⟨rfl, hbooks2, nofun⟩
    | ok =>
      refine (wp_endSessions hbooks2 hkv _).mono ?_
      rintro reply w3 ⟨hreply, hbooks3⟩
      exact ⟨hreply, hbooks3.mono fun _ => .inl, fun _ => ⟨_, rfl, hbooks3⟩⟩

end DeployMonster.Handlers.Accounts
