import DeployMonster.Handlers.LogoutAll

/-!
# The lockout of an account

Attempts to log in with wrong passwords, in any number and in any interleaving. `Login` looks at the
lock of the account, verifies the password and counts the failure in separate steps.
-/

namespace DeployMonster.Handlers.Accounts

open Clock DB Program StepMachine List Option Function Pool

/-! ## The steps of a login -/

/-- The calls of `Login`: those to the store, and the verification of a password for an account. -/
inductive LoginCall
  | store (c : AccountCall)
  | verify (email passwordHash password : String)

@[reducible] def LoginAnswer : LoginCall → Type
  | .store c => AccountAnswer c
  | .verify _ _ _ => Bool

abbrev LoginProg := Prog LoginCall LoginAnswer

def lift {α : Type} (p : Account α) : LoginProg α := p.implement fun c => Prog.perform (.store c)

def authenticateSteps (h : AccountHandler) (req : LoginRequest) (user : UserRow) :
    LoginProg AccountReply := do
  match ← lift (checkPerAccountRateLimit h req.email) with
  | some until_ => lift do
    let now ← Account.now
    return .locked (until_ - unix now)
  | none =>
    if ← Prog.perform (.verify req.email user.passwordHash req.password) then
      lift (verifySecondFactor h req user)
    else lift do
      incrementPerAccountRateLimit h req.email
      return .error 401 "invalid credentials"

def loginSteps (h : AccountHandler) (req : Option LoginRequest) : LoginProg AccountReply := do
  match req with
  | none => return .error 400 "invalid request body"
  | some req =>
    if req.email = "" ∨ req.password = "" then return .error 400 "email and password required"
    else if req.password.utf8ByteSize > 256 then
      return .error 400 "password must not exceed 256 characters"
    else
      match ← lift (Account.getUserByEmail req.email) with
      | .error .notFound => return .error 401 "invalid credentials"
      | .error .failed => return .error 500 "internal error"
      | .ok user => authenticateSteps h req user

def verifyAtOnce (h : AccountHandler) : (c : LoginCall) → Account (LoginAnswer c)
  | .store c => Prog.perform c
  | .verify _ passwordHash password => return h.verifyPassword passwordHash password

variable {h : AccountHandler}

lemma implement_lift {α : Type} (p : Account α) : (lift p).implement (verifyAtOnce h) = p := by
  induction p with
  | ret a => rfl
  | call c k ih => exact congrArg (Prog.call c) (funext ih)

lemma implement_authenticateSteps (req : LoginRequest) (user : UserRow) :
    (authenticateSteps h req user).implement (verifyAtOnce h) = authenticate h req user := by
  unfold authenticateSteps authenticate
  rw [implement_bind, implement_lift]
  congr 1
  funext until_
  cases until_ with
  | some until_ => exact implement_lift _
  | none =>
    show (if h.verifyPassword user.passwordHash req.password then _ else _ : LoginProg _).implement
      (verifyAtOnce h) = _
    split <;> exact implement_lift _

/-- **The program is `Login`**, when the verification takes no step. -/
theorem implement_loginSteps (req : Option LoginRequest) :
    (loginSteps h req).implement (verifyAtOnce h) = login h req := by
  cases req with
  | none => rfl
  | some req =>
    unfold loginSteps login
    dsimp only
    split
    · rfl
    split
    · rfl
    refine congrArg (Prog.call _) (funext fun r => ?_)
    rcases r with (_ | _) | user
    · rfl
    · rfl
    · exact implement_authenticateSteps req user

/-- What is stored for the account and has not expired. -/
def AccountWorld.counter (w : AccountWorld) (email : String) : Option AuthValue :=
  (w.kv.get (unix w.now) accountBucket email).toOption

/-- The world, and for each account the passwords that were found wrong since its counter last
expired. -/
structure LoginWorld where
  world : AccountWorld
  failures : String → ℕ

def LoginWorld.wait (s : LoginWorld) (elapsed : ℕ) : LoginWorld where
  world := s.world.wait elapsed
  failures email :=
    if (s.world.counter email).isSome ∧ (s.world.wait elapsed).counter email = none then 0
    else s.failures email

def LoginWorld.fail (s : LoginWorld) (email : String) : LoginWorld :=
  { s with failures := update s.failures email (s.failures email + 1) }

def act (h : AccountHandler) : (c : LoginCall) → LoginWorld → AccountChoice →
    Option (LoginAnswer c × LoginWorld)
  | .store c, s, o => (perform c s.world o).map fun (r, w) => (r, { s with world := w })
  | .verify email passwordHash password, s, _ =>
    if h.verifyPassword passwordHash password then none else some (false, s.fail email)

def loginExec (h : AccountHandler) (c : LoginCall) (s : LoginWorld) (o : AccountChoice) :
    Option (LoginAnswer c × LoginWorld) :=
  act h c (s.wait o.elapsed) o

/-- Who has read the entry of an account is noted with the account. -/
def noteLogin : (c : LoginCall) → LoginAnswer c → Option String
  | .store (.kvGet bucket key), _ => if bucket = accountBucket then some key else none
  | _, _ => none

abbrev LoginState := Logged LoginWorld LoginCall LoginAnswer AccountReply String

def logins (h : AccountHandler) (requests : List (Option LoginRequest)) (w : AccountWorld) :
    LoginState :=
  ⟨⟨w, fun _ => 0⟩, requests.map (loginSteps h), []⟩

/-- An attempt begins to look at the account only when those that have begun before have returned, a
lock is written in the second for which it was computed, and the store does not fail. -/
def TakesTurn (email : String) (s : LoginState) (a : ℕ × AccountChoice) : LoginCall → Prop
  | .store (.kvGet bucket key) => bucket = accountBucket → key = email →
      a.2.kvFails = false ∧ ((a.1, email) ∉ s.log →
        ∀ x ∈ s.log, x.2 = email → s.threads[x.1]?.any (·.result?.isSome) = true)
  | .store (.kvSet bucket key (.rateLimit entry) _) => bucket = accountBucket → key = email →
      a.2.kvFails = false ∧ (entry.lockedUntil = 0 ∨
        entry.lockedUntil = unix (s.state.world.now + a.2.elapsed) + accountLockoutSeconds)
  | _ => True

instance (email : String) (s : LoginState) (a : ℕ × AccountChoice) (c : LoginCall) :
    Decidable (TakesTurn email s a c) := by
  unfold TakesTurn
  split <;> infer_instance

def InTurn (email : String) (s : LoginState) (a : ℕ × AccountChoice) : Prop :=
  ∀ c ∈ s.threads[a.1]?.bind Prog.next?, TakesTurn email s a c
  deriving Decidable

/-! ## The protocol of an attempt -/

def AccountRateLimitEntry.incremented (entry : AccountRateLimitEntry) (now : ℤ) :
    AccountRateLimitEntry :=
  ⟨entry.failedCount + 1,
    if entry.failedCount + 1 ≥ maxFailedAttempts then unix now + accountLockoutSeconds
    else entry.lockedUntil⟩

/-- How far an attempt has come: before it looks at the account, with a lock at hand, past the
check, with a wrong password, with the entry that it counts up, with the entry that it writes; and
past the account, with the accounts whose entries it has read. -/
inductive LoginStage
  | idle
  | checking (lockedUntil : ℤ)
  | checked | failed
  | counting (entry : AccountRateLimitEntry)
  | writing (entry : AccountRateLimitEntry)
  | accepted (reads : List String)
  | ended (reads : List String)

def LoginStage.underWay : LoginStage → Bool
  | .idle | .ended _ | .accepted _ => false
  | _ => true

def LoginStage.isAccepted : LoginStage → Bool
  | .accepted _ => true
  | _ => false

def readsOf : String × LoginStage → List String
  | (_, .idle) => []
  | (email, .checking _) | (email, .checked) | (email, .failed) => [email]
  | (email, .counting _) | (email, .writing _) => [email, email]
  | (_, .accepted reads) | (_, .ended reads) => reads

inductive LoginMove :
    String × LoginStage → (c : LoginCall) → LoginAnswer c → String × LoginStage → Prop
  | lookUp {email m r} :
    LoginMove (email, .idle) (.store (.getUserByEmail m)) r (email, .idle)
  | pass {email r} (hr : ∀ entry, r = .ok (.rateLimit entry) → entry.lockedUntil = 0) :
    LoginMove (email, .idle) (.store (.kvGet accountBucket email)) r (email, .checked)
  | meet {email entry} (hlock : entry.lockedUntil ≠ 0) :
    LoginMove (email, .idle) (.store (.kvGet accountBucket email)) (.ok (.rateLimit entry))
      (email, .checking entry.lockedUntil)
  | judge {email lockedUntil now} :
    LoginMove (email, .checking lockedUntil) (.store .now) now
      (email, if unix now < lockedUntil then .ended [email] else .checked)
  | verify {email passwordHash password b} :
    LoginMove (email, .checked) (.verify email passwordHash password) b
      (email, if b then .accepted [email] else .failed)
  | read {email entry} :
    LoginMove (email, .failed) (.store (.kvGet accountBucket email)) (.ok (.rateLimit entry))
      (email, .counting entry)
  | begin {email} :
    LoginMove (email, .failed) (.store (.kvGet accountBucket email)) (.error .notFound)
      (email, .counting ⟨0, 0⟩)
  | skip {email r} (hr : r ≠ .error .notFound ∧ ∀ entry, r ≠ .ok (.rateLimit entry)) :
    LoginMove (email, .failed) (.store (.kvGet accountBucket email)) r (email, .ended [email, email])
  | count {email entry now} :
    LoginMove (email, .counting entry) (.store .now) now
      (email, if entry.lockedUntil > 0 then .ended [email, email]
        else .writing (entry.incremented now))
  | write {email entry r} :
    LoginMove (email, .writing entry)
      (.store (.kvSet accountBucket email (.rateLimit entry) accountLockoutSeconds)) r
      (email, .ended [email, email])
  | retryAfter {email reads now} :
    LoginMove (email, .ended reads) (.store .now) now (email, .ended reads)
  /-- A right password is not among the attempts. -/
  | free {email reads c r} :
    LoginMove (email, .accepted reads) c r (email, .accepted (reads ++ (noteLogin c r).toList))

def LoginDone (g : String × LoginStage) (_ : AccountReply) : Prop := g.2.underWay = false

variable {email : String}

lemma follows_check (hkv : h.kv = true) :
    Follows LoginMove
      (fun g locked => g = (email, if locked.isSome then .ended [email] else .checked))
      (lift (checkPerAccountRateLimit h email)) (email, .idle) := by
  unfold checkPerAccountRateLimit
  rw [if_neg (by simp [hkv])]
  intro r
  match r with
  | .error e => exact ⟨_, .pass nofun, rfl⟩
  | .ok (.revoked _) | .ok (.session _) | .ok (.accessRevocation _) => exact ⟨_, .pass nofun, rfl⟩
  | .ok (.rateLimit entry) =>
    by_cases hlock : entry.lockedUntil = 0
    · refine ⟨_, .pass ?_, ?_⟩
      · intro entry' heq
        cases heq
        exact hlock
      · show Follows _ _ (lift (if entry.lockedUntil = 0 then pure none else _)) _
        rw [if_pos hlock]
        rfl
    · refine ⟨_, .meet hlock, ?_⟩
      show Follows _ _ (lift (if entry.lockedUntil = 0 then pure none else _)) _
      rw [if_neg hlock]
      intro now
      refine ⟨_, .judge, ?_⟩
      show _ = (email, if (if unix now < entry.lockedUntil then some entry.lockedUntil
        else none).isSome then _ else _)
      split <;> rfl

lemma follows_increment (hkv : h.kv = true) :
    Follows LoginMove (fun g _ => g = (email, .ended [email, email]))
      (lift (incrementPerAccountRateLimit h email)) (email, .failed) := by
  unfold incrementPerAccountRateLimit
  rw [if_neg (by simp [hkv])]
  intro r
  match r with
  | .error .failed | .ok (.revoked _) | .ok (.session _) | .ok (.accessRevocation _) =>
    exact ⟨_, .skip ⟨nofun, nofun⟩, rfl⟩
  | .error .notFound => exact ⟨_, .begin, fun now => ⟨_, .count, fun _ => ⟨_, .write, rfl⟩⟩⟩
  | .ok (.rateLimit entry) =>
    refine ⟨_, .read, fun now => ⟨_, .count, ?_⟩⟩
    by_cases hlock : entry.lockedUntil > 0
    · simp only [hlock, if_true]
      rfl
    · simp only [hlock, if_false]
      exact fun _ => ⟨_, .write, rfl⟩

lemma follows_free {p : LoginProg AccountReply} {reads : List String} :
    Follows LoginMove LoginDone p (email, .accepted reads) := by
  induction p generalizing reads with
  | ret a => rfl
  | call c k ih => exact fun r => ⟨_, .free, ih r⟩

lemma follows_authenticateSteps (hkv : h.kv = true) (req : LoginRequest) (user : UserRow) :
    Follows LoginMove LoginDone (authenticateSteps h req user) (req.email, .idle) := by
  refine (follows_check hkv).bind ?_
  rintro _ (_ | until_) rfl
  · intro b
    refine ⟨_, .verify, ?_⟩
    cases b with
    | true => exact follows_free
    | false =>
      unfold lift
      rw [implement_bind]
      refine (follows_increment hkv).bind ?_
      rintro _ _ rfl
      rfl
  · exact fun now => ⟨_, .retryAfter, rfl⟩

lemma follows_loginSteps (hkv : h.kv = true) (req : Option LoginRequest) :
    Follows LoginMove LoginDone (loginSteps h req) ((req.map (·.email)).getD "", .idle) := by
  cases req with
  | none => rfl
  | some req =>
    unfold loginSteps
    dsimp only
    split
    · rfl
    split
    · rfl
    intro r
    refine ⟨_, .lookUp, ?_⟩
    rcases r with (_ | _) | user
    · rfl
    · rfl
    · exact follows_authenticateSteps hkv req user

lemma LoginMove.readsOf_eq {g g' : String × LoginStage} {c : LoginCall} {r : LoginAnswer c}
    (hmove : LoginMove g c r g') : readsOf g' = readsOf g ++ (noteLogin c r).toList := by
  cases hmove with
  | judge | count => split <;> rfl
  | @verify _ _ _ b => cases b <;> rfl
  | retryAfter => exact (append_nil _).symm
  | _ => rfl

variable {e e' : String}

lemma LoginMove.wrong {g g' : LoginStage} {c : LoginCall} {r : LoginAnswer c}
    (hmove : LoginMove (e, g) c r (e', g')) (hg : g.isAccepted = false) {s s' : LoginWorld}
    {o : AccountChoice} (hexec : loginExec h c s o = some (r, s')) :
    e = e' ∧ g'.isAccepted = false := by
  cases hmove with
  | judge | count => exact ⟨rfl, by split <;> rfl⟩
  | verify =>
    obtain ⟨-, heq⟩ := ite_none_left_eq_some.mp hexec
    cases heq
    exact ⟨rfl, rfl⟩
  | free => cases hg
  | _ => exact ⟨rfl, rfl⟩

lemma LoginMove.begins {g g' : LoginStage} {c : LoginCall} {r : LoginAnswer c}
    (hmove : LoginMove (e, g) c r (e', g')) (hg : g.underWay = false) (hg' : g'.underWay = true) :
    g = .idle ∧ c = .store (.kvGet accountBucket e) := by
  cases hmove with
  | pass | meet => exact ⟨rfl, rfl⟩
  | lookUp | retryAfter | free => cases hg'
  | _ => cases hg

/-! ## Taking turns -/

def counted : Option AuthValue → ℤ
  | some (.rateLimit entry) => entry.failedCount
  | _ => 0

/-- An entry that counts up to four failures, or locks the account until it expires. -/
def AccountRateLimitEntry.Proper (entry : AccountRateLimitEntry) (expiresAt : ℤ) : Prop :=
  1 ≤ entry.failedCount ∧ (entry.failedCount < maxFailedAttempts ∧ entry.lockedUntil = 0 ∨
    entry.failedCount = maxFailedAttempts ∧ entry.lockedUntil = expiresAt)

structure Sane (email : String) (w : AccountWorld) : Prop where
  epoch : 0 ≤ w.now
  proper : ∀ v x, w.kv.store accountBucket email = some ⟨v, x⟩ → (0 < x → unix w.now < x) →
    0 < x ∧ ∃ entry, v = .rateLimit entry ∧ entry.Proper x

/-- The failures, as far as the attempt that is under way has come: all of them are counted, or its
own is yet to be counted, and then the account is not locked. -/
def Bounded (v : Option AuthValue) (failures : ℕ) : LoginStage → Prop
  | .idle | .ended _ => failures ≤ counted v
  | .checking lockedUntil => failures ≤ counted v ∧ lockedUntil ≠ 0 ∧
      ∀ entry, v = some (.rateLimit entry) → entry.lockedUntil = lockedUntil
  | .checked => failures ≤ counted v ∧
      ∀ entry, v = some (.rateLimit entry) → entry.lockedUntil = 0
  | .failed => failures ≤ counted v + 1 ∧
      ∀ entry, v = some (.rateLimit entry) → entry.lockedUntil = 0
  | .counting entry => failures ≤ entry.failedCount + 1 ∧ 0 ≤ entry.failedCount ∧
      entry.failedCount < maxFailedAttempts ∧ entry.lockedUntil = 0
  | .writing entry => failures ≤ entry.failedCount ∧ entry.Proper entry.lockedUntil ∧
      (entry.failedCount = maxFailedAttempts → entry.lockedUntil ≠ 0)
  | .accepted _ => False

variable {w : AccountWorld} {v : Option AuthValue} {n : ℕ} {g g' : LoginStage} {s s' : LoginWorld}
  {c : LoginCall} {r : LoginAnswer c} {o : AccountChoice}

lemma Bounded.expired (hb : Bounded v n g) : Bounded none 0 g := by
  cases g with
  | idle | ended => exact le_refl _
  | checking => exact ⟨le_refl _, hb.2.1, nofun⟩
  | checked => exact ⟨le_refl _, nofun⟩
  | failed => exact ⟨Int.zero_le_ofNat 1, nofun⟩
  | counting entry => exact ⟨Int.le_add_one hb.2.1, hb.2⟩
  | writing entry => exact ⟨zero_le_one.trans hb.2.1.1, hb.2⟩
  | accepted => exact hb.elim

lemma Bounded.of_idle (hb : Bounded v n g) (hg : g.underWay = false) : (n : ℤ) ≤ counted v := by
  cases g with
  | idle | ended => exact hb
  | accepted => exact hb.elim
  | _ => cases hg

lemma counter_eq_some {v : AuthValue} : w.counter email = some v ↔
    ∃ x, w.kv.store accountBucket email = some ⟨v, x⟩ ∧ (0 < x → unix w.now < x) := by
  unfold AccountWorld.counter KVTable.get KVStore.get
  cases hrow : w.kv.store accountBucket email with
  | none => simp [Except.toOption]
  | some row =>
    obtain ⟨v', x⟩ := row
    dsimp only
    split
    case isTrue hexp =>
      constructor
      · nofun
      · rintro ⟨x', heq, hlive⟩
        cases heq
        exact absurd (hlive hexp.1) (not_lt.mpr hexp.2)
    case isFalse hexp =>
      simp only [Except.toOption, some.injEq, KVEntry.mk.injEq]
      constructor
      · rintro rfl
        exact ⟨x, ⟨rfl, rfl⟩, fun hx => lt_of_not_ge fun hge => hexp ⟨hx, hge⟩⟩
      · rintro ⟨x', ⟨rfl, rfl⟩, -⟩
        rfl

lemma get_counter (w : AccountWorld) (email : String) :
    w.kv.get (unix w.now) accountBucket email =
      match w.counter email with
      | some v => .ok v
      | none => .error .notFound := by
  unfold AccountWorld.counter KVTable.get KVStore.get
  split
  · rfl
  · split <;> rfl

lemma Sane.of_counter (hs : Sane email w) {v : AuthValue} (hv : w.counter email = some v) :
    ∃ entry x, v = .rateLimit entry ∧ 0 < x ∧ unix w.now < x ∧ entry.Proper x := by
  obtain ⟨x, hrow, hlive⟩ := counter_eq_some.mp hv
  obtain ⟨hx, entry, rfl, hproper⟩ := hs.proper v x hrow hlive
  exact ⟨entry, x, rfl, hx, hlive hx, hproper⟩

lemma Sane.wait (hs : Sane email w) (elapsed : ℕ) : Sane email (w.wait elapsed) where
  epoch := Int.add_nonneg hs.epoch (Int.natCast_nonneg _)
  proper v x hrow hlive := hs.proper v x hrow fun hx =>
    (unix_mono (Int.le_add_of_nonneg_right (Int.natCast_nonneg _))).trans_lt (hlive hx)

lemma Bounded.wait (elapsed : ℕ) (hb : Bounded (s.world.counter email) (s.failures email) g) :
    Bounded ((s.wait elapsed).world.counter email) ((s.wait elapsed).failures email) g := by
  show Bounded ((s.world.wait elapsed).counter email) (ite _ _ _) g
  cases hafter : (s.world.wait elapsed).counter email with
  | some v =>
    obtain ⟨x, hrow, hlive⟩ := counter_eq_some.mp hafter
    have hbefore : s.world.counter email = some v := counter_eq_some.mpr ⟨x, hrow, fun hx =>
      (unix_mono (Int.le_add_of_nonneg_right (Int.natCast_nonneg _))).trans_lt (hlive hx)⟩
    rw [if_neg (by simp), ← hbefore]
    exact hb
  | none =>
    cases hbefore : s.world.counter email with
    | none =>
      rw [if_neg (by simp), ← hbefore]
      exact hb
    | some v =>
      rw [if_pos (by simp)]
      exact hb.expired

/-- The account is left alone. -/
structure Apart (email : String) (s s' : LoginWorld) : Prop where
  now : s'.world.now = s.world.now
  row : s'.world.kv.store accountBucket email = s.world.kv.store accountBucket email
  failures : s'.failures email = s.failures email

lemma Apart.counter (h : Apart email s s') : s'.world.counter email = s.world.counter email := by
  unfold AccountWorld.counter KVTable.get KVStore.get
  rw [h.row, h.now]

lemma Apart.sane (h : Apart email s s') (hs : Sane email s.world) : Sane email s'.world :=
  ⟨h.now ▸ hs.epoch, h.now ▸ h.row ▸ hs.proper⟩

lemma apart_of_move (hmove : LoginMove (e, g) c r (e', g'))
    (hg : g.isAccepted = false) (hother : e ≠ email ∨ g.underWay = false)
    (hexec : act h c s o = some (r, s')) : Apart email s s' := by
  cases hmove with
  | verify =>
    obtain ⟨-, heq⟩ := ite_none_left_eq_some.mp hexec
    cases heq
    refine ⟨rfl, rfl, update_of_ne ?_ _ _⟩
    exact (hother.resolve_right nofun).symm
  | write =>
    have hne := hother.resolve_right nofun
    simp only [act, perform] at hexec
    split at hexec
    · obtain ⟨-, rfl⟩ := answer_inj hexec
      exact ⟨rfl, rfl, rfl⟩
    obtain ⟨-, rfl⟩ := answer_inj hexec
    refine ⟨rfl, ?_, rfl⟩
    rw [KVTable.store_set]
    exact KVStore.set_of_ne _ _ _ _ (.inr hne.symm)
  | free => cases hg
  | _ =>
    obtain ⟨-, rfl⟩ := answer_inj hexec
    exact ⟨rfl, rfl, rfl⟩

lemma answer_of_get {r : Except KVError AuthValue} (hfails : o.kvFails = false)
    (hexec : act h (.store (.kvGet accountBucket email)) s o = some (r, s')) :
    s' = s ∧ (∀ v, r = .ok v ↔ s.world.counter email = some v) ∧
      (r = .error .notFound ↔ s.world.counter email = none) := by
  simp only [act, perform, hfails, Bool.false_eq_true, if_false, get_counter] at hexec
  cases hexec
  cases s.world.counter email with
  | none => simp
  | some v => simp

lemma sane_of_write {entry : AccountRateLimitEntry} {r : Except KVError Unit}
    (hs : Sane email s.world) (hb : Bounded (s.world.counter email) (s.failures email) (.writing entry))
    (hfails : o.kvFails = false) (hlock : entry.lockedUntil = 0 ∨
      entry.lockedUntil = unix s.world.now + accountLockoutSeconds)
    (hexec : act h (.store (.kvSet accountBucket email (.rateLimit entry) accountLockoutSeconds)) s o =
      some (r, s')) :
    Sane email s'.world ∧ s'.world.counter email = some (.rateLimit entry) ∧
      s'.failures = s.failures := by
  have hnow : 0 ≤ unix s.world.now := Int.ediv_nonneg hs.epoch (by decide)
  simp only [act, perform, hfails, Bool.false_eq_true, if_false] at hexec
  cases hexec
  have hrow : ((s.world.kv.set (unix s.world.now) accountBucket email (.rateLimit entry)
      accountLockoutSeconds).store accountBucket email) =
        some ⟨.rateLimit entry, unix s.world.now + accountLockoutSeconds⟩ := by
    rw [KVTable.store_set, KVStore.set_self, if_pos (by decide)]
  have hlater : unix s.world.now < unix s.world.now + accountLockoutSeconds :=
    Int.lt_add_of_pos_right _ (by decide)
  refine ⟨⟨hs.epoch, ?_⟩, counter_eq_some.mpr ⟨_, hrow, fun _ => hlater⟩, rfl⟩
  intro v x hvx _
  cases hrow.symm.trans hvx
  refine ⟨hnow.trans_lt hlater, entry, rfl, hb.2.1.1, ?_⟩
  rcases hb.2.1.2 with hless | ⟨hfive, -⟩
  · exact .inl hless
  · exact .inr ⟨hfive, hlock.resolve_left (hb.2.2 hfive)⟩

lemma bounded_move {st : LoginState} {a : ℕ × AccountChoice}
    (hs : Sane email (st.state.wait a.2.elapsed).world)
    (hb : Bounded ((st.state.wait a.2.elapsed).world.counter email)
      ((st.state.wait a.2.elapsed).failures email) g)
    (hmove : LoginMove (email, g) c r (e', g')) (hturn : TakesTurn email st a c)
    (hexec : loginExec h c st.state a.2 = some (r, s')) :
    Sane email s'.world ∧ Bounded (s'.world.counter email) (s'.failures email) g' := by
  have hnow : 0 ≤ unix (st.state.wait a.2.elapsed).world.now := Int.ediv_nonneg hs.epoch (by decide)
  cases hmove with
  | lookUp | retryAfter =>
    cases hexec
    exact ⟨hs, hb⟩
  | pass hr =>
    obtain ⟨rfl, hok, -⟩ := answer_of_get (hturn rfl rfl).1 hexec
    exact ⟨hs, hb, fun entry hv => hr entry ((hok _).mpr hv)⟩
  | meet hlock =>
    obtain ⟨rfl, hok, -⟩ := answer_of_get (hturn rfl rfl).1 hexec
    refine ⟨hs, hb, hlock, fun entry hv => ?_⟩
    cases hv.symm.trans ((hok _).mp rfl)
    rfl
  | judge =>
    cases hexec
    refine ⟨hs, ?_⟩
    split
    case isTrue => exact hb.1
    case isFalse hpast =>
      refine ⟨hb.1, fun entry hv => ?_⟩
      obtain ⟨entry', x, heq, -, hlive, -, hproper⟩ := hs.of_counter hv
      cases heq
      rcases hproper with ⟨-, hfree⟩ | ⟨-, hx⟩
      · exact hfree
      · rw [hb.2.2 entry hv] at hx
        exact absurd (hx ▸ hlive) hpast
  | verify =>
    obtain ⟨-, heq⟩ := ite_none_left_eq_some.mp hexec
    cases heq
    refine ⟨hs, ?_, hb.2⟩
    simp only [LoginWorld.fail, update_self]
    exact Int.add_le_add_right hb.1 1
  | read =>
    obtain ⟨rfl, hok, -⟩ := answer_of_get (hturn rfl rfl).1 hexec
    have hv := (hok _).mp rfl
    have hfree := hb.2 _ hv
    obtain ⟨entry', x, heq, hx, -, hpos, hproper⟩ := hs.of_counter hv
    cases heq
    refine ⟨hs, ?_, zero_le_one.trans hpos, ?_, hfree⟩
    · simpa [hv, counted] using hb.1
    · rcases hproper with ⟨hless, -⟩ | ⟨-, hlock⟩
      · exact hless
      · exact absurd (hlock.symm.trans hfree) hx.ne'
  | begin =>
    obtain ⟨rfl, -, hnone⟩ := answer_of_get (hturn rfl rfl).1 hexec
    refine ⟨hs, ?_, le_refl _, by decide, rfl⟩
    simpa [hnone.mp rfl, counted] using hb.1
  | skip hr =>
    obtain ⟨rfl, hok, hnone⟩ := answer_of_get (hturn rfl rfl).1 hexec
    cases hv : (st.state.wait a.2.elapsed).world.counter email with
    | none => exact absurd (hnone.mpr hv) hr.1
    | some v =>
      obtain ⟨entry, -, rfl, -⟩ := hs.of_counter hv
      exact absurd ((hok _).mpr hv) (hr.2 entry)
  | @count _ entry =>
    cases hexec
    obtain ⟨hle, hnonneg, hless, hfree⟩ := hb
    refine ⟨hs, ?_⟩
    rw [if_neg (by omega)]
    refine ⟨hle, ⟨Int.le_add_of_nonneg_left hnonneg, ?_⟩, ?_⟩
    · unfold AccountRateLimitEntry.incremented
      split
      case isTrue hge => exact .inr ⟨le_antisymm hless hge, rfl⟩
      case isFalse hlt => exact .inl ⟨lt_of_not_ge hlt, hfree⟩
    · intro hfive
      simp only [AccountRateLimitEntry.incremented] at hfive ⊢
      rw [if_pos hfive.ge]
      simp only [accountLockoutSeconds]
      omega
  | write =>
    obtain ⟨hfails, hlock⟩ := hturn rfl rfl
    obtain ⟨hs', hcounter, hfailures⟩ := sane_of_write hs hb hfails hlock hexec
    refine ⟨hs', ?_⟩
    rw [hcounter, hfailures]
    exact hb.1
  | free => exact hb.elim

lemma Bounded.le_max (hs : Sane email w) (hb : Bounded (w.counter email) n g) :
    (n : ℤ) ≤ maxFailedAttempts := by
  have hcounted : counted (w.counter email) ≤ maxFailedAttempts ∧
      ((∀ entry, w.counter email = some (.rateLimit entry) → entry.lockedUntil = 0) →
        counted (w.counter email) < maxFailedAttempts) := by
    cases hv : w.counter email with
    | none => exact ⟨by decide, fun _ => by decide⟩
    | some v =>
      obtain ⟨entry, x, rfl, hx, -, -, ⟨hless, -⟩ | ⟨hfive, hlock⟩⟩ := hs.of_counter hv
      · exact ⟨hless.le, fun _ => hless⟩
      · exact ⟨hfive.le, fun hfree => absurd (hlock.symm.trans (hfree entry rfl)) hx.ne'⟩
  cases g with
  | idle | ended => exact hb.trans hcounted.1
  | checking | checked => exact hb.1.trans hcounted.1
  | failed => exact hb.1.trans (hcounted.2 hb.2)
  | counting => exact hb.1.trans hb.2.2.1
  | writing => exact hb.1.trans (hb.2.1.2.elim (fun hless => hless.1.le) fun hfive => hfive.1.le)
  | accepted => exact hb.elim

/-! ## Every run -/

/-- The failures are bounded for the one attempt at the account that may be under way. -/
def Held (email : String) (s : LoginWorld) (stages : List (String × LoginStage)) : Prop :=
  Sane email s.world ∧ ∃ i g,
    stages[i]?.getD (email, .idle) = (email, g) ∧
    Bounded (s.world.counter email) (s.failures email) g ∧
    ∀ (j : ℕ) (g' : LoginStage), j ≠ i → stages[j]? = some (email, g') → g'.underWay = false

/-- The attempts are in their stages, no password was right, and the failures are bounded. -/
structure LockInv (email : String) (s : LoginState) (stages : List (String × LoginStage)) : Prop where
  tracks : Tracks LoginMove LoginDone s.threads stages
  recorded : Recorded readsOf s.log stages
  wrong : ∀ x ∈ stages, x.2.isAccepted = false
  held : Held email s.state stages

variable {s s' : LoginState} {stages : List (String × LoginStage)} {a : ℕ × AccountChoice}

lemma LockInv.idle_of_returned (hinv : LockInv email s stages) {i : ℕ}
    (hg : stages[i]?.getD (email, .idle) = (email, g))
    (hall : ∀ x ∈ s.log, x.2 = email → s.threads[x.1]?.any (·.result?.isSome) = true) :
    g.underWay = false := by
  cases hi : stages[i]? with
  | none =>
    rw [hi] at hg
    cases hg
    rfl
  | some x =>
    rw [hi] at hg
    obtain rfl : x = (email, g) := hg
    by_contra hunder
    rw [Bool.not_eq_false] at hunder
    have hmem : (i, email) ∈ s.log := by
      refine (hinv.recorded.mem_iff hi).mpr ?_
      cases g with
      | idle | ended | accepted => cases hunder
      | _ => exact mem_cons_self
    have hret := hall _ hmem rfl
    cases hp : s.threads[i]? with
    | none => rw [hp] at hret; cases hret
    | some p =>
      rw [hp] at hret
      obtain ⟨reply, hreply⟩ := isSome_iff_exists.mp hret
      obtain rfl := Prog.result?_eq_some hreply
      have hdone : g.underWay = false := hinv.tracks.follows i _ _ hp hi
      exact Bool.false_ne_true (hdone.symm.trans hunder)

lemma lockInv_step (hinv : LockInv email s stages) (hturn : InTurn email s a)
    (hstep : logStep (loginExec h) noteLogin s a = some s') :
    ∃ g', LockInv email s' (stages.set a.1 g') := by
  obtain ⟨c, k, r, ⟨e, g⟩, ⟨e', g'⟩, hi, hg, hexec, hmove, hlog, htracks⟩ :=
    hinv.tracks.step_logged hstep
  have hc : TakesTurn email s a c := hturn c (by simp [hi, Prog.next?])
  have hwrong := hinv.wrong _ (mem_of_getElem? hg)
  obtain ⟨hs, i, g0, hi0, hb, hothers⟩ := hinv.held
  have hs := hs.wait a.2.elapsed
  have hb := hb.wait a.2.elapsed
  obtain ⟨rfl, hwrong'⟩ := hmove.wrong hwrong hexec
  refine ⟨(e, g'), htracks, hlog ▸ hinv.recorded.step hg hmove.readsOf_eq,
    forall_set hinv.wrong hwrong', ?_⟩
  by_cases hown : e = email ∧ (a.1 = i ∨ g'.underWay = true)
  · obtain ⟨rfl, hown⟩ := hown
    have hbg : Bounded ((s.state.wait a.2.elapsed).world.counter e)
        ((s.state.wait a.2.elapsed).failures e) g ∧
        ∀ j g1, j ≠ a.1 → stages[j]? = some (e, g1) → g1.underWay = false := by
      by_cases hai : a.1 = i
      · subst hai
        rw [hg] at hi0
        cases hi0
        exact ⟨hb, hothers⟩
      obtain ⟨rfl, rfl⟩ := hmove.begins (hothers _ _ hai hg) (hown.resolve_left hai)
      have hg0 := hinv.idle_of_returned hi0 ((hc rfl rfl).2 fun hmem =>
        nomatch (hinv.recorded.mem_iff hg).mp hmem)
      refine ⟨hb.of_idle hg0, fun j g1 hj hg1 => ?_⟩
      by_cases hji : j = i
      · subst hji
        rw [hg1] at hi0
        cases hi0
        exact hg0
      · exact hothers j g1 hji hg1
    obtain ⟨hs', hb'⟩ := bounded_move hs hbg.1 hmove hc hexec
    refine ⟨hs', a.1, g', ?_, hb', fun j g1 hj hg1 => ?_⟩
    · rw [getElem?_set_self hg]
      rfl
    · rw [getElem?_set_ne hj.symm] at hg1
      exact hbg.2 j g1 hj hg1
  · rw [not_and_or, not_or, Bool.not_eq_true] at hown
    have hai : a.1 ≠ i := by
      rintro rfl
      rw [hg] at hi0
      cases hi0
      exact hown.elim (fun hne => hne rfl) fun h => h.1 rfl
    have hother : e ≠ email ∨ g.underWay = false := by
      refine or_iff_not_imp_left.mpr fun heq => ?_
      rw [not_not] at heq
      subst heq
      exact hothers _ _ hai hg
    have hapart := apart_of_move hmove hwrong hother hexec
    refine ⟨hapart.sane hs, i, g0, ?_, ?_, fun j g1 hj hg1 => ?_⟩
    · rw [getElem?_set_ne hai]
      exact hi0
    · rw [hapart.counter, hapart.failures]
      exact hb
    rcases getElem?_set hg1 with ⟨-, heq⟩ | ⟨-, hg1⟩
    · cases heq
      exact (hown.resolve_left fun hne => hne rfl).2
    · exact hothers j g1 hj hg1

/-- **The lockout of an account.** However wrong attempts are interleaved, while those at the
account take turns: between two moments at which it is not locked and its counter begins anew, at
most five passwords are found wrong. -/
theorem lockout_kept (h : AccountHandler) (requests : List (Option LoginRequest)) (email : String)
    (w : AccountWorld) (as : List (ℕ × AccountChoice)) (s : LoginState) (hkv : h.kv = true)
    (hepoch : 0 ≤ w.now) (hfresh : w.counter email = none)
    (hguard : Along (logStep (loginExec h) noteLogin) (InTurn email) (logins h requests w) as)
    (hrun : run (logStep (loginExec h) noteLogin) (logins h requests w) as = some s) :
    s.state.failures email ≤ 5 := by
  have hstart : LockInv email (logins h requests w)
      (requests.map fun req => ((req.map (·.email)).getD "", .idle)) := by
    refine ⟨tracks_map fun req _ => follows_loginSteps hkv req, recorded_nil ?_, ?_, ⟨hepoch, ?_⟩,
      requests.length, .idle, ?_, ?_, ?_⟩
    · simp [readsOf]
    · simp [LoginStage.isAccepted]
    · intro v x hrow hlive
      cases hfresh.symm.trans (counter_eq_some.mpr ⟨x, hrow, hlive⟩)
    · rw [getElem?_eq_none (by simp)]
      rfl
    · show ((0 : ℕ) : ℤ) ≤ counted (w.counter email)
      rw [hfresh]
      exact le_refl _
    · intro j g' _ hj
      rw [getElem?_map, map_eq_some_iff] at hj
      obtain ⟨req, -, heq⟩ := hj
      cases heq
      rfl
  obtain ⟨stages, hinv⟩ := invariant_of_along (I := fun s => ∃ stages, LockInv email s stages)
    (fun s a s' ⟨stages, hinv⟩ hturn hstep => ⟨_, (lockInv_step hinv hturn hstep).choose_spec⟩)
    ⟨_, hstart⟩ hguard hrun
  obtain ⟨hs, i, g, -, hb, -⟩ := hinv.held
  exact Int.ofNat_le.mp (hb.le_max hs)

def guesses : List (Option LoginRequest) :=
  replicate 6 (some ⟨"alice@example.org", "guess", "", ⟨"203.0.113.9", "browser"⟩⟩)

/-- Five attempts from beginning to end, and one that finds the account locked. -/
def oneAfterTheOther : List (ℕ × AccountChoice) :=
  ((range 5).flatMap (replicate 6) ++ replicate 4 5).map fun i => (i, {})

/-- Every attempt looks at the account before the first failure is counted. -/
def allAtOnce : List (ℕ × AccountChoice) :=
  (replicate 3 (range 6)).flatten.map fun i => (i, {})

theorem lockout_kept_oneAfterTheOther :
    ∃ s, run (logStep (loginExec openHandler) noteLogin) (logins openHandler guesses aliceOnly)
        oneAfterTheOther = some s ∧
      s.threads[5]?.bind Prog.result? = some (.locked 900) ∧
      s.state.failures "alice@example.org" ≤ 5 := by
  refine exists_of_run_and (by decide +kernel) fun s hrun _ => ?_
  exact lockout_kept _ _ _ _ _ s rfl (le_refl _) (by decide +kernel) (by decide +kernel) hrun

theorem lockout_passed :
    ∃ s, run (logStep (loginExec openHandler) noteLogin) (logins openHandler guesses aliceOnly)
        allAtOnce = some s ∧
      aliceOnly.counter "alice@example.org" = none ∧
      ¬s.state.failures "alice@example.org" ≤ 5 := by decide +kernel

end DeployMonster.Handlers.Accounts
