import DeployMonster.Core.Text
import DeployMonster.DB.KV
import DeployMonster.DB.Tables
import DeployMonster.Library.Program
import DeployMonster.Library.SHA256

/-!
# TOTP codes and backup codes

`internal/auth/totp.go` and the validation of `internal/auth/totp_service.go`. What was accepted
last is read from the store and written back, in calls of their own.
-/

namespace DeployMonster.Auth

open Clock DB Program Text

/-- The service. The primitives of other packages are functions of it. -/
structure TOTPService where
  /-- `Decrypt` of the vault, when there is one. -/
  vault : Option (String → Option String)
  /-- Whether the replay store is set. -/
  replay : Bool
  /-- Whether the store keeps backup codes. -/
  backupStore : Bool
  /-- `base32.StdEncoding.DecodeString`. -/
  base32 : String → Option (List UInt8)
  hmacSHA1 : (key message : List UInt8) → List UInt8
  /-- `bcrypt.CompareHashAndPassword`. -/
  bcrypt : (hash password : String) → Bool

/-- `DefaultTOTPConfig.Period`, in seconds. -/
def totpPeriod : ℤ := 30

def totpReplayBucket : String := "totp_last_step"

/-- `binary.BigEndian.Uint32`. -/
def uint32 (bytes : List UInt8) : ℕ := bytes.foldl (fun n b => 256 * n + b.toNat) 0

variable (svc : TOTPService)

/-- `generateTOTP`: the code of the step in which the time `counter` lies. -/
def generateTOTP (secret : List UInt8) (counter period : ℤ) (digits : ℕ) : String :=
  let msg := SHA256.bigEndian 8 (counter.tdiv period % 2 ^ 64).toNat
  let mac := svc.hmacSHA1 secret msg
  let offset := (mac.getLastD 0).toNat % 16
  let truncated := uint32 ((mac.drop offset).take 4) % 2 ^ 31
  String.ofList ((Nat.toDigits 10 (truncated % 10 ^ digits)).leftpad digits '0')

def secretBytes (secret : String) : Option (List UInt8) :=
  let secret := String.ofList ((trimSpace secret).toList.map Char.toUpper)
  (svc.base32 secret).or (svc.base32 (secret ++ "=="))

/-- The first step of the window around `now` whose code is `token`. -/
def matchedStep (token : String) (secret : List UInt8) (now : ℤ) : Option ℤ :=
  [-1, 0, 1].findSome? fun offset : ℤ =>
    let t := now + offset * totpPeriod
    if token = generateTOTP svc secret t totpPeriod (SHA256.utf8 token).length then
      some (t.tdiv totpPeriod)
    else none

/-- The calls. A write also carries what the validation has read before, which the stores do not
see. -/
inductive TOTPCall
  | now
  | getUser (id : String)
  | kvGet (userID : String)
  | kvSet (userID : String) (read : Option ℤ) (step : ℤ)
  | updateTOTPBackupCodes (userID : String) (read hashes : List String)

@[reducible] def TOTPAnswer : TOTPCall → Type
  | .now => ℤ
  | .getUser _ => Option UserRow
  | .kvGet _ => Except KVError ℤ
  | .kvSet _ _ _ => Except KVError Unit
  | .updateTOTPBackupCodes _ _ _ => Bool

structure TOTPWorld where
  now : ℤ
  kv : KVStore ℤ
  db : Accounts

/-- What the environment decides at a call: how far the clock has moved since the last one, and
whether the call fails. -/
structure TOTPChoice where
  elapsed : ℤ := 0
  fails : Bool := false

def TOTPWorld.wait (w : TOTPWorld) (elapsed : ℤ) : TOTPWorld := { w with now := w.now + elapsed }

def TOTPCall.perform : (c : TOTPCall) → TOTPWorld → Bool → TOTPAnswer c × TOTPWorld
  | .now, w, _ => (unix w.now, w)
  | .getUser id, w, fails => (if fails then none else w.db.getUser id, w)
  | .kvGet userID, w, fails =>
    (if fails then .error .failed else w.kv.get (unix w.now) totpReplayBucket userID, w)
  | .kvSet userID _ step, w, fails =>
    if fails then (.error .failed, w)
    else (.ok (), { w with kv := w.kv.set (unix w.now) totpReplayBucket userID step 0 })
  | .updateTOTPBackupCodes userID _ hashes, w, fails =>
    if fails then (false, w) else (true, { w with db := w.db.updateTOTPBackupCodes userID hashes })

def totpExec (c : TOTPCall) (w : TOTPWorld) (o : TOTPChoice) : Option (TOTPAnswer c × TOTPWorld) :=
  some (c.perform (w.wait o.elapsed) o.fails)

abbrev TOTP := Prog TOTPCall TOTPAnswer

variable (userID : String)

namespace TOTP

def now : TOTP ℤ := Prog.perform TOTPCall.now

def getUser (id : String) : TOTP (Option UserRow) := Prog.perform (TOTPCall.getUser id)

def kvGet : TOTP (Except KVError ℤ) := Prog.perform (TOTPCall.kvGet userID)

def kvSet (read : Option ℤ) (step : ℤ) : TOTP (Except KVError Unit) :=
  Prog.perform (TOTPCall.kvSet userID read step)

def updateTOTPBackupCodes (read hashes : List String) : TOTP Bool :=
  Prog.perform (TOTPCall.updateTOTPBackupCodes userID read hashes)

end TOTP

def validateTOTPStep (token secret : String) : TOTP (Option ℤ) :=
  if (SHA256.utf8 token).length ≠ 6 ∧ (SHA256.utf8 token).length ≠ 8 then return none
  else
    match secretBytes svc secret with
    | none => return none
    | some secret => do
      let now ← TOTP.now
      return matchedStep svc token secret now

/-- The replay check of `validateStoredSecret`. A last step that cannot be read is taken for none,
and a step that cannot be recorded is accepted. -/
def acceptStep (step : ℤ) : TOTP (Option ℤ) := do
  match ← TOTP.kvGet userID with
  | .ok lastStep =>
    if step ≤ lastStep then return none
    else
      let _ ← TOTP.kvSet userID (some lastStep) step
      return some step
  | .error _ =>
    let _ ← TOTP.kvSet userID none step
    return some step

/-- `validateStoredSecret`, with the step that is accepted. -/
def validateStoredSecret (userID code : String) (requireEnabled : Bool) : TOTP (Option ℤ) :=
  match svc.vault with
  | none => return none
  | some decrypt => do
    match ← TOTP.getUser userID with
    | none => return none
    | some user =>
      if user.totpSecret = "" then return none
      else if requireEnabled ∧ ¬user.totpEnabled then return none
      else
        match decrypt user.totpSecret with
        | none => return none
        | some secret =>
          match ← validateTOTPStep svc code secret with
          | none => return none
          | some step =>
            if requireEnabled ∧ svc.replay then acceptStep userID step else return some step

def consumeBackupCode (userID code : String) : TOTP Bool :=
  if code = "" then return false
  else if ¬svc.backupStore then return false
  else do
    match ← TOTP.getUser userID with
    | none => return false
    | some user =>
      if ¬user.totpEnabled ∨ user.totpBackupCodes = [] then return false
      else
        match user.totpBackupCodes.findIdx? (svc.bcrypt · code) with
        | none => return false
        | some i =>
          TOTP.updateTOTPBackupCodes userID user.totpBackupCodes (user.totpBackupCodes.eraseIdx i)

/-- How a code was accepted, if it was. -/
inductive TOTPVerdict
  | refused
  | step (step : ℤ)
  | backupCode
  deriving DecidableEq

/-- `ValidateContext`, which answers true unless the code is refused. -/
def validateContext (userID code : String) : TOTP TOTPVerdict := do
  match ← validateStoredSecret svc userID code true with
  | some step => return .step step
  | none =>
    if ← consumeBackupCode svc userID code then return .backupCode else return .refused

/-!
# One-time codes

Each validation reads before it writes, and neither write looks at what is stored: two validations
that have both read before either writes accept one step, or one backup code, twice.
-/

open StepMachine List Pool Prog

structure ValidationRequest where
  (userID code : String)
  deriving DecidableEq

abbrev Validation := TOTP (ValidationRequest × TOTPVerdict)

def serve (svc : TOTPService) (r : ValidationRequest) : Validation := do
  let verdict ← validateContext svc r.userID r.code
  return (r, verdict)

abbrev ValidationState := TOTPWorld × List Validation

def acceptedStep (userID : String) (step : ℤ) (p : Validation) : Bool :=
  p.result?.any fun x => x.1.userID = userID ∧ x.2 = .step step

def acceptedCode (userID code : String) (p : Validation) : Bool :=
  p.result? = some (⟨userID, code⟩, .backupCode)

def TOTPWorld.lastStep? (w : TOTPWorld) (userID : String) : Option ℤ :=
  (w.kv.get (unix w.now) totpReplayBucket userID).toOption

def TOTPWorld.backupCodes (w : TOTPWorld) (userID : String) : List String :=
  (w.db.getUser userID).elim [] UserRow.totpBackupCodes

/-- A write finds what its validation has read, and a step is recorded without failure. -/
def Undisturbed (w : TOTPWorld) (o : TOTPChoice) : TOTPCall → Prop
  | .kvSet userID read _ => o.fails = false ∧ (w.wait o.elapsed).lastStep? userID = read
  | .updateTOTPBackupCodes userID read _ => o.fails = false → w.backupCodes userID = read
  | _ => True

instance (w : TOTPWorld) (o : TOTPChoice) (c : TOTPCall) : Decidable (Undisturbed w o c) := by
  unfold Undisturbed
  split <;> infer_instance

def UndisturbedStep (s : ValidationState) (a : ℕ × TOTPChoice) : Prop :=
  ∀ p ∈ s.2[a.1]?, ∀ c ∈ p.next?, Undisturbed s.1 a.2 c
  deriving Decidable

/-! ## A validation returns with its write -/

def Writes : TOTPCall → Prop
  | .kvSet .. | .updateTOTPBackupCodes .. => True
  | _ => False

inductive Commit (svc : TOTPService) (r : ValidationRequest) :
    (c : TOTPCall) → TOTPAnswer c → TOTPVerdict → Prop
  | record {read : Option ℤ} {step : ℤ} {answer : Except KVError Unit}
      (hnew : ∀ last ∈ read, last < step) :
      Commit svc r (.kvSet r.userID read step) answer (.step step)
  | consume {read : List String} {i : ℕ} (hi : read.findIdx? (svc.bcrypt · r.code) = some i) :
      Commit svc r (.updateTOTPBackupCodes r.userID read (read.eraseIdx i)) true .backupCode
  | fail {read hashes : List String} :
      Commit svc r (.updateTOTPBackupCodes r.userID read hashes) false .refused

variable {svc : TOTPService} {r : ValidationRequest}

lemma commits_acceptStep (step : ℤ) :
    Commits Writes (fun c answer result => ∃ step, result = some step ∧
      Commit svc r c answer (.step step)) (· = none) (acceptStep r.userID step) := by
  simp only [acceptStep, TOTP.kvGet, TOTP.kvSet, perform_bind]
  refine commits_of_not_write id fun answer => ?_
  rcases answer with e | lastStep
  · exact commits_of_write trivial fun _ => ⟨_, rfl, step, rfl, .record nofun⟩
  dsimp only
  split
  · exact rfl
  case isFalse hlt =>
    refine commits_of_write trivial fun _ => ⟨_, rfl, step, rfl, .record ?_⟩
    rintro last ⟨⟩
    exact Int.not_le.mp hlt

lemma commits_validateTOTPStep (token secret : String) :
    Commits Writes (fun _ _ _ => False) (fun _ => True) (validateTOTPStep svc token secret) := by
  unfold validateTOTPStep
  split
  · exact trivial
  · split
    · exact trivial
    · exact commits_of_not_write id fun _ => trivial

lemma commits_validateStoredSecret (hreplay : svc.replay = true) :
    Commits Writes (fun c answer result => ∃ step, result = some step ∧
      Commit svc r c answer (.step step)) (· = none)
      (validateStoredSecret svc r.userID r.code true) := by
  simp only [validateStoredSecret, TOTP.getUser, perform_bind]
  split
  case h_1 => exact rfl
  case h_2 decrypt _ =>
    refine commits_of_not_write id fun answer => ?_
    rcases answer with _ | user
    · exact rfl
    dsimp only
    split
    · exact rfl
    split
    · exact rfl
    split
    · exact rfl
    case h_2 secret _ =>
      refine (commits_validateTOTPStep r.code secret).bind nofun fun step _ => ?_
      cases step with
      | none => exact rfl
      | some step => simpa [hreplay] using commits_acceptStep step

lemma commits_consumeBackupCode :
    Commits Writes (fun c answer result => Commit svc r c answer
      (if result then .backupCode else .refused)) (· = false)
      (consumeBackupCode svc r.userID r.code) := by
  simp only [consumeBackupCode, TOTP.getUser, perform_bind]
  split
  · exact rfl
  split
  · exact rfl
  refine commits_of_not_write id fun answer => ?_
  rcases answer with _ | user
  · exact rfl
  dsimp only
  split
  · exact rfl
  split
  · exact rfl
  case h_2 i hi =>
    refine commits_of_write trivial fun answer => ⟨answer, rfl, ?_⟩
    cases answer with
    | false => exact .fail
    | true => exact .consume hi

lemma commits_validateContext (hreplay : svc.replay = true) :
    Commits Writes (Commit svc r) (· = .refused) (validateContext svc r.userID r.code) := by
  refine (commits_validateStoredSecret hreplay).bind ?_ ?_
  · rintro c answer _ ⟨step, rfl, hcommit⟩
    exact ⟨_, rfl, hcommit⟩
  rintro _ rfl
  refine commits_consumeBackupCode.bind ?_ ?_
  · intro c answer result hcommit
    cases result with
    | false | true => exact ⟨_, rfl, hcommit⟩
  · rintro _ rfl
    exact rfl

/-- A validation that is under way: it returns with its write, and has made none. -/
def UnderWay (svc : TOTPService) (r : ValidationRequest) : Validation → Prop :=
  Commits Writes (fun c answer x => x.1 = r ∧ Commit svc r c answer x.2) (· = (r, .refused))

lemma commits_serve (hreplay : svc.replay = true) (r : ValidationRequest) :
    UnderWay svc r (serve svc r) := by
  refine (commits_validateContext hreplay).bind ?_ ?_
  · intro c answer verdict hcommit
    exact ⟨_, rfl, rfl, hcommit⟩
  · rintro _ rfl
    exact rfl

/-- What an undisturbed step of a validation of `r` does to the stores, and what is left of the
validation. -/
inductive Effect (svc : TOTPService) (r : ValidationRequest) (w w' : TOTPWorld) :
    Validation → Prop
  | quiet {p : Validation} (hkv : w'.kv = w.kv) (hdb : w'.db = w.db) (hp : UnderWay svc r p) :
      Effect svc r w w' p
  | record {step : ℤ} (hnew : ∀ entry, w.kv totpReplayBucket r.userID = some entry →
        entry.expiresAt = 0 → entry.data < step)
      (hkv : w'.kv = w.kv.set (unix w'.now) totpReplayBucket r.userID step 0) (hdb : w'.db = w.db) :
      Effect svc r w w' (.ret (r, .step step))
  | consume {i : ℕ} (hi : (w.backupCodes r.userID).findIdx? (svc.bcrypt · r.code) = some i)
      (hkv : w'.kv = w.kv)
      (hdb : w'.db = w.db.updateTOTPBackupCodes r.userID ((w.backupCodes r.userID).eraseIdx i)) :
      Effect svc r w w' (.ret (r, .backupCode))

variable {w w' : TOTPWorld} {o : TOTPChoice} {userID : String}

lemma lastStep?_of_entry {entry : KVEntry ℤ}
    (hentry : w.kv totpReplayBucket userID = some entry) (hexpiry : entry.expiresAt = 0) :
    w.lastStep? userID = some entry.data := by
  simp [TOTPWorld.lastStep?, KVStore.get, hentry, hexpiry, Except.toOption]

variable {verdict : TOTPVerdict}

lemma effect_of_commit {c : TOTPCall} {answer : TOTPAnswer c}
    (hcommit : Commit svc r c answer verdict) (hguard : Undisturbed w o c)
    (hexec : totpExec c w o = some (answer, w')) : Effect svc r w w' (.ret (r, verdict)) := by
  cases hcommit with
  | record hnew =>
    obtain ⟨hfails, hread⟩ := hguard
    simp only [totpExec, TOTPCall.perform, hfails] at hexec
    cases hexec
    refine .record (fun entry hentry hexpiry => hnew _ ?_) rfl rfl
    rw [← hread]
    exact lastStep?_of_entry (w := w.wait o.elapsed) hentry hexpiry
  | consume hi =>
    cases hfails : o.fails with
    | true => simp [totpExec, TOTPCall.perform, hfails] at hexec
    | false =>
      simp only [totpExec, TOTPCall.perform, hfails] at hexec
      cases hexec
      obtain rfl := hguard hfails
      exact .consume hi rfl rfl
  | fail =>
    cases hfails : o.fails with
    | true =>
      simp only [totpExec, TOTPCall.perform, hfails] at hexec
      cases hexec
      exact .quiet rfl rfl rfl
    | false => simp [totpExec, TOTPCall.perform, hfails] at hexec

lemma stores_of_not_writes {c : TOTPCall} {answer : TOTPAnswer c} (hc : ¬Writes c)
    (hexec : totpExec c w o = some (answer, w')) : w'.kv = w.kv ∧ w'.db = w.db := by
  cases c with
  | now | getUser | kvGet =>
    cases hexec
    exact ⟨rfl, rfl⟩
  | kvSet | updateTOTPBackupCodes => exact absurd trivial hc

lemma effect_of_exec {c : TOTPCall} {k : TOTPAnswer c → Validation} {answer : TOTPAnswer c}
    (hp : UnderWay svc r (.call c k)) (hguard : Undisturbed w o c)
    (hexec : totpExec c w o = some (answer, w')) : Effect svc r w w' (k answer) := by
  by_cases hc : Writes c
  · obtain ⟨⟨r', verdict⟩, hk, rfl, hcommit⟩ := hp.1 hc answer
    rw [hk]
    exact effect_of_commit hcommit hguard hexec
  · obtain ⟨hkv, hdb⟩ := stores_of_not_writes hc hexec
    exact .quiet hkv hdb (hp.2 hc answer)

/-! ## The invariant -/

/-- From the lists of `w0` on: an accepted step is not after the recorded one and was accepted once,
and the accepted backup codes are missing from the list. -/
structure Spent (svc : TOTPService) (w0 : TOTPWorld) (s : ValidationState) : Prop where
  threads : ∀ p ∈ s.2, (∃ r, UnderWay svc r p) ∨ ∃ x, p = .ret x
  recorded : ∀ userID step, 0 < s.2.countP (acceptedStep userID step) →
    ∃ entry, s.1.kv totpReplayBucket userID = some entry ∧ entry.expiresAt = 0 ∧ step ≤ entry.data
  steps : ∀ userID step, s.2.countP (acceptedStep userID step) ≤ 1
  codes : ∀ userID code, s.2.countP (acceptedCode userID code) +
      (s.1.backupCodes userID).countP (svc.bcrypt · code) ≤
    (w0.backupCodes userID).countP (svc.bcrypt · code)

section

variable {w0 : TOTPWorld} {pool : List Validation} {i : ℕ} {c : TOTPCall}
  {k : TOTPAnswer c → Validation}

lemma backupCodes_congr (hdb : w'.db = w.db) (userID : String) :
    w'.backupCodes userID = w.backupCodes userID := by
  simp only [TOTPWorld.backupCodes, hdb]

variable {j : ℕ}

lemma backupCodes_erase (hdb : w'.db =
      w.db.updateTOTPBackupCodes userID ((w.backupCodes userID).eraseIdx j)) (userID' : String) :
    w'.backupCodes userID' =
      if userID' = userID then (w.backupCodes userID).eraseIdx j else w.backupCodes userID' := by
  simp only [TOTPWorld.backupCodes, hdb, Accounts.updateTOTPBackupCodes, Accounts.getUser,
    Table.find?_update]
  split
  case isTrue heq =>
    subst heq
    cases w.db.users.find? userID' <;> rfl
  case isFalse => rw [Option.map_id']

lemma countP_eraseIdx {hashes : List String} {q : String → Bool}
    (hj : hashes.findIdx? q = some j) : (hashes.eraseIdx j).countP q + 1 = hashes.countP q := by
  obtain ⟨hlt, hq, -⟩ := findIdx?_eq_some_iff_getElem.mp hj
  rw [← (getElem_cons_eraseIdx_perm hlt).countP_eq, countP_cons_of_pos hq]

lemma acceptedStep_ret {step : ℤ} :
    acceptedStep userID step (.ret (r, verdict)) = true ↔
      r.userID = userID ∧ verdict = .step step :=
  decide_eq_true_iff

lemma acceptedCode_ret {code : String} :
    acceptedCode userID code (.ret (r, verdict)) = true ↔
      r = ⟨userID, code⟩ ∧ verdict = .backupCode := by
  simp [acceptedCode, Prog.result?]

variable {p : Validation}

lemma UnderWay.not_accepted (hp : UnderWay svc r p) :
    (∀ userID step, acceptedStep userID step p ≠ true) ∧
      ∀ userID code, acceptedCode userID code p ≠ true := by
  cases p with
  | call => exact ⟨fun _ _ => Bool.false_ne_true, fun _ _ => Bool.false_ne_true⟩
  | ret x =>
    obtain rfl : x = (r, .refused) := hp
    exact ⟨fun _ _ h => (nomatch (acceptedStep_ret.mp h).2),
      fun _ _ h => (nomatch (acceptedCode_ret.mp h).2)⟩

section

variable (hi : pool[i]? = some (.call c k))

include hi

lemma countP_acceptedStep (p : Validation) (userID : String) (step : ℤ) :
    (pool.set i p).countP (acceptedStep userID step) =
      pool.countP (acceptedStep userID step) + if acceptedStep userID step p then 1 else 0 :=
  countP_set hi rfl p

lemma countP_acceptedCode (p : Validation) (userID code : String) :
    (pool.set i p).countP (acceptedCode userID code) =
      pool.countP (acceptedCode userID code) + if acceptedCode userID code p then 1 else 0 :=
  countP_set hi rfl p

variable (h : Spent svc w0 (w, pool))
include h

lemma Spent.of_no_step (hkv : w'.kv = w.kv)
    (hstep : ∀ userID step, acceptedStep userID step p ≠ true) :
    (∀ userID step, 0 < (pool.set i p).countP (acceptedStep userID step) →
        ∃ entry, w'.kv totpReplayBucket userID = some entry ∧ entry.expiresAt = 0 ∧
          step ≤ entry.data) ∧
      ∀ userID step, (pool.set i p).countP (acceptedStep userID step) ≤ 1 := by
  have hcount (userID : String) (step : ℤ) :
      (pool.set i p).countP (acceptedStep userID step) =
        pool.countP (acceptedStep userID step) := by
    rw [countP_acceptedStep hi, if_neg (hstep userID step), Nat.add_zero]
  simp only [hcount, hkv]
  exact ⟨h.recorded, h.steps⟩

lemma Spent.quiet (hkv : w'.kv = w.kv)
    (hdb : w'.db = w.db) (hp : UnderWay svc r p) : Spent svc w0 (w', pool.set i p) := by
  obtain ⟨hstep, hcode⟩ := hp.not_accepted
  constructor
  case threads => exact forall_set h.threads (.inl ⟨r, hp⟩)
  case recorded => exact (h.of_no_step hi hkv hstep).1
  case steps => exact (h.of_no_step hi hkv hstep).2
  case codes =>
    intro userID code
    rw [countP_acceptedCode hi, if_neg (hcode userID code), backupCodes_congr hdb]
    exact h.codes userID code

lemma Spent.record {step : ℤ}
    (hnew : ∀ entry, w.kv totpReplayBucket r.userID = some entry → entry.expiresAt = 0 →
      entry.data < step)
    (hkv : w'.kv = w.kv.set (unix w'.now) totpReplayBucket r.userID step 0) (hdb : w'.db = w.db) :
    Spent svc w0 (w', pool.set i (.ret (r, .step step))) := by
  have hbefore : ∀ step', 0 < pool.countP (acceptedStep r.userID step') → step' < step := by
    intro step' hpos
    obtain ⟨entry, hentry, hexpiry, hle⟩ := h.recorded r.userID step' hpos
    exact Int.lt_of_le_of_lt hle (hnew entry hentry hexpiry)
  constructor
  case threads => exact forall_set h.threads (.inr ⟨_, rfl⟩)
  case recorded =>
    intro userID step' hpos
    rw [countP_acceptedStep hi] at hpos
    by_cases hu : r.userID = userID
    · subst hu
      refine ⟨⟨step, 0⟩, by simp [hkv], rfl, ?_⟩
      by_cases hs : acceptedStep r.userID step' (.ret (r, .step step)) = true
      · obtain ⟨-, ⟨⟩⟩ := acceptedStep_ret.mp hs
        exact Int.le_refl _
      · rw [if_neg hs] at hpos
        exact Int.le_of_lt (hbefore step' hpos)
    · rw [if_neg fun hs => hu (acceptedStep_ret.mp hs).1] at hpos
      simp only [hkv, KVStore.set_of_ne _ _ _ _ (.inr (Ne.symm hu))]
      exact h.recorded userID step' hpos
  case steps =>
    intro userID step'
    rw [countP_acceptedStep hi]
    split
    case isTrue hs =>
      obtain ⟨rfl, ⟨⟩⟩ := acceptedStep_ret.mp hs
      have := mt (hbefore step) (Int.lt_irrefl step)
      omega
    case isFalse => exact h.steps userID step'
  case codes =>
    intro userID code
    have hcode : acceptedCode userID code (.ret (r, .step step)) ≠ true :=
      fun hc => nomatch (acceptedCode_ret.mp hc).2
    rw [countP_acceptedCode hi, if_neg hcode, backupCodes_congr hdb]
    exact h.codes userID code

lemma Spent.consume
    (hj : (w.backupCodes r.userID).findIdx? (svc.bcrypt · r.code) = some j) (hkv : w'.kv = w.kv)
    (hdb : w'.db = w.db.updateTOTPBackupCodes r.userID ((w.backupCodes r.userID).eraseIdx j)) :
    Spent svc w0 (w', pool.set i (.ret (r, .backupCode))) := by
  have hstep (userID : String) (step : ℤ) :
      acceptedStep userID step (.ret (r, .backupCode)) ≠ true :=
    fun hs => nomatch (acceptedStep_ret.mp hs).2
  constructor
  case threads => exact forall_set h.threads (.inr ⟨_, rfl⟩)
  case recorded => exact (h.of_no_step hi hkv hstep).1
  case steps => exact (h.of_no_step hi hkv hstep).2
  case codes =>
    intro userID code
    have hbound : pool.countP (acceptedCode userID code) +
        (w.backupCodes userID).countP (svc.bcrypt · code) ≤ _ := h.codes userID code
    rw [countP_acceptedCode hi, backupCodes_erase hdb]
    split
    case isTrue hc =>
      obtain ⟨rfl, -⟩ := acceptedCode_ret.mp hc
      have : ((w.backupCodes userID).eraseIdx j).countP (svc.bcrypt · code) + 1 = _ :=
        countP_eraseIdx hj
      rw [if_pos rfl]
      dsimp only
      omega
    case isFalse =>
      split
      case isTrue hu =>
        subst hu
        have := (eraseIdx_sublist (w.backupCodes r.userID) j).countP_le
          (p := (svc.bcrypt · code))
        omega
      case isFalse => exact hbound

end

/-- **Every undisturbed step keeps `Spent`.** -/
theorem spent_step {s s' : ValidationState} {a : ℕ × TOTPChoice} (h : Spent svc w0 s)
    (hguard : UndisturbedStep s a) (hstep : poolStep totpExec s a = some s') : Spent svc w0 s' := by
  obtain ⟨c, k, answer, hi, hexec, hset⟩ := poolStep_eq_some hstep
  obtain ⟨w', pool'⟩ := s'
  obtain rfl : pool' = s.2.set a.1 (k answer) := hset
  rcases h.threads _ (mem_of_getElem? hi) with ⟨r, hp⟩ | ⟨x, hx⟩
  · have heffect := effect_of_exec hp (hguard _ hi c rfl) hexec
    generalize k answer = p at heffect
    cases heffect with
    | quiet hkv hdb hp => exact h.quiet hi hkv hdb hp
    | record hnew hkv hdb => exact h.record hi hnew hkv hdb
    | consume hj hkv hdb => exact h.consume hi hj hkv hdb
  · cases hx

lemma spent_start (hreplay : svc.replay = true) (w : TOTPWorld)
    (requests : List ValidationRequest) : Spent svc w (w, requests.map (serve svc)) := by
  have hway : ∀ p ∈ requests.map (serve svc), ∃ r, UnderWay svc r p :=
    forall_mem_map.mpr fun r _ => ⟨r, commits_serve hreplay r⟩
  have hsteps (userID : String) (step : ℤ) :
      (requests.map (serve svc)).countP (acceptedStep userID step) = 0 := by
    refine countP_eq_zero.mpr fun p hp => ?_
    obtain ⟨r, hr⟩ := hway p hp
    exact hr.not_accepted.1 userID step
  have hcodes (userID code : String) :
      (requests.map (serve svc)).countP (acceptedCode userID code) = 0 := by
    refine countP_eq_zero.mpr fun p hp => ?_
    obtain ⟨r, hr⟩ := hway p hp
    exact hr.not_accepted.2 userID code
  constructor
  case threads => exact fun p hp => .inl (hway p hp)
  case recorded =>
    intro userID step hpos
    rw [hsteps] at hpos
    exact absurd hpos (Nat.lt_irrefl 0)
  case steps => exact fun userID step => (hsteps userID step).trans_le (Nat.zero_le 1)
  case codes =>
    intro userID code
    rw [hcodes, Nat.zero_add]

end

/-- **In every interleaving whose writes are undisturbed, each step of a user is accepted at most
once, and each backup code at most as often as it was listed.** -/
theorem accepted_once {svc : TOTPService} (hreplay : svc.replay = true) {w : TOTPWorld}
    {requests : List ValidationRequest} {schedule : List (ℕ × TOTPChoice)} {s : ValidationState}
    (hguard : Along (poolStep totpExec) UndisturbedStep (w, requests.map (serve svc)) schedule)
    (hrun : run (poolStep totpExec) (w, requests.map (serve svc)) schedule = some s) :
    (∀ userID step, s.2.countP (acceptedStep userID step) ≤ 1) ∧
      ∀ userID code, s.2.countP (acceptedCode userID code) ≤
        (w.backupCodes userID).countP (svc.bcrypt · code) := by
  have h : Spent svc w s := invariant_of_along (fun t a t' ht hg hstep => spent_step ht hg hstep)
    (spent_start hreplay w requests) hguard hrun
  exact ⟨h.steps, fun userID code => (Nat.le_add_right _ _).trans (h.codes userID code)⟩

/-- A service with plain primitives: the code of a step is its number, and a hash is the code. -/
def plainService : TOTPService where
  vault := some some
  replay := true
  backupStore := true
  base32 secret := some (SHA256.utf8 secret)
  hmacSHA1 _ message := message.drop 4 ++ List.replicate 16 0
  bcrypt hash password := hash = password

def enrolled : TOTPWorld where
  now := 30 * second
  kv _ _ := none
  db :=
    { users := ⟨[{ id := "usr_1", email := "ops@example.com", passwordHash := "", name := "Ops"
                   totpEnabled := true, totpSecret := "JBSWY3DP"
                   totpBackupCodes := ["MFRGGZDF", "NBSWY3DP"] }], nodup_singleton _⟩
      members := []
      invitations := .empty }

def presentedTwice : List ValidationRequest :=
  [⟨"usr_1", "000001"⟩, ⟨"usr_1", "000001"⟩, ⟨"usr_1", "MFRGGZDF"⟩, ⟨"usr_1", "MFRGGZDF"⟩]

def oneByOne : List (ℕ × TOTPChoice) :=
  [0, 0, 0, 0, 1, 1, 1, 1, 2, 2, 2, 2, 3, 3, 3].map (·, {})

/-- One after the other, the second presentations are refused. -/
theorem accepted_once_oneByOne : ∃ s,
    run (poolStep totpExec) (enrolled, presentedTwice.map (serve plainService)) oneByOne = some s ∧
    (s.2.map fun p => p.result?.map Prod.snd) =
      [some (.step 1), some .refused, some .backupCode, some .refused] ∧
    (∀ userID step, s.2.countP (acceptedStep userID step) ≤ 1) ∧
      ∀ userID code, s.2.countP (acceptedCode userID code) ≤
        (enrolled.backupCodes userID).countP (plainService.bcrypt · code) := by
  exact exists_of_run_and (by decide +kernel) fun s hrun _ =>
    accepted_once rfl (by decide +kernel) hrun

/-- All of them have read before any of them writes: all of them are accepted. -/
theorem presentedTwice_accepted : ∃ s, run (poolStep totpExec)
      (enrolled, presentedTwice.map (serve plainService))
      ([0, 0, 0, 1, 1, 1, 2, 2, 2, 3, 3, 3, 0, 1, 2, 3].map (·, {})) = some s ∧
    s.2.countP (acceptedStep "usr_1" 1) = 2 ∧
    s.2.countP (acceptedCode "usr_1" "MFRGGZDF") = 2 ∧
    (enrolled.backupCodes "usr_1").countP (plainService.bcrypt · "MFRGGZDF") = 1 :=
  by decide +kernel

end DeployMonster.Auth
