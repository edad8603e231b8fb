import DeployMonster.Handlers.LogoutAll

/-!
# Invitations

Attempts to register with the code of an invitation, in any number and in any interleaving.
`Register` accepts the invitation before it creates the user, and nothing gives it back.
-/

namespace DeployMonster.Handlers.Accounts

open DB Program StepMachine List Option Pool

/-- What an attempt does to invitations and users. -/
inductive RegisterEvent
  | accepted (id : String)
  | created (userID : String)
  deriving DecidableEq

def noteRegister : (c : AccountCall) → AccountAnswer c → Option RegisterEvent
  | .acceptInvite id, .ok () => some (.accepted id)
  | .createUserWithMembership _ _ _ _ _, .ok userID => some (.created userID)
  | _, _ => none

abbrev RegisterState := Logged AccountWorld AccountCall AccountAnswer AccountReply RegisterEvent

variable (h : AccountHandler)

def attempts (requests : List (Option RegisterRequest)) (w : AccountWorld) : RegisterState :=
  ⟨w, requests.map (register h), []⟩

def accountsFrom (invID : String) (log : List (ℕ × RegisterEvent)) : List String :=
  log.filterMap fun x =>
    match x.2 with
    | .created userID => if (x.1, .accepted invID) ∈ log then some userID else none
    | .accepted _ => none

def Pending (invID : String) (db : Accounts) : Prop :=
  (db.invitations.find? invID).any (·.status = .pending)
  deriving Decidable

/-- An attempt that has returned and created no account has left the invitation pending, unless
another attempt has accepted it. -/
def LeavesPending (invID : String) (s : RegisterState) : Prop :=
  ∀ i reply, s.threads[i]? = some (.ret reply) → (∀ userID, (i, .created userID) ∉ s.log) →
    (∀ j, j ≠ i → (j, .accepted invID) ∉ s.log) → Pending invID s.state.db

def hashes (req : Option RegisterRequest) : Bool :=
  req.any fun req => (h.hashPassword req.password).isSome

/-- The call completes what an attempt begins: who accepts the invitation has a password that can be
hashed, and who has accepted it creates the account. -/
def CompletesCall (requests : List (Option RegisterRequest)) (invID : String)
    (s : RegisterState) (a : ℕ × AccountChoice) : AccountCall → Prop
  | .acceptInvite id => id = invID → a.2.storeFails = false → Pending invID s.state.db →
      requests[a.1]?.any (hashes h) = true
  | .createUserWithMembership email passwordHash name tenantID roleID =>
    (a.1, .accepted invID) ∈ s.log → a.2.storeFails = false ∧
      (s.state.db.createUserWithMembership a.2.newID email passwordHash name tenantID
        roleID).isSome = true
  | _ => True

instance (h : AccountHandler) (requests : List (Option RegisterRequest)) (invID : String)
    (s : RegisterState) (a : ℕ × AccountChoice) (c : AccountCall) :
    Decidable (CompletesCall h requests invID s a c) := by
  unfold CompletesCall
  split <;> infer_instance

def Completes (requests : List (Option RegisterRequest)) (invID : String)
    (s : RegisterState) (a : ℕ × AccountChoice) : Prop :=
  ∀ c ∈ s.threads[a.1]?.bind Prog.next?, CompletesCall h requests invID s a c
  deriving Decidable

/-! ## The stages of an attempt -/

inductive RegisterStage
  /-- Nothing is accepted or created yet; whether the password can be hashed. -/
  | idle (hashes : Bool)
  | holding (id : String)
  /-- An invitation is accepted, and there will be no account. -/
  | lost (id : String)
  | made (id : Option String) (userID : String)

def RegisterStage.events : RegisterStage → List RegisterEvent
  | idle _ => []
  | holding id | lost id => [.accepted id]
  | made id userID => id.toList.map .accepted ++ [.created userID]

def AccountCall.aside : AccountCall → Bool
  | .acceptInvite _ | .createUserWithMembership _ _ _ _ _ => false
  | _ => true

def RegisterStage.accepted (hashes : Bool) (id : String) : RegisterStage :=
  if hashes then holding id else lost id

inductive RegisterMove : RegisterStage → (c : AccountCall) → AccountAnswer c → RegisterStage → Prop
  | idle {b : Bool} {c : AccountCall} {r : AccountAnswer c} (hc : c.aside = true) :
      RegisterMove (.idle b) c r (.idle b)
  | made {id : Option String} {userID : String} {c : AccountCall} {r : AccountAnswer c}
      (hc : c.aside = true) : RegisterMove (.made id userID) c r (.made id userID)
  | refused {b : Bool} (id : String) (e : StoreError) :
      RegisterMove (.idle b) (.acceptInvite id) (.error e) (.idle b)
  | accept (b : Bool) (id : String) :
      RegisterMove (.idle b) (.acceptInvite id) (.ok ()) (.accepted b id)
  | createOpen {b : Bool} {email passwordHash name tenantID roleID : String} (userID : String) :
      RegisterMove (.idle b) (.createUserWithMembership email passwordHash name tenantID roleID)
        (.ok userID) (.made none userID)
  | failOpen {b : Bool} {email passwordHash name tenantID roleID : String} (e : StoreError) :
      RegisterMove (.idle b) (.createUserWithMembership email passwordHash name tenantID roleID)
        (.error e) (.idle b)
  | create {id email passwordHash name tenantID roleID : String} (userID : String) :
      RegisterMove (.holding id) (.createUserWithMembership email passwordHash name tenantID roleID)
        (.ok userID) (.made (some id) userID)
  | fail {id email passwordHash name tenantID roleID : String} (e : StoreError) :
      RegisterMove (.holding id) (.createUserWithMembership email passwordHash name tenantID roleID)
        (.error e) (.lost id)

/-- An attempt does not return while it holds an invitation. -/
def RegisterDone (g : RegisterStage) (_ : AccountReply) : Prop := ∀ id, g ≠ .holding id

variable {h : AccountHandler}

/-- The stage when the tenant is known, or is not. -/
def JoinDone {ε α : Type} (b : Bool) (g : RegisterStage) : Except ε α → Prop
  | .error _ => g = .idle b
  | .ok _ => g = .idle b ∨ ∃ id, g = .accepted b id

lemma follows_redeemInvite (b : Bool) (code email : String) :
    Follows RegisterMove (JoinDone b) (redeemInvite h code email) (.idle b) := by
  rintro ((_ | _) | inv)
  · exact ⟨_, .idle rfl, rfl⟩
  · exact ⟨_, .idle rfl, rfl⟩
  refine ⟨_, .idle rfl, ?_⟩
  dsimp only [Prog.bind]
  split
  · exact rfl
  refine fun now => ⟨_, .idle rfl, ?_⟩
  dsimp only [Prog.bind]
  split
  · exact rfl
  split
  · exact rfl
  rintro (e | _)
  · exact ⟨_, .refused inv.id e, rfl⟩
  · exact ⟨_, .accept b inv.id, .inr ⟨inv.id, rfl⟩⟩

lemma follows_joinTenant (b : Bool) (mode name : String) (req : RegisterRequest) :
    Follows RegisterMove (JoinDone b) (joinTenant h mode req name) (.idle b) := by
  unfold joinTenant
  split
  · rintro (e | tenantID)
    · exact ⟨_, .idle rfl, rfl⟩
    · exact ⟨_, .idle rfl, .inl rfl⟩
  split
  · exact rfl
  refine (follows_redeemInvite b req.inviteCode req.email).bind ?_
  rintro g (message | inv) hg <;> exact hg

lemma follows_createAccount {req : RegisterRequest} {g : RegisterStage} {name tenantID roleID : String}
    (hg : g = .idle (hashes h (some req)) ∨ ∃ id, g = .accepted (hashes h (some req)) id) :
    Follows RegisterMove RegisterDone (createAccount h req name tenantID roleID) g := by
  unfold createAccount
  cases hhash : h.hashPassword req.password with
  | none =>
    have hb : hashes h (some req) = false := by simp [hashes, hhash]
    rw [hb] at hg
    rcases hg with rfl | ⟨id, rfl⟩ <;> exact nofun
  | some passwordHash =>
    have hb : hashes h (some req) = true := by simp [hashes, hhash]
    rw [hb] at hg
    rcases hg with rfl | ⟨id, rfl⟩
    · rintro (e | userID)
      · exact ⟨_, .failOpen e, nofun⟩
      · exact ⟨_, .createOpen userID, fun _ => ⟨_, .made rfl, nofun⟩⟩
    · rintro (e | userID)
      · exact ⟨_, .fail e, nofun⟩
      · exact ⟨_, .create userID, fun _ => ⟨_, .made rfl, nofun⟩⟩

/-- **An attempt goes through the stages.** -/
theorem follows_register (req : Option RegisterRequest) :
    Follows RegisterMove RegisterDone (register h req) (.idle (hashes h req)) := by
  unfold register
  dsimp only
  split
  · exact nofun
  split
  · exact nofun
  split
  · exact nofun
  rintro (e | user)
  · refine ⟨_, .idle rfl, (follows_joinTenant _ _ _ _).bind ?_⟩
    rintro g (⟨status, message⟩ | ⟨tenantID, roleID⟩) hg
    · obtain rfl : g = _ := hg
      exact nofun
    · exact follows_createAccount hg
  · exact ⟨_, .idle rfl, nofun⟩

lemma nonempty_answer (c : AccountCall) : Nonempty (AccountAnswer c) := by
  cases c with
  | now => exact ⟨0⟩
  | validateTOTP => exact ⟨false⟩
  | generateTokenPair jwt => exact ⟨jwt.generateTokenPair 0 "" "" "" "" "" ""⟩
  | _ => exact ⟨.error .failed⟩

variable {id : String}

lemma returned_of_lost {p : Account AccountReply}
    (hp : Follows RegisterMove RegisterDone p (.lost id)) : ∃ reply, p = .ret reply := by
  cases p with
  | ret reply => exact ⟨reply, rfl⟩
  | call c k =>
    obtain ⟨r⟩ := nonempty_answer c
    obtain ⟨g, hmove, -⟩ := hp r
    cases hmove

variable {w w' : AccountWorld} {o : AccountChoice}

lemma write_eq {α : Type} {a : α} {db : Option Accounts} {r : Except StoreError α}
    (h : write o w a db = (r, w')) :
    match r with
    | .ok b => b = a ∧ o.storeFails = false ∧ db = some w'.db
    | .error _ => (o.storeFails = false → db = none) ∧ w'.db = w.db := by
  unfold write at h
  cases hfails : o.storeFails with
  | true =>
    rw [hfails, if_pos rfl] at h
    cases h
    exact ⟨nofun, rfl⟩
  | false =>
    rw [hfails, if_neg Bool.false_ne_true] at h
    cases db with
    | none =>
      cases h
      exact ⟨fun _ => rfl, rfl⟩
    | some db =>
      cases h
      exact ⟨rfl, rfl, rfl⟩

lemma invitations_of_aside {c : AccountCall} {r : AccountAnswer c} (hc : c.aside = true)
    (h : accountExec c w o = some (r, w')) : w'.db.invitations = w.db.invitations := by
  cases c with
  | acceptInvite | createUserWithMembership => cases hc
  | now | kvGet | getUser | getUserByEmail | getUserMembership | updateLastLogin
    | createTenantWithDefaults | getInviteByTokenHash | validateTOTP =>
    obtain ⟨-, rfl⟩ := answer_inj h
    rfl
  | updatePassword =>
    have hwrite := write_eq (some.inj h)
    cases r with
    | ok => rw [← some.inj hwrite.2.2]; rfl
    | error => rw [hwrite.2]; rfl
  | _ =>
    simp only [accountExec, perform] at h
    repeat' split at h
    all_goals cases h <;> rfl

variable {db db' : Accounts}

lemma invitations_of_create {email passwordHash name tenantID roleID : String}
    (h : db.createUserWithMembership id email passwordHash name tenantID roleID = some db') :
    db'.invitations = db.invitations := by
  obtain ⟨_, h⟩ := dite_none_left_eq_some.mp h
  obtain ⟨-, h⟩ := ite_none_left_eq_some.mp h
  cases h
  rfl

lemma pending_congr {invID : String} (h : db'.invitations = db.invitations) :
    Pending invID db' ↔ Pending invID db := by
  unfold Pending
  rw [h]

lemma acceptInvite_eq_none : db.acceptInvite id = none ↔ ¬Pending id db := by
  unfold Accounts.acceptInvite Pending
  split <;> simp_all

lemma pending_of_accept (h : db.acceptInvite id = some db')
    (invID : String) : Pending id db ∧ (Pending invID db' ↔ invID ≠ id ∧ Pending invID db) := by
  obtain ⟨hpending, rfl⟩ := ite_some_none_eq_some.mp h
  refine ⟨hpending, ?_⟩
  unfold Pending
  rw [Table.find?_update]
  by_cases hid : invID = id
  · subst hid
    cases db.invitations.find? invID <;> simp
  · simp [hid]

/-! ## One invitation -/

/-- What is kept of the invitation. -/
structure RegisterInv (h : AccountHandler) (requests : List (Option RegisterRequest)) (invID : String)
    (s : RegisterState) (stages : List RegisterStage) : Prop where
  tracks : Tracks RegisterMove RegisterDone s.threads stages
  recorded : Recorded RegisterStage.events s.log stages
  hashed : ∀ (i : ℕ) (b : Bool), stages[i]? = some (.idle b) → requests[i]?.any (hashes h) = b
  single : s.log.countP (·.2 = .accepted invID) = if Pending invID s.state.db then 0 else 1

variable {requests : List (Option RegisterRequest)} {invID : String} {s s' : RegisterState}
  {stages : List RegisterStage} {g g' : RegisterStage} {c : AccountCall} {r : AccountAnswer c}
  {i : ℕ}

lemma noteRegister_of_aside (hc : c.aside = true) (r : AccountAnswer c) : noteRegister c r = none := by
  cases c with
  | acceptInvite | createUserWithMembership => cases hc
  | _ => rfl

lemma RegisterMove.events_eq (hmove : RegisterMove g c r g') :
    g'.events = g.events ++ (noteRegister c r).toList := by
  cases hmove with
  | idle hc | made hc => rw [noteRegister_of_aside hc, toList_none, append_nil]
  | accept b id => cases b <;> rfl
  | _ => rfl

lemma RegisterMove.idle_of {b : Bool} (hmove : RegisterMove g c r g') (hg' : g' = .idle b) :
    g = .idle b := by
  cases hmove with
  | idle | refused | failOpen => exact hg'
  | accept b' id => cases b' <;> cases hg'
  | _ => cases hg'

lemma countP_step {log : List (ℕ × RegisterEvent)}
    (hsingle : log.countP (·.2 = .accepted invID) = if Pending invID w.db then 0 else 1)
    (hexec : accountExec c w o = some (r, w')) (hmove : RegisterMove g c r g') :
    (log ++ (noteRegister c r).toList.map (i, ·)).countP (·.2 = .accepted invID) =
      if Pending invID w'.db then 0 else 1 := by
  have hsame (hnote : ∀ e ∈ noteRegister c r, e ≠ .accepted invID)
      (hinvitations : w'.db.invitations = w.db.invitations) :
      (log ++ (noteRegister c r).toList.map (i, ·)).countP (·.2 = .accepted invID) =
        if Pending invID w'.db then 0 else 1 := by
    simp only [countP_append, hsingle, pending_congr hinvitations]
    cases hr : noteRegister c r with
    | none => rfl
    | some e => simp [hnote e hr]
  cases hmove with
  | idle hc | made hc =>
    exact hsame (by rw [noteRegister_of_aside hc]; exact nofun) (invitations_of_aside hc hexec)
  | refused | failOpen | fail => exact hsame nofun (by rw [(write_eq (some.inj hexec)).2]; rfl)
  | createOpen userID | create userID =>
    refine hsame (fun e he => ?_) (invitations_of_create (write_eq (some.inj hexec)).2.2)
    cases he
    exact nofun
  | accept b id =>
    obtain ⟨hpending, hafter⟩ := pending_of_accept (write_eq (some.inj hexec)).2.2 invID
    have hpending : Pending id w.db := hpending
    have hafter : Pending invID w'.db ↔ invID ≠ id ∧ Pending invID w.db := hafter
    show (log ++ [(i, RegisterEvent.accepted id)]).countP _ = _
    rw [countP_append, hsingle]
    by_cases hid : invID = id
    · subst hid
      simp [hafter, hpending]
    · simp [hafter, hid, Ne.symm hid]

variable (hinv : RegisterInv h requests invID s stages)
include hinv

/-- **An invitation is lost by the steps that do not complete what they begin.** -/
theorem lost_iff (hg : stages[i]? = some g)
    (hexec : accountExec c s.state o = some (r, w')) (hmove : RegisterMove g c r g') :
    g' ≠ .lost invID ↔ CompletesCall h requests invID s (i, o) c := by
  have haccepted := hinv.recorded.mem_iff hg (e := .accepted invID)
  cases hmove with
  | idle hc | made hc =>
    refine iff_of_true nofun ?_
    cases c with
    | acceptInvite | createUserWithMembership => cases hc
    | _ => trivial
  | refused id e =>
    refine iff_of_true nofun ?_
    rintro rfl hok hpending
    have hnone := (write_eq (some.inj hexec)).1 hok
    exact absurd hpending (acceptInvite_eq_none.mp hnone)
  | accept b id =>
    obtain ⟨-, hok, haccept⟩ := write_eq (some.inj hexec)
    have hpending : Pending id s.state.db := (pending_of_accept haccept id).1
    have hb := hinv.hashed i b hg
    cases b with
    | true => exact iff_of_true nofun fun _ _ _ => hb
    | false =>
      constructor
      · rintro hne rfl
        exact absurd rfl hne
      · rintro hcompletes heq
        cases heq
        cases hb.symm.trans (hcompletes rfl hok hpending)
  | createOpen userID | failOpen e =>
    exact iff_of_true nofun fun hmem => nomatch haccepted.mp hmem
  | create userID =>
    obtain ⟨-, hok, hcreate⟩ := write_eq (some.inj hexec)
    exact iff_of_true nofun fun _ => ⟨hok, isSome_iff_exists.mpr ⟨_, hcreate⟩⟩
  | fail e =>
    have hfails := (write_eq (some.inj hexec)).1
    constructor
    · intro hne hmem
      cases mem_singleton.mp (haccepted.mp hmem)
      exact absurd rfl hne
    · intro hcompletes heq
      cases heq
      obtain ⟨hok, hsome⟩ := hcompletes (haccepted.mpr (mem_singleton_self _))
      have hnone : s.state.db.createUserWithMembership _ _ _ _ _ _ = none := hfails hok
      rw [hnone] at hsome
      cases hsome

/-- **A step of one attempt.** -/
theorem registerInv_step {a : ℕ × AccountChoice}
    (hstep : logStep accountExec noteRegister s a = some s') :
    ∃ g', RegisterInv h requests invID s' (stages.set a.1 g') ∧
      ((∀ i : ℕ, (stages.set a.1 g')[i]? ≠ some (.lost invID)) ↔
        (∀ i : ℕ, stages[i]? ≠ some (.lost invID)) ∧ Completes h requests invID s a) := by
  obtain ⟨c, k, r, g, g', hi, hg, hexec, hmove, hlog, htracks⟩ := hinv.tracks.step_logged hstep
  have hcompletes : Completes h requests invID s a ↔ CompletesCall h requests invID s a c := by
    simp [Completes, hi, Prog.next?]
  have hlost : g ≠ .lost invID := by
    rintro rfl
    cases hmove
  refine ⟨g', ⟨htracks, ?_, ?_, ?_⟩, ?_⟩
  · rw [hlog]
    exact hinv.recorded.step hg hmove.events_eq
  · intro j b hj
    rcases getElem?_set hj with ⟨rfl, rfl⟩ | ⟨-, hj⟩
    · exact hinv.hashed _ b (hmove.idle_of rfl ▸ hg)
    · exact hinv.hashed j b hj
  · rw [hlog]
    exact countP_step hinv.single hexec hmove
  rw [hcompletes, ← lost_iff hinv hg hexec hmove]
  constructor
  · intro hnone
    refine ⟨fun j hj => ?_, fun heq => hnone a.1 (heq ▸ getElem?_set_self hg g')⟩
    by_cases hja : j = a.1
    · subst hja
      exact hlost (some.inj (hg.symm.trans hj))
    · exact hnone j (getElem?_set_of_ne hja g' hj)
  · rintro ⟨hnone, hg'⟩ j hj
    rcases getElem?_set hj with ⟨-, heq⟩ | ⟨-, hj⟩
    · exact hg' heq.symm
    · exact hnone j hj

/-! ## All interleavings -/

lemma RegisterInv.acceptor_unique {j : ℕ}
    (hi : (i, .accepted invID) ∈ s.log) (hj : (j, .accepted invID) ∈ s.log) : i = j := by
  have hle : (s.log.filter (·.2 = .accepted invID)).length ≤ 1 := by
    rw [← countP_eq_length_filter, hinv.single]
    split <;> simp
  have hmem {k : ℕ} (hk : (k, .accepted invID) ∈ s.log) :
      (k, RegisterEvent.accepted invID) ∈ s.log.filter (·.2 = .accepted invID) :=
    mem_filter.mpr ⟨hk, by simp⟩
  obtain ⟨x, hx⟩ := length_eq_one_iff.mp
    (Nat.le_antisymm hle (length_pos_of_mem (hmem hi)))
  have hxi := hmem hi
  have hxj := hmem hj
  rw [hx, mem_singleton] at hxi hxj
  exact congrArg Prod.fst (hxi.trans hxj.symm)

omit hinv in
lemma filterMap_events (g : RegisterStage) : (g.events.filterMap fun
      | .created userID => some userID
      | .accepted _ => none).length ≤ 1 := by
  cases g with
  | made id userID => cases id <;> simp [RegisterStage.events]
  | _ => simp [RegisterStage.events]

/-- **At most one account is created from the invitation.** -/
theorem RegisterInv.accountsFrom_le_one :
    (accountsFrom invID s.log).length ≤ 1 := by
  by_cases hex : ∃ i, (i, .accepted invID) ∈ s.log
  · obtain ⟨i, hi⟩ := hex
    have heq : accountsFrom invID s.log = (entriesOf i s.log).filterMap fun
        | .created userID => some userID
        | .accepted _ => none := by
      unfold accountsFrom entriesOf
      rw [filterMap_map, filterMap_filter]
      refine filterMap_congr fun x hx => ?_
      have hiff : (x.1, .accepted invID) ∈ s.log ↔ x.1 = i :=
        ⟨fun hx => hinv.acceptor_unique hx hi, fun hx => hx ▸ hi⟩
      obtain ⟨j, _ | userID⟩ := x
      · simp
      by_cases hj : j = i
      · subst hj
        simp [hi]
      · simp [mt hiff.mp hj, hj]
    rw [heq, hinv.recorded i]
    cases hg : stages[i]? with
    | none => simp
    | some g => exact filterMap_events g
  · have hnil : accountsFrom invID s.log = [] := by
      refine filterMap_eq_nil_iff.mpr fun x _ => ?_
      obtain ⟨j, _ | userID⟩ := x
      · rfl
      · exact if_neg fun hj => hex ⟨j, hj⟩
    rw [hnil]
    exact Nat.zero_le _

lemma RegisterInv.leavesPending_iff :
    LeavesPending invID s ↔ ∀ i : ℕ, stages[i]? ≠ some (.lost invID) := by
  have hsingle := hinv.single
  constructor
  · intro hleaves i hi
    obtain ⟨p, hp⟩ : ∃ p, s.threads[i]? = some p := by
      have hlt : i < s.threads.length := by
        rw [← hinv.tracks.length]
        exact (List.getElem?_eq_some_iff.mp hi).1
      exact ⟨_, getElem?_eq_getElem hlt⟩
    obtain ⟨reply, rfl⟩ := returned_of_lost (hinv.tracks.follows i p _ hp hi)
    have hmem : (i, .accepted invID) ∈ s.log :=
      (hinv.recorded.mem_iff hi).mpr (mem_singleton_self _)
    have hpending := hleaves i reply hp
      (fun userID hcreated => nomatch (mem_singleton.mp ((hinv.recorded.mem_iff hi).mp hcreated)))
      (fun j hj hj' => hj (hinv.acceptor_unique hj' hmem))
    rw [if_pos hpending, countP_eq_zero] at hsingle
    exact hsingle _ hmem (by simp)
  · intro hnone i reply hret hcreated hothers
    by_contra hpending
    rw [if_neg hpending] at hsingle
    obtain ⟨⟨j, e⟩, hmem, he⟩ := countP_pos_iff.mp (hsingle ▸ Nat.one_pos)
    obtain rfl : e = .accepted invID := by simpa using he
    obtain rfl : j = i := by
      by_contra hne
      exact hothers j hne hmem
    obtain ⟨g, hg⟩ := hinv.tracks.exists_stage hret
    have hdone := hinv.tracks.follows j _ g hret hg
    have haccepted := (hinv.recorded.mem_iff hg).mp hmem
    cases g with
    | idle b => nomatch haccepted
    | holding id => exact hdone id rfl
    | lost id =>
      cases mem_singleton.mp haccepted
      exact hnone j hg
    | made id userID =>
      exact hcreated userID ((hinv.recorded.mem_iff hg).mpr
        (mem_append_right _ (mem_singleton_self _)))

omit hinv

/-- **Invitations.** However attempts to register are interleaved, at most one account is created
from the invitation. Those that create none leave it pending exactly when every one that accepts it
has a password that can be hashed, and its user is inserted. -/
theorem invitation_kept_iff (h : AccountHandler) (requests : List (Option RegisterRequest))
    (w : AccountWorld) (invID : String) (as : List (ℕ × AccountChoice)) (s : RegisterState)
    (hpending : Pending invID w.db)
    (hrun : run (logStep accountExec noteRegister) (attempts h requests w) as = some s) :
    (accountsFrom invID s.log).length ≤ 1 ∧
      (LeavesPending invID s ↔
        Along (logStep accountExec noteRegister) (Completes h requests invID)
          (attempts h requests w) as) := by
  let I : RegisterState → Prop := fun s => ∃ stages, RegisterInv h requests invID s stages
  have hstart : RegisterInv h requests invID (attempts h requests w)
      (requests.map fun req => .idle (hashes h req)) := by
    refine ⟨tracks_map fun req _ => follows_register req, recorded_nil ?_, ?_, ?_⟩
    · exact forall_mem_map.mpr fun _ _ => rfl
    · intro i b hi
      rw [getElem?_map, map_eq_some_iff] at hi
      obtain ⟨req, hreq, hb⟩ := hi
      rw [hreq]
      exact RegisterStage.idle.inj hb
    · exact (if_pos hpending).symm
  have hI : ∀ s a s', I s → logStep accountExec noteRegister s a = some s' → I s' := by
    rintro s a s' ⟨stages, hinv⟩ hstep
    obtain ⟨g', hinv', -⟩ := registerInv_step hinv hstep
    exact ⟨_, hinv'⟩
  obtain ⟨stages, hinv⟩ := invariant_of_run hI ⟨_, hstart⟩ hrun
  refine ⟨hinv.accountsFrom_le_one, ?_⟩
  have hiff := along_iff_of_run (P := LeavesPending invID) hI
    (G := Completes h requests invID) ?_ ⟨_, hstart⟩ hrun
  · rw [hiff, and_iff_right_iff_imp]
    intro _
    refine hstart.leavesPending_iff.mpr fun i hi => ?_
    rw [getElem?_map, map_eq_some_iff] at hi
    obtain ⟨req, -, hreq⟩ := hi
    cases hreq
  · rintro s a s' ⟨stages, hinv⟩ hstep
    obtain ⟨g', hinv', hlost⟩ := registerInv_step hinv hstep
    rw [hinv'.leavesPending_iff, hlost, hinv.leavesPending_iff]

/-- The default mode, with bcrypt's limit on the length of a password. -/
def inviteHandler : AccountHandler :=
  { openHandler with
    hashPassword := fun password => if password.utf8ByteSize ≤ 72 then some password else none
    registrationMode := none }

def teamInvite : Invitation :=
  ⟨"inv1", "t1", "", "role_developer", hashToken "welcome", 604800, .pending⟩

def invited : AccountWorld :=
  { noUsers with db := ⟨Table.empty, [], ⟨[teamInvite], nodup_singleton _⟩⟩ }

def signUp (email password : String) : Option RegisterRequest :=
  some ⟨email, password, "", "welcome"⟩

def bothSignUp : List (Option RegisterRequest) :=
  [signUp "alice@example.org" "Correct-Horse-7", signUp "bob@example.org" "Battery-Staple-8"]

def interleaved : List (ℕ × AccountChoice) :=
  [(0, {}), (1, {}), (0, {}), (1, {}), (0, {}), (1, {}), (0, {}), (1, {}), (0, { newID := "u1" }),
    (0, drawn 1 2)]

theorem invitation_kept_iff_interleaved : ∃ s,
    run (logStep accountExec noteRegister) (attempts inviteHandler bothSignUp invited) interleaved =
      some s ∧
    s.log = [(0, .accepted "inv1"), (0, .created "u1")] ∧ (accountsFrom "inv1" s.log).length ≤ 1 ∧
    LeavesPending "inv1" s := by
  refine exists_of_run_and (by decide +kernel) fun s hrun _ => ?_
  obtain ⟨hone, hkept⟩ := invitation_kept_iff _ _ _ "inv1" _ s (by decide +kernel) hrun
  exact ⟨hone, hkept.mpr (by decide +kernel)⟩

/-- A password that passes the checks of `Register` and is too long for bcrypt. -/
def longPassword : String := "Aa1!" ++ String.ofList (replicate 69 'a')

/-- The invitation is accepted, the password cannot be hashed, and nobody can use the code again. -/
theorem invitation_used_up : ∃ s, run (logStep accountExec noteRegister)
      (attempts inviteHandler [signUp "alice@example.org" longPassword] invited)
      (replicate 4 (0, {})) = some s ∧
    s.threads.map Prog.result? = [some (.error 500 "internal error")] ∧
    accountsFrom "inv1" s.log = [] ∧ ¬LeavesPending "inv1" s := by
  refine exists_of_run_imp (P := fun s => s.threads.map Prog.result? =
      [some (.error 500 "internal error")] ∧ s.log = [(0, .accepted "inv1")] ∧
      ¬Pending "inv1" s.state.db) (by decide +kernel) fun s _ ⟨hreply, hlog, hused⟩ => ?_
  refine ⟨hreply, by rw [hlog]; rfl, fun hleaves => hused ?_⟩
  obtain ⟨p, hp, hret⟩ := map_eq_singleton_iff.mp hreply
  refine hleaves 0 _ (by rw [hp, Prog.result?_eq_some hret]; rfl) (by simp [hlog]) fun j hj => ?_
  simp [hlog, hj]

end DeployMonster.Handlers.Accounts
