import DeployMonster.Library.Pool
import DeployMonster.Library.StepMachine

/-!
# The agent server

`internal/swarm/server.go`. The critical sections of `s.mu` and of `pendingMu` and the channel
operations are the atomic steps, so a run is an interleaving of connections, of their readers, of
`Send` calls, of the heartbeat monitor and of `Stop`.
-/

namespace DeployMonster.Swarm

open List Option

/-- The message types that the master distinguishes. -/
inductive AgentMsgType
  | ping | pong | result | error | metricsReport | containerEvent | serverStatus | logStream
  | other (type : String)
  deriving DecidableEq

/-- `core.AgentMessage`: the fields that `Send` and the reader use. -/
structure AgentMessage where
  id : String
  type : AgentMsgType
  payload : String
  deriving DecidableEq

/-- The message types that are routed to a waiting `Send`. -/
def AgentMsgType.isResponse : AgentMsgType → Bool
  | pong | result | error => true
  | _ => false

/-- Where the goroutine of `readLoop` stands. -/
inductive Reader
  /-- Registered, the connect callbacks run and the goroutine is not started yet. -/
  | starting
  | reading
  /-- The waiter is taken out of the pending map, `ch <- msg` is next. -/
  | delivering (ch : ℕ) (msg : AgentMessage)
  /-- The loop is left, the deferred `removeAgent` is next. -/
  | exiting
  /-- In `removeAgent`, cancelled and closed: `delete(s.agents, ac.ServerID)` is next. -/
  | unregistering
  /-- In `removeAgent`: cancelling the pending requests is next. -/
  | clearing
  | gone
  deriving DecidableEq

/-- An `AgentConn`. The channel of a request in flight is named by the `Send` call that made it. -/
structure AgentConn where
  serverID : String
  /-- The context is cancelled and the net connection closed. -/
  closed : Bool
  reader : Reader
  pending : AList fun _ : String => ℕ

/-- What `Send` returns. -/
inductive SendResult
  | response (msg : AgentMessage)
  /-- The response together with the error `agent error: ...`. -/
  | agentError (msg : AgentMessage)
  | disconnected | encodeFailed | contextDone
  deriving DecidableEq

def SendResult.message? : SendResult → Option AgentMessage
  | response msg | agentError msg => some msg
  | _ => none

/-- Where a call of `Send` stands. -/
inductive SendPoint
  | registering | encoding
  /-- `Encode` has failed, the pending entry is still there. -/
  | failing
  | waiting
  /-- The context's end was selected, the pending entry is still there. -/
  | cancelling
  | returned (result : SendResult)
  deriving DecidableEq

/-- A call of `Send` with its channel: capacity 1, so one buffered message at most. -/
structure SendCall where
  conn : ℕ
  msg : AgentMessage
  point : SendPoint
  buffer : Option AgentMessage
  chClosed : Bool

/-- An `AgentServer`: the map `agents` from server ids to connections, and all connections and
`Send` calls so far in the order they came. -/
structure AgentServer where
  agents : String → Option ℕ
  closed : Bool
  conns : List AgentConn
  sends : List SendCall

def newAgentServer : AgentServer := ⟨fun _ => none, false, [], []⟩

/-- The connection that `Get` and `SendPing` take for a server id. -/
def AgentServer.get (s : AgentServer) (serverID : String) : Option ℕ := s.agents serverID

def AgentConn.close (ac : AgentConn) : AgentConn := { ac with closed := true }

def AgentServer.setConn (s : AgentServer) (c : ℕ) (ac : AgentConn) : AgentServer :=
  { s with conns := s.conns.set c ac }

def AgentServer.setSend (s : AgentServer) (k : ℕ) (t : SendCall) : AgentServer :=
  { s with sends := s.sends.set k t }

def AgentServer.closeOld (s : AgentServer) (serverID : String) : List AgentConn :=
  match s.agents serverID with
  | some old => s.conns.modify old AgentConn.close
  | none => s.conns

/-- The registration in `HandleConnect`, after the token and the agent's information were accepted:
an older connection of the server id is closed and replaced. -/
def AgentServer.connect (s : AgentServer) (serverID : String) : AgentServer :=
  { s with
    agents := Function.update s.agents serverID (some s.conns.length)
    conns := s.closeOld serverID ++ [⟨serverID, false, .starting, ∅⟩] }

/-- `Stop`, up to the wait for the readers. -/
def AgentServer.stop (s : AgentServer) : AgentServer :=
  { s with
    agents := fun _ => none
    closed := true
    conns := s.conns.mapIdx fun c ac => if s.agents ac.serverID = some c then ac.close else ac }

/-- The lookup of `handleAgentMessage`: a response takes its waiter out of the pending map. The
other messages do not touch the requests in flight. -/
def AgentConn.handleAgentMessage (ac : AgentConn) (msg : AgentMessage) : AgentConn :=
  if msg.type.isResponse then
    match ac.pending.lookup msg.id with
    | some ch => { ac with pending := ac.pending.erase msg.id, reader := .delivering ch msg }
    | none => ac
  else ac

def AgentServer.closePending (s : AgentServer) (ac : AgentConn) : List SendCall :=
  s.sends.mapIdx fun k t =>
    if k ∈ ac.pending.entries.map Sigma.snd then { t with chClosed := true } else t

/-- The steps of `readLoop` and of its deferred `removeAgent`. -/
inductive ReaderAction
  | start
  /-- `Decode` returns a message. -/
  | receive (msg : AgentMessage)
  | deliver
  /-- A read error, the cancelled context or a panic ends the loop. -/
  | leaveLoop
  /-- The three parts of `removeAgent`. -/
  | closeConn
  | unregister | clearPending

/-- The steps of `Send`. -/
inductive SendAction
  | register
  | encode (ok : Bool)
  /-- The three ways out of the wait. -/
  | takeResponse
  | seeClosed | contextDone
  /-- `delete(ac.pending, msg.ID)` on the way out of a failed or cancelled call. -/
  | withdraw

inductive ServerAction
  | connect (serverID : String)
  | reader (c : ℕ) (a : ReaderAction)
  /-- The heartbeat monitor closes a connection that has been silent for too long. -/
  | heartbeatTimeout (c : ℕ)
  | stop
  /-- A new call of `Send` on a connection. -/
  | send (c : ℕ) (msg : AgentMessage)
  | call (k : ℕ) (a : SendAction)

def readerStep (s : AgentServer) (c : ℕ) (ac : AgentConn) : ReaderAction → Option AgentServer
  | .start =>
    if ac.reader = .starting then some (s.setConn c { ac with reader := .reading }) else none
  | .receive msg =>
    if ac.reader = .reading then some (s.setConn c (ac.handleAgentMessage msg)) else none
  | .deliver =>
    match ac.reader with
    | .delivering ch msg => do
      let t ← s.sends[ch]?
      if t.buffer = none ∧ t.chClosed = false then
        some ((s.setSend ch { t with buffer := some msg }).setConn c { ac with reader := .reading })
      else none
    | _ => none
  | .leaveLoop =>
    if ac.reader = .reading then some (s.setConn c { ac with reader := .exiting }) else none
  | .closeConn =>
    if ac.reader = .exiting then
      some (s.setConn c { ac.close with reader := .unregistering })
    else none
  | .unregister =>
    if ac.reader = .unregistering then
      some { s.setConn c { ac with reader := .clearing } with
        agents := Function.update s.agents ac.serverID none }
    else none
  | .clearPending =>
    if ac.reader = .clearing then
      some { s.setConn c { ac with reader := .gone, pending := ∅ } with
        sends := s.closePending ac }
    else none

/-- `delete(ac.pending, msg.ID)`, and `Send` returns. -/
def AgentServer.withdraw (s : AgentServer) (k : ℕ) (t : SendCall) (ac : AgentConn)
    (result : SendResult) : AgentServer :=
  (s.setConn t.conn { ac with pending := ac.pending.erase t.msg.id }).setSend k
    { t with point := .returned result }

def sendStep (s : AgentServer) (k : ℕ) (t : SendCall) (ac : AgentConn) :
    SendAction → Option AgentServer
  | .register =>
    if t.point = .registering then
      some ((s.setConn t.conn { ac with pending := ac.pending.insert t.msg.id k }).setSend k
        { t with point := .encoding })
    else none
  | .encode ok =>
    if t.point = .encoding then
      some (s.setSend k { t with point := if ok then .waiting else .failing })
    else none
  | .takeResponse =>
    if t.point = .waiting then
      t.buffer.map fun resp => s.setSend k { t with
        buffer := none
        point := .returned (if resp.type = .error then .agentError resp else .response resp) }
    else none
  | .seeClosed =>
    if t.point = .waiting ∧ t.buffer = none ∧ t.chClosed = true then
      some (s.setSend k { t with point := .returned .disconnected })
    else none
  | .contextDone =>
    if t.point = .waiting then some (s.setSend k { t with point := .cancelling }) else none
  | .withdraw =>
    match t.point with
    | .failing => some (s.withdraw k t ac .encodeFailed)
    | .cancelling => some (s.withdraw k t ac .contextDone)
    | _ => none

def serverStep (s : AgentServer) : ServerAction → Option AgentServer
  | .connect serverID => if s.closed then none else some (s.connect serverID)
  | .reader c a => s.conns[c]?.bind fun ac => readerStep s c ac a
  | .heartbeatTimeout c => s.conns[c]?.map fun ac => s.setConn c ac.close
  | .stop => some s.stop
  | .send c msg =>
    if c < s.conns.length then
      some { s with sends := s.sends ++ [⟨c, msg, .registering, none, false⟩] }
    else none
  | .call k a => do
    let t ← s.sends[k]?
    let ac ← s.conns[t.conn]?
    sendStep s k t ac a

lemma setConn_self {s : AgentServer} {c : ℕ} {ac : AgentConn} (hac : s.conns[c]? = some ac) :
    s.setConn c ac = s := by
  obtain ⟨hlt, rfl⟩ := List.getElem?_eq_some_iff.mp hac
  simp [AgentServer.setConn]

variable {s : AgentServer} {c : ℕ} {ac : AgentConn}

lemma closeOld_getElem? (s : AgentServer) (serverID : String) (c : ℕ) :
    (s.closeOld serverID)[c]? =
      s.conns[c]?.map fun ac => if s.agents serverID = some c then ac.close else ac := by
  unfold AgentServer.closeOld
  cases s.agents serverID with
  | none => simp
  | some old => simp [getElem?_modify]

lemma length_closeOld (s : AgentServer) (serverID : String) :
    (s.closeOld serverID).length = s.conns.length := by
  unfold AgentServer.closeOld
  cases s.agents serverID with
  | none => rfl
  | some old => simp

lemma connect_conns_of (hac : s.conns[c]? = some ac) (serverID : String) :
    (s.connect serverID).conns[c]? =
      some (if s.agents serverID = some c then ac.close else ac) := by
  have hlt := (List.getElem?_eq_some_iff.mp hac).1
  rw [← length_closeOld s serverID] at hlt
  rw [AgentServer.connect, getElem?_append_left hlt, closeOld_getElem?, hac, map_some]

lemma connect_conns_new (s : AgentServer) (serverID : String) :
    (s.connect serverID).conns[s.conns.length]? = some ⟨serverID, false, .starting, ∅⟩ := by
  simp [AgentServer.connect, ← length_closeOld s serverID]

lemma connect_conns {serverID : String} (h : (s.connect serverID).conns[c]? = some ac) :
    (∃ ac0, s.conns[c]? = some ac0 ∧
      ac = if s.agents serverID = some c then ac0.close else ac0) ∨
    c = s.conns.length ∧ ac = ⟨serverID, false, .starting, ∅⟩ := by
  rcases Pool.getElem?_snoc h with h | ⟨hc, hac⟩
  · rw [closeOld_getElem?] at h
    obtain ⟨ac0, hac0, rfl⟩ := map_eq_some_iff.mp h
    exact .inl ⟨ac0, hac0, rfl⟩
  · exact .inr ⟨hc.trans (length_closeOld s serverID), hac⟩

lemma stop_conns (h : s.stop.conns[c]? = some ac) : ∃ ac0, s.conns[c]? = some ac0 ∧
    ac = if s.agents ac0.serverID = some c then ac0.close else ac0 := by
  simp only [AgentServer.stop, getElem?_mapIdx] at h
  obtain ⟨ac0, hac, rfl⟩ := map_eq_some_iff.mp h
  exact ⟨ac0, hac, rfl⟩

/-- A step of `Send` changes its own call, which has not returned, and at most the pending map of
its connection. -/
lemma sendStep_effect {s' : AgentServer} {k : ℕ} {t : SendCall}
    {a : SendAction} (hac : s.conns[t.conn]? = some ac) (h : sendStep s k t ac a = some s') :
    (∀ r, t.point ≠ .returned r) ∧ s'.agents = s.agents ∧ s'.closed = s.closed ∧
      (∃ t', s'.sends = s.sends.set k t' ∧ t'.msg = t.msg) ∧
      ∃ pending, s'.conns = s.conns.set t.conn { ac with pending := pending } := by
  have hsame : s.conns = s.conns.set t.conn { ac with pending := ac.pending } :=
    congrArg AgentServer.conns (setConn_self hac).symm
  cases a with
  | register =>
    obtain ⟨hp, rfl⟩ := ite_some_none_eq_some.mp h
    exact ⟨fun r hr => by simp [hr] at hp, rfl, rfl, ⟨_, rfl, rfl⟩, _, rfl⟩
  | encode ok | contextDone =>
    obtain ⟨hp, rfl⟩ := ite_some_none_eq_some.mp h
    exact ⟨fun r hr => by simp [hr] at hp, rfl, rfl, ⟨_, rfl, rfl⟩, _, hsame⟩
  | takeResponse =>
    obtain ⟨hp, h⟩ := ite_none_right_eq_some.mp h
    obtain ⟨resp, -, rfl⟩ := map_eq_some_iff.mp h
    exact ⟨fun r hr => by simp [hr] at hp, rfl, rfl, ⟨_, rfl, rfl⟩, _, hsame⟩
  | seeClosed =>
    obtain ⟨⟨hp, -⟩, h⟩ := ite_none_right_eq_some.mp h
    cases h
    exact ⟨fun r hr => by simp [hr] at hp, rfl, rfl, ⟨_, rfl, rfl⟩, _, hsame⟩
  | withdraw =>
    simp only [sendStep] at h
    split at h
    case h_1 hp | h_2 hp =>
      cases h
      exact ⟨fun r hr => by simp [hr] at hp, rfl, rfl, ⟨_, rfl, rfl⟩, _, rfl⟩
    case h_3 => cases h

/-!
# Which connection is registered

`HandleConnect` closes the connection that it replaces. The reader of the replaced connection then
runs `removeAgent`, which deletes whatever connection is registered under the server id.
-/

open StepMachine Function Pool

/-- `c` is the connection of `id` that was accepted last among those that are still live. -/
def NewestLive (s : AgentServer) (id : String) (c : ℕ) : Prop :=
  (∃ ac, s.conns[c]? = some ac ∧ ac.serverID = id ∧ ac.closed = false) ∧
    ∀ d ad, c < d → s.conns[d]? = some ad → ad.serverID = id → ad.closed = true

/-- The newest live connection of every server id is the one that `Send` finds. -/
def NewestRegistered (s : AgentServer) : Prop := ∀ id c, NewestLive s id c → s.get id = some c

/-- A teardown deletes an entry of the map only when it is not that of a live connection. -/
def SparesLive (s : AgentServer) : ServerAction → Prop
  | .reader c .unregister =>
    ∀ ac ∈ s.conns[c]?, ∀ r ∈ s.agents ac.serverID, ∀ ar ∈ s.conns[r]?, ar.closed = true
  | _ => True

instance (s : AgentServer) (a : ServerAction) : Decidable (SparesLive s a) := by
  unfold SparesLive
  split <;> infer_instance

structure Registered (s : AgentServer) : Prop where
  valid : ∀ id r, s.agents id = some r → ∃ ac, s.conns[r]? = some ac ∧ ac.serverID = id
  closing : ∀ ac ∈ s.conns, ac.reader = .unregistering → ac.closed = true
  live : ∀ c ac, s.conns[c]? = some ac → ac.closed = false →
    s.agents ac.serverID = some c

variable {s s' : AgentServer} {c : ℕ} {ac : AgentConn} (hs : Registered s)
include hs

lemma newestRegistered_of_registered : NewestRegistered s := by
  rintro id c ⟨⟨ac, hac, rfl, hlive⟩, -⟩
  exact hs.live c ac hac hlive

lemma Registered.setConn (hac : s.conns[c]? = some ac) {ac' : AgentConn}
    (hagents : s'.agents = s.agents) (hconns : s'.conns = s.conns.set c ac')
    (hid : ac'.serverID = ac.serverID) (hlive : ac'.closed = false → ac.closed = false)
    (hclosing : ac'.reader = .unregistering → ac'.closed = true) : Registered s' where
  valid id r hr := by
    rw [hagents] at hr
    rw [hconns]
    obtain ⟨ar, har, harid⟩ := hs.valid id r hr
    rcases eq_or_ne r c with rfl | hne
    · cases hac.symm.trans har
      exact ⟨ac', getElem?_set_self hac ac', hid.trans harid⟩
    · exact ⟨ar, getElem?_set_of_ne hne ac' har, harid⟩
  closing := hconns ▸ forall_set hs.closing hclosing
  live d ad hd hopen := by
    rw [hconns] at hd
    rw [hagents]
    rcases getElem?_set hd with ⟨rfl, rfl⟩ | ⟨-, hd⟩
    · exact hid ▸ hs.live d ac hac (hlive hopen)
    · exact hs.live d ad hd hopen

lemma registered_connect (serverID : String) :
    Registered (s.connect serverID) where
  valid id r hr := by
    rcases eq_or_ne id serverID with rfl | hne
    · obtain rfl : s.conns.length = r := by simpa [AgentServer.connect] using hr
      exact ⟨_, connect_conns_new s id, rfl⟩
    simp only [AgentServer.connect, update_of_ne hne] at hr
    obtain ⟨ar, har, harid⟩ := hs.valid id r hr
    refine ⟨_, connect_conns_of har serverID, ?_⟩
    split <;> exact harid
  closing ad had hr := by
    obtain ⟨d, hd⟩ := mem_iff_getElem?.mp had
    rcases connect_conns hd with ⟨ad0, had0, rfl⟩ | ⟨-, rfl⟩
    · by_cases hreg : s.agents serverID = some d
      · rw [if_pos hreg]
        rfl
      · rw [if_neg hreg] at hr ⊢
        exact hs.closing ad0 (mem_of_getElem? had0) hr
    · cases hr
  live d ad hd hopen := by
    rcases connect_conns hd with ⟨ad0, had0, rfl⟩ | ⟨rfl, rfl⟩
    · split at hopen
      case isTrue => cases hopen
      case isFalse hne =>
        have hreg := hs.live d ad0 had0 hopen
        have hid : ad0.serverID ≠ serverID := fun h => hne (h ▸ hreg)
        rw [if_neg hne]
        exact (update_of_ne hid _ _).trans hreg
    · exact update_self ..

lemma registered_stop : Registered s.stop where
  valid id r hr := by cases hr
  closing ad had hr := by
    obtain ⟨d, hd⟩ := mem_iff_getElem?.mp had
    obtain ⟨ad0, had0, rfl⟩ := stop_conns hd
    by_cases hreg : s.agents ad0.serverID = some d
    · rw [if_pos hreg]
      rfl
    · rw [if_neg hreg] at hr ⊢
      exact hs.closing ad0 (mem_of_getElem? had0) hr
  live d ad hd hopen := by
    obtain ⟨ad0, had0, rfl⟩ := stop_conns hd
    split at hopen
    case isTrue => cases hopen
    case isFalse hne => exact absurd (hs.live d ad0 had0 hopen) hne

variable (hac : s.conns[c]? = some ac)
include hac

lemma registered_unregister
    (hr : ac.reader = .unregistering) (hspare : SparesLive s (.reader c .unregister)) :
    Registered { s.setConn c { ac with reader := .clearing } with
      agents := update s.agents ac.serverID none } := by
  have hset : Registered (s.setConn c { ac with reader := .clearing }) :=
    hs.setConn hac rfl rfl rfl id nofun
  refine ⟨fun id r hid => ?_, hset.closing, fun d ad hd hopen => ?_⟩
  · rcases eq_or_ne id ac.serverID with rfl | hne
    · simp at hid
    · exact hset.valid id r ((update_of_ne hne _ _).symm.trans hid)
  have hreg := hset.live d ad hd hopen
  have hid : ad.serverID ≠ ac.serverID := by
    intro hid
    have hclosed : ac.closed = true := hs.closing ac (mem_of_getElem? hac) hr
    rcases getElem?_set hd with ⟨rfl, rfl⟩ | ⟨-, hd⟩
    · simp [hclosed] at hopen
    · have := hspare ac hac d (hid ▸ hreg) ad hd
      simp [this] at hopen
  exact (update_of_ne hid _ _).trans hreg

lemma sparesLive_of_newestRegistered (hr : ac.reader = .unregistering)
    (h : NewestRegistered { s.setConn c { ac with reader := .clearing } with
      agents := update s.agents ac.serverID none }) :
    SparesLive s (.reader c .unregister) := by
  intro ac' hac' r hreg ar har
  cases hac.symm.trans hac'
  by_contra hopen
  rw [Bool.not_eq_true] at hopen
  obtain ⟨ar', har', hid⟩ := hs.valid ac.serverID r hreg
  obtain rfl : ar' = ar := some.inj (har'.symm.trans har)
  have hrc : r ≠ c := by
    rintro rfl
    obtain rfl : ar' = ac := some.inj (har'.symm.trans hac)
    simp [hs.closing ar' (mem_of_getElem? hac) hr] at hopen
  have hnew : NewestLive { s.setConn c { ac with reader := .clearing } with
      agents := update s.agents ac.serverID none } ac.serverID r := by
    refine ⟨⟨ar', getElem?_set_of_ne hrc _ har, hid, hopen⟩, fun d ad hlt hd hidd => ?_⟩
    by_contra hopen'
    rw [Bool.not_eq_true] at hopen'
    have hd' : s.agents ac.serverID = some d := by
      rcases getElem?_set hd with ⟨rfl, rfl⟩ | ⟨-, hd⟩
      · exact hs.live d ac hac hopen'
      · exact hidd ▸ hs.live d ad hd hopen'
    have hdr : r = d := some.inj (mem_def.mp hreg ▸ hd')
    omega
  have hnone : (none : Option ℕ) = some r :=
    (update_self (f := s.agents) ..).symm.trans (h _ r hnew)
  cases hnone

lemma registered_readerStep {a : ReaderAction}
    (hspare : SparesLive s (.reader c a)) (h : readerStep s c ac a = some s') : Registered s' := by
  cases a with
  | start | leaveLoop | clearPending =>
    obtain ⟨-, rfl⟩ := ite_some_none_eq_some.mp h
    exact hs.setConn hac rfl rfl rfl id nofun
  | receive msg =>
    obtain ⟨hr, rfl⟩ := ite_some_none_eq_some.mp h
    have hmsg : (ac.handleAgentMessage msg).serverID = ac.serverID ∧
        (ac.handleAgentMessage msg).closed = ac.closed ∧
        (ac.handleAgentMessage msg).reader ≠ .unregistering := by
      unfold AgentConn.handleAgentMessage
      split
      · split <;> simp [hr]
      · simp [hr]
    obtain ⟨hid, hcl, hne⟩ := hmsg
    exact hs.setConn hac rfl rfl hid (fun h => hcl ▸ h) fun h => absurd h hne
  | deliver =>
    simp only [readerStep] at h
    split at h
    case h_1 ch msg hr =>
      obtain ⟨t, ht, h⟩ := bind_eq_some_iff.mp h
      obtain ⟨-, rfl⟩ := ite_some_none_eq_some.mp h
      exact hs.setConn hac rfl rfl rfl id nofun
    case h_2 => cases h
  | closeConn =>
    obtain ⟨-, rfl⟩ := ite_some_none_eq_some.mp h
    exact hs.setConn hac rfl rfl rfl nofun fun _ => rfl
  | unregister =>
    obtain ⟨hr, rfl⟩ := ite_some_none_eq_some.mp h
    exact registered_unregister hs hac hr hspare

omit hac

omit hs

/-- **Every step that spares the live connections keeps each of them registered.** -/
theorem registered_step (s : AgentServer) (a : ServerAction) (s' : AgentServer) (hs : Registered s)
    (hspare : SparesLive s a) (h : serverStep s a = some s') : Registered s' := by
  cases a with
  | connect serverID =>
    obtain ⟨-, h⟩ := ite_none_left_eq_some.mp h
    cases h
    exact registered_connect hs serverID
  | reader c a =>
    obtain ⟨ac, hac, h⟩ := bind_eq_some_iff.mp h
    exact registered_readerStep hs hac hspare h
  | heartbeatTimeout c =>
    obtain ⟨ac, hac, rfl⟩ := map_eq_some_iff.mp h
    exact hs.setConn hac rfl rfl rfl nofun fun _ => rfl
  | stop =>
    cases h
    exact registered_stop hs
  | send c msg =>
    obtain ⟨-, rfl⟩ := ite_some_none_eq_some.mp h
    exact { hs with }
  | call k a =>
    obtain ⟨t, ht, h⟩ := bind_eq_some_iff.mp h
    obtain ⟨ac, hac, h⟩ := bind_eq_some_iff.mp h
    obtain ⟨-, hagents, -, -, pending, hconns⟩ := sendStep_effect hac h
    exact hs.setConn hac hagents hconns rfl id (hs.closing ac (mem_of_getElem? hac))

lemma sparesLive_of_step (s : AgentServer) (a : ServerAction) (s' : AgentServer)
    (hs : Registered s) (h : serverStep s a = some s') (hnew : NewestRegistered s') :
    SparesLive s a := by
  cases a with
  | reader c a =>
    cases a with
    | unregister =>
      obtain ⟨ac, hac, h⟩ := bind_eq_some_iff.mp h
      obtain ⟨hr, rfl⟩ := ite_some_none_eq_some.mp h
      exact sparesLive_of_newestRegistered hs hac hr hnew
    | start | receive | deliver | leaveLoop | closeConn | clearPending => trivial
  | _ => trivial

lemma registered_newAgentServer : Registered newAgentServer where
  valid _ _ h := by cases h
  closing _ h := by simp [newAgentServer] at h
  live _ _ h := by simp [newAgentServer] at h

/-- **The newest live connection of every server id stays registered exactly when no teardown
deletes a live one**: in every state of a run, against every teardown in it. -/
theorem newestRegistered_iff (as : List ServerAction) (s : AgentServer)
    (h : run serverStep newAgentServer as = some s) :
    Always serverStep NewestRegistered newAgentServer as ↔
      Along serverStep SparesLive newAgentServer as :=
  always_iff_along (fun _ => newestRegistered_of_registered) registered_step sparesLive_of_step
    registered_newAgentServer h

/-- The teardown of a connection, from a read error to the end of `removeAgent`. -/
def teardown (c : ℕ) : List ServerAction :=
  [.reader c .leaveLoop, .reader c .closeConn, .reader c .unregister, .reader c .clearPending]

def reconnectAfterTeardown : List ServerAction :=
  [.connect "node-1", .reader 0 .start] ++ teardown 0 ++ [.connect "node-1", .reader 1 .start]

theorem newestRegistered_iff_reconnectAfterTeardown :
    (∃ s, run serverStep newAgentServer reconnectAfterTeardown = some s ∧ s.get "node-1" = some 1) ∧
      Always serverStep NewestRegistered newAgentServer reconnectAfterTeardown := by
  obtain ⟨s, hs, hget⟩ : ∃ s, run serverStep newAgentServer reconnectAfterTeardown = some s ∧
      s.get "node-1" = some 1 := by decide
  exact ⟨⟨s, hs, hget⟩, (newestRegistered_iff _ s hs).mpr (by decide)⟩

def reconnectBeforeTeardown : List ServerAction :=
  [.connect "node-1", .reader 0 .start, .connect "node-1", .reader 1 .start] ++ teardown 0

theorem newest_unregistered : ∃ s, run serverStep newAgentServer reconnectBeforeTeardown = some s ∧
      s.conns.map (fun ac => (ac.serverID, ac.closed)) = [("node-1", true), ("node-1", false)] ∧
      s.get "node-1" = none ∧ NewestLive s "node-1" 1 ∧ ¬ NewestRegistered s := by
  refine exists_of_run_imp (P := fun s => s.conns.map (fun ac => (ac.serverID, ac.closed)) =
    [("node-1", true), ("node-1", false)] ∧ s.get "node-1" = none) (by decide)
    fun s _ ⟨hconns, hget⟩ => ?_
  have hlen : s.conns.length = 2 := by simpa using congrArg length hconns
  have hlast : s.conns[1]?.map (fun ac => (ac.serverID, ac.closed)) = some ("node-1", false) := by
    rw [← getElem?_map, hconns]
    rfl
  obtain ⟨ac, hac, hkey⟩ := map_eq_some_iff.mp hlast
  obtain ⟨hid, hopen⟩ := Prod.mk.inj hkey
  have hnew : NewestLive s "node-1" 1 := by
    refine ⟨⟨ac, hac, hid, hopen⟩, fun d ad hlt hd => ?_⟩
    rw [getElem?_eq_none (by omega)] at hd
    cases hd
  refine ⟨hconns, hget, hnew, fun h => ?_⟩
  rw [h _ 1 hnew] at hget
  cases hget

end DeployMonster.Swarm
