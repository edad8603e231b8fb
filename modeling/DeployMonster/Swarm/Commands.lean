import DeployMonster.Library.Semaphore
import DeployMonster.Swarm.Server

/-!
# The commands of an agent

`handleMessage` of `internal/swarm/client.go`, in a goroutine for each message. Its `recover` is not
in a deferred function, so that a handler that panics ends the process.
-/

namespace DeployMonster.Swarm

open StepMachine Pool List Option

inductive CommandType
  | ping | containerCreate | containerStop | containerRemove | containerRestart | containerList
  | containerLogs | containerExec | imagePull | networkCreate | metricsCollect | healthCheck
  | buildTask
  | other (type : String)
  deriving DecidableEq

structure Command where
  id : String
  type : CommandType
  deriving DecidableEq

/-- How decoding the payload and calling the runtime end. -/
inductive Outcome
  | result (value : String)
  | error (text : String)
  | panic
  deriving DecidableEq

/-- Whether the agent has a container runtime, and a build module. -/
structure AgentClient where
  (runtime buildMod : Bool)

def Outcome.isResult : Outcome → Bool
  | .result _ => true
  | _ => false

def Outcome.response : Outcome → Option (AgentMsgType × String)
  | .result value => some (.result, value)
  | .error text => some (.error, text)
  | .panic => none

variable (c : AgentClient) (o : Outcome)

/-- The type and the payload of the response at the end of `handleMessage`, unless it panics. -/
def AgentClient.handle : CommandType → Option (AgentMsgType × String)
  | .ping => some (.pong, "")
  | .healthCheck => some (.result, "ok")
  | .metricsCollect => if c.runtime ∧ o = .panic then none else some (.result, "metrics")
  | .buildTask =>
    match o with
    | .result _ => some (if c.buildMod then (.result, "accepted") else (.error, "build module not wired"))
    | .error e => some (.error, "invalid build task payload: " ++ e)
    | .panic => none
  | .other type => some (.error, "unknown command type: " ++ type)
  | _ => if c.runtime then o.response else some (.error, "container runtime not configured on agent")

/-- A build task that is decoded while there is no build module. -/
def AgentClient.Unwired (type : CommandType) : Prop :=
  type = .buildTask ∧ c.buildMod = false ∧ o.isResult = true
  deriving Decidable

/-- What `handleBuildTask` sends by itself. -/
def AgentClient.own (type : CommandType) : List (AgentMsgType × String) :=
  if c.Unwired o type then [(.error, "build module not wired on this agent")] else []

def Command.response (cmd : Command) (r : AgentMsgType × String) : AgentMessage := ⟨cmd.id, r.1, r.2⟩

inductive HandlerPoint
  /-- Before the slot is acquired. -/
  | started
  | handling
  /-- With what is still to be sent before the slot is released. -/
  | responding (pending : List (AgentMsgType × String))
  | returned
  deriving DecidableEq

def HandlerPoint.slots : HandlerPoint → ℕ
  | .handling | .responding _ => 1
  | .started | .returned => 0

/-- The handlers with their commands, what they have sent, and whether the process runs. -/
structure AgentState where
  sem : Semaphore := .make 32
  handlers : List (Command × HandlerPoint) := []
  sent : List (ℕ × AgentMessage) := []
  alive : Bool := true

inductive AgentAction
  /-- `readLoop` has decoded a message. -/
  | receive (cmd : Command)
  | step (i : ℕ) (o : Outcome)

variable (s : AgentState) (i : ℕ) (cmd : Command)

/-- The handler goes on, and has sent these responses. -/
def AgentState.move (p : HandlerPoint) (rs : List AgentMessage) : AgentState :=
  { s with handlers := s.handlers.set i (cmd, p), sent := s.sent ++ rs.map (i, ·) }

def handlerStep : HandlerPoint → Option AgentState
  | .started => s.sem.acquire.map fun sem => { s.move i cmd .handling [] with sem }
  | .handling =>
    match c.handle o cmd.type with
    | some r => some (s.move i cmd (.responding (c.own o cmd.type ++ [r])) [])
    | none => some { s with alive := false }
  | .responding (r :: pending) => some (s.move i cmd (.responding pending) [cmd.response r])
  | .responding [] => s.sem.release.map fun sem => { s.move i cmd .returned [] with sem }
  | .returned => none

def agentStep (s : AgentState) : AgentAction → Option AgentState
  | .receive cmd =>
    if s.alive then some { s with handlers := s.handlers ++ [(cmd, .started)] } else none
  | .step i o =>
    if s.alive then s.handlers[i]?.bind fun h => handlerStep c o s i h.1 h.2 else none

def AgentState.responsesOf : List AgentMessage := (s.sent.filter (·.1 = i)).map Prod.snd

/-- No handler panics, and no build task is decoded while there is no build module. -/
def Orderly (s : AgentState) : AgentAction → Prop
  | .receive _ => True
  | .step i o => ∀ h ∈ s.handlers[i]?, h.2 = .handling →
    c.handle o h.1.type ≠ none ∧ ¬c.Unwired o h.1.type

instance (a : AgentAction) : Decidable (Orderly c s a) := by
  unfold Orderly
  split <;> infer_instance

/-- What has been sent for a command, by where its handler stands. -/
def HandlerPoint.Answers (cmd : Command) (sent : List AgentMessage) : HandlerPoint → Prop
  | .started | .handling => sent = []
  | .responding pending => ∃ r, sent ++ pending.map cmd.response = [cmd.response r]
  | .returned => ∃ r, sent = [cmd.response r]

structure AgentInv (s : AgentState) : Prop where
  alive : s.alive = true
  slots : s.sem.len = total (·.2.slots) s.handlers
  cap : s.sem.cap = 32
  sent : ∀ e ∈ s.sent, e.1 < s.handlers.length
  answers : ∀ i cmd (p : HandlerPoint), s.handlers[i]? = some (cmd, p) → p.Answers cmd (s.responsesOf i)

variable {c s i cmd} {s' : AgentState} {p q : HandlerPoint}

lemma AgentInv.move (h : AgentInv s) (hi : s.handlers[i]? = some (cmd, p)) (q : HandlerPoint)
    (rs : List AgentMessage) {sem : Semaphore} (hcap : sem.cap = s.sem.cap)
    (hlen : sem.len + p.slots = s.sem.len + q.slots) (hq : q.Answers cmd (s.responsesOf i ++ rs)) :
    AgentInv { s.move i cmd q rs with sem } := by
  have hlt : i < s.handlers.length := (List.getElem?_eq_some_iff.mp hi).1
  refine ⟨h.alive, ?_, hcap.trans h.cap, ?_, fun j cmd' p' hj => ?_⟩
  · have hset := sum_set (·.2.slots) hi (cmd, q)
    have := h.slots
    dsimp only [AgentState.move] at hset ⊢
    omega
  · simp only [AgentState.move, length_set, mem_append, List.mem_map]
    rintro e (he | ⟨r, -, rfl⟩)
    · exact h.sent e he
    · exact hlt
  have hsent : AgentState.responsesOf { s.move i cmd q rs with sem } j =
      s.responsesOf j ++ if i = j then rs else [] := by
    rcases eq_or_ne i j with rfl | hne
    · simp [AgentState.responsesOf, AgentState.move, List.filter_map, Function.comp_def]
    · simp [AgentState.responsesOf, AgentState.move, List.filter_map, Function.comp_def, hne]
  rw [hsent]
  rcases getElem?_set hj with ⟨rfl, heq⟩ | ⟨hne, hj⟩
  · cases heq
    rwa [if_pos rfl]
  · rw [if_neg hne.symm, append_nil]
    exact h.answers j cmd' p' hj

lemma AgentInv.step (h : AgentInv s) {a : AgentAction} (hok : Orderly c s a)
    (hstep : agentStep c s a = some s') : AgentInv s' := by
  match a with
  | .receive cmd =>
    rw [agentStep, if_pos h.alive] at hstep
    cases hstep
    refine ⟨h.alive, by simpa [HandlerPoint.slots] using h.slots, h.cap, fun e he => ?_, ?_⟩
    · exact (h.sent e he).trans (by simp)
    intro j cmd' p' hj
    rcases getElem?_snoc hj with hj | ⟨rfl, heq⟩
    · exact h.answers j cmd' p' hj
    cases heq
    refine map_eq_nil_iff.mpr (filter_eq_nil_iff.mpr fun e he => ?_)
    simpa using (h.sent e he).ne
  | .step i o =>
    rw [agentStep, if_pos h.alive] at hstep
    obtain ⟨⟨cmd, p⟩, hi, hstep⟩ := bind_eq_some_iff.mp hstep
    have hsent := h.answers i cmd p hi
    match p with
    | .started =>
      obtain ⟨sem, hsem, rfl⟩ := map_eq_some_iff.mp hstep
      obtain ⟨-, hcap, hlen⟩ := Semaphore.acquire_eq_some hsem
      exact h.move hi .handling [] hcap hlen ((append_nil _).trans hsent)
    | .handling =>
      obtain ⟨hpanic, hwired⟩ := hok _ hi rfl
      obtain ⟨r, hr⟩ := ne_none_iff_exists'.mp hpanic
      simp only [handlerStep, hr, AgentClient.own, if_neg hwired] at hstep
      cases hstep
      exact h.move hi _ [] rfl rfl ⟨r, by rw [show s.responsesOf i = [] from hsent]; rfl⟩
    | .responding (r :: pending) =>
      cases hstep
      obtain ⟨r', hr'⟩ := hsent
      exact h.move hi (.responding pending) _ rfl rfl ⟨r', by simpa using hr'⟩
    | .responding [] =>
      obtain ⟨sem, hsem, rfl⟩ := map_eq_some_iff.mp hstep
      obtain ⟨-, hcap, hlen⟩ := Semaphore.release_eq_some hsem
      exact h.move hi .returned [] hcap hlen hsent
    | .returned => cases hstep

/-- **Every command gets one response**, in every interleaving of orderly steps: the process goes on,
the slots taken are those of the handlers that have one, and a handler waits for nothing but a slot. -/
theorem commands_answered (c : AgentClient) (as : List AgentAction) (s : AgentState)
    (hok : Along (agentStep c) (Orderly c) {} as) (hrun : run (agentStep c) {} as = some s) :
    s.alive = true ∧ s.sem.len = total (·.2.slots) s.handlers ∧
      ∀ i cmd p, s.handlers[i]? = some (cmd, p) →
        (p = .returned → ∃ r, s.responsesOf i = [r] ∧ r.id = cmd.id) ∧
        ∀ o, (agentStep c s (.step i o)).isSome = true ∨ p = .returned ∨
          p = .started ∧ s.sem.len = 32 := by
  have h : AgentInv s := invariant_of_along (fun _ _ _ h hok hstep => h.step hok hstep)
    ⟨rfl, rfl, rfl, by simp, by simp⟩ hok hrun
  refine ⟨h.alive, h.slots, fun i cmd p hi => ?_⟩
  refine ⟨?_, fun o => ?_⟩
  · rintro rfl
    obtain ⟨r, hr⟩ := h.answers i cmd .returned hi
    exact ⟨_, hr, rfl⟩
  have hmem := mem_of_getElem? hi
  have hslots : p.slots ≤ s.sem.len := h.slots ▸ le_total (·.2.slots) hmem
  have hfull := s.sem.len_le.trans_eq h.cap
  rw [agentStep, if_pos h.alive, hi, bind_some]
  match p with
  | .started =>
    by_cases hlen : s.sem.len = 32
    · exact .inr (.inr ⟨rfl, hlen⟩)
    · refine .inl ?_
      rw [handlerStep, isSome_map, Semaphore.isSome_acquire, h.cap]
      omega
  | .handling => cases hr : c.handle o cmd.type <;> simp [handlerStep, hr]
  | .responding (_ :: _) => exact .inl rfl
  | .responding [] =>
    refine .inl ?_
    rw [handlerStep, isSome_map, Semaphore.isSome_release]
    exact hslots
  | .returned => exact .inr (.inl rfl)

/-- A command to stop a container, whose handler ends so. -/
def stopsWith (o : Outcome) : List AgentAction :=
  [.receive ⟨"1", .containerStop⟩, .step 0 o, .step 0 o]

theorem commands_answered_stop :
    ∃ s, run (agentStep ⟨true, false⟩) {} (stopsWith (.result "") ++ [.step 0 .panic, .step 0 .panic]) =
        some s ∧ s.handlers[0]? = some (⟨"1", .containerStop⟩, .returned) ∧
      ∃ r, s.responsesOf 0 = [r] ∧ r.id = "1" :=
  exists_of_run_and (by decide) fun s hrun h =>
    ((commands_answered _ _ s (by decide) hrun).2.2 0 _ _ h).1 rfl

/-- A handler that panics ends the process without a response; and an agent without a build module
answers a build task twice. -/
theorem commands_unanswered :
    (∃ s, run (agentStep ⟨true, false⟩) {} (stopsWith .panic) = some s ∧
      s.alive = false ∧ s.sent = [] ∧ s.sem.len = 1) ∧
    ∃ s, run (agentStep ⟨true, false⟩) {} (.receive ⟨"2", .buildTask⟩ ::
        replicate 5 (.step 0 (.result ""))) = some s ∧
      s.handlers = [(⟨"2", .buildTask⟩, .returned)] ∧ (s.responsesOf 0).map (·.id) = ["2", "2"] :=
  ⟨by decide, by decide⟩

end DeployMonster.Swarm
