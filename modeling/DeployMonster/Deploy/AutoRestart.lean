import DeployMonster.Deploy.Rollback

/-!
# The auto-restart monitor

`AutoRestarter` of `internal/deploy/autorestart.go`. It looks at the state of a container alone:
whether the application was stopped on purpose it does not ask.
-/

namespace DeployMonster.Deploy

open Handlers Program

def maxRetries : ℕ := 5

def defaultAutoRestartRetryDelay (attempt : ℕ) : ℕ := attempt * 5 * 1000000000

/-- The tenant of the application, as the updates of its status need it. -/
def tenantOf (appID : String) : DeployM String := do
  match ← call (.getApp appID) with
  | .error _ => return ""
  | .ok app => return app.tenantID

/-- The loop of `handleCrash`, from the given attempt on: whether one of the attempts succeeds. -/
def restartAttempts (runtime : Bool) (containerID attempt : ℕ) : ℕ → DeployM Bool
  | 0 => return false
  | n + 1 => do
    call (.sleep (defaultAutoRestartRetryDelay attempt))
    if runtime then
      match ← call (.restart localNode (.id containerID)) with
      | .error _ => restartAttempts runtime containerID (attempt + 1) n
      | .ok () => return true
    else return false

/-- `handleCrash`, after its attempts. -/
def concludeCrash (appID : String) (restarted : Bool) : DeployM Unit := do
  let tenantID ← tenantOf appID
  let _ ← call (.updateAppStatus appID (if restarted then .running else .failed) tenantID)

def handleCrash (runtime : Bool) (appID : String) (containerID : ℕ) : DeployM Unit := do
  let tenantID ← tenantOf appID
  let _ ← call (.updateAppStatus appID .crashed tenantID)
  call (.publish (.appCrashed appID))
  let restarted ← restartAttempts runtime containerID 1 maxRetries
  concludeCrash appID restarted

def Container.crashed (c : Container) : Bool := c.state = .exited ∨ c.state = .dead

/-- The loop of `checkCrashed`. -/
def restartCrashed (runtime : Bool) : List Container → DeployM Unit
  | [] => return
  | c :: cs => do
    if c.crashed ∧ c.appID ≠ "" then
      handleCrash runtime c.appID c.id
    restartCrashed runtime cs

def checkCrashed (runtime : Bool) : DeployM Unit := do
  if runtime then
    match ← call (.listByLabel localNode "monster.enable" "true") with
    | .error _ => return
    | .ok containers => restartCrashed runtime containers

/-- What the monitor comes to do: a tick, or the handler of a `container.died` event. -/
inductive MonitorThread
  | tick
  | died (appID : String) (containerID : ℕ)

def MonitorThread.prog : MonitorThread → DeployM Unit
  | tick => checkCrashed true
  | died appID containerID => handleCrash true appID containerID

/-- A container that an event names belongs to the application that the event names. -/
def MonitorThread.Truthful (w : DeployWorld) : MonitorThread → Prop
  | tick => True
  | died appID containerID =>
    ∀ c ∈ w.runtime.containers, c.id = containerID → Container.of appID c = true

def Runtime.exits (id : ℕ) (dead : Bool) (c : Container) : Container :=
  if c.id = id ∧ c.state = .running then { c with state := if dead then .dead else .exited } else c

def Runtime.exit (rt : Runtime) (id : ℕ) (dead : Bool) : Runtime :=
  rt.modify (exits id dead) fun c => by unfold exits; split <;> rfl

inductive MonitorAction
  | call (thread : ℕ) (o : DeployChoice)
  | exit (containerID : ℕ) (dead : Bool)

def monitorStep (s : DeployWorld × List (DeployM Unit)) :
    MonitorAction → Option (DeployWorld × List (DeployM Unit))
  | .call thread o => poolStep deployExec s (thread, o)
  | .exit containerID dead =>
    some ({ s.1 with runtime := s.1.runtime.exit containerID dead }, s.2)

lemma Runtime.mem_exit {rt : Runtime} {id : ℕ} {dead : Bool} {c : Container}
    (hc : c ∈ (rt.exit id dead).containers) :
    ∃ c' ∈ rt.containers, c'.Same c ∧ c'.starts = c.starts := by
  obtain ⟨c', hc', rfl⟩ := List.mem_map.mp hc
  refine ⟨c', hc', ?_⟩
  unfold Runtime.exits
  split <;> exact ⟨⟨rfl, rfl, rfl, rfl⟩, rfl⟩

end DeployMonster.Deploy
