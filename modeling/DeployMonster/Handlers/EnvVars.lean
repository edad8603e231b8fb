import DeployMonster.DB.KVHistory
import DeployMonster.Handlers.Operations

/-!
# Environment variables and deployments

`EnvVarHandler` of `internal/api/handlers/env_ops.go` keeps the variables of an application in a
column of its row, which the three paths that start a container never read.
-/

namespace DeployMonster.Handlers

open DB Deploy Program StepMachine

structure EnvVarEntry where
  (key value : String)
  deriving DecidableEq

def EnvVarEntry.assignment (v : EnvVarEntry) : String := v.key ++ "=" ++ v.value

/-- The JSON texts of lists of variables. -/
abbrev EnvCodec := Codec (List EnvVarEntry) String

variable (codec : EnvCodec)

/-- `Get`, for the application of the request: GET /api/v1/apps/{id}/env. An error has the status
and the message of the answer. -/
def getEnvVars (app : Application) : Except (ℕ × String) (List EnvVarEntry) :=
  if app.envVarsEnc = "" then .ok []
  else
    match codec.unmarshal app.envVarsEnc with
    | .error _ => .error (500, "failed to parse env vars")
    | .ok envVars => .ok envVars

def storedEnv (app : Application) : List EnvVarEntry :=
  (getEnvVars codec app).toOption.getD []

/-- The loop over the variables: the size of all of them, in bytes. -/
def sizeLoop (totalSize : ℕ) : List EnvVarEntry → Except (ℕ × String) ℕ
  | [] => .ok totalSize
  | v :: vars =>
    if v.key = "" then .error (400, "empty key not allowed")
    else if 256 < v.key.utf8ByteSize then .error (400, "env var key exceeds 256 characters")
    else if 64 * 1024 < v.value.utf8ByteSize then .error (400, "env var value exceeds 64KB limit")
    else sizeLoop (totalSize + v.key.utf8ByteSize + v.value.utf8ByteSize) vars

def validateVars (vars : List EnvVarEntry) : Except (ℕ × String) Unit :=
  if 500 < vars.length then .error (400, "too many env vars (max 500)")
  else do
    let totalSize ← sizeLoop 0 vars
    if 512 * 1024 < totalSize then .error (400, "total env vars payload exceeds 512KB limit")

/-- What `Update` writes: the application with the text of the variables, when the body can be
decoded. -/
def envUpdate (app : Application) (body : Option (List EnvVarEntry)) :
    Except (ℕ × String) Application :=
  match body with
  | none => .error (400, "invalid request body")
  | some vars => do
    validateVars vars
    match codec.marshal vars with
    | .error _ => .error (500, "failed to serialize env vars")
    | .ok data => .ok { app with envVarsEnc := data }

inductive EnvResponse
  | error (status : ℕ) (message : String)
  /-- 200, with the status updated. -/
  | updated
  deriving DecidableEq

/-- `Update`, for the application of the request: PUT /api/v1/apps/{id}/env. -/
def updateEnvVars (app : Application) (body : Option (List EnvVarEntry))
    (fails : Bool) (now : ℤ) (t : AppTable) : EnvResponse × AppTable :=
  match envUpdate codec app body with
  | .error (status, message) => (.error status message, t)
  | .ok app =>
    match if fails then none else app.value.update t now with
    | none => (.error 500 "failed to update env vars", t)
    | some t' => (.updated, t')

/-- The requests in flight: the world, and the deployments and rollbacks. -/
abbrev EnvState := DeployWorld × List (DeployM Unit)

inductive EnvAction
  /-- A deployment or rollback performs its next call. -/
  | call (thread : ℕ) (o : DeployChoice)
  /-- Another request writes the table of applications. -/
  | write (e : AppEvent)

variable (s : EnvState)

def envStep : EnvAction → Option EnvState
  | .call i o => poolStep deployExec s (i, o)
  | .write e => (appStep s.1.apps e).map fun apps => ({ s.1 with apps }, s.2)

def started : EnvAction → Option ContainerOpts
  | .call i _ =>
    match s.2[i]? with
    | some (.call (.createAndStart _ opts) _) => some opts
    | _ => none
  | .write _ => none

def ownerOf (opts : ContainerOpts) : Option Application :=
  (opts.labels.lookup "monster.app.id").bind (getApp s.1.apps)

/-- A container that is started has the variables that are stored for its application. -/
def Passes (s : EnvState) (a : EnvAction) : Prop :=
  ∀ opts ∈ started s a, ∀ app ∈ ownerOf s opts, ∀ v ∈ storedEnv codec app, v.assignment ∈ opts.env
  deriving Decidable

/-- A container that is started is of an application for which no variables are stored. -/
def NoneStored (s : EnvState) (a : EnvAction) : Prop :=
  ∀ opts ∈ started s a, ∀ app ∈ ownerOf s opts, storedEnv codec app = []
  deriving Decidable

/-- The deployments and rollbacks in flight create containers with the options of deployments. -/
def Deploys : Prop := ∀ p ∈ s.2, CallsIn Answered DeployedCall p

variable {codec : EnvCodec} {s s' : EnvState} {a : EnvAction}

lemma deploys_step (hs : Deploys s) (h : envStep s a = some s') : Deploys s' := by
  cases a with
  | call i o =>
    have hanswered : ∀ c t o r t', True → deployExec c t o = some (r, t') → Answered c r :=
      fun c t o r t' _ h => answered_of_deployExec h
    exact (CallsIn.step (I := fun _ => True) hanswered (fun _ _ _ _ _ _ _ _ => trivial) trivial hs h).2
  | write e =>
    obtain ⟨apps, -, rfl⟩ := Option.map_eq_some_iff.mp h
    exact hs

/-- **No container is started with a variable.** -/
theorem env_of_started {opts : ContainerOpts} (hs : Deploys s) (h : started s a = some opts) :
    opts.env = [] := by
  cases a with
  | call i o =>
    dsimp only [started] at h
    split at h
    case h_1 node opts' k hthread =>
      cases h
      have hcalls := hs _ (List.mem_of_getElem? hthread)
      obtain ⟨app, version, image, labels, rfl, -⟩ := hcalls.1
      rfl
    case h_2 => nomatch h
  | write e => nomatch h

lemma passes_iff_noneStored (hs : Deploys s) : Passes codec s a ↔ NoneStored codec s a := by
  refine forall₂_congr fun opts hopts => forall₂_congr fun app _ => ?_
  rw [env_of_started hs hopts, List.eq_nil_iff_forall_not_mem]
  exact forall₂_congr fun v _ => by simp

/-- **A run passes every stored variable exactly when none is stored** for the applications whose
containers it starts, whatever is in flight and whatever else is written to the table. -/
theorem env_passed_iff (codec : EnvCodec) (ops : List Operation) (w : DeployWorld)
    {as : List EnvAction} {s : EnvState} (hrun : run envStep (w, ops.map Operation.prog) as = some s) :
    Along envStep (Passes codec) (w, ops.map Operation.prog) as ↔
      Along envStep (NoneStored codec) (w, ops.map Operation.prog) as :=
  along_congr_of_invariant (fun _ _ _ hs hstep => deploys_step hs hstep)
    (fun _ _ _ hs _ => passes_iff_noneStored hs) (deployed_operations ops) hrun

def portVar : EnvVarEntry := ⟨"PORT", "8080"⟩

def portJSON : String := "[\x7b\"key\":\"PORT\",\"value\":\"8080\"\x7d]"

def portCodec : EnvCodec where
  marshal vars := if vars = [portVar] then .ok portJSON else .error "unsupported value"
  unmarshal data := if data = portJSON then .ok [portVar] else .error "invalid character"
  valid data := data = portJSON
  unmarshal_marshal {vars data} h := by
    split at h
    case isTrue hvars =>
      cases h
      rw [if_pos rfl, hvars]
    case isFalse => nomatch h
  valid_marshal {vars data} h := by
    split at h
    case isTrue =>
      cases h
      exact decide_eq_true rfl
    case isFalse => nomatch h

def storePort (sourceType : SourceType) : EnvAction :=
  .write (.update { webApp sourceType with envVarsEnc := portJSON }.value 0)

def deployWeb (sourceType : SourceType) : Operation :=
  .deploy ⟨true, false⟩ (webApp sourceType) "manual" ""

def rollbackChoices : List DeployChoice := [{}, {}, {}, {}, { rowID := "d2" }, {}, {}, {}]

/-- An application without variables is deployed with all of them. -/
theorem env_passed_iff_web :
    ∃ s, run envStep (newWorld (webApp .image), [deployWeb .image].map Operation.prog)
        (imageChoices.map (.call 0)) = some s ∧
      Along envStep (Passes portCodec)
        (newWorld (webApp .image), [deployWeb .image].map Operation.prog)
        (imageChoices.map (.call 0)) := by
  exact exists_of_run_imp (P := fun _ => True) (by decide +kernel) fun s hrun _ =>
    (env_passed_iff _ _ _ hrun).mpr (by decide +kernel)

/-- `Update` stores `PORT=8080` and answers that it is updated. Neither a deployment of the image,
nor one from git, nor a rollback then starts its container with it. -/
theorem port_lost : (updateEnvVars portCodec (webApp .image) (some [portVar]) false 0
      (newWorld (webApp .image)).apps).1 = .updated ∧
    ¬Along envStep (Passes portCodec)
      (newWorld (webApp .image), [deployWeb .image].map Operation.prog)
      (storePort .image :: imageChoices.map (.call 0)) ∧
    ¬Along envStep (Passes portCodec)
      (newWorld (webApp .git), [deployWeb .git].map Operation.prog)
      (storePort .git :: gitChoices.map (.call 0)) ∧
    ¬Along envStep (Passes portCodec)
      (newWorld (webApp .git), [deployWeb .git, .rollback true "web" 1].map Operation.prog)
      (gitChoices.map (.call 0) ++ storePort .git :: rollbackChoices.map (.call 1)) := by
  decide +kernel

end DeployMonster.Handlers
