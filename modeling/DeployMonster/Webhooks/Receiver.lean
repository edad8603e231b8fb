import DeployMonster.Core.Clock
import DeployMonster.DB.KV
import DeployMonster.Library.Program
import DeployMonster.Library.SHA256

/-!
# Signatures of webhook deliveries

`detectProvider` and `VerifySignature` of `internal/webhooks/receiver.go`. A delivery of Bitbucket
or of an unknown provider is checked only when it brings a signature.
-/

namespace DeployMonster.Webhooks

section

/-- The headers that the receiver reads. -/
inductive HeaderName
  | gitHubEvent | gitlabEvent | giteaEvent | gogsEvent | eventKey | hubSignature256 | gitlabToken
  | giteaSignature | gogsSignature | hubSignature | signature256 | gitHubDelivery | gitlabEventUUID
  | giteaDelivery | gogsDelivery | hookUUID | requestId

/-- `Header.Get`: the empty text for a header that is absent. -/
abbrev Headers := HeaderName → String

inductive Provider
  | github | gitlab | gitea | gogs | bitbucket | generic
  deriving DecidableEq

variable (r : Headers)

def detectProvider : Provider :=
  if r .gitHubEvent ≠ "" then .github
  else if r .gitlabEvent ≠ "" then .gitlab
  else if r .giteaEvent ≠ "" then .gitea
  else if r .gogsEvent ≠ "" then .gogs
  else if r .eventKey ≠ "" then .bitbucket
  else .generic

/-- The rest of a text that begins with `start`. -/
def cutStart? (start text : String) : Option String :=
  if start.toList <+: text.toList then some (String.ofList (text.toList.drop start.length)) else none

def trimStart (start text : String) : String := (cutStart? start text).getD text

variable (body : List UInt8)

def signPayload (secret : String) : String :=
  SHA256.hex (SHA256.hmac (SHA256.utf8 secret) body)

def verifyGitHubSignature (secret signature : String) : Bool :=
  match cutStart? "sha256=" signature with
  | none => false
  | some signature => signature = signPayload body secret

def verifyGitLabToken (header secret : String) : Bool := header = secret

/-- `VerifyBitbucketSignature`: with `sha256=` before it, or without. -/
def verifyBitbucketSignature (secret signature : String) : Bool :=
  signature ≠ "" ∧ trimStart "sha256=" signature = signPayload body secret

def giteaSignature : String :=
  if r .giteaSignature = "" then r .gogsSignature else r .giteaSignature

def verifySignature (provider : Provider) (body : List UInt8) (secret : String) (r : Headers) : Bool :=
  match provider with
  | .github => verifyGitHubSignature body secret (r .hubSignature256)
  | .gitlab => verifyGitLabToken (r .gitlabToken) secret
  | .gitea | .gogs => verifyGitHubSignature body secret ("sha256=" ++ giteaSignature r)
  | .bitbucket =>
    if r .hubSignature ≠ "" then verifyBitbucketSignature body secret (r .hubSignature) else true
  | .generic =>
    if r .signature256 ≠ "" then verifyBitbucketSignature body secret (r .signature256)
    else if r .hubSignature256 ≠ "" then verifyBitbucketSignature body secret (r .hubSignature256)
    else true

/-! ## What passes -/

variable {body : List UInt8} {secret signature : String}

lemma cutStart?_append (start text : String) : cutStart? start (start ++ text) = some text := by
  rw [cutStart?, String.toList_append, if_pos (List.prefix_append _ _)]
  simp [← String.length_toList]

lemma eq_append_of_cutStart? {start text rest : String} (h : cutStart? start text = some rest) :
    text = start ++ rest := by
  obtain ⟨hstart, hrest⟩ := Option.ite_none_right_eq_some.mp h
  obtain ⟨tail, htail⟩ := hstart
  rw [← Option.some.inj hrest, ← String.toList_inj, String.toList_append, ← htail]
  simp [← String.length_toList]

lemma verifyGitHubSignature_iff : verifyGitHubSignature body secret signature = true ↔
    signature = "sha256=" ++ signPayload body secret := by
  unfold verifyGitHubSignature
  constructor
  · intro h
    cases hcut : cutStart? "sha256=" signature with
    | none => simp [hcut] at h
    | some rest =>
      rw [hcut] at h
      rw [eq_append_of_cutStart? hcut, of_decide_eq_true h]
  · rintro rfl
    rw [cutStart?_append]
    exact decide_eq_true rfl

lemma verifyGitHubSignature_append {sig : String} :
    verifyGitHubSignature body secret ("sha256=" ++ sig) = true ↔ sig = signPayload body secret := by
  rw [verifyGitHubSignature_iff, String.append_right_inj]

lemma length_signPayload : (signPayload body secret).length = 64 := by
  simp [signPayload]

lemma cutStart?_signPayload : cutStart? "sha256=" (signPayload body secret) = none := by
  cases hcut : cutStart? "sha256=" (signPayload body secret) with
  | none => rfl
  | some rest =>
    have hs : 's' ∈ (signPayload body secret).toList := by
      rw [eq_append_of_cutStart? hcut, String.toList_append]
      exact List.mem_append_left _ (by decide)
    exact absurd (SHA256.mem_of_mem_hex hs) (by decide)

lemma verifyBitbucketSignature_iff : verifyBitbucketSignature body secret signature = true ↔
    signature = signPayload body secret ∨ signature = "sha256=" ++ signPayload body secret := by
  rw [verifyBitbucketSignature, decide_eq_true_iff, trimStart]
  constructor
  · rintro ⟨-, h⟩
    cases hcut : cutStart? "sha256=" signature with
    | none =>
      rw [hcut] at h
      exact .inl h
    | some rest =>
      rw [hcut] at h
      exact .inr ((eq_append_of_cutStart? hcut).trans (congrArg _ h))
  · rintro (rfl | rfl)
    · refine ⟨fun hempty => ?_, by rw [cutStart?_signPayload]; rfl⟩
      have hlength : (signPayload body secret).length = 64 := length_signPayload
      rw [hempty] at hlength
      cases hlength
    · refine ⟨fun hempty => ?_, by rw [cutStart?_append]; rfl⟩
      have hlength := congrArg String.length hempty
      rw [String.length_append, length_signPayload] at hlength
      cases hlength

def genericSignature : String :=
  if r .signature256 = "" then r .hubSignature256 else r .signature256

/-- The delivery carries the value that the secret gives: the signature of the body, or the secret
itself, in the header of its provider. -/
def Proves (secret : String) (body : List UInt8) (r : Headers) : Prop :=
  match detectProvider r with
  | .github => r .hubSignature256 = "sha256=" ++ signPayload body secret
  | .gitlab => r .gitlabToken = secret
  | .gitea | .gogs => giteaSignature r = signPayload body secret
  | .bitbucket => r .hubSignature = signPayload body secret ∨
      r .hubSignature = "sha256=" ++ signPayload body secret
  | .generic => genericSignature r = signPayload body secret ∨
      genericSignature r = "sha256=" ++ signPayload body secret

instance (secret : String) (body : List UInt8) (r : Headers) : Decidable (Proves secret body r) := by
  unfold Proves
  split <;> infer_instance

def Unsigned : Prop :=
  match detectProvider r with
  | .bitbucket => r .hubSignature = ""
  | .generic => genericSignature r = ""
  | _ => False

def Provider.signs : Provider → Bool
  | github | gitlab | gitea | gogs => true
  | bitbucket | generic => false

lemma not_unsigned_of_signs {r : Headers} (h : (detectProvider r).signs = true) :
    ¬ Unsigned r := by
  unfold Unsigned
  cases hprovider : detectProvider r with
  | github | gitlab | gitea | gogs => exact id
  | bitbucket | generic => simp [hprovider, Provider.signs] at h

/-- **A delivery passes exactly when it proves the secret or is unsigned.** -/
theorem verifySignature_eq_true_iff (secret : String) (r : Headers) :
    verifySignature (detectProvider r) body secret r = true ↔ Proves secret body r ∨ Unsigned r := by
  unfold verifySignature Proves Unsigned
  cases detectProvider r with
  | github => exact verifyGitHubSignature_iff.trans (or_false _).symm.to_iff
  | gitlab => exact decide_eq_true_iff.trans (or_false _).symm.to_iff
  | gitea | gogs => exact verifyGitHubSignature_append.trans (or_false _).symm.to_iff
  | bitbucket =>
    dsimp only
    split
    case isTrue hsig => rw [verifyBitbucketSignature_iff, or_iff_left hsig]
    case isFalse hsig => exact iff_of_true rfl (.inr (not_not.mp hsig))
  | generic =>
    dsimp only [genericSignature]
    split
    case isTrue hsig => rw [verifyBitbucketSignature_iff, or_iff_left hsig]
    case isFalse hsig =>
      rw [if_pos (not_not.mp hsig)]
      split
      case isTrue hsig => rw [verifyBitbucketSignature_iff, or_iff_left hsig]
      case isFalse hsig => exact iff_of_true rfl (.inr (not_not.mp hsig))

/-!
# Payloads of webhook deliveries

`parsePayload` of `internal/webhooks/receiver.go` and the parsers of the providers. A parser fails
only when the body is not JSON or not an object.
-/

inductive Json
  | null
  | bool (b : Bool)
  | number (text : String)
  | string (s : String)
  | array (elements : List Json)
  | object (fields : List (String × Json))

namespace Json

/-- What the value decodes to as `map[string]any`: `null` leaves the map empty, and other values are
not accepted. -/
def fields? : Json → Option (List (String × Json))
  | null => some []
  | object fields => some fields
  | _ => none

def field (key : String) (fields : List (String × Json)) : Json :=
  (fields.reverse.lookup key).getD null

def string? : Json → Option String
  | string s => some s
  | _ => none

/-- A value of the kind `map[string]any`. -/
def object? : Json → Option (List (String × Json))
  | object fields => some fields
  | _ => none

def array? : Json → Option (List Json)
  | array elements => some elements
  | _ => none

def text (key : String) (fields : List (String × Json)) : String := (field key fields).string?.getD ""

end Json

open Json

structure WebhookPayload where
  provider : String := ""
  eventType : String := ""
  branch : String := ""
  commitSHA : String := ""
  commitMsg : String := ""
  author : String := ""
  repoURL : String := ""
  repoName : String := ""
  deriving DecidableEq

/-- Keys of a struct are matched without regard to case; two letters beyond ASCII fold to ASCII
ones. -/
def foldKey (key : String) : String :=
  key.map fun c => if c = 'ſ' then 's' else if c = 'K' then 'k' else c.toLower

def WebhookPayload.setField (p : WebhookPayload) (key value : String) : WebhookPayload :=
  match foldKey key with
  | "provider" => { p with provider := value }
  | "event_type" => { p with eventType := value }
  | "branch" => { p with branch := value }
  | "commit_sha" => { p with commitSHA := value }
  | "commit_message" => { p with commitMsg := value }
  | "author" => { p with author := value }
  | "repo_url" => { p with repoURL := value }
  | "repo_name" => { p with repoName := value }
  | _ => p

def payloadKeys : List String :=
  ["provider", "event_type", "branch", "commit_sha", "commit_message", "author", "repo_url",
    "repo_name"]

variable (body : Json)

/-- The body decoded as `WebhookPayload`: a field of the struct that is neither a text nor `null` is
an error. -/
def decodePayload : Option WebhookPayload := do
  let fields ← body.fields?
  fields.foldlM (fun p (key, value) =>
    match value with
    | .string s => some (p.setField key s)
    | .null => some p
    | _ => if foldKey key ∈ payloadKeys then none else some p) {}

def branchOf (fields : List (String × Json)) : String :=
  match (field "ref" fields).string? with
  | some ref => trimStart "refs/heads/" ref
  | none => ""

def parseGitHub (r : Headers) : Option WebhookPayload := do
  let raw ← body.fields?
  let head := ((field "head_commit" raw).object?).getD []
  let repo := ((field "repository" raw).object?).getD []
  return {
    provider := "github"
    eventType := r .gitHubEvent
    branch := branchOf raw
    commitSHA := text "id" head
    commitMsg := text "message" head
    author := text "name" (((field "author" head).object?).getD [])
    repoURL := text "clone_url" repo
    repoName := text "full_name" repo }

def lastCommit (raw : List (String × Json)) : List (String × Json) :=
  match (field "commits" raw).array? with
  | some commits => (commits.getLast?.bind object?).getD []
  | none => []

def parseGitLab (r : Headers) : Option WebhookPayload := do
  let raw ← body.fields?
  let last := lastCommit raw
  let proj := ((field "project" raw).object?).getD []
  return {
    provider := "gitlab"
    eventType := r .gitlabEvent
    branch := branchOf raw
    commitSHA := text "checkout_sha" raw
    commitMsg := text "message" last
    author := text "name" (((field "author" last).object?).getD [])
    repoURL := text "git_http_url" proj
    repoName := text "path_with_namespace" proj }

def parseGitea (r : Headers) : Option WebhookPayload := do
  let raw ← body.fields?
  let repo := ((field "repository" raw).object?).getD []
  return {
    provider := "gitea"
    eventType := if r .giteaEvent = "" then r .gogsEvent else r .giteaEvent
    branch := branchOf raw
    commitSHA := text "after" raw
    commitMsg := text "message" (lastCommit raw)
    repoURL := text "clone_url" repo
    repoName := text "full_name" repo }

/-- `push.changes[0].new` of a Bitbucket push. -/
def newRef? (raw : List (String × Json)) : Option (List (String × Json)) := do
  let push ← (field "push" raw).object?
  let changes ← (field "changes" push).array?
  let change ← changes.head?
  let change ← change.object?
  (field "new" change).object?

def httpsLink? (repo : List (String × Json)) : Option (List (String × Json)) := do
  let links ← (field "links" repo).object?
  let clone ← (field "clone" links).array?
  (clone.filterMap object?).find? fun entry => text "name" entry = "https"

def orElse (value value' : String) : String := if value' = "" then value else value'

/-- `parseBitbucket`: without any native structure the flat form is read. -/
def parseBitbucket (r : Headers) : Option WebhookPayload := do
  let raw ← body.fields?
  let newRef := newRef? raw
  let target := ((field "target" (newRef.getD [])).object?).getD []
  let repo := ((field "repository" raw).object?).getD []
  let p : WebhookPayload := {
    provider := "bitbucket"
    eventType := r .eventKey
    branch := text "name" (newRef.getD [])
    commitSHA := text "hash" target
    commitMsg := text "message" target
    author := text "raw" (((field "author" target).object?).getD [])
    repoURL := text "href" ((httpsLink? repo).getD [])
    repoName := text "full_name" repo }
  if newRef.isSome ∨ p.repoName ≠ "" ∨ (httpsLink? repo).isSome then return p
  match decodePayload body with
  | none => return p
  | some flat =>
    return { p with
      branch := orElse p.branch flat.branch
      commitSHA := orElse p.commitSHA flat.commitSHA
      commitMsg := orElse p.commitMsg flat.commitMsg
      author := orElse p.author flat.author
      repoURL := orElse p.repoURL flat.repoURL
      repoName := orElse p.repoName flat.repoName
      eventType := if p.eventType = "" then flat.eventType else p.eventType }

def parseGeneric : Option WebhookPayload := do
  let p ← decodePayload body
  return if p.provider = "" then { p with provider := "generic" } else p

def parsePayload (provider : Provider) (body : Json) (r : Headers) : Option WebhookPayload :=
  match provider with
  | .github => parseGitHub body r
  | .gitlab => parseGitLab body r
  | .gitea | .gogs => parseGitea body r
  | .bitbucket => parseBitbucket body r
  | .generic => parseGeneric body

end

/-!
# The webhook receiver

`HandleWebhook` of `internal/webhooks/receiver.go`, with `GetWebhookSecret` of `internal/db/kv.go`.
Each operation on the store is a call of its own.
-/

open Clock DB Program List Prog

/-- `webhookSecretRecord`. The zero time is no time. -/
structure WebhookSecretRecord where
  id : String := ""
  appID : String := ""
  secretHash : String := ""
  status : String := ""
  createdAt : Option ℤ := none
  updatedAt : Option ℤ := none
  deriving DecidableEq

/-- The JSON values in the buckets of the receiver: a secret, one inside the wrapper of older
versions, a delivery that was seen, or what none of the readers accepts. -/
inductive HookValue
  | secret (record : WebhookSecretRecord)
  | wrapped (record : WebhookSecretRecord)
  | seen (b : Bool)
  | malformed
  deriving DecidableEq

/-- The secret of a record, as `GetWebhookSecret` reads it, with or without the wrapper. -/
def HookValue.secret? : HookValue → Except String String
  | secret record | wrapped record =>
    if record.secretHash = "" then .error "webhook secret not found" else .ok record.secretHash
  | seen _ | malformed => .error "unmarshal webhook"

/-- The events that are published. -/
inductive HookEvent
  | received (webhookID : String) (provider : Provider) (eventType branch commitSHA : String)
  | rotated (appID : String)

/-! ## Calls -/

inductive HookCall
  | now
  | getWebhookSecret (webhookID : String)
  | kvGet (bucket key : String)
  | kvSet (bucket key : String) (value : HookValue) (ttlSeconds : ℤ)
  | publish (event : HookEvent)

@[reducible] def HookAnswer : HookCall → Type
  | .now => ℤ
  | .getWebhookSecret _ => Except String String
  | .kvGet _ _ => Except KVError HookValue
  | .kvSet _ _ _ _ => Except String Unit
  | .publish _ => Unit

structure HookWorld where
  now : ℤ
  kv : KVStore HookValue
  published : List HookEvent

/-- What the environment decides at a call: the time that has passed, and the error when an
operation on the store fails. -/
structure HookChoice where
  elapsed : ℕ := 0
  fails : Option String := none

def HookWorld.wait (w : HookWorld) (elapsed : ℕ) : HookWorld := { w with now := w.now + elapsed }

/-- `GetWebhookSecret`, on the row of the store: an expiry is not looked at. -/
def HookWorld.secret? (w : HookWorld) (webhookID : String) : Except String String :=
  match w.kv "webhooks" webhookID with
  | none => .error "webhook secret not found"
  | some entry => entry.data.secret?

def hookExec : (c : HookCall) → HookWorld → HookChoice → Option (HookAnswer c × HookWorld)
  | .now, w, o => some ((w.wait o.elapsed).now, w.wait o.elapsed)
  | .getWebhookSecret webhookID, w, o =>
    match o.fails with
    | some e => some (.error ("query webhook secret: " ++ e), w.wait o.elapsed)
    | none => some (w.secret? webhookID, w.wait o.elapsed)
  | .kvGet bucket key, w, o =>
    let w := w.wait o.elapsed
    match o.fails with
    | some _ => some (.error .failed, w)
    | none => some (w.kv.get (unix w.now) bucket key, w)
  | .kvSet bucket key value ttlSeconds, w, o =>
    let w := w.wait o.elapsed
    attempt o.fails w () { w with kv := w.kv.set (unix w.now) bucket key value ttlSeconds }
  | .publish event, w, o =>
    let w := w.wait o.elapsed
    some ((), { w with published := w.published ++ [event] })

/-- The store after a call: only a write that does not fail changes it. -/
inductive StoreEffect (w w' : HookWorld) (o : HookChoice) : HookCall → Prop
  | none {c : HookCall} (hkv : w'.kv = w.kv) (hc : o.fails = .none → ∀ b k v t, c ≠ .kvSet b k v t) :
      StoreEffect w w' o c
  | set {bucket key : String} {value : HookValue} {ttlSeconds : ℤ}
      (hkv : w'.kv = w.kv.set (unix w'.now) bucket key value ttlSeconds) :
      StoreEffect w w' o (.kvSet bucket key value ttlSeconds)

def publishes : HookCall → List HookEvent
  | .publish event => [event]
  | _ => []

variable {w w' : HookWorld} {o : HookChoice}

lemma effects_of_hookExec {c : HookCall} {r : HookAnswer c} (h : hookExec c w o = some (r, w')) :
    w'.now = w.now + o.elapsed ∧ StoreEffect w w' o c ∧
      w'.published = w.published ++ publishes c := by
  cases c with
  | now =>
    cases h
    exact ⟨rfl, .none rfl nofun, (append_nil _).symm⟩
  | getWebhookSecret | kvGet =>
    simp only [hookExec] at h
    split at h
    all_goals
      cases h
      exact ⟨rfl, .none rfl nofun, (append_nil _).symm⟩
  | kvSet =>
    rcases attempt_eq_some h with ⟨e, he, -, rfl⟩ | ⟨-, -, rfl⟩
    · exact ⟨rfl, .none rfl (fun hnone => nomatch hnone.symm.trans he), (append_nil _).symm⟩
    · exact ⟨rfl, .set rfl, (append_nil _).symm⟩
  | publish =>
    cases h
    exact ⟨rfl, .none rfl nofun, rfl⟩

abbrev Hooks := Prog HookCall HookAnswer

def Hooks.now : Hooks ℤ := perform HookCall.now

def Hooks.getWebhookSecret (webhookID : String) : Hooks (Except String String) :=
  perform (HookCall.getWebhookSecret webhookID)

def Hooks.kvGet (bucket key : String) : Hooks (Except KVError HookValue) :=
  perform (HookCall.kvGet bucket key)

def Hooks.kvSet (bucket key : String) (value : HookValue) (ttlSeconds : ℤ) :
    Hooks (Except String Unit) :=
  perform (HookCall.kvSet bucket key value ttlSeconds)

def Hooks.publish (event : HookEvent) : Hooks Unit := perform (HookCall.publish event)

/-! ## Deliveries -/

/-- `Receiver`: whether it has a store and an event bus, and its JSON decoder. -/
structure Receiver where
  (kv events : Bool)
  unmarshal : List UInt8 → Option Json

/-- A request to `/hooks/v1/{webhookID}`: its body, or the error of reading it. -/
structure HookRequest where
  webhookID : String
  body : Except String (List UInt8)
  headers : Headers

inductive HookReply
  | missingID | unreadable | unauthorized | invalidSignature | duplicate | invalidPayload | received
  deriving DecidableEq

def HookReply.passed : HookReply → Bool
  | duplicate | invalidPayload | received => true
  | missingID | unreadable | unauthorized | invalidSignature => false

def webhookDedupBucket : String := "webhook_dedup"

def webhookDedupTTLSeconds : ℤ := 600

def maxBody : ℕ := 10 * 2 ^ 20

/-- The headers that carry the id of a delivery, in the order in which they are tried. -/
def deliveryHeaders : List HeaderName :=
  [.gitHubDelivery, .gitlabEventUUID, .giteaDelivery, .gogsDelivery, .hookUUID, .requestId]

/-- `deliveryDedupKey`: the id of the delivery, else the hash of the body; empty when there is
neither. -/
def deliveryDedupKey (webhookID : String) (body : List UInt8) (r : Headers) : String :=
  match deliveryHeaders.find? fun h => r h ≠ "" with
  | some h => webhookID ++ ":" ++ r h
  | none => if body = [] then "" else webhookID ++ ":" ++ SHA256.hex (SHA256.sum body)

def publishPayload (recv : Receiver) (webhookID : String) (body : List UInt8) (r : Headers) :
    Hooks HookReply :=
  match (recv.unmarshal body).bind fun json => parsePayload (detectProvider r) json r with
  | none => return .invalidPayload
  | some payload => do
    if recv.events then
      Hooks.publish
        (.received webhookID (detectProvider r) payload.eventType payload.branch payload.commitSHA)
    return .received

/-- A delivery that was seen is dropped; another one is remembered and processed. -/
def receiveOnce (recv : Receiver) (webhookID : String) (body : List UInt8) (r : Headers) :
    Hooks HookReply := do
  let key := deliveryDedupKey webhookID body r
  if key ≠ "" then
    if (← Hooks.kvGet webhookDedupBucket key) = .ok (.seen true) then return .duplicate
    let _ ← Hooks.kvSet webhookDedupBucket key (.seen true) webhookDedupTTLSeconds
  publishPayload recv webhookID body r

/-- `HandleWebhook`. Without a store nothing is verified. -/
def handleWebhook (recv : Receiver) (req : HookRequest) : Hooks HookReply := do
  if req.webhookID = "" then return .missingID
  match req.body with
  | .error _ => return .unreadable
  | .ok bytes =>
    let body := bytes.take maxBody
    if recv.kv then
      match ← Hooks.getWebhookSecret req.webhookID with
      | .error _ => return .unauthorized
      | .ok secret =>
        if verifySignature (detectProvider req.headers) body secret req.headers then
          receiveOnce recv req.webhookID body req.headers
        else return .invalidSignature
    else publishPayload recv req.webhookID body req.headers

def payload? (recv : Receiver) (body : List UInt8) (r : Headers) : Option WebhookPayload :=
  (recv.unmarshal body).bind fun json => parsePayload (detectProvider r) json r

def receivedEvent (webhookID : String) (r : Headers) (payload : WebhookPayload) : HookEvent :=
  .received webhookID (detectProvider r) payload.eventType payload.branch payload.commitSHA

variable {recv : Receiver} {webhookID : String} {body : List UInt8} {r : Headers}
  {events : List HookEvent} {P : HookCall → Prop}

lemma allCalls_publishPayload (hpublish : ∀ payload, P (.publish (receivedEvent webhookID r payload))) :
    AllCalls P (publishPayload recv webhookID body r) := by
  unfold publishPayload
  split
  · trivial
  · split
    · exact ⟨hpublish _, fun _ => trivial⟩
    · trivial

variable (hget : ∀ key, P (.kvGet webhookDedupBucket key))
  (hset : ∀ key, P (.kvSet webhookDedupBucket key (.seen true) webhookDedupTTLSeconds))
include hget hset

lemma allCalls_receiveOnce (hpublish : ∀ payload, P (.publish (receivedEvent webhookID r payload))) :
    AllCalls P (receiveOnce recv webhookID body r) := by
  simp only [receiveOnce, Hooks.kvGet, Hooks.kvSet, perform_bind]
  split
  · refine ⟨hget _, fun answer => ?_⟩
    dsimp only
    split
    · trivial
    · exact ⟨hset _, fun _ => allCalls_publishPayload hpublish⟩
  · exact allCalls_publishPayload hpublish

lemma allCalls_handleWebhook {req : HookRequest} (hsecret : P (.getWebhookSecret req.webhookID))
    (hpublish : ∀ payload, P (.publish (receivedEvent req.webhookID req.headers payload))) :
    AllCalls P (handleWebhook recv req) := by
  simp only [handleWebhook, Hooks.getWebhookSecret, perform_bind]
  split
  · trivial
  split
  · trivial
  split
  · refine ⟨hsecret, fun answer => ?_⟩
    rcases answer with e | secret
    · trivial
    dsimp only
    split
    · exact allCalls_receiveOnce hget hset hpublish
    · trivial
  · exact allCalls_publishPayload hpublish

omit hget hset

/-- After the events, a delivery that was received has added its own. -/
def PublishesAfter (recv : Receiver) (webhookID : String) (body : List UInt8) (r : Headers)
    (events : List HookEvent) (reply : HookReply) (w : HookWorld) : Prop :=
  reply = .received → ∃ payload, payload? recv body r = some payload ∧
    w.published = events ++ [receivedEvent webhookID r payload]

lemma wp_publishPayload (hevents : recv.events = true) (hw : w.published = events) :
    Wp hookExec (publishPayload recv webhookID body r)
      (PublishesAfter recv webhookID body r events) w := by
  unfold publishPayload
  split
  case h_1 => exact nofun
  case h_2 payload hpayload =>
    rw [if_pos hevents]
    intro o answer w' hexec _
    refine ⟨payload, hpayload, ?_⟩
    rw [(effects_of_hookExec hexec).2.2, hw]
    rfl

lemma wp_receiveOnce (hevents : recv.events = true) (hw : w.published = events) :
    Wp hookExec (receiveOnce recv webhookID body r)
      (PublishesAfter recv webhookID body r events) w := by
  simp only [receiveOnce, Hooks.kvGet, Hooks.kvSet, perform_bind]
  split
  · intro o found w1 hget
    have hw1 : w1.published = events := by
      rw [(effects_of_hookExec hget).2.2, hw]
      exact append_nil _
    dsimp only
    split
    · exact nofun
    · intro o' _ w2 hset
      refine wp_publishPayload hevents ?_
      rw [(effects_of_hookExec hset).2.2, hw1]
      exact append_nil _
  · exact wp_publishPayload hevents hw

/-- **A delivery that is received publishes the event of its payload, and nothing else.** -/
theorem published_of_received {bytes : List UInt8} {os : List HookChoice}
    (hevents : recv.events = true)
    (hrun : solo hookExec (handleWebhook recv ⟨webhookID, .ok bytes, r⟩) w os =
      some (.received, w')) :
    ∃ payload, payload? recv (bytes.take maxBody) r = some payload ∧
      w'.published = w.published ++ [receivedEvent webhookID r payload] := by
  have hwp : Wp hookExec (handleWebhook recv ⟨webhookID, .ok bytes, r⟩)
      (PublishesAfter recv webhookID (bytes.take maxBody) r w.published) w := by
    simp only [handleWebhook, Hooks.getWebhookSecret, perform_bind]
    split
    · exact nofun
    split
    · intro o answer w1 hsecret
      have hw1 : w1.published = w.published := by
        rw [(effects_of_hookExec hsecret).2.2]
        exact append_nil _
      rcases answer with e | secret
      · exact nofun
      · dsimp only
        split
        · exact wp_receiveOnce hevents hw1
        · exact nofun
    · exact wp_publishPayload hevents rfl
  exact of_solo hwp hrun rfl

/-! ## The check of the signature -/

variable {bytes : List UInt8}

lemma returns_publishPayload :
    Returns (fun reply => reply.passed = true) (publishPayload recv webhookID body r) := by
  unfold publishPayload
  split
  · rfl
  · split
    · exact fun _ => rfl
    · rfl

lemma returns_receiveOnce :
    Returns (fun reply => reply.passed = true) (receiveOnce recv webhookID body r) := by
  simp only [receiveOnce, Hooks.kvGet, Hooks.kvSet, perform_bind]
  split
  · intro answer
    dsimp only
    split
    · rfl
    · exact fun _ => returns_publishPayload
  · exact returns_publishPayload

lemma handleWebhook_eq (hkv : recv.kv = true) (hid : webhookID ≠ "") :
    handleWebhook recv ⟨webhookID, .ok bytes, r⟩ = .call (.getWebhookSecret webhookID) fun answer =>
      match answer with
      | .error _ => .ret .unauthorized
      | .ok secret =>
        if verifySignature (detectProvider r) (bytes.take maxBody) secret r then
          receiveOnce recv webhookID (bytes.take maxBody) r
        else .ret .invalidSignature := by
  simp only [handleWebhook, if_neg hid, if_pos hkv, Hooks.getWebhookSecret, perform_bind]
  refine congrArg _ (funext fun answer => ?_)
  cases answer <;> rfl

variable {os : List HookChoice} {reply : HookReply}

/-- **A delivery passes exactly when it proves the stored secret or is unsigned**, provided that the
secret can be looked up. -/
theorem handleWebhook_passed_iff {secret : String} (hkv : recv.kv = true) (hid : webhookID ≠ "")
    (hsecret : w.secret? webhookID = .ok secret) (ho : o.fails = none)
    (hrun : solo hookExec (handleWebhook recv ⟨webhookID, .ok bytes, r⟩) w (o :: os) =
      some (reply, w')) :
    reply.passed = true ↔ Proves secret (bytes.take maxBody) r ∨ Unsigned r := by
  rw [handleWebhook_eq hkv hid] at hrun
  obtain ⟨⟨answer, w1⟩, hexec, hrun⟩ := Option.bind_eq_some_iff.mp hrun
  simp only [hookExec, ho, hsecret] at hexec
  cases hexec
  dsimp only at hrun
  rw [← verifySignature_eq_true_iff]
  split at hrun
  case isTrue hverify =>
    have hpassed : reply.passed = true :=
      of_solo (Q := fun reply _ => reply.passed = true) (returns_receiveOnce.wp _) hrun
    exact iff_of_true hpassed hverify
  case isFalse hverify =>
    rw [(eq_of_solo_ret hrun).1]
    exact iff_of_false nofun hverify

/-- **What different headers achieve for the same body.** A delivery of a signing provider is
rejected only when it does not prove the secret; another one then passes exactly when it proves the
secret, or comes from Bitbucket or an unknown provider without a signature. -/
theorem downgrade_iff (recv : Receiver) (w w1 w2 : HookWorld) (webhookID secret : String)
    (bytes : List UInt8) (r1 r2 : Headers) (o1 o2 : HookChoice) (os1 os2 : List HookChoice)
    (reply : HookReply) (hkv : recv.kv = true) (hid : webhookID ≠ "")
    (hsecret : w.secret? webhookID = .ok secret) (ho1 : o1.fails = none) (ho2 : o2.fails = none)
    (hsigns : (detectProvider r1).signs = true)
    (hrun1 : solo hookExec (handleWebhook recv ⟨webhookID, .ok bytes, r1⟩) w (o1 :: os1) =
      some (.invalidSignature, w1))
    (hrun2 : solo hookExec (handleWebhook recv ⟨webhookID, .ok bytes, r2⟩) w (o2 :: os2) =
      some (reply, w2)) :
    ¬ Proves secret (bytes.take maxBody) r1 ∧
      (reply.passed = true ↔ Proves secret (bytes.take maxBody) r2 ∨ Unsigned r2) := by
  have hrejected := handleWebhook_passed_iff hkv hid hsecret ho1 hrun1
  rw [or_iff_left (not_unsigned_of_signs hsigns)] at hrejected
  exact ⟨fun hproves => absurd (hrejected.mpr hproves) nofun,
    handleWebhook_passed_iff hkv hid hsecret ho2 hrun2⟩

def emptyObject : List UInt8 := SHA256.utf8 "\x7b\x7d"

/-- A receiver, and a webhook whose secret is set. -/
def smallReceiver : Receiver where
  kv := true
  events := true
  unmarshal := fun body => if body = emptyObject then some (.object []) else none

def configuredHook : HookWorld where
  now := 0
  kv := fun bucket key =>
    if bucket = "webhooks" ∧ key = "app1" then
      some ⟨.secret { id := "app1", appID := "app1", secretHash := "k", status := "active" }, 0⟩
    else none
  published := []

/-- The same delivery under the name of GitHub and under no name, without a signature. -/
def asGitHub : Headers
  | .gitHubEvent => "push"
  | .requestId => "d1"
  | _ => ""

def asNobody : Headers
  | .requestId => "d1"
  | _ => ""

theorem downgrade_iff_asNobody : ∃ reply w2,
    solo hookExec (handleWebhook smallReceiver ⟨"app1", .ok emptyObject, asNobody⟩)
        configuredHook [{}, {}, {}, {}] = some (reply, w2) ∧
      (reply.passed = true ↔ Proves "k" (emptyObject.take maxBody) asNobody ∨ Unsigned asNobody) := by
  obtain ⟨w1, hrun1⟩ : ∃ w1, solo hookExec
      (handleWebhook smallReceiver ⟨"app1", .ok emptyObject, asGitHub⟩) configuredHook [{}] =
        some (.invalidSignature, w1) := by decide +kernel
  obtain ⟨⟨reply, w2⟩, hrun2⟩ :
      ∃ x, solo hookExec (handleWebhook smallReceiver ⟨"app1", .ok emptyObject, asNobody⟩)
        configuredHook [{}, {}, {}, {}] = some x := by decide +kernel
  exact ⟨reply, w2, hrun2, (downgrade_iff _ _ w1 w2 _ _ _ _ _ {} {} [] _ _ rfl (by decide) (by
    decide +kernel) rfl rfl (by decide) hrun1 hrun2).2⟩

/-- **An unsigned delivery that is refused in the name of GitHub is accepted without a name.** -/
theorem asNobody_received :
    (∃ w1, solo hookExec (handleWebhook smallReceiver ⟨"app1", .ok emptyObject, asGitHub⟩)
        configuredHook [{}] = some (.invalidSignature, w1)) ∧
      (∃ w2, solo hookExec (handleWebhook smallReceiver ⟨"app1", .ok emptyObject, asNobody⟩)
        configuredHook [{}, {}, {}, {}] = some (.received, w2)) ∧
      (∀ h, h ≠ .gitHubEvent → asGitHub h = asNobody h) ∧
      ¬ Proves "k" (emptyObject.take maxBody) asNobody := by
  refine ⟨by decide +kernel, by decide +kernel, ?_, by decide +kernel⟩
  intro h hne
  cases h <;> first | rfl | exact absurd rfl hne

end DeployMonster.Webhooks
