import DeployMonster.Core.Clock
import DeployMonster.Library.Path
import DeployMonster.Library.Program
import DeployMonster.Library.SHA256
import DeployMonster.Library.Table

/-!
# Plans and the Stripe state of a tenant

`internal/billing/plans.go`, `internal/billing/tenant_metadata.go` and the queries of
`internal/db/tenants.go`. The Stripe state of a tenant is one entry of the JSON object in
`metadata_json`.
-/

namespace DeployMonster.Billing

/-- The fields of a plan that the webhooks read. -/
structure Plan where
  (id stripePriceID : String)

/-- `PlanByStripePriceID`: the first plan that is wired to the price. -/
def planByStripePriceID (plans : List Plan) (priceID : String) : Option Plan :=
  if priceID = "" then none else plans.find? (·.stripePriceID = priceID)

def findPlanByID (plans : List Plan) (id : String) : Option Plan := plans.find? (·.id = id)

/-- `StripeMetadata`. The zero time is no time. -/
structure StripeMetadata where
  customerID : String := ""
  subscriptionID : String := ""
  subscriptionItemID : String := ""
  priceID : String := ""
  status : String := ""
  paymentLastSucceededAt : Option ℤ := none
  paymentLastFailedAt : Option ℤ := none
  updatedAt : Option ℤ := none
  deriving DecidableEq

/-- `IsZero`: no Stripe state at all; the time of the last update does not count. -/
def StripeMetadata.isZero (md : StripeMetadata) : Bool :=
  md.customerID = "" ∧ md.subscriptionID = "" ∧ md.subscriptionItemID = "" ∧ md.priceID = "" ∧
    md.status = "" ∧ md.paymentLastSucceededAt = none ∧ md.paymentLastFailedAt = none

/-- A `json.RawMessage`, by what it decodes to as `StripeMetadata`. -/
inductive RawMessage
  | metadata (md : StripeMetadata)
  | undecodable (text : String)
  deriving DecidableEq

/-- `MetadataJSON`: an object has at most one entry under the key `stripe`, and other entries. -/
inductive MetadataJSON
  | empty
  | malformed (text : String)
  | null
  | object (stripe : Option RawMessage) (others : List (String × String))
  deriving DecidableEq

structure Tenant where
  (id planID : String)
  metadataJSON : MetadataJSON
  deriving DecidableEq

/-- Why an event is not handled. A panic of the handler counts as one of them. -/
inductive StripeError
  /-- `ErrStripeInvalidSignature`. -/
  | invalidSignature
  | failed (message : String)
  | panicked (message : String)
  deriving DecidableEq

/-- `GetStripeMetadata`: a tenant that was never linked to Stripe has the zero value. -/
def getStripeMetadata (tenant : Tenant) : Except StripeError StripeMetadata :=
  match tenant.metadataJSON with
  | .empty | .null | .object none _ => .ok {}
  | .malformed text => .error (.failed ("parse tenant metadata: " ++ text))
  | .object (some (.metadata md)) _ => .ok md
  | .object (some (.undecodable text)) _ => .error (.failed ("parse stripe metadata: " ++ text))

/-- The object with the entry under `stripe` set, or deleted when the value is zero; an object
without entries is stored as the empty text. -/
def storedMetadata (md : StripeMetadata) (others : List (String × String)) : MetadataJSON :=
  if md.isZero then
    if others = [] then .empty else .object none others
  else .object (some (.metadata md)) others

def setStripeMetadata (tenant : Tenant) (md : StripeMetadata) : Except StripeError Tenant :=
  match tenant.metadataJSON with
  | .empty => .ok { tenant with metadataJSON := storedMetadata md [] }
  | .malformed text => .error (.failed ("parse tenant metadata: " ++ text))
  | .null =>
    if md.isZero then .ok { tenant with metadataJSON := .empty }
    else .error (.panicked "assignment to entry in nil map")
  | .object _ others => .ok { tenant with metadataJSON := storedMetadata md others }

variable {tenant tenant' : Tenant} {md : StripeMetadata}

lemma setStripeMetadata_eq_ok (h : setStripeMetadata tenant md = .ok tenant') :
    ∃ metadataJSON, tenant' = { tenant with metadataJSON } := by
  unfold setStripeMetadata at h
  split at h
  case h_2 => cases h
  case h_3 =>
    split at h
    · exact ⟨_, (Except.ok.inj h).symm⟩
    · cases h
  all_goals exact ⟨_, (Except.ok.inj h).symm⟩

@[simp] lemma getStripeMetadata_storedMetadata (others : List (String × String)) :
    getStripeMetadata { tenant with metadataJSON := storedMetadata md others } =
      .ok (if md.isZero then {} else md) := by
  unfold storedMetadata
  split
  · split <;> rfl
  · rfl

lemma getStripeMetadata_setStripeMetadata (h : setStripeMetadata tenant md = .ok tenant') :
    getStripeMetadata tenant' = .ok (if md.isZero then {} else md) := by
  unfold setStripeMetadata at h
  split at h
  case h_2 => cases h
  case h_3 =>
    split at h
    case isTrue hz =>
      cases h
      rw [if_pos hz]
      rfl
    case isFalse => cases h
  all_goals
    cases h
    exact getStripeMetadata_storedMetadata _

/-- The entries under the other keys. -/
def MetadataJSON.others : MetadataJSON → List (String × String)
  | .object _ others => others
  | _ => []

@[simp] lemma others_storedMetadata (others : List (String × String)) :
    (storedMetadata md others).others = others := by
  unfold storedMetadata
  split_ifs with _ hnil
  · exact hnil.symm
  · rfl
  · rfl

lemma setStripeMetadata_storedMetadata (others : List (String × String)) (md' : StripeMetadata) :
    setStripeMetadata { tenant with metadataJSON := storedMetadata md others } md' =
      .ok { tenant with metadataJSON := storedMetadata md' others } := by
  rw [storedMetadata.eq_def md]
  split_ifs with _ hnil
  · rw [hnil]
    rfl
  · rfl
  · rfl

/-- **When the Stripe state is a field of the metadata**: what was set is read, the other keys keep
their values and a later set wins, exactly when the metadata is no malformed JSON, and is not `null`
unless there is nothing to store. -/
theorem stripeMetadata_field_iff (tenant : Tenant) (md : StripeMetadata) :
    (∃ tenant', setStripeMetadata tenant md = .ok tenant' ∧
      getStripeMetadata tenant' = .ok (if md.isZero then {} else md) ∧
      tenant'.metadataJSON.others = tenant.metadataJSON.others ∧
      ∀ md' tenant'', setStripeMetadata tenant md' = .ok tenant'' →
        setStripeMetadata tenant' md' = .ok tenant'') ↔
      (∀ text, tenant.metadataJSON ≠ .malformed text) ∧
        (tenant.metadataJSON = .null → md.isZero = true) := by
  obtain ⟨id, planID, metadataJSON⟩ := tenant
  cases metadataJSON with
  | empty | object =>
    refine iff_of_true ⟨_, rfl, getStripeMetadata_storedMetadata _, others_storedMetadata _, ?_⟩
      ⟨nofun, nofun⟩
    rintro md' _ ⟨⟩
    exact setStripeMetadata_storedMetadata _ md'
  | malformed text => exact iff_of_false (fun ⟨_, h, _⟩ => nomatch h) fun h => h.1 text rfl
  | null =>
    by_cases hzero : md.isZero = true
    · have hset : setStripeMetadata ⟨id, planID, .null⟩ md = _ := if_pos hzero
      refine iff_of_true ⟨_, hset, getStripeMetadata_setStripeMetadata hset, rfl, ?_⟩
        ⟨nofun, fun _ => hzero⟩
      intro md' tenant'' h
      rw [setStripeMetadata] at h
      split_ifs at h with hzero'
      rw [← h, setStripeMetadata, storedMetadata, if_pos hzero']
      rfl
    · refine iff_of_false ?_ fun h => hzero (h.2 rfl)
      rintro ⟨_, h, -⟩
      rw [setStripeMetadata, if_neg hzero] at h
      cases h

/-- To link a tenant whose metadata is `null` to a customer is a panic. -/
theorem setStripeMetadata_panics :
    setStripeMetadata ⟨"t1", "free", .null⟩ { customerID := "cus_1" } =
      .error (.panicked "assignment to entry in nil map") := by
  decide

abbrev TenantTable := Table Tenant.id

def updateTenant (tenants : TenantTable) (t : Tenant) : TenantTable :=
  tenants.update t.id (fun r => { r with planID := t.planID, metadataJSON := t.metadataJSON })
    fun _ => rfl

lemma find?_updateTenant (tenants : TenantTable) (t : Tenant) (id : String) :
    (updateTenant tenants t).find? id =
      (tenants.find? id).map fun r => if id = t.id then t else r := by
  rw [updateTenant, Table.find?_update]
  cases hr : tenants.find? id with
  | none => rfl
  | some r =>
    obtain ⟨-, rfl⟩ := Table.find?_eq_some_iff.mp hr
    rcases eq_or_ne r.id t.id with hid | hid <;> simp [hid]

/-!
# Stripe webhooks

`internal/billing/stripe_webhook.go` and `VerifyWebhookSignature` of `internal/billing/stripe.go`.
The check and the mark of an event are critical sections of their own, with calls between them.
-/

open Clock Program

/-- `strings.SplitN(part, "=", 2)`, when it gives two parts. -/
def keyValue (part : List Char) : Option (String × String) :=
  match part.span (· ≠ '=') with
  | (key, '=' :: value) => some (String.ofList key, String.ofList value)
  | _ => none

/-- The entries of a signature header `t=timestamp,v1=signature`. -/
def signatureEntries (sigHeader : String) : List (String × String) :=
  (sigHeader.toList.splitOn ',').filterMap keyValue

def lastValue (key : String) (entries : List (String × String)) : String :=
  entries.foldl (fun value entry => if entry.1 = key then entry.2 else value) ""

def stripeSignature (webhookKey timestamp : String) (payload : List UInt8) : String :=
  SHA256.hex (SHA256.hmac (SHA256.utf8 webhookKey) (SHA256.utf8 (timestamp ++ ".") ++ payload))

def verifyWebhookSignature (webhookKey : String) (payload : List UInt8) (sigHeader : String) : Bool :=
  let entries := signatureEntries sigHeader
  let timestamp := lastValue "t" entries
  let signature := lastValue "v1" entries
  webhookKey ≠ "" ∧ timestamp ≠ "" ∧ signature ≠ "" ∧
    stripeSignature webhookKey timestamp payload = signature

lemma lastValue_append (key : String) (entries : List (String × String)) (entry : String × String) :
    lastValue key (entries ++ [entry]) = if entry.1 = key then entry.2 else lastValue key entries := by
  rw [lastValue, List.foldl_append]
  rfl

open List in
/-- A last value that is not empty is the value of an entry. -/
lemma lastValue_mem {key : String} {entries : List (String × String)} (h : lastValue key entries ≠ "") :
    (key, lastValue key entries) ∈ entries := by
  induction entries using reverseRecOn with
  | nil => exact absurd rfl h
  | append_singleton entries entry ih =>
    rw [lastValue_append] at h ⊢
    split_ifs at h ⊢ with hkey
    · exact mem_append_right _ (mem_singleton.mpr (Prod.ext hkey.symm rfl))
    · exact mem_append_left _ (ih h)

open List in
/-- Where all entries of the key have one value, the last value is that one. -/
lemma lastValue_eq {key value : String} {entries : List (String × String)}
    (hmem : (key, value) ∈ entries) (hsame : ∀ v, (key, v) ∈ entries → v = value) :
    lastValue key entries = value := by
  induction entries using reverseRecOn with
  | nil => exact absurd hmem not_mem_nil
  | append_singleton entries entry ih =>
    rw [lastValue_append]
    split_ifs with hkey
    · exact hsame _ (mem_append_right _ (mem_singleton.mpr (Prod.ext hkey.symm rfl)))
    · have hne : (key, value) ≠ entry := fun heq => hkey (heq ▸ rfl)
      exact ih ((mem_append.mp hmem).resolve_right (mt mem_singleton.mp hne))
        fun v hv => hsame v (mem_append_left _ hv)

open List in
/-- The parts of a header can be reordered so that an entry comes last. -/
lemma exists_header_last {sigHeader : String} {entry : String × String}
    (h : entry ∈ signatureEntries sigHeader) : ∃ header rest,
      signatureEntries header = rest ++ [entry] ∧
        (signatureEntries header).Perm (signatureEntries sigHeader) := by
  obtain ⟨part, hpart, hentry⟩ := mem_filterMap.mp h
  obtain ⟨pre, post, hparts⟩ := append_of_mem hpart
  have hcomma : ∀ p ∈ pre ++ post ++ [part], ',' ∉ p := by
    intro p hp
    refine @Path.not_mem_of_mem_splitOn p ',' sigHeader.toList ?_
    rw [hparts]
    simp only [mem_append, mem_cons, not_mem_nil, or_false] at hp ⊢
    tauto
  have hsplit : signatureEntries (String.ofList ([','].intercalate (pre ++ post ++ [part]))) =
      (pre ++ post).filterMap keyValue ++ [entry] := by
    rw [signatureEntries, String.toList_ofList, splitOn_intercalate ',' hcomma (by simp),
      filterMap_append, filterMap_cons, hentry]
    rfl
  refine ⟨_, _, hsplit, ?_⟩
  rw [hsplit, signatureEntries, hparts, filterMap_append, filterMap_append, filterMap_cons, hentry,
    append_assoc]
  exact (perm_append_singleton entry _).append_left _

lemma stripeSignature_ne_empty (webhookKey timestamp : String) (payload : List UInt8) :
    stripeSignature webhookKey timestamp payload ≠ "" := by
  intro h
  have hlength := congrArg String.length h
  simp [stripeSignature] at hlength

lemma mem_of_verified {webhookKey timestamp header : String} {payload : List UInt8}
    (hone : ∀ t, ("t", t) ∈ signatureEntries header → t = timestamp)
    (h : verifyWebhookSignature webhookKey payload header = true) :
    webhookKey ≠ "" ∧ timestamp ≠ "" ∧
      lastValue "v1" (signatureEntries header) = stripeSignature webhookKey timestamp payload := by
  obtain ⟨hkey, ht, -, hsig⟩ := of_decide_eq_true h
  have htime := hone _ (lastValue_mem ht)
  rw [htime] at ht hsig
  exact ⟨hkey, ht, hsig.symm⟩

/-- **When a signature is accepted exactly if it is among the entries, in whatever order**: it is not
among them, or the key and the one timestamp are not empty and all entries `v1` are this signature. -/
theorem verified_iff_mem_iff (webhookKey timestamp sigHeader : String) (payload : List UInt8)
    (hone : ∀ t, ("t", t) ∈ signatureEntries sigHeader ↔ t = timestamp) :
    (∀ header, (signatureEntries header).Perm (signatureEntries sigHeader) →
      (verifyWebhookSignature webhookKey payload header = true ↔
        ("v1", stripeSignature webhookKey timestamp payload) ∈ signatureEntries header)) ↔
    (("v1", stripeSignature webhookKey timestamp payload) ∈ signatureEntries sigHeader →
      webhookKey ≠ "" ∧ timestamp ≠ "" ∧ ∀ v, ("v1", v) ∈ signatureEntries sigHeader →
        v = stripeSignature webhookKey timestamp payload) := by
  have hne := stripeSignature_ne_empty webhookKey timestamp payload
  constructor
  · intro hexact hmem
    have hverified := mem_of_verified (fun t => (hone t).mp) ((hexact sigHeader (.refl _)).mpr hmem)
    refine ⟨hverified.1, hverified.2.1, fun v hv => ?_⟩
    obtain ⟨header, rest, hentries, hperm⟩ := exists_header_last hv
    have hlast := (mem_of_verified (fun t ht => (hone t).mp (hperm.mem_iff.mp ht))
      ((hexact header hperm).mpr (hperm.mem_iff.mpr hmem))).2.2
    rw [hentries, lastValue_append, if_pos rfl] at hlast
    exact hlast
  · intro hcond header hperm
    have hone' (t : String) (ht : ("t", t) ∈ signatureEntries header) : t = timestamp :=
      (hone t).mp (hperm.mem_iff.mp ht)
    refine ⟨fun h => ?_, fun hmem => ?_⟩
    · have hlast := (mem_of_verified hone' h).2.2
      exact hlast ▸ lastValue_mem (hlast ▸ hne)
    · obtain ⟨hkey, htimestamp, hsame⟩ := hcond (hperm.mem_iff.mp hmem)
      have ht : lastValue "t" (signatureEntries header) = timestamp :=
        lastValue_eq (hperm.mem_iff.mpr ((hone timestamp).mpr rfl)) hone'
      have hv := lastValue_eq hmem fun v hv => hsame v (hperm.mem_iff.mp hv)
      rw [verifyWebhookSignature, ht, hv]
      exact decide_eq_true ⟨hkey, htimestamp, hne, rfl⟩

/-- A header with the signature of the empty payload. -/
def signedHeader : String := "t=1,v1=" ++ stripeSignature "k" "1" []

theorem verified_iff_mem_iff_signed :
    signatureEntries signedHeader = [("t", "1"), ("v1", stripeSignature "k" "1" [])] ∧
      verifyWebhookSignature "k" [] signedHeader = true := by
  have hentries : signatureEntries signedHeader =
      [("t", "1"), ("v1", stripeSignature "k" "1" [])] := by decide +kernel
  refine ⟨hentries, ((verified_iff_mem_iff "k" "1" signedHeader [] ?_).mpr ?_ _ (.refl _)).mpr ?_⟩
  all_goals simp [hentries]

/-- While a secret is rolled, an event is refused when the entry of the other secret comes last. -/
theorem rolled_signature_refused :
    verifyWebhookSignature "k" [] (signedHeader ++ ",v1=0") = false ∧
      verifyWebhookSignature "k" [] ("v1=0," ++ signedHeader) = true := by
  decide +kernel

/-! ## Events -/

structure StripeItem where
  (id priceID : String)

structure StripeSubscription where
  (id customer status tenantID : String)
  items : List StripeItem

structure StripeInvoice where
  (id customer subscription : String)
  (amountPaid amountDue : ℤ)
  (currency tenantID : String)

structure StripePaymentIntent where
  id : String
  amount : ℤ
  (currency customer tenantID : String)

structure StripeCheckoutSession where
  (id customer subscription : String)
  amountTotal : ℤ
  (currency tenantID : String)

/-- `Data.Object`, by what each decoder makes of it. -/
structure RawObject where
  subscription : Except String StripeSubscription := .error ""
  invoice : Except String StripeInvoice := .error ""
  paymentIntent : Except String StripePaymentIntent := .error ""
  checkoutSession : Except String StripeCheckoutSession := .error ""

/-- The event types, and those that are acknowledged and ignored. -/
inductive EventType
  /-- `customer.subscription.created`. -/
  | subscriptionCreated
  /-- `customer.subscription.updated`. -/
  | subscriptionUpdated
  /-- `customer.subscription.deleted`. -/
  | subscriptionDeleted
  /-- `invoice.paid` and `invoice.payment_succeeded`. -/
  | invoicePaid
  /-- `invoice.payment_failed`. -/
  | invoicePaymentFailed
  /-- `payment_intent.succeeded`. -/
  | paymentIntentSucceeded
  /-- `checkout.session.completed`. -/
  | checkoutSessionCompleted
  | unhandled (name : String)
  deriving DecidableEq

/-- `stripeEventEnvelope`; an empty type is no type. -/
structure Envelope where
  id : String
  type : Option EventType
  created : ℤ
  object : RawObject

/-- A request to the webhook endpoint: its body, what the body decodes to, and its signature
header. -/
structure Delivery where
  payload : List UInt8
  envelope : Except String Envelope
  signature : String

inductive PaymentSource
  | invoice (id : String)
  | paymentIntent (id : String)
  deriving DecidableEq

/-- The internal events, with the tenant and the data they carry. -/
inductive BillingEvent
  | subscriptionUpdated (tenantID subscriptionID status priceID planID : String)
  | subscriptionCanceled (tenantID subscriptionID planID : String)
  | invoiceGenerated (tenantID invoiceID : String) (amountPaid : ℤ) (currency : String)
  | paymentReceived (tenantID : String) (source : PaymentSource) (amountCents : ℤ) (currency : String)
  | paymentFailed (tenantID invoiceID : String) (amountDue : ℤ) (currency : String)
  | checkoutCompleted (tenantID sessionID subscriptionID : String) (amountCents : ℤ)
      (currency : String)
  deriving DecidableEq

inductive StripeCall
  | now
  | alreadyProcessed (eventID : String)
  | markProcessed (eventID : String)
  | getTenant (id : String)
  | updateTenant (tenant : Tenant)
  | emit (event : BillingEvent)
  deriving DecidableEq

@[reducible] def StripeAnswer : StripeCall → Type
  | .now => ℤ
  | .alreadyProcessed _ => Bool
  | .markProcessed _ | .emit _ => Unit
  | .getTenant _ => Except String Tenant
  | .updateTenant _ => Except String Unit

/-- The clock, the table of tenants, the ids of the processed events with their times, and the
events that were emitted. -/
structure BillingWorld where
  now : ℤ
  tenants : TenantTable
  seen : String → Option ℤ
  emitted : List BillingEvent

/-- What the environment decides at a call: the time that has passed since the last call of anyone,
and the error when a store operation fails. -/
structure StripeChoice where
  elapsed : ℕ := 0
  fails : Option String := none

def defaultStripeSeenTTL : ℤ := 72 * 60 * minute

namespace BillingWorld

variable (w : BillingWorld)

def wait (elapsed : ℕ) : BillingWorld := { w with now := w.now + elapsed }

def sweep (seenTTL : ℤ) : BillingWorld :=
  { w with
    seen := fun id =>
      if seenTTL ≤ 0 then w.seen id
      else (w.seen id).filter fun ts => ¬ ts < w.now - seenTTL }

def mark (eventID : String) : BillingWorld :=
  { w with seen := fun id => if id = eventID then some w.now else w.seen id }

end BillingWorld

def stripeExec (seenTTL : ℤ) :
    (c : StripeCall) → BillingWorld → StripeChoice → Option (StripeAnswer c × BillingWorld)
  | .now, w, o => some ((w.wait o.elapsed).now, w.wait o.elapsed)
  | .alreadyProcessed eventID, w, o =>
    let w := (w.wait o.elapsed).sweep seenTTL
    some ((w.seen eventID).isSome, w)
  | .markProcessed eventID, w, o => some ((), ((w.wait o.elapsed).sweep seenTTL).mark eventID)
  | .getTenant id, w, o =>
    let w := w.wait o.elapsed
    match w.tenants.find? id with
    | none => some (.error "not found", w)
    | some tenant => attempt o.fails w tenant w
  | .updateTenant tenant, w, o =>
    let w := w.wait o.elapsed
    attempt o.fails w () { w with tenants := updateTenant w.tenants tenant }
  | .emit event, w, o =>
    let w := w.wait o.elapsed
    some ((), { w with emitted := w.emitted ++ [event] })

abbrev Stripe := Prog StripeCall StripeAnswer

def Stripe.now : Stripe ℤ := Prog.perform StripeCall.now

def Stripe.alreadyProcessed (eventID : String) : Stripe Bool :=
  Prog.perform (StripeCall.alreadyProcessed eventID)

def Stripe.markProcessed (eventID : String) : Stripe Unit :=
  Prog.perform (StripeCall.markProcessed eventID)

def Stripe.getTenant (id : String) : Stripe (Except String Tenant) :=
  Prog.perform (StripeCall.getTenant id)

def Stripe.updateTenant (tenant : Tenant) : Stripe (Except String Unit) :=
  Prog.perform (StripeCall.updateTenant tenant)

/-! ## The handlers -/

/-- `StripeEventHandler`: the signing key of its client, its catalog, and whether it has an event
bus. -/
structure StripeEventHandler where
  webhookKey : Option String
  plans : List Plan
  events : Bool
  seenTTL : ℤ := defaultStripeSeenTTL

abbrev Handled := Except StripeError Unit

def StripeError.wrap (text : String) : StripeError → StripeError
  | .failed message => .failed (text ++ message)
  | e => e

variable (h : StripeEventHandler)

/-- `emit`: an error is logged. -/
def emit (event : BillingEvent) : Stripe Unit :=
  if h.events then Prog.perform (StripeCall.emit event) else return

/-- The tenant of a subscription and its Stripe state. -/
def loadTenant (id : String) : Stripe (Except StripeError (Tenant × StripeMetadata)) := do
  match ← Stripe.getTenant id with
  | .error e => return .error (.failed ("stripe webhook: load tenant " ++ id ++ ": " ++ e))
  | .ok tenant =>
    match getStripeMetadata tenant with
    | .error e => return .error (e.wrap "stripe webhook: read tenant metadata: ")
    | .ok md => return .ok (tenant, md)

/-- The tenant with its new Stripe state is written, and the event emitted. -/
def saveTenant (tenant : Tenant) (md : StripeMetadata) (event : BillingEvent) : Stripe Handled := do
  match setStripeMetadata tenant md with
  | .error e => return .error (e.wrap "stripe webhook: write tenant metadata: ")
  | .ok tenant =>
    match ← Stripe.updateTenant tenant with
    | .error e => return .error (.failed ("stripe webhook: update tenant: " ++ e))
    | .ok () =>
      emit h event
      return .ok ()

def Tenant.onPlan (tenant : Tenant) (plan : Option Plan) : Tenant :=
  { tenant with planID := (plan.map Plan.id).getD tenant.planID }

/-- The Stripe state after an update of the subscription: only its first item counts. -/
def StripeMetadata.subscribed (md : StripeMetadata) (sub : StripeSubscription) (now : ℤ) :
    StripeMetadata :=
  { md with
    customerID := sub.customer
    subscriptionID := sub.id
    status := sub.status
    updatedAt := some now
    subscriptionItemID := (sub.items.head?.map StripeItem.id).getD md.subscriptionItemID
    priceID := (sub.items.head?.map StripeItem.priceID).getD md.priceID }

def StripeMetadata.canceled (md : StripeMetadata) (now : ℤ) : StripeMetadata :=
  { md with
    status := "canceled"
    subscriptionID := ""
    subscriptionItemID := ""
    priceID := ""
    updatedAt := some now }

/-- The tenant of a subscription gets the Stripe state `change` and the plan that goes with it, and
is saved. -/
def changeTenant (tenantID : String)
    (change : StripeMetadata → ℤ → StripeMetadata) (plan : StripeMetadata → Option Plan)
    (event : Tenant → StripeMetadata → BillingEvent) : Stripe Handled := do
  match ← loadTenant tenantID with
  | .error e => return .error e
  | .ok (tenant, md) =>
    let now ← Stripe.now
    let md := change md now
    let tenant := tenant.onPlan (plan md)
    saveTenant h tenant md (event tenant md)

def handleSubscriptionUpdated (env : Envelope) : Stripe Handled := do
  match env.object.subscription with
  | .error e => return .error (.failed ("stripe webhook: decode subscription: " ++ e))
  | .ok sub =>
    if sub.id = "" then return .error (.failed "stripe webhook: subscription has no id")
    if sub.tenantID = "" then return .ok ()
    changeTenant h sub.tenantID (·.subscribed sub) (planByStripePriceID h.plans ·.priceID)
      fun tenant md => .subscriptionUpdated tenant.id sub.id sub.status md.priceID tenant.planID

def handleSubscriptionCanceled (env : Envelope) : Stripe Handled := do
  match env.object.subscription with
  | .error e => return .error (.failed ("stripe webhook: decode subscription: " ++ e))
  | .ok sub =>
    if sub.tenantID = "" then return .ok ()
    changeTenant h sub.tenantID (·.canceled) (fun _ => findPlanByID h.plans "free")
      fun tenant _ => .subscriptionCanceled tenant.id sub.id tenant.planID

/-- `resolveTenantID`: the customer and the subscription are not searched for. -/
def resolveTenantID (metaTenantID _customer _subscription : String) : String := metaTenantID

/-- A payment noted in the Stripe state of its tenant. Errors are logged; only a panic is not. -/
def notePayment (tenantID : String) (note : StripeMetadata → ℤ → StripeMetadata) :
    Stripe Handled := do
  if tenantID = "" then return .ok ()
  match ← Stripe.getTenant tenantID with
  | .error _ => return .ok ()
  | .ok tenant =>
    match getStripeMetadata tenant with
    | .error _ => return .ok ()
    | .ok md =>
      let now ← Stripe.now
      match setStripeMetadata tenant (note md now) with
      | .error (.panicked message) => return .error (.panicked message)
      | .error _ => return .ok ()
      | .ok tenant =>
        let _ ← Stripe.updateTenant tenant
        return .ok ()

def handleInvoicePaid (env : Envelope) : Stripe Handled := do
  match env.object.invoice with
  | .error e => return .error (.failed ("stripe webhook: decode invoice: " ++ e))
  | .ok inv =>
    let tenantID := resolveTenantID inv.tenantID inv.customer inv.subscription
    match ← notePayment tenantID fun md now =>
      { md with paymentLastSucceededAt := some now, status := "active" } with
    | .error e => return .error e
    | .ok () =>
      emit h (.invoiceGenerated tenantID inv.id inv.amountPaid inv.currency)
      emit h (.paymentReceived tenantID (.invoice inv.id) inv.amountPaid inv.currency)
      return .ok ()

def handleInvoicePaymentFailed (env : Envelope) : Stripe Handled := do
  match env.object.invoice with
  | .error e => return .error (.failed ("stripe webhook: decode invoice: " ++ e))
  | .ok inv =>
    let tenantID := resolveTenantID inv.tenantID inv.customer inv.subscription
    match ← notePayment tenantID fun md now =>
      { md with paymentLastFailedAt := some now, status := "past_due" } with
    | .error e => return .error e
    | .ok () =>
      emit h (.paymentFailed tenantID inv.id inv.amountDue inv.currency)
      return .ok ()

def handlePaymentIntentSucceeded (env : Envelope) : Stripe Handled := do
  match env.object.paymentIntent with
  | .error e => return .error (.failed ("stripe webhook: decode payment_intent: " ++ e))
  | .ok pi =>
    let tenantID := resolveTenantID pi.tenantID pi.customer ""
    emit h (.paymentReceived tenantID (.paymentIntent pi.id) pi.amount pi.currency)
    return .ok ()

def handleCheckoutCompleted (env : Envelope) : Stripe Handled := do
  match env.object.checkoutSession with
  | .error e => return .error (.failed ("stripe webhook: decode checkout session: " ++ e))
  | .ok sess =>
    let tenantID := resolveTenantID sess.tenantID sess.customer sess.subscription
    emit h (.checkoutCompleted tenantID sess.id sess.subscription sess.amountTotal sess.currency)
    return .ok ()

def dispatch (env : Envelope) : EventType → Stripe Handled
  | .subscriptionCreated | .subscriptionUpdated => handleSubscriptionUpdated h env
  | .subscriptionDeleted => handleSubscriptionCanceled h env
  | .invoicePaid => handleInvoicePaid h env
  | .invoicePaymentFailed => handleInvoicePaymentFailed h env
  | .paymentIntentSucceeded => handlePaymentIntentSucceeded h env
  | .checkoutSessionCompleted => handleCheckoutCompleted h env
  | .unhandled _ => return .ok ()

/-- The dispatch, and the mark when it has succeeded. -/
def process (env : Envelope) (type : EventType) : Stripe Handled := do
  match ← dispatch h env type with
  | .error e => return .error e
  | .ok () =>
    if env.id ≠ "" then Stripe.markProcessed env.id
    return .ok ()

/-- `Handle`, once the signature is verified and the envelope decoded. Events without an id are
always processed. -/
def handleEvent (env : Envelope) : Stripe Handled := do
  match env.type with
  | none => return .error (.failed "stripe webhook: missing event type")
  | some type =>
    if env.id ≠ "" then
      if ← Stripe.alreadyProcessed env.id then return .ok ()
    process h env type

variable {env : Envelope}

lemma handleEvent_eq {h : StripeEventHandler} {type : EventType}
    (htype : env.type = some type) (hid : env.id ≠ "") :
    handleEvent h env = .call (.alreadyProcessed env.id) fun seen =>
      if seen then .ret (.ok ()) else process h env type := by
  simp only [handleEvent, htype, hid, ne_eq, not_false_eq_true, if_true, Stripe.alreadyProcessed,
    Prog.perform_bind]
  rfl

lemma handleEvent_of_no_id {h : StripeEventHandler} {type : EventType}
    (htype : env.type = some type) (hid : env.id = "") : handleEvent h env = process h env type := by
  simp [handleEvent, htype, hid]

def handle (d : Delivery) : Stripe Handled :=
  if h.webhookKey.any fun key => verifyWebhookSignature key d.payload d.signature then
    match d.envelope with
    | .error e => return .error (.failed ("stripe webhook: decode envelope: " ++ e))
    | .ok env => handleEvent h env
  else return .error .invalidSignature

lemma handle_of_signed {h : StripeEventHandler} {d : Delivery} {key : String}
    (hkey : h.webhookKey = some key)
    (hsigned : verifyWebhookSignature key d.payload d.signature = true)
    (henv : d.envelope = .ok env) : handle h d = handleEvent h env := by
  simp [handle, hkey, hsigned, henv]

variable {seenTTL : ℤ} {w w' : BillingWorld} {o : StripeChoice}

@[simp] lemma BillingWorld.tenants_wait (elapsed : ℕ) : (w.wait elapsed).tenants = w.tenants := rfl

@[simp] lemma BillingWorld.seen_wait (elapsed : ℕ) : (w.wait elapsed).seen = w.seen := rfl

lemma stripeExec_getTenant {id : String} {r : Except String Tenant}
    (h : stripeExec seenTTL (.getTenant id) w o = some (r, w')) :
    w' = w.wait o.elapsed ∧ ∀ t, r = .ok t → w.tenants.find? id = some t := by
  simp only [stripeExec, BillingWorld.tenants_wait] at h
  split at h
  case h_1 =>
    obtain ⟨rfl, rfl⟩ := answer_inj h
    exact ⟨rfl, by rintro _ ⟨⟩⟩
  case h_2 tenant hfind =>
    obtain ⟨e, -, rfl, rfl⟩ | ⟨-, rfl, rfl⟩ := attempt_eq_some h
    · exact ⟨rfl, by rintro _ ⟨⟩⟩
    · exact ⟨rfl, fun t ht => hfind.trans (congrArg some (Except.ok.inj ht))⟩

lemma stripeExec_updateTenant {t : Tenant} {r : Except String Unit}
    (h : stripeExec seenTTL (.updateTenant t) w o = some (r, w')) :
    (∃ e, r = .error e ∧ w' = w.wait o.elapsed) ∨
      (r = .ok () ∧ w'.tenants = updateTenant w.tenants t ∧ w'.seen = w.seen) := by
  obtain ⟨e, -, rfl, rfl⟩ | ⟨-, rfl, rfl⟩ := attempt_eq_some h
  · exact .inl ⟨e, rfl, rfl⟩
  · exact .inr ⟨rfl, rfl, rfl⟩

end DeployMonster.Billing
