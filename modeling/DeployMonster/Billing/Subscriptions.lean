import DeployMonster.Billing.StripeWebhook
import DeployMonster.Library.LastWrite

/-!
# Subscriptions of a tenant

What the subscription events make of a tenant: each event that names it overwrites its account, in
the order of delivery.
-/

namespace DeployMonster.Billing

open Program StepMachine LastWrite List Option Prog

/-! ## Accounts -/

/-- The billing state of a tenant. -/
structure Account where
  (plan price status subscription : String)
  deriving DecidableEq

/-- The Stripe state that the handlers read: one that does not decode counts as none. -/
def Tenant.stripe (t : Tenant) : StripeMetadata := (getStripeMetadata t).toOption.getD {}

def Tenant.account (t : Tenant) : Account where
  plan := t.planID
  price := t.stripe.priceID
  status := t.stripe.status
  subscription := t.stripe.subscriptionID

/-- What an event does to the account of its tenant: it sets the subscription, its status and, when
it carries an item, its price; or it ends the subscription. -/
inductive Change
  | subscribe (subscription status : String) (price : Option String)
  | cancel (subscription : String)

def planOfPrice (plans : List Plan) (price : String) : Option String :=
  (planByStripePriceID plans price).map Plan.id

def freePlan (plans : List Plan) : Option String := (findPlanByID plans "free").map Plan.id

def Account.apply (plans : List Plan) (acct : Account) : Change → Account
  | .subscribe subscription status price =>
    let price := price.getD acct.price
    { plan := (planOfPrice plans price).getD acct.plan, price, status, subscription }
  | .cancel _ =>
    { plan := (freePlan plans).getD acct.plan, price := "", status := "canceled",
      subscription := "" }

def Change.status : Change → String
  | .subscribe _ status _ => status
  | .cancel _ => "canceled"

/-- The plan that a change names: the one of the price it carries, or the free one. -/
def Change.names (plans : List Plan) : Change → Option String
  | .subscribe _ _ price => price.bind (planOfPrice plans)
  | .cancel _ => freePlan plans

def Change.bare : Change → Bool
  | .subscribe _ _ price => price.isNone
  | .cancel _ => false

/-- The plan after the changes: the last one named. When none is, the plan of the stored price if
the first change carries no price, and otherwise that of the account. -/
def planAfter (plans : List Plan) (acct : Account) (cs : List Change) : String :=
  (lastWrite (Change.names plans) cs).getD
    (if cs.head?.any Change.bare then (planOfPrice plans acct.price).getD acct.plan else acct.plan)

variable {plans : List Plan}

/-- The price of the account, when it is that of a plan, is that of the plan of the account. -/
def Account.Consistent (plans : List Plan) (acct : Account) : Prop :=
  ∀ plan ∈ planOfPrice plans acct.price, acct.plan = plan

lemma consistent_apply (acct : Account) (c : Change) : (acct.apply plans c).Consistent plans := by
  intro plan hplan
  cases c with
  | subscribe subscription status price =>
    show (planOfPrice plans (price.getD acct.price)).getD acct.plan = plan
    have hplan : planOfPrice plans (price.getD acct.price) = some plan := hplan
    rw [hplan, getD_some]
  | cancel => cases hplan

lemma plan_apply (acct : Account) (c : Change) : (acct.apply plans c).plan = (c.names plans).getD
      (if c.bare then (planOfPrice plans acct.price).getD acct.plan else acct.plan) := by
  cases c with
  | subscribe subscription status price => cases price <;> rfl
  | cancel => rfl

variable {acct : Account}

lemma plan_apply_of_consistent (hacct : acct.Consistent plans) (c : Change) :
    (acct.apply plans c).plan = (c.names plans).getD acct.plan := by
  have hstored : (planOfPrice plans acct.price).getD acct.plan = acct.plan := by
    cases hplan : planOfPrice plans acct.price with
    | none => rfl
    | some plan => exact (hacct plan hplan).symm
  rw [plan_apply, hstored, ite_self]

/-- **The plan is the one named last.** After the first change an account is consistent, so that
only the changes that name a plan decide it. -/
theorem plan_foldl (acct : Account) (cs : List Change) :
    (cs.foldl (Account.apply plans) acct).plan = planAfter plans acct cs := by
  cases cs with
  | nil => rfl
  | cons c cs =>
    rw [foldl_cons, foldl_eq_lastWrite (I := Account.Consistent plans)
      (fun acct c _ => consistent_apply acct c) (fun _ c hacct => plan_apply_of_consistent hacct c) cs
      (consistent_apply acct c), plan_apply, planAfter, lastWrite_cons, getD_or]
    rfl

/-- **The status is that of the last change.** -/
theorem status_foldl (acct : Account) (cs : List Change) :
    (cs.foldl (Account.apply plans) acct).status =
      (cs.getLast?.map Change.status).getD acct.status := by
  have hget : ∀ (acct : Account) (c : Change), True →
      (acct.apply plans c).status = (some c.status).getD acct.status := by
    rintro acct (_ | _) - <;> rfl
  rw [foldl_eq_lastWrite (I := fun _ => True) (fun _ _ _ => trivial) hget cs trivial, lastWrite,
    filterMap_eq_map', getLast?_map]

def Envelope.isSubscription (env : Envelope) : Bool :=
  env.type = some .subscriptionCreated ∨ env.type = some .subscriptionUpdated ∨
    env.type = some .subscriptionDeleted

/-- What a subscription event does to the account of a tenant, when it names the tenant. -/
def Envelope.change? (tenantID : String) (env : Envelope) : Option Change :=
  match env.object.subscription with
  | .error _ => none
  | .ok sub =>
    if sub.tenantID = tenantID ∧ tenantID ≠ "" then
      if env.type = some .subscriptionDeleted then some (.cancel sub.id)
      else some (.subscribe sub.id sub.status (sub.items.head?.map StripeItem.priceID))
    else none

/-- An event that is delivered, with what the environment decides meanwhile. -/
structure Handling where
  env : Envelope
  choices : List StripeChoice

def handlingStep (h : StripeEventHandler) (w : BillingWorld) (a : Handling) : Option BillingWorld :=
  match solo (stripeExec h.seenTTL) (handleEvent h a.env) w a.choices with
  | some (.ok (), w') => some w'
  | _ => none

def Handling.checked (h : StripeEventHandler) (a : Handling) (w : BillingWorld) : BillingWorld :=
  (w.wait ((a.choices.head?.map StripeChoice.elapsed).getD 0)).sweep h.seenTTL

def Suppressed (h : StripeEventHandler) (w : BillingWorld) (a : Handling) : Prop :=
  a.env.id ≠ "" ∧ ((a.checked h w).seen a.env.id).isSome
  deriving Decidable

def BillingWorld.account? (w : BillingWorld) (tenantID : String) : Option Account :=
  (w.tenants.find? tenantID).map Tenant.account

/-! ## What the handlers of subscription events do -/

/-- Neither the tenants nor the processed ids have changed. -/
structure Unchanged (w w' : BillingWorld) : Prop where
  tenants : w'.tenants = w.tenants
  seen : w'.seen = w.seen

variable {h : StripeEventHandler} {env : Envelope} {tenants : TenantTable} {t t' : Tenant}

lemma wp_emit (event : BillingEvent) (w : BillingWorld) :
    Wp (stripeExec h.seenTTL) (emit h event) (fun _ w' => Unchanged w w') w := by
  unfold emit
  split
  · rintro o r w' hexec
    cases hexec
    exact ⟨rfl, rfl⟩
  · exact ⟨rfl, rfl⟩

lemma wp_loadTenant (id : String) (w : BillingWorld) :
    Wp (stripeExec h.seenTTL) (loadTenant id) (fun r w' => Unchanged w w' ∧ ∀ t md, r = .ok (t, md) →
      w.tenants.find? id = some t ∧ getStripeMetadata t = .ok md) w := by
  simp only [loadTenant, Stripe.getTenant, perform_bind, wp_call]
  rintro o (e | t) w' hexec
  · obtain ⟨rfl, -⟩ := stripeExec_getTenant hexec
    exact ⟨⟨rfl, rfl⟩, fun _ _ h => by cases h⟩
  obtain ⟨rfl, hfind⟩ := stripeExec_getTenant hexec
  have hfind := hfind t rfl
  dsimp only
  cases hmd : getStripeMetadata t with
  | error e => exact ⟨⟨rfl, rfl⟩, fun _ _ h => by cases h⟩
  | ok md =>
    refine ⟨⟨rfl, rfl⟩, ?_⟩
    rintro _ _ ⟨⟩
    exact ⟨hfind, hmd⟩

lemma wp_saveTenant (md : StripeMetadata) (event : BillingEvent) (w : BillingWorld) :
    Wp (stripeExec h.seenTTL) (saveTenant h t md event) (fun r w' => w'.seen = w.seen ∧
      (r = .ok () → ∃ t', setStripeMetadata t md = .ok t' ∧
        w'.tenants = updateTenant w.tenants t')) w := by
  unfold saveTenant
  cases hset : setStripeMetadata t md with
  | error e => exact ⟨rfl, nofun⟩
  | ok t' =>
    simp only [Stripe.updateTenant, perform_bind, wp_call]
    rintro o r w' hexec
    obtain ⟨e, rfl, rfl⟩ | ⟨rfl, htenants, hseen⟩ := stripeExec_updateTenant hexec
    · exact ⟨rfl, nofun⟩
    · refine (wp_bind _ _ _ _).mpr ((wp_emit event w').mono fun _ w'' hw => ?_)
      exact ⟨hw.seen.trans hseen, fun _ => ⟨t', rfl, hw.tenants.trans htenants⟩⟩

variable {id : String}

lemma account_updateTenant (hfind : tenants.find? id = some t)
    (hid : t'.id = t.id) (hacct : t'.account = acct) (tenantID : String) :
    ((updateTenant tenants t').find? tenantID).map Tenant.account =
      ((tenants.find? tenantID).map Tenant.account).map fun a =>
        if tenantID = id then acct else a := by
  obtain ⟨-, rfl⟩ := Table.find?_eq_some_iff.mp hfind
  rw [find?_updateTenant, hid, Option.map_map, Option.map_map]
  congr 1
  funext r
  simp only [Function.comp_apply, apply_ite Tenant.account, hacct]

variable {md : StripeMetadata}

lemma account_of_set {plan : Option Plan} (hmd : md.isZero = false)
    (hset : setStripeMetadata (t.onPlan plan) md = .ok t') : t'.id = t.id ∧ t'.account =
      ⟨(plan.map Plan.id).getD t.planID, md.priceID, md.status, md.subscriptionID⟩ := by
  have hstripe : t'.stripe = md := by
    rw [Tenant.stripe, getStripeMetadata_setStripeMetadata hset, hmd]
    rfl
  obtain ⟨metadataJSON, rfl⟩ := setStripeMetadata_eq_ok hset
  refine ⟨rfl, ?_⟩
  rw [Tenant.account, hstripe]
  rfl

lemma account?_of_saved {w w' : BillingWorld} {plan : Option Plan}
    (hfind : w.tenants.find? id = some t)
    (hzero : md.isZero = false) (hset : setStripeMetadata (t.onPlan plan) md = .ok t')
    (htenants : w'.tenants = updateTenant w.tenants t')
    (hacct : acct = ⟨(plan.map Plan.id).getD t.planID, md.priceID, md.status, md.subscriptionID⟩)
    (tenantID : String) : w'.account? tenantID =
      (w.account? tenantID).map fun a => if tenantID = id then acct else a := by
  obtain ⟨hid, hacct'⟩ := account_of_set hzero hset
  rw [BillingWorld.account?, htenants]
  exact account_updateTenant hfind hid (hacct'.trans hacct.symm) tenantID

variable {sub : StripeSubscription} (hsub : env.object.subscription = .ok sub)
include hsub

lemma change?_eq (tenantID : String) :
    env.change? tenantID =
      if sub.tenantID = tenantID ∧ tenantID ≠ "" then
        some (if env.type = some .subscriptionDeleted then .cancel sub.id
          else .subscribe sub.id sub.status (sub.items.head?.map StripeItem.priceID))
      else none := by
  simp only [Envelope.change?, hsub]
  split
  · split <;> rfl
  · rfl

omit hsub in
def Advanced (h : StripeEventHandler) (env : Envelope) (w w' : BillingWorld) : Prop :=
  ∀ tenantID, w'.account? tenantID = (w.account? tenantID).map fun acct =>
    ((env.change? tenantID).map (acct.apply h.plans)).getD acct

lemma advanced_of_unnamed (hname : sub.tenantID = "")
    {w w' : BillingWorld} (hw : w'.tenants = w.tenants) : Advanced h env w w' := by
  intro tenantID
  have hnone : env.change? tenantID = none := by
    rw [change?_eq hsub, if_neg]
    rintro ⟨rfl, hne⟩
    exact hne hname
  simp only [hnone, Option.map_none, Option.getD_none, Option.map_id', BillingWorld.account?, hw]

lemma advanced_of_named
    (hname : sub.tenantID ≠ "") {c : Change} (hc : (if env.type = some .subscriptionDeleted then
        Change.cancel sub.id
      else .subscribe sub.id sub.status (sub.items.head?.map StripeItem.priceID)) = c)
    {w w' : BillingWorld} (hfind : w.tenants.find? sub.tenantID = some t)
    (hw : ∀ tenantID, w'.account? tenantID = (w.account? tenantID).map fun a =>
      if tenantID = sub.tenantID then t.account.apply h.plans c else a) :
    Advanced h env w w' := by
  intro tenantID
  rw [hw, change?_eq hsub, hc]
  rcases eq_or_ne tenantID sub.tenantID with rfl | hne
  · simp [hname, BillingWorld.account?, hfind]
  · simp [hne, hne.symm]

omit hsub in
/-- The outcome of a handler that is successful only when it has changed the accounts. -/
abbrev Handles (h : StripeEventHandler) (env : Envelope) (w : BillingWorld) (r : Handled)
    (w' : BillingWorld) : Prop :=
  w'.seen = w.seen ∧ (r = .ok () → Advanced h env w w')

lemma wp_changeTenant {change : StripeMetadata → ℤ → StripeMetadata}
    {plan : StripeMetadata → Option Plan} {event : Tenant → StripeMetadata → BillingEvent} {c : Change} (hname : sub.tenantID ≠ "")
    (hc : (if env.type = some .subscriptionDeleted then Change.cancel sub.id
      else .subscribe sub.id sub.status (sub.items.head?.map StripeItem.priceID)) = c)
    (hzero : ∀ md now, (change md now).isZero = false)
    (happly : ∀ (t : Tenant) now, t.account.apply h.plans c =
      ⟨((plan (change t.stripe now)).map Plan.id).getD t.planID, (change t.stripe now).priceID,
        (change t.stripe now).status, (change t.stripe now).subscriptionID⟩)
    (w : BillingWorld) : Wp (stripeExec h.seenTTL)
      (changeTenant h sub.tenantID change plan event) (Handles h env w) w := by
  refine (wp_bind _ _ _ _).mpr ((wp_loadTenant sub.tenantID w).mono ?_)
  rintro (e | ⟨t, md⟩) w1 ⟨hw1, hload⟩
  · exact ⟨hw1.seen, nofun⟩
  obtain ⟨hfind, hmd⟩ := hload t md rfl
  obtain rfl : t.stripe = md := by
    rw [Tenant.stripe, hmd]
    rfl
  rintro o now w2 hexec
  obtain ⟨-, rfl⟩ := answer_inj hexec
  refine (wp_saveTenant _ _ _).mono ?_
  rintro r w' ⟨hseen, hsaved⟩
  refine ⟨hseen.trans hw1.seen, fun hr => ?_⟩
  obtain ⟨t', hset, htenants⟩ := hsaved hr
  rw [BillingWorld.tenants_wait, hw1.tenants] at htenants
  exact advanced_of_named hsub hname hc hfind
    (account?_of_saved hfind (hzero _ _) hset htenants (happly t now))

omit hsub

lemma wp_handleSubscriptionUpdated (htype : env.type ≠ some .subscriptionDeleted)
    (w : BillingWorld) : Wp (stripeExec h.seenTTL) (handleSubscriptionUpdated h env)
      (Handles h env w) w := by
  unfold handleSubscriptionUpdated
  cases hsub : env.object.subscription with
  | error e => exact ⟨rfl, nofun⟩
  | ok sub =>
    dsimp only
    split
    case isTrue => exact ⟨rfl, nofun⟩
    case isFalse hid =>
      split
      case isTrue hname => exact ⟨rfl, fun _ => advanced_of_unnamed hsub hname rfl⟩
      case isFalse hname =>
        refine wp_changeTenant hsub hname (if_neg htype) (fun md now => ?_) (fun _ _ => rfl) w
        simp [StripeMetadata.isZero, StripeMetadata.subscribed, hid]

lemma wp_handleSubscriptionCanceled (htype : env.type = some .subscriptionDeleted)
    (w : BillingWorld) : Wp (stripeExec h.seenTTL) (handleSubscriptionCanceled h env)
      (Handles h env w) w := by
  unfold handleSubscriptionCanceled
  cases hsub : env.object.subscription with
  | error e => exact ⟨rfl, nofun⟩
  | ok sub =>
    dsimp only
    split
    case isTrue hname => exact ⟨rfl, fun _ => advanced_of_unnamed hsub hname rfl⟩
    case isFalse hname =>
      refine wp_changeTenant hsub hname (if_pos htype) (fun md now => ?_) (fun _ _ => rfl) w
      simp [StripeMetadata.isZero, StripeMetadata.canceled]

lemma wp_dispatch {type : EventType} (htype : env.type = some type)
    (hsub : env.isSubscription = true) (w : BillingWorld) :
    Wp (stripeExec h.seenTTL) (dispatch h env type) (Handles h env w) w := by
  have hcases : type = .subscriptionCreated ∨ type = .subscriptionUpdated ∨
      type = .subscriptionDeleted := by
    simpa [Envelope.isSubscription, htype] using hsub
  rcases hcases with rfl | rfl | rfl
  · exact wp_handleSubscriptionUpdated (by simp [htype]) w
  · exact wp_handleSubscriptionUpdated (by simp [htype]) w
  · exact wp_handleSubscriptionCanceled htype w

variable {w w' : BillingWorld} {a : Handling}

/-- What is left of the processed ids: those that are not too old, and the event itself. -/
def SeenAfter (w w' : BillingWorld) (eventID : String) : Prop :=
  ∀ id, id ≠ eventID ∨ eventID = "" → w.seen id = none → w'.seen id = none

lemma sweep_seen_of_none {seenTTL : ℤ} (hid : w.seen id = none) :
    (w.sweep seenTTL).seen id = none := by
  simp [BillingWorld.sweep, hid]

lemma wp_process {type : EventType} (htype : env.type = some type)
    (hsub : env.isSubscription = true) (w : BillingWorld) :
    Wp (stripeExec h.seenTTL) (process h env type)
      (fun r w' => r = .ok () → Advanced h env w w' ∧ SeenAfter w w' env.id) w := by
  refine (wp_bind _ _ _ _).mpr ((wp_dispatch htype hsub w).mono ?_)
  rintro (e | ⟨⟩) w1 ⟨hseen, hadvanced⟩
  · exact nofun
  have hadvanced := hadvanced rfl
  dsimp only
  split
  case isTrue hid =>
    rintro o r w' hexec -
    cases hexec
    refine ⟨hadvanced, fun id hne hnone => ?_⟩
    show (if id = env.id then _ else _) = _
    rw [if_neg (hne.resolve_right hid)]
    exact sweep_seen_of_none (by rw [BillingWorld.seen_wait, hseen, hnone])
  case isFalse =>
    exact fun _ => ⟨hadvanced, fun id _ hnone => by rw [hseen, hnone]⟩

lemma solo_of_handlingStep (hstep : handlingStep h w a = some w') :
    solo (stripeExec h.seenTTL) (handleEvent h a.env) w a.choices = some (.ok (), w') := by
  unfold handlingStep at hstep
  split at hstep
  case h_1 w1 hsolo => rw [hsolo, some.inj hstep]
  case h_2 => cases hstep

lemma exists_type (hsub : a.env.isSubscription = true) : ∃ type, a.env.type = some type := by
  cases htype : a.env.type with
  | none => simp [Envelope.isSubscription, htype] at hsub
  | some type => exact ⟨type, rfl⟩

/-- **One subscription event handled.** When it counts as processed already, no tenant changes;
otherwise the account of the tenant that it names does. -/
theorem account_step (hsub : a.env.isSubscription = true) (hstep : handlingStep h w a = some w') :
    (Suppressed h w a ∧ w'.tenants = w.tenants) ∨
      (¬ Suppressed h w a ∧ Advanced h a.env w w' ∧ SeenAfter w w' a.env.id) := by
  have hsolo := solo_of_handlingStep hstep
  obtain ⟨type, htype⟩ := exists_type hsub
  rcases eq_or_ne a.env.id "" with hid | hid
  · rw [handleEvent_of_no_id htype hid] at hsolo
    exact .inr ⟨fun hs => hs.1 hid, of_solo (wp_process htype hsub w) hsolo rfl⟩
  rw [handleEvent_eq htype hid] at hsolo
  cases hchoices : a.choices with
  | nil =>
    rw [hchoices] at hsolo
    cases hsolo
  | cons o os =>
    rw [hchoices] at hsolo
    obtain ⟨⟨seen, w1⟩, hexec, hsolo⟩ := bind_eq_some_iff.mp hsolo
    obtain ⟨hseen, rfl⟩ := answer_inj hexec
    have hchecked : a.checked h w = (w.wait o.elapsed).sweep h.seenTTL := by
      simp [Handling.checked, hchoices]
    rw [← hchecked] at hsolo hseen
    cases seen with
    | true =>
      have hend : Wp (stripeExec h.seenTTL) (ret (.ok ()) : Stripe Handled)
          (fun _ w' => w'.tenants = w.tenants) (a.checked h w) := rfl
      exact .inl ⟨⟨hid, hseen⟩, (of_solo hend hsolo :)⟩
    | false =>
      obtain ⟨hadvanced, hafter⟩ := of_solo (wp_process htype hsub _) hsolo rfl
      refine .inr ⟨fun hs => by simp [hs.2] at hseen, hadvanced, fun id hne hnone => ?_⟩
      exact hafter id hne (sweep_seen_of_none (by rwa [BillingWorld.seen_wait]))

/-! ## The end of a subscription -/

def Envelope.deletes? (tenantID : String) (env : Envelope) : Option String :=
  match env.change? tenantID with
  | some (.cancel subscription) => some subscription
  | _ => none

/-- When the event reports a deletion, the plan or the stored subscription of the tenant changes
only if the deleted subscription is the stored one. -/
def CancelsOnlyStored (h : StripeEventHandler) (tenantID : String) (w : BillingWorld) (a : Handling) :
    Prop :=
  ∀ subscription ∈ a.env.deletes? tenantID, ∀ w' ∈ handlingStep h w a,
    ∀ acct ∈ w.account? tenantID, ∀ acct' ∈ w'.account? tenantID,
      acct'.plan ≠ acct.plan ∨ acct'.subscription ≠ acct.subscription →
        subscription = acct.subscription
  deriving Decidable

/-- A deletion counts as processed already, or is of the stored subscription, or there is nothing to
lose: no subscription is stored, and the plan is the free one. -/
def NothingElseToLose (h : StripeEventHandler) (tenantID : String) (w : BillingWorld) (a : Handling) :
    Prop :=
  ∀ subscription ∈ a.env.deletes? tenantID, Suppressed h w a ∨ ∀ acct ∈ w.account? tenantID,
    subscription = acct.subscription ∨
      (acct.subscription = "" ∧ ∀ plan ∈ freePlan h.plans, acct.plan = plan)
  deriving Decidable

variable {tenantID subscription : String}

lemma change?_of_deletes? (hdel : env.deletes? tenantID = some subscription) :
    env.change? tenantID = some (.cancel subscription) := by
  unfold Envelope.deletes? at hdel
  split at hdel
  case h_1 s hchange => rw [hchange, some.inj hdel]
  case h_2 => cases hdel

lemma isSubscription_of_deletes?
    (hdel : env.deletes? tenantID = some subscription) : env.isSubscription = true := by
  have hchange := change?_of_deletes? hdel
  unfold Envelope.change? at hchange
  split at hchange
  case h_1 => cases hchange
  case h_2 =>
    obtain ⟨-, hchange⟩ := ite_none_right_eq_some.mp hchange
    split at hchange
    case isTrue htype => simp [Envelope.isSubscription, htype]
    case isFalse => simp at hchange

lemma apply_cancel_eq_iff (plans : List Plan) (acct : Account) (subscription : String) :
    ((acct.apply plans (.cancel subscription)).plan = acct.plan ∧
      (acct.apply plans (.cancel subscription)).subscription = acct.subscription) ↔
    (acct.subscription = "" ∧ ∀ plan ∈ freePlan plans, acct.plan = plan) := by
  show (freePlan plans).getD acct.plan = acct.plan ∧ "" = acct.subscription ↔ _
  rw [and_comm, eq_comm (a := "")]
  cases freePlan plans with
  | none => simp
  | some plan => simp [eq_comm (a := plan)]

lemma cancelsOnlyStored_iff (hstep : handlingStep h w a = some w') :
    CancelsOnlyStored h tenantID w a ↔ NothingElseToLose h tenantID w a := by
  refine forall₂_congr fun subscription hdel => ?_
  simp only [hstep, mem_some_iff, forall_eq']
  obtain ⟨hs, htenants⟩ | ⟨hs, hadvanced, -⟩ :=
    account_step (isSubscription_of_deletes? hdel) hstep
  · have hsame : w'.account? tenantID = w.account? tenantID := by
      rw [BillingWorld.account?, htenants, BillingWorld.account?]
    refine iff_of_true ?_ (.inl hs)
    intro acct hacct acct' hacct'
    cases hacct'.symm.trans (hsame.trans hacct)
    simp
  · have hafter := hadvanced tenantID
    rw [change?_of_deletes? hdel] at hafter
    simp only [hs, false_or]
    refine forall₂_congr fun acct hacct => ?_
    have hafter : w'.account? tenantID = some (acct.apply h.plans (.cancel subscription)) := by
      rw [hafter, hacct]
      rfl
    simp only [hafter, mem_some_iff, forall_eq']
    rw [← apply_cancel_eq_iff h.plans acct subscription]
    tauto

/-- **A deletion touches only the stored subscription** exactly when each one in the history is a
replay, or of the stored subscription, or comes when there is nothing to lose. -/
theorem cancels_stored_iff (h : StripeEventHandler) (tenantID : String) (w w' : BillingWorld)
    (history : List Handling) (hrun : run (handlingStep h) w history = some w') :
    Along (handlingStep h) (CancelsOnlyStored h tenantID) w history ↔
      Along (handlingStep h) (NothingElseToLose h tenantID) w history :=
  along_congr (fun _ _ _ hstep => cancelsOnlyStored_iff hstep) hrun

def smallCatalog : StripeEventHandler where
  webhookKey := some "whsec"
  plans := [⟨"free", ""⟩, ⟨"pro", "price_pro"⟩]
  events := true

def freeTenant : BillingWorld where
  now := 0
  tenants := ⟨[⟨"t1", "free", .empty⟩], by decide⟩
  seen := fun _ => none
  emitted := []

def subscriptionEvent (id : String) (type : EventType) (created : ℤ) (subscription status : String) :
    Handling where
  env :=
    { id, type := some type, created
      object := { subscription := .ok ⟨subscription, "cus_1", status, "t1", [⟨"si_1", "price_pro"⟩]⟩ } }
  choices := replicate 6 {}

def oneSubscription : List Handling :=
  [subscriptionEvent "evt_1" .subscriptionCreated 1 "sub_1" "active",
    subscriptionEvent "evt_2" .subscriptionDeleted 2 "sub_1" "canceled"]

/-- The tenant has moved to a new subscription when the old one ends. -/
def movedSubscription : List Handling :=
  [subscriptionEvent "evt_1" .subscriptionCreated 1 "sub_1" "active",
    subscriptionEvent "evt_2" .subscriptionCreated 2 "sub_2" "active",
    subscriptionEvent "evt_3" .subscriptionDeleted 3 "sub_1" "canceled"]

theorem cancels_stored_iff_oneSubscription :
    ∃ w', run (handlingStep smallCatalog) freeTenant oneSubscription = some w' ∧
      Along (handlingStep smallCatalog) (CancelsOnlyStored smallCatalog "t1") freeTenant
        oneSubscription := by
  refine exists_of_run_imp (P := fun _ => True) (by decide +kernel) fun w' hrun _ => ?_
  exact (cancels_stored_iff _ _ _ w' _ hrun).mpr (by decide +kernel)

/-- **The end of an old subscription ends the new one**: the tenant loses its plan. -/
theorem movedSubscription_lost :
    ∃ w', run (handlingStep smallCatalog) freeTenant movedSubscription = some w' ∧
      w'.account? "t1" = some ⟨"free", "", "canceled", ""⟩ ∧
      ¬ Along (handlingStep smallCatalog) (CancelsOnlyStored smallCatalog "t1") freeTenant
        movedSubscription := by
  exact exists_of_run_and (by decide +kernel) fun w' _ _ => by decide +kernel

/-!
# The order of delivery

Stripe does not deliver events in the order of their creation, and nothing reads the time of
creation: the account of a tenant is what the events make of it in the order in which they are
handled.
-/

def changesFor (tenantID : String) (es : List Envelope) : List Change :=
  es.filterMap (Envelope.change? tenantID)

def inOrder (es : List Envelope) : List Envelope :=
  es.insertionSort fun e e' => e.created ≤ e'.created

/-- The events are about subscriptions, no two of them have the same id, and none counts as
processed yet. -/
structure OneByOne (w : BillingWorld) (es : List Envelope) : Prop where
  subscriptions : ∀ e ∈ es, e.isSubscription = true
  ids : ((es.map Envelope.id).filter (· ≠ "")).Nodup
  fresh : ∀ e ∈ es, e.id ≠ "" → w.seen e.id = none

def statusAfter (acct : Account) (cs : List Change) : String :=
  (cs.getLast?.map Change.status).getD acct.status

def BillingWorld.outcome? (w : BillingWorld) (tenantID : String) : Option (String × String) :=
  (w.account? tenantID).map fun acct => (acct.plan, acct.status)

/-- The event delivered last and the newest one leave the same status; and the last delivered event
to name a plan and the newest one to do so name the same. -/
def SameOutcome (h : StripeEventHandler) (tenantID : String) (w : BillingWorld) (es : List Envelope) :
    Prop :=
  ∀ acct ∈ w.account? tenantID,
    planAfter h.plans acct (changesFor tenantID es) =
      planAfter h.plans acct (changesFor tenantID (inOrder es)) ∧
    statusAfter acct (changesFor tenantID es) = statusAfter acct (changesFor tenantID (inOrder es))
  deriving Decidable

variable {h : StripeEventHandler} {tenantID : String} {w w' : BillingWorld}

lemma not_suppressed {a : Handling} (hfresh : a.env.id ≠ "" → w.seen a.env.id = none) :
    ¬ Suppressed h w a := by
  rintro ⟨hid, hsome⟩
  have hnone : (a.checked h w).seen a.env.id = none :=
    sweep_seen_of_none (by rw [BillingWorld.seen_wait, hfresh hid])
  simp [hnone] at hsome

variable {es : List Envelope}

lemma OneByOne.tail {e : Envelope} (hes : OneByOne w (e :: es))
    (hafter : SeenAfter w w' e.id) : OneByOne w' es where
  subscriptions e' he' := hes.subscriptions e' (mem_cons_of_mem _ he')
  ids := hes.ids.sublist (((sublist_cons_self e es).map _).filter _)
  fresh e' he' hid := by
    refine hafter e'.id ?_ (hes.fresh e' (mem_cons_of_mem _ he') hid)
    rcases eq_or_ne e.id "" with he | he
    · exact .inr he
    left
    rintro heq
    have hnodup := hes.ids
    rw [map_cons, filter_cons_of_pos (by simpa using he)] at hnodup
    refine (nodup_cons.mp hnodup).1 (mem_filter.mpr ⟨?_, by simpa using he⟩)
    exact heq ▸ mem_map_of_mem he'

/-- **Events handled one after the other are folded into the account.** -/
theorem account_run {as : List Handling} (hes : OneByOne w (as.map Handling.env))
    (hrun : run (handlingStep h) w as = some w') : w'.account? tenantID =
      (w.account? tenantID).map
        ((changesFor tenantID (as.map Handling.env)).foldl (Account.apply h.plans)) := by
  induction as generalizing w with
  | nil =>
    cases hrun
    exact map_id'.symm
  | cons a as ih =>
    obtain ⟨w1, hstep, hrun⟩ := bind_eq_some_iff.mp hrun
    have hmem : a.env ∈ (a :: as).map Handling.env := mem_cons_self ..
    obtain ⟨hs, -⟩ | ⟨-, hadvanced, hafter⟩ := account_step (hes.subscriptions _ hmem) hstep
    · exact absurd hs (not_suppressed (hes.fresh _ hmem))
    rw [ih (hes.tail hafter) hrun, hadvanced tenantID, Option.map_map, List.map_cons]
    congr 1
    funext acct
    cases hchange : a.env.change? tenantID <;> simp [changesFor, hchange]

lemma OneByOne.perm {es' : List Envelope} (hes : OneByOne w es) (hperm : es'.Perm es) :
    OneByOne w es' where
  subscriptions e he := hes.subscriptions e (hperm.mem_iff.mp he)
  ids := ((hperm.map _).filter _).nodup_iff.mpr hes.ids
  fresh e he := hes.fresh e (hperm.mem_iff.mp he)

lemma outcome_run {as : List Handling} (hes : OneByOne w (as.map Handling.env))
    (hrun : run (handlingStep h) w as = some w') : w'.outcome? tenantID =
      (w.account? tenantID).map fun acct =>
        (planAfter h.plans acct (changesFor tenantID (as.map Handling.env)),
          statusAfter acct (changesFor tenantID (as.map Handling.env))) := by
  rw [BillingWorld.outcome?, account_run hes hrun, Option.map_map]
  congr 1
  funext acct
  rw [Function.comp_apply, plan_foldl, status_foldl]
  rfl

/-- **The outcome of an order of delivery is that of the order of creation** exactly when the last
event delivered leaves the status of the newest, and the plan named last is that of the newest event
to name one. -/
theorem settled_inOrder_iff (h : StripeEventHandler) (tenantID : String) (w w1 w2 : BillingWorld)
    (as as' : List Handling) (hes : OneByOne w (as.map Handling.env))
    (horder : as'.map Handling.env = inOrder (as.map Handling.env))
    (hrun1 : run (handlingStep h) w as = some w1) (hrun2 : run (handlingStep h) w as' = some w2) :
    w1.outcome? tenantID = w2.outcome? tenantID ↔
      SameOutcome h tenantID w (as.map Handling.env) := by
  have hes' : OneByOne w (as'.map Handling.env) := by
    rw [horder]
    exact hes.perm (perm_insertionSort _ _)
  rw [outcome_run hes hrun1, outcome_run hes' hrun2, horder]
  unfold SameOutcome
  cases w.account? tenantID with
  | none => simp
  | some acct => simp

def lateUpdate : List Handling :=
  [subscriptionEvent "evt_2" .subscriptionDeleted 2 "sub_1" "canceled",
    subscriptionEvent "evt_1" .subscriptionUpdated 1 "sub_1" "active"]

def swappedUpdates : List Handling :=
  [subscriptionEvent "evt_2" .subscriptionUpdated 2 "sub_1" "active",
    subscriptionEvent "evt_1" .subscriptionCreated 1 "sub_1" "active"]

lemma oneByOne_of_decide
    (hes : (∀ e ∈ es, e.isSubscription = true) ∧ ((es.map Envelope.id).filter (· ≠ "")).Nodup)
    (hfresh : ∀ id, w.seen id = none) : OneByOne w es :=
  ⟨hes.1, hes.2, fun e _ _ => hfresh e.id⟩

theorem settled_inOrder_iff_swappedUpdates :
    ∃ w1 w2, run (handlingStep smallCatalog) freeTenant swappedUpdates = some w1 ∧
      run (handlingStep smallCatalog) freeTenant swappedUpdates.reverse = some w2 ∧
      w1.outcome? "t1" = w2.outcome? "t1" := by
  obtain ⟨w1, hrun1⟩ : ∃ w1, run (handlingStep smallCatalog) freeTenant swappedUpdates = some w1 := by
    decide +kernel
  obtain ⟨w2, hrun2⟩ : ∃ w2,
      run (handlingStep smallCatalog) freeTenant swappedUpdates.reverse = some w2 := by decide +kernel
  refine ⟨w1, w2, hrun1, hrun2, ?_⟩
  exact (settled_inOrder_iff _ _ _ w1 w2 _ _ (oneByOne_of_decide (by decide) fun _ => rfl) rfl hrun1
    hrun2).mpr (by decide +kernel)

/-- **A late update brings an ended subscription back**: delivered in the order of their creation,
the same events leave the tenant on the free plan. -/
theorem lateUpdate_unsettled :
    ∃ w1 w2, run (handlingStep smallCatalog) freeTenant lateUpdate = some w1 ∧
      run (handlingStep smallCatalog) freeTenant lateUpdate.reverse = some w2 ∧
      lateUpdate.reverse.map Handling.env = inOrder (lateUpdate.map Handling.env) ∧
      w1.outcome? "t1" = some ("pro", "active") ∧ w2.outcome? "t1" = some ("free", "canceled") := by
  have horder : lateUpdate.reverse.map Handling.env = inOrder (lateUpdate.map Handling.env) := rfl
  simp only [horder, true_and]
  decide +kernel

end DeployMonster.Billing
