import DeployMonster.Billing.StripeWebhook
import DeployMonster.Deploy.Runtime
import DeployMonster.Library.CancelableLoop

/-!
# Metering

`internal/billing/metering.go`, `ReportUsage` of `internal/billing/stripe.go` and
`CreateUsageRecord` of `internal/db/billing.go`. Every tick of an hour counts the containers anew
and increments the bucket of the hour.
-/

namespace DeployMonster.Billing

open Clock Deploy CancelableLoop Pool List Option Table

def label (c : Container) (key : String) : String := (c.labels.lookup key).getD ""

/-- `TenantUsage`, with the fields that the meter fills. -/
structure TenantUsage where
  containers : ℕ
  appIDs : List String

abbrev UsageMap := Table (Prod.fst : String × TenantUsage → String)

def UsageMap.add (usage : UsageMap) (tenantID appID : String) : UsageMap :=
  if h : tenantID ∈ usage.rows.map Prod.fst then
    usage.update tenantID
      (fun entry => (entry.1, ⟨entry.2.containers + 1, entry.2.appIDs ++ [appID]⟩)) fun _ => rfl
  else usage.insert (tenantID, ⟨1, [appID]⟩) h

/-- The containers grouped by tenant. Those without a tenant are skipped. -/
def groupByTenant (containers : List Container) : UsageMap :=
  containers.foldl
    (fun usage c =>
      if label c "monster.tenant" = "" then usage
      else usage.add (label c "monster.tenant") (label c "monster.app.id"))
    empty

def UsageMap.containersOf (usage : UsageMap) (tenantID : String) : ℕ :=
  ((usage.find? tenantID).map fun entry => entry.2.containers).getD 0

lemma find?_eq_none_of_not_mem {usage : UsageMap} {tenantID : String}
    (h : tenantID ∉ usage.rows.map Prod.fst) : usage.find? tenantID = none := by
  cases hfind : usage.find? tenantID with
  | none => rfl
  | some entry =>
    obtain ⟨hmem, rfl⟩ := find?_eq_some_iff.mp hfind
    exact absurd (mem_map_of_mem hmem) h

lemma exists_find?_of_mem {usage : UsageMap} {tenantID : String}
    (h : tenantID ∈ usage.rows.map Prod.fst) : ∃ entry, usage.find? tenantID = some entry := by
  obtain ⟨entry, hmem, hkey⟩ := mem_map.mp h
  exact ⟨entry, find?_eq_some_iff.mpr ⟨hmem, hkey⟩⟩

lemma containersOf_add (usage : UsageMap) (tenantID appID k : String) :
    (usage.add tenantID appID).containersOf k =
      usage.containersOf k + if k = tenantID then 1 else 0 := by
  unfold UsageMap.add UsageMap.containersOf
  split
  case isTrue h =>
    rw [find?_update]
    by_cases hk : k = tenantID
    · subst hk
      obtain ⟨entry, hentry⟩ := exists_find?_of_mem h
      simp [hentry]
    · simp [hk]
  case isFalse h =>
    rw [find?_insert]
    by_cases hk : k = tenantID
    · subst hk
      simp [find?_eq_none_of_not_mem h]
    · simp [hk, Ne.symm hk]

lemma containersOf_groupByTenant (containers : List Container) {tenantID : String}
    (htenant : tenantID ≠ "") : (groupByTenant containers).containersOf tenantID =
      containers.countP fun c => label c "monster.tenant" = tenantID := by
  unfold groupByTenant
  induction containers using reverseRecOn with
  | nil => rfl
  | append_singleton cs c ih =>
    rw [foldl_append, countP_append, ← ih, foldl_cons, foldl_nil, countP_singleton]
    by_cases hc : label c "monster.tenant" = ""
    · rw [if_pos hc, hc]
      simp [Ne.symm htenant]
    · rw [if_neg hc, containersOf_add]
      simp only [decide_eq_true_eq, eq_comm (a := tenantID)]

/-! ## A tick -/

def hour : ℤ := 60 * minute

/-- `Truncate(time.Hour)`: the full hours since the zero time are those since the epoch. -/
def hourBucket (t : ℤ) : ℤ := t - t % hour

def zeroTime : ℤ := -62135596800 * second

structure UsageRecord where
  (tenantID metricType : String)
  value : ℕ
  hourBucket : ℤ

/-- A usage record as Stripe receives it, with the tenant it is for. Its quantity is added to what
the bucket of its timestamp has. -/
structure UsageReport where
  (tenantID subscriptionItemID : String)
  quantity : ℕ
  timestamp : ℤ

/-- `EventBillingUsageReported`. -/
structure UsageReported where
  (tenantID subscriptionItemID : String)
  quantity : ℕ
  bucket : ℤ

/-- The meter: the node of its container runtime, and whether it has a Stripe client and an event
bus. -/
structure Meter where
  node : Option String
  (stripe events : Bool)

/-- What a tick meets: the time, the containers and the tenants, which calls fail, from which check
on the context is canceled, and the orders in which the entries of the map are visited. -/
structure Tick where
  now : ℤ
  runtime : Runtime
  tenants : TenantTable
  listFails : Option String := none
  recordFails : String → Option String := fun _ => none
  tenantFails : String → Option String := fun _ => none
  reportFails : String → Option String := fun _ => none
  canceledFrom : Option ℕ := none
  recordOrder : List (String × TenantUsage) → List (String × TenantUsage) := id
  reportOrder : List (String × TenantUsage) → List (String × TenantUsage) := id
  recordOrder_perm : ∀ rows, (recordOrder rows).Perm rows := by exact fun rows => .refl rows
  reportOrder_perm : ∀ rows, (reportOrder rows).Perm rows := by exact fun rows => .refl rows

/-- `CreateUsageRecord` for a tenant: an error is logged. -/
def recordTenant (t : Tick) (bucket : ℤ) (entry : String × TenantUsage) : List UsageRecord :=
  match t.recordFails entry.1 with
  | some _ => []
  | none => [⟨entry.1, "containers", entry.2.containers, bucket⟩]

/-- `ReportUsage`. A count is never negative, so that check does not fail. -/
def reportUsage (t : Tick) (tenantID subscriptionItemID : String) (quantity : ℕ) (ts : ℤ) :
    Except String UsageReport :=
  if subscriptionItemID = "" then .error "stripe: subscription_item_id is required"
  else
    match t.reportFails tenantID with
    | some e => .error e
    | none =>
      .ok ⟨tenantID, subscriptionItemID, quantity, unix (if ts = zeroTime then t.now else ts)⟩

/-- The metered item of a tenant, as far as it can be loaded. -/
def meteredItem (t : Tick) (tenantID : String) : Option String :=
  match t.tenantFails tenantID, t.tenants.find? tenantID with
  | some _, _ | none, none => none
  | none, some tenant =>
    match getStripeMetadata tenant with
    | .error _ => none
    | .ok md => if md.subscriptionItemID = "" then none else some md.subscriptionItemID

/-- The turn of a tenant in `reportUsageToStripe`: a tenant that is not on a metered plan is
skipped. -/
def reportTenant (t : Tick) (bucket : ℤ) (entry : String × TenantUsage) : List UsageReport :=
  match meteredItem t entry.1 with
  | none => []
  | some item => (reportUsage t entry.1 item entry.2.containers bucket).toOption.toList

structure Collected where
  records : List UsageRecord := []
  reports : List UsageReport := []
  events : List UsageReported := []

/-- The usage that the tick finds: the containers of the platform, in whatever state. -/
def Meter.usage (m : Meter) (t : Tick) : UsageMap :=
  match m.node with
  | none => empty
  | some node => groupByTenant (t.runtime.listByLabel node "monster.enable" "true")

/-- `reportUsageToStripe`. The checks of the context go on after those of the records. -/
def reportUsageToStripe (t : Tick) (usage : UsageMap) (bucket : ℤ) : List UsageReport :=
  (loop t.canceledFrom (reportTenant t bucket) usage.rows.length (t.reportOrder usage.rows)).1

def collect (m : Meter) (t : Tick) : Collected :=
  if m.node = none ∨ t.listFails ≠ none then {}
  else
    let usage := m.usage t
    let bucket := hourBucket t.now
    let recorded := loop t.canceledFrom (recordTenant t bucket) 0 (t.recordOrder usage.rows)
    if recorded.2 ∧ m.stripe then
      let reports := reportUsageToStripe t usage bucket
      { records := recorded.1
        reports
        events := if m.events then
            reports.map fun r => ⟨r.tenantID, r.subscriptionItemID, r.quantity, bucket⟩
          else [] }
    else { records := recorded.1 }

/-- `loop`: one tick after the other. -/
def meterLoop (m : Meter) (ticks : List Tick) : Collected :=
  ticks.foldl
    (fun all t =>
      let c := collect m t
      ⟨all.records ++ c.records, all.reports ++ c.reports, all.events ++ c.events⟩)
    {}

/-! ## The bucket of an hour -/

def recordedIn (tenantID : String) (bucket : ℤ) (records : List UsageRecord) : ℕ :=
  (records.map fun r => if r.tenantID = tenantID ∧ r.hourBucket = bucket then r.value else 0).sum

def reportedIn (tenantID : String) (bucket : ℤ) (reports : List UsageReport) : ℕ :=
  (reports.map fun r =>
    if r.tenantID = tenantID ∧ hourBucket (r.timestamp * second) = bucket then r.quantity else 0).sum

def Meter.containersOf (m : Meter) (t : Tick) (tenantID : String) : List Container :=
  t.runtime.containers.filter fun c =>
    some c.node = m.node ∧ c.labelled "monster.enable" "true" ∧ label c "monster.tenant" = tenantID

def Meter.running (m : Meter) (t : Tick) (tenantID : String) : ℕ :=
  (m.containersOf t tenantID).countP (·.state = .running)

def Meter.stopped (m : Meter) (t : Tick) (tenantID : String) : ℕ :=
  (m.containersOf t tenantID).countP fun c => ¬ decide (c.state = .running)

/-- The tick falls into the hour, and the record of the tenant gets through: the containers are
listed, the tenant has its turn before the context is canceled, and the record is stored. -/
def Meter.records (m : Meter) (tenantID : String) (bucket : ℤ) (t : Tick) : Bool :=
  hourBucket t.now = bucket ∧ m.node.isSome ∧ t.listFails = none ∧
    passes t.canceledFrom (((t.recordOrder (m.usage t).rows).map Prod.fst).idxOf tenantID) ∧
    t.recordFails tenantID = none

/-- The tick falls into the hour, and the report of the tenant gets through: as the record does,
with Stripe configured, its metered item found, and Stripe accepting. -/
def Meter.reports (m : Meter) (tenantID : String) (bucket : ℤ) (t : Tick) : Bool :=
  hourBucket t.now = bucket ∧ m.stripe ∧ m.node.isSome ∧ t.listFails = none ∧
    passes t.canceledFrom ((m.usage t).rows.length +
      ((t.reportOrder (m.usage t).rows).map Prod.fst).idxOf tenantID) ∧
    (meteredItem t tenantID).isSome ∧ t.reportFails tenantID = none

/-- One of the ticks gets through, or there is nothing to count; and nothing else is listed at a
tick that gets through. -/
def CountedOnce (n : ℕ) (through : Tick → Bool) (extra : Tick → ℕ) (ticks : List Tick) : Prop :=
  (n = 0 ∨ ticks.countP through = 1) ∧ ∀ t ∈ ticks, through t = true → extra t = 0
  deriving Decidable

variable {m : Meter} {t : Tick} {tenantID : String} {bucket : ℤ}

lemma length_containersOf :
    (m.containersOf t tenantID).length = m.running t tenantID + m.stopped t tenantID :=
  length_eq_countP_add_countP _

lemma containersOf_usage (htenant : tenantID ≠ "") :
    (m.usage t).containersOf tenantID = (m.containersOf t tenantID).length := by
  unfold Meter.usage Meter.containersOf
  split
  case h_1 hnode => simp [hnode, UsageMap.containersOf, Table.empty, Table.find?]
  case h_2 node hnode =>
    rw [containersOf_groupByTenant _ htenant, Runtime.listByLabel, countP_reverse,
      countP_filter, countP_eq_length_filter, hnode]
    congr 1
    refine filter_congr fun c _ => ?_
    rw [Bool.eq_iff_iff]
    simp only [Bool.and_eq_true, decide_eq_true_eq, some.injEq]
    tauto

lemma records_collect : (collect m t).records = if m.node = none ∨ t.listFails ≠ none then []
    else (loop t.canceledFrom (recordTenant t (hourBucket t.now)) 0
      (t.recordOrder (m.usage t).rows)).1 := by
  unfold collect
  split
  · rfl
  · dsimp only
    split <;> rfl

lemma reports_collect : (collect m t).reports = if m.node = none ∨ t.listFails ≠ none then []
    else if (loop t.canceledFrom (recordTenant t (hourBucket t.now)) 0
        (t.recordOrder (m.usage t).rows)).2 ∧ m.stripe then
      reportUsageToStripe t (m.usage t) (hourBucket t.now)
    else [] := by
  unfold collect
  split
  · rfl
  · dsimp only
    split <;> rfl

lemma sum_loop_usage {β : Type} {usage : UsageMap} {rows : List (String × TenantUsage)}
    (hrows : rows.Perm usage.rows) (stop : Option ℕ) {body : String × TenantUsage → List β}
    {f : β → ℕ} (i : ℕ) {P : Prop} [Decidable P]
    (hbody : ∀ entry : String × TenantUsage, ((body entry).map f).sum =
      if entry.1 = tenantID ∧ P then entry.2.containers else 0) :
    (((loop stop body i rows).1).map f).sum =
      if passes stop (i + (rows.map Prod.fst).idxOf tenantID) ∧ P then
        usage.containersOf tenantID
      else 0 := by
  have hsum := sum_loop stop i (usage.reorder rows hrows) f
    fun entry hne => by rw [hbody, if_neg fun h => hne h.1]
  rw [find?_reorder] at hsum
  refine hsum.trans ?_
  rw [ite_and]
  refine if_congr .rfl ?_ rfl
  unfold UsageMap.containersOf
  cases hfind : usage.find? tenantID with
  | none => exact (ite_self _).symm
  | some entry =>
    obtain ⟨-, rfl⟩ := find?_eq_some_iff.mp hfind
    exact (hbody entry).trans (if_congr (and_iff_right rfl) rfl rfl)

lemma recordedIn_collect (htenant : tenantID ≠ "") :
    recordedIn tenantID bucket (collect m t).records =
      if m.records tenantID bucket t then
        m.running t tenantID + m.stopped t tenantID
      else 0 := by
  rw [records_collect, ← length_containersOf, ← containersOf_usage htenant]
  split
  case isTrue hnone =>
    rw [if_neg]
    · rfl
    intro hrec
    simp only [Meter.records, decide_eq_true_eq] at hrec
    rcases hnone with hnode | hfails
    · simp [hnode] at hrec
    · exact hfails hrec.2.2.1
  case isFalse hsome =>
    obtain ⟨hnode, hfails⟩ := not_or.mp hsome
    rw [recordedIn, sum_loop_usage (t.recordOrder_perm _) t.canceledFrom 0
      (P := hourBucket t.now = bucket ∧ t.recordFails tenantID = none)]
    · refine if_congr ?_ rfl rfl
      simp only [Meter.records, Nat.zero_add, decide_eq_true_eq, isSome_iff_ne_none, ne_eq,
        hnode, not_false_eq_true, not_not.mp hfails, true_and]
      tauto
    intro entry
    unfold recordTenant
    cases hrec : t.recordFails entry.1 with
    | some e =>
      rw [if_neg]
      · rfl
      · rintro ⟨rfl, -, hnone⟩
        rw [hrec] at hnone
        cases hnone
    | none =>
      refine if_congr (and_congr_right ?_) rfl rfl
      rintro rfl
      rw [hrec]
      exact (and_iff_left rfl).symm

lemma hourBucket_unix (t : ℤ) : hourBucket (unix t * second) = hourBucket t := by
  simp only [hourBucket, unix, hour, minute, second]
  omega

lemma hourBucket_hourBucket (t : ℤ) : hourBucket (hourBucket t) = hourBucket t := by
  simp only [hourBucket, hour, minute, second]
  omega

lemma meteredItem_ne_empty {item : String} (h : meteredItem t tenantID = some item) : item ≠ "" := by
  unfold meteredItem at h
  split at h
  case h_1 | h_2 => cases h
  case h_3 =>
    split at h
    case h_1 => cases h
    case h_2 =>
      obtain ⟨hne, hitem⟩ := ite_none_left_eq_some.mp h
      rwa [some.inj hitem] at hne

lemma reportTenant_eq (bucket : ℤ) (entry : String × TenantUsage) :
    reportTenant t bucket entry =
      if t.reportFails entry.1 = none then
        (meteredItem t entry.1).toList.map fun item =>
          ⟨entry.1, item, entry.2.containers, unix (if bucket = zeroTime then t.now else bucket)⟩
      else [] := by
  unfold reportTenant reportUsage
  cases hitem : meteredItem t entry.1 with
  | none => simp
  | some item =>
    dsimp only
    rw [if_neg (meteredItem_ne_empty hitem)]
    cases t.reportFails entry.1 with
    | none => rfl
    | some e => rfl

lemma sum_reportTenant (tenantID : String) (bucket : ℤ) (entry : String × TenantUsage) :
    (((reportTenant t (hourBucket t.now) entry).map fun r =>
      if r.tenantID = tenantID ∧ hourBucket (r.timestamp * second) = bucket then r.quantity
      else 0).sum) =
    if entry.1 = tenantID ∧ hourBucket t.now = bucket ∧ (meteredItem t tenantID).isSome ∧
        t.reportFails tenantID = none then entry.2.containers else 0 := by
  have htime : hourBucket (unix (if hourBucket t.now = zeroTime then t.now else hourBucket t.now) *
      second) = hourBucket t.now := by
    rw [hourBucket_unix]
    split
    · rfl
    · exact hourBucket_hourBucket t.now
  rw [reportTenant_eq]
  by_cases hentry : entry.1 = tenantID
  · subst hentry
    cases meteredItem t entry.1 with
    | none => simp
    | some item =>
      by_cases hfails : t.reportFails entry.1 = none
      · simp [hfails, htime]
      · simp [hfails]
  · have hnot : ¬ (entry.1 = tenantID ∧ hourBucket t.now = bucket ∧
        (meteredItem t tenantID).isSome ∧ t.reportFails tenantID = none) := fun h => hentry h.1
    rw [if_neg hnot]
    split
    · cases meteredItem t entry.1 <;> simp [hentry]
    · rfl

lemma reportedIn_collect (htenant : tenantID ≠ "") :
    reportedIn tenantID bucket (collect m t).reports =
      if m.reports tenantID bucket t then
        m.running t tenantID + m.stopped t tenantID
      else 0 := by
  rw [reports_collect, ← length_containersOf, ← containersOf_usage htenant]
  split
  case isTrue hnone =>
    rw [if_neg]
    · rfl
    intro hrep
    simp only [Meter.reports, decide_eq_true_eq] at hrep
    rcases hnone with hnode | hfails
    · simp [hnode] at hrep
    · exact hfails hrep.2.2.2.1
  case isFalse hsome =>
    obtain ⟨hnode, hfails⟩ := not_or.mp hsome
    have hreports : m.reports tenantID bucket t = true ↔ hourBucket t.now = bucket ∧ m.stripe = true ∧
        passes t.canceledFrom ((m.usage t).rows.length +
          ((t.reportOrder (m.usage t).rows).map Prod.fst).idxOf tenantID) = true ∧
        (meteredItem t tenantID).isSome ∧ t.reportFails tenantID = none := by
      simp [Meter.reports, isSome_iff_ne_none, hnode, not_not.mp hfails]
    split
    case isTrue hgo =>
      rw [reportedIn, reportUsageToStripe, sum_loop_usage (t.reportOrder_perm _) t.canceledFrom _
        (P := hourBucket t.now = bucket ∧ (meteredItem t tenantID).isSome ∧
          t.reportFails tenantID = none) (sum_reportTenant tenantID bucket)]
      refine if_congr ?_ rfl rfl
      rw [hreports]
      have hstripe := hgo.2
      tauto
    case isFalse hgo =>
      rw [if_neg]
      · rfl
      intro hrep
      obtain ⟨-, hstripe, hpass, -⟩ := hreports.mp hrep
      refine hgo ⟨loop_completed ?_, hstripe⟩
      rw [Nat.zero_add, (t.recordOrder_perm _).length_eq]
      exact passes_of_le (Nat.le_add_right _ _) hpass

/-! ## The ticks of an hour -/

lemma recordedIn_append (rs rs' : List UsageRecord) : recordedIn tenantID bucket (rs ++ rs') =
    recordedIn tenantID bucket rs + recordedIn tenantID bucket rs' := by
  simp [recordedIn]

lemma reportedIn_append (rs rs' : List UsageReport) : reportedIn tenantID bucket (rs ++ rs') =
    reportedIn tenantID bucket rs + reportedIn tenantID bucket rs' := by
  simp [reportedIn]

lemma totals_meterLoop (m : Meter) (tenantID : String) (bucket : ℤ) (ticks : List Tick) :
    recordedIn tenantID bucket (meterLoop m ticks).records =
        total (fun t => recordedIn tenantID bucket (collect m t).records) ticks ∧
      reportedIn tenantID bucket (meterLoop m ticks).reports =
        total (fun t => reportedIn tenantID bucket (collect m t).reports) ticks := by
  unfold meterLoop
  induction ticks using reverseRecOn with
  | nil => exact ⟨rfl, rfl⟩
  | append_singleton ts t ih =>
    rw [foldl_append, foldl_cons, foldl_nil]
    simp only [recordedIn_append, reportedIn_append, ih.1, ih.2, total_append, total_cons, total_nil,
      Nat.add_zero, and_self]

variable {n : ℕ} {count extra : Tick → ℕ} {through : Tick → Bool} {ticks : List Tick}

lemma total_counts (hcount : ∀ t ∈ ticks, through t = true → count t = n) :
    total (fun t => if through t then count t + extra t else 0) ticks =
      ticks.countP through * n + total (fun t => if through t then extra t else 0) ticks := by
  induction ticks with
  | nil => simp
  | cons t ts ih =>
    rw [total_cons, total_cons, ih fun t' ht' => hcount t' (mem_cons_of_mem _ ht')]
    by_cases ht : through t = true
    · rw [countP_cons_of_pos ht, if_pos ht, if_pos ht, hcount t mem_cons_self ht, Nat.succ_mul]
      omega
    · rw [countP_cons_of_neg ht, if_neg ht, if_neg ht]
      omega

lemma total_counts_eq_iff (hcount : ∀ t ∈ ticks, through t = true → count t = n) :
    total (fun t => if through t then count t + extra t else 0) ticks = n ↔
      CountedOnce n through extra ticks := by
  rw [total_counts hcount, CountedOnce]
  have hextra : total (fun t => if through t then extra t else 0) ticks = 0 ↔
      ∀ t ∈ ticks, through t = true → extra t = 0 := by
    constructor
    · intro h t ht hthrough
      simpa [hthrough] using eq_zero_of_total h ht
    intro h
    refine total_eq_zero fun t ht => ?_
    split
    · exact h t ht ‹_›
    · rfl
  rw [← hextra]
  constructor
  · intro h
    rcases Nat.eq_zero_or_pos (ticks.countP through) with hnone | hsome
    · have hzero := hextra.mpr fun t ht hthrough =>
        absurd hthrough (countP_eq_zero.mp hnone t ht)
      rw [hnone, hzero] at h
      exact ⟨.inl (by omega), hzero⟩
    have hle : n ≤ ticks.countP through * n := Nat.le_mul_of_pos_left n hsome
    refine ⟨?_, by omega⟩
    rcases Nat.eq_zero_or_pos n with hn | hn
    · exact .inl hn
    · refine .inr (Nat.eq_of_mul_eq_mul_right hn ?_)
      omega
  · rintro ⟨rfl | hone, hzero⟩
    · rw [hzero, Nat.mul_zero]
    · rw [hone, hzero, Nat.one_mul, Nat.add_zero]

def smallMeter : Meter where
  node := some "local"
  stripe := true
  events := true

def meteredTick (now : ℤ) : Tick where
  now := now
  runtime := Runtime.empty.create "local"
    { name := "dm-web", image := "web", network := "monster-network", restartPolicy := "unless-stopped"
      labels := [("monster.enable", "true"), ("monster.tenant", "t1"), ("monster.app.id", "web")] } true
  tenants :=
    ⟨[⟨"t1", "pro", .object (some (.metadata { subscriptionItemID := "si_1" })) []⟩], by decide⟩

end DeployMonster.Billing
