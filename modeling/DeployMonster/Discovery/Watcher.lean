import DeployMonster.Deploy.Runtime
import DeployMonster.Ingress.Router
import DeployMonster.Library.References

/-!
# The watcher of container labels

`syncRoutes` and `ParseLabelsToRoute` of `internal/discovery/watcher.go`. The labels of a container
are a map, and each loop over them meets them in an order of its own.
-/

namespace DeployMonster.Discovery

open Deploy Ingress StepMachine List Option

/-- The text between the first `opening` and the next backtick and parenthesis. -/
def between (opening rule : String) : String :=
  match References.indexOf? opening.toList rule.toList with
  | none => ""
  | some i =>
    let rest := rule.toList.drop (i + opening.toList.length)
    match References.indexOf? "`)".toList rest with
    | none => ""
    | some j => String.ofList (rest.take j)

def parseRule (rule : String) : String × String :=
  (between "Host(`" rule, between "PathPrefix(`" rule)

def isRule (key : String) : Bool :=
  ".rule".toList.isSuffixOf key.toList && "monster.http.routers.".toList.isPrefixOf key.toList

def isPort (key : String) : Bool :=
  ".server.port".toList.isSuffixOf key.toList &&
    "monster.http.services.".toList.isPrefixOf key.toList

def label? (labels : Labels) (key : String) : Option String :=
  (labels.find? fun l => l.1 = key).map Prod.snd

structure ContainerInfo where
  (id state : String)
  labels : Labels

/-- A container, with the orders in which the loops for the rule and for the port meet its labels. -/
structure Listed where
  info : ContainerInfo
  (ruleOrder portOrder : Labels)
  nodup : (info.labels.map Prod.fst).Nodup
  rule_perm : ruleOrder.Perm info.labels
  port_perm : portOrder.Perm info.labels

variable (c : Listed)

namespace Listed

def appID : String := (label? c.info.labels "monster.app.id").getD ""

def rule : Option String :=
  (c.ruleOrder.find? fun l => isRule l.1).map Prod.snd

def port : String :=
  ((c.portOrder.find? fun l => isPort l.1).map Prod.snd).getD "80"

/-- The address of the container: the first twelve letters of its id are its name in the network. -/
def backend (port : String) : String :=
  String.ofList (c.info.id.toList.take 12) ++ ":" ++ port

def active : Bool := c.info.state = "running" ∧ c.appID ≠ ""

end Listed

def parseLabelsToRoute : Option RouteEntry :=
  let (host, pathPrefix) := (c.rule.map parseRule).getD ("", "")
  if host = "" then none
  else
    some
      { host
        pathPrefix := RouteTable.defaultPrefix pathPrefix
        priority := 100
        backends := [c.backend c.port]
        stripPrefix := false
        appID := c.appID }

/-! ## A sync -/

variable (cs : List Listed)

def upserts : List RouteEntry :=
  (cs.filter Listed.active).filterMap parseLabelsToRoute

def activeApps : List String := (cs.filter Listed.active).map Listed.appID

/-- The applications of the routes that have no running container. -/
def staleApps (rt : RouteTable) : List String :=
  ((rt.map RouteEntry.appID).filter fun id => id ≠ "" ∧ id ∉ activeApps cs).eraseDups

/-- The writes lead from one table to the other, with some order of equal routes. -/
def Writes (rt : RouteTable) (ws : List RouteWrite) (rt' : RouteTable) : Prop :=
  ∃ as, as.map Prod.fst = ws ∧ run tableStep rt as = some rt'

def Synced (rt rt' : RouteTable) : Prop :=
  ∃ rt1, Writes rt ((upserts cs).map .upsert) rt1 ∧
    Writes rt1 ((staleApps cs rt1).map .removeByAppID) rt'

/-- The route of the last container that declares the host and the path. -/
def lastRoute : RouteMap := fun k => (upserts cs).reverse.find? fun e => e.key = k

variable {cs : List Listed} {rt rt' : RouteTable}

lemma toMap_of_writes {ws : List RouteWrite} (hvalid : ValidTable rt) (h : Writes rt ws rt') :
    ValidTable rt' ∧ rt'.toMap = ws.foldl RouteWrite.apply rt.toMap := by
  obtain ⟨as, rfl, hrun⟩ := h
  induction as generalizing rt with
  | nil =>
    cases hrun
    exact ⟨hvalid, rfl⟩
  | cons a as ih =>
    obtain ⟨rt1, hstep, hrun⟩ := bind_eq_some_iff.mp hrun
    obtain ⟨hvalid', hmap⟩ := ih (validTable_step rt a rt1 hvalid hstep) hrun
    exact ⟨hvalid', hmap.trans (by rw [toMap_tableStep hvalid hstep]; rfl)⟩

variable {e : RouteEntry}

lemma stored_of_parse {c : Listed} (h : parseLabelsToRoute c = some e) : e.stored = e := by
  obtain ⟨-, h⟩ := ite_none_left_eq_some.mp h
  cases h
  simp [RouteEntry.stored, defaultPrefix_of_ne (defaultPrefix_ne _)]

lemma mem_upserts :
    e ∈ upserts cs ↔ ∃ c ∈ cs, c.active = true ∧ parseLabelsToRoute c = some e := by
  simp only [upserts, mem_filterMap, mem_filter, and_assoc]

lemma foldl_upsert (es : List RouteEntry) (hes : ∀ e ∈ es, e.stored = e) (f : RouteMap)
    (k : String × String) : (es.map .upsert).foldl RouteWrite.apply f k =
      (es.reverse.find? fun e => e.key = k).or (f k) := by
  induction es using reverseRecOn with
  | nil => rfl
  | append_singleton es e ih =>
    rw [map_append, foldl_append, reverse_append]
    simp only [map_cons, map_nil, foldl_cons, foldl_nil, RouteWrite.apply,
      reverse_cons, reverse_nil, nil_append, singleton_append,
      hes e (by simp), Function.update_apply, find?_cons]
    by_cases hk : k = e.key
    · simp [hk]
    · simpa [hk, Ne.symm hk] using ih fun e he => hes e (mem_append_left _ he)

lemma foldl_removeByAppID (ids : List String) (f : RouteMap) (k : String × String) :
    (ids.map .removeByAppID).foldl RouteWrite.apply f k = (f k).filter fun r => r.appID ∉ ids := by
  induction ids generalizing f with
  | nil => cases hf : f k <;> simp [hf, Option.filter]
  | cons id ids ih =>
    rw [List.map_cons, List.foldl_cons, ih, RouteWrite.apply, Option.filter_filter]
    simp

/-- **What a sync leaves**: the routes of the last containers, then the earlier routes, without those
of applications that have no running container. -/
theorem toMap_synced (hvalid : ValidTable rt) (h : Synced cs rt rt') (k : String × String) :
    rt'.toMap k = ((lastRoute cs k).or (rt.toMap k)).filter
      fun r => r.appID = "" ∨ r.appID ∈ activeApps cs := by
  obtain ⟨rt1, hupserts, hremovals⟩ := h
  obtain ⟨hvalid1, hmap1⟩ := toMap_of_writes hvalid hupserts
  rw [(toMap_of_writes hvalid1 hremovals).2, foldl_removeByAppID]
  have hstored : ∀ e ∈ upserts cs, e.stored = e := fun e he => by
    obtain ⟨c, -, -, hc⟩ := mem_upserts.mp he
    exact stored_of_parse hc
  rw [← show rt1.toMap k = (lastRoute cs k).or (rt.toMap k) by
    rw [hmap1, foldl_upsert _ hstored]; rfl]
  cases hr : rt1.toMap k with
  | none => rfl
  | some r =>
    have hmem := ((toMap_eq_some hvalid1.nodup).mp hr).1
    have hstale : r.appID ∉ staleApps cs rt1 ↔ r.appID = "" ∨ r.appID ∈ activeApps cs := by
      simp only [staleApps, mem_eraseDups, mem_filter, decide_eq_true_eq]
      have := mem_map_of_mem (f := RouteEntry.appID) hmem
      tauto
    simp only [filter_some, decide_eq_true_eq, hstale]

lemma lastRoute_eq_some {k : String × String} {r : RouteEntry} (h : lastRoute cs k = some r) :
    r.key = k ∧ ∃ c ∈ cs, c.active = true ∧ parseLabelsToRoute c = some r := by
  have hkey := find?_some h
  exact ⟨of_decide_eq_true hkey, mem_upserts.mp (mem_reverse.mp (mem_of_find?_eq_some h))⟩

lemma exists_lastRoute {c : Listed} (hc : c ∈ cs) (hactive : c.active = true)
    (he : parseLabelsToRoute c = some e) : ∃ r, lastRoute cs e.key = some r := by
  cases hlast : lastRoute cs e.key with
  | some r => exact ⟨r, rfl⟩
  | none =>
    have hmem := mem_reverse.mpr (mem_upserts.mpr ⟨c, hc, hactive, he⟩)
    simpa using find?_eq_none.mp hlast e hmem

lemma appID_of_parse {c : Listed} (h : parseLabelsToRoute c = some e) :
    e.appID = c.appID ∧ e.backends = [c.backend c.port] := by
  obtain ⟨-, h⟩ := ite_none_left_eq_some.mp h
  cases h
  exact ⟨rfl, rfl⟩

lemma synced_lastRoute (hvalid : ValidTable rt) (h : Synced cs rt rt') {k : String × String}
    {r : RouteEntry} (hr : lastRoute cs k = some r) : rt'.toMap k = some r ∧ r.appID ≠ "" := by
  obtain ⟨-, c, hc, hactive, hparse⟩ := lastRoute_eq_some hr
  have happ : r.appID ∈ activeApps cs := by
    rw [(appID_of_parse hparse).1]
    exact mem_map_of_mem (mem_filter.mpr ⟨hc, hactive⟩)
  refine ⟨?_, ?_⟩
  · rw [toMap_synced hvalid h, hr, some_or, filter_some, if_pos (by simp [happ])]
  · rw [(appID_of_parse hparse).1]
    exact (of_decide_eq_true hactive).2

/-- **The backends of a route.** Two running containers that declare one host and path are both
backends of the route exactly when both have the address of the last container that declares it. -/
theorem both_backends_iff (cs : List Listed) (rt rt' : RouteTable) (hvalid : ValidTable rt)
    (hsync : Synced cs rt rt') (c c' : Listed) (hc : c ∈ cs) (hactive : c.active = true)
    (e e' : RouteEntry) (he : parseLabelsToRoute c = some e) (he' : parseLabelsToRoute c' = some e')
    (hkey : e.key = e'.key) :
    ∃ last ∈ cs, ∃ r, parseLabelsToRoute last = some r ∧ lastRoute cs e.key = some r ∧
      rt'.toMap e.key = some r ∧ rt'.toMap e'.key = some r ∧
      (e.backends ⊆ r.backends ∧ e'.backends ⊆ r.backends ↔
        c.backend c.port = last.backend last.port ∧
          c'.backend c'.port = last.backend last.port) := by
  obtain ⟨r, hr⟩ := exists_lastRoute hc hactive he
  obtain ⟨-, last, hmem, -, hlast⟩ := lastRoute_eq_some hr
  have hroute := (synced_lastRoute hvalid hsync hr).1
  refine ⟨last, hmem, r, hlast, hr, hroute, hkey ▸ hroute, ?_⟩
  simp only [(appID_of_parse he).2, (appID_of_parse he').2, (appID_of_parse hlast).2,
    cons_subset, mem_singleton, nil_subset, and_true]

def webContainer (id : String) (routers : Labels)
    (hnodup : ((("monster.app.id", "web") :: routers).map Prod.fst).Nodup) : Listed where
  info := { id, state := "running", labels := ("monster.app.id", "web") :: routers }
  ruleOrder := ("monster.app.id", "web") :: routers
  portOrder := ("monster.app.id", "web") :: routers
  nodup := hnodup
  rule_perm := .refl _
  port_perm := .refl _

def replica (id host : String) : Listed :=
  webContainer id
    [("monster.http.routers.web-0.rule", "Host(`" ++ host ++ "`)"),
      ("monster.http.services.web-0.loadbalancer.server.port", "3000")] (by simp)

def replicaRoute (host backend : String) : RouteEntry where
  host
  pathPrefix := "/"
  priority := 100
  backends := [backend]
  stripPrefix := false
  appID := "web"

lemma synced_of_run (as : List (RouteWrite × RouteTable))
    (h : as.map Prod.fst = (upserts cs).map .upsert ∧ run tableStep rt as = some rt' ∧
      staleApps cs rt' = []) : Synced cs rt rt' :=
  ⟨rt', ⟨as, h.1, h.2.1⟩, [], by rw [h.2.2]; rfl, rfl⟩

lemma validTable_nil : ValidTable [] := valid_of_run (rfl : run tableStep [] [] = some [])

theorem both_backends_same :
    ∃ rt', Synced [replica "0123456789abc" "a.com", replica "0123456789abd" "a.com"] [] rt' ∧
      ∃ r, RouteTable.toMap rt' ("a.com", "/") = some r ∧ ["0123456789ab:3000"] ⊆ r.backends := by
  let e := replicaRoute "a.com" "0123456789ab:3000"
  have hsync : Synced [replica "0123456789abc" "a.com", replica "0123456789abd" "a.com"] [] [e] :=
    synced_of_run [(.upsert e, [e]), (.upsert e, [e])] (by decide +kernel)
  obtain ⟨last, hlast, r, -, -, hr, -, hboth⟩ := both_backends_iff _ _ _ validTable_nil hsync
    (replica "0123456789abc" "a.com") (replica "0123456789abd" "a.com") (by simp) (by decide +kernel)
    e e (by decide +kernel) (by decide +kernel) rfl
  have haddr : last.backend last.port = "0123456789ab:3000" := by
    rcases mem_pair.mp hlast with rfl | rfl <;> decide +kernel
  exact ⟨[e], hsync, r, hr, (hboth.mpr (by rw [haddr]; decide +kernel)).1⟩

/-- Two containers of one application: the route has the one that is listed last only. -/
theorem first_replica_replaced :
    Synced [replica "aaa" "a.com", replica "bbb" "a.com"] [] [replicaRoute "a.com" "bbb:3000"] ∧
      (replica "aaa" "a.com").active = true ∧ (replica "bbb" "a.com").active = true ∧
      parseLabelsToRoute (replica "aaa" "a.com") = some (replicaRoute "a.com" "aaa:3000") ∧
      parseLabelsToRoute (replica "bbb" "a.com") = some (replicaRoute "a.com" "bbb:3000") ∧
      ∃ r, RouteTable.toMap [replicaRoute "a.com" "bbb:3000"] ("a.com", "/") = some r ∧
        "aaa:3000" ∉ r.backends :=
  ⟨synced_of_run
      [(.upsert (replicaRoute "a.com" "aaa:3000"), [replicaRoute "a.com" "aaa:3000"]),
        (.upsert (replicaRoute "a.com" "bbb:3000"), [replicaRoute "a.com" "bbb:3000"])]
      (by decide +kernel),
    by decide +kernel, by decide +kernel, by decide +kernel, by decide +kernel,
    replicaRoute "a.com" "bbb:3000", rfl, by decide⟩

/-! ## Declared routes -/

def ruleKey (name : String) : String := "monster.http.routers." ++ name ++ ".rule"

def portKey (name : String) : String :=
  "monster.http.services." ++ (name ++ ".loadbalancer") ++ ".server.port"

/-- A running container declares a host and a path, and the port for them. -/
def Declares (k : String × String) (port : String) : Prop :=
  c.active = true ∧ ∃ name rule, label? c.info.labels (ruleKey name) = some rule ∧
    (parseRule rule).1 ≠ "" ∧
    k = ((parseRule rule).1, RouteTable.defaultPrefix (parseRule rule).2) ∧
    port = (label? c.info.labels (portKey name)).getD "80"

/-- The container has no rule, or the labels of one router. -/
def OneRouter : Prop :=
  (∀ l ∈ c.info.labels, isRule l.1 = false) ∨
    ∃ name, (∀ l ∈ c.info.labels, isRule l.1 = true → l.1 = ruleKey name) ∧
      ∀ l ∈ c.info.labels, isPort l.1 = true → l.1 = portKey name

variable {c : Listed} {name : String} {k : String × String}

lemma isAffixOf_append (pre mid post : String) :
    (post.toList.isSuffixOf (pre ++ mid ++ post).toList &&
      pre.toList.isPrefixOf (pre ++ mid ++ post).toList) = true := by
  simp only [String.toList_append, Bool.and_eq_true, isSuffixOf_iff_suffix, isPrefixOf_iff_prefix]
  exact ⟨suffix_append _ _, (prefix_append _ _).trans (prefix_append _ _)⟩

lemma isRule_ruleKey (name : String) : isRule (ruleKey name) = true := isAffixOf_append ..

lemma isPort_portKey (name : String) : isPort (portKey name) = true := isAffixOf_append ..

lemma find?_eq_label? {order labels : Labels} (hnodup : (labels.map Prod.fst).Nodup)
    (hperm : order.Perm labels) {p : String → Bool} {key : String} (hkey : p key = true)
    (honly : ∀ l ∈ labels, p l.1 = true → l.1 = key) :
    (order.find? fun l => p l.1).map Prod.snd = label? labels key := by
  cases hfind : order.find? fun l => p l.1 with
  | some l =>
    have hp := find?_some hfind
    have hl := hperm.mem_iff.mp (mem_of_find?_eq_some hfind)
    have hlabel : labels.find? (fun l => l.1 = key) = some l :=
      (Table.find?_eq_some_iff (t := ⟨labels, hnodup⟩)).mpr ⟨hl, honly l hl hp⟩
    rw [label?, hlabel]
  | none =>
    have hlabel : labels.find? (fun l => l.1 = key) = none := by
      refine find?_eq_none.mpr fun l hl heq => ?_
      refine find?_eq_none.mp hfind l (hperm.mem_iff.mpr hl) ?_
      rwa [of_decide_eq_true heq]
    rw [label?, hlabel]

lemma rule_eq_none (hno : ∀ l ∈ c.info.labels, isRule l.1 = false) : c.rule = none := by
  rw [Listed.rule, Option.map_eq_none_iff, find?_eq_none]
  intro l hl
  simp [hno l (c.rule_perm.mem_iff.mp hl)]

lemma rule_of_label (hone : OneRouter c) {rule : String}
    (h : label? c.info.labels (ruleKey name) = some rule) : c.rule = some rule := by
  obtain ⟨l, hl, rfl⟩ := map_eq_some_iff.mp h
  have hfound := find?_some hl
  have hname : l.1 = ruleKey name := of_decide_eq_true hfound
  have hrule : isRule l.1 = true := hname ▸ isRule_ruleKey name
  rcases hone with hno | ⟨name', honly, -⟩
  · simp [hno l (mem_of_find?_eq_some hl)] at hrule
  · have heq := honly l (mem_of_find?_eq_some hl) hrule
    rw [← h, ← hname, heq]
    exact find?_eq_label? c.nodup c.rule_perm (isRule_ruleKey name') honly

lemma parse_of_declares (hone : OneRouter c) {port : String} (h : Declares c k port) :
    ∃ e, parseLabelsToRoute c = some e ∧ e.key = k := by
  obtain ⟨-, name, rule, hlabel, hhost, rfl, -⟩ := h
  simp [parseLabelsToRoute, rule_of_label hone hlabel, hhost, RouteEntry.key]

lemma declares_of_parse (hone : OneRouter c) (hactive : c.active = true)
    (h : parseLabelsToRoute c = some e) : Declares c e.key c.port := by
  obtain ⟨hhost, h⟩ := ite_none_left_eq_some.mp h
  cases h
  rcases hone with hno | ⟨name, hrule, hport⟩
  · simp [rule_eq_none hno] at hhost
  cases hr : c.rule with
  | none => simp [hr] at hhost
  | some rule =>
    rw [hr] at hhost
    have hlabel := find?_eq_label? c.nodup c.rule_perm (isRule_ruleKey name) hrule
    have hport := find?_eq_label? c.nodup c.port_perm (isPort_portKey name) hport
    exact ⟨hactive, name, rule, hlabel.symm.trans hr, hhost, by simp [RouteEntry.key],
      congrArg (·.getD "80") hport⟩

/-- The routes of applications are those that the containers declare, with their ports. -/
structure RoutesDeclared (cs : List Listed) (rt : RouteTable) : Prop where
  sound : ∀ k r, rt.toMap k = some r → r.appID ≠ "" →
    ∃ c ∈ cs, ∃ port, Declares c k port ∧ r.appID = c.appID ∧ r.backends = [c.backend port]
  complete : ∀ c ∈ cs, ∀ k port, Declares c k port → ∃ r, rt.toMap k = some r ∧ r.appID ≠ ""

lemma routesDeclared_of_synced (hvalid : ValidTable rt) (hsync : Synced cs rt rt')
    (hone : ∀ c ∈ cs, c.active = true → OneRouter c)
    (hold : ∀ r ∈ rt, r.appID ∈ activeApps cs → ∃ c ∈ cs, ∃ port, Declares c r.key port) :
    RoutesDeclared cs rt' := by
  have hlast {c : Listed} (hc : c ∈ cs) {k : String × String} {port : String}
      (h : Declares c k port) : ∃ r, lastRoute cs k = some r := by
    obtain ⟨e, he, rfl⟩ := parse_of_declares (hone c hc h.1) h
    exact exists_lastRoute hc h.1 he
  refine ⟨fun k r hr happ => ?_, fun c hc k port h => ?_⟩
  · rw [toMap_synced hvalid hsync, filter_eq_some_iff] at hr
    obtain ⟨hr, hactive⟩ := hr
    cases hroute : lastRoute cs k with
    | some r' =>
      rw [hroute] at hr
      cases hr
      obtain ⟨rfl, c, hc, hactive, hparse⟩ := lastRoute_eq_some hroute
      exact ⟨c, hc, c.port, declares_of_parse (hone c hc hactive) hactive hparse,
        appID_of_parse hparse⟩
    | none =>
      rw [hroute, none_or] at hr
      obtain ⟨hmem, rfl⟩ := (toMap_eq_some hvalid.nodup).mp hr
      obtain ⟨c, hc, port, hdecl⟩ := hold r hmem ((of_decide_eq_true hactive).resolve_left happ)
      obtain ⟨r', hr'⟩ := hlast hc hdecl
      rw [hroute] at hr'
      cases hr'
  · obtain ⟨r, hr⟩ := hlast hc h
    exact ⟨r, synced_lastRoute hvalid hsync hr⟩

/-- An application that still runs declares the hosts and paths that it declared before. -/
def Keeps (cs cs' : List Listed) : Prop :=
  ∀ c ∈ cs, c.appID ∈ activeApps cs' → ∀ k port, Declares c k port →
    ∃ c' ∈ cs', ∃ port', Declares c' k port'

/-- Syncs one after the other, from a table without routes of applications: the containers of the last
one, and the table that it leaves. -/
inductive SyncRun : List Listed → RouteTable → Prop
  | start {rt : RouteTable} (hvalid : ValidTable rt) (hnone : ∀ r ∈ rt, r.appID = "") : SyncRun [] rt
  | sync {cs cs' : List Listed} {rt rt' : RouteTable} (hrun : SyncRun cs rt) (hkeeps : Keeps cs cs')
      (hone : ∀ c ∈ cs', c.active = true → OneRouter c) (hsync : Synced cs' rt rt') : SyncRun cs' rt'

lemma validTable_of_synced (hvalid : ValidTable rt) (h : Synced cs rt rt') : ValidTable rt' := by
  obtain ⟨rt1, hupserts, hremovals⟩ := h
  exact (toMap_of_writes (toMap_of_writes hvalid hupserts).1 hremovals).1

/-- **The routes of applications** after any number of syncs are those that the running containers
declare, with their ports: when each container has the labels of one router at most, and no
application that still runs gives up a host or a path. -/
theorem synced_declared {cs : List Listed} {rt : RouteTable} (h : SyncRun cs rt) :
    RoutesDeclared cs rt := by
  suffices h : ValidTable rt ∧ RoutesDeclared cs rt from h.2
  induction h with
  | start hvalid hnone =>
    refine ⟨hvalid, fun k r hr happ => ?_, by simp⟩
    exact absurd (hnone r ((toMap_eq_some hvalid.nodup).mp hr).1) happ
  | @sync cs cs' rt rt' _ hkeeps hone hsync ih =>
    obtain ⟨hvalid, hdeclared⟩ := ih
    refine ⟨validTable_of_synced hvalid hsync, routesDeclared_of_synced hvalid hsync hone ?_⟩
    intro r hr hactive
    have happ : r.appID ≠ "" := by
      intro h0
      obtain ⟨c, hc, hid⟩ := mem_map.mp hactive
      have hrunning := (mem_filter.mp hc).2
      exact (of_decide_eq_true hrunning).2 (hid.trans h0)
    obtain ⟨c, hc, port, hdecl, hid, -⟩ :=
      hdeclared.sound _ r ((toMap_eq_some hvalid.nodup).mpr ⟨hr, rfl⟩) happ
    exact hkeeps c hc (hid ▸ hactive) _ port hdecl

lemma synced_replica : Synced [replica "aaa" "a.com"] [] [replicaRoute "a.com" "aaa:3000"] :=
  synced_of_run [(.upsert (replicaRoute "a.com" "aaa:3000"), [replicaRoute "a.com" "aaa:3000"])]
    (by decide +kernel)

lemma oneRouter_replica (id host : String) : OneRouter (replica id host) := by
  refine .inr ⟨"web-0", ?_, ?_⟩ <;> simp [replica, webContainer] <;> decide +kernel

lemma synced_replaced : Synced [replica "bbb" "a.com"] [replicaRoute "a.com" "aaa:3000"]
    [replicaRoute "a.com" "bbb:3000"] :=
  synced_of_run [(.upsert (replicaRoute "a.com" "bbb:3000"), [replicaRoute "a.com" "bbb:3000"])]
    (by decide +kernel)

/-- The container of an application is replaced between two syncs. -/
theorem synced_declared_replaced : SyncRun [replica "bbb" "a.com"] [replicaRoute "a.com" "bbb:3000"] ∧
    ∃ c ∈ [replica "bbb" "a.com"], ∃ port, Declares c ("a.com", "/") port := by
  have hfirst : SyncRun [replica "aaa" "a.com"] [replicaRoute "a.com" "aaa:3000"] :=
    .sync (.start validTable_nil (by simp)) (by simp [Keeps])
      (forall_mem_singleton.mpr fun _ => oneRouter_replica _ _) synced_replica
  have hkeeps : Keeps [replica "aaa" "a.com"] [replica "bbb" "a.com"] := by
    intro c hc _ k port h
    obtain rfl := mem_singleton.mp hc
    exact ⟨_, mem_singleton_self _, port, h⟩
  have hrun := hfirst.sync hkeeps (forall_mem_singleton.mpr fun _ => oneRouter_replica _ _) synced_replaced
  obtain ⟨c, hc, port, hdecl, -⟩ := (synced_declared hrun).sound ("a.com", "/")
    (replicaRoute "a.com" "bbb:3000") rfl (by decide)
  exact ⟨hrun, c, hc, port, hdecl⟩

def twoDomains : Listed :=
  webContainer "aaa"
    [("monster.http.routers.web-0.rule", "Host(`a.com`)"),
      ("monster.http.services.web-0.loadbalancer.server.port", "3000"),
      ("monster.http.routers.web-1.rule", "Host(`b.com`)"),
      ("monster.http.services.web-1.loadbalancer.server.port", "3000")] (by decide +kernel)

/-- The second domain of the container is not routed; and when the application moves to another
domain, its earlier one is routed still. -/
theorem domains_missed_and_stale : (Declares twoDomains ("b.com", "/") "3000" ∧
      Synced [twoDomains] [] [replicaRoute "a.com" "aaa:3000"] ∧
      RouteTable.toMap [replicaRoute "a.com" "aaa:3000"] ("b.com", "/") = none) ∧
      Synced [replica "aaa" "a.com"] [] [replicaRoute "a.com" "aaa:3000"] ∧
      (∀ l ∈ (replica "bbb" "b.com").info.labels, isRule l.1 = true →
        parseRule l.2 = ("b.com", "")) ∧
      Synced [replica "bbb" "b.com"] [replicaRoute "a.com" "aaa:3000"]
        [replicaRoute "b.com" "bbb:3000", replicaRoute "a.com" "aaa:3000"] := by
  refine ⟨⟨?_, ?_, by decide +kernel⟩, synced_replica, by decide +kernel, ?_⟩
  · exact ⟨by decide +kernel, "web-1", "Host(`b.com`)", by decide +kernel⟩
  · exact synced_of_run
      [(.upsert (replicaRoute "a.com" "aaa:3000"), [replicaRoute "a.com" "aaa:3000"])]
      (by decide +kernel)
  · exact synced_of_run
      [(.upsert (replicaRoute "b.com" "bbb:3000"),
        [replicaRoute "b.com" "bbb:3000", replicaRoute "a.com" "aaa:3000"])]
      (by decide +kernel)

end DeployMonster.Discovery
