import DeployMonster.Topology.Services

/-!
# The URLs of connections

The compiler writes the URLs of all connections of the topology into one map, by the names of their
variables, and every application reads its variables from that map.

## Main results

* `get?_environment`: the environment of an application, by its variables.
* `connected_iff`: when every application has the URLs of its own connections.
-/

namespace DeployMonster.TopologyCompiler

open Failure List Function Compiler Dict LastWrite Option

/-! ## The environment of an application -/

/-- The key to which a value of an environment refers. -/
def reference? (v : String) : Option String :=
  let inCutset (ch : Char) : Bool := ch ∈ ['$', '\x7b', '\x7d']
  if ['$', '\x7b'] <+: v.toList ∧ ['\x7d'] <:+ v.toList then
    some (String.ofList ((v.toList.dropWhile inCutset).reverse.dropWhile inCutset).reverse)
  else none

namespace Compiler

variable {c : Compiler} {connections : Dict String EnvValue} {app : App} {v : String}

lemma resolveEnvVar_eq (connections : Dict String EnvValue) (v : String) :
    resolveEnvVar connections v = ((reference? v).bind connections.get?).getD (.text v) := by
  unfold resolveEnvVar reference?
  split <;> rfl

lemma get?_resolvedEnvVars (connections : Dict String EnvValue) (envVars : Dict String String)
    (v : String) : (setAll .empty (resolvedEnvVars connections envVars)).get? v =
      (envVars.get? v).map (resolveEnvVar connections) := by
  cases hget : envVars.get? v with
  | none =>
    refine get?_setAll_of_ne _ fun e he hkey => ?_
    obtain ⟨⟨k, text⟩, hmem, rfl⟩ := mem_map.mp he
    have hsome := get?_eq_some_iff.mpr hmem
    dsimp only at hkey
    rw [hkey, hget] at hsome
    cases hsome
  | some text =>
    have hkeys : ((resolvedEnvVars connections envVars).map Prod.fst).Nodup := by
      rw [resolvedEnvVars, List.map_map]
      exact envVars.nodup
    refine get?_setAll_of_nodup _ hkeys ?_
    exact mem_map.mpr ⟨(v, text), get?_eq_some_iff.mp hget, rfl⟩

/-- A connection of the application has the name of the variable. -/
def Names (c : Compiler) (app : App) (v : String) : Prop :=
  ∃ conn ∈ c.topology.connections,
    conn.type = .dependency ∧ conn.sourceID = app.id ∧ conn.envVarName ≠ "" ∧ conn.envVarName = v
  deriving Decidable

lemma mem_dependencyURLs {e : String × EnvValue} :
    e ∈ c.dependencyURLs connections app ↔
      c.Names app e.1 ∧ connections.get? e.1 = some e.2 := by
  rw [dependencyURLs, mem_filterMap]
  constructor
  · rintro ⟨conn, hconn, hwrite⟩
    obtain ⟨⟨htype, hsource, hnamed⟩, hwrite⟩ := ite_none_right_eq_some.mp hwrite
    obtain ⟨value, hget, rfl⟩ := map_eq_some_iff.mp hwrite
    exact ⟨⟨conn, hconn, htype, hsource, hnamed, rfl⟩, hget⟩
  · rintro ⟨⟨conn, hconn, htype, hsource, hnamed, hvar⟩, hget⟩
    refine ⟨conn, hconn, ?_⟩
    rw [if_pos ⟨htype, hsource, hnamed⟩, hvar, hget]
    rfl

/-- **What a variable of an application has**: the connections go before the application's own
environment. -/
theorem get?_environment (c : Compiler) (connections : Dict String EnvValue) (app : App)
    (v : String) : (c.generateAppService connections app).environment.get? v =
      (if c.Names app v then connections.get? v else none).or
        ((app.envVars.get? v).map (resolveEnvVar connections)) := by
  show (setAll .empty (_ ++ c.dependencyURLs connections app)).get? v = _
  rw [setAll_append, ← get?_resolvedEnvVars]
  cases hurl : (if c.Names app v then connections.get? v else none) with
  | some value =>
    obtain ⟨hnames, hget⟩ := ite_none_right_eq_some.mp hurl
    refine get?_setAll_of_mem _ (mem_dependencyURLs.mpr ⟨hnames, hget⟩) ?_
    rintro ⟨k, value'⟩ he rfl
    obtain ⟨-, hget'⟩ := mem_dependencyURLs.mp he
    exact some.inj (hget'.symm.trans hget)
  | none =>
    rw [none_or]
    refine get?_setAll_of_ne _ fun e he hkey => ?_
    obtain ⟨hnames, hget⟩ := mem_dependencyURLs.mp he
    rw [hkey] at hnames hget
    rw [if_pos hnames, hget] at hurl
    cases hurl

end Compiler

lemma host_databaseURL (db : Database) (password : String) :
    (databaseURL db password).host = db.name := by
  unfold databaseURL
  cases db.engine <;> rfl

/-- The text is a URL of the database: the one the topology gives, or one with some password. -/
def Database.IsURLText (db : Database) (s : String) : Prop :=
  if db.connURL = "" then ∃ password, s = (databaseURL db password).text else s = db.connURL

/-- The value is a URL of the database. A URL that the compiler has made is compared by its parts. -/
def EnvValue.IsURLOf (db : Database) : EnvValue → Prop
  | .text s => db.IsURLText s
  | .url u => db.connURL = "" ∧ ∃ password, u = databaseURL db password

/-- The URL of the first database is one of the second: it is the same database, or the topology gives
the first a URL that is one of the second. -/
def SameURL (db' db : Database) : Prop :=
  if db'.connURL = "" then db' = db else db.IsURLText db'.connURL

lemma isURLOf_generateDatabaseURL {t : Topology} (hvalid : t.validate = .ok ()) {db db' : Database}
    (hdb : db ∈ t.databases) (hdb' : db' ∈ t.databases) (rand : Entropy) (pos : ℕ) :
    (generateDatabaseURL rand db' pos).1.IsURLOf db ↔ SameURL db' db := by
  unfold generateDatabaseURL SameURL
  by_cases hurl : db'.connURL = ""
  · rw [if_neg (not_not_intro hurl), if_pos hurl]
    constructor
    · rintro ⟨-, password, heq⟩
      have hname : db'.name = db.name := by
        rw [← host_databaseURL db' (db'.choosePassword rand pos).1, heq, host_databaseURL]
      have hnodup : (t.databases.map Database.name).Nodup :=
        (nodup_of_validate hvalid).sublist (sublist_append_left _ _)
      exact inj_on_of_nodup_map hnodup hdb' hdb hname
    · rintro rfl
      exact ⟨hurl, _, rfl⟩
  · rw [if_pos hurl, if_neg hurl]
    exact Iff.rfl

/-! ## The services of applications -/

namespace Compiler

variable {c : Compiler}

lemma mem_of_lastTarget {v : String} {db : Database} (h : c.lastTarget v = some db) :
    db ∈ c.topology.databases := by
  obtain ⟨conn, -, hwritten⟩ := exists_of_lastWrite h
  obtain ⟨htarget, -⟩ := filter_eq_some_iff.mp hwritten
  obtain ⟨-, hfind⟩ := ite_none_right_eq_some.mp htarget
  exact mem_of_find?_eq_some hfind

lemma get?_resolved (hvalid : c.topology.validate = .ok ()) {db : Database}
    (hdb : db ∈ c.topology.databases) (rand : Entropy) (v : String) :
    match c.lastTarget v with
    | none => (c.resolved rand).get? v = none
    | some db' => ∃ value, (c.resolved rand).get? v = some value ∧
        (value.IsURLOf db ↔ SameURL db' db) := by
  cases hlast : c.lastTarget v with
  | none => exact get?_resolveConnections_of_none hlast _ 0
  | some db' =>
    obtain ⟨p, -, hget⟩ := get?_resolveConnections rand hlast .empty 0
    exact ⟨_, hget, isURLOf_generateDatabaseURL hvalid hdb (mem_of_lastTarget hlast) rand p⟩

end Compiler

structure Declares (t : Topology) (app : App) (conn : Connection) (db : Database) : Prop where
  app_mem : app ∈ t.apps
  conn_mem : conn ∈ t.connections
  source : conn.sourceID = app.id
  target : t.target? conn = some db

lemma Declares.db_mem {t : Topology} {app : App} {conn : Connection} {db : Database}
    (h : Declares t app conn db) : db ∈ t.databases := by
  obtain ⟨-, hfind⟩ := ite_none_right_eq_some.mp h.target
  exact mem_of_find?_eq_some hfind

def HoldsURL (compose : ComposeConfig) (app : App) (v : String) (db : Database) : Prop :=
  ∃ svc ∈ compose.serviceOf "app" app.name, ∃ value ∈ svc.environment.get? v, value.IsURLOf db

/-- The own environment of the application gives the variable a URL of the database: the value refers
to a variable of a connection, or it is the text of a URL. -/
def OwnURL (c : Compiler) (app : App) (v : String) (db : Database) : Prop :=
  ∃ text ∈ app.envVars.get? v,
    match (reference? text).bind c.lastTarget with
    | some db' => SameURL db' db
    | none => db.IsURLText text

/-- The topology gives the variable of the application a URL of the database: that of the last
connection written under the variable, when one names it. -/
def Provides (c : Compiler) (app : App) (v : String) (db : Database) : Prop :=
  ¬c.topology.Shadowed app.name ∧
    if c.Names app v then
      match c.lastTarget v with
      | some db' => SameURL db' db
      | none => OwnURL c app v db
    else OwnURL c app v db

section

variable {c : Compiler} {app : App} {db : Database}

lemma isURLOf_own_iff (hvalid : c.topology.validate = .ok ()) (hdb : db ∈ c.topology.databases)
    (rand : Entropy) (app : App) (v : String) :
    (∃ value ∈ (app.envVars.get? v).map (Compiler.resolveEnvVar (c.resolved rand)),
      value.IsURLOf db) ↔ OwnURL c app v db := by
  unfold OwnURL
  cases app.envVars.get? v with
  | none => simp
  | some text =>
    simp only [map_some, mem_some_iff, exists_eq_left', resolveEnvVar_eq]
    cases reference? text with
    | none => exact Iff.rfl
    | some key =>
      simp only [bind_some]
      have hget := get?_resolved hvalid hdb rand key
      cases hlast : c.lastTarget key with
      | none =>
        rw [hlast] at hget
        rw [show (c.resolved rand).get? key = none from hget]
        exact Iff.rfl
      | some db' =>
        rw [hlast] at hget
        obtain ⟨value, hget, hiff⟩ := hget
        rw [hget]
        exact hiff

lemma isURLOf_environment_iff (hvalid : c.topology.validate = .ok ())
    (hdb : db ∈ c.topology.databases) (rand : Entropy) (app : App) (v : String) :
    (∃ value ∈ (c.generateAppService (c.resolved rand) app).environment.get? v,
      value.IsURLOf db) ↔
    if c.Names app v then
      match c.lastTarget v with
      | some db' => SameURL db' db
      | none => OwnURL c app v db
    else OwnURL c app v db := by
  rw [get?_environment]
  have hget := get?_resolved hvalid hdb rand v
  split
  · cases hlast : c.lastTarget v with
    | none =>
      rw [hlast] at hget
      rw [show (c.resolved rand).get? v = none from hget, none_or]
      exact isURLOf_own_iff hvalid hdb rand app v
    | some db' =>
      rw [hlast] at hget
      obtain ⟨value, hget, hiff⟩ := hget
      rw [hget, some_or]
      simpa using hiff
  · rw [none_or]
    exact isURLOf_own_iff hvalid hdb rand app v

/-- **A variable of an application has a URL of a database exactly when** the topology provides it,
whatever is generated. -/
theorem holdsURL_iff (hvalid : c.topology.Valid) (rand : Entropy) :
    ∃ compose, c.compile rand = .ok compose ∧
      ∀ app ∈ c.topology.apps, ∀ db ∈ c.topology.databases, ∀ v,
        HoldsURL compose app v db ↔ Provides c app v db := by
  obtain ⟨compose, entries, hcompile, hservices, hnodup, -⟩ := exists_services hvalid rand
  refine ⟨compose, hcompile, fun app happ db hdb v => ?_⟩
  unfold HoldsURL Provides
  rw [serviceOf_app hservices hnodup happ]
  split
  case isTrue hshadowed =>
    refine iff_of_false ?_ fun h => h.1 hshadowed
    rintro ⟨svc, hsvc, -⟩
    cases hsvc
  case isFalse hclear =>
    rw [← isURLOf_environment_iff hvalid.1 hdb rand app v]
    simp [hclear]

lemma sameURL_self (db : Database) : SameURL db db := by
  unfold SameURL Database.IsURLText
  by_cases hurl : db.connURL = ""
  · rw [if_pos hurl]
  · rw [if_neg hurl, if_neg hurl]

lemma provides_of_lastTarget {v : String} (hclear : ¬c.topology.Shadowed app.name)
    (hnames : c.Names app v) (hlast : c.lastTarget v = some db) : Provides c app v db := by
  refine ⟨hclear, ?_⟩
  rw [if_pos hnames, hlast]
  exact sameURL_self db

end

/-- **Every application has a URL of each database it is connected to exactly when** the topology
provides it in some variable. -/
theorem connected_iff (c : Compiler) (hvalid : c.topology.Valid) :
    (∀ rand, ∃ compose, c.compile rand = .ok compose ∧ ∀ app conn db,
      Declares c.topology app conn db → ∃ v, HoldsURL compose app v db) ↔
    ∀ app conn db, Declares c.topology app conn db → ∃ v, Provides c app v db := by
  constructor
  · intro h app conn db hdecl
    obtain ⟨compose, hcompile, hall⟩ := h fun _ => none
    obtain ⟨compose', hcompile', hiff⟩ := holdsURL_iff hvalid fun _ => none
    cases hcompile.symm.trans hcompile'
    obtain ⟨v, hv⟩ := hall app conn db hdecl
    exact ⟨v, (hiff app hdecl.app_mem db hdecl.db_mem v).mp hv⟩
  · intro h rand
    obtain ⟨compose, hcompile, hiff⟩ := holdsURL_iff hvalid rand
    refine ⟨compose, hcompile, fun app conn db hdecl => ?_⟩
    obtain ⟨v, hv⟩ := h app conn db hdecl
    exact ⟨v, (hiff app hdecl.app_mem db hdecl.db_mem v).mpr hv⟩

section

def api : App := { id := "a2", name := "api", port := 4000 }

def stock : Database :=
  { id := "d2", name := "stock", engine := .postgres, password := "5tock" }

def apiStock (v : String) : Connection :=
  { id := "c2", type := .dependency, sourceID := "a2", targetID := "d2", envVarName := v }

/-- Two applications, each with a database of its own, and the name of the second variable. -/
def mall (v : String) : Compiler where
  topology :=
    { apps := [web, api]
      databases := [orders "s3cret", stock]
      connections := [webOrders, apiStock v] }
  project := "mall"
  env := "prod"
  toUpper := id

lemma valid_mall (v : String) : (mall v).topology.Valid := by
  exact ⟨rfl, forall_mem_cons.mpr ⟨fun _ => rfl, forall_mem_singleton.mpr fun _ => rfl⟩⟩

theorem connected_iff_mall : (mall "STOCK_URL").topology.Valid ∧
    ∀ rand, ∃ compose, (mall "STOCK_URL").compile rand = .ok compose ∧ ∀ app conn db,
      Declares (mall "STOCK_URL").topology app conn db → ∃ v, HoldsURL compose app v db := by
  refine ⟨valid_mall _, (connected_iff _ (valid_mall _)).mpr ?_⟩
  rintro app conn db ⟨happ, hconn, hsource, htarget⟩
  rcases mem_cons.mp hconn with rfl | hconn
  · cases htarget
    rcases mem_cons.mp happ with rfl | happ
    · exact ⟨"DATABASE_URL", provides_of_lastTarget (by decide) (by decide) rfl⟩
    · obtain rfl := mem_singleton.mp happ
      exact absurd hsource (by decide)
  · obtain rfl := mem_singleton.mp hconn
    cases htarget
    rcases mem_cons.mp happ with rfl | happ
    · exact absurd hsource (by decide)
    · obtain rfl := mem_singleton.mp happ
      exact ⟨"STOCK_URL", provides_of_lastTarget (by decide) (by decide) rfl⟩

/-- The applications name the same variable: the first has the URL of the database of the second, and
no URL of its own. -/
theorem mall_disconnected : (mall "DATABASE_URL").topology.Valid ∧
    Declares (mall "DATABASE_URL").topology web webOrders (orders "s3cret") ∧
    ∃ rand compose svc, (mall "DATABASE_URL").compile rand = .ok compose ∧
      compose.serviceOf "app" "web" = some svc ∧
      svc.environment.rows = [("DATABASE_URL",
        .url ⟨"postgresql", some ("root", "5tock"), "stock", 5432, "stock"⟩)] ∧
      ∀ v, ¬HoldsURL compose web v (orders "s3cret") := by
  refine ⟨valid_mall _, ⟨by simp [mall], by simp [mall], rfl, rfl⟩, fun _ => none, _, _, rfl, rfl, rfl,
    ?_⟩
  rintro v ⟨svc, hsvc, value, hvalue, hurl⟩
  cases hsvc
  have hrow := mem_singleton.mp (get?_eq_some_iff.mp hvalue)
  cases hrow
  obtain ⟨-, password, heq⟩ := hurl
  have hhost : "stock" = (databaseURL (orders "s3cret") password).host :=
    congrArg ConnectionURL.host heq
  rw [host_databaseURL] at hhost
  exact absurd hhost (by decide)

end

end DeployMonster.TopologyCompiler
