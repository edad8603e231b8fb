import DeployMonster.Library.Failure
import DeployMonster.Topology.Compiler

/-!
# The passwords of databases

An application reaches a database through the URL in its environment, and the database is configured
with a password by its own service. The compiler chooses the password for each of the two.
-/

namespace DeployMonster.TopologyCompiler

open Failure LastWrite List Option Compiler Dict

variable {rand rand' : Entropy} {db : Database} {pos : ℕ}

lemma choosePassword_of_given (h : db.password ≠ "") :
    db.choosePassword rand pos = (db.password, pos) := if_neg h

lemma choosePassword_of_empty (h : db.password = "") :
    db.choosePassword rand pos = generatePassword rand pos := if_pos h

lemma snd_choosePassword (rand rand' : Entropy) (db : Database) (pos : ℕ) :
    (db.choosePassword rand pos).2 = (db.choosePassword rand' pos).2 := by
  by_cases h : db.password = ""
  · rw [choosePassword_of_empty h, choosePassword_of_empty h]
    rfl
  · rw [choosePassword_of_given h, choosePassword_of_given h]

lemma le_snd_choosePassword : pos ≤ (db.choosePassword rand pos).2 := by
  by_cases h : db.password = ""
  · rw [choosePassword_of_empty h]
    exact Nat.le_add_right pos 12
  · rw [choosePassword_of_given h]

lemma choosePassword_ne_empty : (db.choosePassword rand pos).1 ≠ "" := by
  by_cases h : db.password = ""
  · rw [choosePassword_of_empty h]
    intro hempty
    have hlist := congrArg String.toList hempty
    rw [generatePassword, String.toList_append] at hlist
    exact absurd (append_eq_nil_iff.mp hlist).1 (by decide)
  · rwa [choosePassword_of_given h]

lemma snd_generateDatabaseURL (rand rand' : Entropy) (db : Database) (pos : ℕ) :
    (generateDatabaseURL rand db pos).2 = (generateDatabaseURL rand' db pos).2 := by
  unfold generateDatabaseURL
  split
  · rfl
  · exact snd_choosePassword rand rand' db pos

lemma le_snd_generateDatabaseURL : pos ≤ (generateDatabaseURL rand db pos).2 := by
  unfold generateDatabaseURL
  split
  · exact le_rfl
  · exact le_snd_choosePassword

/-! ## The connections -/

namespace Compiler

variable {c : Compiler}

def written (c : Compiler) (v : String) (conn : Connection) : Option Database :=
  (c.topology.target? conn).filter fun db => c.envVar conn db = v

def lastTarget (c : Compiler) (v : String) : Option Database :=
  lastWrite (c.written v) c.topology.connections

lemma snd_resolveConnections (rand rand' : Entropy) (conns : List Connection)
    (d d' : Dict String EnvValue) (pos : ℕ) :
    (c.resolveConnections rand conns d pos).2 = (c.resolveConnections rand' conns d' pos).2 := by
  induction conns generalizing d d' pos with
  | nil => rfl
  | cons conn conns ih =>
    unfold resolveConnections
    split
    · exact ih d d' pos
    case h_2 db hdb =>
      dsimp only
      rw [snd_generateDatabaseURL rand rand' db pos]
      exact ih _ _ _

lemma le_snd_resolveConnections (conns : List Connection) (d : Dict String EnvValue) (pos : ℕ) :
    pos ≤ (c.resolveConnections rand conns d pos).2 := by
  induction conns generalizing d pos with
  | nil => exact le_rfl
  | cons conn conns ih =>
    unfold resolveConnections
    split
    · exact ih d pos
    · exact le_snd_generateDatabaseURL.trans (ih _ _)

variable {conns : List Connection}

lemma get?_resolveConnections_of_none {v : String}
    (h : lastWrite (c.written v) conns = none) (d : Dict String EnvValue) (pos : ℕ) :
    (c.resolveConnections rand conns d pos).1.get? v = d.get? v := by
  induction conns generalizing d pos with
  | nil => rfl
  | cons conn conns ih =>
    rw [lastWrite_cons] at h
    obtain ⟨hrest, hconn⟩ := or_eq_none_iff.mp h
    unfold resolveConnections
    split
    · exact ih hrest d pos
    case h_2 db hdb =>
      have hne : c.envVar conn db ≠ v := by
        intro heq
        rw [written, hdb, filter_some, if_pos (decide_eq_true heq)] at hconn
        cases hconn
      rw [ih hrest, get?_set, if_neg hne]

/-- **A variable has the URL of the last connection that is written under it**, with a password from
what the pass has read. -/
theorem get?_resolveConnections (rand : Entropy) {v : String}
    (h : lastWrite (c.written v) conns = some db) (d : Dict String EnvValue) (pos : ℕ) :
    ∃ p, (generateDatabaseURL rand db p).2 ≤ (c.resolveConnections rand conns d pos).2 ∧
      (c.resolveConnections rand conns d pos).1.get? v = some (generateDatabaseURL rand db p).1 := by
  induction conns generalizing d pos with
  | nil => cases h
  | cons conn conns ih =>
    rw [lastWrite_cons] at h
    unfold resolveConnections
    split
    case h_1 hnone =>
      have hconn : c.written v conn = none := by rw [written, hnone, filter_none]
      rw [hconn, or_none] at h
      exact ih h d pos
    case h_2 target htarget =>
      cases hrest : lastWrite (c.written v) conns with
      | some last =>
        rw [hrest, some_or] at h
        cases h
        exact ih hrest _ _
      | none =>
        rw [hrest, none_or, written, htarget] at h
        obtain ⟨hsome, hvar⟩ := filter_eq_some_iff.mp h
        cases hsome
        refine ⟨pos, le_snd_resolveConnections _ _ _, ?_⟩
        rw [get?_resolveConnections_of_none hrest, get?_set, if_pos (of_decide_eq_true hvar)]

end Compiler

lemma checkNames_eq_ok {kind : String} {names rest names' : List String}
    (h : checkNames kind names rest = .ok names') (hnodup : names.Nodup) :
    names' = rest.reverse ++ names ∧ names'.Nodup := by
  induction rest generalizing names with
  | nil =>
    cases h
    exact ⟨rfl, hnodup⟩
  | cons name rest ih =>
    unfold checkNames at h
    split at h
    · cases h
    case isFalse hnew =>
      obtain ⟨hnames', hnodup'⟩ := ih h (nodup_cons.mpr ⟨hnew, hnodup⟩)
      refine ⟨?_, hnodup'⟩
      rw [hnames', reverse_cons, append_assoc]
      rfl

lemma nodup_of_validate {t : Topology} (h : t.validate = .ok ()) :
    (t.databases.map Database.name ++ t.apps.map App.name).Nodup := by
  obtain ⟨names1, h1, h⟩ := bind_eq_ok.mp h
  obtain ⟨names2, h2, -⟩ := bind_eq_ok.mp h
  obtain ⟨hnames1, hnodup1⟩ := checkNames_eq_ok h1 nodup_nil
  obtain ⟨rfl, hnodup2⟩ := checkNames_eq_ok h2 hnodup1
  rw [hnames1, append_nil, nodup_append'] at hnodup2
  rw [nodup_append']
  simpa using hnodup2

/-! ## The services -/

def Service.kind (svc : Service) : Option String := svc.labels.get? "monster.type"

namespace Topology

def Valid (t : Topology) : Prop :=
  t.validate = .ok () ∧
    ∀ db ∈ t.databases, ¬(db.managed ∨ db.external) → db.engine.supported = true

/-- Another service takes the place of the one with this name. -/
def Shadowed (t : Topology) (name : String) : Prop :=
  (∃ worker ∈ t.workers, worker.name = name) ∨ (t.domains ≠ [] ∧ name = "proxy")
  deriving Decidable

end Topology

variable {connections : Dict String EnvValue}

namespace Compiler

variable {c : Compiler}

lemma exists_getDatabaseImage (h : db.engine.supported = true) :
    ∃ image, getDatabaseImage db = .ok image := by
  unfold getDatabaseImage
  cases hengine : db.engine with
  | other name =>
    rw [hengine] at h
    cases h
  | _ => exact ⟨_, rfl⟩

lemma exists_databaseServices (c : Compiler) (rand : Entropy) (dbs : List Database) (pos : ℕ)
    (h : ∀ db ∈ dbs, ¬(db.managed ∨ db.external) → db.engine.supported = true) :
    ∃ entries, c.databaseServices rand dbs pos = .ok entries ∧
      (entries.map Prod.fst).Sublist (dbs.map Database.name) ∧
      ∀ db ∈ dbs, ¬(db.managed ∨ db.external) → ∃ image p, pos ≤ p ∧
        (db.name, c.databaseService db image (db.choosePassword rand p).1) ∈ entries := by
  induction dbs generalizing pos with
  | nil => exact ⟨[], rfl, List.Sublist.slnil, fun _ hdb => absurd hdb not_mem_nil⟩
  | cons db dbs ih =>
    obtain ⟨hdb, hdbs⟩ := forall_mem_cons.mp h
    unfold databaseServices
    split
    case isTrue hskip =>
      obtain ⟨entries, hentries, hsub, hmem⟩ := ih pos hdbs
      refine ⟨entries, hentries, hsub.cons _, ?_⟩
      exact forall_mem_cons.mpr ⟨fun hself => absurd hskip hself, hmem⟩
    case isFalse hself =>
      obtain ⟨image, himage⟩ := exists_getDatabaseImage (hdb hself)
      obtain ⟨entries, hentries, hsub, hmem⟩ := ih (db.choosePassword rand pos).2 hdbs
      have hservice : c.generateDatabaseService rand db pos =
          .ok (c.databaseService db image (db.choosePassword rand pos).1,
            (db.choosePassword rand pos).2) := by
        rw [generateDatabaseService, himage]
        rfl
      rw [hservice]
      dsimp only
      rw [hentries]
      refine ⟨(db.name, _) :: entries, rfl, hsub.cons_cons db.name, ?_⟩
      refine forall_mem_cons.mpr ⟨fun _ => ⟨image, pos, le_rfl, mem_cons_self⟩, ?_⟩
      intro other hother hself'
      obtain ⟨image', p, hp, hmem'⟩ := hmem other hother hself'
      exact ⟨image', p, le_snd_choosePassword.trans hp, mem_cons_of_mem _ hmem'⟩

def laterServices (c : Compiler) (connections : Dict String EnvValue) : List (String × Service) :=
  c.workerServices connections ++ c.proxyServices

lemma mem_keys_laterServices {name : String} :
    name ∈ (c.laterServices connections).map Prod.fst ↔ c.topology.Shadowed name := by
  unfold laterServices workerServices proxyServices Topology.Shadowed
  rw [map_append, mem_append, List.map_map]
  refine or_congr mem_map ?_
  split
  case isTrue hnil => exact iff_of_false not_mem_nil fun h => h.1 hnil
  case isFalse hdomains => exact mem_singleton.trans (and_iff_right hdomains).symm

lemma kind_of_mem_laterServices {e : String × Service} (h : e ∈ c.laterServices connections) :
    e.2.kind = some "worker" ∨ e.2.kind = some "proxy" := by
  rcases mem_append.mp h with h | h
  · obtain ⟨worker, -, rfl⟩ := mem_map.mp h
    exact .inl rfl
  unfold proxyServices at h
  split at h
  · cases h
  · obtain rfl := mem_singleton.mp h
    exact .inr rfl

end Compiler

variable (compose : ComposeConfig)

def ComposeConfig.serviceOf (kind name : String) : Option Service :=
  (compose.services.get? name).filter (·.kind = some kind)

namespace Compiler

variable {c : Compiler}

lemma serviceOf_eq {compose : ComposeConfig} {early : List (String × Service)}
    {kind name : String} {svc : Service}
    (hservices : compose.services = setAll .empty (early ++ c.laterServices connections))
    (hnodup : (early.map Prod.fst).Nodup) (hmem : (name, svc) ∈ early)
    (hkind : svc.kind = some kind) (hworker : kind ≠ "worker") (hproxy : kind ≠ "proxy") :
    compose.serviceOf kind name = if c.topology.Shadowed name then none else some svc := by
  rw [ComposeConfig.serviceOf, hservices, setAll_append]
  split
  case isTrue hshadowed =>
    obtain ⟨e, he, -, hget⟩ := exists_get?_setAll (setAll .empty early)
      (mem_keys_laterServices.mpr hshadowed)
    have hne : e.2.kind ≠ some kind := by
      rcases kind_of_mem_laterServices he with hk | hk
      · rw [hk]
        exact fun heq => hworker (some.inj heq).symm
      · rw [hk]
        exact fun heq => hproxy (some.inj heq).symm
    rw [hget, filter_some, if_neg (by simpa using hne)]
  case isFalse hclear =>
    rw [get?_setAll_of_ne, get?_setAll_of_nodup _ hnodup hmem, filter_some,
      if_pos (decide_eq_true hkind)]
    intro e he hkey
    have hkeys := mem_map_of_mem (f := Prod.fst) he
    rw [hkey] at hkeys
    exact hclear (mem_keys_laterServices.mp hkeys)

lemma get?_environment_app {app : App} {conn : Connection} {value : EnvValue}
    (hconn : conn ∈ c.topology.connections) (htype : conn.type = .dependency)
    (hsource : conn.sourceID = app.id) (hnamed : conn.envVarName ≠ "")
    (hget : connections.get? conn.envVarName = some value) :
    (c.generateAppService connections app).environment.get? conn.envVarName = some value := by
  show (setAll .empty (_ ++ c.dependencyURLs connections app)).get? _ = _
  rw [setAll_append]
  refine get?_setAll_of_mem _ (mem_filterMap.mpr ⟨conn, hconn, ?_⟩) ?_
  · rw [if_pos ⟨htype, hsource, hnamed⟩, hget]
    rfl
  intro e he hkey
  obtain ⟨other, -, hother⟩ := mem_filterMap.mp he
  obtain ⟨-, hother⟩ := ite_none_right_eq_some.mp hother
  obtain ⟨value', hget', rfl⟩ := map_eq_some_iff.mp hother
  dsimp only at hkey
  rw [hkey, hget] at hget'
  exact (some.inj hget').symm

end Compiler

/-! ## The two passwords -/

/-- The variable with the password of the user whose name the URL has. -/
def passwordVar (db : Database) : String :=
  match db.engine with
  | .postgres => "POSTGRES_PASSWORD"
  | .mysql => if db.chooseUsername = "root" then "MYSQL_ROOT_PASSWORD" else "MYSQL_PASSWORD"
  | .mariadb => if db.chooseUsername = "root" then "MARIADB_ROOT_PASSWORD" else "MARIADB_PASSWORD"
  | .mongodb => "MONGO_INITDB_ROOT_PASSWORD"
  | .redis => "REDIS_PASSWORD"
  | .other _ => ""

def configuredPassword? (db : Database) : Option String :=
  (compose.serviceOf "database" db.name).bind fun svc =>
    (svc.environment.get? (passwordVar db)).map EnvValue.render

def urlPassword? (app : App) (v : String) : Option String :=
  (compose.serviceOf "app" app.name).bind fun svc =>
    (svc.environment.get? v).bind EnvValue.password?

lemma get?_environment_database {c : Compiler} {image password : String}
    (hengine : db.engine.supported = true) (hextra : db.extraConfig.rows = [])
    (hpassword : password ≠ "") :
    (c.databaseService db image password).environment.get? (passwordVar db) =
      some (.text password) := by
  show (setAll .empty (engineEnvironment db password ++ db.extraConfig.rows.map _)).get? _ = _
  rw [hextra, map_nil, append_nil]
  unfold passwordVar engineEnvironment
  cases hcase : db.engine with
  | other name =>
    rw [hcase] at hengine
    cases hengine
  | postgres | mongodb => exact get?_setAll_of_mem _ (by simp) (by simp)
  | redis => exact get?_setAll_of_mem _ (by simp [hpassword]) (by simp [hpassword])
  | mysql | mariadb =>
    by_cases hroot : db.chooseUsername = "root"
    · exact get?_setAll_of_mem _ (by simp [hroot]) (by simp [hroot])
    · exact get?_setAll_of_mem _ (by simp [hroot]) (by simp [hroot])

lemma password?_databaseURL (db : Database) {password : String} (hpassword : password ≠ "") :
    (databaseURL db password).password? =
      if db.engine.supported then some password else none := by
  unfold databaseURL
  cases hcase : db.engine with
  | redis => simp [ConnectionURL.password?, DatabaseEngine.supported, hpassword]
  | _ => rfl

lemma password?_generateDatabaseURL (rand : Entropy) (db : Database) (pos : ℕ) :
    (generateDatabaseURL rand db pos).1.password? =
      if db.connURL = "" ∧ db.engine.supported then some (db.choosePassword rand pos).1 else none := by
  unfold generateDatabaseURL
  by_cases hurl : db.connURL = ""
  · rw [if_neg (not_not_intro hurl)]
    simp [EnvValue.password?, password?_databaseURL db choosePassword_ne_empty, hurl]
  · rw [if_pos hurl, if_neg fun h => hurl h.1]
    rfl

/-- The application depends on the database, which runs in the compose file and has neither a URL nor
an extra configuration of its own, and the connection names the variable. -/
structure Depends (t : Topology) (app : App) (conn : Connection) (db : Database) : Prop where
  app_mem : app ∈ t.apps
  conn_mem : conn ∈ t.connections
  db_mem : db ∈ t.databases
  dependency : conn.type = .dependency
  source : conn.sourceID = app.id
  target : conn.targetID = db.id
  named : conn.envVarName ≠ ""
  selfHosted : ¬(db.managed ∨ db.external)
  noURL : db.connURL = ""
  noExtra : db.extraConfig.rows = []

/-- The URL in the environment of the application has the password of the service. -/
def SamePassword (app : App) (conn : Connection) (db : Database) : Prop :=
  (configuredPassword? compose db).isSome ∧
    urlPassword? compose app conn.envVarName = configuredPassword? compose db
  deriving Decidable

namespace Compiler

variable {c : Compiler} {app : App} {conn : Connection} {db' : Database}

def reads (c : Compiler) : ℕ :=
  (c.resolveConnections (fun _ => none) c.topology.connections .empty 0).2

lemma exists_lastTarget (h : Depends c.topology app conn db) :
    ∃ db', c.lastTarget conn.envVarName = some db' := by
  refine ne_none_iff_exists'.mp fun hnone => ?_
  have hwritten := filterMap_eq_nil_iff.mp (getLast?_eq_none_iff.mp hnone) conn h.conn_mem
  cases hfind : c.topology.databases.find? (·.id = conn.targetID) with
  | none =>
    have hdb := find?_eq_none.mp hfind db h.db_mem
    exact hdb (decide_eq_true h.target.symm)
  | some target =>
    have htarget : c.topology.target? conn = some target := by
      rw [Topology.target?, if_pos h.dependency, hfind]
    have hvar : c.envVar conn target = conn.envVarName := if_neg h.named
    rw [written, htarget, filter_some, if_pos (decide_eq_true hvar)] at hwritten
    cases hwritten

def resolved (c : Compiler) (rand : Entropy) : Dict String EnvValue :=
  (c.resolveConnections rand c.topology.connections .empty 0).1

lemma snd_resolveConnections_eq_reads (c : Compiler) (rand : Entropy) :
    (c.resolveConnections rand c.topology.connections .empty 0).2 = c.reads :=
  snd_resolveConnections rand _ _ _ .empty 0

/-- What the compiler makes of a topology: the validation is passed, the databases have services, and
the others are put behind them. -/
lemma compile_eq_ok_iff {compose : ComposeConfig} :
    c.compile rand = .ok compose ↔ c.topology.validate = .ok () ∧ ∃ entries,
      c.databaseServices rand c.topology.databases c.reads = .ok entries ∧
      compose =
        { services := setAll .empty (entries ++ c.appServices (c.resolved rand) ++
            c.laterServices (c.resolved rand))
          volumes := setAll .empty c.composeVolumes } := by
  unfold compile
  cases hvalid : c.topology.validate with
  | error e => exact iff_of_false nofun fun h => nomatch h.1
  | ok _ =>
    rw [← c.snd_resolveConnections_eq_reads rand]
    dsimp only
    rw [generateCompose]
    cases c.databaseServices rand c.topology.databases
        (c.resolveConnections rand c.topology.connections .empty 0).2 with
    | error e =>
      refine iff_of_false nofun ?_
      rintro ⟨-, entries, hentries, -⟩
      cases hentries
    | ok entries =>
      constructor
      · intro h
        refine ⟨rfl, entries, rfl, ?_⟩
        rw [laterServices, ← append_assoc]
        exact (Except.ok.inj h).symm
      · rintro ⟨-, _, hentries, rfl⟩
        cases hentries
        rw [laterServices, ← append_assoc]
        rfl

lemma exists_services (hvalid : c.topology.Valid) (rand : Entropy) :
    ∃ compose entries, c.compile rand = .ok compose ∧
      compose.services = setAll .empty (entries ++ c.appServices (c.resolved rand) ++
        c.laterServices (c.resolved rand)) ∧
      ((entries ++ c.appServices (c.resolved rand)).map Prod.fst).Nodup ∧
      ∀ db ∈ c.topology.databases, ¬(db.managed ∨ db.external) → ∃ image q, c.reads ≤ q ∧
        (db.name, c.databaseService db image (db.choosePassword rand q).1) ∈ entries := by
  obtain ⟨entries, hentries, hsub, hmem⟩ :=
    c.exists_databaseServices rand c.topology.databases c.reads hvalid.2
  refine ⟨_, entries, compile_eq_ok_iff.mpr ⟨hvalid.1, entries, hentries, rfl⟩, rfl, ?_, hmem⟩
  rw [map_append]
  refine (nodup_of_validate hvalid.1).sublist (hsub.append ?_)
  rw [appServices, List.map_map]
  exact List.Sublist.refl _

lemma serviceOf_app {compose : ComposeConfig} {entries : List (String × Service)}
    (hservices : compose.services = setAll .empty (entries ++ c.appServices (c.resolved rand) ++
      c.laterServices (c.resolved rand)))
    (hnodup : ((entries ++ c.appServices (c.resolved rand)).map Prod.fst).Nodup)
    (happ : app ∈ c.topology.apps) :
    compose.serviceOf "app" app.name =
      if c.topology.Shadowed app.name then none
      else some (c.generateAppService (c.resolved rand) app) :=
  serviceOf_eq hservices hnodup (mem_append_right _ (mem_map_of_mem happ)) rfl (by decide)
    (by decide)

/-- **What the compiler makes of a valid topology**: the URL has a password that is chosen while the
connections are resolved, and the service one that is chosen after that. -/
theorem exists_compile (hvalid : c.topology.Valid) (h : Depends c.topology app conn db)
    (hlast : c.lastTarget conn.envVarName = some db') (rand : Entropy) :
    ∃ compose p q, c.compile rand = .ok compose ∧
      (generateDatabaseURL rand db' p).2 ≤ c.reads ∧ c.reads ≤ q ∧
      urlPassword? compose app conn.envVarName =
        (if c.topology.Shadowed app.name then none
          else (generateDatabaseURL rand db' p).1.password?) ∧
      configuredPassword? compose db =
        if c.topology.Shadowed db.name then none else some (db.choosePassword rand q).1 := by
  obtain ⟨p, hp, hget⟩ : ∃ p, _ ∧ (c.resolved rand).get? conn.envVarName = _ :=
    get?_resolveConnections rand hlast .empty 0
  obtain ⟨compose, entries, hcompile, hservices, hnodup, hmem⟩ := exists_services hvalid rand
  obtain ⟨image, q, hq, hservice⟩ := hmem db h.db_mem h.selfHosted
  rw [snd_resolveConnections_eq_reads] at hp
  refine ⟨compose, p, q, hcompile, hp, hq, ?_, ?_⟩
  · rw [urlPassword?, serviceOf_app hservices hnodup h.app_mem]
    split
    · rfl
    · rw [bind_some, get?_environment_app h.conn_mem h.dependency h.source h.named hget]
      rfl
  rw [configuredPassword?, serviceOf_eq hservices hnodup (mem_append_left _ hservice) rfl
    (by decide) (by decide)]
  split
  · rfl
  · rw [bind_some, get?_environment_database (hvalid.2 db h.db_mem h.selfHosted) h.noExtra
      choosePassword_ne_empty]
    rfl

end Compiler

def uniformPassword (k : Fin 36) : String := "pwd_" ++ String.ofList (replicate 12 (char k))

lemma generatePassword_eq {k : Fin 36}
    (h : ∀ i < 12, rand (pos + i) = some k) : (generatePassword rand pos).1 = uniformPassword k := by
  have hchars : (range 12).map (fun i => char ((rand (pos + i)).getD (Fin.ofNat 36 i))) =
      replicate 12 (char k) := by
    refine eq_replicate_iff.mpr ⟨rfl, forall_mem_map.mpr fun i hi => ?_⟩
    rw [h i (mem_range.mp hi), getD_some]
  rw [generatePassword, randomString, hchars, uniformPassword]

def switchAt (pos : ℕ) (before after : Fin 36) : Entropy :=
  fun i => some (if i < pos then before else after)

variable {p : ℕ} {before after : Fin 36}

lemma choosePassword_before (hempty : db.password = "")
    (h : (db.choosePassword (switchAt pos before after) p).2 ≤ pos) :
    (db.choosePassword (switchAt pos before after) p).1 = uniformPassword before := by
  rw [choosePassword_of_empty hempty] at h ⊢
  refine generatePassword_eq fun i hi => ?_
  have hend : p + 12 ≤ pos := h
  rw [switchAt, if_pos (by omega)]

lemma choosePassword_after (hempty : db.password = "") (h : pos ≤ p) :
    (db.choosePassword (switchAt pos before after) p).1 = uniformPassword after := by
  rw [choosePassword_of_empty hempty]
  refine generatePassword_eq fun i hi => ?_
  rw [switchAt, if_neg (by omega)]

/-! ## When the passwords are the same -/

/-- The topology gives the database a password, and the same to the database whose URL the
application gets. No other service takes the place of one of the two. -/
def Agrees (c : Compiler) (app : App) (conn : Connection) (db : Database) : Prop :=
  ¬c.topology.Shadowed app.name ∧ ¬c.topology.Shadowed db.name ∧ db.password ≠ "" ∧
    ∃ db' ∈ c.lastTarget conn.envVarName,
      db'.connURL = "" ∧ db'.engine.supported = true ∧ db'.password = db.password

variable {c : Compiler} {app : App} {conn : Connection} {db' : Database}

/-- The passwords of a run are the same when both services are there and the same password was chosen
twice. -/
lemma exists_samePassword_iff (hvalid : c.topology.Valid) (h : Depends c.topology app conn db)
    (hlast : c.lastTarget conn.envVarName = some db') (rand : Entropy) :
    ∃ p q, (generateDatabaseURL rand db' p).2 ≤ c.reads ∧ c.reads ≤ q ∧
      ((∃ compose, c.compile rand = .ok compose ∧ SamePassword compose app conn db) ↔
        ¬c.topology.Shadowed app.name ∧ ¬c.topology.Shadowed db.name ∧ db'.connURL = "" ∧
          db'.engine.supported = true ∧
          (db'.choosePassword rand p).1 = (db.choosePassword rand q).1) := by
  obtain ⟨compose, p, q, hcompile, hp, hq, hurl, hconfigured⟩ :=
    exists_compile hvalid h hlast rand
  refine ⟨p, q, hp, hq, ?_⟩
  have hsame : (∃ compose, c.compile rand = .ok compose ∧ SamePassword compose app conn db) ↔
      SamePassword compose app conn db := by
    constructor
    · rintro ⟨compose', hcompile', hsame⟩
      cases hcompile.symm.trans hcompile'
      exact hsame
    · exact fun hsame => ⟨compose, hcompile, hsame⟩
  rw [hsame, SamePassword, hurl, hconfigured, password?_generateDatabaseURL]
  by_cases hdb : c.topology.Shadowed db.name
  · simp [hdb]
  by_cases happ : c.topology.Shadowed app.name
  · simp [happ, hdb]
  · rw [if_neg happ, if_neg hdb]
    simp [happ, hdb, and_assoc]

/-- Two passwords that are the same whatever is read are given. -/
lemma given_of_forall_eq (hurl : db'.connURL = "")
    (hsame : ∀ rand, ∃ p q, (generateDatabaseURL rand db' p).2 ≤ c.reads ∧ c.reads ≤ q ∧
      (db'.choosePassword rand p).1 = (db.choosePassword rand q).1) :
    db.password ≠ "" ∧ db'.password = db.password := by
  have hswitch : ∀ before after, ∃ p q,
      (db'.choosePassword (switchAt c.reads before after) p).2 ≤ c.reads ∧ c.reads ≤ q ∧
        (db'.choosePassword (switchAt c.reads before after) p).1 =
          (db.choosePassword (switchAt c.reads before after) q).1 := by
    intro before after
    obtain ⟨p, q, hp, hq, heq⟩ := hsame (switchAt c.reads before after)
    rw [generateDatabaseURL, if_neg (not_not_intro hurl)] at hp
    exact ⟨p, q, hp, hq, heq⟩
  have hgiven : db.password ≠ "" := by
    intro hempty
    obtain ⟨p1, q1, hp1, hq1, heq1⟩ := hswitch 0 1
    obtain ⟨p2, q2, hp2, hq2, heq2⟩ := hswitch 0 2
    rw [choosePassword_after hempty hq1] at heq1
    rw [choosePassword_after hempty hq2] at heq2
    by_cases hempty' : db'.password = ""
    · rw [choosePassword_before hempty' hp1] at heq1
      exact absurd heq1 (by decide)
    · rw [choosePassword_of_given hempty'] at heq1 heq2
      exact absurd (heq1.symm.trans heq2) (by decide)
  refine ⟨hgiven, ?_⟩
  obtain ⟨p0, q0, hp0, -, heq0⟩ := hswitch 0 0
  obtain ⟨p1, q1, hp1, -, heq1⟩ := hswitch 1 0
  rw [choosePassword_of_given hgiven] at heq0 heq1
  by_cases hempty' : db'.password = ""
  · rw [choosePassword_before hempty' hp0] at heq0
    rw [choosePassword_before hempty' hp1] at heq1
    exact absurd (heq0.trans heq1.symm) (by decide)
  · rwa [choosePassword_of_given hempty'] at heq0

/-- **An application has the password of its database, whatever is generated, exactly when** the
topology gives one, and gives it also to the database whose URL the application gets. -/
theorem same_password_iff (c : Compiler) (app : App) (conn : Connection) (db : Database)
    (hvalid : c.topology.Valid) (h : Depends c.topology app conn db) :
    (∀ rand, ∃ compose, c.compile rand = .ok compose ∧ SamePassword compose app conn db) ↔
      Agrees c app conn db := by
  obtain ⟨db', hlast⟩ := exists_lastTarget h
  constructor
  · intro hall
    have hsame : ∀ rand, ∃ p q, (generateDatabaseURL rand db' p).2 ≤ c.reads ∧ c.reads ≤ q ∧
        ¬c.topology.Shadowed app.name ∧ ¬c.topology.Shadowed db.name ∧ db'.connURL = "" ∧
          db'.engine.supported = true ∧
          (db'.choosePassword rand p).1 = (db.choosePassword rand q).1 := by
      intro rand
      obtain ⟨p, q, hp, hq, hiff⟩ := exists_samePassword_iff hvalid h hlast rand
      exact ⟨p, q, hp, hq, hiff.mp (hall rand)⟩
    obtain ⟨-, -, -, -, happ, hdb, hurl, hengine, -⟩ := hsame fun _ => none
    obtain ⟨hgiven, hpassword⟩ : db.password ≠ "" ∧ db'.password = db.password := by
      refine given_of_forall_eq (c := c) hurl fun rand => ?_
      obtain ⟨p, q, hp, hq, -, -, -, -, heq⟩ := hsame rand
      exact ⟨p, q, hp, hq, heq⟩
    exact ⟨happ, hdb, hgiven, db', hlast, hurl, hengine, hpassword⟩
  · rintro ⟨happ, hdb, hgiven, last, hlast', hurl, hengine, hpassword⟩ rand
    cases hlast.symm.trans hlast'
    obtain ⟨p, q, -, -, hiff⟩ := exists_samePassword_iff hvalid h hlast rand
    refine hiff.mpr ⟨happ, hdb, hurl, hengine, ?_⟩
    rw [choosePassword_of_given hgiven, choosePassword_of_given (hpassword ▸ hgiven), hpassword]

def web : App := { id := "a1", name := "web", port := 3000 }

variable (password : String)

def orders : Database :=
  { id := "d1", name := "orders", engine := .postgres, password }

def webOrders : Connection :=
  { id := "c1", type := .dependency, sourceID := "a1", targetID := "d1", envVarName := "DATABASE_URL" }

def shop : Compiler where
  topology := { apps := [web], databases := [orders password], connections := [webOrders] }
  project := "shop"
  env := "prod"
  toUpper := id

lemma valid_shop : (shop password).topology.Valid :=
  ⟨rfl, forall_mem_singleton.mpr fun _ => rfl⟩

lemma depends_shop : Depends (shop password).topology web webOrders (orders password) where
  app_mem := mem_singleton_self web
  conn_mem := mem_singleton_self webOrders
  db_mem := mem_singleton_self (orders password)
  dependency := rfl
  source := rfl
  target := rfl
  named := by decide
  selfHosted := by simp [orders]
  noURL := rfl
  noExtra := rfl

theorem same_password_iff_shop : (shop "s3cret").topology.Valid ∧
    Depends (shop "s3cret").topology web webOrders (orders "s3cret") ∧
    ∀ rand, ∃ compose, (shop "s3cret").compile rand = .ok compose ∧
      SamePassword compose web webOrders (orders "s3cret") := by
  refine ⟨valid_shop _, depends_shop _, ?_⟩
  refine (same_password_iff _ _ _ _ (valid_shop _) (depends_shop _)).mpr ?_
  exact ⟨by decide, by decide, by decide, orders "s3cret", rfl, rfl, rfl, rfl⟩

/-- The password of a database is generated twice. -/
theorem shop_locked_out : (shop "").topology.Valid ∧
    Depends (shop "").topology web webOrders (orders "") ∧
    ∃ rand compose, (shop "").compile rand = .ok compose ∧
      urlPassword? compose web "DATABASE_URL" = some "pwd_aaaaaaaaaaaa" ∧
      configuredPassword? compose (orders "") = some "pwd_bbbbbbbbbbbb" ∧
      ¬SamePassword compose web webOrders (orders "") := by
  refine ⟨valid_shop _, depends_shop _, switchAt 12 0 1, _, rfl, ?_, ?_, ?_⟩ <;> decide

end DeployMonster.TopologyCompiler
