import DeployMonster.Library.Dict
import DeployMonster.Library.Path

/-!
# The topology compiler

`internal/topology`: a diagram of applications, databases, workers, volumes and domains is compiled
to a compose file. The random numbers of the system are the values of a function, and the passes
hand on the position up to which it has been read.
-/

namespace DeployMonster.TopologyCompiler

/-! ## Topologies -/

/-- `DatabaseEngine`: a string, of which five are supported. -/
inductive DatabaseEngine
  | postgres | mysql | mariadb | mongodb | redis
  | other (name : String)

namespace DatabaseEngine

def text : DatabaseEngine → String
  | postgres => "postgres"
  | mysql => "mysql"
  | mariadb => "mariadb"
  | mongodb => "mongodb"
  | redis => "redis"
  | other name => name

def supported : DatabaseEngine → Bool
  | other _ => false
  | _ => true

end DatabaseEngine

inductive ConnType
  | dependency | mount | route | network
  | other (name : String)
  deriving DecidableEq

structure VolumeMount where
  (volumeID mountPath : String)
  readOnly : Bool := false

structure App where
  (id name : String)
  dockerfile : String := ""
  port : ℤ := 0
  memoryMB : ℤ := 0
  cpu : ℤ := 0
  envVars : Dict String String := .empty
  volumeMounts : List VolumeMount := []
  healthCheckPath : String := ""
  healthCheckPort : ℤ := 0

structure Database where
  (id name : String)
  engine : DatabaseEngine
  version : String := ""
  managed : Bool := false
  external : Bool := false
  connURL : String := ""
  username : String := ""
  password : String := ""
  database : String := ""
  extraConfig : Dict String String := .empty

structure Worker where
  (id name : String)
  dockerfile : String := ""
  command : String := ""
  envVars : Dict String String := .empty
  volumeMounts : List VolumeMount := []

structure Volume where
  (id name : String)
  temporary : Bool := false

structure Domain where
  (id fqdn : String)
  targetAppID : String := ""

/-- `Connection`, with the one field of its configuration that the compiler reads. -/
structure Connection where
  id : String
  type : ConnType
  (sourceID targetID : String)
  envVarName : String := ""

/-- `Topology`, as far as the compiler reads it. -/
structure Topology where
  apps : List App := []
  databases : List Database := []
  domains : List Domain := []
  volumes : List Volume := []
  workers : List Worker := []
  connections : List Connection := []

/-- `Compiler`, and `strings.ToUpper`. -/
structure Compiler where
  topology : Topology
  (project env : String)
  toUpper : String → String

/-- The loops of `validate` over the names. -/
def checkNames (kind : String) : List String → List String → Except String (List String)
  | names, [] => .ok names
  | names, name :: rest =>
    if name ∈ names then .error ("duplicate " ++ kind ++ " name: " ++ name)
    else checkNames kind (name :: names) rest

/-- The loop of `validate` over the ports. -/
def checkPorts : List (ℤ × String) → List App → Except String Unit
  | _, [] => .ok ()
  | ports, app :: apps =>
    if 0 < app.port then
      match ports.lookup app.port with
      | some existing => .error ("port conflict: " ++ toString app.port ++ " used by both " ++
          existing ++ " and " ++ app.name)
      | none => checkPorts ((app.port, app.name) :: ports) apps
    else checkPorts ports apps

variable (id : String)

namespace Topology

variable (t : Topology)

def appExists : Bool := t.apps.any (·.id = id)

def volumeExists : Bool := t.volumes.any (·.id = id)

def componentExists : Bool :=
  t.appExists id || t.databases.any (·.id = id) || t.volumes.any (·.id = id) ||
    t.domains.any (·.id = id) || t.workers.any (·.id = id)

def validate : Except String Unit := do
  let names ← checkNames "app" [] (t.apps.map App.name)
  let names ← checkNames "database" names (t.databases.map Database.name)
  let _ ← checkNames "volume" names (t.volumes.map Volume.name)
  checkPorts [] t.apps
  t.domains.forM fun domain =>
    if domain.targetAppID ≠ "" ∧ ¬t.appExists domain.targetAppID then
      .error ("domain " ++ domain.fqdn ++ " targets non-existent app: " ++ domain.targetAppID)
    else .ok ()
  t.apps.forM fun app => app.volumeMounts.forM fun mount =>
    if t.volumeExists mount.volumeID then .ok ()
    else .error ("app " ++ app.name ++ " mounts non-existent volume: " ++ mount.volumeID)
  t.connections.forM fun conn =>
    if ¬t.componentExists conn.sourceID then
      .error ("connection " ++ conn.id ++ " has invalid source: " ++ conn.sourceID)
    else if ¬t.componentExists conn.targetID then
      .error ("connection " ++ conn.id ++ " has invalid target: " ++ conn.targetID)
    else .ok ()

def target? (conn : Connection) : Option Database :=
  if conn.type = .dependency then t.databases.find? (·.id = conn.targetID) else none

def findVolume : Option Volume := t.volumes.find? (·.id = id)

end Topology

/-- The results of the calls of `rand.Int`, in turn: an index into the alphabet, or a failure. -/
abbrev Entropy := ℕ → Option (Fin 36)

def charset : List Char := "abcdefghijklmnopqrstuvwxyz0123456789".toList

def char (k : Fin 36) : Char := charset.get (k.cast (by decide))

variable (rand : Entropy)

/-- `randomString`, which begins to read at the position. -/
def randomString (pos length : ℕ) : String :=
  String.ofList ((List.range length).map fun i =>
    char ((rand (pos + i)).getD (Fin.ofNat 36 i)))

/-- `generatePassword`, with the position behind what it has read. -/
def generatePassword (pos : ℕ) : String × ℕ :=
  ("pwd_" ++ randomString rand pos 12, pos + 12)

namespace Database

variable (db : Database)

/-- The password of a database as `generateDatabaseURL` and `generateDatabaseService` choose it, each
for itself. -/
def choosePassword (pos : ℕ) : String × ℕ :=
  if db.password = "" then generatePassword rand pos else (db.password, pos)

def chooseUsername : String := if db.username = "" then "root" else db.username

def chooseDatabase : String := if db.database = "" then db.name else db.database

end Database

/-! ## The URLs of databases -/

/-- The URL of a database. The parts are kept apart, so that one can tell its password from the rest. -/
structure ConnectionURL where
  scheme : String
  credentials : Option (String × String)
  host : String
  port : ℕ
  database : String

namespace ConnectionURL

def password? (url : ConnectionURL) : Option String := url.credentials.map Prod.snd

/-- What `fmt.Sprintf` makes of the parts. -/
def text (url : ConnectionURL) : String :=
  url.scheme ++ "://" ++
    (match url.credentials with
      | some (username, password) => username ++ ":" ++ password ++ "@"
      | none => "") ++
    url.host ++ ":" ++ toString url.port ++ "/" ++ url.database

end ConnectionURL

/-- A value in an environment: a text, or a URL that the compiler has made. -/
inductive EnvValue
  | text (s : String)
  | url (u : ConnectionURL)

namespace EnvValue

def render : EnvValue → String
  | text s => s
  | url u => u.text

def password? : EnvValue → Option String
  | text _ => none
  | url u => u.password?

end EnvValue

def getDatabasePort : DatabaseEngine → ℕ
  | .postgres => 5432
  | .mysql => 3306
  | .mariadb => 3306
  | .mongodb => 27017
  | .redis => 6379
  | .other _ => 5432

def databaseURL (db : Database) (password : String) : ConnectionURL :=
  let url scheme credentials : ConnectionURL :=
    ⟨scheme, credentials, db.name, getDatabasePort db.engine, db.chooseDatabase⟩
  match db.engine with
  | .postgres => url "postgresql" (some (db.chooseUsername, password))
  | .mysql => url "mysql" (some (db.chooseUsername, password))
  | .mariadb => url "mariadb" (some (db.chooseUsername, password))
  | .mongodb => url "mongodb" (some (db.chooseUsername, password))
  | .redis => url "redis" (if password = "" then none else some ("", password))
  | .other name => url name none

def generateDatabaseURL (db : Database) (pos : ℕ) : EnvValue × ℕ :=
  if db.connURL ≠ "" then (.text db.connURL, pos)
  else (.url (databaseURL db (db.choosePassword rand pos).1), (db.choosePassword rand pos).2)

namespace Compiler

variable (c : Compiler) (rand : Entropy)

def envVar (conn : Connection) (db : Database) : String :=
  if conn.envVarName = "" then c.toUpper db.name ++ "_URL" else conn.envVarName

def resolveConnections :
    List Connection → Dict String EnvValue → ℕ → Dict String EnvValue × ℕ
  | [], connections, pos => (connections, pos)
  | conn :: conns, connections, pos =>
    match c.topology.target? conn with
    | none => resolveConnections conns connections pos
    | some db =>
      let url := generateDatabaseURL rand db pos
      resolveConnections conns (connections.set (c.envVar conn db) url.1) url.2

def imageName (name : String) : String := c.project ++ "/" ++ name ++ "-" ++ c.env ++ ":latest"

/-- The other loops of `resolveReferences`. -/
def images : Dict String String :=
  Dict.setAll .empty (c.topology.apps.map (fun app => (app.id, c.imageName app.name)) ++
    c.topology.workers.map fun worker => (worker.id, c.imageName worker.name))

end Compiler

/-! ## Services -/

structure BuildConfig where
  (context dockerfile : String)

structure HealthCheck where
  test : List String
  (interval timeout : String)
  retries : ℕ

structure ResourceLimit where
  cpus : String := ""
  memory : String := ""

structure PortMapping where
  (host container : ℕ)

/-- The fields of `Service` that the compiler sets. -/
structure Service where
  build : Option BuildConfig := none
  (image containerName : String)
  restart : String := "unless-stopped"
  ports : List PortMapping := []
  expose : List ℤ := []
  environment : Dict String EnvValue := .empty
  volumes : List String := []
  networks : List String := ["default"]
  dependsOn : List String := []
  labels : Dict String String
  healthCheck : Option HealthCheck := none
  command : String := ""
  limits : Option ResourceLimit := none

structure ComposeConfig where
  version : String := "3.9"
  services : Dict String Service
  networks : Dict String String := Dict.set .empty "default" "bridge"
  /-- The drivers of the volumes. -/
  volumes : Dict String String

def getDefaultVersion : DatabaseEngine → String
  | .postgres => "16"
  | .mysql => "8.0"
  | .mariadb => "11"
  | .mongodb => "7"
  | .redis => "7"
  | .other _ => "latest"

def getDatabaseImage (db : Database) : Except String String :=
  let version := if db.version = "" then getDefaultVersion db.engine else db.version
  match db.engine with
  | .postgres => .ok ("postgres:" ++ version ++ "-alpine")
  | .mysql => .ok ("mysql:" ++ version)
  | .mariadb => .ok ("mariadb:" ++ version)
  | .mongodb => .ok ("mongo:" ++ version)
  | .redis => .ok ("redis:" ++ version ++ "-alpine")
  | .other name => .error ("unsupported database engine: " ++ name)

def getDatabaseDataPath : DatabaseEngine → String
  | .postgres => "/var/lib/postgresql/data"
  | .mysql => "/var/lib/mysql"
  | .mariadb => "/var/lib/mysql"
  | .mongodb => "/data/db"
  | .redis => "/data"
  | .other _ => "/data"

/-- The environment of the service of a database, without its extra configuration. -/
def engineEnvironment (db : Database) (password : String) : List (String × EnvValue) :=
  let username := db.chooseUsername
  let database := db.chooseDatabase
  match db.engine with
  | .postgres => [("POSTGRES_USER", .text username), ("POSTGRES_PASSWORD", .text password),
      ("POSTGRES_DB", .text database)]
  | .mysql => [("MYSQL_ROOT_PASSWORD", .text password), ("MYSQL_DATABASE", .text database)] ++
      if username ≠ "root" then [("MYSQL_USER", .text username), ("MYSQL_PASSWORD", .text password)]
      else []
  | .mariadb => [("MARIADB_ROOT_PASSWORD", .text password), ("MARIADB_DATABASE", .text database)] ++
      if username ≠ "root" then
        [("MARIADB_USER", .text username), ("MARIADB_PASSWORD", .text password)]
      else []
  | .mongodb => [("MONGO_INITDB_ROOT_USERNAME", .text username),
      ("MONGO_INITDB_ROOT_PASSWORD", .text password)]
  | .redis => if password ≠ "" then [("REDIS_PASSWORD", .text password)] else []
  | .other _ => []

def engineHealthCheck (db : Database) : Option HealthCheck :=
  let check test : Option HealthCheck := some ⟨test, "5s", "5s", 5⟩
  match db.engine with
  | .postgres => check ["CMD-SHELL", "pg_isready -U " ++ db.chooseUsername]
  | .mysql => check ["CMD", "mysqladmin", "ping", "-h", "localhost"]
  | .mariadb => check ["CMD", "healthcheck.sh", "--connect"]
  | .mongodb => check ["CMD", "mongosh", "--eval", "db.adminCommand('ping')"]
  | .redis => check ["CMD", "redis-cli", "ping"]
  | .other _ => none

namespace Compiler

variable (c : Compiler) (rand : Entropy)

def databaseService (db : Database) (image password : String) : Service where
  image
  containerName := c.project ++ "-" ++ db.name
  environment := Dict.setAll .empty (engineEnvironment db password ++
    db.extraConfig.rows.map fun (k, v) => (k, .text v))
  volumes := [db.name ++ "_data:" ++ getDatabaseDataPath db.engine]
  labels := Dict.setAll .empty [("monster.type", "database"), ("monster.engine", db.engine.text),
    ("monster.project", c.project), ("monster.environment", c.env)]
  healthCheck := engineHealthCheck db

def generateDatabaseService (db : Database) (pos : ℕ) : Except String (Service × ℕ) := do
  let image ← getDatabaseImage db
  let password := db.choosePassword rand pos
  return (c.databaseService db image password.1, password.2)

variable (connections : Dict String EnvValue)

/-- A value of an environment that refers to a connection is replaced by its URL. -/
def resolveEnvVar (v : String) : EnvValue :=
  let inCutset (ch : Char) : Bool := ch ∈ ['$', '\x7b', '\x7d']
  if ['$', '\x7b'] <+: v.toList ∧ ['\x7d'] <:+ v.toList then
    let refKey := ((v.toList.dropWhile inCutset).reverse.dropWhile inCutset).reverse
    (connections.get? (String.ofList refKey)).getD (.text v)
  else .text v

def resolvedEnvVars (envVars : Dict String String) : List (String × EnvValue) :=
  envVars.rows.map fun (k, v) => (k, resolveEnvVar connections v)

/-- The URLs that an application gets for its dependencies. -/
def dependencyURLs (app : App) : List (String × EnvValue) :=
  c.topology.connections.filterMap fun conn =>
    if conn.type = .dependency ∧ conn.sourceID = app.id ∧ conn.envVarName ≠ "" then
      (connections.get? conn.envVarName).map (conn.envVarName, ·)
    else none

/-- How a volume is written that is mounted. -/
def volumeRefs (mounts : List VolumeMount) : List String :=
  mounts.filterMap fun mount => (c.topology.findVolume mount.volumeID).map fun vol =>
    (if vol.temporary then "tmpfs:" ++ mount.mountPath else vol.name ++ ":" ++ mount.mountPath) ++
      if mount.readOnly then ":ro" else ""

/-- The databases on which a component depends and that run in the compose file. -/
def databaseDependencies : List String :=
  c.topology.connections.flatMap fun conn =>
    if conn.type = .dependency ∧ conn.sourceID = id then
      (c.topology.databases.filter fun db =>
        db.id = conn.targetID ∧ ¬db.managed ∧ ¬db.external).map Database.name
    else []

/-- `filepath.Join(".", dir, name)`. -/
def buildContext (dir name : String) : String :=
  String.ofList (Path.clean ("./".toList ++ dir.toList ++ '/' :: name.toList))

def generateAppService (app : App) : Service where
  build := some ⟨buildContext "apps" app.name, app.dockerfile⟩
  image := (c.images.get? app.id).getD ""
  containerName := c.project ++ "-" ++ app.name
  expose := if 0 < app.port then [app.port] else []
  environment := Dict.setAll .empty
    (resolvedEnvVars connections app.envVars ++ c.dependencyURLs connections app)
  volumes := c.volumeRefs app.volumeMounts
  dependsOn := (c.databaseDependencies app.id).insertionSort (· ≤ ·)
  labels := Dict.setAll .empty [("monster.type", "app"), ("monster.project", c.project),
    ("monster.environment", c.env), ("monster.port", toString app.port)]
  healthCheck :=
    if app.healthCheckPath = "" then none
    else
      let port := if app.healthCheckPort = 0 then app.port else app.healthCheckPort
      some ⟨["CMD", "curl", "-f", "http://localhost:" ++ toString port ++ app.healthCheckPath],
        "30s", "10s", 3⟩
  limits :=
    if 0 < app.memoryMB ∨ 0 < app.cpu then
      some
        { memory := if 0 < app.memoryMB then toString app.memoryMB ++ "M" else ""
          cpus := if 0 < app.cpu then toString app.cpu ++ "m" else "" }
    else none

def generateWorkerService (worker : Worker) : Service where
  build := some ⟨buildContext "workers" worker.name, worker.dockerfile⟩
  image := (c.images.get? worker.id).getD ""
  containerName := c.project ++ "-" ++ worker.name
  environment := Dict.setAll .empty (resolvedEnvVars connections worker.envVars)
  volumes := c.volumeRefs worker.volumeMounts
  dependsOn := c.databaseDependencies worker.id
  labels := Dict.setAll .empty [("monster.type", "worker"), ("monster.project", c.project),
    ("monster.environment", c.env)]
  command := worker.command

def generateProxyService : Service where
  image := "caddy:2-alpine"
  containerName := c.project ++ "-proxy"
  ports := [⟨80, 80⟩, ⟨443, 443⟩]
  volumes := ["caddy_data:/data", "caddy_config:/config", "./Caddyfile:/etc/caddy/Caddyfile:ro"]
  labels := Dict.setAll .empty [("monster.type", "proxy"), ("monster.project", c.project)]

def databaseServices : List Database → ℕ → Except String (List (String × Service))
  | [], _ => .ok []
  | db :: dbs, pos =>
    if db.managed ∨ db.external then databaseServices dbs pos
    else
      match c.generateDatabaseService rand db pos with
      | .error e => .error ("database " ++ db.name ++ ": " ++ e)
      | .ok (svc, pos) => do
        let rest ← databaseServices dbs pos
        return (db.name, svc) :: rest

def appServices : List (String × Service) :=
  c.topology.apps.map fun app => (app.name, c.generateAppService connections app)

def workerServices : List (String × Service) :=
  c.topology.workers.map fun worker => (worker.name, c.generateWorkerService connections worker)

def proxyServices : List (String × Service) :=
  if c.topology.domains = [] then [] else [("proxy", c.generateProxyService)]

def composeVolumes : List (String × String) :=
  (c.topology.databases.filter fun db => ¬(db.managed ∨ db.external)).map
      (fun db => (db.name ++ "_data", "local")) ++
    (c.topology.volumes.filter (¬·.temporary)).map (fun vol => (vol.name, "local")) ++
    if c.topology.domains = [] then [] else [("caddy_data", "local"), ("caddy_config", "local")]

def generateCompose (pos : ℕ) : Except String ComposeConfig := do
  let databases ← c.databaseServices rand c.topology.databases pos
  return {
    services := Dict.setAll .empty (databases ++ c.appServices connections ++
      c.workerServices connections ++ c.proxyServices)
    volumes := Dict.setAll .empty c.composeVolumes }

def compile : Except String ComposeConfig :=
  match c.topology.validate with
  | .error e => .error ("validation failed: " ++ e)
  | .ok () =>
    let (connections, pos) := c.resolveConnections rand c.topology.connections .empty 0
    match c.generateCompose rand connections pos with
    | .error e => .error ("compose generation failed: " ++ e)
    | .ok compose => .ok compose

end Compiler

end DeployMonster.TopologyCompiler
