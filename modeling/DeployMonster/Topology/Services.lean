import DeployMonster.Topology.Passwords

/-!
# The components of a compose file

The services of a compose file are in a map by their names, and so are the volumes. The validation
compares the names of applications, databases and volumes, and not those of workers or the names
that the compiler makes up.

## Main results

* `lossless_iff`: when every component of a topology is in the compose file under its own name.
-/

namespace DeployMonster.TopologyCompiler

open Failure List Function Compiler Dict

namespace Topology

variable (t : Topology)

def selfHosted : List Database := t.databases.filter fun db => ¬(db.managed ∨ db.external)

def persistentVolumes : List Volume := t.volumes.filter (¬·.temporary)

def serviceNames : List String :=
  t.selfHosted.map Database.name ++ t.apps.map App.name ++
    (t.workers.map Worker.name ++ if t.domains = [] then [] else ["proxy"])

/-- The names of the volumes that the compiler makes up: the data volumes of the databases and the
volumes of the proxy. -/
def generatedVolumes : List String :=
  t.selfHosted.map (·.name ++ "_data") ++
    if t.domains = [] then [] else ["caddy_data", "caddy_config"]

end Topology

/-- No component is lost: the services of the components are different ones, there are as many as
components, and no volume that is declared has the entry of one that the compiler makes up. -/
structure Lossless (t : Topology) (compose : ComposeConfig) : Prop where
  distinct : t.serviceNames.Pairwise fun name name' =>
    compose.services.find? name ≠ compose.services.find? name'
  count : compose.services.rows.length =
    t.apps.length + t.workers.length + t.selfHosted.length + if t.domains = [] then 0 else 1
  volumes : ∀ vol ∈ t.persistentVolumes, ∀ name ∈ t.generatedVolumes,
    compose.volumes.find? vol.name ≠ compose.volumes.find? name

/-- What the validation does not check of the names. -/
structure Apart (t : Topology) : Prop where
  workers : (t.workers.map Worker.name).Nodup
  worker_ne : ∀ worker ∈ t.workers, (∀ app ∈ t.apps, worker.name ≠ app.name) ∧
    ∀ db ∈ t.selfHosted, worker.name ≠ db.name
  proxy : t.domains ≠ [] → (∀ app ∈ t.apps, app.name ≠ "proxy") ∧
    (∀ db ∈ t.selfHosted, db.name ≠ "proxy") ∧ ∀ worker ∈ t.workers, worker.name ≠ "proxy"
  volumes : ∀ vol ∈ t.persistentVolumes,
    (∀ db ∈ t.selfHosted, vol.name ≠ db.name ++ "_data") ∧
      (t.domains ≠ [] → vol.name ≠ "caddy_data" ∧ vol.name ≠ "caddy_config")

variable {t : Topology}

lemma nodup_serviceNames_iff (hvalid : t.validate = .ok ()) :
    t.serviceNames.Nodup ↔ (t.workers.map Worker.name).Nodup ∧
      (∀ worker ∈ t.workers, (∀ app ∈ t.apps, worker.name ≠ app.name) ∧
        ∀ db ∈ t.selfHosted, worker.name ≠ db.name) ∧
      (t.domains ≠ [] → (∀ app ∈ t.apps, app.name ≠ "proxy") ∧
        (∀ db ∈ t.selfHosted, db.name ≠ "proxy") ∧ ∀ worker ∈ t.workers, worker.name ≠ "proxy") := by
  have hchecked : (t.selfHosted.map Database.name ++ t.apps.map App.name).Nodup := by
    refine (nodup_of_validate hvalid).sublist (List.Sublist.append ?_ (List.Sublist.refl _))
    exact filter_sublist.map _
  rw [Topology.serviceNames, nodup_append', and_iff_right hchecked]
  by_cases hdomains : t.domains = []
  · simp only [hdomains, ↓reduceIte, append_nil, disjoint_left, mem_append, mem_map]
    grind
  · simp only [hdomains, ↓reduceIte, nodup_append', disjoint_left, mem_append,
      mem_map, mem_singleton, nodup_singleton]
    grind

namespace Compiler

variable {c : Compiler} {rand : Entropy} {compose : ComposeConfig}

lemma supported_of_getDatabaseImage {db : Database} {image : String}
    (h : getDatabaseImage db = .ok image) : db.engine.supported = true := by
  unfold getDatabaseImage at h
  cases hengine : db.engine with
  | other name =>
    rw [hengine] at h
    cases h
  | _ => rfl

variable {entries : List (String × Service)}

lemma keys_databaseServices {dbs : List Database} {pos : ℕ}
    (h : c.databaseServices rand dbs pos = .ok entries) :
    entries.map Prod.fst =
        (dbs.filter fun db => ¬(db.managed ∨ db.external)).map Database.name ∧
      ∀ db ∈ dbs.filter fun db => ¬(db.managed ∨ db.external), db.engine.supported = true := by
  induction dbs generalizing pos entries with
  | nil =>
    cases h
    exact ⟨rfl, fun _ hdb => absurd hdb not_mem_nil⟩
  | cons db dbs ih =>
    unfold databaseServices at h
    split at h
    case isTrue hskip =>
      have hdrop : ¬decide (¬(db.managed ∨ db.external)) = true := by
        rw [decide_eq_true_iff]
        exact not_not_intro hskip
      rw [filter_cons, if_neg hdrop]
      exact ih h
    case isFalse hself =>
      rw [filter_cons, if_pos (decide_eq_true hself), map_cons]
      split at h
      · cases h
      case h_2 hservice =>
        obtain ⟨rest, hrest, hentries⟩ := bind_eq_ok.mp h
        obtain ⟨image, himage, -⟩ := bind_eq_ok.mp hservice
        cases hentries
        obtain ⟨hkeys, hsupported⟩ := ih hrest
        refine ⟨by rw [map_cons, hkeys], ?_⟩
        exact forall_mem_cons.mpr ⟨supported_of_getDatabaseImage himage, hsupported⟩

lemma keys_services (connections : Dict String EnvValue) {pos : ℕ}
    (h : c.databaseServices rand c.topology.databases pos = .ok entries) :
    (entries ++ c.appServices connections ++ c.laterServices connections).map Prod.fst =
      c.topology.serviceNames := by
  have hproxy : c.proxyServices.map Prod.fst = if c.topology.domains = [] then [] else ["proxy"] := by
    unfold proxyServices
    split <;> rfl
  rw [map_append, map_append, (keys_databaseServices h).1, laterServices, map_append,
    hproxy, appServices, workerServices, map_map, map_map]
  rfl

lemma mem_keys_composeVolumes {name : String} : name ∈ c.composeVolumes.map Prod.fst ↔
    (∃ vol ∈ c.topology.persistentVolumes, vol.name = name) ∨
      name ∈ c.topology.generatedVolumes := by
  unfold composeVolumes Topology.persistentVolumes Topology.generatedVolumes Topology.selfHosted
  by_cases hdomains : c.topology.domains = []
  · simp only [hdomains, ↓reduceIte, append_nil, map_append, map_map, mem_append,
      mem_map, comp_apply]
    exact or_comm
  · simp only [hdomains, ↓reduceIte, map_append, map_map, mem_append, mem_map,
      comp_apply, map_cons, map_nil]
    rw [or_right_comm, or_comm]

lemma distinct_services_iff (hkeys : entries.map Prod.fst = c.topology.serviceNames) :
    (c.topology.serviceNames.Pairwise fun name name' =>
      (setAll .empty entries).find? name ≠ (setAll .empty entries).find? name') ↔
      c.topology.serviceNames.Nodup := by
  refine List.Pairwise.iff_of_mem fun {name name'} hname _ => ?_
  rw [← hkeys] at hname
  exact not_congr (find?_setAll_empty_eq_iff hname)

lemma count_services_iff (hkeys : entries.map Prod.fst = c.topology.serviceNames) :
    (setAll .empty entries).rows.length = c.topology.apps.length + c.topology.workers.length +
        c.topology.selfHosted.length + (if c.topology.domains = [] then 0 else 1) ↔
      c.topology.serviceNames.Nodup := by
  have hcount : entries.length = c.topology.apps.length + c.topology.workers.length +
      c.topology.selfHosted.length + if c.topology.domains = [] then 0 else 1 := by
    rw [← length_map (f := Prod.fst), hkeys, Topology.serviceNames]
    by_cases hdomains : c.topology.domains = []
    · simp only [hdomains, ↓reduceIte, length_append, length_map, length_nil]
      omega
    · simp only [hdomains, ↓reduceIte, length_append, length_map, length_singleton]
      omega
  rw [← hcount, length_setAll_empty_iff, hkeys]

lemma separate_volumes_iff :
    (∀ vol ∈ c.topology.persistentVolumes, ∀ name ∈ c.topology.generatedVolumes,
      (setAll .empty c.composeVolumes).find? vol.name ≠
        (setAll .empty c.composeVolumes).find? name) ↔
    ∀ vol ∈ c.topology.persistentVolumes,
      (∀ db ∈ c.topology.selfHosted, vol.name ≠ db.name ++ "_data") ∧
        (c.topology.domains ≠ [] → vol.name ≠ "caddy_data" ∧ vol.name ≠ "caddy_config") := by
  refine forall₂_congr fun vol hvol => ?_
  have hkey : vol.name ∈ c.composeVolumes.map Prod.fst :=
    mem_keys_composeVolumes.mpr (.inl ⟨vol, hvol, rfl⟩)
  have hne : ∀ name, (setAll .empty c.composeVolumes).find? vol.name ≠
      (setAll .empty c.composeVolumes).find? name ↔ vol.name ≠ name :=
    fun name => not_congr (find?_setAll_empty_eq_iff hkey)
  simp only [hne, Topology.generatedVolumes, forall_mem_append, forall_mem_map]
  refine and_congr_right fun _ => ?_
  by_cases hdomains : c.topology.domains = [] <;> simp [hdomains]

lemma lossless_iff_apart (hcompile : c.compile rand = .ok compose) :
    Lossless c.topology compose ↔ Apart c.topology := by
  obtain ⟨hvalid, entries, hentries, rfl⟩ := compile_eq_ok_iff.mp hcompile
  have hkeys := keys_services (c.resolved rand) hentries
  constructor
  · rintro ⟨hdistinct, -, hvolumes⟩
    obtain ⟨hworkers, hne, hproxy⟩ :=
      (nodup_serviceNames_iff hvalid).mp ((distinct_services_iff hkeys).mp hdistinct)
    exact ⟨hworkers, hne, hproxy, separate_volumes_iff.mp hvolumes⟩
  · rintro ⟨hworkers, hne, hproxy, hvolumes⟩
    have hnodup := (nodup_serviceNames_iff hvalid).mpr ⟨hworkers, hne, hproxy⟩
    exact ⟨(distinct_services_iff hkeys).mpr hnodup, (count_services_iff hkeys).mpr hnodup,
      separate_volumes_iff.mpr hvolumes⟩

end Compiler

/-- **The compiler loses no component of an accepted topology exactly when** the names that the
validation does not compare are different, or there is a database of unknown engine, and so no
compose file. -/
theorem lossless_iff (c : Compiler) (rand : Entropy) (hvalid : c.topology.validate = .ok ()) :
    (∀ compose, c.compile rand = .ok compose → Lossless c.topology compose) ↔
      ((∀ db ∈ c.topology.selfHosted, db.engine.supported = true) → Apart c.topology) := by
  constructor
  · intro h hengines
    have hsupported : ∀ db ∈ c.topology.databases, ¬(db.managed ∨ db.external) →
        db.engine.supported = true :=
      fun db hdb hself => hengines db (mem_filter.mpr ⟨hdb, decide_eq_true hself⟩)
    obtain ⟨compose, -, hcompile, -⟩ := exists_services ⟨hvalid, hsupported⟩ rand
    exact (lossless_iff_apart hcompile).mp (h compose hcompile)
  · intro h compose hcompile
    obtain ⟨-, entries, hentries, -⟩ := compile_eq_ok_iff.mp hcompile
    exact (lossless_iff_apart hcompile).mpr (h (keys_databaseServices hentries).2)

def market (worker volume : String) : Compiler where
  topology :=
    { apps := [web]
      databases := [orders "s3cret"]
      domains := [{ id := "f1", fqdn := "shop.example.com", targetAppID := "a1" }]
      volumes := [{ id := "v1", name := volume }]
      workers := [{ id := "w1", name := worker }] }
  project := "market"
  env := "prod"
  toUpper := id

theorem lossless_iff_market : (market "mailer" "uploads").topology.validate = .ok () ∧
    ∃ compose, (market "mailer" "uploads").compile (fun _ => none) = .ok compose ∧
      Lossless (market "mailer" "uploads").topology compose := by
  have hvalid : (market "mailer" "uploads").topology.validate = .ok () := rfl
  refine ⟨hvalid, _, rfl, (lossless_iff _ (fun _ => none) hvalid).mpr ?_ _ rfl⟩
  exact fun _ => ⟨by decide, by decide, by decide, by decide⟩

/-- A worker takes the place of the application, and a volume that is declared is the data volume of
the database. -/
theorem market_loses : (market "web" "orders_data").topology.validate = .ok () ∧
    ∃ compose, (market "web" "orders_data").compile (fun _ => none) = .ok compose ∧
      compose.services.rows.map Prod.fst = ["orders", "web", "proxy"] ∧
      compose.serviceOf "app" "web" = none ∧
      compose.volumes.rows.map Prod.fst = ["orders_data", "caddy_data", "caddy_config"] ∧
      ¬Lossless (market "web" "orders_data").topology compose := by
  refine ⟨rfl, _, rfl, by decide, by decide, by decide, fun h => absurd h.count (by decide)⟩

end DeployMonster.TopologyCompiler
