import DbBridge.Domain.Models

/-!
# Configuration

The sections of `internal/config` and `validate`, which fills in defaults and
rejects what can never be served. Sections that `validate` and the query manager
do not read are left out.
-/

namespace DbBridge.Settings

open Domain

structure InstanceConfig where
  id : String := ""
  metaStore : String := ""
  redisAddr : String := ""
  defaultStorage : String := ""
  heartbeatTTL : Duration := 0
  gcInterval : Duration := 0
  deriving DecidableEq, Repr

structure TLSConfig where
  certFile : String := ""
  keyFile : String := ""
  deriving DecidableEq, Repr

structure ServerConfig where
  restAddr : String := ""
  grpcAddr : String := ""
  maxRequestBytes : Int := 0
  requestTimeout : Duration := 0
  readHeaderTimeout : Duration := 0
  idleTimeout : Duration := 0
  tls : TLSConfig := {}
  deriving DecidableEq, Repr

structure AuthTokenConfig where
  subject : String
  value : String
  valueEnv : String
  scopes : List String
  deriving DecidableEq, Repr

structure DefaultsConfig where
  resultTTL : Duration := 0
  queryTimeout : Duration := 0
  maxConcurrentQueries : Int := 0
  allowWrites : Bool := false
  deriving DecidableEq, Repr

structure StorageConfig where
  s3Bucket : String := ""
  clickHouseDSN : String := ""
  deriving DecidableEq, Repr

structure DatabaseConfig where
  id : String
  engine : String
  dsn : String
  maxConns : Int := 0
  deriving DecidableEq, Repr

structure Config where
  inst : InstanceConfig := {}
  server : ServerConfig := {}
  auth : Option (List AuthTokenConfig) := none
  defaults : DefaultsConfig := {}
  storage : StorageConfig := {}
  databases : List DatabaseConfig := []
  deriving DecidableEq, Repr

/-- `value` unless it is the zero value, as in `if x == 0 { x = fallback }`. -/
def orDefault {α : Type} [DecidableEq α] (zero fallback value : α) : α :=
  if value = zero then fallback else value

/-- The defaults `validate` fills in, in one place: none of them depends on
another, so their order among the checks does not matter. -/
def withDefaults (cfg : Config) : Config :=
  { cfg with
    inst := { cfg.inst with
      defaultStorage := orDefault "" "fs" cfg.inst.defaultStorage
      heartbeatTTL := orDefault 0 (5 * second) cfg.inst.heartbeatTTL
      gcInterval := orDefault 0 minute cfg.inst.gcInterval }
    defaults := { cfg.defaults with
      resultTTL := orDefault 0 (24 * hour) cfg.defaults.resultTTL }
    server := { cfg.server with
      restAddr := orDefault "" ":8080" cfg.server.restAddr
      grpcAddr := orDefault "" ":9090" cfg.server.grpcAddr
      maxRequestBytes := orDefault 0 (2 ^ 20) cfg.server.maxRequestBytes
      requestTimeout := orDefault 0 (60 * second) cfg.server.requestTimeout
      readHeaderTimeout := orDefault 0 (10 * second) cfg.server.readHeaderTimeout
      idleTimeout := orDefault 0 (120 * second) cfg.server.idleTimeout } }

def supportedEngines : List String := ["postgres", "mysql", "clickhouse", "oracle"]

def validateDatabases : List String → List DatabaseConfig → Except String Unit
  | _, [] => .ok ()
  | seen, db :: rest =>
    if db.id = "" then .error "database ID cannot be empty"
    else if db.id ∈ seen then .error ("duplicate database ID: " ++ db.id)
    else if ¬ db.engine ∈ supportedEngines then
      .error ("unsupported database engine: " ++ db.engine ++ " for db " ++ db.id)
    else if db.dsn = "" then .error ("dsn must be provided for database " ++ db.id)
    else validateDatabases (db.id :: seen) rest

/-- The switch on `default_storage`, after its default has been applied. -/
def validateStorage (cfg : Config) : Except String Unit :=
  if cfg.inst.defaultStorage = "fs" then .ok ()
  else if cfg.inst.defaultStorage = "s3" then
    if cfg.storage.s3Bucket = "" then
      .error "storage.s3.bucket must be set when default_storage is s3"
    else .ok ()
  else if cfg.inst.defaultStorage = "clickhouse" then
    if cfg.storage.clickHouseDSN = "" then
      .error "storage.clickhouse.dsn must be set when default_storage is clickhouse"
    else .ok ()
  else .error ("unsupported instance.default_storage: " ++ cfg.inst.defaultStorage)

/-- `validate`: the accepted configuration with its defaults, or the error. -/
def validate (given : Config) : Except String Config := do
  let cfg := withDefaults given
  if cfg.inst.id = "" then throw "instance.id must not be empty"
  if cfg.inst.metaStore ≠ "redis" ∧ cfg.inst.metaStore ≠ "memory" then
    throw "instance.metastore must be 'redis' or 'memory'"
  if cfg.inst.metaStore = "redis" ∧ cfg.inst.redisAddr = "" then
    throw "instance.redis_addr must be specified when metastore is redis"
  validateStorage cfg
  if cfg.inst.gcInterval > 58 * 365 * 24 * hour then
    throw "instance.gc_interval must not exceed 58 years"
  if cfg.auth = some [] then throw "auth is configured but auth.tokens is empty"
  if (cfg.server.tls.certFile == "") != (cfg.server.tls.keyFile == "") then
    throw "server.tls needs both cert_file and key_file"
  validateDatabases [] cfg.databases
  return cfg

/-- A configuration `Manager.Reload` installs: what `validate` made of the file. -/
def Accepted (cfg : Config) : Prop := ∃ given, validate given = .ok cfg

theorem validateDatabases_unique {seen : List String} {databases : List DatabaseConfig}
    (valid : validateDatabases seen databases = .ok ()) :
    (databases.map DatabaseConfig.id).Nodup ∧ ∀ db ∈ databases, db.id ∉ seen := by
  induction databases generalizing seen with
  | nil => simp
  | cons db rest ih =>
    unfold validateDatabases at valid
    split at valid
    · contradiction
    · split at valid
      · contradiction
      · rename_i fresh
        split at valid
        · contradiction
        · split at valid
          · contradiction
          · obtain ⟨unique, unseen⟩ := ih valid
            constructor
            · rw [List.map_cons, List.nodup_cons]
              refine ⟨fun member => ?_, unique⟩
              obtain ⟨other, listed, same⟩ := List.mem_map.mp member
              exact unseen other listed (same ▸ List.mem_cons_self)
            · intro other member
              rcases List.mem_cons.mp member with rfl | later
              · exact fresh
              · exact fun old => unseen other later (List.mem_cons_of_mem _ old)

/-- What `validate` has checked when it accepts, besides the sections that no instance
reads again. -/
theorem validate_eq_ok {given cfg : Config} (valid : validate given = .ok cfg) :
    cfg = withDefaults given ∧ cfg.inst.gcInterval ≤ 58 * 365 * 24 * hour ∧
      validateDatabases [] cfg.databases = .ok () := by
  simp only [validate, bind, Except.bind, pure, Except.pure, throw, throwThe,
    MonadExceptOf.throw] at valid
  repeat' split at valid
  all_goals simp_all

theorem Accepted.unique {cfg : Config} (accepted : Accepted cfg) :
    (cfg.databases.map DatabaseConfig.id).Nodup := by
  obtain ⟨_, valid⟩ := accepted
  exact (validateDatabases_unique (validate_eq_ok valid).2.2).1

end DbBridge.Settings
