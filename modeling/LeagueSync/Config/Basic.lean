import LeagueSync.Json.Basic

/-!
# LeagueSync.Config.Basic

The settings of the program, section by section. Every field has its default here and nowhere
else, and `Config.check` refuses the values that no component can work with.

* `Config.check_eq_ok_iff`: a configuration is accepted exactly when six numbers are not zero.
-/

namespace LeagueSync

/-- What to do when the token bucket is empty. -/
inductive LimitMode where
  | wait
  | failFast
  deriving DecidableEq, Repr

namespace LimitMode

def name : LimitMode → String
  | wait => "wait"
  | failFast => "fail_fast"

def ofName? (s : String) : Option LimitMode :=
  [wait, failFast].find? fun m => m.name == s

end LimitMode

structure ApiConfig where
  baseUrl : String := "https://fantasy.premierleague.com/api"
  userAgent : String := "fpl-sync/0.1.0"
  deriving DecidableEq

/-- Time limits of one attempt, in seconds. -/
structure TimeoutConfig where
  short : UInt64 := 5
  standard : UInt64 := 30
  long : UInt64 := 120
  deriving DecidableEq

structure RetryConfig where
  maxAttempts : UInt32 := 3
  baseDelayMs : UInt64 := 1000
  maxDelayMs : UInt64 := 30000
  jitterMaxMs : UInt64 := 250
  maxRetryAfterSecs : UInt64 := 300
  deriving DecidableEq

structure RateLimitConfig where
  capacity : UInt32 := 10
  tokensPerInterval : UInt32 := 10
  intervalMs : UInt64 := 1000
  mode : LimitMode := .wait
  deriving DecidableEq

structure HttpConfig where
  timeouts : TimeoutConfig := {}
  retry : RetryConfig := {}
  rateLimit : RateLimitConfig := {}
  maxConcurrent : UInt64 := 4
  deriving DecidableEq

structure CacheConfig where
  keyPrefix : String := "fpl"
  ttlSecs : UInt64 := 3600
  eventTtlSecs : UInt64 := 300
  deriving DecidableEq

structure ScheduleConfig where
  enabled : Bool := false
  intervalSecs : UInt64 := 3600
  initialDelaySecs : UInt64 := 5
  jitterSecs : UInt64 := 60
  deriving DecidableEq

structure SyncConfig where
  maxRetryCycles : UInt32 := 2
  concurrency : UInt64 := 1
  queueCapacity : UInt64 := 64
  schedule : ScheduleConfig := {}
  deriving DecidableEq

structure DatabaseConfig where
  path : String := "/data/db/fpl-sync.db"
  deriving DecidableEq

structure TelemetryConfig where
  enabled : Bool := false
  endpoint : Option String := none
  serviceName : String := "fpl-sync"
  deriving DecidableEq

structure LoggingConfig where
  level : String := "info"
  format : String := "json"
  deriving DecidableEq

structure Config where
  api : ApiConfig := {}
  http : HttpConfig := {}
  cache : CacheConfig := {}
  sync : SyncConfig := {}
  database : DatabaseConfig := {}
  telemetry : TelemetryConfig := {}
  logging : LoggingConfig := {}
  deriving DecidableEq

inductive FileFault where
  | missing
  | directory
  /-- The path goes on behind something that is no directory. -/
  | notDirectory
  | nameTooLong
  | forbidden
  | notText
  deriving DecidableEq, Repr

/-- A setting that must be at least one. -/
inductive PositiveSetting where
  | maxAttempts
  | capacity
  | tokensPerInterval
  | intervalMs
  | maxConcurrent
  | concurrency
  deriving DecidableEq, Repr

inductive ConfigError where
  | file (fault : FileFault)
  /-- The text is malformed, or says something else than a configuration. -/
  | text
  | malformed (name value : String)
  | belowOne (setting : PositiveSetting)
  deriving DecidableEq, Repr

def FileFault.message : FileFault → String
  | missing => "No such file or directory (os error 2)"
  | directory => "Is a directory (os error 21)"
  | notDirectory => "Not a directory (os error 20)"
  | nameTooLong => "File name too long (os error 36)"
  | forbidden => "Permission denied (os error 13)"
  | notText => "stream did not contain valid UTF-8"

/-- The name of the setting from the top of the configuration. -/
def PositiveSetting.path : PositiveSetting → String
  | maxAttempts => "http.retry.max_attempts"
  | capacity => "http.rate_limit.capacity"
  | tokensPerInterval => "http.rate_limit.tokens_per_interval"
  | intervalMs => "http.rate_limit.interval_ms"
  | maxConcurrent => "http.max_concurrent"
  | concurrency => "sync.concurrency"

namespace ConfigError

def message : ConfigError → String
  | file fault =>
    "Failed to read configuration file: Failed to read config file: " ++ fault.message
  | text => "Failed to parse configuration: Failed to parse YAML: not a configuration"
  | malformed name value =>
    "Failed to parse configuration: Invalid value for " ++ name ++ ": " ++ value
  | belowOne setting => "Invalid configuration value: " ++ setting.path ++ " must be at least 1"

end ConfigError

namespace Config

def setting (c : Config) : PositiveSetting → Nat
  | .maxAttempts => c.http.retry.maxAttempts.toNat
  | .capacity => c.http.rateLimit.capacity.toNat
  | .tokensPerInterval => c.http.rateLimit.tokensPerInterval.toNat
  | .intervalMs => c.http.rateLimit.intervalMs.toNat
  | .maxConcurrent => c.http.maxConcurrent.toNat
  | .concurrency => c.sync.concurrency.toNat

/-- The settings that must be at least one, in the order in which they are checked. -/
def positiveSettings : List PositiveSetting :=
  [.maxAttempts, .capacity, .tokensPerInterval, .intervalMs, .maxConcurrent, .concurrency]

/-- The configuration, if every component can work with it; else the first fault. -/
def check (c : Config) : Except ConfigError Config :=
  match positiveSettings.find? fun s => c.setting s == 0 with
  | some s => .error (.belowOne s)
  | none => .ok c

theorem mem_positiveSettings (s : PositiveSetting) : s ∈ positiveSettings := by
  cases s <;> decide

theorem check_eq_ok_iff (c : Config) :
    c.check = .ok c ↔ ∀ s, c.setting s ≠ 0 := by
  unfold check
  constructor
  · intro h s hs
    cases hf : positiveSettings.find? fun s => c.setting s == 0 with
    | none =>
      have := List.find?_eq_none.1 hf s (mem_positiveSettings s)
      simp [hs] at this
    | some t => simp [hf] at h
  · intro h
    have : positiveSettings.find? (fun s => c.setting s == 0) = none := by
      apply List.find?_eq_none.2
      intro s _
      simp [h s]
    simp [this]

end Config
end LeagueSync
