import LeagueSync.Config.Codec
import LeagueSync.Proofs.RecordParts
import LeagueSync.Proofs.RecordRoundTrips

/-!
# LeagueSync.Proofs.ConfigDefaults

What a configuration is when part of it is left out. Any members of a written configuration may be
missing, single fields and whole sections at any depth; what is read has the defaults of the
configuration as a whole for these and keeps everything else.

* `reads_count32`, `reads_count64`, `LimitMode.reads_name`: the kinds of field that only settings
  have.
* `RetryConfig.overlay` and its companions: a section with the defaults for a set of its members.
* `RetryConfig.reads_without` and its companions: such a section is what is read.
* `Config.defaults_overlay`: the whole configuration, and when it is accepted.
-/

namespace LeagueSync

open Json

/-! ## Fields -/

theorem reads_count32 (n : UInt32) : Reads count32 (.ofNat n.toNat) n := by
  have small : n.toNat < UInt32.size := n.toNat_lt
  have size : UInt32.size ≤ UInt64.size := by decide
  obtain ⟨t, tree, read⟩ :=
    reads_naturalBelow (Nat.le_refl UInt64.size) (Nat.lt_of_lt_of_le small size)
  refine ⟨t, tree, ?_⟩
  have natural : Document.natural t = some n.toNat := read
  simp only [count32, natural, if_pos small, UInt32.ofNat_toNat]

theorem reads_count64 (n : UInt64) : Reads count64 (.ofNat n.toNat) n := by
  have small : n.toNat < UInt64.size := n.toNat_lt
  obtain ⟨t, tree, read⟩ := reads_naturalBelow (Nat.le_refl UInt64.size) small
  refine ⟨t, tree, ?_⟩
  have natural : Document.natural t = some n.toNat := read
  simp only [count64, natural, if_pos small, UInt64.ofNat_toNat]

theorem reads_text (s : String) : Reads Document.text (.str s) s :=
  reads_string s

theorem reads_flag (b : Bool) : Reads Document.flag (.bool b) b :=
  reads_bool b

theorem without_ofOption_str (S : Members) (o : Option String) :
    (ofOption Json.str o).without S = ofOption Json.str o := by
  cases o <;> rfl

theorem reads_optionalText (S : Members) (o : Option String) :
    Reads Document.optionalText ((ofOption Json.str o).without S) o := by
  rw [without_ofOption_str]
  exact reads_nullable reads_string rfl o

theorem LimitMode.reads_name (m : LimitMode) : Reads LimitMode.decode (.str m.name) m := by
  refine ⟨_, rfl, ?_⟩
  cases m <;> rfl

/-! ## Sections -/

variable (S : Members)

namespace ApiConfig

def overlay (c d : ApiConfig) : ApiConfig where
  baseUrl := S.pick "base_url" c.baseUrl d.baseUrl
  userAgent := S.pick "user_agent" c.userAgent d.userAgent

theorem reads_without (c : ApiConfig) : Reads decode (c.toJson.without S) (c.overlay S {}) := by
  have nodup : fields.Nodup := by decide
  refine Json.reads_without S nodup rfl ?_ fun s left => ?_
  · simp [tree?, without]
  · simp only [List.forall_mem_cons] at left
    obtain ⟨baseUrl, userAgent, -⟩ := left
    simp only [baseUrl.defaulted (reads_text _), userAgent.defaulted (reads_text _),
      Option.bind_eq_bind, Option.bind_some]
    rfl

end ApiConfig

namespace TimeoutConfig

def overlay (c d : TimeoutConfig) : TimeoutConfig where
  short := S.pick "short_secs" c.short d.short
  standard := S.pick "default_secs" c.standard d.standard
  long := S.pick "long_secs" c.long d.long

theorem reads_without (c : TimeoutConfig) : Reads decode (c.toJson.without S) (c.overlay S {}) := by
  have nodup : fields.Nodup := by decide
  refine Json.reads_without S nodup rfl ?_ fun s left => ?_
  · simp [tree?, without, ofNat]
  · simp only [List.forall_mem_cons] at left
    obtain ⟨short, standard, long, -⟩ := left
    simp only [short.defaulted (reads_count64 _), standard.defaulted (reads_count64 _),
      long.defaulted (reads_count64 _), Option.bind_eq_bind, Option.bind_some]
    rfl

end TimeoutConfig

namespace RetryConfig

def overlay (c d : RetryConfig) : RetryConfig where
  maxAttempts := S.pick "max_attempts" c.maxAttempts d.maxAttempts
  baseDelayMs := S.pick "base_delay_ms" c.baseDelayMs d.baseDelayMs
  maxDelayMs := S.pick "max_delay_ms" c.maxDelayMs d.maxDelayMs
  jitterMaxMs := S.pick "jitter_max_ms" c.jitterMaxMs d.jitterMaxMs
  maxRetryAfterSecs := S.pick "max_retry_after_secs" c.maxRetryAfterSecs d.maxRetryAfterSecs

theorem reads_without (c : RetryConfig) : Reads decode (c.toJson.without S) (c.overlay S {}) := by
  have nodup : fields.Nodup := by decide
  refine Json.reads_without S nodup rfl ?_ fun s left => ?_
  · simp [tree?, without, ofNat]
  · simp only [List.forall_mem_cons] at left
    obtain ⟨maxAttempts, baseDelayMs, maxDelayMs, jitterMaxMs, maxRetryAfterSecs, -⟩ := left
    simp only [maxAttempts.defaulted (reads_count32 _), baseDelayMs.defaulted (reads_count64 _),
      maxDelayMs.defaulted (reads_count64 _), jitterMaxMs.defaulted (reads_count64 _),
      maxRetryAfterSecs.defaulted (reads_count64 _), Option.bind_eq_bind, Option.bind_some]
    rfl

end RetryConfig

namespace RateLimitConfig

def overlay (c d : RateLimitConfig) : RateLimitConfig where
  capacity := S.pick "capacity" c.capacity d.capacity
  tokensPerInterval := S.pick "tokens_per_interval" c.tokensPerInterval d.tokensPerInterval
  intervalMs := S.pick "interval_ms" c.intervalMs d.intervalMs
  mode := S.pick "mode" c.mode d.mode

theorem reads_without (c : RateLimitConfig) :
    Reads decode (c.toJson.without S) (c.overlay S {}) := by
  have nodup : fields.Nodup := by decide
  refine Json.reads_without S nodup rfl ?_ fun s left => ?_
  · simp [tree?, without, ofNat]
  · simp only [List.forall_mem_cons] at left
    obtain ⟨capacity, tokensPerInterval, intervalMs, mode, -⟩ := left
    simp only [capacity.defaulted (reads_count32 _), tokensPerInterval.defaulted (reads_count32 _),
      intervalMs.defaulted (reads_count64 _), mode.defaulted (LimitMode.reads_name _),
      Option.bind_eq_bind, Option.bind_some]
    rfl

end RateLimitConfig

namespace HttpConfig

def overlay (c d : HttpConfig) : HttpConfig where
  timeouts := S.pick "timeouts" (c.timeouts.overlay (S.below "timeouts") d.timeouts) d.timeouts
  retry := S.pick "retry" (c.retry.overlay (S.below "retry") d.retry) d.retry
  rateLimit :=
    S.pick "rate_limit" (c.rateLimit.overlay (S.below "rate_limit") d.rateLimit) d.rateLimit
  maxConcurrent := S.pick "max_concurrent" c.maxConcurrent d.maxConcurrent

theorem reads_without (c : HttpConfig) : Reads decode (c.toJson.without S) (c.overlay S {}) := by
  have nodup : fields.Nodup := by decide
  have timeouts := TimeoutConfig.reads_without (S.below "timeouts") c.timeouts
  have retry := RetryConfig.reads_without (S.below "retry") c.retry
  have rateLimit := RateLimitConfig.reads_without (S.below "rate_limit") c.rateLimit
  refine Json.reads_without S nodup rfl ?_ fun s left => ?_
  · simp [timeouts.isSome, retry.isSome, rateLimit.isSome, tree?, without, ofNat]
  · simp only [List.forall_mem_cons] at left
    obtain ⟨timeoutsLeft, retryLeft, rateLimitLeft, maxConcurrent, -⟩ := left
    simp only [timeoutsLeft.defaulted timeouts, retryLeft.defaulted retry,
      rateLimitLeft.defaulted rateLimit, maxConcurrent.defaulted (reads_count64 _),
      Option.bind_eq_bind, Option.bind_some]
    rfl

end HttpConfig

namespace CacheConfig

def overlay (c d : CacheConfig) : CacheConfig where
  keyPrefix := S.pick "prefix" c.keyPrefix d.keyPrefix
  ttlSecs := S.pick "ttl_secs" c.ttlSecs d.ttlSecs
  eventTtlSecs := S.pick "event_ttl_secs" c.eventTtlSecs d.eventTtlSecs

theorem reads_without (c : CacheConfig) : Reads decode (c.toJson.without S) (c.overlay S {}) := by
  have nodup : fields.Nodup := by decide
  refine Json.reads_without S nodup rfl ?_ fun s left => ?_
  · simp [tree?, without, ofNat]
  · simp only [List.forall_mem_cons] at left
    obtain ⟨keyPrefix, ttlSecs, eventTtlSecs, -⟩ := left
    simp only [keyPrefix.defaulted (reads_text _), ttlSecs.defaulted (reads_count64 _),
      eventTtlSecs.defaulted (reads_count64 _), Option.bind_eq_bind, Option.bind_some]
    rfl

end CacheConfig

namespace ScheduleConfig

def overlay (c d : ScheduleConfig) : ScheduleConfig where
  enabled := S.pick "enabled" c.enabled d.enabled
  intervalSecs := S.pick "interval_secs" c.intervalSecs d.intervalSecs
  initialDelaySecs := S.pick "initial_delay_secs" c.initialDelaySecs d.initialDelaySecs
  jitterSecs := S.pick "jitter_secs" c.jitterSecs d.jitterSecs

theorem reads_without (c : ScheduleConfig) :
    Reads decode (c.toJson.without S) (c.overlay S {}) := by
  have nodup : fields.Nodup := by decide
  refine Json.reads_without S nodup rfl ?_ fun s left => ?_
  · simp [tree?, without, ofNat]
  · simp only [List.forall_mem_cons] at left
    obtain ⟨enabled, intervalSecs, initialDelaySecs, jitterSecs, -⟩ := left
    simp only [enabled.defaulted (reads_flag _), intervalSecs.defaulted (reads_count64 _),
      initialDelaySecs.defaulted (reads_count64 _), jitterSecs.defaulted (reads_count64 _),
      Option.bind_eq_bind, Option.bind_some]
    rfl

end ScheduleConfig

namespace SyncConfig

def overlay (c d : SyncConfig) : SyncConfig where
  maxRetryCycles := S.pick "max_retry_cycles" c.maxRetryCycles d.maxRetryCycles
  concurrency := S.pick "concurrency" c.concurrency d.concurrency
  queueCapacity := S.pick "queue_capacity" c.queueCapacity d.queueCapacity
  schedule := S.pick "schedule" (c.schedule.overlay (S.below "schedule") d.schedule) d.schedule

theorem reads_without (c : SyncConfig) : Reads decode (c.toJson.without S) (c.overlay S {}) := by
  have nodup : fields.Nodup := by decide
  have schedule := ScheduleConfig.reads_without (S.below "schedule") c.schedule
  refine Json.reads_without S nodup rfl ?_ fun s left => ?_
  · simp [schedule.isSome, tree?, without, ofNat]
  · simp only [List.forall_mem_cons] at left
    obtain ⟨maxRetryCycles, concurrency, queueCapacity, scheduleLeft, -⟩ := left
    simp only [maxRetryCycles.defaulted (reads_count32 _), concurrency.defaulted (reads_count64 _),
      queueCapacity.defaulted (reads_count64 _), scheduleLeft.defaulted schedule,
      Option.bind_eq_bind, Option.bind_some]
    rfl

end SyncConfig

namespace DatabaseConfig

def overlay (c d : DatabaseConfig) : DatabaseConfig where
  path := S.pick "path" c.path d.path

theorem reads_without (c : DatabaseConfig) :
    Reads decode (c.toJson.without S) (c.overlay S {}) := by
  have nodup : fields.Nodup := by decide
  refine Json.reads_without S nodup rfl ?_ fun s left => ?_
  · simp [tree?, without]
  · simp only [List.forall_mem_cons] at left
    obtain ⟨path, -⟩ := left
    simp only [path.defaulted (reads_text _), Option.bind_eq_bind, Option.bind_some]
    rfl

end DatabaseConfig

namespace TelemetryConfig

def overlay (c d : TelemetryConfig) : TelemetryConfig where
  enabled := S.pick "enabled" c.enabled d.enabled
  endpoint := S.pick "endpoint" c.endpoint d.endpoint
  serviceName := S.pick "service_name" c.serviceName d.serviceName

theorem reads_without (c : TelemetryConfig) :
    Reads decode (c.toJson.without S) (c.overlay S {}) := by
  have nodup : fields.Nodup := by decide
  refine Json.reads_without S nodup rfl ?_ fun s left => ?_
  · simp [tree?, without, without_ofOption_str, isSome_tree?_ofOption]
  · simp only [List.forall_mem_cons] at left
    obtain ⟨enabled, endpoint, serviceName, -⟩ := left
    simp only [enabled.defaulted (reads_flag _), endpoint.optional (reads_optionalText _ _),
      serviceName.defaulted (reads_text _), Option.bind_eq_bind, Option.bind_some]
    rfl

end TelemetryConfig

namespace LoggingConfig

def overlay (c d : LoggingConfig) : LoggingConfig where
  level := S.pick "level" c.level d.level
  format := S.pick "format" c.format d.format

theorem reads_without (c : LoggingConfig) : Reads decode (c.toJson.without S) (c.overlay S {}) := by
  have nodup : fields.Nodup := by decide
  refine Json.reads_without S nodup rfl ?_ fun s left => ?_
  · simp [tree?, without]
  · simp only [List.forall_mem_cons] at left
    obtain ⟨level, format, -⟩ := left
    simp only [level.defaulted (reads_text _), format.defaulted (reads_text _), Option.bind_eq_bind,
      Option.bind_some]
    rfl

end LoggingConfig

namespace Config

/-- The configuration, but with the defaults for the members of the set. -/
def overlay (c : Config) : Config :=
  let d : Config := {}
  {
    api := S.pick "upstream" (c.api.overlay (S.below "upstream") d.api) d.api
    http := S.pick "http" (c.http.overlay (S.below "http") d.http) d.http
    cache := S.pick "cache" (c.cache.overlay (S.below "cache") d.cache) d.cache
    sync := S.pick "sync" (c.sync.overlay (S.below "sync") d.sync) d.sync
    database := S.pick "database" (c.database.overlay (S.below "database") d.database) d.database
    telemetry := S.pick "otel" (c.telemetry.overlay (S.below "otel") d.telemetry) d.telemetry
    logging := S.pick "logging" (c.logging.overlay (S.below "logging") d.logging) d.logging }

theorem reads_without (c : Config) : Reads decode (c.toJson.without S) (c.overlay S) := by
  have nodup : fields.Nodup := by decide
  have api := ApiConfig.reads_without (S.below "upstream") c.api
  have http := HttpConfig.reads_without (S.below "http") c.http
  have cache := CacheConfig.reads_without (S.below "cache") c.cache
  have sync := SyncConfig.reads_without (S.below "sync") c.sync
  have database := DatabaseConfig.reads_without (S.below "database") c.database
  have telemetry := TelemetryConfig.reads_without (S.below "otel") c.telemetry
  have logging := LoggingConfig.reads_without (S.below "logging") c.logging
  refine Json.reads_without S nodup rfl ?_ fun s left => ?_
  · simp [api.isSome, http.isSome, cache.isSome, sync.isSome, database.isSome, telemetry.isSome,
    logging.isSome]
  · simp only [List.forall_mem_cons] at left
    obtain ⟨apiLeft, httpLeft, cacheLeft, syncLeft, databaseLeft, telemetryLeft, loggingLeft, -⟩ :=
      left
    simp only [apiLeft.defaulted api, httpLeft.defaulted http, cacheLeft.defaulted cache,
      syncLeft.defaulted sync, databaseLeft.defaulted database, telemetryLeft.defaulted telemetry,
      loggingLeft.defaulted logging, Option.bind_eq_bind, Option.bind_some]
    rfl

theorem overlay_none (c : Config) : c.overlay .none = c := rfl

theorem check_eq_ok_iff_positive (c : Config) :
    c.check = .ok c ↔ c.http.retry.maxAttempts ≠ 0 ∧ c.http.rateLimit.capacity ≠ 0 ∧
      c.http.rateLimit.tokensPerInterval ≠ 0 ∧ c.http.rateLimit.intervalMs ≠ 0 ∧
      c.http.maxConcurrent ≠ 0 ∧ c.sync.concurrency ≠ 0 := by
  rw [check_eq_ok_iff]
  simp only [ne_eq, ← UInt32.toNat_inj, ← UInt64.toNat_inj]
  constructor
  · intro all
    exact ⟨all .maxAttempts, all .capacity, all .tokensPerInterval, all .intervalMs,
      all .maxConcurrent, all .concurrency⟩
  · rintro ⟨attempts, capacity, tokens, interval, concurrent, concurrency⟩ s
    cases s <;> assumption

/-- What is written of a configuration, without any members, is read as the configuration with the
defaults for these, and with all its members as the configuration itself. What is read is accepted
exactly if the six settings that must be positive are. -/
theorem defaults_overlay (S : Members) (c : Config) :
    (∃ d, readAs decode (compact (c.toJson.without S)) = some d ∧ d = c.overlay S ∧
      (d.check = .ok d ↔ d.http.retry.maxAttempts ≠ 0 ∧ d.http.rateLimit.capacity ≠ 0 ∧
        d.http.rateLimit.tokensPerInterval ≠ 0 ∧ d.http.rateLimit.intervalMs ≠ 0 ∧
        d.http.maxConcurrent ≠ 0 ∧ d.sync.concurrency ≠ 0)) ∧
    readAs decode (compact c.toJson) = some c := by
  have whole := (c.reads_without .none).readAs_compact
  rw [without_none, overlay_none] at whole
  exact ⟨⟨_, (c.reads_without S).readAs_compact, rfl, check_eq_ok_iff_positive _⟩, whole⟩

end Config

end LeagueSync
