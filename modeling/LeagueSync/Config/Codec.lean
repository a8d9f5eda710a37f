import LeagueSync.Config.Basic
import LeagueSync.Document

/-!
# LeagueSync.Config.Codec

Configurations in documents. `decode` reads a section from its fields, each with the default of
`Config.Basic`; `toJson` writes all fields in the order of their declaration. Both name the
fields through the same lists.
-/

namespace LeagueSync

variable {α : Type} [Document α]

def count32 (node : α) : Option UInt32 :=
  match Document.natural node with
  | some n => if n < UInt32.size then some (UInt32.ofNat n) else none
  | none => none

def count64 (node : α) : Option UInt64 :=
  match Document.natural node with
  | some n => if n < UInt64.size then some (UInt64.ofNat n) else none
  | none => none

def LimitMode.decode (node : α) : Option LimitMode :=
  (Document.word node).bind ofName?

namespace ApiConfig

def fields : List String := ["base_url", "user_agent"]

def decode (node : α) : Option ApiConfig := do
  let s ← Document.slots fields node
  let d : ApiConfig := {}
  let baseUrl ← s.defaulted "base_url" Document.text d.baseUrl
  let userAgent ← s.defaulted "user_agent" Document.text d.userAgent
  some { baseUrl, userAgent }

def toJson (c : ApiConfig) : Json :=
  .obj [("base_url", .str c.baseUrl), ("user_agent", .str c.userAgent)]

end ApiConfig

namespace TimeoutConfig

def fields : List String := ["short_secs", "default_secs", "long_secs"]

def decode (node : α) : Option TimeoutConfig := do
  let s ← Document.slots fields node
  let d : TimeoutConfig := {}
  let short ← s.defaulted "short_secs" count64 d.short
  let standard ← s.defaulted "default_secs" count64 d.standard
  let long ← s.defaulted "long_secs" count64 d.long
  some { short, standard, long }

def toJson (c : TimeoutConfig) : Json :=
  .obj [("short_secs", .ofNat c.short.toNat), ("default_secs", .ofNat c.standard.toNat),
    ("long_secs", .ofNat c.long.toNat)]

end TimeoutConfig

namespace RetryConfig

def fields : List String :=
  ["max_attempts", "base_delay_ms", "max_delay_ms", "jitter_max_ms", "max_retry_after_secs"]

def decode (node : α) : Option RetryConfig := do
  let s ← Document.slots fields node
  let d : RetryConfig := {}
  let maxAttempts ← s.defaulted "max_attempts" count32 d.maxAttempts
  let baseDelayMs ← s.defaulted "base_delay_ms" count64 d.baseDelayMs
  let maxDelayMs ← s.defaulted "max_delay_ms" count64 d.maxDelayMs
  let jitterMaxMs ← s.defaulted "jitter_max_ms" count64 d.jitterMaxMs
  let maxRetryAfterSecs ← s.defaulted "max_retry_after_secs" count64 d.maxRetryAfterSecs
  some { maxAttempts, baseDelayMs, maxDelayMs, jitterMaxMs, maxRetryAfterSecs }

def toJson (c : RetryConfig) : Json :=
  .obj [("max_attempts", .ofNat c.maxAttempts.toNat), ("base_delay_ms", .ofNat c.baseDelayMs.toNat),
    ("max_delay_ms", .ofNat c.maxDelayMs.toNat), ("jitter_max_ms", .ofNat c.jitterMaxMs.toNat),
    ("max_retry_after_secs", .ofNat c.maxRetryAfterSecs.toNat)]

end RetryConfig

namespace RateLimitConfig

def fields : List String := ["capacity", "tokens_per_interval", "interval_ms", "mode"]

def decode (node : α) : Option RateLimitConfig := do
  let s ← Document.slots fields node
  let d : RateLimitConfig := {}
  let capacity ← s.defaulted "capacity" count32 d.capacity
  let tokensPerInterval ← s.defaulted "tokens_per_interval" count32 d.tokensPerInterval
  let intervalMs ← s.defaulted "interval_ms" count64 d.intervalMs
  let mode ← s.defaulted "mode" LimitMode.decode d.mode
  some { capacity, tokensPerInterval, intervalMs, mode }

def toJson (c : RateLimitConfig) : Json :=
  .obj [("capacity", .ofNat c.capacity.toNat),
    ("tokens_per_interval", .ofNat c.tokensPerInterval.toNat),
    ("interval_ms", .ofNat c.intervalMs.toNat), ("mode", .str c.mode.name)]

end RateLimitConfig

namespace HttpConfig

def fields : List String := ["timeouts", "retry", "rate_limit", "max_concurrent"]

def decode (node : α) : Option HttpConfig := do
  let s ← Document.slots fields node
  let d : HttpConfig := {}
  let timeouts ← s.defaulted "timeouts" TimeoutConfig.decode d.timeouts
  let retry ← s.defaulted "retry" RetryConfig.decode d.retry
  let rateLimit ← s.defaulted "rate_limit" RateLimitConfig.decode d.rateLimit
  let maxConcurrent ← s.defaulted "max_concurrent" count64 d.maxConcurrent
  some { timeouts, retry, rateLimit, maxConcurrent }

def toJson (c : HttpConfig) : Json :=
  .obj [("timeouts", c.timeouts.toJson), ("retry", c.retry.toJson),
    ("rate_limit", c.rateLimit.toJson), ("max_concurrent", .ofNat c.maxConcurrent.toNat)]

end HttpConfig

namespace CacheConfig

def fields : List String := ["prefix", "ttl_secs", "event_ttl_secs"]

def decode (node : α) : Option CacheConfig := do
  let s ← Document.slots fields node
  let d : CacheConfig := {}
  let keyPrefix ← s.defaulted "prefix" Document.text d.keyPrefix
  let ttlSecs ← s.defaulted "ttl_secs" count64 d.ttlSecs
  let eventTtlSecs ← s.defaulted "event_ttl_secs" count64 d.eventTtlSecs
  some { keyPrefix, ttlSecs, eventTtlSecs }

def toJson (c : CacheConfig) : Json :=
  .obj [("prefix", .str c.keyPrefix), ("ttl_secs", .ofNat c.ttlSecs.toNat),
    ("event_ttl_secs", .ofNat c.eventTtlSecs.toNat)]

end CacheConfig

namespace ScheduleConfig

def fields : List String := ["enabled", "interval_secs", "initial_delay_secs", "jitter_secs"]

def decode (node : α) : Option ScheduleConfig := do
  let s ← Document.slots fields node
  let d : ScheduleConfig := {}
  let enabled ← s.defaulted "enabled" Document.flag d.enabled
  let intervalSecs ← s.defaulted "interval_secs" count64 d.intervalSecs
  let initialDelaySecs ← s.defaulted "initial_delay_secs" count64 d.initialDelaySecs
  let jitterSecs ← s.defaulted "jitter_secs" count64 d.jitterSecs
  some { enabled, intervalSecs, initialDelaySecs, jitterSecs }

def toJson (c : ScheduleConfig) : Json :=
  .obj [("enabled", .bool c.enabled), ("interval_secs", .ofNat c.intervalSecs.toNat),
    ("initial_delay_secs", .ofNat c.initialDelaySecs.toNat),
    ("jitter_secs", .ofNat c.jitterSecs.toNat)]

end ScheduleConfig

namespace SyncConfig

def fields : List String := ["max_retry_cycles", "concurrency", "queue_capacity", "schedule"]

def decode (node : α) : Option SyncConfig := do
  let s ← Document.slots fields node
  let d : SyncConfig := {}
  let maxRetryCycles ← s.defaulted "max_retry_cycles" count32 d.maxRetryCycles
  let concurrency ← s.defaulted "concurrency" count64 d.concurrency
  let queueCapacity ← s.defaulted "queue_capacity" count64 d.queueCapacity
  let schedule ← s.defaulted "schedule" ScheduleConfig.decode d.schedule
  some { maxRetryCycles, concurrency, queueCapacity, schedule }

def toJson (c : SyncConfig) : Json :=
  .obj [("max_retry_cycles", .ofNat c.maxRetryCycles.toNat),
    ("concurrency", .ofNat c.concurrency.toNat), ("queue_capacity", .ofNat c.queueCapacity.toNat),
    ("schedule", c.schedule.toJson)]

end SyncConfig

namespace DatabaseConfig

def fields : List String := ["path"]

def decode (node : α) : Option DatabaseConfig := do
  let s ← Document.slots fields node
  let d : DatabaseConfig := {}
  let path ← s.defaulted "path" Document.text d.path
  some { path }

def toJson (c : DatabaseConfig) : Json :=
  .obj [("path", .str c.path)]

end DatabaseConfig

namespace TelemetryConfig

def fields : List String := ["enabled", "endpoint", "service_name"]

def decode (node : α) : Option TelemetryConfig := do
  let s ← Document.slots fields node
  let d : TelemetryConfig := {}
  let enabled ← s.defaulted "enabled" Document.flag d.enabled
  let endpoint ← s.optional "endpoint" Document.optionalText
  let serviceName ← s.defaulted "service_name" Document.text d.serviceName
  some { enabled, endpoint, serviceName }

def toJson (c : TelemetryConfig) : Json :=
  .obj [("enabled", .bool c.enabled), ("endpoint", .ofOption .str c.endpoint),
    ("service_name", .str c.serviceName)]

end TelemetryConfig

namespace LoggingConfig

def fields : List String := ["level", "format"]

def decode (node : α) : Option LoggingConfig := do
  let s ← Document.slots fields node
  let d : LoggingConfig := {}
  let level ← s.defaulted "level" Document.text d.level
  let format ← s.defaulted "format" Document.text d.format
  some { level, format }

def toJson (c : LoggingConfig) : Json :=
  .obj [("level", .str c.level), ("format", .str c.format)]

end LoggingConfig

namespace Config

def fields : List String :=
  ["upstream", "http", "cache", "sync", "database", "otel", "logging"]

def decode (node : α) : Option Config := do
  let s ← Document.slots fields node
  let d : Config := {}
  let api ← s.defaulted "upstream" ApiConfig.decode d.api
  let http ← s.defaulted "http" HttpConfig.decode d.http
  let cache ← s.defaulted "cache" CacheConfig.decode d.cache
  let sync ← s.defaulted "sync" SyncConfig.decode d.sync
  let database ← s.defaulted "database" DatabaseConfig.decode d.database
  let telemetry ← s.defaulted "otel" TelemetryConfig.decode d.telemetry
  let logging ← s.defaulted "logging" LoggingConfig.decode d.logging
  some { api, http, cache, sync, database, telemetry, logging }

def toJson (c : Config) : Json :=
  .obj [("upstream", c.api.toJson), ("http", c.http.toJson), ("cache", c.cache.toJson),
    ("sync", c.sync.toJson), ("database", c.database.toJson), ("otel", c.telemetry.toJson),
    ("logging", c.logging.toJson)]

end Config
end LeagueSync
