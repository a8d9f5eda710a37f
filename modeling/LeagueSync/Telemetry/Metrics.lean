import LeagueSync.Double.Basic
import LeagueSync.Http.Error
import LeagueSync.Json.Basic
import LeagueSync.Table
import LeagueSync.Telemetry.Route

/-!
# LeagueSync.Telemetry.Metrics

What the program counts about itself. Each instrument is a table from labels to a count, or to the
number and sum of measured durations. `Metrics.series` lists everything that received a value,
under the names by which it is exported.
-/

namespace LeagueSync

/-- One attempt that was sent. -/
structure RequestRecord where
  path : String
  method : String
  attempt : Nat
  /-- Nanoseconds from sending to the end of the answer. -/
  duration : Nat
  status : Option Nat
  error : Option FailureKind
  deriving DecidableEq

/-- Writes an attempt without its duration. -/
def RequestRecord.toJson (r : RequestRecord) : Json :=
  .obj [("attempt", .ofNat r.attempt), ("error", .ofOption (fun k => .str k.name) r.error),
    ("method", .str r.method), ("path", .str r.path), ("status", .ofOption .ofNat r.status)]

structure RequestLabels where
  method : String
  route : String
  statusClass : String
  outcome : String
  deriving DecidableEq

structure DurationLabels where
  method : String
  route : String
  deriving DecidableEq

/-- The labels of counted entries of a job. -/
structure EntryLabels where
  source : String
  succeeded : Bool
  deriving DecidableEq

/-- A duration in seconds: the whole seconds and the rest are rounded on their own. -/
def secondsOf (nanoseconds : Nat) : Double :=
  .ofNat (nanoseconds / 1000000000) + .ofNat (nanoseconds % 1000000000) / .ofNat 1000000000

/-- Measured durations in seconds. The sum is rounded after each of them. -/
structure Durations where
  count : Nat := 0
  sum : Double := .zero
  deriving DecidableEq

namespace Table

variable {κ : Type} [DecidableEq κ]

def count (t : Table κ Nat) (k : κ) (n : Nat) : Table κ Nat :=
  t.put k ((t.get? k).getD 0 + n)

def total (t : Table κ Nat) (k : κ) : Nat :=
  (t.get? k).getD 0

def measure (t : Table κ Durations) (k : κ) (duration : Double) :
    Table κ Durations :=
  let d := (t.get? k).getD {}
  t.put k ⟨d.count + 1, d.sum + duration⟩

theorem total_count (t : Table κ Nat) (k k' : κ) (n : Nat) :
    (t.count k n).total k' = t.total k' + if k' = k then n else 0 := by
  unfold total count
  rw [get?_put]
  by_cases h : k' = k <;> simp [h]

end Table

structure Metrics where
  requests : Table RequestLabels Nat := .empty
  requestDurations : Table DurationLabels Durations := .empty
  cacheHits : Table String Nat := .empty
  cacheMisses : Table String Nat := .empty
  entries : Table EntryLabels Nat := .empty
  jobDurations : Table String Durations := .empty
  retryJobs : Table Nat Nat := .empty

/-- What was measured for one set of labels. -/
inductive Reading where
  | counter (value : Nat)
  | histogram (durations : Durations)
  deriving DecidableEq

structure Point where
  labels : List (String × String)
  reading : Reading
  deriving DecidableEq

structure Series where
  name : String
  points : List Point

namespace Metrics

def addRequest (m : Metrics) (r : RequestRecord) : Metrics :=
  let route := String.ofList (routeLabel r.path.toList)
  let outcome := match r.error with
    | some kind => kind.name
    | none => "success"
  { m with
    requests := m.requests.count ⟨r.method, route, statusClass r.status, outcome⟩ 1
    requestDurations := m.requestDurations.measure ⟨r.method, route⟩ (secondsOf r.duration) }

def addCacheHit (m : Metrics) (space : String) : Metrics :=
  { m with cacheHits := m.cacheHits.count space 1 }

def addCacheMiss (m : Metrics) (space : String) : Metrics :=
  { m with cacheMisses := m.cacheMisses.count space 1 }

/-- Counts the entries of an executed job that took so many seconds. -/
def addJob (m : Metrics) (source : String) (succeeded failed : Nat) (duration : Double) :
    Metrics :=
  { m with
    entries := (m.entries.count ⟨source, true⟩ succeeded).count ⟨source, false⟩ failed
    jobDurations := m.jobDurations.measure source duration }

def addRetryJob (m : Metrics) (retryCount : Nat) : Metrics :=
  { m with retryJobs := m.retryJobs.count retryCount 1 }

/-- The points of a counter, of which 64 bits are exported. -/
def counterPoints {κ : Type} (labels : κ → List (String × String)) (t : Table κ Nat) :
    List Point :=
  t.rows.map fun row => ⟨labels row.1, .counter (row.2 % UInt64.size)⟩

def histogramPoints {κ : Type} (labels : κ → List (String × String)) (t : Table κ Durations) :
    List Point :=
  t.rows.map fun row => ⟨labels row.1, .histogram row.2⟩

/-- All instruments that received a value, by exported name. -/
def series (m : Metrics) : List Series :=
  let all : List Series := [
    ⟨"fpl_sync_cache_hits_total", counterPoints (fun s => [("namespace", s)]) m.cacheHits⟩,
    ⟨"fpl_sync_cache_misses_total", counterPoints (fun s => [("namespace", s)]) m.cacheMisses⟩,
    ⟨"fpl_sync_entities_total", counterPoints
      (fun l => [("outcome", if l.succeeded then "succeeded" else "failed"), ("source", l.source)])
      m.entries⟩,
    ⟨"fpl_sync_job_duration_seconds", histogramPoints (fun s => [("source", s)]) m.jobDurations⟩,
    ⟨"fpl_sync_retry_jobs_total",
      counterPoints (fun n => [("retry_count", toString n)]) m.retryJobs⟩,
    ⟨"fpl_sync_upstream_duration_seconds", histogramPoints
      (fun l => [("method", l.method), ("route", l.route)]) m.requestDurations⟩,
    ⟨"fpl_sync_upstream_requests_total", counterPoints
      (fun l => [("method", l.method), ("outcome", l.outcome), ("route", l.route),
        ("status_class", l.statusClass)]) m.requests⟩]
  all.filter (!·.points.isEmpty)

end Metrics
end LeagueSync
