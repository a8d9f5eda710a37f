import LeagueSync.Config.Basic

/-!
# LeagueSync.Config.Environment

The environment: a configuration read from it alone, and references to it inside a text.

`Environment.expand` replaces each `${NAME}` once, from left to right, by the value of the
variable. A name is one character or more up to the next closing brace; a reference to a variable
that is not set stays as it is written. What is put in is not looked at again.
-/

namespace LeagueSync

abbrev Environment := List (String × String)

namespace Environment

def get? (env : Environment) (name : String) : Option String :=
  (env.find? (·.1 == name)).map (·.2)

/-- A reference after its `${`: the name, and the text after the closing brace. -/
def reference? (cs : List Char) : Option (List Char × List Char) :=
  let name := cs.takeWhile (· != '}')
  match cs.drop name.length with
  | _ :: rest => if name = [] then none else some (name, rest)
  | [] => none

theorem length_lt_of_reference? {cs name rest : List Char}
    (h : reference? cs = some (name, rest)) : rest.length < cs.length := by
  unfold reference? at h
  simp only at h
  split at h
  · next c tail hd =>
    split at h
    · cases h
    · cases h
      have := congrArg List.length hd
      simp only [List.length_drop, List.length_cons] at this
      omega
  · cases h

def expandChars (env : Environment) (cs : List Char) : List Char :=
  match cs with
  | [] => []
  | '$' :: '{' :: rest =>
    match h : reference? rest with
    | some (name, after) =>
      have := length_lt_of_reference? h
      (match env.get? (String.ofList name) with
        | some value => value.toList
        | none => '$' :: '{' :: name ++ ['}']) ++ expandChars env after
    | none => '$' :: expandChars env ('{' :: rest)
  | c :: rest => c :: expandChars env rest
termination_by cs.length
decreasing_by all_goals simp only [List.length_cons]; omega

def expand (env : Environment) (text : String) : String :=
  String.ofList (expandChars env text.toList)

def references (cs : List Char) : List String :=
  match cs with
  | [] => []
  | '$' :: '{' :: rest =>
    match h : reference? rest with
    | some (name, after) =>
      have := length_lt_of_reference? h
      String.ofList name :: references after
    | none => references ('{' :: rest)
  | _ :: rest => references rest
termination_by cs.length
decreasing_by all_goals simp only [List.length_cons]; omega

/-- A number from a variable, if it is set. -/
def number (env : Environment) (bound : Nat) (name : String) (default : Nat) :
    Except ConfigError Nat :=
  match env.get? name with
  | none => .ok default
  | some value =>
    match Text.unsigned? bound value.toList with
    | some n => .ok n
    | none => .error (.malformed name value)

end Environment

def Config.variables : List String :=
  ["FPL_SYNC_RETRY_ATTEMPTS", "FPL_SYNC_RATE_LIMIT_CAPACITY", "FPL_SYNC_RATE_LIMIT_REFILL_RATE",
    "FPL_SYNC_CACHE_TTL_SECS", "FPL_SYNC_MAX_RETRY_CYCLES", "FPL_SYNC_OTEL_ENABLED",
    "FPL_SYNC_UPSTREAM_BASE_URL", "FPL_SYNC_DATABASE_PATH", "FPL_SYNC_OTEL_ENDPOINT",
    "FPL_SYNC_LOG_LEVEL"]

/-- The configuration that the environment gives, the defaults for what it leaves out. -/
def Config.ofEnvironment (env : Environment) : Except ConfigError Config := do
  let d : Config := {}
  let text (name : String) (default : String) : String := (env.get? name).getD default
  let count32 (name : String) (default : UInt32) : Except ConfigError UInt32 := do
    let n ← env.number UInt32.size name default.toNat
    .ok (UInt32.ofNat n)
  let maxAttempts ← count32 "FPL_SYNC_RETRY_ATTEMPTS" d.http.retry.maxAttempts
  let capacity ← count32 "FPL_SYNC_RATE_LIMIT_CAPACITY" d.http.rateLimit.capacity
  let tokensPerInterval ←
    count32 "FPL_SYNC_RATE_LIMIT_REFILL_RATE" d.http.rateLimit.tokensPerInterval
  let ttlSecs ← env.number UInt64.size "FPL_SYNC_CACHE_TTL_SECS" d.cache.ttlSecs.toNat
  let maxRetryCycles ← count32 "FPL_SYNC_MAX_RETRY_CYCLES" d.sync.maxRetryCycles
  let enabled := match env.get? "FPL_SYNC_OTEL_ENABLED" with
    | some value => value == "true"
    | none => d.telemetry.enabled
  Config.check { d with
    api := { d.api with baseUrl := text "FPL_SYNC_UPSTREAM_BASE_URL" d.api.baseUrl }
    http := { d.http with
      retry := { d.http.retry with maxAttempts }
      rateLimit := { d.http.rateLimit with capacity, tokensPerInterval } }
    cache := { d.cache with ttlSecs := UInt64.ofNat ttlSecs }
    sync := { d.sync with maxRetryCycles }
    database := { d.database with path := text "FPL_SYNC_DATABASE_PATH" d.database.path }
    telemetry := { d.telemetry with
      enabled
      endpoint := (env.get? "FPL_SYNC_OTEL_ENDPOINT").or d.telemetry.endpoint }
    logging := { d.logging with level := text "FPL_SYNC_LOG_LEVEL" d.logging.level } }

end LeagueSync
