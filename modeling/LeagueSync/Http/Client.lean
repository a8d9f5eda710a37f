import LeagueSync.Http.Exchange
import LeagueSync.Json.Decode
import LeagueSync.Json.Writer
import LeagueSync.Retry.Run
import LeagueSync.Telemetry.Metrics
import LeagueSync.Throttle.Bucket
import LeagueSync.Time.Sleep

/-!
# LeagueSync.Http.Client

The client of the remote interface. Every attempt takes a token of the bucket first, waiting for it
or failing as configured; what was sent is recorded; failures that may pass are attempted again.
A `Link` is what the client works on: the clock, the bucket and the account of what was sent.
Waiting moves the clock and nothing else does, an exchange with the server apart.
-/

namespace LeagueSync

/-- What lies outside the program: the network, the time of day at each moment of the clock, and
the random addition to each wait, by call and attempt. -/
structure Surroundings where
  transport : Transport
  timeOfDay : Nat → Timestamp
  jitter : Nat → Nat → Nat := fun _ _ => 0
  onClock : ∀ now, (timeOfDay now).OnClock := by intro; decide

structure Client where
  baseUrl : String
  policy : Policy
  mode : LimitMode
  timeouts : TimeoutConfig
  /-- How many attempts may be under way at once. -/
  permits : Nat

/-- What a client works on. Times are milliseconds. -/
structure Link where
  now : Nat := 0
  bucket : Bucket
  /-- The number of requests that were sent. -/
  sent : Nat := 0
  /-- The number of calls that were made. -/
  calls : Nat := 0
  records : List RequestRecord := []
  metrics : Metrics := {}

namespace Link

def start (c : RateLimitConfig) (now : Nat) : Link :=
  { now, bucket := .full c now }

def advance (l : Link) (ms : Nat) : Link :=
  { l with now := l.now + ms }

def record (l : Link) (r : RequestRecord) : Link :=
  { l with sent := l.sent + 1, records := l.records ++ [r], metrics := l.metrics.addRequest r }

end Link

/-- The refusal of the bucket as a failed attempt. -/
def Refusal.error (r : Refusal) : HttpError :=
  .throttled (.ofNat r.remaining) r.nextIn

def dropEndSlashes (s : String) : String :=
  String.ofList (s.toList.reverse.dropWhile (· == '/')).reverse

def RequestRecord.ofResult (call : Call) (attempt duration : Nat)
    (result : Except HttpError Response) : RequestRecord where
  path := call.path
  method := call.method
  attempt := attempt
  duration := duration * 1000000
  status := match result with
    | .ok response => some response.status
    | .error e => e.status
  error := match result with
    | .ok _ => none
    | .error e => some e.kind

def Response.decode {α : Type} (decode : Json.Tree → Option α) (r : Response) : Except HttpError α :=
  match (Json.Tree.read? r.body).bind decode with
  | some a => .ok a
  | none => .error (.undecodable "unexpected body")

namespace Client

def ofConfig (api : ApiConfig) (http : HttpConfig) : Except HttpError Client :=
  if isHeaderValue api.userAgent then
    .ok {
      baseUrl := dropEndSlashes api.baseUrl
      policy := .ofConfig http.retry
      mode := http.rateLimit.mode
      timeouts := http.timeouts
      permits := max 1 http.maxConcurrent.toNat }
  else .error (.invalid .userAgent)

/-- Takes a token. A client that waits sleeps, once or more often, until the next refill and asks
again; that answer stands, which a bucket that refills at all never refuses. -/
def takeToken (mode : LimitMode) (l : Link) : Except HttpError Unit × Link :=
  match l.bucket.take l.now 1 with
  | (.ok (), bucket) => (.ok (), { l with bucket })
  | (.error refusal, bucket) =>
    match mode with
    | .failFast => (.error refusal.error, { l with bucket })
    | .wait =>
      let now := bucket.due
      match bucket.take now 1 with
      | (.ok (), bucket) => (.ok (), { l with now, bucket })
      | (.error refusal, bucket) => (.error refusal.error, { l with now, bucket })

/-- The milliseconds that an attempt of a call may take. -/
def limit (c : Client) (call : Call) : Nat :=
  c.timeouts.seconds call.limit * 1000

def send (c : Client) (env : Surroundings) (call : Call) (request : Request) (attempt : Nat)
    (l : Link) : Except HttpError Response × Link :=
  let exchange := env.transport l.sent request
  let duration := exchange.duration (c.limit call)
  let result := exchange.outcome (c.limit call) (env.timeOfDay (l.now + duration))
  (result, (l.advance duration).record (.ofResult call attempt duration result))

/-- One attempt: a token, and then the exchange. -/
def attempt (c : Client) (env : Surroundings) (call : Call) (request : Request) (n : Nat)
    (l : Link) : Except HttpError Response × Link :=
  match takeToken c.mode l with
  | (.error e, l) => (.error e, l)
  | (.ok (), l) => c.send env call request n l

/-- Makes a call, with as many attempts as the policy allows. -/
def request (c : Client) (env : Surroundings) (call : Call) (l : Link) :
    Except HttpError Response × Link :=
  match call.resolve? c.baseUrl with
  | .error fault => (.error (.invalid fault), l)
  | .ok request =>
    c.policy.run (fun ms l => l.advance (slept ms)) (env.jitter l.calls)
      (c.attempt env call request) { l with calls := l.calls + 1 }

def fetch {α : Type} (c : Client) (env : Surroundings) (decode : Json.Tree → Option α) (call : Call)
    (l : Link) : Except HttpError α × Link :=
  let (result, l) := c.request env call l
  (result.bind (Response.decode decode), l)

def describe (c : Client) (available : Nat) : String :=
  let mode := match c.mode with
    | .wait => "Wait"
    | .failFast => "FailFast"
  "ResilientClient \x7b base_url: " ++ String.ofList (Json.quoted c.baseUrl) ++ ", mode: " ++ mode ++
    s!", available_permits: {available} \x7d"

end Client
end LeagueSync
