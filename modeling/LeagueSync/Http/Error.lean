import LeagueSync.Double.Shortest

/-!
# LeagueSync.Http.Error

Why a request to the remote interface failed. Every error belongs to one of five failure kinds,
may carry the status that was answered, and is or is not worth another attempt.
-/

namespace LeagueSync

inductive FailureKind where
  | network
  | timeout
  | clientError
  | serverError
  | rateLimited
  deriving DecidableEq, Repr

def FailureKind.name : FailureKind → String
  | network => "network"
  | timeout => "timeout"
  | clientError => "client_error"
  | serverError => "server_error"
  | rateLimited => "rate_limited"

def FailureKind.ofName? (s : String) : Option FailureKind :=
  [network, timeout, clientError, serverError, rateLimited].find? fun k => k.name == s

/-- What is wrong with a request that is not sent. -/
inductive RequestFault where
  | emptyPath
  | headerName (name : String)
  | headerValue
  /-- The body has no JSON text. -/
  | body
  /-- The user agent is no header value, so there is no client. -/
  | userAgent
  | stated (reason : String)
  deriving DecidableEq, Repr, Inhabited

def RequestFault.message : RequestFault → String
  | emptyPath => "empty request path"
  | headerName name => "Invalid header name " ++ name ++ ": invalid HTTP header name"
  | headerValue => "Invalid header value: failed to parse header value"
  | body => "Unserializable request body: key must be a string"
  | userAgent => "Failed to build HTTP client: builder error"
  | stated reason => reason

inductive HttpError where
  | invalid (fault : RequestFault)
  /-- The connection gave no answer. -/
  | network (reason : String)
  | timedOut
  | client (status : Nat)
  | server (status : Nat)
  /-- Status 429, with the number of seconds after which the server wants to be asked again. -/
  | rateLimited (retryAfter : Option Nat)
  /-- The token bucket refused: tokens left, and milliseconds to the next refill. -/
  | throttled (remaining : Double) (nextIn : Nat)
  | exhausted (attempts : Nat) (last : HttpError)
  /-- The body of a successful answer is no JSON text of the expected value. -/
  | undecodable (reason : String)
  deriving DecidableEq, Repr, Inhabited

namespace HttpError

def kind : HttpError → FailureKind
  | network _ => .network
  | timedOut => .timeout
  | server _ => .serverError
  | rateLimited _ => .rateLimited
  | throttled _ _ => .rateLimited
  | exhausted _ last => last.kind
  | invalid _ => .clientError
  | client _ => .clientError
  | undecodable _ => .clientError

/-- The status that was answered, if any. -/
def status : HttpError → Option Nat
  | client status => some status
  | server status => some status
  | rateLimited _ => some 429
  | exhausted _ last => last.status
  | _ => none

def isRetryable : HttpError → Bool
  | network _ => true
  | timedOut => true
  | server _ => true
  | rateLimited _ => true
  | throttled _ _ => true
  | invalid _ => false
  | client _ => false
  | undecodable _ => false
  | exhausted _ _ => false

/-- Seconds to wait, or `None`. -/
def retryAfterText : Option Nat → String
  | some n => s!"Some({n})"
  | none => "None"

def message : HttpError → String
  | invalid fault => "Invalid request: " ++ fault.message
  | network reason => "Network error: " ++ reason
  | timedOut => "Request timed out"
  | client status => s!"Client error: HTTP {status}"
  | server status => s!"Server error: HTTP {status}"
  | rateLimited retryAfter =>
    "Rate limited by upstream (retry after " ++ retryAfterText retryAfter ++ "s)"
  | throttled remaining nextIn =>
    "Rate limit exceeded: " ++ remaining.positional .up ++
      s!" tokens remaining, next refill in {nextIn}ms"
  | exhausted attempts last => s!"Retries exhausted after {attempts} attempts: " ++ last.message
  | undecodable reason => "Failed to decode response: " ++ reason

end HttpError
end LeagueSync
