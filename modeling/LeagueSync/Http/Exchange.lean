import LeagueSync.Http.Request
import LeagueSync.Time.MailDate

/-!
# LeagueSync.Http.Exchange

What comes back for a request, and what it means. A `Transport` stands for the network and the
server behind it: to each request, by its number, it gives a reply and the time that the reply
takes. `Exchange.outcome` classifies a reply as a response or a failure.
-/

namespace LeagueSync

structure Response where
  status : Nat
  headers : List (String × String)
  body : String
  deriving DecidableEq, Repr

inductive Reply where
  /-- Status and headers, and the body unless the connection broke in it. -/
  | answer (status : Nat) (headers : List (String × String)) (body : Option String)
  /-- The connection gave nothing. -/
  | lost (reason : String)
  deriving DecidableEq, Repr

/-- A reply and the milliseconds after which it is there, or silence. -/
structure Exchange where
  reply? : Option (Nat × Reply)
  deriving DecidableEq, Repr

abbrev Transport := Nat → Request → Exchange

def Transport.unreachable : Transport :=
  fun _ _ => ⟨some (0, .lost "connection refused")⟩

/-- Seconds to wait that a header asks for: a number of seconds, or a date, of which only whole
seconds count that are still to come. -/
def retryAfter? (now : Timestamp) (value : String) : Option Nat :=
  let cs := Text.trimBlanks value.toList
  match Text.unsigned? UInt64.size cs with
  | some n => some n
  | none => (Timestamp.readMail? cs).map fun date => (date.nanosSince now / 1000000000).toNat

/-- The value of the first header with a name, which is in lower case. -/
def headerValue? (name : String) (headers : List (String × String)) : Option String :=
  (headers.find? fun h => h.1.map Char.toLower == name).map (·.2)

/-- What a reply that came in time means. -/
def Reply.outcome (now : Timestamp) : Reply → Except HttpError Response
  | .lost reason => .error (.network reason)
  | .answer status headers body =>
    if 200 ≤ status ∧ status < 300 then
      match body with
      | some body => .ok ⟨status, headers, body⟩
      | none => .error (.network "incomplete body")
    else if status = 429 then
      .error (.rateLimited (((headerValue? "retry-after" headers).filter isPlainHeaderValue).bind
        (retryAfter? now)))
    else if 500 ≤ status ∧ status < 600 then .error (.server status)
    else .error (.client status)

namespace Exchange

/-- The milliseconds that an exchange takes under a time limit. -/
def duration (limit : Nat) (x : Exchange) : Nat :=
  match x.reply? with
  | some (after, _) => min after limit
  | none => limit

/-- What an exchange means under a time limit in milliseconds. -/
def outcome (limit : Nat) (now : Timestamp) (x : Exchange) : Except HttpError Response :=
  match x.reply? with
  | some (after, reply) => if limit ≤ after then .error .timedOut else reply.outcome now
  | none => .error .timedOut

end Exchange
end LeagueSync
