import LeagueSync.Text.Numeral
import LeagueSync.Text.Segments

/-!
# LeagueSync.Telemetry.Route

Labels of requests that take few values: the path with its numeric segments replaced, and the
class of the status.
-/

namespace LeagueSync

def segmentLabel (s : List Char) : List Char :=
  if s ≠ [] ∧ s.all Text.isDigit then "\x7bid\x7d".toList else s

/-- The path with a placeholder for each segment that is a number. -/
def routeLabel (path : List Char) : List Char :=
  joinSegments ((segments path).map segmentLabel)

/-- The class of a status, such as `4xx`. -/
def statusClass : Option Nat → String
  | some status => s!"{status / 100}xx"
  | none => "none"

end LeagueSync
