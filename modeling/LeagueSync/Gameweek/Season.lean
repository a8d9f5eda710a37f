import LeagueSync.Time.Timestamp

/-!
# LeagueSync.Gameweek.Season

Seasons run from July to June and are named by the last two digits of the years in which they start
and end.
-/

namespace LeagueSync

/-- The year in which the season of a day started. -/
def seasonStart (d : Date) : Int :=
  if 7 ≤ d.month then d.year else d.year - 1

/-- A number in at least two places, the sign counted. -/
def twoPlaces (n : Int) : List Char :=
  if 0 ≤ n then Text.padded 2 n.toNat else '-' :: Text.padded 1 n.natAbs

def seasonName (start : Int) : String :=
  String.ofList (twoPlaces (start.tmod 100) ++ twoPlaces ((start + 1).tmod 100))

def seasonOf (d : Date) : String :=
  seasonName (seasonStart d)

end LeagueSync
