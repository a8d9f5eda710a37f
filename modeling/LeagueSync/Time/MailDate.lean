import LeagueSync.Time.Reader

/-!
# LeagueSync.Time.MailDate

Dates as mail and web headers write them: an optional day of the week, day, month by name, year,
time of day and offset. A day of the week that is given must be the right one.
-/

namespace LeagueSync
namespace Timestamp

open Text

def someBlanks? : List Char → Option (List Char)
  | c :: rest => if isBlank c then some (skipBlanks rest) else none
  | [] => none

/-- The first three letters in lower case, as an index into a list of names, and the rest. -/
def shortName? (names : List String) (cs : List Char) : Option (Nat × List Char) :=
  let name := String.ofList ((cs.take 3).map Char.toLower)
  (names.findIdx? (· == name)).map fun n => (n, cs.drop 3)

def dayNames : List String := ["mon", "tue", "wed", "thu", "fri", "sat", "sun"]

def monthNames : List String :=
  ["jan", "feb", "mar", "apr", "may", "jun", "jul", "aug", "sep", "oct", "nov", "dec"]

def dayName? (cs : List Char) : Option (Option Nat × List Char) :=
  match shortName? dayNames cs with
  | some (day, rest) => (char? ',' rest).map fun rest => (some day, skipBlanks rest)
  | none => some (none, cs)

/-- A year of two to four digits. Two digits are of this century below fifty, else of the last one;
three count from 1900. -/
def mailYear? (cs : List Char) : Option (Nat × List Char) := do
  let (n, rest) ← number? 2 cs.length cs
  match cs.length - rest.length with
  | 2 => some (if n < 50 then n + 2000 else n + 1900, rest)
  | 3 => some (n + 1900, rest)
  | _ => some (n, rest)

/-- Hours to the west of named zones. -/
def zoneHours? (name : String) : Option Int :=
  match name with
  | "ut" => some 0
  | "utc" => some 0
  | "gmt" => some 0
  | "z" => some 0
  | "edt" => some (-4)
  | "est" => some (-5)
  | "cdt" => some (-5)
  | "cst" => some (-6)
  | "mdt" => some (-6)
  | "mst" => some (-7)
  | "pdt" => some (-7)
  | "pst" => some (-8)
  | _ => none

/-- An offset in seconds: a sign and four digits, or a name. -/
def mailOffset? (cs : List Char) : Option (Int × List Char) :=
  let word := cs.takeWhile Char.isAlpha
  if word = [] then offset? some cs
  else do
    let hours ← zoneHours? (String.ofList (word.map Char.toLower))
    some (hours * 3600, cs.drop word.length)

def optionalSecond? (cs : List Char) : Option (Nat × List Char) :=
  match skipBlanks cs with
  | ':' :: rest => number? 2 2 (skipBlanks rest)
  | _ => some (0, cs)

def readMail? (cs : List Char) : Option Timestamp := do
  let (dayName, cs) ← dayName? (skipBlanks cs)
  let (day, cs) ← number? 1 2 cs
  let cs ← someBlanks? cs
  let (month, cs) ← shortName? monthNames cs
  let cs ← someBlanks? cs
  let (year, cs) ← mailYear? cs
  let cs ← someBlanks? cs
  let (hour, cs) ← number? 2 2 cs
  let cs ← char? ':' (skipBlanks cs)
  let (minute, cs) ← number? 2 2 (skipBlanks cs)
  let (second, cs) ← optionalSecond? cs
  let cs ← someBlanks? cs
  let (offset, cs) ← mailOffset? cs
  let date ← Date.ofParts? year (month + 1) day
  if cs ≠ [] then none
  else if dayName.any (· != date.weekday) then none
  else ofParts? year (month + 1) day hour minute second 0 offset

end Timestamp
end LeagueSync
