import LeagueSync.Text.Blank
import LeagueSync.Time.Timestamp

/-!
# LeagueSync.Time.Reader

Three readers of timestamps, over lists of characters.

* `Timestamp.readLenient?` reads the timestamps of JSON texts: blanks may stand in front of each
  field and around the whole, fields may be one digit long, the offset is required.
* `Timestamp.readStrict?` reads the internet format with fixed widths, which the database is
  written in.
* `Timestamp.readPlain?` reads a date and a time of universal time with a gap between them.

Each is built from readers of one field that return the rest of the text.
-/

namespace LeagueSync
namespace Timestamp

open Text

/-- At least `least` and at most `most` digits, as a number, and the rest. -/
def number? (least most : Nat) (cs : List Char) : Option (Nat × List Char) :=
  let ds := (cs.take most).takeWhile isDigit
  if least ≤ ds.length ∧ ds ≠ [] then some (digitsValue ds, cs.drop ds.length) else none

/-- A year: four digits at most without a sign, any number of them with one. -/
def year? (cs : List Char) : Option (Int × List Char) :=
  match cs with
  | '-' :: rest => (number? 1 rest.length rest).map fun (n, cs) => (-(n : Int), cs)
  | '+' :: rest => (number? 1 rest.length rest).map fun (n, cs) => ((n : Int), cs)
  | cs => (number? 1 4 cs).map fun (n, cs) => ((n : Int), cs)

def char? (c : Char) : List Char → Option (List Char)
  | d :: rest => if d = c then some rest else none
  | [] => none

/-- An optional fraction, in nanoseconds; digits after the ninth are read and dropped. -/
def fraction? (cs : List Char) : Option (Nat × List Char) :=
  match cs with
  | '.' :: rest =>
    let ds := rest.takeWhile isDigit
    if ds = [] then none
    else
      let kept := ds.take 9
      some (digitsValue kept * Nat.pow 10 (9 - kept.length), rest.drop ds.length)
  | cs => some (0, cs)

/-- Two digits, both read even when they are too large to be a number of the field. -/
def twoDigits? : List Char → Option (Nat × List Char)
  | a :: b :: rest => if isDigit a ∧ isDigit b then some (digitsValue [a, b], rest) else none
  | _ => none

/-- Hours, a separator and minutes, in seconds with a sign. -/
def signedOffset? (separator : List Char → Option (List Char)) (sign : Int) (cs : List Char) :
    Option (Int × List Char) := do
  let (hours, rest) ← twoDigits? cs
  let rest ← separator rest
  let (minutes, rest) ← twoDigits? rest
  if minutes < 60 ∧ hours < 24 then some (sign * (hours * 3600 + minutes * 60), rest) else none

/-- An offset in seconds: `Z`, or a sign and what comes after it. The sign may be the typographic
minus. -/
def offset? (separator : List Char → Option (List Char)) (cs : List Char) :
    Option (Int × List Char) :=
  match cs with
  | 'Z' :: rest => some (0, rest)
  | 'z' :: rest => some (0, rest)
  | '+' :: rest => signedOffset? separator 1 rest
  | '-' :: rest => signedOffset? separator (-1) rest
  | '\u2212' :: rest => signedOffset? separator (-1) rest
  | _ => none

/-- Blanks and colons between hours and minutes, any number of them. -/
def looseSeparator (cs : List Char) : Option (List Char) :=
  some (cs.dropWhile fun c => c == ':' || isBlank c)

def dateTimeGap? : List Char → Option (List Char)
  | c :: rest => if c = 'T' ∨ c = 't' ∨ c = ' ' then some rest else none
  | [] => none

def ofParts? (year : Int) (month day hour minute second nano : Nat) (offset : Int) :
    Option Timestamp := do
  let date ← Date.ofParts? year month day
  let clock ← ofClock? date hour minute second nano
  clock.atOffset? offset

def looseField? (cs : List Char) : Option (Nat × List Char) :=
  number? 1 2 (skipBlanks cs)

def looseChar? (c : Char) (cs : List Char) : Option (List Char) :=
  char? c (skipBlanks cs)

/-- Universal time by name, in any letters, or else an offset. -/
def looseOffset? (cs : List Char) : Option (Int × List Char) :=
  if (cs.take 3).map Char.toLower = ['u', 't', 'c'] then some (0, cs.drop 3)
  else offset? looseSeparator cs

def readLenient? (cs : List Char) : Option Timestamp := do
  let (year, cs) ← year? (skipBlanks cs)
  let cs ← looseChar? '-' cs
  let (month, cs) ← looseField? cs
  let cs ← looseChar? '-' cs
  let (day, cs) ← looseField? cs
  let cs ← dateTimeGap? cs
  let (hour, cs) ← looseField? cs
  let cs ← looseChar? ':' cs
  let (minute, cs) ← looseField? cs
  let cs ← looseChar? ':' cs
  let (second, cs) ← looseField? cs
  let (nano, cs) ← fraction? cs
  let (offset, cs) ← looseOffset? (skipBlanks cs)
  if skipBlanks cs = [] then ofParts? year month day hour minute second nano offset else none

/-- Reads the internet format, every field in full width. -/
def readStrict? (cs : List Char) : Option Timestamp := do
  let (year, cs) ← number? 4 4 cs
  let cs ← char? '-' cs
  let (month, cs) ← number? 2 2 cs
  let cs ← char? '-' cs
  let (day, cs) ← number? 2 2 cs
  let cs ← dateTimeGap? cs
  let (hour, cs) ← number? 2 2 cs
  let cs ← char? ':' cs
  let (minute, cs) ← number? 2 2 cs
  let cs ← char? ':' cs
  let (second, cs) ← number? 2 2 cs
  let (nano, cs) ← fraction? cs
  let (offset, cs) ← offset? (char? ':') cs
  if cs = [] then ofParts? year month day hour minute second nano offset else none

def readPlain? (cs : List Char) : Option Timestamp := do
  let (year, cs) ← year? (skipBlanks cs)
  let cs ← char? '-' cs
  let (month, cs) ← looseField? cs
  let cs ← char? '-' cs
  let (day, cs) ← looseField? cs
  let (hour, cs) ← looseField? cs
  let cs ← char? ':' cs
  let (minute, cs) ← looseField? cs
  let cs ← char? ':' cs
  let (second, cs) ← looseField? cs
  if cs = [] then ofParts? year month day hour minute second 0 0 else none

/-- Reads a stored timestamp: the internet format, or else the plain one. -/
def readStored? (cs : List Char) : Option Timestamp :=
  (readStrict? cs).or (readPlain? cs)

end Timestamp
end LeagueSync
