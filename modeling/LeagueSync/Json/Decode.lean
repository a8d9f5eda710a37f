import LeagueSync.Document
import LeagueSync.Json.Reader
import LeagueSync.Time.Reader

/-!
# LeagueSync.Json.Decode

What the parts of a record are in a JSON text: integers in a range, texts, lists, timestamps, and
the fields of an object or the items of an array in the same order. JSON is a `Document`.
-/

namespace LeagueSync
namespace Json
namespace Tree

def integer (low high : Int) : Tree → Option Int
  | number n =>
    match n.int? with
    | some i => if low ≤ i ∧ i ≤ high then some i else none
    | none => none
  | _ => none

def naturalBelow (bound : Nat) (t : Tree) : Option Nat :=
  (integer 0 (bound - 1) t).map Int.toNat

def int64 (t : Tree) : Option Int64 :=
  (integer Int64.minValue.toInt Int64.maxValue.toInt t).map Int64.ofInt

def int32 (t : Tree) : Option Int32 :=
  (integer Int32.minValue.toInt Int32.maxValue.toInt t).map Int32.ofInt

def string : Tree → Option String
  | text s => s
  | _ => none

def boolean : Tree → Option Bool
  | bool b => some b
  | _ => none

def timestamp (t : Tree) : Option Timestamp := do
  let s ← t.string
  Timestamp.readLenient? s.toList

def nullable {α : Type} (decode : Tree → Option α) : Tree → Option (Option α)
  | null => some none
  | t => (decode t).map some

def list {α : Type} (decode : Tree → Option α) : Tree → Option (List α)
  | array items => items.mapM decode
  | _ => none

/-- The fields of an object with their names, each a text. -/
def named? : List (Option String × Tree) → Option (List (String × Tree))
  | [] => some []
  | (name, t) :: rest => do
    let name ← name
    let rest ← named? rest
    some ((name, t) :: rest)

/-- The slots of a record: an object's fields, or an array's items in the order of the names. -/
def slots (names : List String) : Tree → Option (Slots Tree)
  | object fields => (named? fields).bind (Slots.ofFields? names)
  | array items => Slots.ofItems? names items
  | _ => none

/-- One of a set of words: a text, or an object whose one field is `null`. -/
def word : Tree → Option String
  | text s => s
  | object [(name, null)] => name
  | _ => none

instance : Document Tree where
  slots := slots
  text := string
  optionalText := nullable string
  flag := boolean
  natural := naturalBelow UInt64.size
  word := word

end Tree
end Json
end LeagueSync
