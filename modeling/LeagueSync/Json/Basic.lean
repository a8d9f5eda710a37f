import LeagueSync.Double.Basic

/-!
# LeagueSync.Json.Basic

JSON values. Numbers are integers, or of double precision where the text has a point or an exponent;
an object is its fields in order. `Json.depth` counts nested arrays and objects, which a reader
bounds by `Json.maxDepth`.
-/

namespace LeagueSync

inductive Json where
  | null
  | bool (b : Bool)
  | int (n : Int)
  | real (x : Double)
  | str (s : String)
  | arr (items : List Json)
  | obj (fields : List (String × Json))
  deriving Repr, Inhabited

namespace Json

/-- The deepest nesting of a value that can be read. -/
def maxDepth : Nat := 127

mutual

/-- Whether arrays and objects nest at most `n` deep. -/
def within (n : Nat) : Json → Bool
  | arr items => match n with
    | 0 => false
    | n + 1 => itemsWithin n items
  | obj fields => match n with
    | 0 => false
    | n + 1 => fieldsWithin n fields
  | _ => true

def itemsWithin (n : Nat) : List Json → Bool
  | [] => true
  | v :: rest => within n v && itemsWithin n rest

def fieldsWithin (n : Nat) : List (String × Json) → Bool
  | [] => true
  | (_, v) :: rest => within n v && fieldsWithin n rest

end

def ofOption {α : Type} (f : α → Json) : Option α → Json
  | none => null
  | some a => f a

def ofNat (n : Nat) : Json :=
  int n

/-- The field of an object; of several with one name, the last. -/
def field? (v : Json) (name : String) : Option Json :=
  match v with
  | obj fields => (fields.reverse.find? (·.1 == name)).map (·.2)
  | _ => none

end Json
end LeagueSync
