import LeagueSync.Double.Shortest
import LeagueSync.Json.Basic

/-!
# LeagueSync.Json.Writer

JSON texts of values, compact or with one field a line and two blanks of indentation. Strings
escape the quote, the backslash and the control characters, and nothing else.
-/

namespace LeagueSync
namespace Json

def escape (c : Char) : List Char :=
  if c = '"' then ['\\', '"']
  else if c = '\\' then ['\\', '\\']
  else if c = '\n' then ['\\', 'n']
  else if c = '\r' then ['\\', 'r']
  else if c = '\t' then ['\\', 't']
  else if c = '\x08' then ['\\', 'b']
  else if c = '\x0c' then ['\\', 'f']
  else if c.toNat < 32 then ['\\', 'u', '0', '0'] ++ Text.hexByte c.toNat
  else [c]

def quoted (s : String) : List Char :=
  '"' :: s.toList.flatMap escape ++ ['"']

def integerText (n : Int) : List Char :=
  match n with
  | .ofNat n => Text.digits n
  | .negSucc n => '-' :: Text.digits (n + 1)

/-- A decimal with a point or an exponent, so that it does not read as an integer. From `1e-5` on
and below `1e16` it is written without an exponent. -/
def decimalText (d : Decimal) : List Char :=
  let d := d.normalize
  let sign := if d.negative then ['-'] else []
  if d.digits = 0 then sign ++ ['0', '.', '0']
  else
    let ds := Text.digits d.digits
    let point := (ds.length : Int) + d.exponent
    let body :=
      if 0 ≤ d.exponent ∧ point ≤ 16 then ds ++ List.replicate d.exponent.toNat '0' ++ ['.', '0']
      else if 0 < point ∧ point ≤ 16 then ds.take point.toNat ++ ['.'] ++ ds.drop point.toNat
      else if -5 < point ∧ point ≤ 0 then
        ['0', '.'] ++ List.replicate (-point).toNat '0' ++ ds
      else
        let mantissa := match ds with
          | [c] => [c]
          | c :: rest => c :: '.' :: rest
          | [] => []
        mantissa ++ ['e'] ++ integerText (point - 1)
    sign ++ body

/-- A number of double precision in as few digits as single it out; of two equally near ones the
last digit is even. An infinity has no text of its own. -/
def realText (x : Double) : List Char :=
  match x.decimal? .even with
  | some d => decimalText d
  | none => "null".toList

def joined (separator : List Char) : List (List Char) → List Char
  | [] => []
  | [t] => t
  | t :: rest => t ++ separator ++ joined separator rest

mutual

def compactChars : Json → List Char
  | null => "null".toList
  | bool true => "true".toList
  | bool false => "false".toList
  | int n => integerText n
  | real x => realText x
  | str s => quoted s
  | arr items => '[' :: joined [','] (compactItems items) ++ [']']
  | obj fields => '{' :: joined [','] (compactFields fields) ++ ['}']

def compactItems : List Json → List (List Char)
  | [] => []
  | v :: rest => compactChars v :: compactItems rest

def compactFields : List (String × Json) → List (List Char)
  | [] => []
  | (k, v) :: rest => (quoted k ++ ':' :: compactChars v) :: compactFields rest

end

/-- The compact text of a value. -/
def compact (v : Json) : String :=
  String.ofList v.compactChars

/-- A new line with two blanks for each level. -/
def lineBreak (level : Nat) : List Char :=
  '\n' :: List.replicate (2 * level) ' '

mutual

/-- The indented text of a value at a level. -/
def prettyChars (level : Nat) : Json → List Char
  | arr [] => ['[', ']']
  | arr items =>
    '[' :: lineBreak (level + 1) ++ joined (',' :: lineBreak (level + 1)) (prettyItems level items)
      ++ lineBreak level ++ [']']
  | obj [] => ['{', '}']
  | obj fields =>
    '{' :: lineBreak (level + 1) ++ joined (',' :: lineBreak (level + 1)) (prettyFields level fields)
      ++ lineBreak level ++ ['}']
  | v => compactChars v

def prettyItems (level : Nat) : List Json → List (List Char)
  | [] => []
  | v :: rest => prettyChars (level + 1) v :: prettyItems level rest

def prettyFields (level : Nat) : List (String × Json) → List (List Char)
  | [] => []
  | (k, v) :: rest =>
    (quoted k ++ ':' :: ' ' :: prettyChars (level + 1) v) :: prettyFields level rest

end

def pretty (v : Json) : String :=
  String.ofList (v.prettyChars 0)

end Json
end LeagueSync
