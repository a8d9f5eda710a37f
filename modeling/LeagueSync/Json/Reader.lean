import LeagueSync.Double.Literal
import LeagueSync.Json.Basic

/-!
# LeagueSync.Json.Reader

JSON texts. `Json.Tree` is what a text says by its grammar alone: a number keeps its literal, and a
string whose escapes form half a surrogate pair has no text. So a part that nobody asks for may be
deep, huge or without a value, and only a part that is kept has to be a value: `Tree.value?`.

* `Json.Tree.read?` reads one text, blanks around it allowed.
* `Json.parse?` reads a text as a value.
-/

namespace LeagueSync
namespace Json

structure Literal where
  negative : Bool
  whole : List Char
  fraction : List Char
  /-- `none` where no exponent is written. -/
  exponent : Option Int
  deriving Repr

/-- A JSON text by its grammar. -/
inductive Tree where
  | null
  | bool (b : Bool)
  | number (literal : Literal)
  | text (s : Option String)
  | array (items : List Tree)
  | object (fields : List (Option String × Tree))
  deriving Repr, Inhabited

/-- The integer that a literal denotes: no point, no exponent, no negative zero, in 64 bits. -/
def Literal.int? (n : Literal) : Option Int :=
  if n.fraction = [] ∧ n.exponent = none then
    let m := Text.digitsValue n.whole
    if n.negative then
      if 0 < m ∧ 2 * m ≤ UInt64.size then some (-(m : Int)) else none
    else if m < UInt64.size then some m
    else none
  else none

/-- The value of a literal, unless it is too large. -/
def Literal.value? (n : Literal) : Option Json :=
  match n.int? with
  | some i => some (int i)
  | none => (Double.ofLiteral? n.negative n.whole n.fraction (n.exponent.getD 0)).map real

/-- Sets a field of an object: a later one of the same name takes the place of the earlier. -/
def putField (fields : List (String × Json)) (name : String) (v : Json) : List (String × Json) :=
  if fields.any (·.1 == name) then fields.map fun f => if f.1 == name then (name, v) else f
  else fields ++ [(name, v)]

mutual

/-- The value of a tree that nests at most `depth` deep. -/
def Tree.value? (depth : Nat) : Tree → Option Json
  | .null => some Json.null
  | .bool b => some (Json.bool b)
  | .number n => n.value?
  | .text s => s.map str
  | .array items => match depth with
    | 0 => none
    | depth + 1 => (Tree.values? depth items).map arr
  | .object fields => match depth with
    | 0 => none
    | depth + 1 => (Tree.fields? depth [] fields).map obj

def Tree.values? (depth : Nat) : List Tree → Option (List Json)
  | [] => some []
  | t :: rest => do
    let v ← Tree.value? depth t
    let vs ← Tree.values? depth rest
    some (v :: vs)

def Tree.fields? (depth : Nat) (acc : List (String × Json)) :
    List (Option String × Tree) → Option (List (String × Json))
  | [] => some acc
  | (name, t) :: rest => do
    let name ← name
    let v ← Tree.value? depth t
    Tree.fields? depth (putField acc name v) rest

end

def isSpace (c : Char) : Bool :=
  c == ' ' || c == '\n' || c == '\t' || c == '\r'

def skipSpace (cs : List Char) : List Char :=
  cs.dropWhile isSpace

def hexQuad? : List Char → Option (Nat × List Char)
  | a :: b :: c :: d :: rest => (Text.inBase? 16 [a, b, c, d]).map fun n => (n, rest)
  | _ => none

/-- What one escape stands for: a character, or a 16-bit unit. -/
inductive Escaped where
  | char (c : Char)
  | unit (n : Nat)

def escape? : List Char → Option (Escaped × List Char)
  | '"' :: rest => some (.char '"', rest)
  | '\\' :: rest => some (.char '\\', rest)
  | '/' :: rest => some (.char '/', rest)
  | 'b' :: rest => some (.char '\x08', rest)
  | 'f' :: rest => some (.char '\x0c', rest)
  | 'n' :: rest => some (.char '\n', rest)
  | 'r' :: rest => some (.char '\r', rest)
  | 't' :: rest => some (.char '\t', rest)
  | 'u' :: rest => (hexQuad? rest).map fun (n, rest) => (.unit n, rest)
  | _ => none

def pairChar (high low : Nat) : Char :=
  Char.ofNat (0x10000 + (high - 0xD800) * 0x400 + (low - 0xDC00))

/-- One item of a string: a character, or an escape that no text has. -/
inductive Piece where
  | char (c : Char)
  | unit (n : Nat)

/-- The text of the pieces: a high half joins the low half after it, and no half stands alone. -/
def piecesText? : List Piece → Option (List Char)
  | [] => some []
  | .char c :: rest => (piecesText? rest).map (c :: ·)
  | .unit high :: .unit low :: rest =>
    if 0xD800 ≤ high ∧ high < 0xDC00 then
      if 0xDC00 ≤ low ∧ low < 0xE000 then (piecesText? rest).map (pairChar high low :: ·)
      else none
    else if 0xDC00 ≤ high ∧ high < 0xE000 then none
    else (piecesText? (.unit low :: rest)).map (Char.ofNat high :: ·)
  | .unit n :: rest =>
    if 0xD800 ≤ n ∧ n < 0xE000 then none else (piecesText? rest).map (Char.ofNat n :: ·)

/-- The pieces of a string after its opening quote, and the text after the closing one. -/
def stringPieces? : Nat → List Char → Option (List Piece × List Char)
  | 0, _ => none
  | fuel + 1, cs =>
    match cs with
    | [] => none
    | '"' :: rest => some ([], rest)
    | '\\' :: rest => do
      let (e, rest) ← escape? rest
      let (pieces, rest) ← stringPieces? fuel rest
      match e with
      | .char c => some (.char c :: pieces, rest)
      | .unit n => some (.unit n :: pieces, rest)
    | c :: rest =>
      if c.toNat < 32 then none
      else do
        let (pieces, rest) ← stringPieces? fuel rest
        some (.char c :: pieces, rest)

def string? (cs : List Char) : Option (Option String × List Char) := do
  let (pieces, rest) ← stringPieces? (cs.length + 1) cs
  some ((piecesText? pieces).map String.ofList, rest)

/-- The whole digits of a number: no zero in front of others. -/
def whole? (cs : List Char) : Option (List Char × List Char) :=
  match cs with
  | '0' :: rest =>
    match rest with
    | c :: _ => if Text.isDigit c then none else some (['0'], rest)
    | [] => some (['0'], [])
  | cs =>
    let ds := cs.takeWhile Text.isDigit
    if ds = [] then none else some (ds, cs.drop ds.length)

def fraction? (cs : List Char) : Option (List Char × List Char) :=
  match cs with
  | '.' :: rest =>
    let ds := rest.takeWhile Text.isDigit
    if ds = [] then none else some (ds, rest.drop ds.length)
  | cs => some ([], cs)

def exponent? (cs : List Char) : Option (Option Int × List Char) :=
  let unsigned (sign : Int) (cs : List Char) : Option (Option Int × List Char) :=
    let ds := cs.takeWhile Text.isDigit
    if ds = [] then none else some (some (sign * Text.digitsValue ds), cs.drop ds.length)
  match cs with
  | c :: rest =>
    if c = 'e' ∨ c = 'E' then
      match rest with
      | '+' :: rest => unsigned 1 rest
      | '-' :: rest => unsigned (-1) rest
      | rest => unsigned 1 rest
    else some (none, c :: rest)
  | [] => some (none, [])

def number? (cs : List Char) : Option (Literal × List Char) := do
  let (negative, cs) := match cs with
    | '-' :: rest => (true, rest)
    | cs => (false, cs)
  let (whole, cs) ← whole? cs
  let (fraction, cs) ← fraction? cs
  let (exponent, cs) ← exponent? cs
  some (⟨negative, whole, fraction, exponent⟩, cs)

def word? (word : List Char) (cs : List Char) : Option (List Char) :=
  if cs.take word.length = word then some (cs.drop word.length) else none

namespace Tree

mutual

/-- A value of the grammar, and the text after it. -/
def value (fuel : Nat) (cs : List Char) : Option (Tree × List Char) :=
  match fuel with
  | 0 => none
  | fuel + 1 =>
    match skipSpace cs with
    | 'n' :: rest => (word? ['u', 'l', 'l'] rest).map fun rest => (null, rest)
    | 't' :: rest => (word? ['r', 'u', 'e'] rest).map fun rest => (bool true, rest)
    | 'f' :: rest => (word? ['a', 'l', 's', 'e'] rest).map fun rest => (bool false, rest)
    | '"' :: rest => (string? rest).map fun (s, rest) => (text s, rest)
    | '[' :: rest =>
      match skipSpace rest with
      | ']' :: rest => some (array [], rest)
      | rest => (items fuel rest).map fun (ts, rest) => (array ts, rest)
    | '{' :: rest =>
      match skipSpace rest with
      | '}' :: rest => some (object [], rest)
      | rest => (fields fuel rest).map fun (fs, rest) => (object fs, rest)
    | cs => (number? cs).map fun (n, rest) => (number n, rest)

/-- The items of an array up to its end, at least one. -/
def items (fuel : Nat) (cs : List Char) : Option (List Tree × List Char) :=
  match fuel with
  | 0 => none
  | fuel + 1 =>
    match value fuel cs with
    | none => none
    | some (t, rest) =>
      match skipSpace rest with
      | ',' :: rest => (items fuel rest).map fun (ts, rest) => (t :: ts, rest)
      | ']' :: rest => some ([t], rest)
      | _ => none

/-- The fields of an object up to its end, at least one. -/
def fields (fuel : Nat) (cs : List Char) : Option (List (Option String × Tree) × List Char) :=
  match fuel with
  | 0 => none
  | fuel + 1 =>
    match skipSpace cs with
    | '"' :: rest =>
      match string? rest with
      | none => none
      | some (name, rest) =>
        match skipSpace rest with
        | ':' :: rest =>
          match value fuel rest with
          | none => none
          | some (t, rest) =>
            match skipSpace rest with
            | ',' :: rest => (fields fuel rest).map fun (fs, rest) => ((name, t) :: fs, rest)
            | '}' :: rest => some ([(name, t)], rest)
            | _ => none
        | _ => none
    | _ => none

end

def read? (s : String) : Option Tree :=
  let cs := s.toList
  match value (2 * cs.length + 2) cs with
  | some (t, rest) => if skipSpace rest = [] then some t else none
  | none => none

end Tree

def parse? (s : String) : Option Json := do
  let t ← Tree.read? s
  t.value? maxDepth

end Json
end LeagueSync
