/-!
# LeagueSync.Yaml.Token

The characters and tokens of YAML texts, and the place in a text. A `Cursor` is what is left to
read with the line and column of its first character.
-/

namespace LeagueSync
namespace Yaml

def isBreak (c : Char) : Bool :=
  c == '\n' || c == '\r' || c == '\x85' || c == '\u2028' || c == '\u2029'

def isBlank (c : Char) : Bool :=
  c == ' ' || c == '\t'

def isWord (c : Char) : Bool :=
  c.isAlphanum || c == '_' || c == '-'

/-- The characters that may stand in a text at all. -/
def isPrintable (c : Char) : Bool :=
  let n := c.toNat
  n == 9 || n == 10 || n == 13 || (0x20 ≤ n && n ≤ 0x7E) || n == 0x85 || (0xA0 ≤ n && n ≤ 0xD7FF)
    || (0xE000 ≤ n && n ≤ 0xFFFD) || (0x10000 ≤ n && n ≤ 0x10FFFF)

inductive Style where
  | plain
  | singleQuoted
  | doubleQuoted
  | literal
  | folded
  deriving DecidableEq, Repr

/-- A tag, as bytes: percent escapes in it may stand for any. -/
abbrev Tag := List UInt8

def Tag.ofText (s : String) : Tag :=
  s.toUTF8.data.toList

/-- A token. The structure of block collections is made explicit by start and end tokens. -/
inductive Token where
  | version (major minor : Nat)
  | tagHandle (handle : String) (stands : Tag)
  | documentStart
  | documentEnd
  | blockSequenceStart
  | blockMappingStart
  | blockEnd
  | flowSequenceStart
  | flowSequenceEnd
  | flowMappingStart
  | flowMappingEnd
  | blockEntry
  | flowEntry
  | key
  | value
  | alias (name : String)
  | anchor (name : String)
  | tag (handle : String) (suffix : Tag)
  | scalar (text : String) (style : Style)
  | streamEnd
  deriving DecidableEq, Repr, Inhabited

/-- What is left of a text, and where it begins. -/
structure Cursor where
  rest : List Char
  /-- The number of bytes in front. -/
  index : Nat := 0
  line : Nat := 0
  column : Nat := 0
  deriving Repr

namespace Cursor

def at? (c : Cursor) (n : Nat) : Option Char :=
  c.rest[n]?

def is (c : Cursor) (n : Nat) (ch : Char) : Bool :=
  c.at? n == some ch

def endsAt (c : Cursor) (n : Nat) : Bool :=
  match c.at? n with
  | some ch => isBreak ch
  | none => true

def gapAt (c : Cursor) (n : Nat) : Bool :=
  match c.at? n with
  | some ch => isBlank ch || isBreak ch
  | none => true

def bytes (cs : List Char) : Nat :=
  cs.foldl (fun n c => n + c.utf8Size) 0

def advance (c : Cursor) (n : Nat) : Cursor :=
  { c with
    rest := c.rest.drop n, index := c.index + bytes (c.rest.take n), column := c.column + n }

/-- Goes over a line break, two characters long at most. -/
def nextLine (c : Cursor) : Cursor :=
  let n := match c.rest with
    | '\r' :: '\n' :: _ => 2
    | _ => 1
  { rest := c.rest.drop n, index := c.index + bytes (c.rest.take n), line := c.line + 1,
    column := 0 }

/-- The line break as it counts in a scalar. -/
def breakText (c : Cursor) : List Char :=
  match c.rest with
  | '\u2028' :: _ => ['\u2028']
  | '\u2029' :: _ => ['\u2029']
  | _ => ['\n']

/-- Goes over the characters that satisfy a condition, none of them a line break. -/
def skipWhile (c : Cursor) (p : Char → Bool) : Cursor :=
  c.advance (c.rest.takeWhile p).length

def takeWhile (c : Cursor) (p : Char → Bool) : List Char × Cursor :=
  let cs := c.rest.takeWhile p
  (cs, c.advance cs.length)

def skipToBreak (c : Cursor) : Cursor :=
  c.skipWhile (!isBreak ·)

/-- Whether a document marker made of three times this character stands at the start of the line. -/
def marker (c : Cursor) (ch : Char) : Bool :=
  c.column == 0 && c.is 0 ch && c.is 1 ch && c.is 2 ch && c.gapAt 3

def atMarker (c : Cursor) : Bool :=
  c.marker '-' || c.marker '.'

end Cursor
end Yaml
end LeagueSync
