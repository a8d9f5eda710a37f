import LeagueSync.Yaml.Scalar

/-!
# LeagueSync.Yaml.Lexer

From a YAML text to its tokens. Two things make this more than a splitting at blanks.

* Indentation: a block collection starts where a line is indented deeper than the collection
  around it and ends where a line is indented less; `Lexer.indents` are the collections that are
  open. Inside brackets and braces indentation does not count.
* Keys: what stands before a colon is a key only once the colon is seen, so a place where a key may
  have begun is remembered as a `Candidate`, one for each level of brackets, and the key token is
  put in there later. A candidate ends with its line, and after 1024 bytes.

`Yaml.tokens?` is the whole text, or `none` if it is malformed.
-/

namespace LeagueSync
namespace Yaml

/-- A place where a key may have begun. -/
structure Candidate where
  /-- Whether the text is malformed unless it is a key. -/
  required : Bool
  /-- The number of tokens in front of it. -/
  token : Nat
  place : Cursor

structure Lexer where
  cursor : Cursor
  tokens : Array Token := #[]
  /-- The column of the innermost open block collection. -/
  indent : Int := -1
  /-- The columns of the collections around it. -/
  indents : List Int := []
  /-- Whether a key may begin here. -/
  keyAllowed : Bool := true
  /-- The candidate of each level of brackets, the innermost first. -/
  candidates : List (Option Candidate) := [none]

namespace Lexer

/-- Whether the place is inside brackets or braces. -/
def inFlow (l : Lexer) : Bool :=
  decide (1 < l.candidates.length)

def emit (l : Lexer) (t : Token) : Lexer :=
  { l with tokens := l.tokens.push t }

/-- Adds a token and goes over its characters. -/
def emitOver (l : Lexer) (t : Token) (n : Nat) : Lexer :=
  { l.emit t with cursor := l.cursor.advance n }

/-- Blanks, comments and line breaks up to the next token. A tab counts as a blank where no key may
begin, and a line may start with a byte order mark, which takes a column. -/
def skipToToken : Nat → Lexer → Lexer
  | 0, l => l
  | fuel + 1, l =>
    let c := l.cursor
    let c := if c.column == 0 && c.is 0 '\ufeff' then c.advance 1 else c
    let tabs := l.inFlow || !l.keyAllowed
    let c := c.skipWhile fun ch => ch == ' ' || (tabs && ch == '\t')
    let c := if c.is 0 '#' then c.skipToBreak else c
    if c.rest ≠ [] ∧ c.endsAt 0 then
      skipToToken fuel
        { l with cursor := c.nextLine, keyAllowed := l.keyAllowed || !l.inFlow }
    else { l with cursor := c }

/-- Forgets the candidates that are no longer keys; `none` if one of them had to be. -/
def dropStale? (l : Lexer) : Option Lexer := do
  let stale (k : Candidate) : Bool :=
    decide (k.place.line < l.cursor.line) || decide (k.place.index + 1024 < l.cursor.index)
  let candidates ← l.candidates.mapM fun
    | some k => if stale k then (if k.required then none else some none) else some (some k)
    | none => some none
  some { l with candidates }

/-- Forgets the innermost candidate; `none` if it had to be a key. -/
def dropCandidate? (l : Lexer) : Option Lexer :=
  match l.candidates with
  | some k :: rest => if k.required then none else some { l with candidates := none :: rest }
  | _ => some l

def markCandidate? (l : Lexer) : Option Lexer :=
  if l.keyAllowed then do
    let required := !l.inFlow && l.indent == (l.cursor.column : Int)
    let l ← l.dropCandidate?
    let k : Candidate := ⟨required, l.tokens.size, l.cursor⟩
    some { l with candidates := some k :: l.candidates.drop 1 }
  else some l

/-- Opens a block collection at a column that is deeper than the innermost one, its start token
put in at a position. -/
def openBlock (l : Lexer) (column : Nat) (position : Nat) (t : Token) : Lexer :=
  if l.inFlow then l
  else if l.indent < column then
    { l with
      indents := l.indent :: l.indents
      indent := column
      tokens := l.tokens.insertIdxIfInBounds position t }
  else l

/-- Closes the block collections that are deeper than a column. -/
def closeBlocks : Nat → Int → Lexer → Lexer
  | 0, _, l => l
  | fuel + 1, column, l =>
    if l.inFlow then l
    else if column < l.indent then
      closeBlocks fuel column
        { l.emit .blockEnd with indent := l.indents.headD (-1), indents := l.indents.drop 1 }
    else l

def unindent (l : Lexer) (column : Int) : Lexer :=
  closeBlocks (l.indents.length + 1) column l

def skipBlanks (c : Cursor) : Cursor :=
  c.skipWhile isBlank

/-- The number of bytes of a character of which this is the first byte. -/
def escapedWidth? (first : Nat) : Option Nat :=
  if first < 0x80 then some 1 else if first < 0xC0 then none else if first < 0xE0 then some 2
  else if first < 0xF0 then some 3 else if first < 0xF8 then some 4 else none

/-- Percent escapes: so many bytes that may follow the first of a character. -/
def escapedRest? : Nat → Cursor → Option (Tag × Cursor)
  | 0, c => some ([], c)
  | n + 1, c =>
    match c.rest with
    | '%' :: a :: b :: _ => do
      let byte ← Text.inBase? 16 [a, b]
      if byte / 64 = 2 then do
        let (bytes, c) ← escapedRest? n (c.advance 3)
        some (byte.toUInt8 :: bytes, c)
      else none
    | _ => none

/-- The percent escapes of one character at the cursor. Whether it is one is not asked: only the
lengths have to fit. -/
def escaped? (c : Cursor) : Option (Tag × Cursor) :=
  match c.rest with
  | '%' :: a :: b :: _ => do
    let first ← Text.inBase? 16 [a, b]
    let width ← escapedWidth? first
    let (bytes, c) ← escapedRest? (width - 1) (c.advance 3)
    some (first.toUInt8 :: bytes, c)
  | _ => none

/-- The characters of a tag, percent escapes included; brackets and commas only where they are
allowed. -/
def tagChars? (wide : Bool) : Nat → Cursor → Option (Tag × Cursor)
  | 0, c => some ([], c)
  | fuel + 1, c =>
    match c.at? 0 with
    | none => some ([], c)
    | some ch =>
      if ch == '%' then do
        let (bytes, c) ← escaped? c
        let (rest, c) ← tagChars? wide fuel c
        some (bytes ++ rest, c)
      else if isWord ch || ";/?:@&=+$.!~*'()".toList.contains ch || (wide && ",[]".toList.contains ch)
      then (tagChars? wide fuel (c.advance 1)).map fun (rest, c) => (ch.toUInt8 :: rest, c)
      else some ([], c)

/-- A tag ends where a zero byte is. -/
def cutTag (t : Tag) : Tag :=
  t.takeWhile (· != 0)

/-- A tag handle: `!`, `!!` or `!name!`; outside a directive also `!name`, which is then the start
of a suffix. -/
def tagHandle? (directive : Bool) (c : Cursor) : Option (List Char × Cursor) :=
  if c.is 0 '!' then
    let (name, c) := (c.advance 1).takeWhile isWord
    if c.is 0 '!' then some ('!' :: name ++ ['!'], c.advance 1)
    else if directive && name != [] then none
    else some ('!' :: name, c)
  else none

def tag? (l : Lexer) : Option Lexer := do
  let c := l.cursor
  let (handle, suffix, c) ←
    if c.is 1 '<' then do
      let (uri, c) ← tagChars? true c.rest.length (c.advance 2)
      if uri ≠ [] ∧ c.is 0 '>' then some ("", cutTag uri, c.advance 1) else none
    else do
      let (handle, c) ← tagHandle? false c
      if 1 < handle.length ∧ handle.getLast? = some '!' then do
        let (suffix, c) ← tagChars? false c.rest.length c
        if suffix = [] then none else some (String.ofList handle, cutTag suffix, c)
      else do
        let (more, c) ← tagChars? false c.rest.length c
        let suffix := cutTag (Tag.ofText (String.ofList (handle.drop 1)) ++ more)
        some (if suffix = [] then ("", Tag.ofText "!", c) else ("!", suffix, c))
  if c.gapAt 0 || (l.inFlow && c.is 0 ',') then
    some { l.emit (.tag handle suffix) with cursor := c }
  else none

def anchor? (l : Lexer) (make : String → Token) : Option Lexer :=
  let (name, c) := (l.cursor.advance 1).takeWhile isWord
  let closes := match c.at? 0 with
    | some ch => "?:,]\x7d%@`".toList.contains ch
    | none => true
  if name ≠ [] ∧ (c.gapAt 0 || closes) then
    some { l.emit (make (String.ofList name)) with cursor := c }
  else none

def versionNumber? (c : Cursor) : Option (Nat × Cursor) :=
  let (ds, c) := c.takeWhile Text.isDigit
  if ds ≠ [] ∧ ds.length ≤ 9 then some (Text.digitsValue ds, c) else none

def directive? (l : Lexer) : Option Lexer := do
  let (name, c) := (l.cursor.advance 1).takeWhile isWord
  if !c.gapAt 0 then none
  else do
    let (t, c) ←
      if String.ofList name = "YAML" then do
        let (major, c) ← versionNumber? (skipBlanks c)
        if c.is 0 '.' then do
          let (minor, c) ← versionNumber? (c.advance 1)
          some (Token.version major minor, c)
        else none
      else if String.ofList name = "TAG" then do
        let (handle, c) ← tagHandle? true (skipBlanks c)
        if c.gapAt 0 ∧ ¬ c.endsAt 0 then do
          let (stands, c) ← tagChars? true c.rest.length (skipBlanks c)
          if stands ≠ [] ∧ c.gapAt 0 then
            some (Token.tagHandle (String.ofList handle) (cutTag stands), c)
          else none
        else none
      else none
    let c ← lineEnd? c
    some { l.emit t with cursor := c }

/-- The value indicator: what the candidate marks becomes a key, if there is one. -/
def value? (l : Lexer) : Option Lexer :=
  match l.candidates with
  | some k :: rest =>
    let l := { l with
      tokens := l.tokens.insertIdxIfInBounds k.token .key
      candidates := none :: rest
      keyAllowed := false }
    some ((l.openBlock k.place.column k.token .blockMappingStart).emitOver .value 1)
  | _ =>
    if l.inFlow then some ({ l with keyAllowed := false }.emitOver .value 1)
    else if l.keyAllowed then
      let l := l.openBlock l.cursor.column l.tokens.size .blockMappingStart
      some ({ l with keyAllowed := true }.emitOver .value 1)
    else none

/-- An entry of a block sequence, or an explicit key, at its indicator. -/
def blockIndicator? (l : Lexer) (start t : Token) (keyAllowed : Bool) : Option Lexer :=
  if l.inFlow || l.keyAllowed then do
    let l := l.openBlock l.cursor.column l.tokens.size start
    let l ← l.dropCandidate?
    some ({ l with keyAllowed }.emitOver t 1)
  else none

def openFlow? (l : Lexer) (t : Token) : Option Lexer := do
  let l ← l.markCandidate?
  some ({ l with candidates := none :: l.candidates, keyAllowed := true }.emitOver t 1)

def closeFlow? (l : Lexer) (t : Token) : Option Lexer := do
  let l ← l.dropCandidate?
  let candidates := if l.inFlow then l.candidates.drop 1 else l.candidates
  some ({ l with candidates, keyAllowed := false }.emitOver t 1)

def quotedScalar? (l : Lexer) (quote : Char) (style : Style) : Option Lexer := do
  let l ← l.markCandidate?
  let (text, c) ← quoted? quote (l.cursor.rest.length + 2) [] (l.cursor.advance 1)
  some { l.emit (.scalar (String.ofList text) style) with cursor := c, keyAllowed := false }

def blockScalar? (l : Lexer) (folded : Bool) : Option Lexer := do
  let l ← l.dropCandidate?
  let (text, c) ← block? folded l.indent (l.cursor.advance 1)
  let style := if folded then Style.folded else Style.literal
  some { l.emit (.scalar (String.ofList text) style) with cursor := c, keyAllowed := true }

def plainScalar? (l : Lexer) : Option Lexer := do
  let l ← l.markCandidate?
  let (text, c, newLine) ←
    plain? l.inFlow (l.indent + 1).toNat (l.cursor.rest.length + 2) {} [] l.cursor
  some { l.emit (.scalar (String.ofList text) .plain) with cursor := c, keyAllowed := newLine }

def startsPlain (l : Lexer) : Bool :=
  let c := l.cursor
  match c.at? 0 with
  | none => false
  | some ch =>
    (!c.gapAt 0 && !("-?:,[]\x7b\x7d#&*!|>'\"%@`".toList.contains ch))
      || (ch == '-' && !(match c.at? 1 with
        | some d => isBlank d
        | none => false))
      || (!l.inFlow && (ch == '?' || ch == ':') && !c.gapAt 1)

def documentMarker? (l : Lexer) (t : Token) : Option Lexer := do
  let l := l.unindent (-1)
  let l ← l.dropCandidate?
  some ({ l with keyAllowed := false }.emitOver t 3)

/-- The next token, not at the end of the text. -/
def token? (l : Lexer) : Option Lexer :=
  let c := l.cursor
  match c.at? 0 with
  | none => none
  | some ch =>
    if c.column == 0 && ch == '%' then do
      let l ← (l.unindent (-1)).dropCandidate?
      { l with keyAllowed := false }.directive?
    else if c.marker '-' then l.documentMarker? .documentStart
    else if c.marker '.' then l.documentMarker? .documentEnd
    else if ch == '[' then l.openFlow? .flowSequenceStart
    else if ch == '\x7b' then l.openFlow? .flowMappingStart
    else if ch == ']' then l.closeFlow? .flowSequenceEnd
    else if ch == '\x7d' then l.closeFlow? .flowMappingEnd
    else if ch == ',' then do
      let l ← l.dropCandidate?
      some ({ l with keyAllowed := true }.emitOver .flowEntry 1)
    else if ch == '-' && c.gapAt 1 then l.blockIndicator? .blockSequenceStart .blockEntry true
    else if ch == '?' && (l.inFlow || c.gapAt 1) then
      l.blockIndicator? .blockMappingStart .key (!l.inFlow)
    else if ch == ':' && (l.inFlow || c.gapAt 1) then l.value?
    else if ch == '*' then do
      let l ← l.markCandidate?
      { l with keyAllowed := false }.anchor? .alias
    else if ch == '&' then do
      let l ← l.markCandidate?
      { l with keyAllowed := false }.anchor? .anchor
    else if ch == '!' then do
      let l ← l.markCandidate?
      { l with keyAllowed := false }.tag?
    else if ch == '|' && !l.inFlow then l.blockScalar? false
    else if ch == '>' && !l.inFlow then l.blockScalar? true
    else if ch == '\'' then l.quotedScalar? '\'' .singleQuoted
    else if ch == '"' then l.quotedScalar? '"' .doubleQuoted
    else if l.startsPlain then l.plainScalar?
    else none

def run : Nat → Lexer → Option (List Token)
  | 0, _ => none
  | fuel + 1, l => do
    let l := skipToToken (l.cursor.rest.length + 1) l
    let l ← l.dropStale?
    let l := l.unindent l.cursor.column
    if l.cursor.rest = [] then do
      let l ← (l.unindent (-1)).dropCandidate?
      some (l.emit .streamEnd).tokens.toList
    else do
      let l ← l.token?
      run fuel l

end Lexer

def tokens? (text : String) : Option (List Token) :=
  let cs := text.toList
  if cs.all isPrintable then
    Lexer.run (cs.length + 1) { cursor := { rest := cs } }
  else none

end Yaml
end LeagueSync
