import LeagueSync.Text.Numeral
import LeagueSync.Yaml.Token

/-!
# LeagueSync.Yaml.Scalar

The texts of scalars: plain, quoted, literal and folded, with line folding and escapes. Each
reader starts at the first character of the scalar and gives its text and the place after it.
-/

namespace LeagueSync
namespace Yaml

/-- The end of a line inside a scalar: blanks that may yet be dropped, and line breaks. -/
structure Gap where
  blanks : List Char := []
  first : Option (List Char) := none
  more : List Char := []
  /-- Whether a line break was met. -/
  broken : Bool := false

/-- What a gap inside a scalar stands for: a single line break is a blank, several are one less,
and blanks without a break stay. -/
def Gap.fold (g : Gap) : List Char :=
  if g.broken then
    match g.first with
    | some ['\n'] => if g.more = [] then [' '] else g.more
    | some first => first ++ g.more
    | none => g.more
  else g.blanks

/-- The gap at the cursor: blanks and line breaks. `none` if a tab stands where the indentation of
the scalar forbids it. -/
def gap? (tabsFrom : Nat) : Nat → Gap → Cursor → Option (Gap × Cursor)
  | 0, g, c => some (g, c)
  | fuel + 1, g, c =>
    match c.at? 0 with
    | some ch =>
      if isBlank ch then
        if g.broken && ch == '\t' && decide (c.column < tabsFrom) then none
        else gap? tabsFrom fuel (if g.broken then g else { g with blanks := g.blanks ++ [ch] })
          (c.advance 1)
      else if isBreak ch then
        let text := c.breakText
        gap? tabsFrom fuel
          (if g.broken then { g with more := g.more ++ text }
            else { blanks := [], first := some text, more := g.more, broken := true })
          c.nextLine
      else some (g, c)
    | none => some (g, c)

/-- The characters of a plain scalar up to the next gap or the end of the scalar. `none` where a
colon stands before a flow indicator. -/
def plainRun? (inFlow : Bool) : Nat → Cursor → Option (List Char × Cursor)
  | 0, c => some ([], c)
  | fuel + 1, c =>
    match c.at? 0 with
    | none => some ([], c)
    | some ch =>
      if c.gapAt 0 then some ([], c)
      else if inFlow && ch == ':' && (match c.at? 1 with
          | some d => d == ',' || d == '?' || d == '[' || d == ']' || d == '\x7b' || d == '\x7d'
          | none => false) then none
      else if (ch == ':' && c.gapAt 1) || (inFlow && (ch == ',' || ch == '[' || ch == ']'
          || ch == '\x7b' || ch == '\x7d')) then some ([], c)
      else (plainRun? inFlow fuel (c.advance 1)).map fun (cs, c) => (ch :: cs, c)

/-- A plain scalar: its text, the place after it, and whether that is on a new line. -/
def plain? (inFlow : Bool) (least : Nat) : Nat → Gap → List Char → Cursor →
    Option (List Char × Cursor × Bool)
  | 0, _, _, _ => none
  | fuel + 1, g, text, c =>
    if c.atMarker || c.is 0 '#' then some (text, c, g.broken)
    else do
      let (run, after) ← plainRun? inFlow (c.rest.length + 1) c
      if run = [] then some (text, c, g.broken)
      else do
        let text := text ++ g.fold ++ run
        if after.gapAt 0 && after.rest != [] then do
          let (g, next) ← gap? least (after.rest.length + 1) {} after
          if !inFlow && decide (next.column < least) then some (text, next, g.broken)
          else plain? inFlow least fuel g text next
        else some (text, after, false)

def simpleEscape? (c : Char) : Option Char :=
  [('0', '\x00'), ('a', '\x07'), ('b', '\x08'), ('t', '\t'), ('\t', '\t'), ('n', '\n'),
    ('v', '\x0b'), ('f', '\x0c'), ('r', '\r'), ('e', '\x1b'), (' ', ' '), ('"', '"'), ('/', '/'),
    ('\\', '\\'), ('N', '\x85'), ('_', '\xa0'), ('L', '\u2028'), ('P', '\u2029')].lookup c

def escapeDigits? (c : Char) : Option Nat :=
  [('x', 2), ('u', 4), ('U', 8)].lookup c

def escape? (c : Cursor) : Option (Char × Cursor) := do
  let letter ← c.at? 1
  match simpleEscape? letter with
  | some ch => some (ch, c.advance 2)
  | none => do
    let width ← escapeDigits? letter
    let ds := (c.rest.drop 2).take width
    if ds.length = width then
      let n ← Text.inBase? 16 ds
      if n.isValidChar then some (Char.ofNat n, c.advance (2 + width)) else none
    else none

/-- The characters of a quoted scalar up to a gap or the closing quote, and whether an escaped line
break ended them. -/
def quotedRun? (quote : Char) : Nat → Cursor → Option (List Char × Cursor × Bool)
  | 0, _ => none
  | fuel + 1, c =>
    match c.at? 0 with
    | none => some ([], c, false)
    | some ch =>
      if c.gapAt 0 then some ([], c, false)
      else if quote == '\'' && ch == '\'' && c.is 1 '\'' then
        (quotedRun? quote fuel (c.advance 2)).map fun (cs, r) => ('\'' :: cs, r)
      else if ch == quote then some ([], c, false)
      else if quote == '"' && ch == '\\' then
        match c.at? 1 with
        | some d =>
          if isBreak d then some ([], (c.advance 1).nextLine, true)
          else do
            let (ch, next) ← escape? c
            let (cs, r) ← quotedRun? quote fuel next
            some (ch :: cs, r)
        | none => none
      else (quotedRun? quote fuel (c.advance 1)).map fun (cs, r) => (ch :: cs, r)

def quoted? (quote : Char) : Nat → List Char → Cursor → Option (List Char × Cursor)
  | 0, _, _ => none
  | fuel + 1, text, c =>
    if c.atMarker || c.rest = [] then none
    else do
      let (run, c, joined) ← quotedRun? quote (c.rest.length + 1) c
      let text := text ++ run
      if c.is 0 quote then some (text, c.advance 1)
      else do
        let (g, c) ← gap? 0 (c.rest.length + 1) { broken := joined } c
        quoted? quote fuel (text ++ g.fold) c

/-- What happens to the line breaks at the end of a block scalar. -/
inductive Chomp where
  | clip
  | strip
  | keep
  deriving DecidableEq

/-- The header of a block scalar after its indicator: chomping and indentation, in either order. -/
def blockHeader? (c : Cursor) : Option (Chomp × Nat × Cursor) :=
  let chomp? (c : Cursor) : Option (Chomp × Cursor) :=
    if c.is 0 '+' then some (.keep, c.advance 1)
    else if c.is 0 '-' then some (.strip, c.advance 1)
    else none
  let digit? (c : Cursor) : Option Nat :=
    match c.at? 0 with
    | some ch => if Text.isDigit ch then some (ch.toNat - 48) else none
    | none => none
  match chomp? c with
  | some (chomp, c) =>
    match digit? c with
    | some 0 => none
    | some n => some (chomp, n, c.advance 1)
    | none => some (chomp, 0, c)
  | none =>
    match digit? c with
    | some 0 => none
    | some n =>
      match chomp? (c.advance 1) with
      | some (chomp, c) => some (chomp, n, c)
      | none => some (.clip, n, c.advance 1)
    | none => some (.clip, 0, c)

/-- The rest of a line that may hold a comment, and its line break. -/
def lineEnd? (c : Cursor) : Option Cursor :=
  let c := c.skipWhile isBlank
  let c := if c.is 0 '#' then c.skipToBreak else c
  if c.rest = [] then some c
  else if c.endsAt 0 then some c.nextLine
  else none

/-- The empty lines and the indentation in front of the next line of a block scalar. Where the
indentation is not known yet, it is that of the deepest of these lines, and the largest column is
passed on. `none` if a tab stands in the indentation. -/
def blockGap? (indent : Nat) : Nat → Nat → List Char → Cursor →
    Option (Nat × List Char × Cursor)
  | 0, _, _, _ => none
  | fuel + 1, deepest, breaks, c =>
    let blanks := (c.rest.takeWhile (· == ' ')).length
    let c := c.advance (if indent = 0 then blanks else min blanks (indent - c.column))
    let deepest := max deepest c.column
    if (indent = 0 ∨ c.column < indent) ∧ c.is 0 '\t' then none
    else if c.rest ≠ [] ∧ c.endsAt 0 then
      blockGap? indent fuel deepest (breaks ++ c.breakText) c.nextLine
    else some (deepest, breaks, c)

/-- The lines of a block scalar at its indentation, the text so far, the last line break and the
empty lines after it. -/
def blockLines? (folded : Bool) (indent : Nat) : Nat → List Char → List Char → List Char → Bool →
    Cursor → Option (List Char × List Char × List Char × Cursor)
  | 0, _, _, _, _, _ => none
  | fuel + 1, text, first, more, wasBlank, c =>
    if c.column = indent ∧ c.rest ≠ [] then do
      let blank := match c.at? 0 with
        | some ch => isBlank ch
        | none => false
      let text :=
        if folded && first == ['\n'] && !wasBlank && !blank then
          text ++ (if more = [] then [' '] else []) ++ more
        else text ++ first ++ more
      let (line, after) := c.takeWhile (!isBreak ·)
      let text := text ++ line
      let (first, next) :=
        if after.rest = [] then ([], after) else (after.breakText, after.nextLine)
      let (_, more, next) ← blockGap? indent (next.rest.length + 1) 0 [] next
      blockLines? folded indent fuel text first more blank next
    else some (text, first, more, c)

/-- A literal or folded scalar after its indicator, inside a block at the given indentation. -/
def block? (folded : Bool) (parent : Int) (c : Cursor) : Option (List Char × Cursor) := do
  let (chomp, increment, c) ← blockHeader? c
  let c ← lineEnd? c
  let given := if increment = 0 then 0 else parent.toNat + increment
  let (deepest, more, c) ← blockGap? given (c.rest.length + 1) 0 [] c
  let indent := if given = 0 then max (max deepest (parent + 1).toNat) 1 else given
  let (text, first, more, c) ← blockLines? folded indent (c.rest.length + 1) [] [] more false c
  match chomp with
  | .strip => some (text, c)
  | .clip => some (text ++ first, c)
  | .keep => some (text ++ first ++ more, c)

end Yaml
end LeagueSync
