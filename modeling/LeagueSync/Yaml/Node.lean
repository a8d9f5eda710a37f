import LeagueSync.Yaml.Lexer

/-!
# LeagueSync.Yaml.Node

The nodes of a YAML text: scalars, sequences, mappings and aliases. `Yaml.Excerpt.read?` reads a
text that holds one document, or none; every alias in it must name an anchor before it.

An anchor has as its number how many names there were when it was set, so a name that is set again
gets a new number. The node of a number is the one that begins last.
-/

namespace LeagueSync
namespace Yaml

inductive Node where
  | scalar (tag : Option Tag) (text : String) (style : Style)
  | sequence (tag : Option Tag) (items : List Node)
  | mapping (tag : Option Tag) (pairs : List (Node × Node))
  | alias (number : Nat)
  deriving Repr, Inhabited

namespace Node

def empty : Node :=
  scalar none "" .plain

end Node

structure Anchored where
  number : Nat
  /-- How many anchored nodes begin before it. -/
  start : Nat
  node : Node

structure Composer where
  tokens : List Token
  handles : List (String × Tag) := []
  /-- The names set so far, with their numbers. -/
  names : List (String × Nat) := []
  starts : Nat := 0
  anchored : List Anchored := []

/-- Composing, which fails on a malformed text. -/
abbrev Compose := StateT Composer Option

namespace Compose

def peek : Compose Token := do
  match (← get).tokens with
  | t :: _ => pure t
  | [] => failure

def skip : Compose Unit :=
  modify fun s => { s with tokens := s.tokens.drop 1 }

/-- Goes over the next token, which has to be the given one. -/
def expect (t : Token) : Compose Unit := do
  if (← peek) = t then skip else failure

def resolveTag (handle : String) (suffix : Tag) : Compose Tag := do
  let known := [("!", Tag.ofText "!"), ("!!", Tag.ofText "tag:yaml.org,2002:")]
  if handle = "" then pure suffix
  else
    match ((← get).handles ++ known).lookup handle with
    | some stands => pure (stands ++ suffix)
    | none => failure

/-- The anchor and the tag in front of a node, in either order. -/
def properties : Compose (Option String × Option Tag) := do
  let anchor? : Compose (Option String) := do
    match ← peek with
    | .anchor name => skip; pure (some name)
    | _ => pure none
  let tag? : Compose (Option Tag) := do
    match ← peek with
    | .tag handle suffix => skip; some <$> resolveTag handle suffix
    | _ => pure none
  match ← anchor? with
  | some name => pure (some name, ← tag?)
  | none => do
    let tag ← tag?
    match tag with
    | some _ => pure (← anchor?, tag)
    | none => pure (none, none)

/-- Gives the name its number, and the node that begins here its place. -/
def setAnchor (name : String) : Compose (Nat × Nat) := do
  let s ← get
  let number := s.names.length
  let names := (s.names.filter (·.1 != name)) ++ [(name, number)]
  set { s with names, starts := s.starts + 1 }
  pure (number, s.starts)

def keep (anchor : Option (Nat × Nat)) (node : Node) : Compose Node := do
  match anchor with
  | some (number, start) =>
    modify fun s => { s with anchored := ⟨number, start, node⟩ :: s.anchored }
  | none => pure ()
  pure node

mutual

/-- A node, in block style where that is allowed; a sequence at the indentation of its key where
that is allowed too. -/
def node (fuel : Nat) (block indentless : Bool) : Compose Node :=
  match fuel with
  | 0 => failure
  | fuel + 1 => do
    match ← peek with
    | .alias name =>
      skip
      match (← get).names.lookup name with
      | some number => pure (.alias number)
      | none => failure
    | _ => do
      let (name, tag) ← properties
      let anchor ← match name with
        | some name => some <$> setAnchor name
        | none => pure none
      let t ← peek
      if indentless && t == .blockEntry then
        keep anchor (.sequence tag (← indentlessItems fuel))
      else
        match t with
        | .scalar text style =>
          skip
          keep anchor (.scalar tag text style)
        | .flowSequenceStart => skip; keep anchor (.sequence tag (← flowItems fuel true))
        | .flowMappingStart => skip; keep anchor (.mapping tag (← flowPairs fuel true))
        | .blockSequenceStart =>
          if block then do skip; keep anchor (.sequence tag (← blockItems fuel))
          else failure
        | .blockMappingStart =>
          if block then do skip; keep anchor (.mapping tag (← blockPairs fuel))
          else failure
        | _ =>
          if name.isSome || tag.isSome then keep anchor (.scalar tag "" .plain) else failure

def blockItems (fuel : Nat) : Compose (List Node) :=
  match fuel with
  | 0 => failure
  | fuel + 1 => do
    match ← peek with
    | .blockEntry =>
      skip
      let t ← peek
      let item ← if t == .blockEntry || t == .blockEnd then pure Node.empty
        else node fuel true false
      pure (item :: (← blockItems fuel))
    | .blockEnd => skip; pure []
    | _ => failure

/-- The items of a sequence at the indentation of its key. -/
def indentlessItems (fuel : Nat) : Compose (List Node) :=
  match fuel with
  | 0 => failure
  | fuel + 1 => do
    match ← peek with
    | .blockEntry =>
      skip
      let t ← peek
      let item ← if t == .blockEntry || t == .key || t == .value || t == .blockEnd
        then pure Node.empty else node fuel true false
      pure (item :: (← indentlessItems fuel))
    | _ => pure []

def blockPairs (fuel : Nat) : Compose (List (Node × Node)) :=
  match fuel with
  | 0 => failure
  | fuel + 1 => do
    let part : Compose Node := do
      let t ← peek
      if t == .key || t == .value || t == .blockEnd then pure Node.empty
      else node fuel true true
    match ← peek with
    | .key =>
      skip
      let k ← part
      let v ← if (← peek) == .value then do skip; part else pure Node.empty
      pure ((k, v) :: (← blockPairs fuel))
    | .blockEnd => skip; pure []
    | _ => failure

/-- A pair that stands alone in a flow sequence, after its key indicator. -/
def flowPair (fuel : Nat) : Compose (Node × Node) :=
  match fuel with
  | 0 => failure
  | fuel + 1 => do
    let t ← peek
    let k ← if t == .value || t == .flowEntry || t == .flowSequenceEnd
      then do skip; pure Node.empty else node fuel false false
    if (← peek) == .value then do
      skip
      let t ← peek
      let v ← if t == .flowEntry || t == .flowSequenceEnd then pure Node.empty
        else node fuel false false
      pure (k, v)
    else pure (k, Node.empty)

def flowItems (fuel : Nat) (first : Bool) : Compose (List Node) :=
  match fuel with
  | 0 => failure
  | fuel + 1 => do
    if (← peek) == .flowSequenceEnd then do skip; pure []
    else do
      if !first then expect .flowEntry
      match ← peek with
      | .flowSequenceEnd => skip; pure []
      | .key =>
        skip
        let pair ← flowPair fuel
        pure (.mapping none [pair] :: (← flowItems fuel false))
      | _ =>
        let item ← node fuel false false
        pure (item :: (← flowItems fuel false))

def flowPairs (fuel : Nat) (first : Bool) : Compose (List (Node × Node)) :=
  match fuel with
  | 0 => failure
  | fuel + 1 => do
    if (← peek) == .flowMappingEnd then do skip; pure []
    else do
      if !first then expect .flowEntry
      match ← peek with
      | .flowMappingEnd => skip; pure []
      | .key =>
        skip
        let t ← peek
        let k ← if t == .value || t == .flowEntry || t == .flowMappingEnd then pure Node.empty
          else node fuel false false
        let v ← if (← peek) == .value then do
            skip
            let t ← peek
            if t == .flowEntry || t == .flowMappingEnd then pure Node.empty
            else node fuel false false
          else pure Node.empty
        pure ((k, v) :: (← flowPairs fuel false))
      | _ =>
        let k ← node fuel false false
        pure ((k, Node.empty) :: (← flowPairs fuel false))

end

/-- The directives of a document: at most one version, each handle once. -/
def directives (fuel : Nat) (version : Bool) : Compose Unit :=
  match fuel with
  | 0 => failure
  | fuel + 1 => do
    match ← peek with
    | .version major minor =>
      if version || major != 1 || (minor != 1 && minor != 2) then failure
      else do skip; directives fuel true
    | .tagHandle handle stands =>
      if (← get).handles.any (·.1 == handle) then failure
      else do
        skip
        modify fun s => { s with handles := s.handles ++ [(handle, stands)] }
        directives fuel version
    | _ => pure ()

def endsContent : Token → Bool
  | .version .. | .tagHandle .. | .documentStart | .documentEnd | .streamEnd => true
  | _ => false

/-- The document of a text, unless the text is empty. -/
def document (fuel : Nat) : Compose (Option Node) := do
  match ← peek with
  | .streamEnd => pure none
  | .version .. | .tagHandle .. | .documentStart => do
    directives fuel false
    expect .documentStart
    if endsContent (← peek) then pure (some Node.empty) else some <$> node fuel true false
  | _ => some <$> node fuel true false

/-- The one document of a text, and nothing after it. -/
def stream (fuel : Nat) : Compose (Option Node) := do
  let root ← document fuel
  modify fun s => { s with tokens := s.tokens.dropWhile (· == .documentEnd) }
  expect .streamEnd
  pure root

end Compose

/-- A part of a document, with the nodes that its aliases stand for. -/
structure Excerpt where
  anchors : List (Nat × Node)
  /-- `none` for a text without a document. -/
  root : Option Node

namespace Excerpt

/-- The nodes of the anchors: for each number the one that begins last. -/
def anchorNodes (anchored : List Anchored) : List (Nat × Node) :=
  (anchored.filter fun a => anchored.all fun b => a.number != b.number || b.start ≤ a.start).map
    fun a => (a.number, a.node)

def read? (text : String) : Option Excerpt := do
  let tokens ← tokens? text
  let (root, s) ← (Compose.stream (2 * tokens.length + 4)).run { tokens }
  some ⟨anchorNodes s.anchored, root⟩

end Excerpt
end Yaml
end LeagueSync
