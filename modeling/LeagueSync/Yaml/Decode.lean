import LeagueSync.Document
import LeagueSync.Yaml.Node

/-!
# LeagueSync.Yaml.Decode

What the scalars of YAML mean where a record asks for them. A text may be any scalar; a truth
value, a number and nothing are written plainly, or as a literal block with the tag of their kind.
The fields of a record are a mapping; a text without a document has none, and neither has an empty
place. YAML is a `Document`.
-/

namespace LeagueSync
namespace Yaml
namespace Excerpt

/-- The node at the root, behind its alias if it is one. -/
def target (e : Excerpt) : Option Node :=
  match e.root with
  | some (.alias number) => e.anchors.lookup number
  | root => root

def at_ (e : Excerpt) (node : Node) : Excerpt :=
  { e with root := some node }

def text (e : Excerpt) : Option String :=
  match e.target with
  | some (.scalar _ s _) => some s
  | _ => none

def standardTag (kind : String) : Tag :=
  Tag.ofText ("tag:yaml.org,2002:" ++ kind)

/-- The text of a scalar that may mean something else than a text: a plain one, or a literal block
with the tag of the kind. -/
def typed (tag : String) (e : Excerpt) : Option String :=
  match e.target with
  | some (.scalar _ s .plain) => some s
  | some (.scalar (some t) s .literal) => if t = standardTag tag then some s else none
  | _ => none

def flag (e : Excerpt) : Option Bool :=
  match typed "bool" e with
  | some s =>
    if ["true", "True", "TRUE"].contains s then some true
    else if ["false", "False", "FALSE"].contains s then some false
    else none
  | none => none

/-- A decimal numeral without zeros in front, or one with `0x`, `0o` or `0b`; one plus sign may
stand before it. -/
def numeral? (s : String) : Option Nat :=
  let cs := match s.toList with
    | '+' :: rest => rest
    | cs => cs
  match cs with
  | '0' :: 'x' :: rest => Text.inBase? 16 rest
  | '0' :: 'o' :: rest => Text.inBase? 8 rest
  | '0' :: 'b' :: rest => Text.inBase? 2 rest
  | '0' :: _ :: _ => none
  | cs => Text.decimal? cs

def natural (e : Excerpt) : Option Nat :=
  match (typed "int" e).bind numeral? with
  | some n => if n < UInt64.size then some n else none
  | none => none

def isNull (s : String) : Bool :=
  ["", "~", "null", "Null", "NULL"].contains s

/-- Whether a scalar with this tag and text, plainly written, means nothing: with the tag of null it
has to, with another tag it does not. -/
def nothing? (tag : Option Tag) (s : String) : Option Bool :=
  match tag with
  | some t =>
    if t = standardTag "null" then (if isNull s && s != "" then some true else none)
    else some false
  | none => some (isNull s)

def optionalText (e : Excerpt) : Option (Option String) :=
  match e.target with
  | some (.scalar tag s .plain) =>
    match nothing? tag s with
    | some true => some none
    | some false => some (some s)
    | none => none
  | none => some none
  | _ => e.text.map some

/-- The name in a tag of the document: what follows its exclamation mark, or the mark alone. -/
def tagName? (tag : Tag) : Option String :=
  match tag with
  | 33 :: name => String.fromUTF8? (ByteArray.mk (if name = [] then #[33] else name.toArray))
  | _ => none

/-- One of a set of words: a text, or the name of a tag of the document on nothing. -/
def word (e : Excerpt) : Option String :=
  match e.target with
  | some (.scalar tag s style) =>
    match tag.bind tagName? with
    | some name => if style = .plain && isNull s then some name else none
    | none => some s
  | _ => none

def named? (e : Excerpt) : List (Node × Node) → Option (List (String × Excerpt))
  | [] => some []
  | (k, v) :: rest => do
    let name ← (e.at_ k).text
    let rest ← named? e rest
    some ((name, e.at_ v) :: rest)

def slots (names : List String) (e : Excerpt) : Option (Slots Excerpt) :=
  match e.root, e.target with
  | none, _ => Slots.ofFields? names []
  | _, some (.mapping _ pairs) => (e.named? pairs).bind (Slots.ofFields? names)
  | _, some (.scalar _ "" .plain) => Slots.ofFields? names []
  | _, _ => none

instance : Document Excerpt where
  slots := slots
  text := text
  optionalText := optionalText
  flag := flag
  natural := natural
  word := word

end Excerpt
end Yaml
end LeagueSync
