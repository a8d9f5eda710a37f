/-!
# LeagueSync.Document

What records are read from, whatever the format: a class of documents whose nodes can be asked for
a text, a flag, a number, a word or the slots of named fields. A record is decoded field by field
from its slots, so each field's default stands in one place.

* `Slots.required`, `Slots.optional` and `Slots.defaulted` are the three kinds of field.
-/

namespace LeagueSync

/-- What a document has for one field. -/
inductive Slot (α : Type) where
  /-- The field is there. -/
  | present (node : α)
  /-- The field is not among the named ones. -/
  | absent
  /-- The fields are listed in order without names, and the list ends before this one. -/
  | pastEnd
  deriving Repr

abbrev Slots (α : Type) := List (String × Slot α)

namespace Slots

variable {α β : Type}

def get (slots : Slots α) (name : String) : Slot α :=
  match slots.find? (·.1 == name) with
  | some (_, slot) => slot
  | none => .absent

def required (slots : Slots α) (name : String) (decode : α → Option β) : Option β :=
  match slots.get name with
  | .present node => decode node
  | _ => none

/-- A field that named fields may leave out, for none. -/
def optional (slots : Slots α) (name : String) (decode : α → Option (Option β)) :
    Option (Option β) :=
  match slots.get name with
  | .present node => decode node
  | .absent => some none
  | .pastEnd => none

def defaulted (slots : Slots α) (name : String) (decode : α → Option β) (default : β) : Option β :=
  match slots.get name with
  | .present node => decode node
  | _ => some default

/-- The slots of named fields: unknown ones are skipped, a known one may not come twice. -/
def ofFields? (names : List String) (fields : List (String × α)) : Option (Slots α) :=
  if names.all fun name => decide ((fields.filter (·.1 == name)).length ≤ 1) then
    some (names.map fun name =>
      match fields.find? (·.1 == name) with
      | some (_, node) => (name, .present node)
      | none => (name, .absent))
  else none

/-- The slots of fields in order: there may be too few but not too many. -/
def ofItems? (names : List String) (items : List α) : Option (Slots α) :=
  match names, items with
  | [], [] => some []
  | [], _ :: _ => none
  | name :: names, [] => (ofItems? names []).map ((name, .pastEnd) :: ·)
  | name :: names, item :: items => (ofItems? names items).map ((name, .present item) :: ·)

end Slots

/-- A format that records can be read from. -/
class Document (α : Type) where
  /-- The slots of a record with these fields. -/
  slots : List String → α → Option (Slots α)
  /-- A text. -/
  text : α → Option String
  /-- A text, or nothing. -/
  optionalText : α → Option (Option String)
  /-- A truth value. -/
  flag : α → Option Bool
  /-- A natural number of 64 bits. -/
  natural : α → Option Nat
  /-- One of a set of words. -/
  word : α → Option String

end LeagueSync
