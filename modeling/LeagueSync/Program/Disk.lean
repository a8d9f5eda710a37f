import LeagueSync.Config.Basic
import LeagueSync.Database.Location
import LeagueSync.Database.Operation

/-!
# LeagueSync.Program.Disk

What the program asks of a disk: the contents of a file, and the durable store at a location. A
`Volume` is a disk in memory. It resolves paths step by step: what a path goes through must be there
and be a directory, and no name may be too long. The durable store resolves the same paths by their
text, so that one may lead through a directory that is not there and back.
-/

namespace LeagueSync

/-- A place on a disk: the names on the way there from the top. -/
abbrev Place := List String

/-- A durable store that was opened: the place of its file, if it has one, and what is in it. -/
structure OpenStore where
  place : Option Place := none
  database : Database := {}

structure Disk where
  /-- The content of a file. -/
  read : String → Except FileFault ByteArray
  /-- The durable store at a location, which is made if it is not there and may be made. -/
  openStore : Location → Except StorageFault OpenStore

inductive DiskNode where
  | directory
  | file (content : ByteArray)
  /-- The file of a durable store. -/
  | store (tables : Tables)

structure Volume where
  nodes : List (Place × DiskNode)
  /-- Where paths begin that do not begin at the top. -/
  current : Place := []

namespace Volume

def maxName : Nat := 255

def maxPath : Nat := 4095

/-- The bytes that the name of the file beside a store has more than the store's. -/
def journalSuffix : Nat := "-journal".utf8ByteSize

/-- A volume with these files and the directories on the way to them and to the current one. -/
def ofFiles (current : Place) (files : List (Place × DiskNode)) : Volume where
  nodes :=
    let above (p : Place) : List (Place × DiskNode) :=
      (List.range p.length).map fun n => (p.take n, .directory)
    files ++ (current, .directory) :: above current ++ files.flatMap (above ·.1)
  current := current

/-- What there is at a place. The top is always there. -/
def find? (v : Volume) (p : Place) : Option DiskNode :=
  if p = [] then some .directory else (v.nodes.find? (·.1 == p)).map (·.2)

def isDirectory (v : Volume) (p : Place) : Bool :=
  v.find? p matches some .directory

def start (v : Volume) (path : String) : Place :=
  match path.toList with
  | '/' :: _ => []
  | _ => v.current

def names (path : String) : List String :=
  (segments path.toList).map String.ofList

def walk (v : Volume) (p : Place) : List String → Except FileFault Place
  | [] => .ok p
  | name :: rest =>
    match v.find? p with
    | none => .error .missing
    | some .directory =>
      if maxName < name.utf8ByteSize then .error .nameTooLong
      else if name = "" ∨ name = "." then v.walk p rest
      else if name = ".." then v.walk p.dropLast rest
      else v.walk (p ++ [name]) rest
    | some _ => .error .notDirectory

/-- The content of the file at a path. The file of a store is no text. -/
def read (v : Volume) (path : String) : Except FileFault ByteArray :=
  if path = "" then .error .missing
  else if maxPath < path.utf8ByteSize then .error .nameTooLong
  else do
    let p ← v.walk (v.start path) (names path)
    match v.find? p with
    | none => .error .missing
    | some .directory => .error .directory
    | some (.file content) => .ok content
    | some (.store _) => .error .notText

/-- The place of a path by its text alone, unless a file is in its way or a name is too long. -/
def placeOf? (v : Volume) (p : Place) : List String → Option Place
  | [] => some p
  | name :: rest =>
    if name = "" ∨ name = "." then v.placeOf? p rest
    else if name = ".." then v.placeOf? p.dropLast rest
    else if maxName < name.utf8ByteSize then none
    else match v.find? p with
      | some (.file _) => none
      | some (.store _) => none
      | _ => v.placeOf? (p ++ [name]) rest

/-- A store with nothing in it, if it may be written to. -/
def fresh (access : Access) : Except StorageFault Database :=
  if access = .readOnly then .error .readOnly else .ok {}

def openAt (v : Volume) (l : Location) (p : Place) : Except StorageFault Database :=
  let made : Except StorageFault Database :=
    if maxName < (p.getLast?.getD "").utf8ByteSize + journalSuffix then .error .noJournal
    else fresh l.access
  match v.find? p with
  | some .directory => .error (.cannotOpen l.name)
  | some (.file content) => if content.isEmpty then made else .error .notDatabase
  | some (.store tables) => .ok (if l.access = .readOnly then .readOnly tables else { tables })
  | none =>
    if l.access = .create ∧ v.isDirectory p.dropLast then made else .error (.cannotOpen l.name)

def openStore (v : Volume) (l : Location) : Except StorageFault OpenStore :=
  match l.file? with
  | none => (fresh l.access).map fun database => { database }
  | some path =>
    match v.placeOf? (v.start path) (names path) with
    | none => .error (.cannotOpen l.name)
    | some p => (v.openAt l p).map fun database => { place := some p, database }

def disk (v : Volume) : Disk where
  read := v.read
  openStore := v.openStore

end Volume
end LeagueSync
