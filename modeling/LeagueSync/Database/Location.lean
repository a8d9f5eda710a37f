import LeagueSync.Database.Error
import LeagueSync.Text.Numeral
import LeagueSync.Text.Segments

/-!
# LeagueSync.Database.Location

Where the durable store lies. A name denotes a file, or a store that lasts no longer than the
program: those are the empty name and `:memory:`. A name that begins with `file:` is an address: an
authority, which is this computer or left out, then a path in which escapes stand for bytes, then
options after a question mark. The options say what may be done with the store.
-/

namespace LeagueSync

inductive Access where
  | readOnly
  /-- Read and write a file that is there. -/
  | readWrite
  /-- Read and write a file, which is made if it is not there. -/
  | create
  /-- Read and write, but not in any file. -/
  | memory
  deriving DecidableEq, Repr

namespace Access

def ofName? : String → Option Access
  | "ro" => some readOnly
  | "rw" => some readWrite
  | "rwc" => some create
  | "memory" => some memory
  | _ => none

/-- Whether an access may give way to another one: files never to a wider one. -/
def admits : Access → Access → Bool
  | readOnly, a => a == readOnly || a == memory
  | readWrite, a => a != create
  | _, _ => true

end Access

structure Location where
  /-- The name under which it was asked for. -/
  name : String
  /-- The path of its file, if it has one. -/
  file? : Option String
  access : Access
  deriving DecidableEq, Repr

namespace Location

/-- The bytes of a text with escapes: a percent sign and two hexadecimal digits are a byte, and what
follows a zero byte is dropped. -/
def unescape : List Char → List UInt8
  | [] => []
  | c :: a :: b :: rest =>
    match c, Text.digitValue? a, Text.digitValue? b with
    | '%', some high, some low =>
      if high = 0 ∧ low = 0 then [] else UInt8.ofNat (16 * high + low) :: unescape rest
    | _, _, _ => String.utf8EncodeChar c ++ unescape (a :: b :: rest)
  | c :: rest => String.utf8EncodeChar c ++ unescape rest

/-- A text without its escapes. Bytes that are no text become the replacement character. -/
def unescaped (cs : List Char) : String :=
  (String.fromUTF8? ⟨(unescape cs).toArray⟩).getD "\uFFFD"

def option (cs : List Char) : String × String :=
  let name := cs.takeWhile (· != '=')
  (unescaped name, unescaped (cs.drop (name.length + 1)))

structure Settings where
  access : Access := .create
  /-- The system of files that is asked for. -/
  system : Option String := none
  deriving DecidableEq, Repr

namespace Settings

/-- Takes an option into account. One that means nothing here is passed over. -/
def set (s : Settings) : String × String → Except StorageFault Settings
  | ("vfs", value) => .ok { s with system := some value }
  | ("cache", value) =>
    if value = "shared" ∨ value = "private" then .ok s else .error (.unknownMode "cache" value)
  | ("mode", value) =>
    match Access.ofName? value with
    | none => .error (.unknownMode "access" value)
    | some access =>
      if s.access.admits access then .ok { s with access } else .error (.forbiddenMode value)
  | _ => .ok s

def memorySystem : String := "memdb"

def systems : List String :=
  ["unix", "unix-none", "unix-dotfile", "unix-excl", memorySystem]

/-- Whether the store has no file, whatever its path. -/
def isInMemory (s : Settings) : Bool :=
  s.access == .memory || s.system == some memorySystem

end Settings

def ofPath (name path : String) (s : Settings) : Location where
  name := name
  file? := if s.isInMemory ∨ path = "" ∨ path = ":memory:" then none else some path
  access := s.access

/-- The location of a path with options and a fragment. -/
def ofReference (name : String) (cs : List Char) : Except StorageFault Location := do
  let cs := cs.takeWhile (· != '#')
  let path := cs.takeWhile (· != '?')
  let settings ← match cs.drop path.length with
    | _ :: options => ((pieces '&' options).map option).foldlM Settings.set {}
    | [] => .ok {}
  match settings.system with
  | none => .ok (ofPath name (unescaped path) settings)
  | some system =>
    if Settings.systems.contains system then .ok (ofPath name (unescaped path) settings)
    else .error (.unknownSystem system)

/-- The location of an address after its `file:`. -/
def ofAddress (name : String) (cs : List Char) : Except StorageFault Location :=
  match cs with
  | '/' :: '/' :: rest =>
    let authority := rest.takeWhile (· != '/')
    if authority = [] ∨ authority = "localhost".toList then
      ofReference name (rest.drop authority.length)
    else .error (.authority (String.ofList authority))
  | cs => ofReference name cs

def ofName (name : String) : Except StorageFault Location :=
  let cs := name.toList
  let plain := cs.takeWhile (· != '\x00')
  if plain.length < cs.length then .error (.zeroByte (String.ofList plain).utf8ByteSize)
  else match cs with
    | 'f' :: 'i' :: 'l' :: 'e' :: ':' :: rest => ofAddress name rest
    | _ => .ok (ofPath name name {})

end Location
end LeagueSync
