import LeagueSync.Config.Basic
import LeagueSync.Http.Error
import LeagueSync.Json.Basic

/-!
# LeagueSync.Http.Request

Requests to the remote interface, and the checks that they pass before the first attempt: the path
becomes an address, and each header must be one that can be sent.
-/

namespace LeagueSync

inductive TimeLimit where
  | short
  | standard
  | long
  deriving DecidableEq, Repr

def TimeLimit.name : TimeLimit → String
  | short => "short"
  | standard => "default"
  | long => "long"

def TimeLimit.ofName? (s : String) : Option TimeLimit :=
  [TimeLimit.short, standard, long].find? fun l => l.name == s

def TimeoutConfig.seconds (c : TimeoutConfig) : TimeLimit → Nat
  | .short => c.short.toNat
  | .standard => c.standard.toNat
  | .long => c.long.toNat

structure Call where
  method : String := "GET"
  path : String
  query : List (String × String) := []
  headers : List (String × String) := []
  body : Option Json := none
  limit : TimeLimit := .standard
  deriving Repr

/-- What is sent in every attempt of a call. -/
structure Request where
  method : String
  address : String
  query : List (String × String)
  headers : List (String × String)
  body : Option Json
  deriving Repr

def isHeaderNameChar (c : Char) : Bool :=
  c.isAlphanum || "!#$%&'*+-.^_|~\x60".contains c

def isHeaderName (s : String) : Bool :=
  s ≠ "" && s.toList.all isHeaderNameChar

/-- Whether a value can be that of a header: anything but control characters, of which only the tab
may stand in it. Beyond ASCII every character may. -/
def isHeaderValue (s : String) : Bool :=
  s.toList.all fun c => (32 ≤ c.toNat && c.toNat ≠ 127) || c == '\t'

/-- Whether the value of a header can be read as text: printable characters of ASCII, and tabs. -/
def isPlainHeaderValue (s : String) : Bool :=
  s.toList.all fun c => (32 ≤ c.toNat && c.toNat < 127) || c == '\t'

def headerFault? : List (String × String) → Option RequestFault
  | [] => none
  | (name, value) :: rest =>
    if !isHeaderName name then some (.headerName name)
    else if !isHeaderValue value then some .headerValue
    else headerFault? rest

/-- The address of a path. One with a scheme is an address already. -/
def addressOf (baseUrl path : String) : String :=
  if "http://".isPrefixOf path || "https://".isPrefixOf path then path
  else if "/".isPrefixOf path then baseUrl ++ path
  else baseUrl ++ "/" ++ path

namespace Call

def resolve? (baseUrl : String) (c : Call) : Except RequestFault Request :=
  if c.path = "" then .error .emptyPath
  else match headerFault? c.headers with
    | some fault => .error fault
    | none => .ok ⟨c.method, addressOf baseUrl c.path, c.query, c.headers, c.body⟩

end Call
end LeagueSync
