import LeagueSync.Config.Basic
import LeagueSync.Text.Numeral

/-!
# LeagueSync.Telemetry.Endpoint

Where traces and metrics are sent. The exporter is started only for an address that can be read: a
path, an authority, or a scheme, an authority and a path. Addresses are ASCII, their fragments
apart. The first thing wrong with an address, from the left, is the one reported. Nothing is
connected when the exporter starts.
-/

namespace LeagueSync

inductive TelemetryError where
  | tracer (reason : String)
  | meter (reason : String)
  | shutdown (reason : String)
  | config (reason : String)
  deriving DecidableEq, Repr

def TelemetryError.message : TelemetryError → String
  | tracer reason => "Failed to initialize tracer: " ++ reason
  | meter reason => "Failed to initialize meter: " ++ reason
  | shutdown reason => "Failed to shutdown: " ++ reason
  | config reason => "Configuration error: " ++ reason

namespace Endpoint

def isAlphanumeric (c : Char) : Bool :=
  c.isAlpha || Text.isDigit c

/-- A character that stands for itself in an authority. -/
def isAuthorityChar (c : Char) : Bool :=
  isAlphanumeric c || "!$&'()*+,-.:;=@[]_~".contains c

def endsAuthority (c : Char) : Bool :=
  c == '/' || c == '?' || c == '#'

def isPathChar (c : Char) : Bool :=
  isAlphanumeric c || "!$%&'()*+,-./:;=@[\\]^_|~\"\x7b\x7d".contains c

def isQueryChar (c : Char) : Bool :=
  isAlphanumeric c || "!$%&'()*+,-./:;=?@[\\]^_\x60|~\x7b\x7d".contains c

def isSchemeChar (c : Char) : Bool :=
  isAlphanumeric c || "+-.~".contains c

def maxScheme : Nat := 64

/-- The most colons between the marks that forget them: those of the longest bracketed address. -/
def maxColons : Nat := 8

def maxSize : Nat := 65534

inductive Fault where
  | character
  | authority
  | format
  | longScheme
  | long
  deriving DecidableEq, Repr

def Fault.message : Fault → String
  | character => "invalid uri character"
  | authority => "invalid authority"
  | format => "invalid format"
  | longScheme => "scheme too long"
  | long => "uri too long"

/-- What has been seen of an authority. -/
structure AuthorityScan where
  colons : Nat := 0
  opened : Bool := false
  closed : Bool := false
  percent : Bool := false
  afterAt : Bool := false

/-- Reads the characters of an authority, or finds the first that cannot stand where it does. A user
name or a bracketed address forgets the colons and escapes before its end. -/
def scanAuthority (a : AuthorityScan) : List Char → Except Fault AuthorityScan
  | [] => .ok a
  | c :: rest =>
    let b := { a with afterAt := false }
    if c = ':' then
      if maxColons ≤ a.colons then .error .authority
      else scanAuthority { b with colons := b.colons + 1 } rest
    else if c = '[' then
      if a.percent || a.opened then .error .authority
      else scanAuthority { b with opened := true } rest
    else if c = ']' then
      if !a.opened || a.closed then .error .authority
      else scanAuthority { b with closed := true, colons := 0, percent := false } rest
    else if c = '@' then
      scanAuthority { b with colons := 0, percent := false, afterAt := true } rest
    else if c = '%' then scanAuthority { b with percent := true } rest
    else if isAuthorityChar c then scanAuthority b rest
    else .error .character

def checkAuthority (cs : List Char) : Except Fault Unit :=
  match scanAuthority {} cs with
  | .error fault => .error fault
  | .ok a =>
    if a.opened != a.closed || 1 < a.colons || a.afterAt || a.percent then .error .authority
    else .ok ()

def isPath (cs : List Char) : Bool :=
  let path := cs.takeWhile fun c => c != '?' && c != '#'
  let rest := cs.drop path.length
  path.all isPathChar &&
    match rest with
    | '?' :: rest => (rest.takeWhile (· != '#')).all isQueryChar
    | _ => true

def checkPath (cs : List Char) : Except Fault Unit :=
  if isPath cs then .ok () else .error .character

def splitScheme? (cs : List Char) : Option (List Char × List Char) :=
  let scheme := cs.takeWhile isSchemeChar
  match cs.drop scheme.length with
  | ':' :: '/' :: '/' :: rest => some (scheme, rest)
  | _ => none

/-- Finds what keeps an address without a scheme from being an authority and nothing else. -/
def checkBare (cs : List Char) : Except Fault Unit :=
  match checkAuthority (cs.takeWhile fun c => !endsAuthority c) with
  | .error fault => .error fault
  | .ok () => if cs.any endsAuthority then .error .format else .ok ()

/-- Finds what is wrong with what follows a scheme: an authority, which is required, and a path. -/
def checkAbsolute (cs : List Char) : Except Fault Unit :=
  let authority := cs.takeWhile fun c => !endsAuthority c
  match checkAuthority authority with
  | .error fault => .error fault
  | .ok () =>
    if authority = [] then .error .format else checkPath (cs.drop authority.length)

/-- Finds the first thing wrong with an address. The empty one stands for the default. -/
def check (address : String) : Except Fault Unit :=
  if maxSize < address.utf8ByteSize then .error .long
  else
    match address.toList with
    | [] => .ok ()
    | ['*'] => .ok ()
    | ['?'] | ['#'] => .error .character
    | '/' :: rest => checkPath rest
    | cs =>
      match splitScheme? cs with
      | none => checkBare cs
      | some (scheme, rest) =>
        if maxScheme < scheme.length then .error .longScheme else checkAbsolute rest

end Endpoint

/-- Starts the exporters, if they are enabled. -/
def TelemetryConfig.start (c : TelemetryConfig) : Except TelemetryError Unit :=
  if c.enabled then
    match c.endpoint with
    | none => .error (.config "OTLP endpoint is required when enabled")
    | some address =>
      match Endpoint.check address with
      | .error fault =>
        .error (.tracer ("Exporter OTLP encountered the following error(s): invalid URI " ++
          fault.message))
      | .ok () => .ok ()
  else .ok ()

end LeagueSync
