import LeagueSync.Program.Launch
import Std.Time.DateTime.Timestamp

/-!
# LeagueSync.Main

The command line program: it reads the environment, the configuration file and the clock, and
prints the report. It has no network, so every request ends without an answer, and it keeps its
tables in memory.
-/

namespace LeagueSync.Main

/-- The values of those of these variables that are set. -/
def readEnvironment (names : List String) : IO Environment :=
  names.filterMapM fun name => do return (← IO.getEnv name).map fun value => (name, value)

def fileFault : IO.Error → FileFault
  | .inappropriateType _ _ details =>
    if details.toLower = "is a directory" then .directory else .notDirectory
  | .invalidArgument .. => .nameTooLong
  | .permissionDenied .. => .forbidden
  | _ => .missing

def readFile (path : String) : IO (Except FileFault ByteArray) := do
  try
    return .ok (← IO.FS.readBinFile path)
  catch e =>
    return .error (fileFault e)

/-- Whether a file can be written to, which makes it if it is not there. -/
def isWritable (path : String) : IO Bool := do
  try
    let _ ← IO.FS.Handle.mk path .append
    return true
  catch _ =>
    return false

def isUsable (name : String) : IO Bool :=
  match Location.ofName name with
  | .ok { file? := some path, .. } => isWritable path
  | _ => return true

def surroundings : IO Surroundings := do
  let start := (← Std.Time.Timestamp.now).toMillisecondsSinceUnixEpoch.val
  return {
    transport := .unreachable
    timeOfDay := fun ms => (Timestamp.ofEpochMillisecond? (start + ms)).getD .epoch
    onClock := fun ms => Timestamp.onClock_ofEpochMillisecond (start + ms) }

def workflowName (n : Nat) : String :=
  s!"run-{n}"

/-- Does what a service does next when its time has come, for ever. -/
partial def serve (app : App) (start : Nat) (d : Daemon) : IO Unit := do
  let elapsed := (← IO.monoMsNow) - start
  if elapsed < d.worker.bench.now then
    IO.sleep (UInt32.ofNat (d.worker.bench.now - elapsed))
  match d.step? app (fun _ => 0) workflowName with
  | some d => serve app start d
  | none =>
    IO.sleep 1000
    serve app start d

def print (r : Report) : IO UInt32 := do
  IO.eprint r.errors
  IO.print r.output
  return UInt32.ofNat r.exitCode

/-- A disk with one file, on which a store can be kept or not. -/
def diskOf (content : Except FileFault ByteArray) (usable : Bool) : Disk where
  read _ := content
  openStore l := if usable then .ok {} else .error (.cannotOpen l.name)

def start (args : List String) (path : Option String) (command : Command) : IO UInt32 := do
  let content ← match path with
    | some path => readFile path
    | none => pure (.error .missing)
  let text := (content.toOption.bind String.fromUTF8?).getD ""
  let names := "FPL_SYNC_CONFIG" :: Config.variables ++ Environment.references text.toList
  let env ← readEnvironment names
  let usable ← match Launch.configure env (diskOf content true) path with
    | .ok c => isUsable c.database.path
    | .error _ => pure false
  let disk := diskOf content usable
  let outside ← surroundings
  let (report, _) := Launch.run env disk outside workflowName (fun _ w => w) args
  let code ← print report
  if report.exitCode = 0 ∧ command = .run then
    match Launch.configure env disk path >>= fun c =>
        (App.ofConfig outside c).mapError .client with
    | .ok app => serve app (← IO.monoMsNow) (.start app (fun _ => 0) (app.premises {}))
    | .error _ => pure ()
  return code

def run (args : List String) : IO UInt32 := do
  let env ← readEnvironment ["FPL_SYNC_CONFIG"]
  match Invocation.ofArguments env args with
  | .start path command => start args path command
  | _ =>
    let disk := diskOf (.error .missing) false
    print (Launch.run env disk (← surroundings) workflowName (fun _ w => w) args).1

end LeagueSync.Main

def main (args : List String) : IO UInt32 :=
  LeagueSync.Main.run args
