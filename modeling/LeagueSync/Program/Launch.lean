import LeagueSync.Config.Load
import LeagueSync.Program.Arguments
import LeagueSync.Program.Daemon
import LeagueSync.Program.Disk
import LeagueSync.Telemetry.Endpoint

/-!
# LeagueSync.Program.Launch

From a command line to a report. The configuration is read first, from the file that was named or
else from the environment; then the exporters are started, the durable store is opened and the
client is built. The first of these that fails ends the program.
-/

namespace LeagueSync

inductive LaunchError where
  | config (e : ConfigError)
  | telemetry (e : TelemetryError)
  | database (e : DatabaseError)
  | client (e : HttpError)

def LaunchError.message : LaunchError → String
  | config e => "Failed to load config: " ++ e.message
  | telemetry e => e.message
  | database e => e.message
  | client e => e.message

/-- What a run of the program leaves behind for its caller. -/
structure Report where
  exitCode : Nat
  output : String := ""
  errors : String := ""
  deriving DecidableEq, Repr

namespace Launch

def versionLine : String := "fpl-sync 0.1.0\n"

def usage : String :=
  "Usage: fpl-sync [OPTIONS] <COMMAND>\n\n" ++
  "Commands:\n" ++
  "  run   Run the sync worker and scheduler until told to stop\n" ++
  "  sync  Run one sync job, drain its retries, and print the final outcome\n" ++
  "  help  Print this message\n\n" ++
  "Options:\n" ++
  "  -c, --config <CONFIG>  Path to the configuration file\n" ++
  "  -h, --help             Print help\n" ++
  "  -V, --version          Print version\n"

def announcement : Option String → String
  | some path => "Loading configuration from file: " ++ path ++ "\n"
  | none => "Loading configuration from environment variables\n"

def configure (env : Environment) (disk : Disk) (path : Option String) :
    Except LaunchError Config :=
  let result := match path with
    | some path => Config.ofFile env (disk.read path)
    | none => Config.ofEnvironment env
  result.mapError .config

def openStore (disk : Disk) (name : String) : Except StorageFault OpenStore :=
  (Location.ofName name).bind disk.openStore

def prepare (disk : Disk) (c : Config) : Except LaunchError OpenStore := do
  c.telemetry.start.mapError .telemetry
  (openStore disk c.database.path).mapError fun fault => .database (.storage fault)

def failure (announced : String) (e : LaunchError) : Report where
  exitCode := 1
  errors := announced ++ "Error: " ++ e.message ++ "\n"

/-- The report of one job and what followed from it: the last outcome. -/
def success (announced : String) (outcomes : List Outcome) : Report where
  exitCode := 0
  output := match outcomes.getLast? with
    | some outcome => outcome.toJson.pretty ++ "\n"
    | none => ""
  errors := announced

def execute (workflowName : Nat → String) (serve : App → Premises → Premises) (app : App) :
    Command → Premises → List Outcome × Premises
  | .run, w => ([], serve app w)
  | .sync ids source, w => app.syncOnce workflowName ids source w

/-- Runs the program for a command, with this configuration and this store, which is given back as
it is afterwards. -/
def work (surroundings : Surroundings) (workflowName : Nat → String)
    (serve : App → Premises → Premises) (announced : String) (c : Config) (command : Command)
    (store : OpenStore) : Report × OpenStore :=
  match App.ofConfig surroundings c with
  | .error e => (failure announced (.client e), store)
  | .ok app =>
    let (outcomes, w) := execute workflowName serve app command (app.premises store.database)
    (success announced outcomes, { store with database := w.database })

/-- Runs the program. If it gets as far as opening its store, the store is given as it is
afterwards. -/
def run (env : Environment) (disk : Disk) (surroundings : Surroundings)
    (workflowName : Nat → String) (serve : App → Premises → Premises) (args : List String) :
    Report × Option OpenStore :=
  match Invocation.ofArguments env args with
  | .version => ({ exitCode := 0, output := versionLine }, none)
  | .help => ({ exitCode := 0, output := usage }, none)
  | .misuse => ({ exitCode := 2, errors := usage }, none)
  | .start path command =>
    let announced := announcement path
    match (configure env disk path).bind fun c => (prepare disk c).map fun store => (c, store) with
    | .error e => (failure announced e, none)
    | .ok (c, store) =>
      let (report, store) := work surroundings workflowName serve announced c command store
      (report, some store)

end Launch
end LeagueSync
