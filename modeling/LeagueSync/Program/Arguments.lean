import LeagueSync.Config.Environment
import LeagueSync.Records.Entry
import LeagueSync.Records.Trigger
import LeagueSync.Text.Numeral

/-!
# LeagueSync.Program.Arguments

The command line. Options may stand before and after the name of the command; an option that has a
value takes it from the same argument or from the next, which must not look like an option itself.
Arguments are read from left to right, so the first fault or the first request for help decides.
-/

namespace LeagueSync

inductive Command where
  /-- Serve: run scheduled jobs until told to stop. -/
  | run
  /-- Run one job over these entries, or over all known ones, and what follows from it. -/
  | sync (ids : List EntryId) (source : Trigger)
  deriving DecidableEq, Repr

inductive Invocation where
  | version
  | help
  | misuse
  | start (config : Option String) (command : Command)
  deriving DecidableEq, Repr

/-- The parts of a command line: before the command, and after each of the commands. -/
inductive CommandPart where
  | top
  | run
  | sync
  deriving DecidableEq, Repr

inductive CommandOption where
  | config
  | source
  | help
  | version
  deriving DecidableEq, Repr

namespace CommandOption

def isIn : CommandOption → CommandPart → Bool
  | config, _ => true
  | help, _ => true
  | source, part => part == .sync
  | version, part => part == .top

def ofLong? : String → Option CommandOption
  | "config" => some config
  | "source" => some source
  | "help" => some help
  | "version" => some version
  | _ => none

def ofShort? : Char → Option CommandOption
  | 'c' => some config
  | 'h' => some help
  | 'V' => some version
  | _ => none

/-- An option without its dashes, with the value that is attached to it. -/
def split? (cs : List Char) : Option (CommandOption × Option String) :=
  match cs with
  | '-' :: long =>
    let name := long.takeWhile (· != '=')
    let value := match long.drop name.length with
      | _ :: value => some (String.ofList value)
      | [] => none
    (ofLong? (String.ofList name)).bind fun option =>
      if value.isSome && (option == help || option == version) then none else some (option, value)
  | letter :: value =>
    (ofShort? letter).map fun option =>
      (option, match value with
        | [] => none
        | '=' :: value => some (String.ofList value)
        | value => some (String.ofList value))
  | [] => none

/-- An option that may stand in this part. -/
def read? (part : CommandPart) (arg : String) : Option (CommandOption × Option String) :=
  (split? (arg.toList.drop 1)).filter fun x => x.1.isIn part

end CommandOption

def looksLikeOption (arg : String) : Bool :=
  match arg.toList with
  | '-' :: _ :: _ => true
  | _ => false

structure GivenArguments where
  part : CommandPart := .top
  /-- The configuration file that was named before the command. -/
  outerConfig : Option String := none
  /-- The configuration file that was named in this part. -/
  config : Option String := none
  source : Option Trigger := none
  ids : List EntryId := []

namespace GivenArguments

/-- Takes the value of an option, which may be given once in a part. -/
def set? (g : GivenArguments) (option : CommandOption) (value : String) : Option GivenArguments :=
  match option with
  | .config => if g.config.isSome then none else some { g with config := some value }
  | .source =>
    if g.source.isSome then none
    else (Trigger.parse? value).map fun source => { g with source := some source }
  | _ => none

def enter (g : GivenArguments) (part : CommandPart) : GivenArguments :=
  { g with part, outerConfig := g.config, config := none }

def addId? (g : GivenArguments) (arg : String) : Option GivenArguments :=
  if g.part = .sync then
    (Text.signed? (UInt64.size / 2) arg.toList).map fun id => { g with ids := g.ids ++ [Int64.ofInt id] }
  else none

/-- What the whole command line asks for. The environment may name the configuration file, too. -/
def invocation (env : Environment) (g : GivenArguments) : Invocation :=
  let config := (g.config.or g.outerConfig).or (env.get? "FPL_SYNC_CONFIG")
  match g.part with
  | .top => .misuse
  | .run => .start config .run
  | .sync => .start config (.sync g.ids (g.source.getD .manual))

end GivenArguments

namespace Invocation

def ofHelp : List String → Invocation
  | [] => .help
  | ["run"] => .help
  | ["sync"] => .help
  | ["help"] => .help
  | _ => .misuse

def read (env : Environment) (g : GivenArguments) (args : List String) : Invocation :=
  match args with
  | [] => g.invocation env
  | "--" :: rest =>
    match rest.foldlM GivenArguments.addId? g with
    | some g => g.invocation env
    | none => .misuse
  | arg :: rest =>
    if looksLikeOption arg then
      match CommandOption.read? g.part arg with
      | none => .misuse
      | some (.help, _) => .help
      | some (.version, _) => .version
      | some (option, some value) =>
        match g.set? option value with
        | some g => read env g rest
        | none => .misuse
      | some (option, none) =>
        match rest with
        | [] => .misuse
        | value :: rest =>
          if looksLikeOption value then .misuse
          else
            match g.set? option value with
            | some g => read env g rest
            | none => .misuse
    else if g.part = .top then
      match arg with
      | "run" => read env (g.enter .run) rest
      | "sync" => read env (g.enter .sync) rest
      | "help" => ofHelp rest
      | _ => .misuse
    else
      match g.addId? arg with
      | some g => read env g rest
      | none => .misuse
termination_by args.length
decreasing_by all_goals simp only [List.length_cons]; omega

def ofArguments (env : Environment) (args : List String) : Invocation :=
  read env {} args

end Invocation
end LeagueSync
