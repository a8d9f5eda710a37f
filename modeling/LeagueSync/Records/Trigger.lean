import LeagueSync.Json.Decode

/-!
# LeagueSync.Records.Trigger

What triggers a batch job. The name is read in any letters on the command line and in the
database, and exactly in JSON.

* `Trigger.ofName?_name`: the name of a trigger reads back.
-/

namespace LeagueSync

inductive Trigger where
  | manual
  | cron
  | cascade
  | retry
  deriving DecidableEq, Repr, Inhabited

namespace Trigger

def all : List Trigger := [manual, cron, cascade, retry]

def name : Trigger → String
  | manual => "manual"
  | cron => "cron"
  | cascade => "cascade"
  | retry => "retry"

/-- The trigger of exactly this name. -/
def ofName? (s : String) : Option Trigger :=
  all.find? fun t => t.name == s

theorem ofName?_name (t : Trigger) : ofName? t.name = some t := by
  cases t <;> decide

theorem name_inj {s t : Trigger} : s.name = t.name ↔ s = t := by
  refine ⟨fun same => ?_, congrArg name⟩
  have named := congrArg ofName? same
  rw [ofName?_name, ofName?_name] at named
  exact Option.some.inj named

/-- The trigger of this name in any letters. Lower case is that of ASCII, since no name has a letter
whose lower case is shared with a character outside it. -/
def parse? (s : String) : Option Trigger :=
  ofName? (s.map Char.toLower)

def refusal (s : String) : String :=
  "Invalid job source: " ++ s

def decode (t : Json.Tree) : Option Trigger :=
  t.word.bind ofName?

def toJson (t : Trigger) : Json :=
  .str t.name

end Trigger
end LeagueSync
