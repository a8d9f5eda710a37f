import LeagueSync.Config.Codec
import LeagueSync.Config.Environment
import LeagueSync.Yaml.Decode

/-!
# LeagueSync.Config.Load

Configurations from texts and files. References to the environment are replaced before the text is
read, so a variable may hold any part of it.
-/

namespace LeagueSync
namespace Config

def ofDocument {α : Type} [Document α] (node : α) : Except ConfigError Config :=
  match decode node with
  | some c => c.check
  | none => .error .text

def ofText (env : Environment) (text : String) : Except ConfigError Config :=
  match Yaml.Excerpt.read? (env.expand text) with
  | some e => ofDocument e
  | none => .error .text

/-- The configuration of a file, of which the content was read or could not be. -/
def ofFile (env : Environment) (content : Except FileFault ByteArray) :
    Except ConfigError Config :=
  match content with
  | .error fault => .error (.file fault)
  | .ok bytes =>
    match String.fromUTF8? bytes with
    | some text => ofText env text
    | none => .error (.file .notText)

end Config
end LeagueSync
