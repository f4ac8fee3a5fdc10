import GraphBase.Config.Basic
import GraphBase.Connection.Host

/-!
# Settings files

The settings of a store are kept in a TOML file.  A file that is missing has no settings,
which is no failure; one that is there has to be readable.  Writing does not replace a file
unless that is asked for.
-/

namespace GraphBase

/-- Why settings could not be read or written. -/
inductive SettingsFault where
  | file (fault : FileFault)
  /-- The text is no TOML, or a setting in it is of the wrong kind. -/
  | malformed
  /-- TOML has no room for a number. -/
  | tooLarge
  | alreadyThere (name : String)
  deriving DecidableEq, Repr

/-- The wording of a cause. -/
def SettingsFault.message : SettingsFault → String
  | file fault => fault.message
  | malformed => "TOML parse error"
  | tooLarge => "out-of-range value for u64 type"
  | alreadyThere name => "config already exists at " ++ name ++ " (use --force to overwrite)"

namespace StoreConfig

/-- The settings file unless another one is named. -/
def defaultFile : String := "relgraph.toml"

/-- The settings in a file, if there is one. -/
def load (h : Host) (name : String) : Except SettingsFault (Option StoreConfig) :=
  if h.nameExists name then
    match h.readText name with
    | .error fault => .error (.file fault)
    | .ok text =>
      match ofToml? text with
      | some c => .ok (some c)
      | none => .error .malformed
  else .ok none

/-- Writes settings to a file; one that is there is replaced only by force. -/
def save (h : Host) (name : String) (c : StoreConfig) (force : Bool) :
    Except SettingsFault Host :=
  if h.nameExists name && !force then .error (.alreadyThere name)
  else
    match c.toToml? with
    | none => .error .tooLarge
    | some text => (h.writeText name text).mapError .file

end StoreConfig

end GraphBase
