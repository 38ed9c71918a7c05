import CatalogGraph.Harvest.Error
import CatalogGraph.Identity.Resolve

/-!
What can go wrong in a command.
-/
namespace CatalogGraph.Command

/-- Why a request cannot be met as it is. -/
inductive UsageFault where
  /-- A named value without an equals sign. -/
  | namedValue (text : String)
  | noEndpoint
  | unknownFormat (path : String)
  | loadWithoutStore
  | graphWithoutRules
  | dedupWithoutStore
deriving DecidableEq, Repr

def UsageFault.message : UsageFault → String
  | .namedValue text => "--var expects NAME=VALUE, got " ++ Text.quoted text
  | .noEndpoint => "no OAI-PMH endpoint: pass --endpoint or set [harvest].endpoint"
  | .unknownFormat path => "cannot tell the format of " ++ path ++ "; pass --format"
  | .loadWithoutStore => "--load needs a triplestore"
  | .graphWithoutRules => "--dedup and --load need --rules to produce a graph"
  | .dedupWithoutStore => "--dedup needs a triplestore (--triplestore or [triplestore].url)"

/-- Why the settings file cannot be used. -/
inductive SettingsFault where
  | missing (path : String)
  | malformed (path : String)
deriving DecidableEq, Repr

def SettingsFault.message : SettingsFault → String
  | .missing path => "config file not found: " ++ path
  | .malformed path => path ++ ": malformed settings"

/-- The cause for which a command fails. -/
inductive CommandError where
  | mapping (error : MappingError)
  | remote (error : RemoteError)
  | harvest (error : Harvest.HarvestError)
  | identity (error : Identity.IdentityError)
  | settings (fault : SettingsFault)
  | file (text : String)
  | usage (fault : UsageFault)
deriving DecidableEq, Repr

namespace CommandError

def message : CommandError → String
  | .mapping error => error.message
  | .remote error => error.message
  | .harvest error => error.message
  | .identity error => error.message
  | .settings fault => fault.message
  | .file text => text
  | .usage fault => fault.message

/-- How many identifiers had been listed when a harvest failed. -/
def listed? : CommandError → Option Nat
  | .harvest error => error.reached?.map (·.identifiers.length)
  | _ => none

/-- The lines that report an error. -/
def report (error : CommandError) : String :=
  let note := match error.listed? with
    | some n => "\n  note: " ++ toString n ++ " identifiers were listed before the failure"
    | none => ""
  "error: " ++ error.message ++ note

/-- The exit code of a command that has failed. -/
def exitCode : CommandError → Nat
  | .usage _ => 2
  | _ => 1

end CommandError
end CatalogGraph.Command
