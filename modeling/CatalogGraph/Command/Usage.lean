import CatalogGraph.Command.Option

/-!
What is told about the arguments of the program.
-/
namespace CatalogGraph.Command

/-- How the program is called. -/
def usageText : String := "\n".intercalate
  ["Usage: bibcat [OPTIONS] <COMMAND>",
   "",
   "Commands:",
   "  transform <INPUT> --rules <PATH>  map a document into a graph",
   "  harvest [--rules <PATH>]          list a repository and map its records",
   "  check <RULES>                     show an overview of rules",
   "  help [COMMAND]                    show this text",
   "",
   "Options:",
   "  -v, --verbose",
   "  -q, --quiet",
   "      --no-color",
   "      --config <PATH>",
   "  -h, --help",
   "  -V, --version",
   ""]

/-- The name of the program and its version. -/
def versionText : String := "bibcat 0.3.0\n"

namespace ArgumentFault

def message : ArgumentFault → String
  | .help | .helpOnMissing => usageText
  | .version => versionText
  | .missingCommand => "a command is required"
  | .unknownCommand => "there is no such command"
  | .unknownArgument => "unexpected argument"
  | .missingArgument => "a required argument is missing"
  | .conflict => "an argument cannot be used with another one"
  | .tooManyValues => "unexpected value for a flag"
  | .invalidValue | .unreadableValue => "invalid value for an option"

/-- The text that is shown. -/
def report (fault : ArgumentFault) : String :=
  match fault with
  | .help | .helpOnMissing | .version => fault.message
  | _ => "error: " ++ fault.message ++ "\n\nFor more information, try '--help'.\n"

/-- The exit code: what was asked for is no failure. -/
def exitCode : ArgumentFault → Nat
  | .help | .version => 0
  | _ => 2

end ArgumentFault
end CatalogGraph.Command
