import CatalogGraph.JsonPath.Path
import CatalogGraph.Remote.Error
import CatalogGraph.Source.Table
import CatalogGraph.Turtle.Token
import CatalogGraph.XPath.Syntax
import CatalogGraph.Xml.Fault

/-!
What can go wrong in reading rules, in compiling them and in running them.
-/
namespace CatalogGraph

/-- Why a text is no source document. -/
inductive SourceFault where
  | xml (fault : Xml.Fault)
  | json
  | table (fault : Table.Fault)
deriving DecidableEq, Repr

def SourceFault.message : SourceFault → String
  | .xml fault => fault.message
  | .json => "JSON"
  | .table fault => fault.message

/-- Why the text of a path cannot be compiled. -/
inductive PathFault where
  | xpath (fault : XPath.Fault)
  | jsonPath (fault : JsonPath.Fault)
deriving DecidableEq, Repr

def PathFault.message : PathFault → String
  | .xpath fault => fault.message
  | .jsonPath fault => fault.message

/-- The cause for which rules or a run of them fail. -/
inductive MappingError where
  | parse (fault : Turtle.Fault)
  | missingProperty (name : String)
  | invalidValue (property reason : String)
  | unknownMap (child parent : String)
  | parentCycle (path : List String)
  | sourceMismatch (map expected found : String)
  | noTemplateValue (template name : String)
  | invalidPath (text : String) (fault : PathFault)
  | source (fault : SourceFault)
  | remote (error : RemoteError)
  /-- A query that goes on giving full pages beyond the number of pages granted. -/
  | tooManyPages (map : String)
deriving DecidableEq, Repr

namespace MappingError

def message : MappingError → String
  | .parse _ => "Parse error: malformed Turtle"
  | .missingProperty name => "Missing required property: " ++ name
  | .invalidValue property reason => "Invalid value for " ++ property ++ ": " ++ reason
  | .unknownMap child parent => "Unknown TriplesMap " ++ parent ++ " referenced from " ++ child
  | .parentCycle path => "Cyclic parentTriplesMap chain: " ++ " -> ".intercalate path
  | .sourceMismatch map expected found =>
    "TriplesMap " ++ map ++ " expects " ++ expected ++ " input, got " ++ found
  | .noTemplateValue template name =>
    "Template " ++ template ++ ": no value for \x7b" ++ name ++ "\x7d"
  | .invalidPath text fault => "Invalid path expression '" ++ text ++ "': " ++ fault.message
  | .source fault => "Source error: " ++ fault.message
  | .remote error => "Remote query failed: " ++ error.message
  | .tooManyPages map => "TriplesMap " ++ map ++ ": query gives no last page"

/-- Whether the rules are at fault, so that no source and no store makes them run. -/
def isConfiguration : MappingError → Bool
  | .missingProperty _ | .invalidValue _ _ | .unknownMap _ _ | .parentCycle _
  | .sourceMismatch _ _ _ | .invalidPath _ _ => true
  | _ => false

end MappingError
end CatalogGraph
