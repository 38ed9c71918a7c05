import CatalogGraph.Harvest.State
import CatalogGraph.Mapping.Error
import CatalogGraph.Text.Quoted

/-!
What can go wrong in a harvest.
-/
namespace CatalogGraph.Harvest

/-- Why a response cannot be understood. -/
inductive ResponseFault where
  | document (fault : Xml.Fault)
  /-- The stated size of a listing is no number. -/
  | listSize (text : String)
deriving DecidableEq, Repr

def ResponseFault.message : ResponseFault → String
  | .document fault => (MappingError.source (.xml fault)).message
  | .listSize text => "invalid completeListSize " ++ Text.quoted text

/-- The cause for which a harvest or one of its records fails; `reached` is the state up to
there. -/
inductive HarvestError where
  | page (number : Nat) (reached : HarvestState) (cause : HarvestError)
  | protocol (code text : String)
  | cancelled (reached : HarvestState)
  | remote (error : RemoteError)
  | response (fault : ResponseFault)
  | mapping (error : MappingError)
  /-- A record whose work ended without an outcome. -/
  | unfinished
  /-- A listing that goes on beyond the number of pages granted. -/
  | tooManyPages (reached : HarvestState)
deriving DecidableEq, Repr

def HarvestError.message : HarvestError → String
  | .page number _ cause => "Listing page " ++ toString number ++ " failed: " ++ cause.message
  | .protocol code text => "OAI-PMH error " ++ code ++ ": " ++ text
  | .cancelled reached =>
    "Harvest cancelled after " ++ toString reached.identifiers.length ++ " identifiers"
  | .remote error => error.message
  | .response fault => "Malformed response: " ++ fault.message
  | .mapping error => "Transform failed: " ++ error.message
  | .unfinished => "Record worker failed: task aborted"
  | .tooManyPages _ => "Listing gives no last page"

/-- The state that a harvest had reached when it failed. -/
def HarvestError.reached? : HarvestError → Option HarvestState
  | .page _ reached _ | .cancelled reached | .tooManyPages reached => some reached
  | _ => none

end CatalogGraph.Harvest
