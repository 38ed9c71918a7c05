/-!
What can go wrong in a request to a remote service, and which failures are worth another try.
-/
namespace CatalogGraph

/-- The cause of a failed request. -/
inductive RemoteError where
  | timeout (text : String)
  | network (text : String)
  | status (code : Nat) (body : String)
  | invalidResponse (text : String)
  | json (text : String)
  | client (text : String)
deriving DecidableEq, Repr

namespace RemoteError

def message : RemoteError → String
  | .timeout text => "Request timed out: " ++ text
  | .network text => "Network error: " ++ text
  | .status code body => "Unexpected status " ++ toString code ++ ": " ++ body
  | .invalidResponse text => "Invalid response: " ++ text
  | .json text => "JSON error: " ++ text
  | .client text => "Client configuration error: " ++ text

/-- Whether the same request may succeed later: the service was not reached in time or not at
all, was at fault, or asked for patience. -/
def isTransient : RemoteError → Bool
  | .timeout _ => true
  | .network _ => true
  | .status code _ => 500 ≤ code || code == 429
  | _ => false

def isTimeout : RemoteError → Bool
  | .timeout _ => true
  | _ => false

end RemoteError
end CatalogGraph
