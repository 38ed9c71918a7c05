import CatalogGraph.Json.Value

/-!
The state of a harvest: the identifiers listed so far, each once, and what the repository has said
about the rest.
-/
namespace CatalogGraph.Harvest

/-- One page of a listing. -/
structure ListingPage where
  identifiers : List String := []
  /-- What to ask with for the next page. -/
  token : Option String := none
  /-- The number of identifiers that the whole listing is said to have. -/
  size : Option Nat := none
deriving DecidableEq, Repr

def ListingPage.toJson (page : ListingPage) : Json := .ofMembers
  [("identifiers", .strings page.identifiers), ("token", .optional .string page.token),
   ("size", .optional .ofNat page.size)]

/-- Where a harvest stands. -/
inductive Phase where
  | start
  | listing
  | resuming
  | done
deriving DecidableEq, Repr

def Phase.name : Phase → String
  | .start => "start"
  | .listing => "listing"
  | .resuming => "resuming"
  | .done => "done"

/-- How far a harvest has come. -/
structure HarvestState where
  identifiers : List String := []
  /-- The identifiers that count as known, the last one first. -/
  seen : List String := identifiers.reverse
  token : Option String := none
  total : Option Nat := none
  pages : Nat := 0
  phase : Phase := .start
deriving DecidableEq, Repr

namespace HarvestState

/-- Whether an identifier is known. -/
def contains (state : HarvestState) (identifier : String) : Bool :=
  state.seen.contains identifier

/-- Adds an identifier, unless it is known. -/
def add (state : HarvestState) (identifier : String) : HarvestState :=
  if state.contains identifier then state
  else { state with
    identifiers := state.identifiers ++ [identifier]
    seen := identifier :: state.seen }

/-- How many identifiers are new when they are added in turn, as is reported for a page. -/
def countNew : HarvestState → List String → Nat
  | _, [] => 0
  | state, identifier :: rest =>
    (if state.contains identifier then 0 else 1) + countNew (state.add identifier) rest

/-- Takes up a page; its token replaces the one before, its size only if it states one. -/
def absorb (state : HarvestState) (page : ListingPage) : HarvestState :=
  { page.identifiers.foldl add state with
    pages := state.pages + 1
    token := page.token
    total := page.size.or state.total }

/-- Whether the listing has as many identifiers as it is said to have. -/
def hasReachedTotal (state : HarvestState) : Bool :=
  state.total.any fun total => total ≤ state.identifiers.length

/-- The token for the next page, unless the listing is complete. -/
def nextToken? (state : HarvestState) : Option String :=
  if state.hasReachedTotal then none else state.token

/-- Whether there is a next page to ask for. -/
def shouldResume (state : HarvestState) : Bool := state.nextToken?.isSome

/-- The texts in the given places, each moved out of its place, which is left empty. -/
def moveOut : List Nat → List String → List String
  | [], _ => []
  | place :: rest, texts => texts.getD place "" :: moveOut rest (texts.set place "")

/-- Keeps the identifiers in the given places, in order, if there are more than `size`. -/
def sample (state : HarvestState) (size : Nat) (places : List Nat) : HarvestState :=
  if state.identifiers.length ≤ size then state
  else
    let kept := moveOut (places.mergeSort (· ≤ ·)) state.identifiers
    { state with identifiers := kept, seen := kept }

def toJson (state : HarvestState) : Json := .ofMembers
  [("identifiers", .strings state.identifiers),
   ("resumption_token", .optional .string state.token),
   ("total_expected", .optional .ofNat state.total), ("pages", .ofNat state.pages),
   ("phase", .string state.phase.name)]

end HarvestState
end CatalogGraph.Harvest
