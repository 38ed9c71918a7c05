import CatalogGraph.Harvest.Error
import CatalogGraph.Source.Node

/-!
Listing the identifiers of a repository page by page, each page with the token of the one before.
-/
namespace CatalogGraph.Harvest

/-- A request for the first page of a listing or for one that follows. -/
inductive ListRequest where
  | first (metadataPrefix : String) (set : Option String)
  | resume (token : String)
deriving DecidableEq, Repr

/-- The parameters of a request, in order. -/
def ListRequest.parameters : ListRequest → List (String × String)
  | .first metadataPrefix set =>
    [("verb", "ListIdentifiers"), ("metadataPrefix", metadataPrefix)] ++
      (set.map fun name => ("set", name)).toList
  | .resume token => [("verb", "ListIdentifiers"), ("resumptionToken", token)]

/-- A repository, whose answers depend on its state `σ`, and whether work is to stop there. -/
structure Repository (σ : Type) where
  list : ListRequest → σ → Except HarvestError ListingPage × σ
  record : String → String → σ → Except HarvestError Source × σ
  isCancelled : σ → Bool := fun _ => false
  /-- How many pages a listing may take behind the first. -/
  pages : Nat := 0x10000000000

/-- What to list. -/
structure HarvestOptions where
  metadataPrefix : String := "mods"
  set : Option String := none
  /-- How many identifiers to keep. -/
  sampleSize : Option Nat := none
  /-- Where the random choice of them starts. -/
  seed : Option Nat := none
deriving DecidableEq, Repr

def HarvestOptions.toJson (options : HarvestOptions) : Json := .ofMembers
  [("metadata_prefix", .string options.metadataPrefix), ("set", .optional .string options.set),
   ("sample", .optional .ofNat options.sampleSize), ("seed", .optional .ofNat options.seed)]

/-- A random choice: by the seed, the places of so many of a number of things. -/
abbrev Chooser := Option Nat → Nat → Nat → List Nat

variable {σ : Type}

/-- Asks for a page and takes it up. -/
def fetchPage (repository : Repository σ) (state : HarvestState) (request : ListRequest) (s : σ) :
    Except HarvestError HarvestState × σ :=
  match repository.list request s with
  | (.ok page, s) => (.ok (state.absorb page), s)
  | (.error cause, s) => (.error (.page (state.pages + 1) state cause), s)

/-- Whether a page has brought nothing: no identifier and the token that it was asked with. -/
def isStuck (before after : HarvestState) (token : String) : Bool :=
  after.identifiers.length == before.identifiers.length && after.token == some token

/-- Asks for the pages behind the first, at most as many as given. -/
def resumeListing (repository : Repository σ) :
    Nat → HarvestState → σ → Except HarvestError HarvestState × σ
  | 0, state, s => (.error (.tooManyPages state), s)
  | left + 1, state, s =>
    match state.nextToken? with
    | none => (.ok state, s)
    | some token =>
      if repository.isCancelled s then (.error (.cancelled state), s)
      else
        match fetchPage repository { state with phase := .resuming } (.resume token) s with
        | (.error e, s) => (.error e, s)
        | (.ok next, s) =>
          if isStuck state next token then (.ok next, s)
          else resumeListing repository left next s

/-- The state at the end of a listing: a sample if one is wanted. -/
def finish (options : HarvestOptions) (choose : Chooser) (state : HarvestState) : HarvestState :=
  let kept := match options.sampleSize with
    | none => state
    | some size => state.sample size (choose options.seed state.identifiers.length size)
  { kept with phase := .done }

/-- Lists the identifiers of a repository. -/
def harvest (repository : Repository σ) (options : HarvestOptions) (choose : Chooser)
    (s : σ) : Except HarvestError HarvestState × σ :=
  let request : ListRequest := .first options.metadataPrefix options.set
  match fetchPage repository { phase := .listing } request s with
  | (.error e, s) => (.error e, s)
  | (.ok state, s) =>
    match resumeListing repository repository.pages state s with
    | (.error e, s) => (.error e, s)
    | (.ok state, s) => (.ok (finish options choose state), s)

end CatalogGraph.Harvest
