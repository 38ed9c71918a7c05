import CatalogGraph.Harvest.Error
import CatalogGraph.Text.Blank
import CatalogGraph.Text.Numeral
import CatalogGraph.Xml.Document

/-!
Responses of a repository in the protocol for metadata harvesting. Elements and attributes count
by their local names, whatever their namespaces.
-/
namespace CatalogGraph.Harvest
open Xml

/-- The value of the first attribute of a local name. -/
def attribute? (d : Document) (id : Nat) (name : String) : Option String :=
  ((d.element id).attributes.find? (·.name.localName == name)).map (·.value)

/-- The first element of a local name directly within an element. -/
def childNamed? (d : Document) (id : Nat) (name : String) : Option Nat :=
  (d.childElements id).find? fun child => (d.element child).name.localName == name

/-- The text within an element without white space at its ends. -/
def trimmedText (d : Document) (id : Nat) : String := Text.trim (d.textContent id)

/-- The error that a repository reports. -/
def reportedError? (d : Document) : Option HarvestError := do
  let error ← childNamed? d (← d.root?) "error"
  return .protocol ((attribute? d error "code").getD "unknown") (trimmedText d error)

/-- Reads a response that reports no error. -/
def readResponse (text : String) : Except HarvestError Document :=
  match Document.parse text with
  | .error fault => .error (.response (.document fault))
  | .ok d =>
    match reportedError? d with
    | some error => .error error
    | none => .ok d

/-- The identifier in the header of a record, unless the record is deleted or it is blank. -/
def headerIdentifier? (d : Document) (header : Nat) : Option String :=
  if attribute? d header "status" = some "deleted" then none
  else ((childNamed? d header "identifier").map (trimmedText d)).filter (· ≠ "")

/-- The size of the listing as an attribute states it. -/
def statedSize (d : Document) (id : Nat) : Except HarvestError (Option Nat) :=
  match attribute? d id "completeListSize" with
  | none => .ok none
  | some text =>
    match Text.word? (Text.trim text) with
    | some n => .ok (some n)
    | none => .error (.response (.listSize text))

/-- The page with what an element adds to it. -/
def readElement (d : Document) (page : ListingPage) (id : Nat) :
    Except HarvestError ListingPage := do
  match (d.element id).name.localName with
  | "header" =>
    return { page with identifiers := page.identifiers ++ (headerIdentifier? d id).toList }
  | "resumptionToken" =>
    let token := (some (trimmedText d id)).filter (· ≠ "")
    return { page with token, size := ← statedSize d id }
  | _ => return page

/-- The code with which a repository reports that a listing is empty. -/
def emptyListingCode : String := "noRecordsMatch"

/-- Reads the response to a request for a page. -/
def readListing (text : String) : Except HarvestError ListingPage :=
  match readResponse text with
  | .error (.protocol code message) =>
    if code = emptyListingCode then .ok {} else .error (.protocol code message)
  | .error e => .error e
  | .ok d => (d.descendantsOrSelf documentId).foldlM (readElement d) {}

end CatalogGraph.Harvest
