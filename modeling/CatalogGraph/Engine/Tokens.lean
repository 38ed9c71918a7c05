import CatalogGraph.Text.Blank
import CatalogGraph.Text.Pieces

/-!
Values cut at delimiters into trimmed tokens.
-/
namespace CatalogGraph

/-- The tokens of each text between the occurrences of a delimiter: trimmed, and none empty. -/
def splitAt (delimiter : String) (texts : List String) : List String :=
  ((texts.flatMap fun s => Text.piecesOn delimiter.toList s.toList).map fun piece =>
    String.ofList (Text.trimChars piece)).filter (· ≠ "")

/-- The tokens of a value under each delimiter that is not empty, in turn. -/
def splitTokens (value : String) (delimiters : List String) : List String :=
  (delimiters.filter (· ≠ "")).foldl (fun texts delimiter => splitAt delimiter texts) [value]

end CatalogGraph
