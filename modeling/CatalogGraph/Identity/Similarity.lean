import CatalogGraph.Text.Alphabetic
import CatalogGraph.Text.Blank
import CatalogGraph.Text.Lowercase
import CatalogGraph.Text.Numeric
import CatalogGraph.Text.Pieces

/-!
When a label names a candidate: it stands in the label of the candidate, and a policy may ask
that the two are alike. Likeness is measured by the longest common subsequence of letters, digits
and blanks, whatever their case.
-/
namespace CatalogGraph.Identity

/-- The letters and digits of a text in lower case, with a blank where white space stands between
two of them. `started` tells whether there has been one, and `pending` whether white space has come
since. -/
def normalizedFrom (started pending : Bool) : List Char → List Char
  | [] => []
  | c :: rest =>
    if Text.isAlphabetic c || Text.isNumeric c then
      (if started && pending then [' '] else []) ++ Text.lowercase c ++
        normalizedFrom true false rest
    else normalizedFrom started (pending || Text.isBlank c) rest

def normalized (s : String) : List Char := normalizedFrom false false s.toList

/-- The lengths of the longest common subsequences with one more character `c` on one side, for
each start of the other side, from the lengths without it. `left` and `corner` are the lengths at
the start before the first, with the character and without. -/
def nextLengths (c : Char) : Nat → Nat → List Char → List Nat → List Nat
  | left, corner, d :: ds, up :: ups =>
    let n := if c = d then corner + 1 else max left up
    n :: nextLengths c n up ds ups
  | _, _, _, _ => []

/-- The lengths of the longest common subsequences of a text with each start of another. -/
def commonLengths (a b : List Char) : List Nat :=
  a.foldl (fun lengths c => nextLengths c 0 0 b lengths) (b.map fun _ => 0)

/-- The length of the longest common subsequence of two texts. -/
def commonLength (a b : List Char) : Nat := (commonLengths a b).getLastD 0

/-- How alike two texts are in percent: twice the common length in proportion to both lengths,
rounded to the nearest with a half going up; two empty texts are alike. -/
def similarity (a b : String) : Nat :=
  let (x, y) := (normalized a, normalized b)
  let total := x.length + y.length
  if total = 0 then 100 else (200 * commonLength x y + total / 2) / total

/-- What it takes for a label to name a candidate. -/
inductive MatchPolicy where
  /-- The label stands in the label of the candidate. -/
  | contains
  /-- It does, and the two are alike in at least so many percent. -/
  | similar (percent : Nat)
deriving DecidableEq, Repr

namespace MatchPolicy

/-- The policy for the names of the Library of Congress. -/
def strict : MatchPolicy := .similar 90

/-- Whether a label names a candidate. -/
def accepts (policy : MatchPolicy) (candidate label : String) : Bool :=
  Text.occursIn label.toList candidate.toList &&
    match policy with
    | .contains => true
    | .similar percent => percent ≤ similarity candidate label

end MatchPolicy
end CatalogGraph.Identity
