import CatalogGraph.Harvest.Listing

/-!
Random choices of places, drawn one by one without return.
-/
namespace CatalogGraph.Harvest

/-- Draws so many of the places that are left. -/
def drawPlaces : Nat → List Nat → StdGen → List Nat
  | 0, _, _ => []
  | left + 1, places, random =>
    let (i, random) := randNat random 0 (places.length - 1)
    match places[i]? with
    | some place => place :: drawPlaces left (places.eraseIdx i) random
    | none => []

/-- The choice that starts from the seed that is given, or else from `fallback`. -/
def drawing (fallback : Nat) : Chooser := fun seed count size =>
  drawPlaces size (List.range count) (mkStdGen (seed.getD fallback))

end CatalogGraph.Harvest
