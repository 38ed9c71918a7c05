import CatalogGraph.Remote.Store

/-!
Services whose answers are prepared, and services that are part of something larger.
-/
namespace CatalogGraph
variable {σ τ α β : Type}

/-- Answers that have not been given yet, and the requests received with the last one first. -/
structure Scripted (α β : Type) where
  answers : List (Except RemoteError α) := []
  received : List β := []

namespace Scripted

/-- Answers a request with the next prepared answer, or with the given one when none is left. -/
def next (fallback : α) (request : β) (s : Scripted α β) : Except RemoteError α × Scripted α β :=
  (s.answers.headD (.ok fallback),
    { answers := s.answers.drop 1, received := request :: s.received })

/-- The requests in the order in which they came. -/
def requests (s : Scripted α β) : List β := s.received.reverse

end Scripted

/-- A step on a part of a state, which leaves the rest as it is. -/
def onPart (part : τ → σ) (put : σ → τ → τ) (step : σ → α × σ) (t : τ) : α × τ :=
  let (a, s) := step (part t)
  (a, put s t)

/-- The store that answers queries as prepared and takes all updates. -/
def TripleStore.scripted : TripleStore (Scripted (List Binding) String) where
  query text s := s.next [] text
  update _ s := (.ok (), s)

/-- A store whose state is part of a larger one. -/
def TripleStore.within (part : τ → σ) (put : σ → τ → τ) (store : TripleStore σ) :
    TripleStore τ where
  query text := onPart part put (store.query text)
  update text := onPart part put (store.update text)

end CatalogGraph
