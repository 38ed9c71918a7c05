import CatalogGraph.Graph.Basic
import CatalogGraph.Remote.Binding
import CatalogGraph.Remote.Error

/-!
Triple stores: services that answer queries with rows and take statements in update requests.
-/
namespace CatalogGraph

/-- A store whose answers depend on its state `σ`. -/
structure TripleStore (σ : Type) where
  query : String → σ → Except RemoteError (List Binding) × σ
  update : String → σ → Except RemoteError Unit × σ

/-- The failure of a request that reaches no service. -/
def RemoteError.unreachable : RemoteError := .network "connection failed"

/-- The store that no request reaches. -/
def TripleStore.offline : TripleStore Unit where
  query _ s := (.error .unreachable, s)
  update _ s := (.error .unreachable, s)

/-- A list in consecutive parts of `size` elements, the last of which may be shorter. -/
def chunksOf {α : Type} (size : Nat) (xs : List α) : List (List α) :=
  if _stop : xs = [] ∨ size = 0 then (if xs = [] then [] else [xs])
  else xs.take size :: chunksOf size (xs.drop size)
termination_by xs.length
decreasing_by
  have : 0 < xs.length := List.length_pos_iff.mpr (fun e => _stop (Or.inl e))
  simp only [List.length_drop]
  omega

/-- The text of a request that inserts statements. -/
def insertRequest (triples : List Triple) : String :=
  "INSERT DATA \x7b\n" ++ String.join (triples.map fun t => "  " ++ t.render ++ "\n") ++ "\x7d"

/-- The requests that insert a graph, with at most `chunk` statements each, or all in one if
`chunk` is zero. -/
def Graph.insertRequests (g : Graph) (chunk : Nat) : List String :=
  (chunksOf chunk g.triples).map insertRequest

/-- Sends the requests in order up to the first that fails. -/
def TripleStore.sendAll {σ : Type} (store : TripleStore σ) :
    List String → σ → Except RemoteError Unit × σ
  | [], s => (.ok (), s)
  | request :: rest, s =>
    match store.update request s with
    | (.ok (), s) => store.sendAll rest s
    | (.error e, s) => (.error e, s)

/-- Inserts a graph into a store in requests of at most `chunk` statements. -/
def TripleStore.load {σ : Type} (store : TripleStore σ) (g : Graph) (chunk : Nat) (s : σ) :
    Except RemoteError Unit × σ :=
  store.sendAll (g.insertRequests chunk) s

end CatalogGraph
