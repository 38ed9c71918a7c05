import CatalogGraph.Identity.Candidate

/-!
The index of candidates: the answers of a source that serve all labels, each asked for once, and
the names minted so far.
-/
namespace CatalogGraph.Identity

/-- What is known about candidates so far. -/
structure Index where
  /-- The answers by key, each key once. -/
  loaded : List (CandidateKey × List Candidate) := []
  /-- The minted names by class. -/
  minted : Entries (List Candidate) := []
deriving Repr

namespace Index

/-- The names minted for a class, in order. -/
def mintedFor (index : Index) (cls : String) : List Candidate :=
  (index.minted.get? cls).getD []

/-- Keeps a minted name, unless it is there. -/
def recordMinted (index : Index) (cls : String) (candidate : Candidate) : Index :=
  let known := index.mintedFor cls
  if known.contains candidate then index
  else { index with minted := index.minted.insert cls (known ++ [candidate]) }

/-- The number of keys whose answer is kept. -/
def loadedKeys (index : Index) : Nat := index.loaded.length

/-- The answer of a source for a key: the one that is kept, or else a new one, which is kept if it
serves all labels. -/
def answer {σ : Type} (source : CandidateSource σ) (key : CandidateKey) (label : String)
    (index : Index) (s : σ) : Except RemoteError (List Candidate) × Index × σ :=
  if source.isCacheable then
    match index.loaded.lookup key with
    | some found => (.ok found, index, s)
    | none =>
      match source.lookup key label s with
      | (.ok found, s) => (.ok found, { index with loaded := (key, found) :: index.loaded }, s)
      | (.error e, s) => (.error e, index, s)
  else
    let (found, s) := source.lookup key label s
    (found, index, s)

/-- The candidates for a key: those of the source, and the names minted for the class. -/
def candidates {σ : Type} (source : CandidateSource σ) (key : CandidateKey) (label : String)
    (index : Index) (s : σ) : Except RemoteError (List Candidate) × Index × σ :=
  match index.answer source key label s with
  | (.ok found, index, s) => (.ok (found ++ index.mintedFor key.cls), index, s)
  | (.error e, index, s) => (.error e, index, s)

end Index
end CatalogGraph.Identity
