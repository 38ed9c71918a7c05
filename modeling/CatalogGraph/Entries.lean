/-!
Association lists kept in ascending order of their keys, one entry for each key. Reading a key
that was written gives the value written last.
-/
namespace CatalogGraph

/-- Values by key, the keys in ascending order. -/
abbrev Entries (α : Type) := List (String × α)

namespace Entries
variable {α : Type}

/-- Writes a value under a key, in place of the one that is there. -/
def insert (key : String) (value : α) : Entries α → Entries α
  | [] => [(key, value)]
  | (k, v) :: rest =>
    if key < k then (key, value) :: (k, v) :: rest
    else if key = k then (key, value) :: rest
    else (k, v) :: insert key value rest

/-- Reads the value under a key. -/
def get? (key : String) : Entries α → Option α
  | [] => none
  | (k, v) :: rest => if key = k then some v else get? key rest

/-- Whether a key has a value. -/
def contains (key : String) (entries : Entries α) : Bool :=
  (entries.get? key).isSome

/-- Writes a value under a key that has none. -/
def insertNew (key : String) (value : α) (entries : Entries α) : Entries α :=
  if entries.contains key then entries else entries.insert key value

/-- Enters each pair of a list in turn, so that the last one for a key stays. -/
def insertAll (pairs : List (String × α)) (entries : Entries α) : Entries α :=
  pairs.foldl (fun acc pair => acc.insert pair.1 pair.2) entries

/-- The entries of a list of pairs, of which the last one for a key counts. -/
def ofPairs (pairs : List (String × α)) : Entries α :=
  insertAll pairs []

theorem get?_insert (key other : String) (value : α) (entries : Entries α) :
    (entries.insert key value).get? other =
      if other = key then some value else entries.get? other := by
  induction entries with
  | nil => simp [insert, get?]
  | cons pair rest ih => grind [insert, get?]

end Entries
end CatalogGraph
