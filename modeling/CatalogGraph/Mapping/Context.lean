import CatalogGraph.Entries

/-!
Contexts: named values that stand beside the data of a row. A value is a text or is drawn anew
for each use; the draws of one generator are numbered across all contexts that share it.
-/
namespace CatalogGraph

/-- A source of texts, one for each draw. -/
structure Generator where
  id : Nat
  draw : Nat → String

/-- What a name stands for. -/
inductive ContextValue where
  | text (s : String)
  | generator (g : Generator)

/-- How many draws each generator has had. -/
abbrev Draws := List (Nat × Nat)

namespace Draws

/-- The number of draws of a generator. -/
def count (draws : Draws) (id : Nat) : Nat := (List.lookup id draws).getD 0

/-- Counts one more draw. -/
def next (draws : Draws) (id : Nat) : Draws :=
  (id, draws.count id + 1) :: draws.filter (·.1 ≠ id)

end Draws

/-- The value for one use, and the draws after it. -/
def ContextValue.resolve : ContextValue → Draws → String × Draws
  | .text s, draws => (s, draws)
  | .generator g, draws => (g.draw (draws.count g.id), draws.next g.id)

/-- The names that templates may use besides those of the row. -/
abbrev Context := Entries ContextValue

namespace Context

def empty : Context := []

/-- Sets a name to a text. -/
def set (name value : String) (ctx : Context) : Context := Entries.insert name (.text value) ctx

/-- The value of a name for one use, and the draws after it. -/
def resolve (ctx : Context) (name : String) (draws : Draws) : Option String × Draws :=
  match Entries.get? name ctx with
  | some value => let (s, draws) := value.resolve draws; (some s, draws)
  | none => (none, draws)

/-- The names of both contexts; the second one wins where they share a name. -/
def merged (ctx other : Context) : Context := Entries.insertAll other ctx

end Context
end CatalogGraph
