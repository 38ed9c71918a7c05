/-!
Paths of files: parts between slashes.
-/
namespace CatalogGraph.Command

/-- The name of the file at the end of a path. -/
def fileName? (path : String) : Option (List Char) :=
  match ((path.splitOn "/").filter fun part => part ≠ "" ∧ part ≠ ".").getLast? with
  | some ".." | none => none
  | some part => some part.toList

/-- What follows the last point of a file's name, unless the name begins with that point. -/
def extension? (path : String) : Option String := do
  let name ← fileName? path
  let after := name.reverse.takeWhile (· ≠ '.')
  if after.length + 1 < name.length then return String.ofList after.reverse else none

end CatalogGraph.Command
