import CatalogGraph.Command.Run
import CatalogGraph.Text.Pieces

/-!
Runs of commands in a directory whose files are held in memory: what is written is found among the
files afterwards.
-/
namespace CatalogGraph.Command

/-- A directory of files and the parts of its path, which are none if it is the one in which
commands run. -/
structure Directory where
  parts : List String := []
  files : List (String × String) := []
deriving DecidableEq, Repr

namespace Directory

/-- The name in the directory that a path leads to. No path from the root leads to the directory
in which commands run. -/
def nameOf? (directory : Directory) (path : String) : Option String :=
  let parts := path.splitOn "/"
  let named := parts.filter fun part => part ≠ "" ∧ part ≠ "."
  let fromRoot := 1 < parts.length && parts.head? == some ""
  if parts.getLast?.any (["", ".", ".."].contains ·) then none
  else if fromRoot && directory.parts.isEmpty then none
  else
    match Text.afterStart? directory.parts named with
    | some [name] => some name
    | _ => none

def file? (directory : Directory) (name : String) : Option String := directory.files.lookup name

/-- What is found under a path. -/
def content (directory : Directory) : Files := fun path =>
  match (directory.nameOf? path).bind directory.file? with
  | some text => .text text
  | none => .unreadable false "no such file"

/-- Writes a file, unless its path leads out of the directory. -/
def write? (directory : Directory) (path text : String) : Option Directory :=
  (directory.nameOf? path).map fun name =>
    { directory with files := (name, text) :: directory.files }

end Directory

/-- How a run has ended, the notes that it gave, and the directory after it. -/
structure Ending where
  result : Except CommandError Output
  notes : List String := []
  directory : Directory

namespace Ending

/-- What has been written to the output. -/
def output (ending : Ending) : String :=
  match ending.result with
  | .ok output => if output.path?.isSome then "" else output.text
  | .error _ => ""

/-- What has been reported. -/
def reports (ending : Ending) : List String :=
  match ending.result with
  | .ok _ => ending.notes
  | .error e => ending.notes ++ [e.report]

def exitCode (ending : Ending) : Nat :=
  match ending.result with
  | .ok _ => 0
  | .error e => e.exitCode

end Ending

/-- Writes the output of a run that asks for a file. -/
def Directory.store (directory : Directory) (notes : List String) (output : Output) : Ending :=
  match output.path? with
  | none => { result := .ok output, notes, directory }
  | some path =>
    match directory.write? path output.text with
    | some directory => { result := .ok output, notes, directory }
    | none => { result := .error (.file (path ++ ": cannot be written")), notes, directory }

/-- Runs what the arguments ask for in a directory. -/
def Invocation.runIn {σ : Type} (services : Services σ) (directory : Directory) (s : σ)
    (invocation : Invocation) : Ending :=
  match (invocation.run services directory.content).run.run { services := s } with
  | (.ok output, session) => directory.store session.notes output
  | (.error e, session) => { result := .error e, notes := session.notes, directory }

end CatalogGraph.Command
