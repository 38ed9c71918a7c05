import CatalogGraph.Command.Run
import CatalogGraph.Command.Usage
import CatalogGraph.Harvest.Sampling
import CatalogGraph.Text.Uuid

/-!
The program: reads the files that a command names, runs it, and writes what it gives. No service
is reached from here.
-/
namespace CatalogGraph
open Command

/-- Reads a file, or says why that cannot be done. -/
def readContent (path : String) : IO FileContent := do
  try
    return .text (← IO.FS.readFile path)
  catch e =>
    let isFile := match e with
      | .noFileOrDirectory .. | .inappropriateType .. => false
      | _ => true
    return .unreadable isFile (toString e)

/-- The files of some paths; no others are looked at. -/
def readFiles (paths : List String) : IO Files := do
  let contents ← paths.mapM fun path => return (path, ← readContent path)
  return fun path => (contents.lookup path).getD (.unreadable false "not read")

/-- Writes what a command gives out. -/
def writeOutput (output : Output) : IO Unit :=
  match output.path? with
  | some path => IO.FS.writeFile path output.text
  | none => IO.print output.text

/-- Identifiers that are drawn at random. -/
def randomUuids (seed : Nat) : Generator where
  id := 0
  draw n :=
    let (high, random) := randNat (mkStdGen (seed + n)) 0 (UInt64.size - 1)
    Text.randomUuid high (randNat random 0 (UInt64.size - 1)).1

/-- Reports an error and gives its exit code. -/
def fail (error : CommandError) : IO UInt32 := do
  IO.eprintln error.report
  return UInt32.ofNat error.exitCode

/-- Runs what the arguments ask for. -/
def runInvocation (invocation : Invocation) : IO UInt32 := do
  let files ← readFiles invocation.paths
  let seed ← IO.rand 0 UInt32.size
  let services := Services.offline (Harvest.drawing seed) (randomUuids seed)
  let (result, session) := (invocation.run services files).run.run { services := () }
  for line in session.notes do
    IO.eprintln line
  match result with
  | .error e => fail e
  | .ok output =>
    try
      writeOutput output
      return 0
    catch e => fail (.file (toString e))

end CatalogGraph

open CatalogGraph Command in
def main (args : List String) : IO UInt32 := do
  match Invocation.ofArguments args with
  | .ok invocation =>
    let settings := invocation.settings.or (← IO.getEnv "BIBCAT_CONFIG")
    CatalogGraph.runInvocation { invocation with settings }
  | .error fault =>
    if fault.exitCode = 0 then IO.print fault.report else IO.eprint fault.report
    return UInt32.ofNat fault.exitCode
