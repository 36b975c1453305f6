/-
ApiOutline/Main.lean

The program: looks up the files that a run depends on, runs it, and carries out
what it asks for.
-/
import ApiOutline.Command.Run

namespace ApiOutline

open Command

/-- The action succeeds. -/
def succeeds {α : Type} (action : IO α) : IO Bool := do
  match ← action.toBaseIO with
  | .ok _ => return true
  | .error _ => return false

/-- What is found under a path. -/
def entryAt (p : FilePath) : IO Entry := do
  if ← succeeds (IO.FS.realPath p.text) then
    match ← (IO.FS.readFile p.text).toBaseIO with
    | .ok text => return .file text
    | .error _ => return .directory
  else return .missing

/-- What is found under some paths. -/
def entriesAt : List FilePath → IO (Table FilePath Entry)
  | [] => return []
  | p :: ps => return (p, ← entryAt p) :: (← entriesAt ps)

/-- Writes the file that a run asks for. -/
def writeFile (written : FilePath × String) : IO Unit := do
  IO.FS.createDirAll written.1.parent.text
  IO.FS.writeFile written.1.text written.2

/-- The answer to arguments, files being read as far as needed. -/
def respond (args : List String) : IO Outcome := do
  match Invocation.read args with
  | .error r => return r.outcome
  | .ok i =>
    let entries ← entriesAt i.task.paths
    return i.run fun p => (Table.get? entries p).getD .missing

end ApiOutline

/-- Runs the program. -/
def main (args : List String) : IO UInt32 := do
  let outcome ← ApiOutline.respond args
  (← IO.getStderr).putStr outcome.stderr
  if let some written := outcome.written then ApiOutline.writeFile written
  (← IO.getStdout).putStr outcome.stdout
  if outcome.exit = 2 then
    (← IO.getStderr).putStrLn "Usage: [-v] (compile SCHEMA | params TEMPLATE | build FILE -o FILE)"
  return outcome.exit.toUInt32
