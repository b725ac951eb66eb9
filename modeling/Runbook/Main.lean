import Runbook.CommandLine.Run

set_option autoImplicit false
set_option relaxedAutoImplicit false

/-!
The program: it reads the project's directory, runs the command over what it read, writes what has
changed, and prints what there is to show and to tell.
-/

namespace Runbook.CommandLine

open Runbook.Files

def namesOnDisk (path : String) : IO (List String) := do
  let entries ← (← IO.FS.realPath path).readDir
  return entries.toList.map (·.fileName)

/-- What is on disk at a path; what can be read neither as a directory nor as a file is left out. -/
partial def readDisk (path : String) : IO (Option Node) := do
  match ← (namesOnDisk path).toBaseIO with
  | .ok names =>
    let entries ← names.filterMapM fun name => do
      return (← readDisk (path ++ "/" ++ name)).map fun node => (name, node)
    return some (.directory entries)
  | .error _ =>
    match ← (IO.FS.readBinFile path).toBaseIO with
    | .ok content => return some (.file content.toList)
    | .error _ => return none

partial def writeDisk (path : String) (before : Option Node) : Node → IO Unit
  | .file content => do
    match before with
    | some (.file old) => if old = content then return ()
    | _ => pure ()
    IO.FS.writeBinFile path ⟨content.toArray⟩
  | .directory entries => do
    if before.isNone then IO.FS.createDirAll path
    let old := (before.map Node.entries).getD []
    for (name, node) in entries do
      writeDisk (path ++ "/" ++ name) (Node.child? old name) node

/-- The tree that holds what is on disk at a path, and the place of it. -/
def plant (path : Path) : Option Node → Tree × Location
  | none => ((Tree.makeParents (.directory []) path).2, path.steps)
  | some node =>
    let (_, t) := Tree.makeDirectories (.directory []) path
    match t.locate path with
    | .ok location => (t.put location node, location)
    | .error _ => (t, path.steps)

def Invocation.runOnDisk (i : Invocation) (directory : Path) : IO Outcome := do
  let path := directory.join i.path
  let before ← readDisk path.text
  let (t, location) := plant path before
  let outcome := i.run directory t
  match outcome.tree.at? location with
  | some after => writeDisk path.text before after
  | none => pure ()
  return outcome

/-- The exit code of an outcome, after all of it is printed. -/
def Outcome.print (o : Outcome) : IO UInt32 := do
  for text in o.told do
    IO.eprintln text
  IO.print o.shown
  return o.exit.toUInt32

def runProgram (arguments : List String) : IO UInt32 := do
  let environment ← IO.getEnv pathVariable
  match Invocation.read environment arguments with
  | .error stop => (stop.outcome environment (.directory [])).print
  | .ok i => (← i.runOnDisk ⟨(← IO.currentDir).toString⟩).print

end Runbook.CommandLine

def main (arguments : List String) : IO UInt32 := Runbook.CommandLine.runProgram arguments
