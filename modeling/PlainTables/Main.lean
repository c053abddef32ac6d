import PlainTables.CommandLine.Run
import PlainTables.Database.Basic

/-! The command-line program. It loads the files a run can reach, lets the run work on them
as a value, and writes back what has changed. -/
namespace PlainTables.CommandLine

/-- The path of a place on disk. -/
def diskPath (place : Location) : String := "/" ++ "/".intercalate place.reverse

/-- What is at a place on disk; other things than files and directories are not seen. -/
def load? (place : Location) (withBytes : Bool) : IO (Option Node) := do
  try
    let path ← IO.FS.realPath (diskPath place)
    match (← path.metadata).type with
    | .dir => return some .directory
    | .file => return some (.file (← if withBytes then IO.FS.readBinFile path else pure .empty))
    | _ => return none
  catch _ => return none

/-- Adds what is at a place on disk. -/
def loadAt (tree : FileTree) (place : Location) (withBytes : Bool) : IO FileTree := do
  match ← load? place withBytes with
  | some node => return tree.put place node
  | none => return tree

/-- Adds the places a path leads through. -/
def loadPath (tree : FileTree) (path : Path) : IO FileTree :=
  path.stages.foldlM (fun tree stage =>
    match tree.locate stage with
    | .ok place => loadAt tree place true
    | .error _ => pure tree) tree

/-- Adds what a directory holds, down to a depth. Of the files, only tables are read. -/
def loadDirectory : Nat → FileTree → Location → IO FileTree
  | 0, tree, _ => return tree
  | depth + 1, tree, directory => do
    let entries ← (← IO.FS.realPath (diskPath directory)).readDir
    entries.toList.foldlM (fun tree entry => do
      let place := entry.fileName :: directory
      let tree ← loadAt tree place (Database.tableOfFile? entry.fileName).isSome
      match tree.node? place with
      | some .directory => loadDirectory depth tree place
      | _ => return tree) tree

/-- The current directory with the places on the way to it. -/
def loadCurrent : IO FileTree := do
  let path := Path.ofText (← IO.currentDir).toString
  let tree ← loadPath ⟨[], []⟩ path
  return { tree with current := path.parts.reverse }

/-- The files that a run can reach: the databases below its root, and its script. -/
def loadFor (arguments : Arguments) : IO FileTree := do
  let root := Path.ofText arguments.root
  let tree ← loadPath (← loadCurrent) root
  let tree ← match tree.find root with
    | .ok (place, .directory) => loadDirectory 2 tree place
    | _ => pure tree
  match arguments.script with
  | some script => loadPath tree (Path.ofText script)
  | none => return tree

/-- Writes to disk what a run has changed. -/
def save (before after : FileTree) : IO Unit := do
  for (place, _) in before.entries do
    if (after.node? place).isNone then IO.FS.removeFile (diskPath place)
  for (place, node) in after.entries.reverse do
    match before.node? place, node with
    | some .directory, .directory => pure ()
    | _, .directory => IO.FS.createDirAll (diskPath place)
    | some (.file old), .file new =>
      if old.data ≠ new.data then IO.FS.writeBinFile (diskPath place) new
    | _, .file new => IO.FS.writeBinFile (diskPath place) new

def readEnvironment : IO (List (String × String)) :=
  Arguments.fromVariables.filterMapM fun (_, name) => do
    return (← IO.getEnv name).map (name, ·)

end PlainTables.CommandLine

open PlainTables

def main (arguments : List String) : IO UInt32 := do
  let environment ← CommandLine.readEnvironment
  let before ← match Arguments.read arguments environment with
    | .ok read => CommandLine.loadFor read
    | .error _ => pure .empty
  let outcome := CommandLine.run arguments environment before
  CommandLine.save before outcome.files
  IO.print outcome.output
  if let some line := outcome.error then IO.eprintln line
  return outcome.exit.toUInt32
