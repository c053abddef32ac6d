import PlainTables.Files.Tree

/-! Actions on files. An action that fails leaves the tree as its last completed step left
it, so directories made before the failure stay. -/
namespace PlainTables

abbrev FileAction := EStateM Fault FileTree

namespace FileAction

/-- Looks at the tree. -/
def ask {α : Type} (look : FileTree → Except IoCause α) (fault : IoCause → Fault) :
    FileAction α := fun tree =>
  match look tree with
  | .ok a => .ok a tree
  | .error cause => .error (fault cause) tree

/-- Changes the tree, or leaves it and fails. -/
def change (step : FileTree → Except IoCause FileTree) (fault : IoCause → Fault) :
    FileAction Unit := fun tree =>
  match step tree with
  | .ok changed => .ok () changed
  | .error cause => .error (fault cause) tree

/-- Changes the tree if that is possible. -/
def attempt (step : FileTree → Except IoCause FileTree) : FileAction Unit := fun tree =>
  match step tree with
  | .ok changed => .ok () changed
  | .error _ => .ok () tree

/-- The outcome of a check that looks at no file. -/
def require {α : Type} (result : Except Fault α) : FileAction α := fun tree =>
  match result with
  | .ok a => .ok a tree
  | .error fault => .error fault tree

/-- Makes a directory, unless it is there already. -/
def ensureDirectory (path : Path) : FileAction Unit := fun tree =>
  match tree.makeDirectory path with
  | .ok changed => .ok () changed
  | .error cause =>
    if cause = .alreadyExists ∧ tree.isDirectory path then .ok () tree
    else .error (.io cause) tree

/-- Makes the first of some directories, each of which lies on the way to the one before it.
The others are tried only if the first is refused because something is missing. -/
def ensureDirectories : List Path → FileAction Unit
  | [] => pure ()
  | path :: outer => fun tree =>
    match ensureDirectory path tree with
    | .error (.io .notFound) _ =>
      (do
        ensureDirectories outer
        ensureDirectory path) tree
    | result => result

/-- Makes a directory and the missing ones on the way to it. -/
def makeDirectories (path : Path) : FileAction Unit := ensureDirectories path.stages.reverse

/-- Writes a file, with the directories on the way to it. -/
def writeFile (path : Path) (bytes : ByteArray) : FileAction Unit := do
  match path.parent? with
  | some parent => if parent.parts ≠ [] then makeDirectories parent
  | none => pure ()
  change (·.overwriteFile path bytes) .io

end FileAction
end PlainTables
