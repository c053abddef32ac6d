/-! Paths as they are written. The parts between slashes are kept as they stand, so a path
has its text back; empty parts and `.` mean nothing, and what `..` means depends on the
files it is looked up in. -/
namespace PlainTables

structure Path where
  absolute : Bool
  parts : List String
  deriving DecidableEq, Repr

namespace Path

/-- The path that leads nowhere: nothing is found under it. -/
def empty : Path := ⟨false, []⟩

def partsOf (text : List Char) : List String :=
  if text = [] then [] else (text.splitOn '/').map String.ofList

def ofText (text : String) : Path :=
  match text.toList with
  | '/' :: rest => ⟨true, partsOf rest⟩
  | relative => ⟨false, partsOf relative⟩

def text (path : Path) : String :=
  (if path.absolute then "/" else "") ++ "/".intercalate path.parts

/-- A path below another one; an absolute path stands for itself. -/
def join (base path : Path) : Path :=
  if path.absolute then path
  else
    let kept := if base.parts.getLast? = some "" then base.parts.dropLast else base.parts
    ⟨base.absolute, kept ++ path.parts⟩

def isPlain (part : String) : Bool := part ≠ "" && part ≠ "."

/-- The last name of a path, if it ends in a name. -/
def fileName? (path : Path) : Option String :=
  match (path.parts.filter isPlain).getLast? with
  | some ".." => none
  | last => last

/-- Without the parts at the end that mean nothing. -/
def trimEnd (parts : List String) : List String :=
  (parts.reverse.dropWhile (fun part => !isPlain part)).reverse

/-- The `.` a relative path may begin with, and the parts behind it. -/
def opening (path : Path) : List String × List String :=
  if !path.absolute && path.parts.head? = some "." then (["."], path.parts.tail)
  else ([], path.parts)

/-- The path without its last step, as it is written before that. A `.` at the start of a
relative path is a step. -/
def parent? (path : Path) : Option Path :=
  let (dot, behind) := path.opening
  let steps := trimEnd behind
  if steps ≠ [] then some ⟨path.absolute, dot ++ trimEnd steps.dropLast⟩
  else if dot ≠ [] then some ⟨path.absolute, []⟩
  else none

/-- The paths to the places a path leads through, its end included. -/
def stages (path : Path) : List Path :=
  (List.range path.parts.length).map (fun n => ⟨path.absolute, path.parts.take (n + 1)⟩)

end Path
end PlainTables
