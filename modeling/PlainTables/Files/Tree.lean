import PlainTables.Fault
import PlainTables.Files.Path

/-! Files and directories as a value. A tree maps places to nodes; a path is looked up from
the root or from the current directory, step by step, and fails where the system call
behind it would. An operation that fails gives no new tree. -/
namespace PlainTables

/-- A place in a tree: names from the innermost outwards. -/
abbrev Location := List String

inductive Node where
  | file (bytes : ByteArray)
  | directory

structure FileTree where
  entries : List (Location × Node)
  current : Location

namespace FileTree

/-- An empty current directory below the root. -/
def empty : FileTree := ⟨[(["work"], .directory)], ["work"]⟩

/-! ### Nodes -/

def node? (tree : FileTree) (place : Location) : Option Node :=
  if place = [] then some .directory else tree.entries.lookup place

def remove (tree : FileTree) (place : Location) : FileTree :=
  { tree with entries := tree.entries.filter (fun entry => entry.1 ≠ place) }

def put (tree : FileTree) (place : Location) (node : Node) : FileTree :=
  { tree with entries := (place, node) :: (tree.remove place).entries }

@[simp] theorem node?_root (tree : FileTree) : tree.node? [] = some .directory := by
  simp [node?]

@[simp] theorem current_put (tree : FileTree) (place : Location) (node : Node) :
    (tree.put place node).current = tree.current := rfl

@[simp] theorem current_remove (tree : FileTree) (place : Location) :
    (tree.remove place).current = tree.current := rfl

theorem lookup_filter_ne (entries : List (Location × Node)) {place other : Location}
    (h : other ≠ place) :
    (entries.filter (fun entry => entry.1 ≠ place)).lookup other = entries.lookup other := by
  induction entries with
  | nil => rfl
  | cons entry rest ih =>
    obtain ⟨key, node⟩ := entry
    by_cases same : key = place
    · rw [List.filter_cons_of_neg (by simp [same]), ih, List.lookup_cons,
        beq_false_of_ne (same ▸ h)]
    · rw [List.filter_cons_of_pos (by simp [same]), List.lookup_cons, List.lookup_cons, ih]

theorem lookup_filter_eq (entries : List (Location × Node)) (place : Location) :
    (entries.filter (fun entry => entry.1 ≠ place)).lookup place = none := by
  simp only [List.lookup_eq_none_iff, List.mem_filter, decide_eq_true_eq]
  exact fun entry member => by simpa using Ne.symm member.2

theorem node?_put_same (tree : FileTree) {place : Location} (node : Node) (h : place ≠ []) :
    (tree.put place node).node? place = some node := by
  rw [node?, if_neg h]
  exact List.lookup_cons_self

theorem node?_put_other (tree : FileTree) {place other : Location} (node : Node)
    (h : other ≠ place) : (tree.put place node).node? other = tree.node? other := by
  by_cases root : other = []
  · simp [node?, root]
  · simp only [node?, root, if_false, put, remove, List.lookup_cons, beq_false_of_ne h]
    exact lookup_filter_ne _ h

theorem node?_remove_same (tree : FileTree) {place : Location} (h : place ≠ []) :
    (tree.remove place).node? place = none := by
  simp only [node?, h, if_false, remove]
  exact lookup_filter_eq _ _

theorem node?_remove_other (tree : FileTree) {place other : Location} (h : other ≠ place) :
    (tree.remove place).node? other = tree.node? other := by
  by_cases root : other = []
  · simp [node?, root]
  · simp only [node?, root, if_false, remove]
    exact lookup_filter_ne _ h

/-! ### Paths -/

/-- No name is longer. -/
def maxNameBytes : Nat := 255

/-- Follows the parts of a path. Every place it steps from has to be a directory; the place
it ends at need not exist. -/
def follow (tree : FileTree) : Location → List String → Except IoCause Location
  | place, [] => .ok place
  | place, part :: rest =>
    match tree.node? place with
    | none => .error .notFound
    | some (.file _) => .error .notADirectory
    | some .directory =>
      if part = "" ∨ part = "." then follow tree place rest
      else if part = ".." then follow tree place.tail rest
      else if maxNameBytes < part.utf8ByteSize then .error .invalidFilename
      else follow tree (part :: place) rest

/-- No path that is looked up is longer. -/
def maxPathBytes : Nat := 4095

def locate (tree : FileTree) (path : Path) : Except IoCause Location :=
  if maxPathBytes < path.text.utf8ByteSize then .error .invalidFilename
  else if path.absolute then tree.follow [] path.parts
  else if path.parts = [] then .error .notFound
  else tree.follow tree.current path.parts

/-- The node a path leads to, with its place. -/
def find (tree : FileTree) (path : Path) : Except IoCause (Location × Node) := do
  let place ← tree.locate path
  match tree.node? place with
  | some node => .ok (place, node)
  | none => .error .notFound

def isDirectory (tree : FileTree) (path : Path) : Bool :=
  match tree.find path with
  | .ok (_, .directory) => true
  | _ => false

def isFile (tree : FileTree) (path : Path) : Bool :=
  match tree.find path with
  | .ok (_, .file _) => true
  | _ => false

/-! ### Operations -/

def readFile (tree : FileTree) (path : Path) : Except IoCause ByteArray := do
  match ← tree.find path with
  | (_, .file bytes) => .ok bytes
  | (_, .directory) => .error .isADirectory

/-- Writes a file that must not exist yet. -/
def createFile (tree : FileTree) (path : Path) (bytes : ByteArray) :
    Except IoCause FileTree := do
  let place ← tree.locate path
  match tree.node? place with
  | some _ => .error .alreadyExists
  | none => .ok (tree.put place (.file bytes))

/-- Writes a file, in place of the one that may be there. -/
def overwriteFile (tree : FileTree) (path : Path) (bytes : ByteArray) :
    Except IoCause FileTree := do
  let place ← tree.locate path
  match tree.node? place with
  | some .directory => .error .isADirectory
  | _ => .ok (tree.put place (.file bytes))

def appendFile (tree : FileTree) (path : Path) (bytes : ByteArray) :
    Except IoCause FileTree := do
  match ← tree.find path with
  | (place, .file old) => .ok (tree.put place (.file (old ++ bytes)))
  | (_, .directory) => .error .isADirectory

def removeFile (tree : FileTree) (path : Path) : Except IoCause FileTree := do
  match ← tree.find path with
  | (place, .file _) => .ok (tree.remove place)
  | (_, .directory) => .error .isADirectory

/-- Moves a file over the one that may be there. -/
def renameFile (tree : FileTree) (source target : Path) : Except IoCause FileTree := do
  match ← tree.find source with
  | (_, .directory) => .error .isADirectory
  | (place, .file bytes) =>
    let goal ← tree.locate target
    match tree.node? goal with
    | some .directory => .error .isADirectory
    | _ => .ok ((tree.remove place).put goal (.file bytes))

def makeDirectory (tree : FileTree) (path : Path) : Except IoCause FileTree := do
  let place ← tree.locate path
  match tree.node? place with
  | some _ => .error .alreadyExists
  | none => .ok (tree.put place .directory)

/-- Removes a file, or a directory with everything below it. -/
def removeAll (tree : FileTree) (path : Path) : Except IoCause FileTree := do
  let (place, _) ← tree.find path
  .ok { tree with entries := tree.entries.filter (fun entry => !(place.isSuffixOf entry.1)) }

/-- The names in a directory. -/
def namesIn (tree : FileTree) (directory : Location) : List String :=
  tree.entries.filterMap fun entry =>
    match entry.1 with
    | name :: rest => if rest = directory then some name else none
    | [] => none

def list (tree : FileTree) (path : Path) : Except IoCause (List String) := do
  match ← tree.find path with
  | (place, .directory) => .ok (tree.namesIn place)
  | (_, .file _) => .error .notADirectory

/-! ### Listings of a whole tree -/

/-- The names that lead from a directory down to a place in it. -/
def namesBelow? (directory place : Location) : Option (List String) :=
  let count := place.length - directory.length
  if directory.length < place.length ∧ place.drop count = directory then
    some (place.take count).reverse
  else none

/-- A line of a listing: the path from the current directory, with a slash after that of a
directory, and the bytes of a file. -/
def listed (tree : FileTree) : List (String × Option ByteArray) :=
  let lines := tree.entries.filterMap fun (place, node) =>
    (namesBelow? tree.current place).map fun names =>
      match node with
      | .file bytes => ("/".intercalate names, some bytes)
      | .directory => ("/".intercalate names ++ "/", none)
  lines.mergeSort (fun a b => a.1 ≤ b.1)

end FileTree
end PlainTables
