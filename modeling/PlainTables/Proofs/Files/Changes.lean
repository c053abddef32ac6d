import Mathlib.Data.List.Nodup
import PlainTables.Files.Tree

/-! What an operation on files does to a tree: which nodes it touches, and that a path which
led somewhere still leads there. Paths are followed through directories only, so a change
of files never sends a path elsewhere. -/
namespace PlainTables.FileTree

variable {tree a b c after : FileTree}

/-! ### Paths after a change -/

/-- The directories of one tree are directories of the other. -/
structure KeepsDirectories (a b : FileTree) : Prop where
  current : b.current = a.current
  directory : ∀ place, a.node? place = some .directory → b.node? place = some .directory

theorem KeepsDirectories.follow (keeps : KeepsDirectories a b) {place goal : Location}
    {parts : List String} (led : a.follow place parts = .ok goal) :
    b.follow place parts = .ok goal := by
  induction parts generalizing place with
  | nil => exact led
  | cons part rest ih =>
    simp only [FileTree.follow] at led ⊢
    cases node : a.node? place with
    | none => simp [node] at led
    | some kind =>
      cases kind with
      | file bytes => simp [node] at led
      | directory =>
        simp only [node] at led
        simp only [keeps.directory place node]
        split at led
        · simp_all
        · split at led
          · simp_all
          · split at led
            · cases led
            · simp_all

theorem KeepsDirectories.locate (keeps : KeepsDirectories a b) {path : Path} {goal : Location}
    (led : a.locate path = .ok goal) : b.locate path = .ok goal := by
  unfold FileTree.locate at led ⊢
  split
  · simp_all
  · split
    · simp_all [keeps.follow]
    · split
      · simp_all
      · rw [keeps.current]
        exact keeps.follow (by simp_all)

/-- A change of a file, or of a place where nothing was. -/
theorem keepsDirectories_put (place : Location) (node : Node)
    (free : tree.node? place ≠ some .directory) : KeepsDirectories tree (tree.put place node) := by
  refine ⟨rfl,?_⟩
  intro other directory
  have apart : other ≠ place := by
    rintro rfl
    exact free directory
  rw [node?_put_other tree node apart,directory]

theorem ne_nil_of_not_directory {place : Location}
    (free : tree.node? place ≠ some .directory) : place ≠ [] := by
  rintro rfl
  exact free (node?_root tree)

/-! ### Looking at a path -/

theorem find_eq_ok {path : Path} {place : Location} {node : Node} :
    tree.find path = .ok (place,node) ↔
      tree.locate path = .ok place ∧ tree.node? place = some node := by
  unfold find
  cases located : tree.locate path with
  | error cause => simp [bind,Except.bind]
  | ok goal =>
    simp only [bind,Except.bind,Except.ok.injEq]
    cases node : tree.node? goal <;> grind

theorem find_put {path : Path} {place : Location} (node : Node)
    (located : tree.locate path = .ok place) (free : tree.node? place ≠ some .directory) :
    (tree.put place node).find path = .ok (place,node) :=
  find_eq_ok.mpr ⟨(keepsDirectories_put place node free).locate located,
    node?_put_same tree node (ne_nil_of_not_directory free)⟩

theorem readFile_eq_ok {path : Path} {bytes : ByteArray} :
    tree.readFile path = .ok bytes ↔ ∃ place, tree.find path = .ok (place,.file bytes) := by
  unfold readFile
  rcases tree.find path with cause | ⟨place,_ | _⟩ <;> simp [bind,Except.bind,eq_comm]

/-! ### Effects of the operations -/

theorem createFile_eq_ok {path : Path} {bytes : ByteArray} :
    tree.createFile path bytes = .ok after ↔
      ∃ place, tree.locate path = .ok place ∧ tree.node? place = none ∧
        after = tree.put place (.file bytes) := by
  unfold createFile
  cases tree.locate path with
  | error cause => simp [bind,Except.bind]
  | ok place => cases node : tree.node? place <;> simp [bind,Except.bind,node,eq_comm]

theorem overwriteFile_eq_ok {path : Path} {bytes : ByteArray} :
    tree.overwriteFile path bytes = .ok after ↔
      ∃ place, tree.locate path = .ok place ∧ tree.node? place ≠ some .directory ∧
        after = tree.put place (.file bytes) := by
  unfold overwriteFile
  cases tree.locate path with
  | error cause => simp [bind,Except.bind]
  | ok place =>
    rcases node : tree.node? place with _ | _ | _ <;> simp [bind,Except.bind,node,eq_comm]

theorem appendFile_eq_ok {path : Path} {bytes : ByteArray} :
    tree.appendFile path bytes = .ok after ↔
      ∃ place old, tree.find path = .ok (place,.file old) ∧
        after = tree.put place (.file (old ++ bytes)) := by
  unfold appendFile
  rcases tree.find path with cause | ⟨place,_ | _⟩ <;>
    simp [bind,Except.bind,and_assoc,eq_comm (a := after)]

theorem removeFile_eq_ok {path : Path} :
    tree.removeFile path = .ok after ↔
      ∃ place bytes, tree.find path = .ok (place,.file bytes) ∧ after = tree.remove place := by
  unfold removeFile
  rcases tree.find path with cause | ⟨place,_ | _⟩ <;> simp [bind,Except.bind,eq_comm]

theorem makeDirectory_eq_ok {path : Path} :
    tree.makeDirectory path = .ok after ↔
      ∃ place, tree.locate path = .ok place ∧ tree.node? place = none ∧
        after = tree.put place .directory := by
  unfold makeDirectory
  cases tree.locate path with
  | error cause => simp [bind,Except.bind]
  | ok place => cases node : tree.node? place <;> simp [bind,Except.bind,node,eq_comm]

/-! ### Replacing a file by way of another one -/

/-- The tree once a file has been written beside another one and moved over it. -/
def replaced (tree : FileTree) (beside place : Location) (bytes : ByteArray) : FileTree :=
  ((tree.put beside (.file bytes)).remove beside).put place (.file bytes)

/-- A file that can be read can be replaced as soon as the new one has been written. -/
theorem renameFile_written {source target : Path} {beside place : Location}
    {old : ByteArray} (bytes : ByteArray) (found : tree.find target = .ok (place,.file old))
    (located : tree.locate source = .ok beside) (free : tree.node? beside ≠ some .directory) :
    (tree.put beside (.file bytes)).renameFile source target =
      .ok (tree.replaced beside place bytes) := by
  obtain ⟨reached,node⟩ := find_eq_ok.mp found
  have keeps : KeepsDirectories tree (tree.put beside (.file bytes)) :=
    keepsDirectories_put beside (.file bytes) free
  have written : (tree.put beside (.file bytes)).find source = .ok (beside,.file bytes) :=
    find_put (.file bytes) located free
  have freeAfter : (tree.put beside (.file bytes)).node? place ≠ some .directory := by
    by_cases same : place = beside
    · rw [same,node?_put_same _ _ (ne_nil_of_not_directory free)]
      simp
    · rw [node?_put_other _ _ same,node]
      simp
  simp only [renameFile,written,keeps.locate reached,bind,Except.bind]
  rfl

theorem keepsDirectories_replaced {beside place : Location} (bytes : ByteArray)
    (freeBeside : tree.node? beside ≠ some .directory)
    (freePlace : tree.node? place ≠ some .directory) :
    KeepsDirectories tree (tree.replaced beside place bytes) := by
  refine ⟨rfl,?_⟩
  intro other directory
  have apart : other ≠ place ∧ other ≠ beside := by
    constructor <;> rintro rfl
    · exact freePlace directory
    · exact freeBeside directory
  rw [replaced,node?_put_other _ _ apart.1,node?_remove_other _ apart.2,
    node?_put_other _ _ apart.2,directory]

/-- What cannot be written over cannot be removed either. -/
theorem removeFile_of_overwriteFile_error {path : Path} {bytes : ByteArray} {cause : IoCause}
    (refused : tree.overwriteFile path bytes = .error cause) :
    ∃ other, tree.removeFile path = .error other := by
  unfold overwriteFile at refused
  unfold removeFile find
  cases located : tree.locate path with
  | error other => exact ⟨other,by simp [bind,Except.bind]⟩
  | ok place =>
    simp only [located,bind,Except.bind] at refused
    split at refused
    · next directory => exact ⟨.isADirectory,by simp [directory,bind,Except.bind]⟩
    · cases refused

theorem node?_replaced_same {beside place : Location} (bytes : ByteArray) (inside : place ≠ []) :
    (tree.replaced beside place bytes).node? place = some (.file bytes) :=
  node?_put_same _ _ inside

/-- The file beside is gone again, and nothing else has changed. -/
theorem node?_replaced_other {beside place other : Location} (bytes : ByteArray)
    (absent : tree.node? beside = none) (apart : other ≠ place) :
    (tree.replaced beside place bytes).node? other = tree.node? other := by
  have inside : beside ≠ [] := by
    rintro rfl
    simp at absent
  rw [replaced,node?_put_other _ _ apart]
  by_cases same : other = beside
  · rw [same,node?_remove_same _ inside,absent]
  · rw [node?_remove_other _ same,node?_put_other _ _ same]

/-! ### One entry for each place -/

def Distinct (tree : FileTree) : Prop := (tree.entries.map Prod.fst).Nodup

theorem Distinct.remove (distinct : Distinct tree) (place : Location) :
    Distinct (tree.remove place) :=
  List.Nodup.sublist (List.filter_sublist.map Prod.fst) distinct

theorem Distinct.put (distinct : Distinct tree) (place : Location) (node : Node) :
    Distinct (tree.put place node) := by
  refine List.nodup_cons.mpr ⟨?_,distinct.remove place⟩
  simp [FileTree.remove]

theorem Distinct.replaced (distinct : Distinct tree) (beside place : Location)
    (bytes : ByteArray) : Distinct (tree.replaced beside place bytes) :=
  ((distinct.put beside _).remove beside).put place _

theorem mem_namesIn {directory : Location} {file : String} :
    file ∈ tree.namesIn directory ↔ tree.node? (file :: directory) ≠ none := by
  have known : tree.node? (file :: directory) ≠ none ↔
      file :: directory ∈ tree.entries.map Prod.fst := by
    simp [node?,List.lookup_eq_none_iff]
  rw [known,namesIn,List.mem_filterMap,List.mem_map]
  refine exists_congr fun entry => and_congr_right fun _ => ?_
  rcases entry.1 with _ | ⟨inner,outer⟩ <;> simp [and_comm]

theorem nodup_namesIn (distinct : Distinct tree) (directory : Location) :
    (tree.namesIn directory).Nodup := by
  have names : tree.namesIn directory = (tree.entries.map Prod.fst).filterMap fun place =>
      if place.tail = directory then place.head? else none := by
    rw [List.filterMap_map,namesIn]
    apply List.filterMap_congr
    intro entry _
    rcases entry with ⟨_ | ⟨inner,outer⟩,node⟩
    · simp
    · by_cases same : outer = directory <;> simp [same]
  have filled : ∀ place file, (if place.tail = directory then place.head? else none) = some file →
      place = file :: directory := by
    intro place file found
    split at found
    · next same => exact same ▸ List.eq_cons_of_mem_head? found
    · cases found
  rw [names]
  refine List.Nodup.filterMap ?_ distinct
  intro place other file here there
  rw [filled place file here,filled other file there]

/-! ### Trees with the same files -/

def SameFiles (a b : FileTree) : Prop :=
  ∀ place bytes, a.node? place = some (.file bytes) ↔ b.node? place = some (.file bytes)

/-- The second tree has further directories, at places where nothing was. -/
structure AddsDirectories (a b : FileTree) : Prop where
  current : b.current = a.current
  node : ∀ place, b.node? place = a.node? place ∨
    a.node? place = none ∧ b.node? place = some .directory

theorem AddsDirectories.refl (tree : FileTree) : AddsDirectories tree tree :=
  ⟨rfl,fun _ => .inl rfl⟩

theorem AddsDirectories.trans (first : AddsDirectories a b) (second : AddsDirectories b c) :
    AddsDirectories a c := by
  refine ⟨second.current.trans first.current,?_⟩
  intro place
  rcases first.node place with same | ⟨absent,made⟩
  · rcases second.node place with same' | ⟨absent',made'⟩
    · exact .inl (same'.trans same)
    · exact .inr ⟨same ▸ absent',made'⟩
  · rcases second.node place with same' | ⟨absent',_⟩
    · exact .inr ⟨absent,same'.trans made⟩
    · rw [made] at absent'
      cases absent'

theorem AddsDirectories.sameFiles (adds : AddsDirectories a b) : SameFiles a b := by
  intro place bytes
  rcases adds.node place with same | ⟨absent,made⟩
  · rw [same]
  · simp [absent,made]

theorem addsDirectories_of_makeDirectory {path : Path}
    (made : tree.makeDirectory path = .ok after) : AddsDirectories tree after := by
  obtain ⟨place,_,absent,rfl⟩ := makeDirectory_eq_ok.mp made
  refine ⟨rfl,?_⟩
  intro other
  have free : tree.node? place ≠ some .directory := by simp [absent]
  have apart : place ≠ [] := ne_nil_of_not_directory free
  by_cases same : other = place
  · subst same
    exact .inr ⟨absent,node?_put_same tree _ apart⟩
  · exact .inl (node?_put_other tree _ same)

/-! ### Directories made along a path -/

theorem AddsDirectories.keepsDirectories (adds : AddsDirectories a b) : KeepsDirectories a b := by
  refine ⟨adds.current,fun place directory => ?_⟩
  rcases adds.node place with same | ⟨absent,_⟩
  · rw [same,directory]
  · rw [directory] at absent
    cases absent

/-- Directories were added where some paths lead, and nothing else has changed. -/
structure MakesAlong (paths : List Path) (a b : FileTree) : Prop extends AddsDirectories a b where
  along : ∀ place, b.node? place ≠ a.node? place → ∃ path ∈ paths, b.locate path = .ok place

namespace MakesAlong

variable {paths more : List Path}

theorem refl (paths : List Path) (tree : FileTree) : MakesAlong paths tree tree :=
  ⟨.refl tree,fun _ changed => absurd rfl changed⟩

theorem mono (makes : MakesAlong paths a b) (among : ∀ path ∈ paths, path ∈ more) :
    MakesAlong more a b := by
  refine ⟨makes.toAddsDirectories,fun place changed => ?_⟩
  obtain ⟨path,member,led⟩ := makes.along place changed
  exact ⟨path,among path member,led⟩

theorem trans (first : MakesAlong paths a b) (second : MakesAlong paths b c) :
    MakesAlong paths a c := by
  refine ⟨first.toAddsDirectories.trans second.toAddsDirectories,fun place changed => ?_⟩
  by_cases same : c.node? place = b.node? place
  · rw [same] at changed
    obtain ⟨path,member,led⟩ := first.along place changed
    exact ⟨path,member,second.keepsDirectories.locate led⟩
  · exact second.along place same

theorem of_makeDirectory {path : Path} (made : tree.makeDirectory path = .ok after)
    (member : path ∈ paths) : MakesAlong paths tree after := by
  have adds := addsDirectories_of_makeDirectory made
  obtain ⟨place,led,-,rfl⟩ := makeDirectory_eq_ok.mp made
  refine ⟨adds,fun other changed => ?_⟩
  have here : other = place := by
    by_contra apart
    exact changed (node?_put_other tree _ apart)
  exact ⟨path,member,here ▸ adds.keepsDirectories.locate led⟩

end MakesAlong
end PlainTables.FileTree
