import PlainTables.Proofs.Files.Below

/-! Trees with the same directories. A path is followed through directories only, so a change of a
file leaves every path where it led; and a path to one file of a directory tells where a path to any
other one leads. -/
namespace PlainTables.FileTree

variable {tree a b c : FileTree} {place : Location} {bytes : ByteArray}

/-! ### Kinds of nodes -/

theorem isDirectory_iff {path : Path} :
    tree.isDirectory path = true ↔
      ∃ place, tree.locate path = .ok place ∧ tree.node? place = some .directory := by
  simp only [← find_eq_ok]
  unfold isDirectory
  rcases tree.find path with cause | ⟨place,_ | _⟩ <;> simp

theorem isFile_iff {path : Path} :
    tree.isFile path = true ↔ ∃ place bytes, tree.find path = .ok (place,.file bytes) := by
  unfold isFile
  rcases tree.find path with cause | ⟨place,_ | _⟩ <;> simp

/-! ### The same directories -/

/-- Every directory of either tree is one of the other. -/
structure SameDirectories (a b : FileTree) : Prop where
  forth : KeepsDirectories a b
  back : KeepsDirectories b a

namespace SameDirectories

theorem refl (tree : FileTree) : SameDirectories tree tree := ⟨⟨rfl,fun _ => id⟩,⟨rfl,fun _ => id⟩⟩

theorem trans (first : SameDirectories a b) (second : SameDirectories b c) : SameDirectories a c := by
  refine ⟨⟨?_,fun place directory => ?_⟩,⟨?_,fun place directory => ?_⟩⟩
  · exact second.forth.current.trans first.forth.current
  · exact second.forth.directory place (first.forth.directory place directory)
  · exact first.back.current.trans second.back.current
  · exact first.back.directory place (second.back.directory place directory)

theorem put (free : tree.node? place ≠ some .directory) :
    SameDirectories tree (tree.put place (.file bytes)) := by
  refine ⟨keepsDirectories_put place _ free,rfl,fun other directory => ?_⟩
  by_cases same : other = place
  · rw [same,node?_put_same tree _ (ne_nil_of_not_directory free)] at directory
    cases directory
  · rwa [node?_put_other tree _ same] at directory

theorem remove (free : tree.node? place ≠ some .directory) :
    SameDirectories tree (tree.remove place) := by
  have inside := ne_nil_of_not_directory free
  refine ⟨⟨rfl,fun other directory => ?_⟩,⟨rfl,fun other directory => ?_⟩⟩
  · have apart : other ≠ place := by
      rintro rfl
      exact free directory
    rwa [node?_remove_other tree apart]
  · by_cases same : other = place
    · rw [same,node?_remove_same tree inside] at directory
      cases directory
    · rwa [node?_remove_other tree same] at directory

theorem replaced {beside : Location} (freeBeside : tree.node? beside ≠ some .directory)
    (free : tree.node? place ≠ some .directory) :
    SameDirectories tree (tree.replaced beside place bytes) := by
  have written : SameDirectories tree (tree.put beside (.file bytes)) := .put freeBeside
  have still {other : Location} (no : tree.node? other ≠ some .directory) :
      (tree.put beside (.file bytes)).node? other ≠ some .directory :=
    fun directory => no (written.back.directory other directory)
  have removed := written.trans (.remove (still freeBeside))
  exact removed.trans (.put fun directory => free (removed.back.directory place directory))

end SameDirectories

/-! ### Two files of one directory -/

theorem follow_append_of_ok {middle : Location} {parts : List String} (rest : List String)
    (led : tree.follow place parts = .ok middle) :
    tree.follow place (parts ++ rest) = tree.follow middle rest := by
  induction parts generalizing place with
  | nil =>
    cases led
    rfl
  | cons part later ih =>
    rw [List.cons_append,follow]
    rw [follow] at led
    cases node : tree.node? place with
    | none => simp [node] at led
    | some kind =>
      cases kind with
      | file bytes => simp [node] at led
      | directory =>
        simp only [node] at led ⊢
        split at led
        · next stays => rw [if_pos stays,ih led]
        · next moves =>
          rw [if_neg moves]
          split at led
          · next above => rw [if_pos above,ih led]
          · next below =>
            rw [if_neg below]
            split at led
            · cases led
            · next fits => rw [if_neg fits,ih led]

/-- A path to a file of a directory leads to its place in it if there is room for the name and for the
whole path. -/
theorem locate_last {absolute : Bool} {kept : List String} {part : String} {home : Location}
    (step : Path.IsStep part)
    (before : tree.follow (if absolute then [] else tree.current) kept = .ok home)
    (directory : tree.node? home = some .directory) :
    tree.locate ⟨absolute,kept ++ [part]⟩ =
      if part.utf8ByteSize ≤ maxNameBytes ∧
          (Path.mk absolute (kept ++ [part])).text.utf8ByteSize ≤ maxPathBytes then .ok (part :: home)
      else .error .invalidFilename := by
  have whole := follow_append_of_ok [part] before
  rw [follow_step directory step,follow] at whole
  simp only [← Nat.not_le,ite_not] at whole
  rw [locate]
  split
  · next long => rw [if_neg fun room => absurd long (Nat.not_lt.mpr room.2)]
  · next short =>
    simp only [Nat.not_lt.mp short,and_true]
    split
    · next absolute =>
      rwa [if_pos absolute] at whole
    · next relative =>
      rw [if_neg relative] at whole
      rwa [if_neg (by simp)]

theorem locate_beside {path : Path} {part other : String} {home : Location}
    (step : Path.IsStep part) (stepOther : Path.IsStep other)
    (led : tree.locate (path.join (Path.ofText part)) = .ok (part :: home)) :
    tree.locate (path.join (Path.ofText other)) =
      if other.utf8ByteSize ≤ maxNameBytes ∧
          (path.join (Path.ofText other)).text.utf8ByteSize ≤ maxPathBytes then .ok (other :: home)
      else .error .invalidFilename := by
  obtain ⟨kept,joined⟩ : ∃ kept, ∀ name,
      path.join ⟨false,[name]⟩ = ⟨path.absolute,kept ++ [name]⟩ := ⟨_,fun _ => rfl⟩
  rw [Path.ofText_step step,joined] at led
  rw [Path.ofText_step stepOther,joined]
  obtain ⟨middle,before,last⟩ := follow_append.mp (base_of_locate led)
  obtain ⟨directory,same⟩ := follow_last step last
  obtain ⟨-,rfl⟩ := List.cons.inj same
  exact locate_last stepOther before directory

theorem locate_below {path : Path} {part : String} {home : Location} (step : Path.IsStep part)
    (led : tree.locate path = .ok home) (directory : tree.node? home = some .directory) :
    tree.locate (path.join (Path.ofText part)) =
      if part.utf8ByteSize ≤ maxNameBytes ∧
          (path.join (Path.ofText part)).text.utf8ByteSize ≤ maxPathBytes then .ok (part :: home)
      else .error .invalidFilename := by
  rw [Path.ofText_step step]
  have start := base_of_locate led
  rw [base] at start
  refine locate_last step ?_ directory
  by_cases closed : path.parts.getLast? = some ""
  · rw [if_pos closed]
    -- the empty part after a slash at the end leads from the directory to itself
    rw [← List.dropLast_append_getLast? "" closed] at start
    obtain ⟨middle,before,last⟩ := follow_append.mp start
    rw [follow] at last
    cases node : tree.node? middle with
    | none => simp [node] at last
    | some kind =>
      cases kind with
      | file bytes => simp [node] at last
      | directory =>
        simp only [node,true_or,if_true,follow,Except.ok.injEq] at last
        rwa [← last]
  · rwa [if_neg closed]

/-! ### Names of directories -/

theorem names_of_follow {goal : Location} {parts : List String}
    (led : tree.follow place parts = .ok goal) : ∀ part ∈ goal, part ∈ place ∨ part ∈ parts := by
  induction parts generalizing place with
  | nil =>
    cases led
    exact fun part => .inl
  | cons first later ih =>
    obtain ⟨next,step,led⟩ := follow_cons.mp led
    intro part member
    rcases ih led part member with before | after
    · rcases follow_part step with rfl | ⟨-,rfl⟩ | rfl
      · exact .inl before
      · exact .inl (List.mem_of_mem_tail before)
      · rcases List.mem_cons.mp before with rfl | before
        · exact .inr List.mem_cons_self
        · exact .inl before
    · exact .inr (List.mem_cons_of_mem _ after)

/-- A place that a path leads to has no other names than the path and the current directory. -/
theorem names_of_locate {path : Path} (led : tree.locate path = .ok place) :
    ∀ part ∈ place, part ∈ tree.current ∨ part ∈ path.parts := by
  intro part member
  rcases names_of_follow (base_of_locate led) part member with start | inside
  · split at start
    · cases start
    · exact .inl start
  · exact .inr inside

end PlainTables.FileTree
