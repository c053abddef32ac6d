import Mathlib.Data.List.DropRight
import PlainTables.Proofs.Files.Directories

/-! The path without its last step. It is found by the text alone, and the last step of a path is a name,
or it goes upwards or nowhere. Main statement: if the last step is a name, the path without it leads to the
directory in which the place lies that the path leads to; if it goes upwards, to a directory in that place,
and if it goes nowhere, to the place itself. -/
namespace PlainTables

namespace Path

variable {path : Path} {part file : String}

/-- The path without its last step, or the path that stays where it is. -/
def around (path : Path) : Path := path.parent?.getD (Path.ofText ".")

/-- The last part that means something. -/
def lastStep? (path : Path) : Option String := (path.parts.filter isPlain).getLast?

theorem fileName?_eq_none :
    path.fileName? = none ↔ path.lastStep? = none ∨ path.lastStep? = some ".." := by
  unfold fileName? lastStep?
  split <;> simp_all

theorem isPlain_eq_false : isPlain part = false ↔ part = "" ∨ part = "." := by
  simp [isPlain,Classical.or_iff_not_imp_left]

theorem blank_dots (steps : Nat) : ∀ part ∈ List.replicate steps ".", isPlain part = false := by
  intro part member
  exact isPlain_eq_false.mpr (.inr (List.eq_of_mem_replicate member))

theorem trimEnd_split (parts : List String) : ∃ gap, parts = trimEnd parts ++ gap ∧
    (∀ part ∈ gap, isPlain part = false) ∧ ∀ part ∈ (trimEnd parts).getLast?, isPlain part = true := by
  refine ⟨parts.rtakeWhile fun part => !isPlain part,List.rdropWhile_append_rtakeWhile.symm,?_,?_⟩
  · intro part member
    simpa using List.mem_rtakeWhile_imp member
  · intro part last
    have stops := List.head?_dropWhile_not (fun part => !isPlain part) parts.reverse
    rw [trimEnd,List.getLast?_reverse] at last
    rw [Option.mem_def.mp last] at stops
    simpa using stops

theorem opening_split (path : Path) : path.parts = path.opening.1 ++ path.opening.2 ∧
    (path.opening.1 = [] ∨ path.opening.1 = ["."]) := by
  unfold opening
  split
  · next dot =>
    rw [Bool.and_eq_true,decide_eq_true_eq] at dot
    exact ⟨List.eq_cons_of_mem_head? dot.2,.inr rfl⟩
  · exact ⟨rfl,.inl rfl⟩

/-- Of the parts before the last step, those at their end that mean nothing are left out as well. -/
theorem parent?_of_lastStep? (ends : path.lastStep? = some part) : ∃ kept middle gap,
    path.parts = kept ++ (middle ++ part :: gap) ∧ (∀ part ∈ middle, isPlain part = false) ∧
      (∀ part ∈ gap, isPlain part = false) ∧ isPlain part = true ∧
        path.parent? = some ⟨path.absolute,kept⟩ ∧ kept.getLast? ≠ some "" := by
  obtain ⟨parts,dot⟩ := path.opening_split
  obtain ⟨gap,split,blank,last⟩ := trimEnd_split path.opening.2
  have silent : path.opening.1.filter isPlain = [] := by rcases dot with dot | dot <;> rw [dot] <;> rfl
  have after : gap.filter isPlain = [] := by simpa [List.filter_eq_nil_iff] using blank
  have names : path.parts.filter isPlain = (trimEnd path.opening.2).filter isPlain := by
    rw [parts,split,List.filter_append,List.filter_append,silent,after,List.nil_append,List.append_nil,
      ← split]
  rcases List.eq_nil_or_concat' (trimEnd path.opening.2) with none | ⟨init,name,steps⟩
  · rw [lastStep?,names,none] at ends
    cases ends
  · have plain : isPlain name = true := last name (by simp [steps])
    obtain ⟨middle,before,quiet,ending⟩ := trimEnd_split init
    obtain rfl : name = part := by simpa [lastStep?,names,steps,plain] using ends
    have whole : path.parts = path.opening.1 ++ (trimEnd init ++ middle ++ [name] ++ gap) := by
      rw [← before,← steps,← split,parts]
    refine ⟨path.opening.1 ++ trimEnd init,middle,gap,by simpa using whole,quiet,blank,plain,?_,?_⟩
    · simp [parent?,steps]
    · intro closed
      cases trimmed : (trimEnd init).getLast? with
      | none =>
        rw [List.getLast?_append,trimmed,Option.none_or] at closed
        rcases dot with dot | dot <;> simp [dot] at closed
      | some part =>
        rw [List.getLast?_append,trimmed,Option.some_or] at closed
        cases closed
        cases ending _ trimmed

theorem blank_of_no_step (step : path.lastStep? = none) : ∀ part ∈ path.parts, isPlain part = false := by
  simpa [lastStep?,List.filter_eq_nil_iff] using step

/-- Of a path without a step nothing is left, or the `.` that stands for nothing. -/
theorem around_of_no_step (relative : path.absolute = false) (step : path.lastStep? = none) :
    path.around = ⟨false,[]⟩ ∨ path.around = ⟨false,["."]⟩ := by
  obtain ⟨parts,dot⟩ := path.opening_split
  have none : trimEnd path.opening.2 = [] := by
    have quiet : ∀ part ∈ path.opening.2, isPlain part = false :=
      fun part member => blank_of_no_step step part (parts ▸ List.mem_append_right _ member)
    simpa [trimEnd,List.dropWhile_eq_nil_iff] using quiet
  rcases dot with dot | dot
  · right
    simp only [around,parent?,none,dot]
    rfl
  · left
    simp [around,parent?,none,dot,relative]

end Path

namespace FileTree

variable {tree : FileTree} {place goal home : Location} {parts : List String} {path : Path} {file : String}

/-- Parts that mean nothing stay in a directory. -/
theorem follow_of_blank (directory : tree.node? place = some .directory)
    (blank : ∀ part ∈ parts, Path.isPlain part = false) (rest : List String) :
    tree.follow place (parts ++ rest) = tree.follow place rest := by
  induction parts with
  | nil => rfl
  | cons part later ih =>
    obtain ⟨here,after⟩ := List.forall_mem_cons.mp blank
    rw [List.cons_append,follow,directory]
    simp only [Path.isPlain_eq_false.mp here,if_true]
    exact ih after

theorem follow_blank (blank : ∀ part ∈ parts, Path.isPlain part = false)
    (led : tree.follow place parts = .ok goal) : goal = place := by
  induction parts with
  | nil =>
    cases led
    rfl
  | cons part rest ih =>
    obtain ⟨here,later⟩ := List.forall_mem_cons.mp blank
    rw [follow] at led
    cases node : tree.node? place with
    | none => simp [node] at led
    | some kind =>
      cases kind with
      | file bytes => simp [node] at led
      | directory =>
        simp only [node,Path.isPlain_eq_false.mp here,if_true] at led
        exact ih later led

theorem follow_up (led : tree.follow place [".."] = .ok goal) :
    tree.node? place = some .directory ∧ goal = place.tail := by
  cases node : tree.node? place with
  | none => simp [follow,node] at led
  | some kind =>
    cases kind with
    | file bytes => simp [follow,node] at led
    | directory =>
      simp only [follow,node,if_true] at led
      exact ⟨rfl,(Except.ok.inj led).symm⟩

theorem directory_of_follow (led : tree.follow place parts = .ok goal) (filled : parts ≠ []) :
    tree.node? place = some .directory := by
  obtain ⟨part,rest,rfl⟩ := List.exists_cons_of_ne_nil filled
  rw [follow] at led
  split at led <;> first | assumption | cases led

/-- The path without its last step leads to the place that has the one the path leads to, if that step is a
name, and otherwise to a place in it. -/
structure Around (tree : FileTree) (path : Path) (home : Location) (kept : List String) (outer : Location) :
    Prop where
  around : path.around = ⟨path.absolute,kept⟩
  opened : kept.getLast? ≠ some ""
  base : tree.base ⟨path.absolute,kept⟩ = .ok outer
  directory : tree.node? outer = some .directory
  named : path.fileName? ≠ none → outer = home.tail
  unnamed : path.fileName? = none → home <:+ outer

theorem around_of_step {part : String} (step : path.lastStep? = some part)
    (led : tree.locate path = .ok home) : ∃ kept outer, Around tree path home kept outer := by
  obtain ⟨kept,middle,gap,parts,quiet,blank,plain,parent,opened⟩ := Path.parent?_of_lastStep? step
  have whole := base_of_locate led
  rw [FileTree.base,parts] at whole
  obtain ⟨outer,before,rest⟩ := follow_append.mp whole
  obtain ⟨still,silent,rest⟩ := follow_append.mp rest
  obtain ⟨after,last,trailing⟩ := follow_cons.mp rest
  obtain rfl := follow_blank quiet silent
  obtain rfl := follow_blank blank trailing
  have around : path.around = ⟨path.absolute,kept⟩ := by rw [Path.around,parent,Option.getD_some]
  by_cases up : part = ".."
  · subst up
    obtain ⟨directory,rfl⟩ := follow_up last
    have ends := Path.fileName?_eq_none.mpr (.inr step)
    exact ⟨kept,_,around,opened,before,directory,fun named => absurd ends named,
      fun _ => List.tail_suffix _⟩
  · have filled : part ≠ "" ∧ part ≠ "." := by
      rw [← not_or,← Path.isPlain_eq_false,plain]
      simp
    obtain ⟨directory,rfl⟩ := follow_name filled.1 filled.2 up last
    have named : path.fileName? ≠ none := by simp [Path.fileName?_eq_none,step,up]
    exact ⟨kept,_,around,opened,before,directory,fun _ => rfl,fun ends => absurd ends named⟩

theorem around_of_no_step (step : path.lastStep? = none) (led : tree.locate path = .ok home)
    (inner : home ≠ []) : ∃ kept outer, Around tree path home kept outer := by
  have blank := Path.blank_of_no_step step
  have whole := base_of_locate led
  have stays := follow_blank blank whole
  have relative : path.absolute = false := by
    by_contra absolute
    exact inner (by simp [stays,absolute])
  have filled : path.parts ≠ [] := by
    intro empty
    simp only [locate,relative,empty,if_true,Bool.false_eq_true,if_false] at led
    split at led <;> cases led
  have directory := directory_of_follow whole filled
  rw [relative] at stays directory
  obtain rfl : home = tree.current := stays
  have ends := Path.fileName?_eq_none.mpr (.inl step)
  have unnamed : path.fileName? = none → tree.current <:+ tree.current := fun _ => List.suffix_rfl
  rcases Path.around_of_no_step relative step with around | around
  · exact ⟨[],_,by rw [around,relative],by simp,by rw [relative]; rfl,directory,
      fun named => absurd ends named,unnamed⟩
  · have here : tree.base ⟨path.absolute,["."]⟩ = .ok tree.current := by
      rw [relative]
      exact follow_of_blank directory (Path.blank_dots 1) []
    exact ⟨["."],_,by rw [around,relative],by simp,here,directory,fun named => absurd ends named,
      unnamed⟩

theorem exists_around (led : tree.locate path = .ok home) (inner : home ≠ []) :
    ∃ kept outer, Around tree path home kept outer := by
  cases step : path.lastStep? with
  | none => exact around_of_no_step step led inner
  | some part => exact around_of_step step led

end FileTree
end PlainTables
