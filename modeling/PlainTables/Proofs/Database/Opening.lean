import Mathlib.Data.List.Induction
import PlainTables.Proofs.Database.Confined
import PlainTables.Proofs.Files.Closed

/-! Opening a database that may have to be made, with the missing directories on the way to it. They are
made one after the other from the outermost one, so an opening that fails late has made some of them.
Main statement: it has made none if the path descends. -/
namespace PlainTables.Database

open Actions FileAction FileTree

variable {tree after : FileTree} {place : Location} {path parent : Path} {outer : List Path}
  {name : String} {db : Database} {fault : Fault}

/-! ### One directory -/

theorem ensureDirectory_allOrNothing (path : Path) : AllOrNothing (ensureDirectory path) := by
  intro tree fault after failed
  unfold ensureDirectory at failed
  split at failed
  · cases failed
  · split at failed <;> cases failed
    rfl

theorem isDirectory_of_ensureDirectory (made : ensureDirectory path tree = .ok () after) :
    after.isDirectory path = true := by
  unfold ensureDirectory at made
  split at made
  · next changed done =>
    cases made
    obtain ⟨place,located,absent,rfl⟩ := makeDirectory_eq_ok.mp done
    have free : tree.node? place ≠ some .directory := by simp [absent]
    exact isDirectory_iff.mpr ⟨place,find_eq_ok.mp (find_put .directory located free)⟩
  · split at made
    · next there =>
      cases made
      exact there.2
    · cases made

theorem ensureDirectory_of_located (located : tree.locate path = .ok place)
    (free : ∀ bytes, tree.node? place ≠ some (.file bytes)) :
    ∃ after, ensureDirectory path tree = .ok () after := by
  cases node : tree.node? place with
  | none =>
    have made := makeDirectory_eq_ok.mpr ⟨place,located,node,rfl⟩
    exact ⟨_,by rw [ensureDirectory,made]⟩
  | some kind =>
    cases kind with
    | file bytes => exact absurd node (free bytes)
    | directory =>
      have there := isDirectory_iff.mpr ⟨place,located,node⟩
      have refused : tree.makeDirectory path = .error .alreadyExists := by
        simp [makeDirectory,located,node,bind,Except.bind]
      exact ⟨tree,by simp [ensureDirectory,refused,there]⟩

theorem locate_of_missing (missing : ensureDirectory path tree = .error (.io .notFound) after) :
    tree.locate path = .error .notFound := by
  unfold ensureDirectory makeDirectory at missing
  cases located : tree.locate path with
  | error cause =>
    simp only [located,bind,Except.bind] at missing
    split at missing <;> cases missing
    rfl
  | ok place =>
    cases node : tree.node? place with
    | none => simp [located,node,bind,Except.bind] at missing
    | some kind =>
      simp only [located,node,bind,Except.bind] at missing
      split at missing <;> cases missing

/-! ### The directories on the way -/

theorem isDirectory_of_ensureDirectories
    (made : ensureDirectories (path :: outer) tree = .ok () after) :
    after.isDirectory path = true := by
  cases first : ensureDirectory path tree with
  | ok _ done =>
    rw [ensureDirectories_of_ok first] at made
    cases made
    exact isDirectory_of_ensureDirectory first
  | error cause left =>
    by_cases missing : cause = .io .notFound
    · subst missing
      rw [ensureDirectories_of_missing first] at made
      obtain ⟨_,_,-,last⟩ := bind_eq_ok.mp made
      exact isDirectory_of_ensureDirectory last
    · rw [ensureDirectories_of_error first missing] at made
      cases made

theorem stages_concat (absolute : Bool) (kept : List String) (part : String) :
    (Path.mk absolute (kept ++ [part])).stages.reverse =
      ⟨absolute,kept ++ [part]⟩ :: (Path.mk absolute kept).stages.reverse := by
  have before : ∀ n ∈ List.range kept.length,
      (⟨absolute,(kept ++ [part]).take (n + 1)⟩ : Path) = ⟨absolute,kept.take (n + 1)⟩ := by
    intro n inside
    rw [List.take_append_of_le_length (Nat.succ_le_of_lt (List.mem_range.mp inside))]
  simp only [Path.stages,List.length_append,List.length_singleton,List.range_succ,List.map_append,
    List.map_congr_left before,List.reverse_append]
  simp [List.take_of_length_le]

/-- By induction on the parts of the path, the last one first: either it is refused at once, or the
directories before it fail, or they are made and then it can be made as well. -/
theorem makeDirectories_unchanged (closed : tree.Closed) (descends : tree.Descends path)
    (failed : makeDirectories path tree = .error fault after) : after = tree := by
  obtain ⟨absolute,parts⟩ := path
  rw [makeDirectories] at failed
  induction parts using List.reverseRecOn generalizing fault after with
  | nil => cases failed
  | append_singleton kept part ih =>
    rw [stages_concat] at failed
    cases first : ensureDirectory ⟨absolute,kept ++ [part]⟩ tree with
    | ok _ made =>
      rw [ensureDirectories_of_ok first] at failed
      cases failed
    | error cause left =>
      rw [ensureDirectory_allOrNothing _ _ _ _ first] at first
      by_cases missing : cause = .io .notFound
      · subst missing
        rw [ensureDirectories_of_missing first] at failed
        rcases bind_eq_error.mp failed with outer | ⟨_,middle,outer,last⟩
        · exact ih descends.of_append outer
        rcases List.eq_nil_or_concat' kept with rfl | ⟨before,above,rfl⟩
        · cases outer
          exact ensureDirectory_allOrNothing _ _ _ _ last
        · have adds : AddsDirectories tree middle := by
            have makes := ensureDirectories_onlyMakes
              (Path.mk absolute (before ++ [above])).stages.reverse tree
            rw [outer] at makes
            exact makes.toAddsDirectories
          rw [stages_concat] at outer
          obtain ⟨place,located,free⟩ := free_below closed descends (locate_of_missing first) adds
            (isDirectory_of_ensureDirectories outer)
          obtain ⟨_,done⟩ := ensureDirectory_of_located located free
          rw [done] at last
          cases last
      · rw [ensureDirectories_of_error first missing] at failed
        cases failed
        rfl

/-! ### Opening -/

theorem isDirectory_of_openIn (opened : openIn parent name tree = .ok db after) :
    after.isDirectory db.root = true := by
  obtain ⟨valid,rfl⟩ := openIn_eq_ok opened
  rw [openIn_of_valid valid] at opened
  split at opened
  · next there =>
    cases opened
    exact there
  · obtain ⟨_,made,-⟩ := bind_pure_eq_ok.mp opened
    -- the name is the last part of the path
    rw [Path.ofText_step (Path.isStep_of_valid valid),Path.join,if_neg (by simp)] at made ⊢
    rw [makeDirectories,stages_concat] at made
    exact isDirectory_of_ensureDirectories made

theorem openIn_unchanged (closed : tree.Closed)
    (descends : tree.Descends (parent.join (Path.ofText name)))
    (failed : openIn parent name tree = .error fault after) : after = tree := by
  by_cases valid : Name.isValid name = true
  · rw [openIn_of_valid valid] at failed
    split at failed
    · cases failed
    · rcases bind_eq_error.mp failed with refused | ⟨_,_,_,⟨⟩⟩
      exact makeDirectories_unchanged closed descends refused
  · rw [openIn_of_invalid valid] at failed
    cases failed
    rfl

end PlainTables.Database
