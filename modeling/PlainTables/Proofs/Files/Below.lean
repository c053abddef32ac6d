import PlainTables.Proofs.Files.Placed

/-! Where paths below a directory lead. A step below a path leads to a place right below the place
of that path, so a change that goes through such paths stays where they lead. -/
namespace PlainTables.FileTree

variable {tree a b : FileTree}

/-! ### Places below a path -/

/-- Where a path leads when more is looked up below it: the empty path then means the current
directory. -/
def base (tree : FileTree) (path : Path) : Except IoCause Location :=
  tree.follow (if path.absolute then [] else tree.current) path.parts

theorem base_of_locate {path : Path} {place : Location} (led : tree.locate path = .ok place) :
    tree.base path = .ok place := by
  unfold locate at led
  unfold base
  split at led
  · cases led
  · split at led
    · next absolute => rwa [if_pos absolute]
    · next relative =>
      split at led
      · cases led
      · rwa [if_neg relative]

/-- A path of several parts is followed part by part. -/
theorem follow_append {place goal : Location} {parts rest : List String} :
    tree.follow place (parts ++ rest) = .ok goal ↔
      ∃ middle, tree.follow place parts = .ok middle ∧ tree.follow middle rest = .ok goal := by
  induction parts generalizing place with
  | nil => simp [follow]
  | cons part later ih =>
    rw [List.cons_append,follow,follow]
    cases node : tree.node? place with
    | none => simp
    | some kind =>
      cases kind with
      | file bytes => simp
      | directory =>
        dsimp only
        split
        · exact ih
        · split
          · exact ih
          · split
            · simp
            · exact ih

theorem follow_cons {place goal : Location} {part : String} {rest : List String} :
    tree.follow place (part :: rest) = .ok goal ↔
      ∃ next, tree.follow place [part] = .ok next ∧ tree.follow next rest = .ok goal := by
  rw [← follow_append,List.singleton_append]

/-- One part of a path leads nowhere, upwards or to a place below. -/
theorem follow_part {place goal : Location} {part : String} (led : tree.follow place [part] = .ok goal) :
    goal = place ∨ part = ".." ∧ goal = place.tail ∨ goal = part :: place := by
  rw [follow] at led
  cases node : tree.node? place with
  | none => simp [node] at led
  | some kind =>
    cases kind with
    | file bytes => simp [node] at led
    | directory =>
      simp only [node,follow] at led
      split_ifs at led with here above long
      · exact .inl (Except.ok.inj led).symm
      · exact .inr (.inl ⟨above,(Except.ok.inj led).symm⟩)
      · exact .inr (.inr (Except.ok.inj led).symm)

theorem follow_name {place goal : Location} {part : String} (filled : part ≠ "") (here : part ≠ ".")
    (above : part ≠ "..") (led : tree.follow place [part] = .ok goal) :
    tree.node? place = some .directory ∧ goal = part :: place := by
  cases node : tree.node? place with
  | none => simp [follow,node] at led
  | some kind =>
    cases kind with
    | file bytes => simp [follow,node] at led
    | directory =>
      simp only [follow,node,filled,here,above,or_self,if_false] at led
      split at led
      · cases led
      · exact ⟨rfl,(Except.ok.inj led).symm⟩

theorem follow_last {place goal : Location} {part : String} (step : Path.IsStep part)
    (led : tree.follow place [part] = .ok goal) :
    tree.node? place = some .directory ∧ goal = part :: place :=
  follow_name step.filled step.here step.above led

/-- A slash at the end of a path asks for a directory and leads nowhere else. -/
theorem base_join {path : Path} {part : String} {place : Location} (step : Path.IsStep part)
    (led : tree.base (path.join (Path.ofText part)) = .ok place) :
    ∃ home, tree.base path = .ok home ∧ place = part :: home := by
  rw [Path.ofText_step step] at led
  simp only [base,Path.join,Bool.false_eq_true,if_false] at led
  obtain ⟨home,before,last⟩ := follow_append.mp led
  obtain ⟨directory,rfl⟩ := follow_last step last
  refine ⟨home,?_,rfl⟩
  by_cases closed : path.parts.getLast? = some ""
  · rw [if_pos closed] at before
    rw [base,← List.dropLast_append_getLast? "" closed]
    refine follow_append.mpr ⟨home,before,?_⟩
    rw [follow,directory]
    simp [follow]
  · rwa [if_neg closed] at before

/-! ### Changes within some places -/

/-- Everything outside some places is as it was. -/
def ChangesWithin (a b : FileTree) (places : List Location) : Prop :=
  ∀ place, place ∉ places → b.node? place = a.node? place

theorem changesWithin_refl (tree : FileTree) (places : List Location) :
    ChangesWithin tree tree places :=
  fun _ _ => rfl

theorem changesWithin_put (place : Location) (node : Node) :
    ChangesWithin tree (tree.put place node) [place] :=
  fun _ outside => node?_put_other tree node (List.ne_of_not_mem_cons outside)

theorem changesWithin_remove (place : Location) : ChangesWithin tree (tree.remove place) [place] :=
  fun _ outside => node?_remove_other tree (List.ne_of_not_mem_cons outside)

theorem changesWithin_replaced (beside place : Location) (bytes : ByteArray) :
    ChangesWithin tree (tree.replaced beside place bytes) [place,beside] := by
  intro other outside
  simp only [List.mem_cons,List.not_mem_nil,or_false,not_or] at outside
  rw [replaced,node?_put_other _ _ outside.1,node?_remove_other _ outside.2,
    node?_put_other _ _ outside.2]

/-- The file beside is gone, whatever stood there before. -/
theorem node?_replaced_beside {beside place : Location} (bytes : ByteArray) (inside : beside ≠ [])
    (apart : beside ≠ place) : (tree.replaced beside place bytes).node? beside = none := by
  rw [replaced,node?_put_other _ _ apart,node?_remove_same _ inside]

end PlainTables.FileTree
