import PlainTables.Proofs.Files.Directories

/-! Trees in which everything lies in a directory, and paths that leave such a tree. Nothing is below a
place where nothing is, so a path that has come to one and goes on downwards leads only to places where
nothing is either. -/
namespace PlainTables.FileTree

variable {tree : FileTree} {place goal : Location} {path : Path} {parts kept : List String}
  {part : String} {absolute : Bool}

/-- Everything lies in a directory. -/
def Closed (tree : FileTree) : Prop :=
  ∀ name place, tree.node? (name :: place) ≠ none → tree.node? place = some .directory

theorem closed_of_entries
    (inside : ∀ entry ∈ tree.entries, tree.node? entry.1.tail = some .directory) : tree.Closed := by
  intro name place there
  obtain ⟨node,found⟩ := Option.ne_none_iff_exists'.mp there
  rw [node?,if_neg (List.cons_ne_nil name place)] at found
  obtain ⟨before,after,split,-⟩ := List.lookup_eq_some_iff.mp found
  exact inside (name :: place,node) (by simp [split])

theorem Closed.nothing_below (closed : tree.Closed) (missing : tree.node? goal = none)
    (below : goal <:+ place) : tree.node? place = none := by
  induction place with
  | nil => rwa [List.suffix_nil.mp below] at missing
  | cons name place ih =>
    rcases List.suffix_cons_iff.mp below with rfl | below
    · exact missing
    · by_contra there
      have directory := closed name place there
      rw [ih below] at directory
      cases directory

theorem suffix_of_follow (led : tree.follow place parts = .ok goal)
    (down : ∀ part ∈ parts, part ≠ "..") : place <:+ goal := by
  induction parts generalizing place with
  | nil =>
    cases led
    exact List.suffix_rfl
  | cons part rest ih =>
    obtain ⟨here,later⟩ := List.forall_mem_cons.mp down
    obtain ⟨next,first,led⟩ := follow_cons.mp led
    have below := ih led later
    rcases follow_part first with rfl | ⟨above,-⟩ | rfl
    · exact below
    · exact absurd above here
    · exact (List.suffix_cons part place).trans below

theorem follow_down (directory : tree.node? place = some .directory)
    (down : part ≠ ".." ∧ part.utf8ByteSize ≤ maxNameBytes) :
    ∃ goal, tree.follow place [part] = .ok goal ∧ (goal = place ∨ goal = part :: place) := by
  rw [follow,directory]
  by_cases stays : part = "" ∨ part = "."
  · exact ⟨place,by simp [stays,follow],.inl rfl⟩
  · exact ⟨part :: place,by simp [stays,down.1,Nat.not_lt.mpr down.2,follow],.inr rfl⟩

/-- A path that is not found has come to a place where nothing is. -/
theorem missing_of_follow (missing : tree.follow place parts = .error .notFound) :
    ∃ before rest goal, parts = before ++ rest ∧ rest ≠ [] ∧ tree.follow place before = .ok goal ∧
      tree.node? goal = none := by
  induction parts generalizing place with
  | nil => cases missing
  | cons part rest ih =>
    cases node : tree.node? place with
    | none => exact ⟨[],part :: rest,place,rfl,by simp,rfl,node⟩
    | some kind =>
      cases first : tree.follow place [part] with
      | ok next =>
        have later := follow_append_of_ok rest first
        rw [List.singleton_append,missing] at later
        obtain ⟨before,after,goal,rfl,filled,led,gone⟩ := ih later.symm
        exact ⟨part :: before,after,goal,rfl,filled,follow_cons.mpr ⟨next,first,led⟩,gone⟩
      | error cause =>
        rw [follow,node] at missing first
        cases kind with
        | file bytes => cases missing
        | directory =>
          simp only [follow] at missing first
          split_ifs at missing first
          cases missing

/-- Once it has come to a place where nothing is, the path goes down by names that fit. -/
def Descends (tree : FileTree) (path : Path) : Prop :=
  ∀ before rest goal, path.parts = before ++ rest → tree.base ⟨path.absolute,before⟩ = .ok goal →
    tree.node? goal = none → ∀ part ∈ rest, part ≠ ".." ∧ part.utf8ByteSize ≤ maxNameBytes

theorem descends_of_parts
    (down : ∀ part ∈ path.parts, part ≠ ".." ∧ part.utf8ByteSize ≤ maxNameBytes) :
    tree.Descends path :=
  fun _ _ _ split _ _ part member => down part (split ▸ List.mem_append_right _ member)

theorem Descends.of_append (descends : tree.Descends ⟨absolute,kept ++ [part]⟩) :
    tree.Descends ⟨absolute,kept⟩ := by
  intro before rest goal split led gone other member
  have whole : kept ++ [part] = before ++ (rest ++ [part]) := by
    rw [← List.append_assoc,← show kept = before ++ rest from split]
  exact descends before _ goal whole led gone other (List.mem_append_left _ member)

theorem locate_of_short (filled : path.parts ≠ [])
    (short : ¬maxPathBytes < path.text.utf8ByteSize) : tree.locate path = tree.base path := by
  rw [locate,base,if_neg short]
  cases path.absolute with
  | true => rfl
  | false => exact if_neg filled

theorem KeepsDirectories.base {later : FileTree} (keeps : KeepsDirectories tree later)
    (led : tree.base path = .ok goal) : later.base path = .ok goal := by
  unfold FileTree.base at led ⊢
  rw [keeps.current]
  exact keeps.follow led

/-- Behind a place where nothing was, the next part leads to a place that is free as soon as the
directory before it has been made. -/
theorem free_below (closed : tree.Closed) (descends : tree.Descends ⟨absolute,kept ++ [part]⟩)
    (missing : tree.locate ⟨absolute,kept ++ [part]⟩ = .error .notFound) {middle : FileTree}
    (adds : AddsDirectories tree middle) (there : middle.isDirectory ⟨absolute,kept⟩ = true) :
    ∃ place, middle.locate ⟨absolute,kept ++ [part]⟩ = .ok place ∧
      ∀ bytes, middle.node? place ≠ some (.file bytes) := by
  have short : ¬maxPathBytes < (Path.mk absolute (kept ++ [part])).text.utf8ByteSize := by
    intro long
    rw [locate,if_pos long] at missing
    cases missing
  rw [locate_of_short (by simp) short] at missing
  obtain ⟨before,rest,gone,split,filled,led,nothing⟩ := missing_of_follow missing
  obtain ⟨rest,last,rfl⟩ := (List.eq_nil_or_concat' rest).resolve_left filled
  obtain ⟨rfl,same⟩ := List.append_inj' (split.trans (List.append_assoc before rest [last]).symm) rfl
  cases same
  have led : tree.base ⟨absolute,before⟩ = .ok gone := led
  have down := descends before (rest ++ [part]) gone (List.append_assoc _ _ _) led nothing
  -- the new tree leads to the same place, and from there down to the directory
  obtain ⟨home,located,directory⟩ := isDirectory_iff.mp there
  have whole := follow_append_of_ok rest (adds.keepsDirectories.base led)
  have way : middle.follow gone rest = .ok home := whole.symm.trans (base_of_locate located)
  have below : tree.node? home = none := closed.nothing_below nothing
    (suffix_of_follow way fun other member => (down other (List.mem_append_left _ member)).1)
  obtain ⟨goal,first,here⟩ :=
    follow_down directory (down part (List.mem_append_right _ List.mem_cons_self))
  refine ⟨goal,?_,fun bytes file => ?_⟩
  · rw [locate_of_short (by simp) short]
    exact (follow_append_of_ok [part] (base_of_locate located)).trans first
  rcases here with rfl | rfl
  · rw [directory] at file
    cases file
  · have old := (adds.sameFiles _ _).mpr file
    have inside := closed part home (by simp [old])
    rw [below] at inside
    cases inside

end PlainTables.FileTree
