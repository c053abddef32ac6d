import PlainTables.Proofs.Answer.Aligned
import PlainTables.Proofs.Editor.Shown
import PlainTables.Proofs.Editor.Typing
import PlainTables.Proofs.Editor.Vertical

/-! The 16-bit numbers of the screen: the widths that the columns of a grid are given and the place of the
cursor. Each of them wraps around. Main statement: in every state that the editor comes to, such a number is
the exact one if and only if the exact one has 16 bits, said for the texts and the cells on show. -/
namespace PlainTables

/-- The widths of a grid are those of its columns, and none is below the least one. -/
def Grid.Measured (grid : Grid) : Prop :=
  grid.widths = columnWidths Grid.leastWidth grid.columns grid.rows

/-- No text of a column, its name included, has more characters. -/
def Grid.NarrowAt (grid : Grid) (m i : Nat) : Prop :=
  ∀ cells ∈ grid.columns :: grid.rows, ∀ cell ∈ cells[i]?, cell.length ≤ m

theorem Answer.measured_of_grid? {answer : Answer} {grid : Grid} (shown : answer.grid? = some grid) :
    grid.Measured := by
  cases answer with
  | tables | records =>
    cases shown
    rfl
  | rowCount | message | databaseSelected => cases shown

theorem Grid.Measured.widths_le_iff {grid : Grid} (measured : grid.Measured) {m : Nat}
    (least : Grid.leastWidth ≤ m) (k : Nat) :
    (∀ w ∈ grid.widths.drop k, w ≤ m) ↔ ∀ i, k ≤ i → i < grid.columns.length → grid.NarrowAt m i := by
  have size : grid.widths.length = grid.columns.length := by
    rw [measured,columnWidths,List.length_map,List.length_zipIdx]
  have narrow : ∀ {i w}, grid.widths[i]? = some w → (w ≤ m ↔ grid.NarrowAt m i) := by
    intro i w width
    rw [measured] at width
    rw [Answer.columnWidths_le_iff width]
    exact and_iff_right least
  constructor
  · intro all i beyond inside
    have width := List.getElem?_eq_getElem (size ▸ inside : i < grid.widths.length)
    have later : (grid.widths.drop k)[i - k]? = some grid.widths[i] := by
      rw [List.getElem?_drop,Nat.add_sub_of_le beyond,width]
    exact (narrow width).mp (all _ (List.mem_of_getElem? later))
  · intro all w member
    obtain ⟨j,found⟩ := List.mem_iff_getElem?.mp member
    rw [List.getElem?_drop] at found
    have inside : k + j < grid.widths.length := (List.getElem?_eq_some_iff.mp found).1
    exact (narrow found).mpr (all _ (Nat.le_add_right k j) (size ▸ inside))

theorem View.slotWidth_exact_iff (w : Nat) : (slotWidth w).toNat = w + 2 ↔ w ≤ 65533 := by
  have wraps : (slotWidth w).toNat = (w + 2) % 65536 := by simp [slotWidth]
  rw [wraps]
  omega

namespace Editor

open Buffer (lastLine)

variable {e : Editor}

/-! ### Grids on show -/

def Shown.Measured (s : Shown) : Prop := ∀ grid ∈ s.result, grid.Measured

theorem Shown.measured_ofAnswer (answer : Answer) : (ofAnswer answer).Measured := by
  unfold ofAnswer
  split
  · next grid shown =>
    intro other same
    cases same
    exact Answer.measured_of_grid? shown
  · simp [Measured]

theorem Shown.Measured.ran {s : Shown} (measured : s.Measured)
    (outcome : EStateM.Result Fault Workspace (List Answer)) : (s.ran outcome).Measured := by
  cases outcome with
  | ok answers workspace =>
    simp only [Shown.ran]
    cases answers.getLast? with
    | none => exact measured
    | some answer => exact measured_ofAnswer answer
  | error fault workspace => simp [Shown.ran,Measured]

theorem measured_runTo (measured : e.shown.Measured)
    (outcome : EStateM.Result Fault Workspace (List Answer)) : (e.runTo outcome).shown.Measured := by
  rw [shown_runTo]
  split
  · exact measured
  · exact measured.ran outcome

theorem measured_ordered (measured : e.shown.Measured) (order : Option Command) :
    (e.ordered order).shown.Measured := by
  cases order with
  | none => exact measured
  | some command =>
    show (e.runCommand command).shown.Measured
    cases command with
    | quit | nothing | unknown => exact measured
    | clear => simp [runCommand,shown,Shown.Measured]
    | run =>
      show e.runText.shown.Measured
      rw [runText_eq]
      exact measured_runTo measured _
    | use name =>
      show (e.useDatabase name).shown.Measured
      unfold useDatabase
      split <;> exact measured

theorem measured_event (e : Editor) (event : Event) (measured : e.shown.Measured) :
    (event.apply e).shown.Measured := by
  cases event with
  | press key =>
    show (e.press key).shown.Measured
    rw [shown_press]
    exact measured_ordered measured _
  | run outcome => exact measured_runTo measured outcome
  | outside workspace => exact measured

theorem measured_after (workspace : Workspace) (events : List Event) :
    ((start workspace).after events).shown.Measured :=
  after_keeps measured_event events (by simp [start,shown,Shown.Measured])

/-! ### Numbers of the screen -/

/-- Column and row of the cursor on a screen of some height, if it is shown. -/
def cursorPlace (e : Editor) (height : Nat) : Option (Nat × Nat) :=
  (View.cursor e height).map fun (column,row) => (column.toNat,row.toNat)

/-- How far the numbers of the screen are exact. -/
structure Extent (e : Editor) : Prop where
  slots : ∀ grid ∈ e.result,
    (∀ w ∈ grid.widths.drop e.columnScroll, (View.slotWidth w).toNat = w + 2) ↔
      ∀ i, e.columnScroll ≤ i → i < grid.columns.length → grid.NarrowAt 65533 i
  cell : e.buffer.cell = (e.buffer.row,e.buffer.column) ↔
    e.buffer.row < 65536 ∧ e.buffer.column < 65536
  inserting : e.mode = .insert → ∀ height,
    e.cursorPlace height = some (1 + e.buffer.column,2 + e.buffer.row) ↔
      e.buffer.column < 65535 ∧ e.buffer.row < 65534
  commanding : e.mode = .command → ∀ height,
    (e.cursorPlace height).map Prod.fst = some (1 + e.command.length) ↔ e.command.length < 65535

theorem slots_iff {grid : Grid} (measured : grid.Measured) (k : Nat) :
    (∀ w ∈ grid.widths.drop k, (View.slotWidth w).toNat = w + 2) ↔
      ∀ i, k ≤ i → i < grid.columns.length → grid.NarrowAt 65533 i := by
  simp only [View.slotWidth_exact_iff]
  exact measured.widths_le_iff (by decide) k

theorem cell_iff (b : Buffer) : b.cell = (b.row,b.column) ↔ b.row < 65536 ∧ b.column < 65536 := by
  rw [Buffer.cell_eq,Prod.mk.injEq]
  omega

theorem cursorPlace_insert (inserting : e.mode = .insert) (focus : e.focus = .query) (height : Nat) :
    e.cursorPlace height =
      some ((1 + e.buffer.column) % 65536,(2 + e.buffer.row) % 65536) := by
  simp [cursorPlace,View.cursor,inserting,focus,View.cursorCell,Buffer.row,Buffer.column]

theorem cursorPlace_command (commanding : e.mode = .command) (height : Nat) :
    (e.cursorPlace height).map Prod.fst = some ((1 + e.command.length) % 65536) := by
  simp [cursorPlace,View.cursor,commanding]

theorem Invariant.extent (inv : e.Invariant) (measured : e.shown.Measured) : e.Extent where
  slots := fun grid shown => slots_iff (measured grid shown) e.columnScroll
  cell := cell_iff e.buffer
  inserting := by
    intro inserting height
    rw [cursorPlace_insert inserting (inv.insert_focus inserting),Option.some_inj,Prod.mk.injEq]
    omega
  commanding := by
    intro commanding height
    rw [cursorPlace_command commanding,Option.some_inj]
    omega

/-- The numbers of the screen are exact in every state of the editor that is small enough for them, and
in no other. -/
theorem after_extent (workspace : Workspace) (events : List Event) :
    ((start workspace).after events).Extent :=
  (Invariant.after workspace events).extent (measured_after workspace events)

/-- The keys that begin to insert and then type a line of so many letters. -/
def typedLine (n : Nat) : List Event :=
  .press ⟨.char 'i',.none⟩ :: alone ((List.replicate n 'x').map .char)

theorem buffer_typedLine (workspace : Workspace) (n : Nat) :
    ((start workspace).after (typedLine n)).buffer = ⟨List.replicate n 'x',[]⟩ := by
  have edits : ((List.replicate n 'x').map Key.char).map edit? =
      ((List.replicate n 'x').map Edit.insert).map some := by
    rw [List.map_map,List.map_map]
    rfl
  have typed := after_alone (e := (start workspace).enter .insert) rfl edits
  show (((start workspace).enter .insert).after (alone ((List.replicate n 'x').map .char))).buffer = _
  rw [typed,Edit.run_insert]
  rfl

theorem column_typedLine (workspace : Workspace) (n : Nat) :
    ((start workspace).after (typedLine n)).buffer.column = n := by
  have plain : '\n' ∉ List.replicate n 'x' := by simp [List.mem_replicate]
  rw [buffer_typedLine,Buffer.column,Buffer.lastLine_eq_self plain,List.length_replicate]

/-- An editor with a line of 65536 letters. -/
def longLine (workspace : Workspace) : Editor := (start workspace).after (typedLine 65536)

theorem longLine_wraps :
    (longLine (.start .empty (Path.ofText "data") .comma)).buffer.column = 65536 ∧
      (longLine (.start .empty (Path.ofText "data") .comma)).buffer.cell ≠
        ((longLine (.start .empty (Path.ofText "data") .comma)).buffer.row,65536) := by
  have column : (longLine (.start .empty (Path.ofText "data") .comma)).buffer.column = 65536 :=
    column_typedLine _ _
  have exact := (after_extent (.start .empty (Path.ofText "data") .comma) (typedLine 65536)).cell
  refine ⟨column,fun same => ?_⟩
  have short := (exact.mp (column.symm ▸ same)).2
  exact absurd (column ▸ short) (Nat.lt_irrefl _)

end Editor
end PlainTables
