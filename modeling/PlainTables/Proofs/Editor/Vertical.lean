import Mathlib.Data.List.Induction
import PlainTables.Editor.View
import PlainTables.Proofs.Editor.Edit

/-! Motions between lines. A text with a cursor is a line cut in two between the lines above and the
lines below, and a motion makes the next of these lines the one that is cut. Main statement: the cursor
on the screen moves by one line and keeps its column, or goes to the end of a line that is too short. -/
namespace PlainTables

/-- The lines above the cursor, the nearest one first, the two parts of its own line, and the lines
below. -/
structure LineBuffer where
  above : List (List Char)
  left : List Char
  right : List Char
  below : List (List Char)
  deriving DecidableEq, Repr

namespace LineBuffer

open Buffer (utf8Size lastLine firstLine)

variable {b : LineBuffer} {text left line rest : List Char} {above below : List (List Char)}

def lines (b : LineBuffer) : List (List Char) := b.above.reverse ++ (b.left ++ b.right) :: b.below

/-- No line holds the end of a line. -/
def Plain (b : LineBuffer) : Prop := ∀ line ∈ b.lines, '\n' ∉ line

/-- Lines with their ends. -/
def ended (lines : List (List Char)) : List Char := lines.flatMap (· ++ ['\n'])

/-- Lines, each behind the end of the one before. -/
def begun (lines : List (List Char)) : List Char := lines.flatMap ('\n' :: ·)

def buffer (b : LineBuffer) : Buffer := ⟨ended b.above.reverse ++ b.left,b.right ++ begun b.below⟩

def up (b : LineBuffer) : LineBuffer :=
  match b.above with
  | [] => b
  | line :: above =>
    ⟨above,line.take b.left.length,line.drop b.left.length,(b.left ++ b.right) :: b.below⟩

def down (b : LineBuffer) : LineBuffer :=
  match b.below with
  | [] => b
  | line :: below =>
    ⟨(b.left ++ b.right) :: b.above,line.take b.left.length,line.drop b.left.length,below⟩

theorem lines_up (b : LineBuffer) : b.up.lines = b.lines := by
  obtain ⟨above,left,right,below⟩ := b
  cases above with
  | nil => rfl
  | cons line above => simp [up,lines]

theorem lines_down (b : LineBuffer) : b.down.lines = b.lines := by
  obtain ⟨above,left,right,below⟩ := b
  cases below with
  | nil => rfl
  | cons line below => simp [down,lines]

/-! ### The text of the lines -/

theorem count_ended (plain : ∀ line ∈ above, '\n' ∉ line) : (ended above).count '\n' = above.length := by
  induction above with
  | nil => rfl
  | cons line above ih =>
    have none : line.count '\n' = 0 := List.count_eq_zero_of_not_mem (plain line List.mem_cons_self)
    have later := ih fun line member => plain line (List.mem_cons_of_mem _ member)
    simp only [ended,List.flatMap_cons,List.count_append,none] at later ⊢
    rw [later]
    simp [Nat.add_comm]

theorem lastLine_ended (above : List (List Char)) (plain : '\n' ∉ line) :
    lastLine (ended above ++ line) = line := by
  rcases List.eq_nil_or_concat above with rfl | ⟨earlier,last,rfl⟩
  · exact Buffer.lastLine_eq_self plain
  · have split : ended (earlier.concat last) ++ line = (ended earlier ++ last) ++ '\n' :: line := by
      simp [ended]
    rw [split,Buffer.lastLine_append plain]

theorem firstLine_begun (plain : '\n' ∉ line) (below : List (List Char)) :
    firstLine (line ++ begun below) = line := by
  cases below with
  | nil =>
    rw [begun,List.flatMap_nil,List.append_nil]
    exact Buffer.firstLine_eq_self plain
  | cons next below => exact Buffer.firstLine_append plain _

theorem splitOn_begun (plain : '\n' ∉ line) (each : ∀ line ∈ below, '\n' ∉ line) :
    (line ++ begun below).splitOn '\n' = line :: below := by
  induction below generalizing line with
  | nil =>
    rw [begun,List.flatMap_nil,List.append_nil]
    exact List.splitOn_eq_singleton plain
  | cons next below ih =>
    have later := ih (each next List.mem_cons_self) fun line member =>
      each line (List.mem_cons_of_mem _ member)
    have split : line ++ begun (next :: below) = line ++ '\n' :: (next ++ begun below) := rfl
    rw [split,List.splitOn_append_cons_self,later,List.splitOn_eq_singleton plain]
    rfl

theorem splitOn_ended (plain : ∀ line ∈ above, '\n' ∉ line) (rest : List Char) :
    (ended above ++ rest).splitOn '\n' = above ++ rest.splitOn '\n' := by
  induction above with
  | nil => rfl
  | cons line above ih =>
    have later := ih fun line member => plain line (List.mem_cons_of_mem _ member)
    have split : ended (line :: above) ++ rest = line ++ '\n' :: (ended above ++ rest) := by simp [ended]
    rw [split,List.splitOn_append_cons_self,later,
      List.splitOn_eq_singleton (plain line List.mem_cons_self)]
    rfl

/-! ### Every text with a cursor -/

theorem split_above (text : List Char) : ∃ (above : List (List Char)) (left : List Char),
    text = ended above.reverse ++ left ∧ (∀ line ∈ above, '\n' ∉ line) ∧ '\n' ∉ left := by
  induction text using List.reverseRecOn with
  | nil => exact ⟨[],[],rfl,by simp,by simp⟩
  | append_singleton text c ih =>
    obtain ⟨above,left,rfl,plain,own⟩ := ih
    by_cases feed : c = '\n'
    · refine ⟨left :: above,[],?_,?_,by simp⟩
      · simp [ended,feed]
      · simpa using ⟨own,plain⟩
    · refine ⟨above,left ++ [c],?_,plain,?_⟩
      · rw [List.append_assoc]
      · simpa using ⟨own,Ne.symm feed⟩

theorem split_below (text : List Char) : ∃ right below, text = right ++ begun below ∧
    '\n' ∉ right ∧ ∀ line ∈ below, '\n' ∉ line := by
  induction text with
  | nil => exact ⟨[],[],rfl,by simp,by simp⟩
  | cons c text ih =>
    obtain ⟨right,below,rfl,own,plain⟩ := ih
    by_cases feed : c = '\n'
    · refine ⟨[],right :: below,?_,by simp,?_⟩
      · rw [feed]
        rfl
      · simpa using ⟨own,plain⟩
    · refine ⟨c :: right,below,rfl,?_,plain⟩
      simpa using ⟨Ne.symm feed,own⟩

theorem exists_of_buffer (b : Buffer) : ∃ lines : LineBuffer, lines.Plain ∧ lines.buffer = b := by
  obtain ⟨above,left,before,plainAbove,plainLeft⟩ := split_above b.before
  obtain ⟨right,below,after,plainRight,plainBelow⟩ := split_below b.after
  refine ⟨⟨above,left,right,below⟩,?_,?_⟩
  · intro line member
    simp only [lines,List.mem_append,List.mem_cons,List.mem_reverse] at member
    rcases member with higher | rfl | lower
    · exact plainAbove line higher
    · simpa using ⟨plainLeft,plainRight⟩
    · exact plainBelow line lower
  · rw [buffer,← before,← after]

theorem Plain.not_mem_above (plain : b.Plain) : ∀ line ∈ b.above.reverse, '\n' ∉ line :=
  fun line member => plain line (List.mem_append_left _ member)

theorem Plain.not_mem_below (plain : b.Plain) : ∀ line ∈ b.below, '\n' ∉ line :=
  fun line member => plain line (by simp [lines,member])

theorem Plain.not_mem_own (plain : b.Plain) : '\n' ∉ b.left ++ b.right := plain _ (by simp [lines])

theorem Plain.not_mem_left (plain : b.Plain) : '\n' ∉ b.left :=
  fun member => plain.not_mem_own (List.mem_append_left _ member)

theorem Plain.not_mem_right (plain : b.Plain) : '\n' ∉ b.right :=
  fun member => plain.not_mem_own (List.mem_append_right _ member)

theorem Plain.up (plain : b.Plain) : b.up.Plain := by
  rw [Plain,lines_up]
  exact plain

theorem Plain.down (plain : b.Plain) : b.down.Plain := by
  rw [Plain,lines_down]
  exact plain

theorem splitOn_buffer (plain : b.Plain) : b.buffer.chars.splitOn '\n' = b.lines := by
  have text : b.buffer.chars = ended b.above.reverse ++ ((b.left ++ b.right) ++ begun b.below) := by
    simp [buffer,Buffer.chars]
  rw [text,splitOn_ended plain.not_mem_above,splitOn_begun plain.not_mem_own plain.not_mem_below,lines]

theorem row_buffer (plain : b.Plain) : b.buffer.row = b.above.length := by
  have own : b.left.count '\n' = 0 := List.count_eq_zero_of_not_mem plain.not_mem_left
  rw [Buffer.row,buffer,List.count_append,count_ended plain.not_mem_above,own,List.length_reverse,
    Nat.add_zero]

theorem column_buffer (plain : b.Plain) : b.buffer.column = b.left.length := by
  rw [Buffer.column,buffer,lastLine_ended _ plain.not_mem_left]

/-! ### The motions -/

theorem buffer_up (plain : b.Plain) : b.buffer.up = b.up.buffer := by
  have row := row_buffer plain
  obtain ⟨above,left,right,below⟩ := b
  cases above with
  | nil =>
    rw [List.length_nil] at row
    rw [Buffer.up,if_pos row]
    rfl
  | cons line above =>
    have higher : '\n' ∉ line := plain.not_mem_above line (by simp)
    have split : (LineBuffer.buffer ⟨line :: above,left,right,below⟩).before =
        ended above.reverse ++ line ++ '\n' :: left := by simp [buffer,ended]
    rw [Buffer.up_of_split split plain.not_mem_left (lastLine_ended _ higher)]
    simp [up,buffer,begun]

theorem buffer_down (plain : b.Plain) : b.buffer.down = b.down.buffer := by
  have column := column_buffer plain
  obtain ⟨above,left,right,below⟩ := b
  cases below with
  | nil =>
    have last : '\n' ∉ (LineBuffer.buffer ⟨above,left,right,[]⟩).after := by
      simpa [buffer,begun] using plain.not_mem_right
    rw [Buffer.down,if_neg last]
    rfl
  | cons line below =>
    have lower : '\n' ∉ line := plain.not_mem_below line List.mem_cons_self
    have split : (LineBuffer.buffer ⟨above,left,right,line :: below⟩).after =
        right ++ '\n' :: (line ++ begun below) := rfl
    rw [Buffer.down_of_split split plain.not_mem_right (firstLine_begun lower below),column]
    simp [down,buffer,ended]

end LineBuffer

namespace Buffer

variable {b : Buffer}

/-- The lines of the text. -/
def lines (b : Buffer) : List (List Char) := b.chars.splitOn '\n'

/-- Row and column of the cursor on the screen. -/
def cell (b : Buffer) : Nat × Nat :=
  let (row,column) := View.cursorCell (View.beforeOffset b.chars b.offset)
  (row.toNat,column.toNat)

theorem beforeOffset_append (first last : List Char) :
    View.beforeOffset (first ++ last) (utf8Size first) = first := by
  induction first with
  | nil => cases last <;> simp [View.beforeOffset]
  | cons c first ih =>
    have wide := c.utf8Size_pos
    have later : utf8Size (c :: first) ≠ 0 := by
      rw [utf8Size_cons]
      omega
    rw [List.cons_append,View.beforeOffset,if_neg later,utf8Size_cons,Nat.add_sub_cancel_left,ih]

/-- The screen counts in 16 bits. -/
theorem cell_eq (b : Buffer) : b.cell = (b.row % 65536,b.column % 65536) := by
  rw [cell,chars,offset,beforeOffset_append]
  rfl

/-- A text that the screen can count: fewer than 65536 lines, each with fewer than 65536 characters. -/
structure Countable (b : Buffer) : Prop where
  few : b.lines.length < 65536
  short : ∀ line ∈ b.lines, line.length < 65536

theorem Countable.of_chars (fits : b.Countable) {moved : Buffer} (same : moved.chars = b.chars) :
    moved.Countable := by
  have lines : moved.lines = b.lines := by rw [lines,same,lines]
  constructor
  · exact lines ▸ fits.few
  · exact lines ▸ fits.short

end Buffer

namespace LineBuffer

variable {b : LineBuffer}

theorem cell_buffer (plain : b.Plain) (fits : b.buffer.Countable) :
    b.buffer.cell = (b.above.length,b.left.length) := by
  have lines : b.buffer.lines = b.lines := splitOn_buffer plain
  have few : b.above.length < 65536 := by
    have all := fits.few
    rw [lines,LineBuffer.lines,List.length_append,List.length_reverse] at all
    omega
  have short : b.left.length < 65536 := by
    have own := fits.short (b.left ++ b.right) (by simp [lines,LineBuffer.lines])
    rw [List.length_append] at own
    omega
  rw [Buffer.cell_eq,row_buffer plain,column_buffer plain,Nat.mod_eq_of_lt few,Nat.mod_eq_of_lt short]

end LineBuffer

namespace Buffer

variable {b : Buffer}

theorem cell_up (fits : b.Countable) {r c : Nat} (cell : b.cell = (r,c)) :
    (r = 0 → b.up = b) ∧
      (r ≠ 0 → ∃ line, b.lines[r - 1]? = some line ∧ b.up.cell = (r - 1,min c line.length)) := by
  obtain ⟨l,plain,rfl⟩ := LineBuffer.exists_of_buffer b
  have moved : l.up.buffer.Countable := by
    rw [← LineBuffer.buffer_up plain]
    exact fits.of_chars (chars_up _)
  rw [LineBuffer.cell_buffer plain fits] at cell
  obtain ⟨rfl,rfl⟩ := Prod.mk.inj cell
  rw [LineBuffer.buffer_up plain,LineBuffer.cell_buffer plain.up moved,lines,
    LineBuffer.splitOn_buffer plain]
  obtain ⟨above,left,right,below⟩ := l
  cases above with
  | nil => exact ⟨fun _ => rfl,fun filled => absurd rfl filled⟩
  | cons line above =>
    refine ⟨fun none => (by simp at none),fun _ => ⟨line,?_,?_⟩⟩
    · simp [LineBuffer.lines]
    · simp [LineBuffer.up]

theorem cell_down (fits : b.Countable) {r c : Nat} (cell : b.cell = (r,c)) :
    (r + 1 = b.lines.length → b.down = b) ∧
      (r + 1 ≠ b.lines.length →
        ∃ line, b.lines[r + 1]? = some line ∧ b.down.cell = (r + 1,min c line.length)) := by
  obtain ⟨l,plain,rfl⟩ := LineBuffer.exists_of_buffer b
  have moved : l.down.buffer.Countable := by
    rw [← LineBuffer.buffer_down plain]
    exact fits.of_chars (chars_down _)
  rw [LineBuffer.cell_buffer plain fits] at cell
  obtain ⟨rfl,rfl⟩ := Prod.mk.inj cell
  rw [LineBuffer.buffer_down plain,LineBuffer.cell_buffer plain.down moved,lines,
    LineBuffer.splitOn_buffer plain]
  obtain ⟨above,left,right,below⟩ := l
  cases below with
  | nil => exact ⟨fun _ => rfl,fun more => absurd (by simp [LineBuffer.lines]) more⟩
  | cons line below =>
    refine ⟨fun last => ?_,fun _ => ⟨line,?_,?_⟩⟩
    · simp [LineBuffer.lines] at last
    · simp [LineBuffer.lines]
    · simp [LineBuffer.down]

/-- A motion leaves the text, its cursor stands between two characters, and the bytes move in the same
way. -/
structure Moves (b : Buffer) (change : Edit) : Prop where
  text : (change.apply b).text = b.text
  valid : (⟨(change.apply b).offset⟩ : String.Pos.Raw).IsValid b.text
  bytes : change.onBytes b.bytes = some (b.bytes.moveTo (change.apply b).offset)

theorem moves_of_chars {change : Edit} (same : (change.apply b).chars = b.chars) : b.Moves change where
  text := congrArg String.ofList same
  valid := by
    have inside := (change.apply b).isValid_offset
    rw [text,same] at inside
    exact inside
  bytes := by rw [change.onBytes_bytes,bytes_of_chars same]

end Buffer

namespace Editor

/-- A motion between lines moves the cursor on the screen by one line, in the same column or to the end
of a line that is too short, and it does nothing at the first line and at the last one. -/
theorem cell_edit_up_down (e : Editor) (fits : e.buffer.Countable) {r c : Nat}
    (cell : e.buffer.cell = (r,c)) :
    (r = 0 → e.edit Buffer.up = e) ∧
      (r ≠ 0 → ∃ line, e.buffer.lines[r - 1]? = some line ∧
        (e.edit Buffer.up).buffer.cell = (r - 1,min c line.length)) ∧
      (r + 1 = e.buffer.lines.length → e.edit Buffer.down = e) ∧
      (r + 1 ≠ e.buffer.lines.length → ∃ line, e.buffer.lines[r + 1]? = some line ∧
        (e.edit Buffer.down).buffer.cell = (r + 1,min c line.length)) ∧
      e.buffer.Moves .up ∧ e.buffer.Moves .down := by
  obtain ⟨first,higher⟩ := Buffer.cell_up fits cell
  obtain ⟨last,lower⟩ := Buffer.cell_down fits cell
  refine ⟨fun top => ?_,higher,fun bottom => ?_,lower,?_,?_⟩
  · rw [edit,first top]
  · rw [edit,last bottom]
  · exact Buffer.moves_of_chars (Buffer.chars_up _)
  · exact Buffer.moves_of_chars (Buffer.chars_down _)

/-- A cursor between a short line and an empty one. -/
def accented : Editor :=
  { start (.start .empty (Path.ofText "data") .comma) with
    buffer := ⟨['é','\n','à','ç'],['e','t','\n']⟩ }

theorem accented_moves : accented.buffer.cell = (1,2) ∧ (accented.edit Buffer.up).buffer.cell = (0,1) ∧
    (accented.edit Buffer.down).buffer.cell = (2,0) := by
  have lines : accented.buffer.lines = [['é'],['à','ç','e','t'],[]] := by rfl
  have cell : accented.buffer.cell = (1,2) := by rfl
  have fits : accented.buffer.Countable := by
    constructor
    · rw [lines]
      decide
    · rw [lines]
      decide
  obtain ⟨-,higher,-,lower,-⟩ := accented.cell_edit_up_down fits cell
  obtain ⟨line,found,above⟩ := higher (by decide)
  obtain ⟨next,beyond,below⟩ := lower (by rw [lines]; decide)
  rw [lines] at found beyond
  cases found
  cases beyond
  exact ⟨cell,above,below⟩

end Editor

end PlainTables
