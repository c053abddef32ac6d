import Mathlib.Algebra.Order.Ring.Nat
import Mathlib.Algebra.Order.Sub.Basic
import Mathlib.Data.List.Forall2
import PlainTables.Proofs.Answer.CommaSeparated

/-! Aligned columns. A line of cells, filled with spaces up to the width of the table, has each cell at
the place of its column: the blanks that are left out at its end are spaces, as long as the last column
holds no other blanks. Main statement: the table of records with the same columns is aligned and
complete, and there is one exactly if no name and no cell is wider than a width can be. -/
namespace PlainTables.Answer

open Unicode (isBlank)

variable {widths : List Nat} {mark line text : List Char} {pieces : List (List Char)}
  {columns cells : List String} {rows : List (List String)} {records : List Record} {i w : Nat}

/-! ### What an aligned table is -/

/-- Where a column begins. Three characters stand between two columns. -/
def columnStart (widths : List Nat) (i : Nat) : Nat := ((widths.take i).map (· + 3)).sum

def tableWidth (widths : List Nat) : Nat := widths.sum + 3 * (widths.length - 1)

/-- A line with spaces behind it, up to the width of the table. -/
def filled (widths : List Nat) (line : List Char) : List Char :=
  line ++ List.replicate (tableWidth widths - line.length) ' '

/-- So many characters of a line from a place on. -/
def part (line : List Char) (start width : Nat) : List Char := (line.drop start).take width

/-- A line with a piece in each column and a mark between two columns. -/
structure Holds (widths : List Nat) (mark : List Char) (pieces : List (List Char))
    (line : List Char) : Prop where
  line_length : line.length = tableWidth widths
  pieces_length : pieces.length = widths.length
  piece : ∀ i w piece, widths[i]? = some w → pieces[i]? = some piece →
    part line (columnStart widths i) w = piece
  between : ∀ i w, widths[i]? = some w → i + 1 < widths.length →
    part line (columnStart widths i + w) 3 = mark

/-- The width of the widest cell in a column. -/
structure Widest (rows : List (List String)) (i w : Nat) : Prop where
  bound : ∀ row ∈ rows, ∀ cell ∈ row[i]?, cell.length ≤ w
  reached : ∃ row ∈ rows, ∃ cell ∈ row[i]?, cell.length = w

/-- The cells of a line, each with spaces up to the width of its column. -/
def paddedCells (widths : List Nat) (cells : List String) : List (List Char) :=
  (cells.zip widths).map fun (cell,width) => padded width cell

/-- The last line of a table. -/
def footer (count : Nat) : String := "(" ++ toString count ++ " rows)"

/-- The lines of a table: the names, the rule below them, the rows, and the number of rows. -/
structure Lines (columns : List String) (rows : List (List String)) (widths : List Nat)
    (header rule : List Char) (lines : List (List Char)) (text : String) : Prop where
  widths_length : widths.length = columns.length
  widest : ∀ i w, widths[i]? = some w → Widest (columns :: rows) i w
  text : text.toList.splitOn '\n' = header :: rule :: lines ++ [(footer rows.length).toList]
  header : Holds widths " | ".toList (paddedCells widths columns) (filled widths header)
  rule : Holds widths "-+-".toList (widths.map (List.replicate · '-')) rule
  lines : List.Forall₂ (fun cells line =>
    Holds widths " | ".toList (paddedCells widths cells) (filled widths line)) rows lines

def Aligned (columns : List String) (rows : List (List String)) (text : String) : Prop :=
  ∃ widths header rule lines, Lines columns rows widths header rule lines text

/-! ### Pieces between marks -/

theorem columnStart_succ (w : Nat) (widths : List Nat) (i : Nat) :
    columnStart (w :: widths) (i + 1) = w + 3 + columnStart widths i := by
  simp [columnStart]

theorem length_intercalate (three : mark.length = 3) (pieces : List (List Char)) :
    (mark.intercalate pieces).length = tableWidth (pieces.map List.length) := by
  induction pieces with
  | nil => rfl
  | cons piece later ih =>
    cases later with
    | nil => simp [tableWidth]
    | cons next later =>
      rw [List.intercalate_cons_cons,List.length_append,List.length_append,three,ih]
      simp only [tableWidth,List.map_cons,List.sum_cons,List.length_cons]
      omega

/-- At the start of a column stands its piece, and behind it a mark, unless it is the last one. -/
theorem drop_intercalate (three : mark.length = 3) {piece : List Char}
    (found : pieces[i]? = some piece) : ∃ rest,
      (mark.intercalate pieces).drop (columnStart (pieces.map List.length) i) = piece ++ rest ∧
        (i + 1 < pieces.length → mark <+: rest) := by
  induction pieces generalizing i with
  | nil => cases found
  | cons first later ih =>
    cases later with
    | nil =>
      cases i with
      | zero =>
        cases found
        exact ⟨[],by simp [columnStart],by simp⟩
      | succ i => cases found
    | cons next later =>
      rw [List.intercalate_cons_cons]
      cases i with
      | zero =>
        cases found
        refine ⟨mark ++ mark.intercalate (next :: later),?_,fun _ => List.prefix_append _ _⟩
        rw [columnStart,List.take_zero,List.map_nil,List.sum_nil,List.drop_zero,List.append_assoc]
      | succ i =>
        obtain ⟨rest,here,marked⟩ := ih found
        refine ⟨rest,?_,fun inside => marked (Nat.lt_of_succ_lt_succ inside)⟩
        have front : first.length + 3 = (first ++ mark).length := by rw [List.length_append,three]
        rw [List.map_cons,columnStart_succ,front,List.drop_length_add_append,here]

theorem holds_intercalate (three : mark.length = 3) (pieces : List (List Char)) :
    Holds (pieces.map List.length) mark pieces (mark.intercalate pieces) where
  line_length := length_intercalate three pieces
  pieces_length := (List.length_map _).symm
  piece := by
    intro i w piece width found
    obtain ⟨rest,here,-⟩ := drop_intercalate three found
    rw [List.getElem?_map,found] at width
    cases width
    rw [part,here,List.take_left]
  between := by
    intro i w width inside
    rw [List.getElem?_map] at width
    obtain ⟨piece,found,rfl⟩ := Option.map_eq_some_iff.mp width
    obtain ⟨rest,here,marked⟩ := drop_intercalate three found
    obtain ⟨tail,rfl⟩ := marked (by simpa using inside)
    rw [part,← List.drop_drop,here,List.drop_left,← three,List.take_left]

/-! ### Blanks at the end of a line -/

/-- The blanks at the end of a text are spaces. -/
def EndsInSpaces (text : List Char) : Prop :=
  ∀ blanks, blanks <:+ text → (∀ c ∈ blanks, isBlank c = true) → ∀ c ∈ blanks, c = ' '

theorem endsInSpaces_of_forall (spaces : ∀ c ∈ text, isBlank c = true → c = ' ') : EndsInSpaces text :=
  fun _ suffix blank c member => spaces c (suffix.subset member) (blank c member)

/-- The bar between two columns is no blank. -/
theorem EndsInSpaces.behind_bar (ends : EndsInSpaces text) (first : List Char) :
    EndsInSpaces (first ++ '|' :: ' ' :: text) := by
  intro blanks suffix blank
  have noBar : '|' ∉ blanks := fun member => absurd (blank _ member) (by decide)
  have behind : '|' :: ' ' :: text <:+ first ++ '|' :: ' ' :: text := List.suffix_append _ _
  rcases List.suffix_or_suffix_of_suffix suffix behind with inside | around
  · rcases List.suffix_cons_iff.mp inside with rfl | inside
    · exact absurd List.mem_cons_self noBar
    · rcases List.suffix_cons_iff.mp inside with rfl | inside
      · have later := ends text List.suffix_rfl fun c member => blank c (List.mem_cons_of_mem _ member)
        simpa using later
      · exact ends blanks inside blank
  · exact absurd (around.subset List.mem_cons_self) noBar

theorem endsInSpaces_intercalate (last : ∀ piece ∈ pieces.getLast?, EndsInSpaces piece) :
    EndsInSpaces (" | ".toList.intercalate pieces) := by
  induction pieces with
  | nil => exact endsInSpaces_of_forall (by simp)
  | cons piece later ih =>
    cases later with
    | nil => simpa using last
    | cons next later =>
      have rest := ih (by simpa [List.getLast?_cons_cons] using last)
      have split : " | ".toList.intercalate (piece :: next :: later) =
          (piece ++ [' ']) ++ '|' :: ' ' :: " | ".toList.intercalate (next :: later) := by
        rw [List.intercalate_cons_cons]
        simp
      rw [split]
      exact rest.behind_bar _

/-- What is trimmed comes back with spaces up to the old length. -/
theorem EndsInSpaces.fill (ends : EndsInSpaces text) :
    Text.trimEnd text ++ List.replicate (text.length - (Text.trimEnd text).length) ' ' = text := by
  obtain ⟨blanks,split,blank⟩ := Text.trimEnd_append text
  have spaces : blanks = List.replicate blanks.length ' ' :=
    List.eq_replicate_iff.mpr ⟨rfl,ends blanks ⟨_,split.symm⟩ blank⟩
  have size : text.length - (Text.trimEnd text).length = blanks.length := by
    have whole := congrArg List.length split
    rw [List.length_append] at whole
    omega
  rw [size,← spaces,← split]

/-! ### Lines of cells -/

/-- A cell for each column, none wider than the column. -/
structure FitsIn (widths : List Nat) (cells : List String) : Prop where
  same : cells.length = widths.length
  narrow : ∀ (i : Nat) (cell : String) (width : Nat), cells[i]? = some cell →
    widths[i]? = some width → cell.length ≤ width

/-- Cells without the end of a line, the last one without a blank that is no space. -/
structure Printable (cells : List String) : Prop where
  noFeed : ∀ cell ∈ cells, '\n' ∉ cell.toList
  spaces : ∀ cell ∈ cells.getLast?, ∀ c ∈ cell.toList, isBlank c = true → c = ' '

def isPrintable (cells : List String) : Bool :=
  cells.all (fun cell => !cell.toList.contains '\n') &&
    cells.getLast?.all fun cell => cell.toList.all fun c => !isBlank c || c == ' '

theorem isPrintable_iff : isPrintable cells = true ↔ Printable cells := by
  have noFeed : (cells.all fun cell => !cell.toList.contains '\n') = true ↔
      ∀ cell ∈ cells, '\n' ∉ cell.toList := by simp
  have spaces : (cells.getLast?.all fun cell => cell.toList.all fun c => !isBlank c || c == ' ') = true ↔
      ∀ cell ∈ cells.getLast?, ∀ c ∈ cell.toList, isBlank c = true → c = ' ' := by
    cases cells.getLast? with
    | none => simp
    | some cell =>
      simp only [Option.all_some,List.all_eq_true,Option.mem_some_iff,forall_eq']
      refine forall₂_congr fun c _ => ?_
      cases isBlank c <;> simp
  rw [isPrintable,Bool.and_eq_true,noFeed,spaces]
  constructor
  · exact fun ⟨noFeed,spaces⟩ => ⟨noFeed,spaces⟩
  · exact fun printable => ⟨printable.noFeed,printable.spaces⟩

instance : Decidable (Printable cells) := decidable_of_iff _ isPrintable_iff

theorem getElem?_paddedCells {piece : List Char} (found : (paddedCells widths cells)[i]? = some piece) :
    ∃ cell width, cells[i]? = some cell ∧ widths[i]? = some width ∧ piece = padded width cell := by
  rw [paddedCells,List.getElem?_map] at found
  obtain ⟨⟨cell,width⟩,pair,rfl⟩ := Option.map_eq_some_iff.mp found
  obtain ⟨here,wide⟩ := List.getElem?_zip_eq_some.mp pair
  exact ⟨cell,width,here,wide,rfl⟩

theorem padded_length {cell : String} {width : Nat} (narrow : cell.length ≤ width) :
    (padded width cell).length = width := by
  rw [padded,List.length_append,List.length_replicate,String.length_toList,Nat.add_sub_cancel' narrow]

theorem FitsIn.length_paddedCells (fits : FitsIn widths cells) :
    (paddedCells widths cells).length = widths.length := by
  rw [paddedCells,List.length_map,List.length_zip,fits.same,Nat.min_self]

/-- Each cell takes the width of its column. -/
theorem FitsIn.map_length (fits : FitsIn widths cells) :
    (paddedCells widths cells).map List.length = widths := by
  apply List.ext_getElem?
  intro i
  rw [List.getElem?_map]
  cases found : (paddedCells widths cells)[i]? with
  | none =>
    rw [List.getElem?_eq_none_iff,fits.length_paddedCells] at found
    exact (List.getElem?_eq_none found).symm
  | some piece =>
    obtain ⟨cell,width,here,wide,rfl⟩ := getElem?_paddedCells found
    rw [Option.map_some,padded_length (fits.narrow i cell width here wide),wide]

theorem FitsIn.endsInSpaces (fits : FitsIn widths cells) (printable : Printable cells) :
    EndsInSpaces (" | ".toList.intercalate (paddedCells widths cells)) := by
  apply endsInSpaces_intercalate
  intro piece last
  rw [Option.mem_def,List.getLast?_eq_getElem?,fits.length_paddedCells,← fits.same] at last
  obtain ⟨cell,width,here,-,rfl⟩ := getElem?_paddedCells last
  rw [← List.getLast?_eq_getElem?] at here
  apply endsInSpaces_of_forall
  intro c member blank
  rcases List.mem_append.mp member with inside | behind
  · exact printable.spaces cell here c inside blank
  · exact List.eq_of_mem_replicate behind

theorem FitsIn.holds (fits : FitsIn widths cells) (printable : Printable cells) :
    Holds widths " | ".toList (paddedCells widths cells)
      (filled widths (alignedLine widths cells).toList) := by
  have three : " | ".toList.length = 3 := rfl
  have holds := holds_intercalate three (paddedCells widths cells)
  rw [fits.map_length] at holds
  have whole : filled widths (alignedLine widths cells).toList =
      " | ".toList.intercalate (paddedCells widths cells) := by
    rw [filled,alignedLine,String.toList_ofList,← holds.line_length]
    exact (fits.endsInSpaces printable).fill
  rw [whole]
  exact holds

theorem holds_ruleLine (widths : List Nat) :
    Holds widths "-+-".toList (widths.map (List.replicate · '-')) (ruleLine widths).toList := by
  have three : "-+-".toList.length = 3 := rfl
  have holds := holds_intercalate three (widths.map (List.replicate · '-'))
  have same : (widths.map (List.replicate · '-')).map List.length = widths := by
    rw [List.map_map]
    conv => rhs; rw [← List.map_id widths]
    exact List.map_congr_left fun width _ => List.length_replicate
  have text : (ruleLine widths).toList = "-+-".toList.intercalate (widths.map (List.replicate · '-')) := by
    rw [ruleLine,String.toList_intercalate,List.map_map]
    congr 1
    exact List.map_congr_left fun width _ => String.toList_ofList
  rw [same] at holds
  rw [text]
  exact holds

/-! ### Widths -/

/-- The width of a column is the greatest of the least one and the lengths of its texts. -/
theorem max?_columnWidths {least : Nat} (width : (columnWidths least columns rows)[i]? = some w) :
    ∃ name, columns[i]? = some name ∧ (max least name.length ::
      rows.map fun row => (row[i]?.map String.length).getD 0).max? = some w := by
  rw [columnWidths,List.getElem?_map,List.getElem?_zipIdx,Option.map_map] at width
  obtain ⟨name,named,value⟩ := Option.map_eq_some_iff.mp width
  refine ⟨name,named,?_⟩
  rw [List.max?_cons',List.foldl_map,← value]
  simp

theorem columnWidths_le_iff {least m : Nat} (width : (columnWidths least columns rows)[i]? = some w) :
    w ≤ m ↔ least ≤ m ∧ ∀ cells ∈ columns :: rows, ∀ cell ∈ cells[i]?, cell.length ≤ m := by
  obtain ⟨name,named,greatest⟩ := max?_columnWidths width
  have absent : ∀ row : List String, (row[i]?.map String.length).getD 0 ≤ m ↔
      ∀ cell ∈ row[i]?, cell.length ≤ m := by
    intro row
    cases row[i]? <;> simp
  rw [List.max?_le_iff greatest,List.forall_mem_cons,List.forall_mem_cons,
    List.forall_mem_map,Nat.max_le,named,and_assoc]
  simp [absent]

theorem widest_columnWidths (same : ∀ row ∈ rows, row.length = columns.length)
    (width : (columnWidths 0 columns rows)[i]? = some w) : Widest (columns :: rows) i w where
  bound := ((columnWidths_le_iff width).mp (Nat.le_refl w)).2
  reached := by
    obtain ⟨name,named,greatest⟩ := max?_columnWidths width
    rw [Nat.zero_max] at greatest
    rcases List.mem_cons.mp (List.max?_eq_some_iff.mp greatest).1 with rfl | member
    · exact ⟨columns,List.mem_cons_self,name,named,rfl⟩
    · obtain ⟨row,inside,rfl⟩ := List.mem_map.mp member
      have place : i < row.length := by
        rw [same row inside]
        exact (List.getElem?_eq_some_iff.mp named).1
      refine ⟨row,List.mem_cons_of_mem _ inside,row[i],List.getElem?_eq_getElem place,?_⟩
      rw [List.getElem?_eq_getElem place]
      rfl

theorem tableWidths_eq (uniform : Uniform columns records) :
    tableWidths records = columnWidths 0 columns (records.map Record.values) := by
  obtain ⟨first,later,rfl⟩ := List.exists_cons_of_ne_nil uniform.records_ne_nil
  rw [tableWidths,uniform.same first List.mem_cons_self]

theorem length_values (uniform : Uniform columns records) :
    ∀ cells ∈ records.map Record.values, cells.length = columns.length := by
  intro cells member
  obtain ⟨record,inside,rfl⟩ := List.mem_map.mp member
  rw [← uniform.same record inside,Record.columns,Record.values,List.length_map,List.length_map]

theorem length_tableWidths (uniform : Uniform columns records) :
    (tableWidths records).length = columns.length := by
  rw [tableWidths_eq uniform,columnWidths,List.length_map,List.length_zipIdx]

theorem widest_tableWidths (uniform : Uniform columns records)
    (width : (tableWidths records)[i]? = some w) : Widest (columns :: records.map Record.values) i w := by
  rw [tableWidths_eq uniform] at width
  exact widest_columnWidths (length_values uniform) width

theorem fitsIn_tableWidths (uniform : Uniform columns records)
    (member : cells ∈ columns :: records.map Record.values) : FitsIn (tableWidths records) cells where
  same := by
    rw [length_tableWidths uniform]
    rcases List.mem_cons.mp member with rfl | member
    · rfl
    · exact length_values uniform cells member
  narrow := fun _ cell _ here width => (widest_tableWidths uniform width).bound cells member cell here

/-- All columns can be padded exactly if all names and cells are narrow enough. -/
theorem fits_iff (uniform : Uniform columns records) :
    (Answer.records records).fits .table = true ↔
      ∀ cells ∈ columns :: records.map Record.values, ∀ cell ∈ cells, cell.length ≤ greatestWidth := by
  simp only [fits,List.all_eq_true,decide_eq_true_eq]
  constructor
  · intro narrow cells member cell inside
    obtain ⟨i,here⟩ := List.mem_iff_getElem?.mp inside
    have fits := fitsIn_tableWidths uniform member
    have place : i < (tableWidths records).length := by
      rw [← fits.same]
      exact (List.getElem?_eq_some_iff.mp here).1
    exact Nat.le_trans (fits.narrow i cell _ here (List.getElem?_eq_getElem place))
      (narrow _ (List.getElem_mem place))
  · intro narrow w member
    obtain ⟨i,width⟩ := List.mem_iff_getElem?.mp member
    obtain ⟨cells,inside,cell,here,rfl⟩ := (widest_tableWidths uniform width).reached
    exact narrow cells inside cell (List.mem_of_getElem? here)

/-! ### The whole table -/

theorem not_mem_intercalate {c : Char} (apart : c ∉ mark) (plain : ∀ piece ∈ pieces, c ∉ piece) :
    c ∉ mark.intercalate pieces := by
  induction pieces with
  | nil => simp
  | cons piece later ih =>
    have first := plain piece List.mem_cons_self
    cases later with
    | nil => simpa using first
    | cons next later =>
      have rest := ih fun other member => plain other (List.mem_cons_of_mem _ member)
      rw [List.intercalate_cons_cons,List.mem_append,List.mem_append]
      simp [first,apart,rest]

theorem noFeed_alignedLine (widths : List Nat) (noFeed : ∀ cell ∈ cells, '\n' ∉ cell.toList) :
    '\n' ∉ (alignedLine widths cells).toList := by
  have line : '\n' ∉ " | ".toList.intercalate (paddedCells widths cells) := by
    apply not_mem_intercalate (by simp)
    intro piece member
    obtain ⟨i,found⟩ := List.mem_iff_getElem?.mp member
    obtain ⟨cell,width,here,-,rfl⟩ := getElem?_paddedCells found
    simp [padded,noFeed cell (List.mem_of_getElem? here)]
  obtain ⟨blanks,split,-⟩ := Text.trimEnd_append (" | ".toList.intercalate (paddedCells widths cells))
  rw [alignedLine,String.toList_ofList]
  intro member
  rw [split] at line
  exact line (List.mem_append_left _ member)

theorem noFeed_ruleLine (widths : List Nat) : '\n' ∉ (ruleLine widths).toList := by
  rw [ruleLine,String.toList_intercalate,List.map_map]
  apply not_mem_intercalate (by simp)
  intro piece member
  obtain ⟨width,-,rfl⟩ := List.mem_map.mp member
  simp

theorem noFeed_footer (count : Nat) : '\n' ∉ (footer count).toList := by
  have digits : '\n' ∉ (toString count).toList := by
    intro member
    have written : (toString count).toList = Nat.toDigits 10 count := Nat.toList_repr
    rw [written] at member
    exact absurd (Nat.isDigit_of_mem_toDigits (by decide) (by decide) member) (by decide)
  rw [footer,String.toList_append,String.toList_append,List.mem_append,List.mem_append]
  simpa using digits

theorem alignedTable_eq (uniform : Uniform columns records) :
    alignedTable records = "\n".intercalate
      (alignedLine (tableWidths records) columns :: ruleLine (tableWidths records) ::
        (records.map Record.values).map (alignedLine (tableWidths records)) ++ [footer records.length]) := by
  rw [tableWidths_eq uniform]
  obtain ⟨first,later,rfl⟩ := List.exists_cons_of_ne_nil uniform.records_ne_nil
  rw [alignedTable,uniform.same first List.mem_cons_self,List.map_map]
  rfl

/-- Lines that are joined are found between the line feeds. -/
theorem splitOn_joined {lines : List String} (nonempty : lines ≠ [])
    (noFeed : ∀ line ∈ lines, '\n' ∉ line.toList) :
    ("\n".intercalate lines).toList.splitOn '\n' = lines.map String.toList := by
  have feed : "\n".toList = ['\n'] := rfl
  rw [String.toList_intercalate,feed]
  apply List.splitOn_intercalate
  · intro line member
    obtain ⟨shown,inside,rfl⟩ := List.mem_map.mp member
    exact noFeed shown inside
  · simpa using nonempty

theorem noFeed_lines (widths : List Nat) (count : Nat)
    (printable : ∀ cells ∈ columns :: rows, Printable cells) :
    ∀ line ∈ alignedLine widths columns :: ruleLine widths :: rows.map (alignedLine widths) ++ [footer count],
      '\n' ∉ line.toList := by
  intro line member
  rcases List.mem_append.mp member with member | last
  · rcases List.mem_cons.mp member with rfl | member
    · exact noFeed_alignedLine widths (printable columns List.mem_cons_self).noFeed
    rcases List.mem_cons.mp member with rfl | member
    · exact noFeed_ruleLine widths
    obtain ⟨cells,inside,rfl⟩ := List.mem_map.mp member
    exact noFeed_alignedLine widths (printable cells (List.mem_cons_of_mem _ inside)).noFeed
  · rw [List.mem_singleton.mp last]
    exact noFeed_footer count

theorem aligned_alignedTable (uniform : Uniform columns records)
    (printable : ∀ cells ∈ columns :: records.map Record.values, Printable cells) :
    Aligned columns (records.map Record.values) (alignedTable records) := by
  refine ⟨tableWidths records,(alignedLine (tableWidths records) columns).toList,
    (ruleLine (tableWidths records)).toList,
    (records.map Record.values).map fun cells => (alignedLine (tableWidths records) cells).toList,?_⟩
  have holds {cells : List String} (member : cells ∈ columns :: records.map Record.values) :=
    (fitsIn_tableWidths uniform member).holds (printable cells member)
  exact {
    widths_length := length_tableWidths uniform
    widest := fun i w width => widest_tableWidths uniform width
    text := by
      rw [alignedTable_eq uniform,splitOn_joined (by simp) (noFeed_lines _ _ printable)]
      simp
    header := holds List.mem_cons_self
    rule := holds_ruleLine _
    lines := by
      rw [List.forall₂_map_right_iff]
      exact List.forall₂_same.mpr fun cells inside => holds (List.mem_cons_of_mem _ inside) }

/-- Records with the same columns have a table exactly if no name and no cell is wider than a width can
be, and then the table is aligned and complete. -/
theorem aligned_iff_narrow (columns : List String) (records : List Record)
    (uniform : Uniform columns records)
    (printable : ∀ cells ∈ columns :: records.map Record.values, Printable cells) :
    (∃ text, (Answer.records records).render? .table = some text ∧
        Aligned columns (records.map Record.values) text) ↔
      ∀ cells ∈ columns :: records.map Record.values, ∀ cell ∈ cells, cell.length ≤ greatestWidth := by
  rw [← fits_iff uniform]
  constructor
  · rintro ⟨text,shown,-⟩
    by_contra wide
    rw [render?,if_neg wide] at shown
    cases shown
  · intro narrow
    exact ⟨alignedTable records,if_pos narrow,aligned_alignedTable uniform printable⟩

/-- A last cell that is empty, and a bar within a cell. -/
def visitors : List Record :=
  [[("id","1"),("name","Ana | Bö")],[("id","22"),("name","")]]

theorem visitors_aligned :
    Uniform ["id","name"] visitors ∧
      (Answer.records visitors).render? .table =
        some "id | name\n---+---------\n1  | Ana | Bö\n22 |\n(2 rows)" ∧
      Aligned ["id","name"] (visitors.map Record.values)
        "id | name\n---+---------\n1  | Ana | Bö\n22 |\n(2 rows)" := by
  have uniform : Uniform ["id","name"] visitors := ⟨by decide,by decide,by decide⟩
  have printable : ∀ cells ∈ ["id","name"] :: visitors.map Record.values, Printable cells := by decide
  obtain ⟨text,shown,aligned⟩ :=
    (aligned_iff_narrow ["id","name"] visitors uniform printable).mpr (by decide)
  have written : (Answer.records visitors).render? .table =
      some "id | name\n---+---------\n1  | Ana | Bö\n22 |\n(2 rows)" := by decide
  rw [written] at shown
  cases shown
  exact ⟨uniform,written,aligned⟩

end PlainTables.Answer
