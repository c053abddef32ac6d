import Mathlib.Data.List.Basic
import PlainTables.Proofs.Action
import PlainTables.Proofs.Text.Lines
import PlainTables.Table.Format

/-! Which texts are read as which tables. The text of a table is read back as that table
exactly if none of its lines ends with a carriage return; a text that is followed by further
rows is read as its table with these rows, unless its last line is open and ends with one. -/
namespace PlainTables

/-! ### Headers -/

namespace Header

theorem firstRepeated?_eq_none {seen names : List String} (nodup : names.Nodup)
    (apart : ∀ name ∈ names, name ∉ seen) : firstRepeated? seen names = none := by
  induction names generalizing seen with
  | nil => rfl
  | cons name later ih =>
    obtain ⟨fresh,nodup⟩ := List.nodup_cons.mp nodup
    simp only [firstRepeated?,apart name (by simp),if_false]
    apply ih nodup
    intro other member
    simp only [List.mem_cons,not_or]
    exact ⟨fun same => fresh (same ▸ member),apart other (by simp [member])⟩

theorem ofColumns_eq_ok {columns : List String} {header : Header} :
    ofColumns columns = .ok header ↔ header.columns = columns := by
  unfold ofColumns
  constructor
  · intro made
    split at made
    · cases made
    · cases made
      rfl
  · rintro rfl
    have none := firstRepeated?_eq_none header.distinct (by simp : ∀ name ∈ header.columns, name ∉ [])
    split
    · next found => simp [none] at found
    · rfl

end Header

namespace TableFormat

open Actions

variable {format : TableFormat} {table : Table} {name text : String}

/-! ### From lines to tables -/

/-- The lines that stand for rows: a blank line is one only of a table with one column. -/
def rowLines (width : Nat) (lines : List String) : List String :=
  lines.filter fun line => line ≠ "" || width = 1

theorem rowLines_append (width : Nat) (lines later : List String) :
    rowLines width (lines ++ later) = rowLines width lines ++ rowLines width later :=
  List.filter_append ..

theorem rowsOfLines_eq_ok {width number : Nat} {lines : List String} {rows : List Row} :
    format.rowsOfLines name width number (lines.map some) = .ok rows ↔
      rows = (rowLines width lines).map format.cellsOfLine ∧ ∀ row ∈ rows, row.length = width := by
  induction lines generalizing number rows with
  | nil =>
    simp only [rowsOfLines,rowLines,List.map_nil,List.filter_nil,Except.ok.injEq,eq_comm]
    refine ⟨?_,And.left⟩
    rintro rfl
    exact ⟨rfl,by simp⟩
  | cons line later ih =>
    rw [List.map_cons,rowsOfLines]
    by_cases blank : line = "" ∧ width ≠ 1
    · simp [blank,ih,rowLines]
    have kept : rowLines width (line :: later) = line :: rowLines width later :=
      List.filter_cons_of_pos (by simp; tauto)
    rw [if_neg blank,kept,List.map_cons]
    dsimp only
    constructor
    · intro read
      split at read
      · next fits =>
        obtain ⟨found,rest,same⟩ := check_eq_ok.mp read
        obtain ⟨rfl,widths⟩ := ih.mp rest
        cases same
        refine ⟨rfl,fun row member => ?_⟩
        rcases List.mem_cons.mp member with rfl | member
        · exact fits
        · exact widths row member
      · cases read
    · rintro ⟨rfl,widths⟩
      have fits := widths _ List.mem_cons_self
      rw [if_pos fits]
      refine check_eq_ok.mpr ⟨_,ih.mpr ⟨rfl,fun row member => widths row ?_⟩,rfl⟩
      exact List.mem_cons_of_mem _ member

theorem tableOfLines_eq_ok {lines : List String} :
    format.tableOfLines name (lines.map some) = .ok table ↔
      ∃ first later, lines = first :: later ∧ format.cellsOfLine first = table.header.columns ∧
        table.rows = (rowLines table.header.width later).map format.cellsOfLine ∧
        table.Rectangular := by
  cases lines with
  | nil => simp [tableOfLines]
  | cons first later =>
    have header : ∀ header : Header, Header.ofColumns (format.cellsOfLine first) = .ok header ↔
        format.cellsOfLine first = header.columns := fun _ =>
      Header.ofColumns_eq_ok.trans eq_comm
    rw [List.map_cons,tableOfLines]
    constructor
    · intro read
      cases made : Header.ofColumns (format.cellsOfLine first) with
      | error repeated => simp [made] at read
      | ok found =>
        simp only [made] at read
        obtain ⟨rows,rest,same⟩ := check_eq_ok.mp read
        cases same
        obtain ⟨rfl,widths⟩ := rowsOfLines_eq_ok.mp rest
        exact ⟨first,later,rfl,(header found).mp made,rfl,widths⟩
    · rintro ⟨_,_,⟨rfl,rfl⟩,columns,rows,widths⟩
      simp only [(header table.header).mpr columns]
      exact check_eq_ok.mpr ⟨table.rows,rowsOfLines_eq_ok.mpr ⟨rows,widths⟩,rfl⟩

/-! ### Lines of cells -/

/-- Cells that can stand in one line, whatever they do to its end. -/
def Separable (format : TableFormat) (cells : List String) : Prop :=
  ∀ cell ∈ cells, format.delimiter ∉ cell.toList ∧ '\n' ∉ cell.toList

/-- The last cell ends with a carriage return, so the line feed after it does not come back
alone. -/
def EndsInReturn (cells : List String) : Prop :=
  ∃ cell, cells.getLast? = some cell ∧ cell.toList.getLast? = some '\r'

instance (cells : List String) : Decidable (EndsInReturn cells) :=
  decidable_of_iff (cells.getLast?.any (fun cell => cell.toList.getLast? = some '\r') = true)
    (by simp [EndsInReturn,Option.any_eq_true])

theorem checkValue_eq_ok {value : String} :
    format.checkValue value = .ok () ↔ format.isStorable value = true := by
  unfold checkValue
  split <;> simp_all

theorem isStorable_iff {value : String} :
    format.isStorable value = true ↔
      format.delimiter ∉ value.toList ∧ '\n' ∉ value.toList ∧ '\r' ∉ value.toList := by
  simp only [isStorable,List.all_eq_true,Bool.and_eq_true,decide_eq_true_eq]
  constructor
  · intro apart
    refine ⟨?_,?_,?_⟩ <;> intro member
    · exact (apart _ member).1.1 rfl
    · exact (apart _ member).1.2 rfl
    · exact (apart _ member).2 rfl
  · rintro ⟨delimiter,feed,ret⟩ c member
    refine ⟨⟨?_,?_⟩,?_⟩ <;> rintro rfl
    · exact delimiter member
    · exact feed member
    · exact ret member

theorem isStorable_empty : format.isStorable "" = true := by
  simp [isStorable]

theorem separable_of_storable {cells : List String}
    (storable : ∀ cell ∈ cells, format.isStorable cell = true) : Separable format cells := by
  intro cell member
  obtain ⟨delimiter,feed,-⟩ := isStorable_iff.mp (storable cell member)
  exact ⟨delimiter,feed⟩

theorem not_endsInReturn_of_storable {cells : List String}
    (storable : ∀ cell ∈ cells, format.isStorable cell = true) : ¬EndsInReturn cells := by
  rintro ⟨cell,last,ends⟩
  obtain ⟨-,-,ret⟩ := isStorable_iff.mp (storable cell (List.mem_of_getLast? last))
  exact ret (List.mem_of_getLast? ends)

theorem toList_lineOfCells (format : TableFormat) (cells : List String) :
    (format.lineOfCells cells).toList =
      [format.delimiter].intercalate (cells.map String.toList) := by
  simp [lineOfCells]

theorem cellsOfLine_ne_nil (format : TableFormat) (line : String) : format.cellsOfLine line ≠ [] := by
  simp [cellsOfLine]

theorem cellsOfLine_injective {a b : String} (same : format.cellsOfLine a = format.cellsOfLine b) :
    a = b := by
  rw [← lineOfCells_cellsOfLine format a,same,lineOfCells_cellsOfLine]

theorem separable_cellsOfLine {line : String} (plain : '\n' ∉ line.toList) :
    Separable format (format.cellsOfLine line) := by
  intro cell member
  simp only [cellsOfLine,List.mem_map] at member
  obtain ⟨piece,inside,rfl⟩ := member
  rw [String.toList_ofList]
  obtain ⟨fresh,within⟩ := Text.of_mem_splitOn inside
  exact ⟨fresh,fun feed => plain (within _ feed)⟩

theorem feed_not_mem_lineOfCells {cells : List String} (noFeed : format.delimiter ≠ '\n')
    (separable : Separable format cells) : '\n' ∉ (format.lineOfCells cells).toList := by
  rw [toList_lineOfCells]
  induction cells with
  | nil => simp
  | cons cell rest ih =>
    have fresh := (separable cell List.mem_cons_self).2
    have later := ih fun other member => separable other (List.mem_cons_of_mem _ member)
    cases rest with
    | nil => simpa using fresh
    | cons next rest =>
      rw [List.map_cons] at later ⊢
      rw [List.map_cons,List.intercalate_cons_cons]
      simp only [List.mem_append,List.mem_singleton,not_or]
      exact ⟨⟨fresh,noFeed.symm⟩,later⟩

theorem endsInReturn_iff {cells : List String} (noReturn : format.delimiter ≠ '\r') :
    (format.lineOfCells cells).toList.getLast? = some '\r' ↔ EndsInReturn cells := by
  rw [toList_lineOfCells]
  induction cells with
  | nil => simp [EndsInReturn]
  | cons cell rest ih =>
    cases rest with
    | nil => simp [EndsInReturn]
    | cons next rest =>
      have same : EndsInReturn (cell :: next :: rest) ↔ EndsInReturn (next :: rest) := by
        simp [EndsInReturn,List.getLast?_cons_cons]
      rw [same,← ih,List.map_cons,List.map_cons,List.intercalate_cons_cons,List.getLast?_append]
      cases [format.delimiter].intercalate (next.toList :: rest.map String.toList) |>.getLast? <;>
        simp [noReturn]

/-! ### Written rows -/

/-- The line that comes back from a written row. -/
def lineBack (format : TableFormat) (row : Row) : String :=
  String.ofList (Text.dropReturn '\r' (format.lineOfCells row).toList)

theorem lineBack_eq_iff {row : Row} (noReturn : format.delimiter ≠ '\r') :
    format.lineBack row = format.lineOfCells row ↔ ¬EndsInReturn row := by
  rw [← endsInReturn_iff noReturn,← ne_eq,← Text.dropReturn_eq_self,lineBack,
    ← String.toList_inj,String.toList_ofList]

/-- Rows come back line by line as long as no line holds a line feed. -/
theorem lines_join_of_plain {rows : List Row}
    (plain : ∀ row ∈ rows, '\n' ∉ (format.lineOfCells row).toList) :
    Text.lines (String.join (rows.map format.writtenRow)) = rows.map format.lineBack := by
  have closed : (String.join (rows.map format.writtenRow)).toList =
      (rows.map fun row => (format.lineOfCells row).toList).flatMap (· ++ ['\n']) := by
    simp [List.flatMap_map,writtenRow]
  have lines : ∀ line ∈ rows.map fun row => (format.lineOfCells row).toList, '\n' ∉ line := by
    intro line member
    obtain ⟨row,inside,rfl⟩ := List.mem_map.mp member
    exact plain row inside
  rw [Text.lines,closed,Text.linesOf_flatMap '\r' lines,List.map_map,List.map_map]
  rfl

theorem lines_join_writtenRow {rows : List Row} (noFeed : format.delimiter ≠ '\n')
    (separable : ∀ row ∈ rows, Separable format row) :
    Text.lines (String.join (rows.map format.writtenRow)) = rows.map format.lineBack :=
  lines_join_of_plain fun row inside => feed_not_mem_lineOfCells noFeed (separable row inside)

theorem cells_of_line {row : Row} (filled : row ≠ []) (separable : Separable format row) :
    format.cellsOfLine (format.lineOfCells row) = row :=
  cellsOfLine_lineOfCells format filled fun cell member => (separable cell member).1

theorem eq_of_blank {row : Row} (filled : row ≠ []) (separable : Separable format row)
    (blank : format.lineOfCells row = "") : row = [""] := by
  rw [← cells_of_line filled separable,blank]
  simp [cellsOfLine]

/-- A written row is never mistaken for a blank line. -/
theorem rowLines_lineOfCells {width : Nat} {rows : List Row} (filled : 0 < width)
    (widths : ∀ row ∈ rows, row.length = width) (separable : ∀ row ∈ rows, Separable format row) :
    rowLines width (rows.map format.lineOfCells) = rows.map format.lineOfCells := by
  apply List.filter_eq_self.mpr
  intro line member
  obtain ⟨row,inside,rfl⟩ := List.mem_map.mp member
  by_cases blank : format.lineOfCells row = ""
  · have nonempty : row ≠ [] := by
      rintro rfl
      have := widths [] inside
      simp at this
      omega
    have single := eq_of_blank nonempty (separable row inside) blank
    simp [← widths row inside,single]
  · simp [blank]

theorem map_cells_of_line {rows : List Row} (filled : ∀ row ∈ rows, row ≠ [])
    (separable : ∀ row ∈ rows, Separable format row) :
    (rows.map format.lineOfCells).map format.cellsOfLine = rows := by
  have each : ∀ row ∈ rows, (format.cellsOfLine ∘ format.lineOfCells) row = id row :=
    fun row inside => cells_of_line (filled row inside) (separable row inside)
  rw [List.map_map,List.map_congr_left each,List.map_id]

/-- Rows that come back as they were written have no carriage return at an end. -/
theorem cells_lineBack_eq_iff {width : Nat} {rows : List Row} (noReturn : format.delimiter ≠ '\r')
    (filled : 0 < width) (widths : ∀ row ∈ rows, row.length = width)
    (separable : ∀ row ∈ rows, Separable format row) :
    (rowLines width (rows.map format.lineBack)).map format.cellsOfLine = rows ↔
      ∀ row ∈ rows, ¬EndsInReturn row := by
  constructor
  · intro same
    have lines : rowLines width (rows.map format.lineBack) = rows.map format.lineOfCells := by
      conv => rhs; rw [← same]
      rw [List.map_map]
      have each : format.lineOfCells ∘ format.cellsOfLine = id :=
        funext fun line => lineOfCells_cellsOfLine format line
      rw [each,List.map_id]
    have all : rowLines width (rows.map format.lineBack) = rows.map format.lineBack := by
      refine List.filter_eq_self.mpr (List.length_filter_eq_length_iff.mp ?_)
      have := congrArg List.length lines
      simpa [rowLines] using this
    rw [all] at lines
    intro row inside
    exact (lineBack_eq_iff noReturn).mp (List.map_inj_left.mp lines row inside)
  · intro keeps
    have lines : rows.map format.lineBack = rows.map format.lineOfCells :=
      List.map_congr_left fun row inside => (lineBack_eq_iff noReturn).mpr (keeps row inside)
    have nonempty : ∀ row ∈ rows, row ≠ [] := by
      rintro row inside rfl
      have := widths [] inside
      simp at this
      omega
    rw [lines,rowLines_lineOfCells filled widths separable,map_cells_of_line nonempty separable]

/-! ### Whole texts -/

/-- A table whose cells can be written, each row as wide as the header. -/
structure Writable (format : TableFormat) (table : Table) : Prop where
  filled : 0 < table.header.width
  widths : table.Rectangular
  header : Separable format table.header.columns
  rows : ∀ row ∈ table.rows, Separable format row

theorem tableOfText_eq_ok :
    format.tableOfText name text = .ok table ↔
      ∃ first later, Text.lines text = first :: later ∧
        format.cellsOfLine first = table.header.columns ∧
        table.rows = (rowLines table.header.width later).map format.cellsOfLine ∧
        table.Rectangular :=
  tableOfLines_eq_ok

/-- A table that was read can be written. -/
theorem writable_of_tableOfText (read : format.tableOfText name text = .ok table) :
    Writable format table := by
  obtain ⟨first,later,lines,header,rows,widths⟩ := tableOfText_eq_ok.mp read
  have plain : ∀ line ∈ Text.lines text, '\n' ∉ line.toList := by
    intro line member
    obtain ⟨source,inside,rfl⟩ := List.mem_map.mp member
    rw [String.toList_ofList]
    exact Text.feed_not_mem_linesOf inside
  rw [lines] at plain
  refine ⟨?_,widths,?_,?_⟩
  · rw [Header.width,← header]
    exact List.length_pos_iff.mpr (cellsOfLine_ne_nil format first)
  · rw [← header]
    exact separable_cellsOfLine (plain first List.mem_cons_self)
  · intro row member
    rw [rows] at member
    obtain ⟨line,inside,rfl⟩ := List.mem_map.mp member
    exact separable_cellsOfLine (plain line (List.mem_cons_of_mem _ (List.mem_filter.mp inside).1))

theorem lines_writtenTable (noFeed : format.delimiter ≠ '\n') (writable : Writable format table) :
    Text.lines (format.writtenTable table) =
      format.lineBack table.header.columns :: table.rows.map format.lineBack := by
  apply lines_join_writtenRow noFeed
  intro row member
  rcases List.mem_cons.mp member with rfl | member
  · exact writable.header
  · exact writable.rows row member

/-- A written table comes back exactly if none of its lines ends with a carriage return. -/
theorem tableOfText_writtenTable_iff (noFeed : format.delimiter ≠ '\n')
    (noReturn : format.delimiter ≠ '\r') (writable : Writable format table) :
    format.tableOfText name (format.writtenTable table) = .ok table ↔
      ∀ row ∈ table.header.columns :: table.rows, ¬EndsInReturn row := by
  have nonempty : table.header.columns ≠ [] := List.length_pos_iff.mp writable.filled
  have header : format.cellsOfLine (format.lineBack table.header.columns) = table.header.columns ↔
      ¬EndsInReturn table.header.columns := by
    rw [← lineBack_eq_iff noReturn]
    constructor
    · intro same
      rw [← lineOfCells_cellsOfLine format (format.lineBack table.header.columns),same]
    · intro same
      rw [same,cells_of_line nonempty writable.header]
  have rows := cells_lineBack_eq_iff noReturn writable.filled writable.widths writable.rows
  rw [tableOfText_eq_ok,lines_writtenTable noFeed writable,List.forall_mem_cons,← header,← rows]
  constructor
  · rintro ⟨_,_,⟨rfl,rfl⟩,columns,cells,-⟩
    exact ⟨columns,cells.symm⟩
  · rintro ⟨columns,cells⟩
    exact ⟨_,_,rfl,columns,cells.symm,writable.widths⟩

section Append

variable {added : List Row} (noFeed : format.delimiter ≠ '\n') (noReturn : format.delimiter ≠ '\r')
  (read : format.tableOfText name text = .ok table)
  (widths : ∀ row ∈ added, row.length = table.header.width)
  (separable : ∀ row ∈ added, Separable format row)
  (keeps : ∀ row ∈ added, ¬EndsInReturn row)

include noFeed noReturn read widths separable keeps

theorem tableOfText_append (keepsEnd : text.toList.getLast? ≠ some '\r') :
    format.tableOfText name
        (text ++ (Text.closing text ++ String.join (added.map format.writtenRow))) =
      .ok ⟨table.header,table.rows ++ added⟩ := by
  have writable := writable_of_tableOfText read
  obtain ⟨first,later,lines,header,rows,rectangular⟩ := tableOfText_eq_ok.mp read
  have back := (cells_lineBack_eq_iff noReturn writable.filled widths separable).mpr keeps
  have nonempty : text ≠ "" := by
    rintro rfl
    simp [Text.lines] at lines
  refine tableOfText_eq_ok.mpr ⟨first,later ++ added.map format.lineBack,?_,header,?_,?_⟩
  · rw [Text.lines_append _ nonempty keepsEnd,lines,lines_join_writtenRow noFeed separable]
    rfl
  · dsimp only at back ⊢
    rw [rowLines_append,List.map_append,← rows,back]
  · intro row member
    rcases List.mem_append.mp member with member | member
    · exact rectangular row member
    · exact widths row member

/-- An open last line loses its carriage return when it is closed, and with it a cell changes. -/
theorem tableOfText_append_return (ends : text.toList.getLast? = some '\r') :
    format.tableOfText name
        (text ++ (Text.closing text ++ String.join (added.map format.writtenRow))) ≠
      .ok ⟨table.header,table.rows ++ added⟩ := by
  intro extended
  have writable := writable_of_tableOfText read
  obtain ⟨first,later,lines,header,rows,-⟩ := tableOfText_eq_ok.mp read
  have back := (cells_lineBack_eq_iff noReturn writable.filled widths separable).mpr keeps
  obtain ⟨before,last,short,here,filled,differ,there⟩ :=
    Text.lines_append_return (String.join (added.map format.writtenRow)) ends
  obtain ⟨first',later',lines',header',rows',-⟩ := tableOfText_eq_ok.mp extended
  rw [there,lines_join_writtenRow noFeed separable] at lines'
  rw [here] at lines
  cases before with
  | nil =>
    obtain ⟨rfl,rfl⟩ := List.cons.inj lines
    obtain ⟨rfl,-⟩ := List.cons.inj lines'
    exact differ (cellsOfLine_injective (header'.trans header.symm))
  | cons line before =>
    obtain ⟨rfl,rfl⟩ := List.cons.inj lines
    obtain ⟨rfl,rfl⟩ := List.cons.inj lines'
    have kept : rowLines table.header.width [last] = [last] := by simp [rowLines,filled]
    have rows : table.rows = (rowLines table.header.width (before ++ [last])).map
      format.cellsOfLine := rows
    have rows' : table.rows ++ added = (rowLines table.header.width
      (before ++ ([short] ++ added.map format.lineBack))).map format.cellsOfLine := rows'
    rw [rowLines_append,List.map_append,kept] at rows
    rw [rowLines_append,List.map_append,rowLines_append,List.map_append,back] at rows'
    have same : [format.cellsOfLine last] =
        (rowLines table.header.width [short]).map format.cellsOfLine := by
      rw [rows,List.append_assoc,List.map_singleton] at rows'
      exact List.append_cancel_right (List.append_cancel_left rows')
    by_cases blank : short = "" ∧ table.header.width ≠ 1
    · simp [rowLines,blank] at same
    · have stays : rowLines table.header.width [short] = [short] :=
        List.filter_cons_of_pos (by simp; tauto)
      rw [stays,List.map_singleton,List.singleton_inj] at same
      exact differ (cellsOfLine_injective same).symm

/-- Rows of storable cells come back from behind a text, and the table before them does
unless its last line was open and ended with a carriage return. -/
theorem tableOfText_append_iff :
    format.tableOfText name
        (text ++ (Text.closing text ++ String.join (added.map format.writtenRow))) =
      .ok ⟨table.header,table.rows ++ added⟩ ↔ text.toList.getLast? ≠ some '\r' := by
  constructor
  · intro extended ends
    exact tableOfText_append_return noFeed noReturn read widths separable keeps ends extended
  · exact tableOfText_append noFeed noReturn read widths separable keeps

end Append

end TableFormat
end PlainTables
