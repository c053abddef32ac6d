import PlainTables.Proofs.Table.Storable
import PlainTables.Proofs.Text.Bytes

/-! Tables as files and back. A file of storable cells is read as the table it was written from, and
so is that file without its last line feed, unless its last line is blank. Lines and their cells
determine each other. -/
namespace PlainTables.TableFormat

variable {format : TableFormat} {table : Table} {before : List Row} {last : Row} {name : String}

/-! ### The last line -/

/-- Rows as they are written, but for the last line feed. -/
def openRows (format : TableFormat) (before : List Row) (last : Row) : String :=
  String.join (before.map format.writtenRow) ++ format.lineOfCells last

theorem join_writtenRow (format : TableFormat) (before : List Row) (last : Row) :
    String.join ((before ++ [last]).map format.writtenRow) =
      format.openRows before last ++ "\n" := by
  rw [← String.toList_inj]
  simp [openRows,writtenRow]

theorem lines_openRows (noFeed : format.delimiter ≠ '\n') (noReturn : format.delimiter ≠ '\r')
    (storable : ∀ cell ∈ last, format.isStorable cell = true)
    (filled : format.lineOfCells last ≠ "") :
    Text.lines (format.openRows before last ++ "\n") =
      Text.lines (format.openRows before last) := by
  have line : (format.lineOfCells last).toList ≠ [] := by simpa using filled
  have ends : (format.openRows before last).toList.getLast? =
      (format.lineOfCells last).toList.getLast? := by
    rw [openRows,String.toList_append,List.getLast?_append_of_ne_nil _ line]
  apply Text.lines_close
  · intro empty
    rw [openRows,String.append_eq_empty_iff] at empty
    exact filled empty.2
  · rw [ends]
    intro feed
    exact feed_not_mem_lineOfCells noFeed (separable_of_storable storable)
      (List.mem_of_getLast? feed)
  · rw [ends,ne_eq,endsInReturn_iff noReturn]
    exact not_endsInReturn_of_storable storable

theorem lines_openRows_blank (blank : format.lineOfCells last = "") :
    Text.lines (format.openRows before last ++ "\n") =
      Text.lines (format.openRows before last) ++ [""] := by
  apply Text.lines_blank
  rw [openRows,blank,String.append_empty]
  rcases List.eq_nil_or_concat' before with rfl | ⟨start,row,rfl⟩
  · exact .inl rfl
  · right
    rw [join_writtenRow,String.toList_append]
    simp

/-- A table is read from its text without the last line feed exactly if the last line is not blank. -/
theorem tableOfText_openRows_iff (noFeed : format.delimiter ≠ '\n')
    (noReturn : format.delimiter ≠ '\r') (storable : format.Storable table)
    (rows : table.header.columns :: table.rows = before ++ [last]) :
    format.tableOfText name (format.openRows before last) = .ok table ↔
      format.lineOfCells last ≠ "" := by
  have written : format.tableOfText name (format.openRows before last ++ "\n") = .ok table := by
    rw [← join_writtenRow,← rows]
    exact storable.tableOfText_writtenTable noFeed noReturn name
  have member : last ∈ table.header.columns :: table.rows := by simp [rows]
  constructor
  · intro read blank
    have width := storable.widthOf member
    have single := eq_of_blank (storable.ne_nil_of_mem member)
      (separable_of_storable (storable.cells last member)) blank
    rw [single] at width
    -- so the table has one column, and the blank line is a row of it
    obtain ⟨first,later,lines,-,cells,-⟩ := tableOfText_eq_ok.mp read
    obtain ⟨_,_,lines',-,cells',-⟩ := tableOfText_eq_ok.mp written
    rw [lines_openRows_blank blank,lines,List.cons_append] at lines'
    obtain ⟨rfl,rfl⟩ := List.cons.inj lines'
    rw [cells,rowLines_append,List.map_append] at cells'
    simp [rowLines,← width] at cells'
  · intro filled
    rw [tableOfText,← lines_openRows noFeed noReturn (storable.cells last member) filled]
    exact written

/-! ### Files -/

/-- A file of storable cells is read as they were written, and without its last line feed exactly if
its last line is not blank. A line has the text of its cells, and cells are those of their line. -/
theorem table_text_round_trip (format : TableFormat) (name : String) :
    (format.delimiter ≠ '\n' → format.delimiter ≠ '\r' → ∀ table : Table,
      table.header.columns ≠ [] → table.Rectangular →
      (∀ cells ∈ table.header.columns :: table.rows, ∀ cell ∈ cells,
        format.checkValue cell = .ok ()) →
      ∃ text, String.join ((table.header.columns :: table.rows).map format.writtenRow) =
          text ++ "\n" ∧
        format.tableOfBytes name (text ++ "\n").toUTF8 = .ok table ∧
        (format.tableOfBytes name text.toUTF8 = .ok table ↔
          format.lineOfCells ((table.header.columns :: table.rows).getLast
            (List.cons_ne_nil _ _)) ≠ "")) ∧
    (∀ line, format.lineOfCells (format.cellsOfLine line) = line) ∧
    ∀ cells, cells ≠ [] → (∀ cell ∈ cells, format.delimiter ∉ cell.toList) →
      format.cellsOfLine (format.lineOfCells cells) = cells := by
  refine ⟨?_,lineOfCells_cellsOfLine format,fun _ => cellsOfLine_lineOfCells format⟩
  intro noFeed noReturn table nonempty rectangular checked
  have storable : format.Storable table :=
    ⟨List.length_pos_iff.mpr nonempty,rectangular,fun row member cell inside =>
      checkValue_eq_ok.mp (checked row member cell inside)⟩
  obtain ⟨before,last,rows,ends⟩ : ∃ before last,
      table.header.columns :: table.rows = before ++ [last] ∧
        (table.header.columns :: table.rows).getLast (List.cons_ne_nil _ _) = last :=
    ⟨_,_,(List.dropLast_append_getLast _).symm,rfl⟩
  refine ⟨format.openRows before last,?_,?_,?_⟩
  · rw [rows,join_writtenRow]
  · rw [tableOfBytes_toUTF8,← join_writtenRow,← rows]
    exact storable.tableOfText_writtenTable noFeed noReturn name
  · rw [tableOfBytes_toUTF8,ends]
    exact tableOfText_openRows_iff noFeed noReturn storable rows

/-- A table of one column whose rows are blank but for one. -/
def blanks : Table := ⟨⟨["a"],by decide⟩,[[""],["x"],[""]]⟩

/-- The last of its rows is lost with the last line feed. -/
theorem blanks_round_trip :
    comma.tableOfBytes "t" "a\n\nx\n\n".toUTF8 = .ok blanks ∧
      comma.tableOfBytes "t" "a\n\nx\n".toUTF8 ≠ .ok blanks ∧
      comma.cellsOfLine (comma.lineOfCells ["","x",""]) = ["","x",""] := by
  obtain ⟨files,-,cells⟩ := table_text_round_trip comma "t"
  have rectangular : ∀ row ∈ blanks.rows, row.length = blanks.header.width := by decide
  obtain ⟨text,written,read,short⟩ :=
    files (by decide) (by decide) blanks (by decide) rectangular (by decide)
  obtain rfl : text = "a\n\nx\n" := by
    have whole : "a\n\nx\n" ++ "\n" = text ++ "\n" := by
      rw [← written]
      decide
    exact ((String.append_left_inj "\n").mp whole).symm
  refine ⟨read,fun lost => ?_,cells _ (by decide) (by decide)⟩
  exact short.mp lost (by decide)

end PlainTables.TableFormat
