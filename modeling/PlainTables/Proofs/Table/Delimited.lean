import PlainTables.Proofs.Table.Storable

/-! Tables with any delimiter, also with one that means something at the end of a line. The check of
values looks at cells and not at lines, so a line can still be read as another one: it falls apart where
a line feed stands between two cells, and it loses an empty last cell behind a carriage return. Main
statement: a table of storable cells has its columns and its number of rows in its file exactly if none
of its lines does so, and then it is read back as a whole. -/
namespace PlainTables.TableFormat

variable {format : TableFormat} {table : Table} {before row : Row} {last : String} {name : String}

/-! ### One line -/

/-- The line of these cells is read as these cells, whatever the delimiter is. -/
def ReadsBack (format : TableFormat) (row : Row) : Prop :=
  row.length = 1 ∨ format.delimiter ≠ '\n' ∧ (format.delimiter = '\r' → row.getLast? ≠ some "")

instance (format : TableFormat) (row : Row) : Decidable (format.ReadsBack row) :=
  inferInstanceAs (Decidable (_ ∨ _))

theorem readsBack_of_ordinary (noFeed : format.delimiter ≠ '\n') (noReturn : format.delimiter ≠ '\r')
    (row : Row) : format.ReadsBack row :=
  .inr ⟨noFeed,fun same => absurd same noReturn⟩

theorem toList_lineOfCells_concat (filled : before ≠ []) :
    (format.lineOfCells (before ++ [last])).toList =
      (format.lineOfCells before).toList ++ format.delimiter :: last.toList := by
  rw [toList_lineOfCells,toList_lineOfCells]
  induction before with
  | nil => exact absurd rfl filled
  | cons cell rest ih =>
    cases rest with
    | nil => simp
    | cons next rest =>
      have more := ih (by simp)
      simp only [List.cons_append,List.map_cons,List.intercalate_cons_cons] at more ⊢
      rw [more]
      simp

section Storable

variable (storable : ∀ cell ∈ row, format.isStorable cell = true)

include storable

theorem feed_not_mem_of_readsBack (readsBack : format.ReadsBack row) :
    '\n' ∉ (format.lineOfCells row).toList := by
  have separable := separable_of_storable storable
  rcases readsBack with single | ⟨noFeed,-⟩
  · obtain ⟨cell,rfl⟩ := List.length_eq_one_iff.mp single
    simpa [toList_lineOfCells] using (separable cell List.mem_cons_self).2
  · exact feed_not_mem_lineOfCells noFeed separable

/-- A line that reads back keeps its end. -/
theorem lineBack_of_readsBack (readsBack : format.ReadsBack row) :
    format.lineBack row = format.lineOfCells row := by
  rw [lineBack,Text.dropReturn_of_ne,String.ofList_toList]
  rcases List.eq_nil_or_concat' row with rfl | ⟨before,last,rfl⟩
  · simp [toList_lineOfCells]
  have ret : '\r' ∉ last.toList := (isStorable_iff.mp (storable last (by simp))).2.2
  by_cases first : before = []
  · subst first
    simpa [toList_lineOfCells] using fun ends => ret (List.mem_of_getLast? ends)
  rw [toList_lineOfCells_concat first,List.getLast?_append,List.getLast?_cons]
  cases ends : last.toList.getLast? with
  | some c =>
    have other : c ≠ '\r' := by
      rintro rfl
      exact ret (List.mem_of_getLast? ends)
    simpa using other
  | none =>
    have blank : last = "" := by simpa using ends
    have long : (before ++ [last]).length ≠ 1 := by simpa using first
    obtain ⟨-,kept⟩ := readsBack.resolve_left long
    simpa using fun same => kept same (by simp [blank])

/-- A line that does not read back is read as one cell fewer. -/
theorem length_cells_lineBack (noFeed : format.delimiter ≠ '\n') (filled : row ≠ [])
    (readsBack : ¬format.ReadsBack row) :
    (format.cellsOfLine (format.lineBack row)).length + 1 = row.length := by
  obtain ⟨before,last,rfl⟩ := (List.eq_nil_or_concat' row).resolve_left filled
  simp only [ReadsBack,not_or,not_and,not_forall,not_not] at readsBack
  obtain ⟨long,ends⟩ := readsBack
  obtain ⟨ret,blank⟩ := ends noFeed
  have first : before ≠ [] := by
    rintro rfl
    exact long rfl
  have empty : last = "" := by simpa using blank
  have line : format.lineBack (before ++ [last]) = format.lineOfCells before := by
    rw [lineBack,toList_lineOfCells_concat first,empty,ret,String.toList_empty]
    simp [Text.dropReturn]
  have separable : Separable format before :=
    separable_of_storable fun cell inside => storable cell (List.mem_append_left _ inside)
  rw [line,cells_of_line first separable]
  simp

end Storable

/-! ### The lines of a table -/

namespace Storable

variable (storable : format.Storable table)

include storable

theorem tableOfText_of_readsBack
    (readsBack : ∀ row ∈ table.header.columns :: table.rows, format.ReadsBack row) (name : String) :
    format.tableOfText name (format.writtenTable table) = .ok table := by
  have lines : Text.lines (format.writtenTable table) =
      (table.header.columns :: table.rows).map format.lineBack :=
    lines_join_of_plain fun row member =>
      feed_not_mem_of_readsBack (storable.cells row member) (readsBack row member)
  have kept : (table.header.columns :: table.rows).map format.lineBack =
      (table.header.columns :: table.rows).map format.lineOfCells :=
    List.map_congr_left fun row member =>
      lineBack_of_readsBack (storable.cells row member) (readsBack row member)
  have separable := storable.writable.rows
  rw [kept] at lines
  refine tableOfText_eq_ok.mpr ⟨_,_,lines,?_,?_,storable.widths⟩
  · exact cells_of_line (storable.ne_nil_of_mem List.mem_cons_self) storable.writable.header
  · rw [rowLines_lineOfCells storable.filled storable.widths separable]
    refine (map_cells_of_line (fun row member => ?_) separable).symm
    exact storable.ne_nil_of_mem (List.mem_cons_of_mem _ member)

omit storable in
/-- Between line feeds there is no room for a second column. -/
theorem width_of_feed {found : Table} (feed : format.delimiter = '\n') {text : String}
    (read : format.tableOfText name text = .ok found) : found.header.width = 1 := by
  obtain ⟨first,later,lines,columns,-⟩ := tableOfText_eq_ok.mp read
  have plain : '\n' ∉ first.toList := by
    have member : first ∈ Text.lines text := by simp [lines]
    obtain ⟨source,inside,rfl⟩ := List.mem_map.mp member
    rw [String.toList_ofList]
    exact Text.feed_not_mem_linesOf inside
  rw [Header.width,← columns,cellsOfLine,feed,List.splitOn_eq_singleton plain]
  rfl

theorem readsBack_of_counts {found : Table}
    (read : format.tableOfText name (format.writtenTable table) = .ok found)
    (columns : found.header.columns = table.header.columns)
    (count : found.rows.length = table.rows.length) :
    ∀ row ∈ table.header.columns :: table.rows, format.ReadsBack row := by
  have width : found.header.width = table.header.width := congrArg List.length columns
  by_cases feed : format.delimiter = '\n'
  · intro row member
    rw [ReadsBack,storable.widthOf member,← width,width_of_feed feed read]
    exact .inl rfl
  have lines : Text.lines (format.writtenTable table) =
      format.lineBack table.header.columns :: table.rows.map format.lineBack :=
    lines_join_of_plain fun row member =>
      feed_not_mem_lineOfCells feed (separable_of_storable (storable.cells row member))
  obtain ⟨first,later,split,header,rows,widths⟩ := tableOfText_eq_ok.mp read
  rw [lines] at split
  obtain ⟨rfl,rfl⟩ := List.cons.inj split
  have all : rowLines found.header.width (table.rows.map format.lineBack) =
      table.rows.map format.lineBack := by
    refine List.filter_eq_self.mpr (List.length_filter_eq_length_iff.mp ?_)
    simpa [rows,rowLines] using count
  rw [all] at rows
  have lengths : ∀ row ∈ table.header.columns :: table.rows,
      (format.cellsOfLine (format.lineBack row)).length = row.length := by
    refine List.forall_mem_cons.mpr ⟨by rw [header,columns],fun row member => ?_⟩
    have inside : format.cellsOfLine (format.lineBack row) ∈ found.rows := by
      rw [rows]
      exact List.mem_map_of_mem (List.mem_map_of_mem member)
    rw [widths _ inside,width,storable.widths row member]
  intro row member
  by_contra other
  have fewer := length_cells_lineBack (storable.cells row member) feed
    (storable.ne_nil_of_mem member) other
  rw [lengths row member] at fewer
  exact Nat.succ_ne_self _ fewer

end Storable

end PlainTables.TableFormat
