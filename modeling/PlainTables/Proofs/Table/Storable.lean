import PlainTables.Proofs.Table.ByName
import PlainTables.Proofs.Table.Format

/-! Tables that were made by statements. All their cells have passed the check of values, so
their text is read back as it was written, and every change keeps it so. -/
namespace PlainTables.TableFormat

variable {format : TableFormat} {table : Table} {header : Header} {name : String}

/-- A table as wide as its header with at least one column, and no cell that disturbs a line. -/
structure Storable (format : TableFormat) (table : Table) : Prop where
  filled : 0 < table.header.width
  widths : table.Rectangular
  cells : ∀ row ∈ table.header.columns :: table.rows, ∀ cell ∈ row, format.isStorable cell = true

theorem storable_of_checkInserted {fields : List String} {rows : List Row}
    (checked : header.checkInserted format fields rows = .ok ()) :
    ∀ row ∈ rows, ∀ cell ∈ header.aligned fields row, format.isStorable cell = true := by
  intro row member cell inside
  have value := (Header.checkInserted_eq_ok.mp checked).2 row member
  rcases Header.mem_aligned inside with given | rfl
  · exact checkValue_eq_ok.mp (value cell given)
  · exact isStorable_empty

namespace Storable

theorem widthOf (storable : format.Storable table) {row : Row}
    (member : row ∈ table.header.columns :: table.rows) : row.length = table.header.width := by
  rcases List.mem_cons.mp member with rfl | member
  · rfl
  · exact storable.widths row member

theorem ne_nil_of_mem (storable : format.Storable table) {row : Row}
    (member : row ∈ table.header.columns :: table.rows) : row ≠ [] := by
  rintro rfl
  exact Nat.ne_of_lt storable.filled (storable.widthOf member)

theorem writable (storable : format.Storable table) : format.Writable table :=
  ⟨storable.filled,storable.widths,separable_of_storable (storable.cells _ List.mem_cons_self),
    fun row member => separable_of_storable (storable.cells row (List.mem_cons_of_mem _ member))⟩

theorem tableOfText_writtenTable (noFeed : format.delimiter ≠ '\n')
    (noReturn : format.delimiter ≠ '\r') (storable : format.Storable table) (name : String) :
    format.tableOfText name (format.writtenTable table) = .ok table :=
  (tableOfText_writtenTable_iff noFeed noReturn storable.writable).mpr fun row member =>
    not_endsInReturn_of_storable (storable.cells row member)

theorem created (filled : 0 < header.width)
    (checked : header.columns.forM format.checkValue = .ok ()) : format.Storable ⟨header,[]⟩ := by
  refine ⟨filled,by simp [Table.Rectangular],?_⟩
  intro row member cell inside
  rw [List.mem_singleton.mp member] at inside
  exact checkValue_eq_ok.mp (Actions.forM_eq_ok.mp checked cell inside)

/-- Changed rows keep a table storable if their cells are. -/
theorem of_rows (storable : format.Storable table) {rows : List Row}
    (widths : Table.Rectangular ⟨table.header,rows⟩)
    (cells : ∀ row ∈ rows, ∀ cell ∈ row, format.isStorable cell = true) :
    format.Storable ⟨table.header,rows⟩ := by
  refine ⟨storable.filled,widths,List.forall_mem_cons.mpr ⟨?_,cells⟩⟩
  exact storable.cells _ List.mem_cons_self

theorem rows (storable : format.Storable table) :
    ∀ row ∈ table.rows, ∀ cell ∈ row, format.isStorable cell = true := fun row member =>
  storable.cells row (List.mem_cons_of_mem _ member)

theorem inserted (storable : format.Storable table) {fields : List String} {rows : List Row}
    (checked : table.header.checkInserted format fields rows = .ok ()) :
    format.Storable (table.inserted fields rows) := by
  apply storable.of_rows (Table.rectangular_inserted storable.widths fields rows)
  intro row member
  rcases List.mem_append.mp member with old | new
  · exact storable.rows row old
  · obtain ⟨values,inside,rfl⟩ := List.mem_map.mp new
    exact storable_of_checkInserted checked values inside

theorem updated (storable : format.Storable table) {assignments : List Assignment}
    (checked : table.header.checkAssignments format assignments = .ok ()) (filter : Filter) :
    format.Storable (table.updated assignments filter) := by
  apply storable.of_rows (Table.rectangular_updated storable.widths assignments filter)
  intro row member
  obtain ⟨old,inside,rfl⟩ := List.mem_map.mp member
  split
  · intro cell member
    rcases Header.mem_overwritten member with ⟨a,assigned,rfl⟩ | kept
    · exact (Header.checkAssignments_eq_ok.mp checked a assigned).1
    · exact storable.rows old inside cell kept
  · exact storable.rows old inside

theorem deleted (storable : format.Storable table) (filter : Filter) :
    format.Storable (table.deleted filter) :=
  storable.of_rows (Table.rectangular_deleted storable.widths filter) fun row member =>
    storable.rows row (List.mem_filter.mp member).1

end Storable

theorem toList_join_writtenRow (rows : List Row) :
    (String.join (rows.map format.writtenRow)).toList =
      rows.flatMap fun row => (format.lineOfCells row).toList ++ ['\n'] := by
  simp [List.flatMap_map,writtenRow]

theorem closing_writtenTable (table : Table) : Text.closing (format.writtenTable table) = "" := by
  have ends : (format.writtenTable table).toList.getLast? = some '\n' := by
    rw [writtenTable,toList_join_writtenRow]
    obtain ⟨before,last,split⟩ : ∃ before last, table.header.columns :: table.rows =
        before ++ [last] :=
      ⟨_,_,(List.dropLast_append_getLast (List.cons_ne_nil _ _)).symm⟩
    simp [split,List.flatMap_append]
  rw [Text.closing,if_pos ends]

/-- The text of a table is closed, so further rows stand behind it as they are written. -/
theorem writtenTable_append (table : Table) (added : List Row) :
    format.writtenTable table ++ (Text.closing (format.writtenTable table) ++
        String.join (added.map format.writtenRow)) =
      format.writtenTable ⟨table.header,table.rows ++ added⟩ := by
  rw [closing_writtenTable,String.empty_append,← String.toList_inj,String.toList_append,writtenTable,
    writtenTable,toList_join_writtenRow,toList_join_writtenRow,toList_join_writtenRow,
    ← List.flatMap_append]
  rfl

end PlainTables.TableFormat
