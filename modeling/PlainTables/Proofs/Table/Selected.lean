import PlainTables.Proofs.Table.ByName

/-! Records read by the names of their columns. The checks come in the order in which a read
makes them: the fields, the sort column, the columns of the filter. -/
namespace PlainTables

open Actions

namespace Header

variable {header : Header} {fields : List String}

/-- The columns that some fields ask for. A single star asks for all of them. -/
def selectedFields (header : Header) (fields : List String) : List String :=
  if fields = ["*"] then header.columns else fields

def checkSelected (header : Header) (fields : List String) : Except Fault Unit :=
  if fields = ["*"] then .ok ()
  else
    fields.forM fun field =>
      if field ∈ header.columns then .ok () else .error (.unknownField field)

/-- The record of a row with the values of some columns. -/
def record (header : Header) (fields : List String) (row : Row) : Record :=
  fields.map fun field => (field,(header.cell? row field).getD "")

theorem zipIdx_columns (header : Header) :
    header.columns.zipIdx = header.columns.map fun column => (column,(header.index? column).getD 0) := by
  apply List.ext_getElem?
  intro i
  rw [List.getElem?_zipIdx,List.getElem?_map]
  cases here : header.columns[i]? with
  | none => rfl
  | some column => simp [index?_eq_some.mpr here]

theorem project_eq (header : Header) (fields : List String) :
    header.project fields = (header.checkSelected fields).map fun _ =>
      (header.selectedFields fields).map fun field => (field,(header.index? field).getD 0) := by
  by_cases star : fields = ["*"]
  · simp only [project,checkSelected,selectedFields,if_pos star,zipIdx_columns]
    rfl
  · rw [project,checkSelected,selectedFields,if_neg star,if_neg star,if_neg star]
    apply mapM_eq_forM
    intro field _
    cases found : header.index? field with
    | none =>
      rw [if_neg (index?_eq_none.mp found)]
      rfl
    | some place =>
      have known : field ∈ header.columns := List.mem_of_getElem? (index?_eq_some.mp found)
      rw [if_pos known]
      rfl

theorem checkSelected_eq_ok :
    header.checkSelected fields = .ok () ↔
      fields = ["*"] ∨ ∀ field ∈ fields, field ∈ header.columns := by
  unfold checkSelected
  split
  · next star => simp [star]
  · next star =>
    rw [forM_eq_ok,or_iff_right star]
    apply forall₂_congr
    intro field _
    split <;> simp_all

theorem known_of_checkSelected (checked : header.checkSelected fields = .ok ()) :
    ∀ field ∈ header.selectedFields fields, field ∈ header.columns := by
  unfold selectedFields
  split
  · exact fun _ member => member
  · next star => exact (checkSelected_eq_ok.mp checked).resolve_left star

theorem record_placed {row : Row} (known : ∀ field ∈ fields, field ∈ header.columns) :
    Row.record row (fields.map fun field => (field,(header.index? field).getD 0)) =
      header.record fields row := by
  rw [Row.record,record,List.map_map]
  apply List.map_congr_left
  intro field member
  rw [Function.comp_apply,cell?_eq]
  cases found : header.index? field with
  | none => exact absurd (known field member) (index?_eq_none.mp found)
  | some place => rfl

end Header

namespace Table

variable {table : Table} {fields : List String} {filter : Filter}

def selected (table : Table) (fields : List String) (filter : Filter) :
    Except Fault (List Record) := do
  filter.checkColumns table.header
  .ok ((table.holding filter).map (table.header.record (table.header.selectedFields fields)))

theorem select_eq (balanced : filter.Balanced) (checked : table.header.checkSelected fields = .ok ()) :
    table.select ((table.header.selectedFields fields).map fun field =>
        (field,(table.header.index? field).getD 0)) filter = table.selected fields filter := by
  have known := Header.known_of_checkSelected checked
  rw [select,selected,Filter.bind_refused balanced,map_bind,filter_accepts]
  simp only [Header.record_placed known]

theorem read_eq (balanced : filter.Balanced) :
    table.read fields filter =
      (table.header.checkSelected fields >>= fun _ => table.selected fields filter) := by
  rw [read,Header.project_eq,map_bind]
  cases checked : table.header.checkSelected fields with
  | error fault => rfl
  | ok _ => exact select_eq balanced checked

theorem readOrdered_eq (balanced : filter.Balanced) (key : SortKey) :
    table.readOrdered fields filter key =
      (table.header.checkSelected fields >>= fun _ =>
        if key.column ∈ table.header.selectedFields fields then
          (table.selected fields filter).map key.sort
        else .error (.unknownOrderColumn key.column)) := by
  rw [readOrdered,Header.project_eq,map_bind]
  cases checked : table.header.checkSelected fields with
  | error fault => rfl
  | ok _ =>
    have named : ((table.header.selectedFields fields).map fun field =>
        (field,(table.header.index? field).getD 0)).any (fun column => column.1 == key.column) =
          decide (key.column ∈ table.header.selectedFields fields) := by
      simp [List.any_map,Function.comp_def,List.any_beq']
    dsimp only [bind,Except.bind]
    rw [select_eq balanced checked,named]
    by_cases inside : key.column ∈ table.header.selectedFields fields
    · simp only [inside,decide_true,if_true]
      exact bind_ok _ _
    · simp only [inside,decide_false,Bool.false_eq_true,if_false]

end Table

end PlainTables
