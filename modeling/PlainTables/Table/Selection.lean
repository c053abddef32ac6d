import PlainTables.Filter.Bound
import PlainTables.Table.Record
import PlainTables.Statement.Basic

/-! Selections: which columns and which rows of a table become records, and in what order.
Sorting keeps the table's order among records whose sort cells are equal, in both
directions. -/
namespace PlainTables

/-- Columns with their places, in the order of the fields. A single star is every column. -/
def Header.project (header : Header) (fields : List String) :
    Except Fault (List (String × Nat)) :=
  if fields = ["*"] then .ok header.columns.zipIdx
  else
    fields.mapM fun field =>
      match header.index? field with
      | some place => .ok (field, place)
      | none => .error (.unknownField field)

/-- The record of a row; a missing cell reads as the empty text. -/
def Row.record (row : Row) (columns : List (String × Nat)) : Record :=
  columns.map fun (column, place) => (column, row[place]?.getD "")

namespace Table

def select (table : Table) (columns : List (String × Nat)) (filter : Filter) :
    Except Fault (List Record) := do
  let bound ← filter.bind table.header .refused
  .ok ((table.rows.filter bound.accepts).map (Row.record · columns))

def read (table : Table) (fields : List String) (filter : Filter) :
    Except Fault (List Record) := do
  let columns ← table.header.project fields
  table.select columns filter

end Table

/-! ### Order -/

/-- The order of cells in a sorted result: numbers first and by size, then texts. -/
def compareCells (a b : String) : Ordering :=
  match Binary64.ofText? a, Binary64.ofText? b with
  | some x, some y => compare x.rank y.rank
  | some _, none => .lt
  | none, some _ => .gt
  | none, none => compare a b

/-- Whether a record may stand before another. -/
def SortKey.le (key : SortKey) (a b : Record) : Bool :=
  let order := compareCells ((a.get? key.column).getD "") ((b.get? key.column).getD "")
  if key.ascending then order != .gt else order != .lt

def SortKey.sort (key : SortKey) (records : List Record) : List Record :=
  records.mergeSort key.le

/-- The sort column has to be one of the selected columns. -/
def Table.readOrdered (table : Table) (fields : List String) (filter : Filter)
    (key : SortKey) : Except Fault (List Record) := do
  let columns ← table.header.project fields
  if columns.any (fun column => column.1 == key.column) then
    let records ← table.select columns filter
    .ok (key.sort records)
  else .error (.unknownOrderColumn key.column)

end PlainTables
