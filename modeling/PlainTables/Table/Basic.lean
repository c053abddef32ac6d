import PlainTables.Table.Header

/-! Tables as values: a header and rows of cells. A row that a table file gave is as wide as
the header; nothing here relies on it, and a cell outside a row is a missing one. -/
namespace PlainTables

abbrev Row := List String

structure Table where
  header : Header
  rows : List Row
  deriving DecidableEq, Repr

/-- Every row has a cell for each column and no other. -/
def Table.Rectangular (table : Table) : Prop :=
  ∀ row ∈ table.rows, row.length = table.header.width

end PlainTables
