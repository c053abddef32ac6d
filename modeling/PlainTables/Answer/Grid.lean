import PlainTables.Answer.Layout

/-! Grids: answers with rows, ready to be shown on a screen. -/
namespace PlainTables

structure Grid where
  columns : List String
  rows : List (List String)
  widths : List Nat
  deriving DecidableEq, Repr

namespace Grid

/-- No column is narrower. -/
def leastWidth : Nat := 4

def ofRows (columns : List String) (rows : List (List String)) : Grid :=
  ⟨columns, rows, columnWidths leastWidth columns rows⟩

/-- The columns are those of the first record. -/
def ofRecords (records : List Record) : Grid :=
  ofRows ((records.head?.map Record.columns).getD []) (records.map Record.values)

def ofTables (names : List String) : Grid :=
  ofRows ["table"] (names.map fun name => [name])

@[simp] theorem length_widths_ofRows (columns : List String) (rows : List (List String)) :
    (ofRows columns rows).widths.length = columns.length := by
  simp [ofRows, columnWidths]

end Grid

/-- The grid an answer is shown as, if it has rows. -/
def Answer.grid? : Answer → Option Grid
  | .records found => some (Grid.ofRecords found)
  | .tables names => some (Grid.ofTables names)
  | _ => none

end PlainTables
