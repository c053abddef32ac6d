import PlainTables.Fault
import PlainTables.Table.Basic
import PlainTables.Text.Lines

/-! The text of a table file: the first line names the columns and every other line is a
row. Cells stand verbatim with the delimiter between them, without quoting, so a value that
holds the delimiter or a line break cannot be stored. -/
namespace PlainTables

structure TableFormat where
  delimiter : Char
  deriving DecidableEq, Repr

namespace TableFormat

def comma : TableFormat := ⟨','⟩

/-! ### Lines and cells -/

def cellsOfLine (format : TableFormat) (line : String) : List String :=
  (line.toList.splitOn format.delimiter).map String.ofList

def lineOfCells (format : TableFormat) (cells : List String) : String :=
  String.ofList ([format.delimiter].intercalate (cells.map String.toList))

/-- A line with its line feed. -/
def writtenRow (format : TableFormat) (cells : List String) : String :=
  format.lineOfCells cells ++ "\n"

def isStorable (format : TableFormat) (value : String) : Bool :=
  value.toList.all (fun c => c ≠ format.delimiter && c ≠ '\n' && c ≠ '\r')

def checkValue (format : TableFormat) (value : String) : Except Fault Unit :=
  if format.isStorable value then .ok () else .error (.unstorable value)

theorem lineOfCells_cellsOfLine (format : TableFormat) (line : String) :
    format.lineOfCells (format.cellsOfLine line) = line := by
  simp [lineOfCells, cellsOfLine, List.map_map, Function.comp_def, List.intercalate_splitOn]

theorem cellsOfLine_lineOfCells (format : TableFormat) {cells : List String}
    (nonempty : cells ≠ []) (separate : ∀ cell ∈ cells, format.delimiter ∉ cell.toList) :
    format.cellsOfLine (format.lineOfCells cells) = cells := by
  have split := List.splitOn_intercalate format.delimiter
    (by simpa using separate) (show cells.map String.toList ≠ [] by simpa using nonempty)
  simp [lineOfCells, cellsOfLine, split, List.map_map, Function.comp_def]

/-! ### Whole tables -/

/-- Reads rows, given the number of the first line. A blank line is a row only of a table
with one column. -/
def rowsOfLines (format : TableFormat) (table : String) (width : Nat) :
    Nat → List (Option String) → Except Fault (List Row)
  | _, [] => .ok []
  | _, none :: _ => .error (.io .notUtf8)
  | number, some line :: later =>
    if line = "" ∧ width ≠ 1 then rowsOfLines format table width (number + 1) later
    else
      let cells := format.cellsOfLine line
      if cells.length = width then do
        let rows ← rowsOfLines format table width (number + 1) later
        .ok (cells :: rows)
      else .error (.malformedTable table number (.rowWidth width cells.length))

/-- Reads a table from its lines; nothing stands for a line that is not UTF-8. -/
def tableOfLines (format : TableFormat) (table : String) :
    List (Option String) → Except Fault Table
  | [] => .error (.malformedTable table 1 .missingHeader)
  | none :: _ => .error (.io .notUtf8)
  | some first :: later =>
    match Header.ofColumns (format.cellsOfLine first) with
    | .error name => .error (.malformedTable table 1 (.repeatedColumn name))
    | .ok header => do
      let rows ← format.rowsOfLines table header.width 2 later
      .ok ⟨header, rows⟩

def tableOfText (format : TableFormat) (table text : String) : Except Fault Table :=
  format.tableOfLines table ((Text.lines text).map some)

/-- Lines that cannot be decoded matter only when they are reached. -/
def tableOfBytes (format : TableFormat) (table : String) (bytes : ByteArray) :
    Except Fault Table :=
  format.tableOfLines table (Text.byteLines bytes)

def writtenTable (format : TableFormat) (table : Table) : String :=
  String.join ((table.header.columns :: table.rows).map format.writtenRow)

end TableFormat
end PlainTables
