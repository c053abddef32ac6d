import PlainTables.Answer.Basic
import PlainTables.Text.Trim

/-! Layouts of an answer: aligned columns, comma-separated values, or JSON. Only records
have a layout of their own; every other answer is its plain lines. The columns are those of
the first record, and values beyond them are not shown. Aligned columns have a greatest
width, and records with a wider column have no such layout. -/
namespace PlainTables

inductive Layout where
  | table | csv | json
  deriving DecidableEq, Repr

namespace Layout

def word : Layout → String
  | table => "table"
  | csv => "csv"
  | json => "json"

def all : List Layout := [table, csv, json]

def ofWord? (text : String) : Option Layout := all.find? (fun layout => layout.word == text)

theorem ofWord?_word (layout : Layout) : ofWord? layout.word = some layout := by
  cases layout <;> decide

end Layout

/-- The width of each column in characters: that of its name, of its longest value, or the
least one, whichever is largest. -/
def columnWidths (least : Nat) (columns : List String) (rows : List (List String)) :
    List Nat :=
  columns.zipIdx.map fun (column, i) =>
    rows.foldl (fun width row => max width ((row[i]?.map String.length).getD 0))
      (max least column.length)

namespace Answer

/-! ### Aligned columns -/

def padded (width : Nat) (cell : String) : List Char :=
  cell.toList ++ List.replicate (width - cell.length) ' '

/-- One line of cells; the blanks at its end are left out. -/
def alignedLine (widths : List Nat) (cells : List String) : String :=
  String.ofList
    (Text.trimEnd (" | ".toList.intercalate ((cells.zip widths).map fun (c, w) => padded w c)))

/-- The widths of the aligned columns. -/
def tableWidths (records : List Record) : List Nat :=
  match records with
  | [] => []
  | first :: _ => columnWidths 0 first.columns (records.map Record.values)

/-- A width to pad to is a 16-bit number. -/
def greatestWidth : Nat := 65535

def ruleLine (widths : List Nat) : String :=
  "-+-".intercalate (widths.map fun w => String.ofList (List.replicate w '-'))

def alignedTable (records : List Record) : String :=
  match records with
  | [] => "(0 rows)"
  | first :: _ =>
    let widths := columnWidths 0 first.columns (records.map Record.values)
    "\n".intercalate
      (alignedLine widths first.columns :: ruleLine widths ::
        records.map (fun record => alignedLine widths record.values) ++
        ["(" ++ toString records.length ++ " rows)"])

/-! ### Comma-separated values -/

def needsQuotes (cell : String) : Bool :=
  cell.toList.any (fun c => c = ',' || c = '"' || c = '\n')

/-- A cell in quotes with its quotes doubled, if it has to be. -/
def quotedCell (cell : String) : List Char :=
  if needsQuotes cell then
    '"' :: cell.toList.flatMap (fun c => if c = '"' then ['"', '"'] else [c]) ++ ['"']
  else cell.toList

def commaLine (cells : List String) : List Char := [','].intercalate (cells.map quotedCell)

def commaSeparated (records : List Record) : String :=
  match records with
  | [] => ""
  | first :: _ =>
    String.ofList
      (['\n'].intercalate
        (commaLine first.columns :: records.map (fun record => commaLine record.values)))

/-! ### Any layout -/

def render (answer : Answer) (layout : Layout) : String :=
  match answer, layout with
  | .records found, .table => alignedTable found
  | .records found, .csv => commaSeparated found
  | .records found, .json => "[" ++ ",".intercalate (found.map Record.json) ++ "]"
  | other, _ => other.text

/-- Whether an answer has a layout. -/
def fits (answer : Answer) (layout : Layout) : Bool :=
  match answer, layout with
  | .records found, .table => (tableWidths found).all (· ≤ greatestWidth)
  | _, _ => true

/-- What is printed of an answer, if it has that layout. -/
def render? (answer : Answer) (layout : Layout) : Option String :=
  if answer.fits layout then some (answer.render layout) else none

end Answer
end PlainTables
