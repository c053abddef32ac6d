import PlainTables.Database.Basic
import PlainTables.Table.Format
import PlainTables.Table.Selection

/-! The tables of a database. Every operation looks at everything it needs before it writes,
and a table that is changed as a whole is written beside the old one first. -/
namespace PlainTables.Database

open FileAction (ask change attempt require)

/-- A missing table file is a missing table. -/
def orNoTable (name : String) : IoCause → Fault
  | .notFound => .noTable name
  | cause => .io cause

/-! ### Reading -/

/-- A table with the text of its file. -/
def loadText (db : Database) (format : TableFormat) (name : String) :
    FileAction (Table × String) := do
  let bytes ← ask (·.readFile (db.tablePath name)) (orNoTable name)
  match String.fromUTF8? bytes with
  | none => throw (.io .notUtf8)
  | some text =>
    let table ← require (format.tableOfText name text)
    return (table, text)

def load (db : Database) (format : TableFormat) (name : String) : FileAction Table := do
  return (← db.loadText format name).1

def read (db : Database) (format : TableFormat) (name : String) (fields : List String)
    (filter : Filter) : FileAction (List Record) := do
  let table ← db.load format name
  require (table.read fields filter)

def readOrdered (db : Database) (format : TableFormat) (name : String)
    (fields : List String) (filter : Filter) (key : SortKey) : FileAction (List Record) := do
  let table ← db.load format name
  require (table.readOrdered fields filter key)

/-- The names of the tables, in the order of their characters. A name whose file cannot be
looked up is left out. -/
def tables (db : Database) : FileAction (List String) := do
  let names ← ask (·.list db.root) .io
  let files ← get
  let found := (names.filterMap tableOfFile?).filter fun name => files.isFile (db.tablePath name)
  return found.mergeSort (fun a b => a ≤ b)

/-! ### Creating and dropping -/

def createTable (db : Database) (format : TableFormat) (name : String)
    (columns : List String) : FileAction Unit := do
  match Header.ofColumns columns with
  | .error repeated => throw (.repeatedColumn repeated)
  | .ok header =>
    require (header.columns.forM format.checkValue)
    change (·.createFile (db.tablePath name) (format.writtenRow header.columns).toUTF8) fun
      | .alreadyExists => .tableExists name
      | cause => .io cause

def dropTable (db : Database) (name : String) : FileAction Unit :=
  change (·.removeFile (db.tablePath name)) (orNoTable name)

/-! ### Inserting -/

/-- The places of the fields, which have to be different columns of the table. -/
def fieldPlaces (header : Header) (seen : List String) :
    List String → Except Fault (List Nat)
  | [] => .ok []
  | field :: later =>
    if field ∈ seen then .error (.repeatedField field)
    else
      match header.index? field with
      | none => .error (.unknownField field)
      | some place => do
        let places ← fieldPlaces header (field :: seen) later
        .ok (place :: places)

/-- A row with the given values at the given places and empty cells elsewhere. -/
def alignedRow (format : TableFormat) (header : Header) (places : List Nat)
    (values : List String) : Except Fault Row :=
  (places.zip values).foldlM (fun row (place, value) => do
    format.checkValue value
    .ok (row.set place value)) header.emptyRow

/-- Appends rows and counts them. A file whose last line is not closed gets its line feed
first. -/
def insert (db : Database) (format : TableFormat) (name : String) (fields : List String)
    (rows : List Row) : FileAction Nat := do
  match rows.findIdx? (fun row => row.length ≠ fields.length) with
  | some i => throw (.rowWidth (i + 1))
  | none =>
    let (table, text) ← db.loadText format name
    let places ← require (fieldPlaces table.header [] fields)
    let built ← require (rows.mapM (alignedRow format table.header places))
    if built = [] then return 0
    let gap := if text.toList.getLast? = some '\n' then "" else "\n"
    let added := gap ++ String.join (built.map format.writtenRow)
    change (·.appendFile (db.tablePath name) added.toUTF8) .io
    return built.length

/-! ### Replacing -/

/-- Puts a table in the place of the stored one. -/
def replace (db : Database) (format : TableFormat) (name : String) (table : Table) :
    FileAction Unit := do
  let scratch := db.scratchPath name
  let bytes := (format.writtenTable table).toUTF8
  let discard (fault : Fault) : FileAction Unit := do
    attempt (·.removeFile scratch)
    throw fault
  tryCatch (change (·.overwriteFile scratch bytes) .io) discard
  change (·.renameFile scratch (db.tablePath name)) .io

/-- The places and values of assignments. A value is checked before its column. -/
def targets (format : TableFormat) (header : Header) (assignments : List Assignment) :
    Except Fault (List (Nat × String)) :=
  assignments.mapM fun a => do
    format.checkValue a.value
    match header.index? a.column with
    | some place => .ok (place, a.value)
    | none => .error (.unknownAssignedColumn a.column)

/-- Later assignments to the same place win. -/
def assign (targets : List (Nat × String)) (row : Row) : Row :=
  targets.foldl (fun changed (place, value) => changed.set place value) row

/-- Changes the accepted rows and counts them. -/
def update (db : Database) (format : TableFormat) (name : String)
    (assignments : List Assignment) (filter : Filter) : FileAction Nat := do
  let table ← db.load format name
  let places ← require (targets format table.header assignments)
  let bound ← require (filter.bind table.header .missing)
  let rows := table.rows.map fun row => if bound.accepts row then assign places row else row
  db.replace format name { table with rows := rows }
  return (table.rows.filter bound.accepts).length

/-- Removes the accepted rows and counts them. -/
def delete (db : Database) (format : TableFormat) (name : String) (filter : Filter) :
    FileAction Nat := do
  let table ← db.load format name
  let bound ← require (filter.bind table.header .missing)
  let rows := table.rows.filter fun row => !bound.accepts row
  db.replace format name { table with rows := rows }
  return (table.rows.filter bound.accepts).length

end PlainTables.Database
