import PlainTables.Answer.Basic
import PlainTables.Database.Tables
import PlainTables.Statement.Form

/-! Running a statement on one database. -/
namespace PlainTables.Database

/-- A new database is made beside the given one, which stays the same. -/
def run (db : Database) (format : TableFormat) : Statement → FileAction Answer
  | .listTables => do return .tables (← db.tables)
  | .useDatabase name => do
    let _ ← openIn (db.root.parent?.getD (Path.ofText ".")) name
    return .message ("Created database: " ++ name)
  | .dropTable name => do
    db.dropTable name
    return .message ("Dropped Table: " ++ name)
  | .createTable name columns => do
    db.createTable format name columns
    return .message ("Created Table: " ++ name)
  | .insert name fields rows => do
    return .rowCount (← db.insert format name fields rows) .written
  | .read name fields filter => do
    return .records (← db.read format name fields filter)
  | .readOrdered name fields filter key => do
    return .records (← db.readOrdered format name fields filter key)
  | .update name assignments filter => do
    return .rowCount (← db.update format name assignments filter) .updated
  | .delete name filter => do
    return .rowCount (← db.delete format name filter) .deleted

/-- Reads and runs one statement on a database with the usual table format. -/
def query (db : Database) (text : String) : FileAction Answer := do
  let statement ← FileAction.require (Statement.parse text)
  db.run .comma statement

end PlainTables.Database
