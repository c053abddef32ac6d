import PlainTables.Database.Run
import PlainTables.Script

/-! Workspaces: files together with a session that selects databases among them and runs
statements on the selected one. A script stops at the first statement that fails, and what
the statements before it did stays. -/
namespace PlainTables

/-- Where databases live, which of them is selected, and how tables are written. -/
structure Session where
  root : Path
  database : Option Database
  format : TableFormat
  deriving DecidableEq, Repr

structure Workspace where
  files : FileTree
  session : Session

abbrev WorkspaceAction := EStateM Fault Workspace

namespace Workspace

def start (files : FileTree) (root : Path) (format : TableFormat) : Workspace :=
  ⟨files, ⟨root, none, format⟩⟩

def databaseName? (w : Workspace) : Option String := w.session.database.map Database.name

/-- An action on the files alone. -/
def onFiles {α : Type} (action : FileAction α) : WorkspaceAction α := fun w =>
  match action w.files with
  | .ok a files => .ok a { w with files := files }
  | .error fault files => .error fault { w with files := files }

/-- Selects a database below the root, made if it does not exist. -/
def useDatabase (name : String) : WorkspaceAction Database := do
  let w ← get
  let db ← onFiles (Database.openIn w.session.root name)
  modify fun w => { w with session := { w.session with database := some db } }
  return db

/-- Runs one statement. Selecting a database needs none; every other statement does. -/
def run (statement : Statement) : WorkspaceAction Answer := do
  match statement with
  | .useDatabase name =>
    let _ ← useDatabase name
    return .databaseSelected name
  | _ =>
    let w ← get
    match w.session.database with
    | none => throw .noDatabase
    | some db => onFiles (db.run w.session.format statement)

def execute (text : String) : WorkspaceAction Answer := do
  match Statement.parse text with
  | .ok statement => run statement
  | .error fault => throw fault

def executeScript (text : String) : WorkspaceAction (List Answer) :=
  (Script.statements text).mapM execute

end Workspace
end PlainTables
