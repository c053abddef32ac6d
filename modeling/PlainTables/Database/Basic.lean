import PlainTables.Files.Action
import PlainTables.Name

/-! Databases: directories with one file for each table. -/
namespace PlainTables

structure Database where
  name : String
  root : Path
  deriving DecidableEq, Repr

namespace Database

def tableSuffix : String := ".csv"

def tablePath (db : Database) (table : String) : Path :=
  db.root.join (Path.ofText (table ++ tableSuffix))

/-- Where a table is written before it takes the place of the old one. -/
def scratchPath (db : Database) (table : String) : Path :=
  db.root.join (Path.ofText (table ++ tableSuffix ++ ".tmp"))

/-- The database in an existing directory. -/
def openAt (path : Path) : FileAction Database := do
  if (← get).isDirectory path then
    return ⟨path.fileName?.getD "", path⟩
  else throw (.noTable path.text)

/-- The database of that name below a directory, made if it does not exist. -/
def openIn (parent : Path) (name : String) : FileAction Database := do
  FileAction.require (Name.check .database name)
  let root := parent.join (Path.ofText name)
  if !(← get).isDirectory root then FileAction.makeDirectories root
  return ⟨name, root⟩

/-- The table a file holds, judged by its name. -/
def tableOfFile? (file : String) : Option String :=
  let suffix := tableSuffix.toList
  let size := file.toList.length - suffix.length
  let name := String.ofList (file.toList.take size)
  if file.toList.drop size = suffix ∧ Name.isValid name then some name else none

end Database
end PlainTables
