import Mathlib.Data.List.AList
import PlainTables.Answer.Basic
import PlainTables.Database.Basic
import PlainTables.Proofs.Table.Selected
import PlainTables.Statement.Form
import PlainTables.Workspace

/-! Catalogs: databases as values, without files and without places of columns. What a statement
answers, what it changes and the order of its faults are given here by names alone. -/
namespace PlainTables

/-! ### Names -/

namespace Name

/-- Letters are a name, however many they are. -/
theorem isValid_letters (n : Nat) : isValid (String.ofList (List.replicate (n + 1) 'a')) = true := by
  have letter : Unicode.isAlphabetic 'a' = true ∧ Unicode.isWordChar 'a' = true := by decide
  simp [isValid,List.replicate_succ,letter]

theorem size_letters (n : Nat) : (String.ofList (List.replicate n 'a')).utf8ByteSize = n := by
  induction n with
  | zero => rfl
  | succ n ih =>
    have letter : (String.ofList ['a']).utf8ByteSize = 1 := by decide
    rw [List.replicate_succ',String.ofList_append,String.utf8ByteSize_append,ih,letter]

end Name

/-- The names a store has room for: of databases and of tables. -/
structure Room where
  database : String → Bool
  table : String → Bool

namespace Room

def unlimited : Room := ⟨fun _ => true,fun _ => true⟩

/-- Names become names of directories and files. -/
def ofFiles : Room where
  database name := name.utf8ByteSize ≤ FileTree.maxNameBytes
  table name := (name ++ Database.tableSuffix).utf8ByteSize ≤ FileTree.maxNameBytes

theorem ofFiles_database {name : String} :
    ofFiles.database name = true ↔ name.utf8ByteSize ≤ FileTree.maxNameBytes :=
  decide_eq_true_iff

theorem ofFiles_table {name : String} :
    ofFiles.table name = true ↔
      (name ++ Database.tableSuffix).utf8ByteSize ≤ FileTree.maxNameBytes :=
  decide_eq_true_iff

/-- A name that there is no room for. -/
def refusal : Fault := .io .invalidFilename

end Room

/-- The file that a changed table is written to before it takes the place of the table's own file has a
longer name, and there is room for it. -/
def Database.FitsScratch (name : String) : Prop :=
  (name ++ tableSuffix ++ ".tmp").utf8ByteSize ≤ FileTree.maxNameBytes

instance (name : String) : Decidable (Database.FitsScratch name) := inferInstanceAs (Decidable (_ ≤ _))

/-- The table that a statement replaces by a changed one. -/
def Statement.replaced? : Statement → Option String
  | .update name _ _ | .delete name _ => some name
  | _ => none

/-! ### Tables as values -/

abbrev Tables := AList fun _ : String => Table

/-- The databases by name, and the selected one. -/
structure Catalog where
  selected : Option String
  databases : AList fun _ : String => Tables

namespace Tables

variable (room : Room) (format : TableFormat) (tables : Tables)

def find (name : String) : Except Fault Table :=
  if room.table name then
    match tables.lookup name with
    | some table => .ok table
    | none => .error (.noTable name)
  else .error Room.refusal

def create (name : String) (columns : List String) : Except Fault Tables :=
  match Header.ofColumns columns with
  | .error repeated => .error (.repeatedColumn repeated)
  | .ok header => do
    header.columns.forM format.checkValue
    if room.table name then
      if name ∈ tables then .error (.tableExists name)
      else .ok (tables.insert name ⟨header,[]⟩)
    else .error Room.refusal

def insertRows (name : String) (fields : List String) (rows : List Row) :
    Except Fault (Nat × Tables) :=
  match rows.findIdx? (fun row => row.length ≠ fields.length) with
  | some i => .error (.rowWidth (i + 1))
  | none => do
    let table ← tables.find room name
    table.header.checkInserted format fields rows
    .ok (rows.length,tables.insert name (table.inserted fields rows))

def update (name : String) (assignments : List Assignment) (filter : Filter) :
    Except Fault (Nat × Tables) := do
  let table ← tables.find room name
  table.header.checkAssignments format assignments
  .ok ((table.holding filter).length,tables.insert name (table.updated assignments filter))

def delete (name : String) (filter : Filter) : Except Fault (Nat × Tables) := do
  let table ← tables.find room name
  .ok ((table.holding filter).length,tables.insert name (table.deleted filter))

def read (name : String) (fields : List String) (filter : Filter) : Except Fault (List Record) := do
  let table ← tables.find room name
  table.header.checkSelected fields
  table.selected fields filter

/-- The sort column has to be among the selected ones. -/
def readOrdered (name : String) (fields : List String) (filter : Filter) (key : SortKey) :
    Except Fault (List Record) := do
  let table ← tables.find room name
  table.header.checkSelected fields
  if key.column ∈ table.header.selectedFields fields then
    let records ← table.selected fields filter
    .ok (key.sort records)
  else .error (.unknownOrderColumn key.column)

/-- Runs a statement that needs a database. -/
def run : Statement → Except Fault (Answer × Tables)
  | .listTables => .ok (.tables (tables.keys.mergeSort (fun a b => a ≤ b)),tables)
  | .useDatabase _ => .error .noDatabase
  | .dropTable name => do
    let _ ← tables.find room name
    .ok (.message ("Dropped Table: " ++ name),tables.erase name)
  | .createTable name columns => do
    let changed ← tables.create room format name columns
    .ok (.message ("Created Table: " ++ name),changed)
  | .insert name fields rows => do
    let (count,changed) ← tables.insertRows room format name fields rows
    .ok (.rowCount count .written,changed)
  | .read name fields filter => do
    let records ← tables.read room name fields filter
    .ok (.records records,tables)
  | .readOrdered name fields filter key => do
    let records ← tables.readOrdered room name fields filter key
    .ok (.records records,tables)
  | .update name assignments filter => do
    let (count,changed) ← tables.update room format name assignments filter
    .ok (.rowCount count .updated,changed)
  | .delete name filter => do
    let (count,changed) ← tables.delete room name filter
    .ok (.rowCount count .deleted,changed)

end Tables

namespace Catalog

variable (room : Room) (format : TableFormat)

def empty : Catalog := ⟨none,∅⟩

/-- The tables of a database; a new database has none. -/
def tablesOf (catalog : Catalog) (name : String) : Tables := (catalog.databases.lookup name).getD ∅

def useDatabase (catalog : Catalog) (name : String) : Except Fault Catalog := do
  Name.check .database name
  if room.database name then
    .ok ⟨some name,catalog.databases.insert name (catalog.tablesOf name)⟩
  else .error Room.refusal

def run (catalog : Catalog) (statement : Statement) : Except Fault (Answer × Catalog) :=
  match statement with
  | .useDatabase name => do
    let changed ← catalog.useDatabase room name
    .ok (.databaseSelected name,changed)
  | _ =>
    match catalog.selected with
    | none => .error .noDatabase
    | some name => do
      let (answer,tables) ← (catalog.tablesOf name).run room format statement
      .ok (answer,⟨some name,catalog.databases.insert name tables⟩)

/-- What a text says, and the catalog after it. A fault changes nothing. -/
def execute (catalog : Catalog) (text : String) : Except Fault Answer × Catalog :=
  match Statement.parse text >>= catalog.run room format with
  | .ok (answer,changed) => (.ok answer,changed)
  | .error fault => (.error fault,catalog)

/-- One text after the other, whether they fail or not. -/
def executeAll (catalog : Catalog) : List String → List (Except Fault Answer) × Catalog
  | [] => ([],catalog)
  | text :: later =>
    let (said,changed) := catalog.execute room format text
    let (rest,last) := executeAll changed later
    (said :: rest,last)

/-! ### Replaced tables -/

/-- The table that a text replaces by a changed one. A text that fails replaces none. -/
def replaced? (catalog : Catalog) (text : String) : Option String :=
  match Statement.parse text with
  | .ok statement => if (catalog.run room format statement).isOk then statement.replaced? else none
  | .error _ => none

/-- No text replaces a table whose name leaves no room for a scratch file. -/
def ReplacesWithRoom (catalog : Catalog) : List String → Prop
  | [] => True
  | text :: later =>
    (∀ name ∈ catalog.replaced? room format text, Database.FitsScratch name) ∧
      (catalog.execute room format text).2.ReplacesWithRoom later

theorem replaced?_eq_some {catalog : Catalog} {text name : String}
    (replaced : catalog.replaced? room format text = some name) :
    ∃ statement ∈ (Statement.parse text).toOption, statement.replaced? = some name := by
  unfold replaced? at replaced
  cases parsed : Statement.parse text with
  | error fault => simp [parsed] at replaced
  | ok statement =>
    simp only [parsed] at replaced
    split at replaced
    · exact ⟨statement,rfl,replaced⟩
    · cases replaced

/-- So it is with all texts that name no such table where they replace one. -/
theorem replacesWithRoom_of_names {texts : List String}
    (fits : ∀ text ∈ texts, ∀ statement ∈ (Statement.parse text).toOption,
      ∀ name ∈ statement.replaced?, Database.FitsScratch name) (catalog : Catalog) :
    catalog.ReplacesWithRoom room format texts := by
  induction texts generalizing catalog with
  | nil => trivial
  | cons text later ih =>
    obtain ⟨here,others⟩ := List.forall_mem_cons.mp fits
    refine ⟨fun name replaced => ?_,ih others _⟩
    obtain ⟨statement,parsed,same⟩ := replaced?_eq_some room format replaced
    exact here statement parsed name same

end Catalog

namespace Workspace

def executeAll (w : Workspace) : List String → List (Except Fault Answer) × Workspace
  | [] => ([],w)
  | text :: later =>
    let result := execute text w
    let (rest,last) := executeAll (Actions.left result) later
    (Actions.outcome result :: rest,last)

end Workspace
end PlainTables
