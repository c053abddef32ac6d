import Mathlib.Data.String.Basic
import PlainTables.Proofs.Database.Listing
import PlainTables.Proofs.Workspace.Holds

/-! Every operation on a stored table does what its counterpart does to a table as a value. It says
the same and fails for the same reason, and the files hold the tables as they are afterwards. -/
namespace PlainTables

open Actions FileAction FileTree

variable {format : TableFormat} {tree : FileTree} {databases : Databases} {name : String}
  {tables : Tables} {t : String} {fault : Fault}

/-- A database below `data`. -/
def Database.ofName (name : String) : Database := ⟨name,.ofDatabase name⟩

/-! ### Where a table is -/

namespace Holds

theorem isStep (holds : Holds format tree databases) (known : databases.lookup name = some tables) :
    Path.IsStep name :=
  Path.isStep_of_valid (holds.names name (mem_of_lookup known)).1

theorem find_database (holds : Holds format tree databases) (known : name ∈ databases) :
    tree.find (.ofDatabase name) = .ok ([name,"data","work"],.directory) := by
  obtain ⟨valid,fits⟩ := holds.names name known
  refine find_eq_ok.mpr ⟨?_,by rw [holds.directory,if_pos known]⟩
  rw [locate_ofDatabase (holds.hasData known) (Path.isStep_of_valid valid)]
  exact if_neg (Nat.not_lt.mpr (Room.ofFiles_database.mp fits))

theorem tablePath (holds : Holds format tree databases)
    (known : databases.lookup name = some tables) (valid : Name.isValid t = true) :
    (Database.ofName name).tablePath t = .ofFile name (t ++ Database.tableSuffix) :=
  Path.join_ofDatabase (holds.isStep known).filled (Path.isStep_table valid)

theorem scratchPath (holds : Holds format tree databases)
    (known : databases.lookup name = some tables) (valid : Name.isValid t = true) :
    (Database.ofName name).scratchPath t =
      .ofFile name (t ++ Database.tableSuffix ++ ".tmp") :=
  Path.join_ofDatabase (holds.isStep known).filled (Path.isStep_scratch valid)

theorem locate (holds : Holds format tree databases) (known : databases.lookup name = some tables)
    {file : String} (step : Path.IsStep file) :
    tree.locate (.ofFile name file) =
      if file.utf8ByteSize ≤ maxNameBytes then .ok [file,name,"data","work"]
      else .error .invalidFilename := by
  obtain ⟨valid,fits⟩ := holds.names name (mem_of_lookup known)
  have directory : tree.node? [name,"data","work"] = some .directory := by
    rw [holds.directory,if_pos (mem_of_lookup known)]
  rw [locate_ofFile (holds.hasData (mem_of_lookup known)) directory (holds.isStep known)
    (Room.ofFiles_database.mp fits) step]
  simp only [← Nat.not_le,ite_not]

theorem locate_table (holds : Holds format tree databases)
    (known : databases.lookup name = some tables) (valid : Name.isValid t = true) :
    tree.locate ((Database.ofName name).tablePath t) =
      if Room.ofFiles.table t then .ok [t ++ Database.tableSuffix,name,"data","work"]
      else .error .invalidFilename := by
  rw [holds.tablePath known valid,holds.locate known (Path.isStep_table valid)]
  exact if_congr Room.ofFiles_table.symm rfl rfl

theorem locate_scratch (holds : Holds format tree databases)
    (known : databases.lookup name = some tables) (valid : Name.isValid t = true) :
    tree.locate ((Database.ofName name).scratchPath t) =
      if Database.FitsScratch t then .ok [t ++ Database.tableSuffix ++ ".tmp",name,"data","work"]
      else .error .invalidFilename := by
  rw [holds.scratchPath known valid]
  exact holds.locate known (Path.isStep_scratch valid)

theorem node?_table (holds : Holds format tree databases)
    (known : databases.lookup name = some tables) (valid : Name.isValid t = true) :
    tree.node? [t ++ Database.tableSuffix,name,"data","work"] =
      (tables.lookup t).map fun found => .file (format.writtenTable found).toUTF8 := by
  rw [holds.file,fileOf?,known,Option.bind_some,
    Database.tableOfFile?_eq_some.mpr ⟨rfl,valid⟩,Option.bind_some]

/-- A scratch file is not the file of a table, so there is none. -/
theorem node?_scratch (holds : Holds format tree databases) :
    tree.node? [t ++ Database.tableSuffix ++ ".tmp",name,"data","work"] = none := by
  rw [holds.file,fileOf?]
  cases databases.lookup name with
  | none => rfl
  | some tables =>
    rw [Option.bind_some]
    cases found : Database.tableOfFile? (t ++ Database.tableSuffix ++ ".tmp") with
    | none => rfl
    | some stem =>
      have ends := congrArg (fun file : String => file.toList.getLast?)
        (Database.tableOfFile?_eq_some.mp found).1
      simp [Database.tableSuffix] at ends

end Holds

/-! ### Finding a table -/

theorem Tables.find_eq_ok {room : Room} {found : Table} :
    tables.find room t = .ok found ↔ room.table t = true ∧ tables.lookup t = some found := by
  unfold Tables.find
  by_cases fits : room.table t = true
  · cases tables.lookup t <;> simp [fits]
  · simp [fits]

namespace Holds

theorem hasText (holds : Holds format tree databases) (known : databases.lookup name = some tables)
    (valid : Name.isValid t = true) {table : Table} (found : tables.find .ofFiles t = .ok table) :
    Database.HasText (.ofName name) t tree [t ++ Database.tableSuffix,name,"data","work"]
      (format.writtenTable table) := by
  obtain ⟨fits,here⟩ := Tables.find_eq_ok.mp found
  refine find_eq_ok.mpr ⟨?_,?_⟩
  · rw [holds.locate_table known valid,if_pos fits]
  · rw [holds.node?_table known valid,here,Option.map_some]

theorem find_error (holds : Holds format tree databases)
    (known : databases.lookup name = some tables) (valid : Name.isValid t = true)
    (refused : tables.find .ofFiles t = .error fault) :
    ∃ cause, tree.find ((Database.ofName name).tablePath t) = .error cause ∧
      Database.orNoTable t cause = fault := by
  have located := holds.locate_table known valid
  unfold Tables.find at refused
  split at refused
  · next fits =>
    rw [if_pos fits] at located
    cases here : tables.lookup t with
    | some table => simp [here] at refused
    | none =>
      rw [here] at refused
      cases refused
      refine ⟨.notFound,?_,rfl⟩
      have absent := holds.node?_table known valid
      rw [here,Option.map_none] at absent
      simp [FileTree.find,located,absent,bind,Except.bind]
  · next long =>
    rw [if_neg long] at located
    cases refused
    exact ⟨.invalidFilename,by simp [FileTree.find,located,bind,Except.bind],rfl⟩

theorem loadText_error (holds : Holds format tree databases)
    (known : databases.lookup name = some tables) (valid : Name.isValid t = true)
    (refused : tables.find .ofFiles t = .error fault) :
    (Database.ofName name).loadText format t tree = .error fault tree := by
  obtain ⟨cause,missing,same⟩ := holds.find_error known valid refused
  apply bind_of_error
  have read : tree.readFile ((Database.ofName name).tablePath t) = .error cause := by
    simp [FileTree.readFile,missing,bind,Except.bind]
  simp [ask,read,same]

theorem load_error (holds : Holds format tree databases)
    (known : databases.lookup name = some tables) (valid : Name.isValid t = true)
    (refused : tables.find .ofFiles t = .error fault) :
    (Database.ofName name).load format t tree = .error fault tree :=
  bind_of_error (holds.loadText_error known valid refused)

/-- What is known of a table that was found. -/
theorem kept (holds : Holds format tree databases) (known : databases.lookup name = some tables)
    {table : Table} (found : tables.find .ofFiles t = .ok table) : Kept format t table :=
  holds.tables name tables known t table (Tables.find_eq_ok.mp found).2

theorem tableOfText (noFeed : format.delimiter ≠ '\n') (noReturn : format.delimiter ≠ '\r')
    (holds : Holds format tree databases) (known : databases.lookup name = some tables)
    {table : Table} (found : tables.find .ofFiles t = .ok table) :
    format.tableOfText t (format.writtenTable table) = .ok table :=
  (holds.kept known found).storable.tableOfText_writtenTable noFeed noReturn t

theorem load (noFeed : format.delimiter ≠ '\n') (noReturn : format.delimiter ≠ '\r')
    (holds : Holds format tree databases) (known : databases.lookup name = some tables)
    (valid : Name.isValid t = true) {table : Table} (found : tables.find .ofFiles t = .ok table) :
    (Database.ofName name).load format t tree = .ok table tree :=
  (Database.load_eq_ok_iff (holds.hasText known valid found)).mpr
    (holds.tableOfText noFeed noReturn known found)

/-! ### The names of tables -/

theorem isFile_table (holds : Holds format tree databases)
    (known : databases.lookup name = some tables) (valid : Name.isValid t = true) {table : Table}
    (found : tables.find .ofFiles t = .ok table) :
    tree.isFile ((Database.ofName name).tablePath t) = true := by
  have stored := holds.hasText known valid found
  rw [Database.HasText] at stored
  rw [isFile,stored]

theorem rooted (holds : Holds format tree databases) (known : databases.lookup name = some tables) :
    (Database.ofName name).Rooted tree [name,"data","work"] := by
  obtain ⟨located,directory⟩ := find_eq_ok.mp (holds.find_database (mem_of_lookup known))
  exact ⟨located,directory⟩

theorem lists (holds : Holds format tree databases) (known : databases.lookup name = some tables) :
    (Database.ofName name).Lists tree (tables.keys.mergeSort (fun a b => a ≤ b)) := by
  refine ⟨List.sortedLE_mergeSort.sortedLT_of_nodup ?_,fun t => ?_⟩
  · exact (List.mergeSort_perm _ _).nodup_iff.mpr tables.nodupKeys
  rw [List.mem_mergeSort]
  constructor
  · intro inside
    obtain ⟨table,here⟩ := Option.isSome_iff_exists.mp (AList.lookup_isSome.mpr inside)
    have kept := holds.tables name tables known t table here
    exact ⟨kept.valid,
      holds.isFile_table known kept.valid (Tables.find_eq_ok.mpr ⟨kept.fits,here⟩)⟩
  · rintro ⟨valid,isFile⟩
    obtain ⟨-,bytes,node⟩ := ((holds.rooted known).isFile_table valid).mp isFile
    rw [holds.node?_table known valid] at node
    cases here : tables.lookup t with
    | none => simp [here] at node
    | some found => exact mem_of_lookup here

end Holds

/-! ### Operations -/

/-- The outcome of an action on one database, compared with what is expected of its tables. -/
def Refines {α : Type} (format : TableFormat) (databases : Databases) (name : String)
    (tree : FileTree) (result : EStateM.Result Fault FileTree α)
    (expected : Except Fault (α × Tables)) : Prop :=
  match expected with
  | .ok (a,tables) => ∃ after, result = .ok a after ∧ Holds format after (databases.insert name tables)
  | .error fault => result = .error fault tree

theorem isOk_bind_ok {α β : Type} (x : Except Fault α) (f : α → β) :
    (x >>= fun a => .ok (f a)).isOk = x.isOk := by
  cases x <;> rfl

theorem Refines.bind_pure {α β : Type} {x : FileAction α} {expected : Except Fault (α × Tables)}
    (f : α → β) (refines : Refines format databases name tree (x tree) expected) :
    Refines format databases name tree ((x >>= fun a => pure (f a)) tree)
      (expected >>= fun (a,tables) => .ok (f a,tables)) := by
  cases expected with
  | error fault => exact bind_of_error refines
  | ok pair =>
    obtain ⟨after,run,holds⟩ := refines
    exact ⟨after,bind_of_ok run,holds⟩

section Operations

variable (noFeed : format.delimiter ≠ '\n') (noReturn : format.delimiter ≠ '\r')
  (holds : Holds format tree databases) (known : databases.lookup name = some tables)
  (valid : Name.isValid t = true)

include holds known valid

theorem dropTable_refines :
    Refines format databases name tree ((Database.ofName name).dropTable t tree)
      ((tables.find .ofFiles t).map fun _ => ((),tables.erase t)) := by
  cases found : tables.find .ofFiles t with
  | error fault =>
    obtain ⟨cause,missing,same⟩ := holds.find_error known valid found
    have refused : tree.removeFile ((Database.ofName name).tablePath t) = .error cause := by
      simp [FileTree.removeFile,missing,bind,Except.bind]
    exact change_eq_error.mpr ⟨cause,refused,same.symm,rfl⟩
  | ok table =>
    refine ⟨_,change_eq_ok.mpr ?_,holds.remove known valid⟩
    exact removeFile_eq_ok.mpr ⟨_,_,holds.hasText known valid found,rfl⟩

theorem createTable_refines {columns : List String} (filled : columns ≠ []) :
    Refines format databases name tree ((Database.ofName name).createTable format t columns tree)
      ((tables.create .ofFiles format t columns).map ((),·)) := by
  unfold Database.createTable Tables.create
  cases made : Header.ofColumns columns with
  | error repeated => rfl
  | ok header =>
    dsimp only
    cases checked : header.columns.forM format.checkValue with
    | error fault => rfl
    | ok _ =>
      have passed : require (.ok ()) tree = .ok () tree := rfl
      rw [bind_of_ok passed]
      dsimp only [bind,Except.bind]
      have located := holds.locate_table known valid
      have node := holds.node?_table known valid
      split
      · next fits =>
        rw [if_pos fits] at located
        cases here : tables.lookup t with
        | some found =>
          rw [if_pos (mem_of_lookup here)]
          rw [here,Option.map_some] at node
          refine change_eq_error.mpr ⟨.alreadyExists,?_,rfl,rfl⟩
          simp [createFile,located,node,bind,Except.bind]
        | none =>
          rw [if_neg (AList.lookup_eq_none.mp here)]
          rw [here,Option.map_none] at node
          have width : 0 < header.width := by
            rw [Header.width,Header.ofColumns_eq_ok.mp made]
            exact List.length_pos_iff.mpr filled
          have kept : Kept format t ⟨header,[]⟩ := ⟨valid,fits,.created width checked⟩
          have text : format.writtenRow header.columns = format.writtenTable ⟨header,[]⟩ := by
            simp [TableFormat.writtenTable]
          refine ⟨_,change_eq_ok.mpr (createFile_eq_ok.mpr ⟨_,located,node,rfl⟩),?_⟩
          rw [text]
          exact holds.put known kept
      · next long =>
        rw [if_neg long] at located
        refine change_eq_error.mpr ⟨.invalidFilename,?_,rfl,rfl⟩
        simp [createFile,located,bind,Except.bind]

theorem replace_refines {table changed : Table} (found : tables.find .ofFiles t = .ok table)
    (room : Database.FitsScratch t) (storable : format.Storable changed) :
    Refines format databases name tree ((Database.ofName name).replace format t changed tree)
      (.ok ((),tables.insert t changed)) := by
  have located := holds.locate_scratch known valid
  rw [if_pos room] at located
  have absent : tree.node? [t ++ Database.tableSuffix ++ ".tmp",name,"data","work"] = none :=
    holds.node?_scratch
  rcases Database.replace_of_found format (holds.hasText known valid found) changed with
    ⟨beside,reached,-,run⟩ | ⟨cause,refused,-⟩
  · rw [located] at reached
    cases reached
    have kept : Kept format t changed := ⟨valid,(holds.kept known found).fits,storable⟩
    exact ⟨_,run,holds.replaced known kept absent⟩
  · simp [overwriteFile,located,absent,bind,Except.bind] at refused

omit valid in
theorem listTables_refines :
    Refines format databases name tree ((Database.ofName name).tables tree)
      (.ok (tables.keys.mergeSort (fun a b => a ≤ b),tables)) := by
  refine ⟨tree,?_,holds.keep known⟩
  exact ((holds.rooted known).tables_eq_ok holds.distinct).mpr ⟨rfl,holds.lists known⟩

omit valid in
/-- A check leaves tables and files as they were. -/
theorem require_refines {α : Type} (result : Except Fault α) :
    Refines format databases name tree (require result tree) (result.map (·,tables)) := by
  cases result with
  | error fault => rfl
  | ok a => exact ⟨tree,rfl,holds.keep known⟩

include noFeed noReturn

theorem read_refines (fields : List String) {filter : Filter} (balanced : filter.Balanced) :
    Refines format databases name tree ((Database.ofName name).read format t fields filter tree)
      ((tables.read .ofFiles t fields filter).map (·,tables)) := by
  unfold Tables.read
  cases found : tables.find .ofFiles t with
  | error fault => exact bind_of_error (holds.load_error known valid found)
  | ok table =>
    rw [Database.read,bind_of_ok (holds.load noFeed noReturn known valid found),
      Table.read_eq balanced]
    exact require_refines holds known _

theorem readOrdered_refines (fields : List String) {filter : Filter}
    (balanced : filter.Balanced) (key : SortKey) :
    Refines format databases name tree
      ((Database.ofName name).readOrdered format t fields filter key tree)
      ((tables.readOrdered .ofFiles t fields filter key).map (·,tables)) := by
  unfold Tables.readOrdered
  cases found : tables.find .ofFiles t with
  | error fault => exact bind_of_error (holds.load_error known valid found)
  | ok table =>
    rw [Database.readOrdered,bind_of_ok (holds.load noFeed noReturn known valid found),
      Table.readOrdered_eq balanced]
    exact require_refines holds known _

theorem update_refines (assignments : List Assignment) {filter : Filter} (balanced : filter.Balanced)
    (room : (tables.update .ofFiles format t assignments filter).isOk → Database.FitsScratch t) :
    Refines format databases name tree
      ((Database.ofName name).update format t assignments filter tree)
      (tables.update .ofFiles format t assignments filter) := by
  unfold Tables.update at room ⊢
  cases found : tables.find .ofFiles t with
  | error fault => exact bind_of_error (holds.load_error known valid found)
  | ok table =>
    have stored := holds.hasText known valid found
    have read := holds.tableOfText noFeed noReturn known found
    rw [found] at room
    dsimp only [bind,Except.bind] at room ⊢
    cases checked : table.header.checkAssignments format assignments with
    | error fault => exact Database.update_of_fault stored read checked
    | ok _ =>
      rw [checked] at room
      have storable := (holds.kept known found).storable.updated checked filter
      have replaced := Refines.bind_pure (fun _ => (table.holding filter).length)
        (replace_refines holds known valid found (room rfl) storable)
      rw [Database.update_of_checked stored read checked balanced]
      exact replaced

theorem delete_refines {filter : Filter} (balanced : filter.Balanced)
    (room : (tables.delete .ofFiles t filter).isOk → Database.FitsScratch t) :
    Refines format databases name tree ((Database.ofName name).delete format t filter tree)
      (tables.delete .ofFiles t filter) := by
  unfold Tables.delete at room ⊢
  cases found : tables.find .ofFiles t with
  | error fault => exact bind_of_error (holds.load_error known valid found)
  | ok table =>
    rw [found] at room
    have storable := (holds.kept known found).storable.deleted filter
    have replaced := Refines.bind_pure (fun _ => (table.holding filter).length)
      (replace_refines holds known valid found (room rfl) storable)
    rw [Database.delete_of_hasText (holds.hasText known valid found)
      (holds.tableOfText noFeed noReturn known found) balanced]
    exact replaced

theorem insert_refines (fields : List String) (rows : List Row) :
    Refines format databases name tree ((Database.ofName name).insert format t fields rows tree)
      (tables.insertRows .ofFiles format t fields rows) := by
  unfold Tables.insertRows
  cases widths : rows.findIdx? (fun row => row.length ≠ fields.length) with
  | some i =>
    have refused : (Database.ofName name).insert format t fields rows tree =
        .error (.rowWidth (i + 1)) tree := by
      simp only [Database.insert,widths]
      rfl
    exact refused
  | none =>
    have fits := Database.findIdx?_widths.mp widths
    dsimp only
    cases found : tables.find .ofFiles t with
    | error fault =>
      have refused : (Database.ofName name).insert format t fields rows tree =
          .error fault tree := by
        simp only [Database.insert,widths]
        exact bind_of_error (holds.loadText_error known valid found)
      exact refused
    | ok table =>
      have stored := holds.hasText known valid found
      have read := holds.tableOfText noFeed noReturn known found
      have kept := holds.kept known found
      dsimp only [bind,Except.bind]
      cases checked : table.header.checkInserted format fields rows with
      | error fault => exact Database.insert_of_fault fits stored read checked
      | ok _ =>
        have later : Kept format t (table.inserted fields rows) :=
          ⟨valid,kept.fits,kept.storable.inserted checked⟩
        refine ⟨_,Database.insert_of_checked fits stored read checked,?_⟩
        split
        · next empty =>
          have same : table.inserted fields rows = table := by simp [Table.inserted,empty]
          rw [same]
          exact holds.again known kept (Tables.find_eq_ok.mp found).2
        · have text : Database.extended format (format.writtenTable table)
              (rows.map (table.header.aligned fields)) =
                format.writtenTable (table.inserted fields rows) :=
            TableFormat.writtenTable_append table _
          rw [text]
          exact holds.put known later

/-! ### Statements -/

omit valid in
/-- One case for each kind of statement. -/
theorem run_refines {statement : Statement} (wellFormed : statement.WellFormed)
    (other : ∀ name, statement ≠ .useDatabase name)
    (room : (tables.run .ofFiles format statement).isOk →
      ∀ t ∈ statement.replaced?, Database.FitsScratch t) :
    Refines format databases name tree ((Database.ofName name).run format statement tree)
      (tables.run .ofFiles format statement) := by
  cases statement with
  | useDatabase name => exact absurd rfl (other name)
  | listTables => exact Refines.bind_pure Answer.tables (listTables_refines holds known)
  | dropTable t =>
    have dropped := Refines.bind_pure (fun _ => Answer.message ("Dropped Table: " ++ t))
      (dropTable_refines holds known wellFormed)
    rwa [map_bind] at dropped
  | createTable t columns =>
    have created := Refines.bind_pure (fun _ => Answer.message ("Created Table: " ++ t))
      (createTable_refines holds known wellFormed.1 wellFormed.2)
    rwa [map_bind] at created
  | insert t fields rows =>
    exact Refines.bind_pure (Answer.rowCount · .written)
      (insert_refines noFeed noReturn holds known wellFormed fields rows)
  | read t fields filter =>
    have read := Refines.bind_pure Answer.records
      (read_refines noFeed noReturn holds known wellFormed.1 fields wellFormed.2)
    rwa [map_bind] at read
  | readOrdered t fields filter key =>
    have read := Refines.bind_pure Answer.records
      (readOrdered_refines noFeed noReturn holds known wellFormed.1 fields wellFormed.2 key)
    rwa [map_bind] at read
  | update t assignments filter =>
    rw [Tables.run,isOk_bind_ok] at room
    exact Refines.bind_pure (Answer.rowCount · .updated)
      (update_refines noFeed noReturn holds known wellFormed.1 assignments wellFormed.2
        fun done => room done t rfl)
  | delete t filter =>
    rw [Tables.run,isOk_bind_ok] at room
    exact Refines.bind_pure (Answer.rowCount · .deleted)
      (delete_refines noFeed noReturn holds known wellFormed.1 wellFormed.2
        fun done => room done t rfl)

end Operations

end PlainTables
