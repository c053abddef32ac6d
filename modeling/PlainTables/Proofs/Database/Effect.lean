import PlainTables.Proofs.Database.Stored

/-! What a statement that succeeds answers and does to files that hold tables. Where such files are is
told by the paths of its table; every other file is as it was, and the directories always are. -/
namespace PlainTables.Database

open Actions FileAction FileTree

variable {db : Database} {format : TableFormat} {tree after : FileTree} {name : String}
  {place : Location} {table : Table} {fields columns : List String} {rows : List Row}
  {assignments : List Assignment} {filter : Filter} {statement : Statement} {answer : Answer} {n : Nat}

/-! ### Operations that change files -/

theorem createTable_eq_ok {u : Unit} :
    db.createTable format name columns tree = .ok u after ↔
      ∃ header place, header.columns = columns ∧ columns.forM format.checkValue = .ok () ∧
        tree.locate (db.tablePath name) = .ok place ∧ tree.node? place = none ∧
        after = tree.put place (.file (format.writtenTable ⟨header,[]⟩).toUTF8) := by
  have text (header : Header) :
      format.writtenTable ⟨header,[]⟩ = format.writtenRow header.columns := by
    simp [TableFormat.writtenTable]
  simp only [text]
  constructor
  · intro run
    cases made : Header.ofColumns columns with
    | error repeated =>
      simp only [createTable,made] at run
      cases run
    | ok header =>
      simp only [createTable,made] at run
      obtain ⟨_,_,checked,written⟩ := bind_eq_ok.mp run
      obtain ⟨values,rfl⟩ := require_eq_ok.mp checked
      obtain ⟨place,located,absent,rfl⟩ := createFile_eq_ok.mp (change_eq_ok.mp written)
      have same := Header.ofColumns_eq_ok.mp made
      exact ⟨header,place,same,same ▸ values,located,absent,rfl⟩
  · rintro ⟨header,place,rfl,values,located,absent,rfl⟩
    simp only [createTable,Header.ofColumns_eq_ok.mpr (Eq.refl header.columns)]
    refine bind_eq_ok.mpr ⟨(),tree,require_eq_ok.mpr ⟨values,rfl⟩,change_eq_ok.mpr ?_⟩
    exact createFile_eq_ok.mpr ⟨place,located,absent,rfl⟩

theorem dropTable_eq_ok {u : Unit} :
    db.dropTable name tree = .ok u after ↔
      ∃ place bytes, tree.find (db.tablePath name) = .ok (place,.file bytes) ∧
        after = tree.remove place :=
  change_eq_ok.trans removeFile_eq_ok

section Stored

variable (noFeed : format.delimiter ≠ '\n') (noReturn : format.delimiter ≠ '\r')
  (stored : db.Stores format name tree place table)

include noFeed noReturn stored

theorem insert_eq_ok (filled : rows ≠ []) :
    db.insert format name fields rows tree = .ok n after ↔
      (∀ row ∈ rows, row.length = fields.length) ∧
        table.header.checkInserted format fields rows = .ok () ∧ n = rows.length ∧
        after = tree.put place (.file (format.writtenTable (table.inserted fields rows)).toUTF8) := by
  have read := stored.read noFeed noReturn
  have text : extended format (format.writtenTable table) (rows.map (table.header.aligned fields)) =
      format.writtenTable (table.inserted fields rows) := by
    rw [extended,TableFormat.writtenTable_append,Table.inserted]
  constructor
  · intro run
    obtain ⟨checked,rfl,rfl⟩ := insert_done stored.text read run
    exact ⟨fits_of_insert run,checked,rfl,by rw [if_neg filled,text]⟩
  · rintro ⟨fits,checked,rfl,rfl⟩
    rw [insert_of_checked fits stored.text read checked,if_neg filled,text]

theorem update_eq_ok (balanced : filter.Balanced) :
    db.update format name assignments filter tree = .ok n after ↔
      table.header.checkAssignments format assignments = .ok () ∧
        n = (table.holding filter).length ∧
        db.Rewrites format name place (table.updated assignments filter) tree after := by
  have read := stored.read noFeed noReturn
  cases checked : table.header.checkAssignments format assignments with
  | error fault =>
    rw [update_of_fault stored.text read checked]
    simp
  | ok _ =>
    rw [update_of_checked stored.text read checked balanced,bind_pure_eq_ok]
    simp only [replace_eq_ok stored,exists_const,true_and,eq_comm (a := n),and_comm]

theorem delete_eq_ok (balanced : filter.Balanced) :
    db.delete format name filter tree = .ok n after ↔
      n = (table.holding filter).length ∧
        db.Rewrites format name place (table.deleted filter) tree after := by
  rw [delete_of_hasText stored.text (stored.read noFeed noReturn) balanced,bind_pure_eq_ok]
  simp only [replace_eq_ok stored,exists_const,eq_comm (a := n),and_comm]

end Stored

/-! ### Effects -/

/-- The answer of a statement that succeeds and the files it leaves, by its kind. -/
inductive Effect (db : Database) (format : TableFormat) (tree : FileTree) :
    Statement → Answer → FileTree → Prop
  | listTables {names : List String} : Effect db format tree .listTables (.tables names) tree
  | read {name : String} {fields : List String} {filter : Filter} {records : List Record} :
    Effect db format tree (.read name fields filter) (.records records) tree
  | readOrdered {name : String} {fields : List String} {filter : Filter} {key : SortKey}
      {records : List Record} :
    Effect db format tree (.readOrdered name fields filter key) (.records records) tree
  | createTable {name : String} {header : Header} {place : Location} (filled : 0 < header.width)
      (values : header.columns.forM format.checkValue = .ok ())
      (located : tree.locate (db.tablePath name) = .ok place) (absent : tree.node? place = none) :
    Effect db format tree (.createTable name header.columns) (.message ("Created Table: " ++ name))
      (tree.put place (.file (format.writtenTable ⟨header,[]⟩).toUTF8))
  | dropTable {name : String} {place : Location} {bytes : ByteArray}
      (found : tree.find (db.tablePath name) = .ok (place,.file bytes)) :
    Effect db format tree (.dropTable name) (.message ("Dropped Table: " ++ name)) (tree.remove place)
  | insert {name : String} {fields : List String} {rows : List Row} {place : Location} {table : Table}
      (stored : db.Stores format name tree place table)
      (checked : table.header.checkInserted format fields rows = .ok ()) :
    Effect db format tree (.insert name fields rows) (.rowCount rows.length .written)
      (tree.put place (.file (format.writtenTable (table.inserted fields rows)).toUTF8))
  | update {name : String} {assignments : List Assignment} {filter : Filter} {place : Location}
      {table : Table} {after : FileTree} (stored : db.Stores format name tree place table)
      (checked : table.header.checkAssignments format assignments = .ok ())
      (rewrites : db.Rewrites format name place (table.updated assignments filter) tree after) :
    Effect db format tree (.update name assignments filter)
      (.rowCount (table.holding filter).length .updated) after
  | delete {name : String} {filter : Filter} {place : Location} {table : Table} {after : FileTree}
      (stored : db.Stores format name tree place table)
      (rewrites : db.Rewrites format name place (table.deleted filter) tree after) :
    Effect db format tree (.delete name filter) (.rowCount (table.holding filter).length .deleted) after

/-- Rows are inserted only behind a table that was read. -/
theorem stores_of_insert (noFeed : format.delimiter ≠ '\n') (noReturn : format.delimiter ≠ '\r')
    (only : OnlyTables format tree) (inserted : db.insert format name fields rows tree = .ok n after) :
    ∃ place table, db.Stores format name tree place table := by
  obtain ⟨table,text,loaded⟩ := loaded_of_insert inserted
  obtain ⟨place,stored,-⟩ := stores_of_loadText noFeed noReturn only loaded
  exact ⟨place,table,stored⟩

theorem effect_of_run (noFeed : format.delimiter ≠ '\n') (noReturn : format.delimiter ≠ '\r')
    (only : OnlyTables format tree) (proper : statement.Proper)
    (other : ∀ name, statement ≠ .useDatabase name)
    (run : db.run format statement tree = .ok answer after) :
    db.Effect format tree statement answer after := by
  cases statement with
  | useDatabase name => exact absurd rfl (other name)
  | listTables =>
    obtain ⟨_,listed,rfl⟩ := bind_pure_eq_ok.mp run
    rw [(tables_looksOnly db).of_ok listed]
    exact .listTables
  | read name fields filter =>
    obtain ⟨_,found,rfl⟩ := bind_pure_eq_ok.mp run
    rw [(read_looksOnly db _ _ _ _).of_ok found]
    exact .read
  | readOrdered name fields filter key =>
    obtain ⟨_,found,rfl⟩ := bind_pure_eq_ok.mp run
    rw [(readOrdered_looksOnly db _ _ _ _ _).of_ok found]
    exact .readOrdered
  | createTable name columns =>
    obtain ⟨_,created,rfl⟩ := bind_pure_eq_ok.mp run
    obtain ⟨header,place,rfl,values,located,absent,rfl⟩ := createTable_eq_ok.mp created
    exact .createTable (List.length_pos_iff.mpr proper.2.1) values located absent
  | dropTable name =>
    obtain ⟨_,dropped,rfl⟩ := bind_pure_eq_ok.mp run
    obtain ⟨place,bytes,found,rfl⟩ := dropTable_eq_ok.mp dropped
    exact .dropTable found
  | insert name fields rows =>
    obtain ⟨n,inserted,rfl⟩ := bind_pure_eq_ok.mp run
    obtain ⟨place,table,stored⟩ := stores_of_insert noFeed noReturn only inserted
    obtain ⟨-,checked,rfl,rfl⟩ := (insert_eq_ok noFeed noReturn stored proper.2.2.1).mp inserted
    exact .insert stored checked
  | update name assignments filter =>
    obtain ⟨n,updated,rfl⟩ := bind_pure_eq_ok.mp run
    obtain ⟨table,_,loaded,-⟩ := bind_eq_ok.mp updated
    obtain ⟨-,place,stored⟩ := stores_of_load noFeed noReturn only loaded
    obtain ⟨checked,rfl,rewrites⟩ :=
      (update_eq_ok noFeed noReturn stored proper.2.2.balanced).mp updated
    exact .update stored checked rewrites
  | delete name filter =>
    obtain ⟨n,deleted,rfl⟩ := bind_pure_eq_ok.mp run
    obtain ⟨table,_,loaded,-⟩ := bind_eq_ok.mp deleted
    obtain ⟨-,place,stored⟩ := stores_of_load noFeed noReturn only loaded
    obtain ⟨rfl,rewrites⟩ := (delete_eq_ok noFeed noReturn stored proper.2.balanced).mp deleted
    exact .delete stored rewrites

namespace Effect

variable (effect : db.Effect format tree statement answer after)

include effect

theorem sameDirectories : SameDirectories tree after := by
  cases effect with
  | listTables | read | readOrdered => exact .refl tree
  | createTable _ _ _ absent => exact .put (by simp [absent])
  | dropTable found => exact .remove (by simp [(find_eq_ok.mp found).2])
  | insert stored _ => exact .put stored.free
  | update stored _ rewrites | delete stored rewrites => exact rewrites.sameDirectories stored

theorem onlyTables (only : OnlyTables format tree) : OnlyTables format after := by
  cases effect with
  | listTables | read | readOrdered => exact only
  | createTable filled values _ _ => exact only.put (.created filled values)
  | dropTable _ => exact only.remove _
  | insert stored checked => exact only.put (stored.storable.inserted checked)
  | update stored checked rewrites =>
    exact rewrites.onlyTables only (stored.storable.updated checked _)
  | delete stored rewrites => exact rewrites.onlyTables only (stored.storable.deleted _)

end Effect

/-- A table keeps its columns through a statement on any database, unless it is dropped: a file that
was there is not created, and what is inserted, updated or deleted leaves the header. -/
theorem Effect.keeps_columns (noFeed : format.delimiter ≠ '\n') (noReturn : format.delimiter ≠ '\r')
    {other : Database} (effect : other.Effect format tree statement answer after)
    (proper : statement.Proper) (stored : db.Stores format name tree place table)
    (undropped : ∀ target, statement = .dropTable target →
      tree.locate (other.tablePath target) ≠ .ok place)
    (aside : ∀ target, Name.isValid target = true →
      tree.locate (other.scratchPath target) ≠ .ok place) :
    ∃ found, db.Stores format name after place found ∧ found.header = table.header := by
  have directories := effect.sameDirectories
  have table_of_place {target : String} {place' : Location} {table' : Table} (same : place' = place)
      (stored' : other.Stores format target tree place' table') : table' = table := by
    subst same
    have nodes := stored'.node.symm.trans stored.node
    simp only [Option.some.injEq,Node.file.injEq] at nodes
    exact stored'.storable.unique noFeed noReturn stored.storable nodes
  have rewritten {target : String} {place' : Location} {table' changed : Table}
      (valid : Name.isValid target = true) (stored' : other.Stores format target tree place' table')
      (storable : format.Storable changed) (same : changed.header = table'.header)
      (rewrites : other.Rewrites format target place' changed tree after) :
      ∃ found, db.Stores format name after place found ∧ found.header = table.header := by
    obtain ⟨beside,located,free,rfl⟩ := rewrites
    by_cases here : place' = place
    · rw [table_of_place here stored'] at same
      subst here
      exact ⟨changed,⟨storable,hasText_replaced stored.text free⟩,same⟩
    · have apart : beside ≠ place := by
        rintro rfl
        exact aside target valid located
      refine ⟨table,stored.of_node directories ?_,rfl⟩
      exact changesWithin_replaced beside place' _ place (by simp [Ne.symm here,Ne.symm apart])
  cases effect with
  | listTables | read | readOrdered => exact ⟨table,stored,rfl⟩
  | @createTable _ _ place' _ _ _ absent =>
    have apart : place ≠ place' := by
      rintro rfl
      simp [stored.node] at absent
    exact ⟨table,stored.of_node directories (node?_put_other tree _ apart),rfl⟩
  | @dropTable target place' _ found =>
    have apart : place ≠ place' := by
      rintro rfl
      exact undropped target rfl (find_eq_ok.mp found).1
    exact ⟨table,stored.of_node directories (node?_remove_other tree apart),rfl⟩
  | @insert _ _ _ place' table' stored' checked =>
    by_cases here : place' = place
    · have same := table_of_place here stored'
      subst here same
      exact ⟨_,stored.put (stored'.storable.inserted checked),rfl⟩
    · exact ⟨table,stored.of_node directories (node?_put_other tree _ (Ne.symm here)),rfl⟩
  | update stored' checked rewrites =>
    exact rewritten proper.1 stored' (stored'.storable.updated checked _) rfl rewrites
  | delete stored' rewrites =>
    exact rewritten proper.1 stored' (stored'.storable.deleted _) rfl rewrites

end PlainTables.Database
