import PlainTables.Proofs.Database.Failure
import PlainTables.Proofs.Table.Storable
import PlainTables.Proofs.Text.Bytes

/-! Changes of a stored table, by the names of its columns, and what is found in its file
afterwards. A file is written as lines and read as lines, so a table comes back unless a carriage
return stands at the end of one of them. -/
namespace PlainTables.Database

open Actions FileAction FileTree

variable {db : Database} {format : TableFormat} {name text : String} {tree : FileTree}
  {place : Location} {table : Table}

/-! ### Texts in files -/

/-- The file of a table, and the text in it. -/
def HasText (db : Database) (name : String) (tree : FileTree) (place : Location) (text : String) :
    Prop :=
  tree.find (db.tablePath name) = .ok (place,.file text.toUTF8)

theorem loadText_of_hasText (stored : HasText db name tree place text) :
    db.loadText format name tree =
      (require (format.tableOfText name text) >>= fun table => pure (table,text)) tree := by
  have seen : ask (·.readFile (db.tablePath name)) (orNoTable name) tree = .ok text.toUTF8 tree :=
    ask_eq_ok.mpr ⟨readFile_eq_ok.mpr ⟨place,stored⟩,rfl⟩
  rw [loadText,bind_of_ok seen,Text.fromUTF8?_toUTF8]

theorem load_of_hasText (stored : HasText db name tree place text) :
    db.load format name tree = require (format.tableOfText name text) tree := by
  rw [load]
  cases read : format.tableOfText name text with
  | error fault =>
    apply bind_of_error
    rw [loadText_of_hasText stored,read]
    rfl
  | ok table =>
    have loaded : db.loadText format name tree = .ok (table,text) tree := by
      rw [loadText_of_hasText stored,read]
      rfl
    rw [bind_of_ok loaded]
    rfl

theorem load_eq_ok_iff (stored : HasText db name tree place text) :
    db.load format name tree = .ok table tree ↔ format.tableOfText name text = .ok table := by
  rw [load_of_hasText stored,require_eq_ok,and_iff_left rfl]

theorem hasText_of_loadText (loaded : db.loadText format name tree = .ok (table,text) tree) :
    (∃ place, HasText db name tree place text) ∧ format.tableOfText name text = .ok table := by
  obtain ⟨-,⟨place,bytes,file,decoded⟩,read⟩ := loadText_eq_ok.mp loaded
  rw [Text.eq_toUTF8 decoded] at file
  exact ⟨⟨place,file⟩,read⟩

/-! ### Inserting -/

/-- The text of a table with further rows behind it. -/
def extended (format : TableFormat) (text : String) (rows : List Row) : String :=
  text ++ (Text.closing text ++ String.join (rows.map format.writtenRow))

variable {fields : List String} {rows : List Row}

theorem findIdx?_widths :
    rows.findIdx? (fun row => row.length ≠ fields.length) = none ↔
      ∀ row ∈ rows, row.length = fields.length := by
  simp [List.findIdx?_eq_none_iff]

theorem insert_of_fits (fits : ∀ row ∈ rows, row.length = fields.length)
    (stored : HasText db name tree place text) (read : format.tableOfText name text = .ok table) :
    db.insert format name fields rows tree = (do
      let places ← require (fieldPlaces table.header [] fields)
      let built ← require (rows.mapM (alignedRow format table.header places))
      if built = [] then return 0
      let added := Text.closing text ++ String.join (built.map format.writtenRow)
      change (·.appendFile (db.tablePath name) added.toUTF8) .io
      return built.length) tree := by
  have loaded : db.loadText format name tree = .ok (table,text) tree := by
    rw [loadText_of_hasText stored,read]
    rfl
  simp only [insert,findIdx?_widths.mpr fits]
  rw [bind_of_ok loaded]
  rfl

theorem insert_of_fault {fault : Fault} (fits : ∀ row ∈ rows, row.length = fields.length)
    (stored : HasText db name tree place text) (read : format.tableOfText name text = .ok table)
    (refused : table.header.checkInserted format fields rows = .error fault) :
    db.insert format name fields rows tree = .error fault tree := by
  rw [insert_of_fits fits stored read,Header.fieldPlaces_eq]
  rw [Header.checkInserted] at refused
  cases checked : table.header.checkFields [] fields with
  | error cause =>
    rw [checked] at refused
    cases refused
    rfl
  | ok _ =>
    have places : require (Except.map (fun _ => table.header.fieldsPlaced fields) (.ok ()))
        tree = .ok (table.header.fieldsPlaced fields) tree := rfl
    rw [checked] at refused
    have values : (rows.forM fun row => row.forM format.checkValue) = .error fault := refused
    rw [bind_of_ok places,Table.mapM_alignedRow format checked fits,values]
    rfl

theorem insert_of_checked (fits : ∀ row ∈ rows, row.length = fields.length)
    (stored : HasText db name tree place text) (read : format.tableOfText name text = .ok table)
    (checked : table.header.checkInserted format fields rows = .ok ()) :
    db.insert format name fields rows tree = .ok rows.length (if rows = [] then tree else
      tree.put place (.file
        (extended format text (rows.map (table.header.aligned fields))).toUTF8)) := by
  obtain ⟨_,fieldsKnown,values⟩ := check_eq_ok.mp checked
  have places : require (Except.map (fun _ => table.header.fieldsPlaced fields) (.ok ()))
      tree = .ok (table.header.fieldsPlaced fields) tree := rfl
  have built : require (Except.map (fun _ => rows.map (table.header.aligned fields)) (.ok ()))
      tree = .ok (rows.map (table.header.aligned fields)) tree := rfl
  rw [insert_of_fits fits stored read,Header.fieldPlaces_eq,fieldsKnown,bind_of_ok places,
    Table.mapM_alignedRow format fieldsKnown fits,values,bind_of_ok built]
  by_cases empty : rows = []
  · subst empty
    rfl
  have filled : rows.map (table.header.aligned fields) ≠ [] := by simpa using empty
  have appended : ∀ added : String, change (·.appendFile (db.tablePath name) added.toUTF8) .io tree =
      .ok () (tree.put place (.file (text ++ added).toUTF8)) := by
    intro added
    refine change_eq_ok.mpr (appendFile_eq_ok.mpr ⟨place,_,stored,?_⟩)
    simp
  simp only [if_neg filled,if_neg empty]
  rw [bind_of_ok (appended _),List.length_map]
  rfl

/-- A text is found where it is written. -/
theorem hasText_written (located : tree.locate (db.tablePath name) = .ok place)
    (free : tree.node? place ≠ some .directory) (later : String) :
    HasText db name (tree.put place (.file later.toUTF8)) place later :=
  find_put (.file later.toUTF8) located free

theorem hasText_put {later : String} (stored : HasText db name tree place text) :
    HasText db name (tree.put place (.file later.toUTF8)) place later := by
  obtain ⟨located,node⟩ := find_eq_ok.mp stored
  exact hasText_written located (by simp [node]) later

/-- Inserted rows are found behind the old ones, unless they had to close a last line that ends
with a carriage return. -/
theorem load_inserted_iff (noFeed : format.delimiter ≠ '\n') (noReturn : format.delimiter ≠ '\r')
    (stored : HasText db name tree place text) (read : format.tableOfText name text = .ok table)
    (checked : table.header.checkInserted format fields rows = .ok ()) {after : FileTree}
    (left : after = if rows = [] then tree else tree.put place (.file
      (extended format text (rows.map (table.header.aligned fields))).toUTF8)) :
    db.load format name after = .ok (table.inserted fields rows) after ↔
      rows = [] ∨ text.toList.getLast? ≠ some '\r' := by
  by_cases empty : rows = []
  · subst empty
    rw [if_pos rfl] at left
    subst left
    have same : table.inserted fields [] = table := by simp [Table.inserted]
    simp [same,load_eq_ok_iff stored,read]
  rw [if_neg empty] at left
  subst left
  have storable := TableFormat.storable_of_checkInserted checked
  have each : ∀ row ∈ rows.map (table.header.aligned fields),
      ∀ cell ∈ row, format.isStorable cell = true := by
    intro row member
    obtain ⟨values,inside,rfl⟩ := List.mem_map.mp member
    exact storable values inside
  rw [load_eq_ok_iff (hasText_put stored),or_iff_right empty]
  apply TableFormat.tableOfText_append_iff noFeed noReturn read
  · intro row member
    obtain ⟨values,-,rfl⟩ := List.mem_map.mp member
    exact Header.length_aligned table.header fields values
  · intro row member
    exact TableFormat.separable_of_storable (each row member)
  · intro row member
    exact TableFormat.not_endsInReturn_of_storable (each row member)

/-! ### Updating and deleting -/

variable {assignments : List Assignment} {filter : Filter}

theorem update_of_fault {fault : Fault} (stored : HasText db name tree place text)
    (read : format.tableOfText name text = .ok table)
    (refused : table.header.checkAssignments format assignments = .error fault) :
    db.update format name assignments filter tree = .error fault tree := by
  have loaded : db.load format name tree = .ok table tree := (load_eq_ok_iff stored).mpr read
  rw [update,bind_of_ok loaded,Header.targets_eq,refused]
  rfl

theorem update_of_checked (stored : HasText db name tree place text)
    (read : format.tableOfText name text = .ok table)
    (checked : table.header.checkAssignments format assignments = .ok ())
    (balanced : filter.Balanced) :
    db.update format name assignments filter tree =
      (db.replace format name (table.updated assignments filter) >>= fun _ =>
        pure (table.holding filter).length) tree := by
  have loaded : db.load format name tree = .ok table tree := (load_eq_ok_iff stored).mpr read
  have known : ∀ a ∈ assignments, a.column ∈ table.header.columns := fun a member =>
    (Header.checkAssignments_eq_ok.mp checked a member).2
  have rectangular := (TableFormat.writable_of_tableOfText read).widths
  have places : require (Except.map (fun _ => table.header.placed assignments) (.ok ()))
      tree = .ok (table.header.placed assignments) tree := rfl
  have bound : require (Except.ok (filter.placed table.header)) tree =
      .ok (filter.placed table.header) tree := rfl
  rw [update,bind_of_ok loaded,Header.targets_eq,checked,bind_of_ok places,
    Filter.bind_missing balanced,bind_of_ok bound]
  simp only [Table.map_assign rectangular known,Table.filter_accepts]

theorem delete_of_hasText (stored : HasText db name tree place text)
    (read : format.tableOfText name text = .ok table) (balanced : filter.Balanced) :
    db.delete format name filter tree =
      (db.replace format name (table.deleted filter) >>= fun _ =>
        pure (table.holding filter).length) tree := by
  have loaded : db.load format name tree = .ok table tree := (load_eq_ok_iff stored).mpr read
  have bound : require (Except.ok (filter.placed table.header)) tree =
      .ok (filter.placed table.header) tree := rfl
  rw [delete,bind_of_ok loaded,Filter.bind_missing balanced,bind_of_ok bound]
  simp only [Table.filter_not_accepts,Table.filter_accepts]

theorem hasText_replaced {beside : Location} {later : String}
    (stored : HasText db name tree place text) (free : tree.node? beside ≠ some .directory) :
    HasText db name (tree.replaced beside place later.toUTF8) place later := by
  obtain ⟨located,node⟩ := find_eq_ok.mp stored
  have freePlace : tree.node? place ≠ some .directory := by simp [node]
  exact find_eq_ok.mpr ⟨(keepsDirectories_replaced _ free freePlace).locate located,
    node?_put_same _ _ (ne_nil_of_not_directory freePlace)⟩

theorem writable_updated (writable : format.Writable table)
    (checked : table.header.checkAssignments format assignments = .ok ()) (filter : Filter) :
    format.Writable (table.updated assignments filter) := by
  refine ⟨writable.filled,Table.rectangular_updated writable.widths assignments filter,
    writable.header,?_⟩
  intro row member
  obtain ⟨old,inside,rfl⟩ := List.mem_map.mp member
  have before := writable.rows old inside
  split
  · intro cell member
    rcases Header.mem_overwritten member with ⟨a,assigned,rfl⟩ | kept
    · obtain ⟨delimiter,feed,-⟩ := TableFormat.isStorable_iff.mp
        (Header.checkAssignments_eq_ok.mp checked a assigned).1
      exact ⟨delimiter,feed⟩
    · exact before cell kept
  · exact before

theorem writable_deleted (writable : format.Writable table) (filter : Filter) :
    format.Writable (table.deleted filter) :=
  ⟨writable.filled,Table.rectangular_deleted writable.widths filter,writable.header,
    fun row member => writable.rows row (List.mem_filter.mp member).1⟩

/-- A replaced table comes back exactly if no line of it ends with a carriage return. -/
theorem load_replaced_iff (noFeed : format.delimiter ≠ '\n') (noReturn : format.delimiter ≠ '\r')
    {beside : Location} (stored : HasText db name tree place text)
    (free : tree.node? beside ≠ some .directory) (writable : format.Writable table) :
    db.load format name (tree.replaced beside place (format.writtenTable table).toUTF8) =
        .ok table (tree.replaced beside place (format.writtenTable table).toUTF8) ↔
      ∀ row ∈ table.header.columns :: table.rows, ¬TableFormat.EndsInReturn row := by
  rw [load_eq_ok_iff (hasText_replaced stored free)]
  exact TableFormat.tableOfText_writtenTable_iff noFeed noReturn writable

/-! ### Changes that succeed -/

section Done

variable {after : FileTree} {n : Nat} (stored : HasText db name tree place text)
  (read : format.tableOfText name text = .ok table)

/-- The rows are counted as they are given, and an insertion fails before it reads anything if one
of them is too short or too long. -/
theorem fits_of_insert (run : db.insert format name fields rows tree = .ok n after) :
    ∀ row ∈ rows, row.length = fields.length := by
  cases found : rows.findIdx? (fun row => row.length ≠ fields.length) with
  | none => exact findIdx?_widths.mp found
  | some i =>
    simp only [insert,found] at run
    cases run

theorem loaded_of_insert (run : db.insert format name fields rows tree = .ok n after) :
    ∃ table text, db.loadText format name tree = .ok (table,text) tree := by
  simp only [insert,findIdx?_widths.mpr (fits_of_insert run)] at run
  obtain ⟨⟨table,text⟩,_,loaded,-⟩ := bind_eq_ok.mp run
  obtain rfl := (loadText_looksOnly db format name).of_ok loaded
  exact ⟨table,text,loaded⟩

include stored

theorem replace_done {count : Nat}
    (run : (db.replace format name table >>= fun _ => pure count) tree = .ok n after) :
    n = count ∧ ∃ beside, tree.node? beside ≠ some .directory ∧
      after = tree.replaced beside place (format.writtenTable table).toUTF8 := by
  obtain ⟨_,replaced,rfl⟩ := bind_pure_eq_ok.mp run
  rcases replace_of_found format stored table with ⟨beside,-,free,done⟩ | ⟨cause,-,failed⟩
  · rw [done] at replaced
    cases replaced
    exact ⟨rfl,beside,free,rfl⟩
  · rw [failed] at replaced
    cases replaced

include read

theorem insert_done (run : db.insert format name fields rows tree = .ok n after) :
    table.header.checkInserted format fields rows = .ok () ∧ n = rows.length ∧
      after = if rows = [] then tree else tree.put place
        (.file (extended format text (rows.map (table.header.aligned fields))).toUTF8) := by
  have fits := fits_of_insert run
  cases checked : table.header.checkInserted format fields rows with
  | error fault =>
    rw [insert_of_fault fits stored read checked] at run
    cases run
  | ok _ =>
    rw [insert_of_checked fits stored read checked] at run
    cases run
    exact ⟨rfl,rfl,rfl⟩

theorem update_done (run : db.update format name assignments filter tree = .ok n after) :
    table.header.checkAssignments format assignments = .ok () ∧ n = (table.holding filter).length ∧
      ∃ beside, tree.node? beside ≠ some .directory ∧ after = tree.replaced beside place
        (format.writtenTable (table.updated assignments filter)).toUTF8 := by
  cases checked : table.header.checkAssignments format assignments with
  | error fault =>
    rw [update_of_fault stored read checked] at run
    cases run
  | ok _ =>
    have balanced : filter.Balanced := by
      obtain ⟨_,_,_,later⟩ := bind_eq_ok.mp run
      obtain ⟨_,_,_,later⟩ := bind_eq_ok.mp later
      obtain ⟨_,_,bound,_⟩ := bind_eq_ok.mp later
      exact Filter.balanced_of_bind (require_eq_ok.mp bound).1
    rw [update_of_checked stored read checked balanced] at run
    exact ⟨rfl,replace_done stored run⟩

theorem delete_done (run : db.delete format name filter tree = .ok n after) :
    n = (table.holding filter).length ∧ ∃ beside, tree.node? beside ≠ some .directory ∧
      after = tree.replaced beside place (format.writtenTable (table.deleted filter)).toUTF8 := by
  have balanced : filter.Balanced := by
    obtain ⟨_,_,_,later⟩ := bind_eq_ok.mp run
    obtain ⟨_,_,bound,_⟩ := bind_eq_ok.mp later
    exact Filter.balanced_of_bind (require_eq_ok.mp bound).1
  rw [delete_of_hasText stored read balanced] at run
  exact replace_done stored run

end Done

/-- An insertion that succeeds read a table, and all that it was given passed its checks. -/
theorem insert_eq_ok_iff {n : Nat} {after : FileTree} : db.insert format name fields rows tree = .ok n after ↔
    (∀ row ∈ rows, row.length = fields.length) ∧ ∃ table text place,
      HasText db name tree place text ∧ format.tableOfText name text = .ok table ∧
        table.header.checkInserted format fields rows = .ok () ∧ n = rows.length ∧
          after = if rows = [] then tree else tree.put place
            (.file (extended format text (rows.map (table.header.aligned fields))).toUTF8) := by
  constructor
  · intro run
    obtain ⟨table,text,loaded⟩ := loaded_of_insert run
    obtain ⟨⟨place,stored⟩,read⟩ := hasText_of_loadText loaded
    exact ⟨fits_of_insert run,table,text,place,stored,read,insert_done stored read run⟩
  · rintro ⟨fits,table,text,place,stored,read,checked,rfl,rfl⟩
    exact insert_of_checked fits stored read checked

end PlainTables.Database
