import PlainTables.Proofs.Database.Failure
import PlainTables.Proofs.Files.Below

/-! Which files a database operation changes. An operation on a table changes the file of that table,
and a replacement also the file beside it. -/
namespace PlainTables.Database

open Actions FileTree

variable {db : Database} {format : TableFormat} {name : String} {tree after : FileTree}

/-! ### One file -/

/-- At most the file of a table has changed. -/
def ChangesTable (db : Database) (name : String) (tree after : FileTree) : Prop :=
  ∃ place, tree.locate (db.tablePath name) = .ok place ∧ ChangesWithin tree after [place]

theorem createTable_changes {columns : List String} {u : Unit}
    (run : db.createTable format name columns tree = .ok u after) :
    ChangesTable db name tree after := by
  cases made : Header.ofColumns columns with
  | error repeated =>
    simp only [createTable,made] at run
    cases run
  | ok header =>
    simp only [createTable,made] at run
    obtain ⟨_,_,checked,written⟩ := bind_eq_ok.mp run
    rw [(require_looksOnly _).of_ok checked] at written
    obtain ⟨place,located,-,rfl⟩ := createFile_eq_ok.mp (change_eq_ok.mp written)
    exact ⟨place,located,changesWithin_put place _⟩

theorem dropTable_changes {u : Unit} (run : db.dropTable name tree = .ok u after) :
    ChangesTable db name tree after := by
  obtain ⟨place,_,found,rfl⟩ := removeFile_eq_ok.mp (change_eq_ok.mp run)
  exact ⟨place,(find_eq_ok.mp found).1,changesWithin_remove place⟩

theorem insert_changes {fields : List String} {rows : List Row} {n : Nat}
    (run : db.insert format name fields rows tree = .ok n after) :
    ChangesTable db name tree after := by
  cases found : rows.findIdx? (fun row => row.length ≠ fields.length) with
  | some i =>
    simp only [insert,found] at run
    cases run
  | none =>
    simp only [insert,found] at run
    obtain ⟨⟨table,text⟩,_,loaded,checks⟩ := bind_eq_ok.mp run
    obtain ⟨rfl,⟨place,_,file,-⟩,-⟩ := loadText_eq_ok.mp loaded
    obtain ⟨_,_,checked,builds⟩ := bind_eq_ok.mp checks
    rw [(require_looksOnly _).of_ok checked] at builds
    obtain ⟨_,_,built,last⟩ := bind_eq_ok.mp builds
    rw [(require_looksOnly _).of_ok built] at last
    split at last
    · cases last
      exact ⟨place,(find_eq_ok.mp file).1,changesWithin_refl _ _⟩
    · obtain ⟨_,_,written,returned⟩ := bind_eq_ok.mp last
      cases returned
      obtain ⟨place,_,file,rfl⟩ := appendFile_eq_ok.mp (change_eq_ok.mp written)
      exact ⟨place,(find_eq_ok.mp file).1,changesWithin_put place _⟩

/-! ### A file by way of another -/

/-- The file of a table was replaced by one that had been written beside it. -/
def ReplacesTable (db : Database) (name : String) (tree after : FileTree) : Prop :=
  ∃ place beside bytes, tree.locate (db.tablePath name) = .ok place ∧
    tree.locate (db.scratchPath name) = .ok beside ∧ tree.node? beside ≠ some .directory ∧
    after = tree.replaced beside place bytes

/-- The table that is replaced was loaded before. -/
theorem replace_changes {loaded table : Table} {u : Unit}
    (read : db.load format name tree = .ok loaded tree)
    (run : db.replace format name table tree = .ok u after) : ReplacesTable db name tree after := by
  obtain ⟨text,found⟩ := load_eq_ok.mp read
  obtain ⟨-,⟨place,_,file,-⟩,-⟩ := loadText_eq_ok.mp found
  rcases replace_of_found format file table with ⟨beside,located,free,done⟩ | ⟨_,_,failed⟩
  · rw [done] at run
    cases run
    exact ⟨place,beside,_,(find_eq_ok.mp file).1,located,free,rfl⟩
  · rw [failed] at run
    cases run

theorem update_changes {assignments : List Assignment} {filter : Filter} {n : Nat}
    (run : db.update format name assignments filter tree = .ok n after) :
    ReplacesTable db name tree after := by
  obtain ⟨table,_,loaded,checks⟩ := bind_eq_ok.mp run
  obtain rfl := (load_looksOnly db format name).of_ok loaded
  obtain ⟨_,_,checked,binds⟩ := bind_eq_ok.mp checks
  rw [(require_looksOnly _).of_ok checked] at binds
  obtain ⟨_,_,bound,last⟩ := bind_eq_ok.mp binds
  rw [(require_looksOnly _).of_ok bound] at last
  obtain ⟨_,_,replaced,returned⟩ := bind_eq_ok.mp last
  cases returned
  exact replace_changes loaded replaced

theorem delete_changes {filter : Filter} {n : Nat}
    (run : db.delete format name filter tree = .ok n after) : ReplacesTable db name tree after := by
  obtain ⟨table,_,loaded,binds⟩ := bind_eq_ok.mp run
  obtain rfl := (load_looksOnly db format name).of_ok loaded
  obtain ⟨_,_,bound,last⟩ := bind_eq_ok.mp binds
  rw [(require_looksOnly _).of_ok bound] at last
  obtain ⟨_,_,replaced,returned⟩ := bind_eq_ok.mp last
  cases returned
  exact replace_changes loaded replaced

/-! ### Opened databases -/

/-- A database that was opened has a valid name and lies below the directory it was opened in. -/
theorem openIn_eq_ok {parent : Path} (opened : openIn parent name tree = .ok db after) :
    Name.isValid name = true ∧ db = ⟨name,parent.join (Path.ofText name)⟩ := by
  by_cases valid : Name.isValid name = true
  · refine ⟨valid,?_⟩
    rw [openIn_of_valid valid] at opened
    split at opened
    · cases opened
      rfl
    · obtain ⟨_,-,same⟩ := bind_pure_eq_ok.mp opened
      exact same.symm
  · rw [openIn_of_invalid valid] at opened
    cases opened

end PlainTables.Database
