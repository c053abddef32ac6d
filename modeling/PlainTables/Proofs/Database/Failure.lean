import PlainTables.Database.Run
import PlainTables.Proofs.Action
import PlainTables.Proofs.Files.Changes

/-! What is left of a database operation that fails. Operations on tables are all or nothing.
Opening a database may have made some directories on the way before it was refused, and
changes nothing else. -/
namespace PlainTables.Database

open Actions FileAction FileTree

variable {db : Database} {format : TableFormat} {name : String}

/-! ### Reading -/

theorem loadText_looksOnly (db : Database) (format : TableFormat) (name : String) :
    LooksOnly (db.loadText format name) := by
  apply (ask_looksOnly _ _).bind
  intro bytes
  split
  · exact LooksOnly.throw _
  · exact (require_looksOnly _).bind fun table => LooksOnly.pure _

theorem load_looksOnly (db : Database) (format : TableFormat) (name : String) :
    LooksOnly (db.load format name) :=
  (loadText_looksOnly db format name).bind fun _ => LooksOnly.pure _

theorem read_looksOnly (db : Database) (format : TableFormat) (name : String)
    (fields : List String) (filter : Filter) : LooksOnly (db.read format name fields filter) :=
  (load_looksOnly db format name).bind fun _ => require_looksOnly _

theorem readOrdered_looksOnly (db : Database) (format : TableFormat) (name : String)
    (fields : List String) (filter : Filter) (key : SortKey) :
    LooksOnly (db.readOrdered format name fields filter key) :=
  (load_looksOnly db format name).bind fun _ => require_looksOnly _

theorem tables_looksOnly (db : Database) : LooksOnly db.tables :=
  (ask_looksOnly _ _).bind fun _ => LooksOnly.get.bind fun _ => LooksOnly.pure _

/-- What a load has found, and that it has found it in the file of the table. -/
theorem loadText_eq_ok {tree after : FileTree} {table : Table} {text : String} :
    db.loadText format name tree = .ok (table,text) after ↔
      after = tree ∧ (∃ place bytes, tree.find (db.tablePath name) = .ok (place,.file bytes) ∧
        String.fromUTF8? bytes = some text) ∧ format.tableOfText name text = .ok table := by
  simp only [loadText,bind_eq_ok,ask_eq_ok,readFile_eq_ok]
  constructor
  · rintro ⟨bytes,_,⟨⟨place,file⟩,rfl⟩,loaded⟩
    cases decoded : String.fromUTF8? bytes with
    | none => simp [decoded] at loaded
    | some found =>
      simp only [decoded] at loaded
      obtain ⟨_,_,checked,same⟩ := bind_eq_ok.mp loaded
      obtain ⟨read,rfl⟩ := require_eq_ok.mp checked
      cases same
      exact ⟨rfl,⟨place,bytes,file,decoded⟩,read⟩
  · rintro ⟨rfl,⟨place,bytes,file,decoded⟩,read⟩
    refine ⟨bytes,after,⟨⟨place,file⟩,rfl⟩,?_⟩
    simp only [decoded]
    exact bind_eq_ok.mpr ⟨table,after,require_eq_ok.mpr ⟨read,rfl⟩,rfl⟩

theorem load_eq_ok {tree after : FileTree} {table : Table} :
    db.load format name tree = .ok table after ↔
      ∃ text, db.loadText format name tree = .ok (table,text) after := by
  simp only [load,bind_eq_ok]
  constructor
  · rintro ⟨⟨found,text⟩,_,loaded,returned⟩
    cases returned
    exact ⟨text,loaded⟩
  · rintro ⟨text,loaded⟩
    exact ⟨(table,text),after,loaded,rfl⟩

/-! ### Writing -/

theorem createTable_allOrNothing (db : Database) (format : TableFormat) (name : String)
    (columns : List String) : AllOrNothing (db.createTable format name columns) := by
  unfold createTable
  split
  · exact (LooksOnly.throw _).allOrNothing
  · exact .bind_of_looksOnly (require_looksOnly _) fun _ => change_allOrNothing _ _

theorem dropTable_allOrNothing (db : Database) (name : String) :
    AllOrNothing (db.dropTable name) :=
  change_allOrNothing _ _

theorem insert_allOrNothing (db : Database) (format : TableFormat) (name : String)
    (fields : List String) (rows : List Row) :
    AllOrNothing (db.insert format name fields rows) := by
  unfold insert
  split
  · exact (LooksOnly.throw _).allOrNothing
  refine .bind_of_looksOnly (loadText_looksOnly db format name) fun found => ?_
  refine .bind_of_looksOnly (require_looksOnly _) fun places => ?_
  refine .bind_of_looksOnly (require_looksOnly _) fun built => ?_
  split
  · exact (LooksOnly.pure _).allOrNothing
  · exact .bind_pure (change_allOrNothing _ _)

/-- Once a table has been read, the only thing that can go wrong with its replacement is the
writing of the scratch file, and then nothing has been written. -/
theorem replace_of_found (format : TableFormat) {tree : FileTree} {place : Location} {old : ByteArray}
    (found : tree.find (db.tablePath name) = .ok (place,.file old)) (table : Table) :
    (∃ beside, tree.locate (db.scratchPath name) = .ok beside ∧
      tree.node? beside ≠ some .directory ∧
      db.replace format name table tree =
        .ok () (tree.replaced beside place (format.writtenTable table).toUTF8)) ∨
    ∃ cause, tree.overwriteFile (db.scratchPath name) (format.writtenTable table).toUTF8 =
        .error cause ∧ db.replace format name table tree = .error (.io cause) tree := by
  cases written : tree.overwriteFile (db.scratchPath name) (format.writtenTable table).toUTF8 with
  | ok middle =>
    obtain ⟨beside,located,free,rfl⟩ := overwriteFile_eq_ok.mp written
    refine .inl ⟨beside,located,free,?_⟩
    have moved := renameFile_written (format.writtenTable table).toUTF8 found located free
    rw [replace,bind_of_ok (a := ()) (tryCatch_of_ok (change_eq_ok.mpr written))]
    exact change_eq_ok.mpr moved
  | error cause =>
    obtain ⟨other,kept⟩ := removeFile_of_overwriteFile_error written
    refine .inr ⟨cause,rfl,?_⟩
    have tried : attempt (·.removeFile (db.scratchPath name)) tree = .ok () tree := by
      simp [attempt,kept]
    have refused : tryCatch (change (·.overwriteFile (db.scratchPath name)
        (format.writtenTable table).toUTF8) .io) (fun fault => do
          attempt (·.removeFile (db.scratchPath name))
          throw fault) tree = .error (.io cause) tree := by
      rw [tryCatch_of_error (change_eq_error.mpr ⟨cause,written,rfl,rfl⟩),bind_of_ok tried]
      rfl
    exact bind_of_error refused

theorem replace_error {tree after : FileTree} {place : Location} {old : ByteArray} {fault : Fault}
    {table : Table} (found : tree.find (db.tablePath name) = .ok (place,.file old))
    (failed : db.replace format name table tree = .error fault after) : after = tree := by
  rcases replace_of_found format found table with ⟨beside,_,_,run⟩ | ⟨cause,_,run⟩
  · rw [run] at failed
    cases failed
  · rw [run] at failed
    cases failed
    rfl

/-- Checks between a load and a replacement of the same table may only look. -/
theorem load_replace_allOrNothing {α β : Type} {checks : Table → FileAction α}
    {changed : Table → α → Table} {count : Table → α → β} (looks : ∀ table, LooksOnly (checks table)) :
    AllOrNothing (do
      let table ← db.load format name
      let a ← checks table
      db.replace format name (changed table a)
      return count table a) := by
  intro tree fault after run
  rcases bind_eq_error.mp run with failed | ⟨table,middle,loaded,later⟩
  · exact (load_looksOnly db format name).allOrNothing _ _ _ failed
  obtain ⟨text,found⟩ := load_eq_ok.mp loaded
  obtain ⟨same,⟨place,bytes,file,-⟩,-⟩ := loadText_eq_ok.mp found
  rw [same] at later
  rcases bind_eq_error.mp later with failed | ⟨a,next,checked,last⟩
  · exact (looks table).allOrNothing _ _ _ failed
  rw [(looks table).of_ok checked] at last
  rcases bind_eq_error.mp last with failed | ⟨_,_,_,returned⟩
  · exact replace_error file failed
  · cases returned

theorem update_allOrNothing (db : Database) (format : TableFormat) (name : String)
    (assignments : List Assignment) (filter : Filter) :
    AllOrNothing (db.update format name assignments filter) := by
  have whole := @load_replace_allOrNothing db format name _ Nat
    (fun table => do
      let places ← require (targets format table.header assignments)
      let bound ← require (filter.bind table.header .missing)
      return (places,bound))
    (fun table a => ⟨table.header,
      table.rows.map fun row => if a.2.accepts row then assign a.1 row else row⟩)
    (fun table a => (table.rows.filter a.2.accepts).length)
    (fun table => (require_looksOnly _).bind fun _ => (require_looksOnly _).bind fun _ =>
      LooksOnly.pure _)
  simp only [bind_assoc,pure_bind] at whole
  exact whole

theorem delete_allOrNothing (db : Database) (format : TableFormat) (name : String)
    (filter : Filter) : AllOrNothing (db.delete format name filter) :=
  load_replace_allOrNothing fun _ => require_looksOnly _

/-- All statements but one are all or nothing; making a database may stop halfway. -/
theorem run_allOrNothing (db : Database) (format : TableFormat) {statement : Statement}
    (other : ∀ name, statement ≠ .useDatabase name) : AllOrNothing (db.run format statement) := by
  cases statement with
  | useDatabase name => exact absurd rfl (other name)
  | listTables => exact .bind_pure (Database.tables_looksOnly db).allOrNothing
  | dropTable name => exact .bind_pure (Database.dropTable_allOrNothing db name)
  | createTable name columns =>
    exact .bind_pure (Database.createTable_allOrNothing db format name columns)
  | insert name fields rows =>
    exact .bind_pure (Database.insert_allOrNothing db format name fields rows)
  | read name fields filter =>
    exact .bind_pure (Database.read_looksOnly db format name fields filter).allOrNothing
  | readOrdered name fields filter key =>
    exact .bind_pure (Database.readOrdered_looksOnly db format name fields filter key).allOrNothing
  | update name assignments filter =>
    exact .bind_pure (Database.update_allOrNothing db format name assignments filter)
  | delete name filter => exact .bind_pure (Database.delete_allOrNothing db format name filter)

/-! ### Opening -/

section Directories

variable {tree after : FileTree} {path : Path} {outer : List Path} {fault : Fault}

theorem ensureDirectories_of_ok (made : ensureDirectory path tree = .ok () after) :
    ensureDirectories (path :: outer) tree = .ok () after := by
  simp [ensureDirectories,made]

theorem ensureDirectories_of_error (refused : ensureDirectory path tree = .error fault after)
    (other : fault ≠ .io .notFound) :
    ensureDirectories (path :: outer) tree = .error fault after := by
  simp only [ensureDirectories,refused]
  split
  · next same =>
    cases same
    exact absurd rfl other
  · rfl

theorem ensureDirectories_of_missing
    (missing : ensureDirectory path tree = .error (.io .notFound) after) :
    ensureDirectories (path :: outer) tree =
      (ensureDirectories outer >>= fun _ => ensureDirectory path) tree := by
  simp [ensureDirectories,missing]

end Directories

section Opening

variable {parent : Path} {tree : FileTree}

theorem openIn_of_valid (valid : Name.isValid name = true) :
    openIn parent name tree =
      if tree.isDirectory (parent.join (Path.ofText name)) = true then
        .ok ⟨name,parent.join (Path.ofText name)⟩ tree
      else (makeDirectories (parent.join (Path.ofText name)) >>= fun _ =>
        pure ⟨name,parent.join (Path.ofText name)⟩) tree := by
  have checked : require (Name.check .database name) tree = .ok () tree := by
    rw [Name.check_eq_ok_iff.mpr valid]
    rfl
  rw [openIn,bind_of_ok checked,bind_of_ok get_run]
  cases tree.isDirectory (parent.join (Path.ofText name)) <;> rfl

theorem openIn_of_invalid (invalid : ¬Name.isValid name = true) :
    openIn parent name tree = .error (.badName .database name) tree := by
  have refused : require (Name.check .database name) tree = .error (.badName .database name) tree := by
    rw [Name.check,if_neg invalid]
    rfl
  exact bind_of_error refused

end Opening

/-- Directories are all that the action makes, on the way to some paths, whether it succeeds or
not. -/
def OnlyMakes {α : Type} (paths : List Path) (x : FileAction α) : Prop :=
  ∀ tree, MakesAlong paths tree (left (x tree))

theorem LooksOnly.onlyMakes {α : Type} {x : FileAction α} (looks : LooksOnly x)
    (paths : List Path) : OnlyMakes paths x := by
  intro tree
  rcases looks tree with ⟨a,run⟩ | ⟨fault,run⟩ <;> rw [run] <;> exact .refl paths tree

theorem OnlyMakes.bind {α β : Type} {paths : List Path} {x : FileAction α} {f : α → FileAction β}
    (first : OnlyMakes paths x) (next : ∀ a, OnlyMakes paths (f a)) : OnlyMakes paths (x >>= f) := by
  intro tree
  rcases left_bind x f tree with same | ⟨a,later⟩
  · exact same ▸ first tree
  · exact later ▸ (first tree).trans (next a _)

theorem OnlyMakes.mono {α : Type} {paths more : List Path} {x : FileAction α}
    (makes : OnlyMakes paths x) (among : ∀ path ∈ paths, path ∈ more) : OnlyMakes more x :=
  fun tree => (makes tree).mono among

theorem ensureDirectory_onlyMakes (path : Path) : OnlyMakes [path] (ensureDirectory path) := by
  intro tree
  unfold ensureDirectory
  split
  · next made => exact .of_makeDirectory made (List.mem_singleton_self path)
  · split <;> exact .refl _ tree

/-- By recursion on the paths, outermost last: a refused path is tried again once those
after it have been made. -/
theorem ensureDirectories_onlyMakes (paths : List Path) :
    OnlyMakes paths (ensureDirectories paths) := by
  induction paths with
  | nil => exact LooksOnly.onlyMakes (LooksOnly.pure ()) []
  | cons path outer ih =>
    have own : OnlyMakes (path :: outer) (ensureDirectory path) :=
      (ensureDirectory_onlyMakes path).mono (by simp)
    have rest : OnlyMakes (path :: outer) (ensureDirectories outer) :=
      ih.mono fun _ => List.mem_cons_of_mem path
    intro tree
    unfold ensureDirectories
    split
    · exact rest.bind (fun _ => own) tree
    · exact own tree

/-- All directories that are made lie on the path to the database, its own among them. -/
theorem openIn_onlyMakes (parent : Path) (name : String) :
    OnlyMakes (parent.join (Path.ofText name)).stages (openIn parent name) := by
  unfold openIn
  apply (LooksOnly.onlyMakes (require_looksOnly _) _).bind
  intro _
  apply (LooksOnly.onlyMakes LooksOnly.get _).bind
  intro tree
  dsimp only
  split
  · refine OnlyMakes.bind ?_ fun _ => LooksOnly.onlyMakes (LooksOnly.pure _) _
    exact (ensureDirectories_onlyMakes _).mono fun _ => List.mem_reverse.mp
  · exact LooksOnly.onlyMakes (LooksOnly.pure _) _

end PlainTables.Database
