import PlainTables.Proofs.Database.Confined
import PlainTables.Proofs.Statement.WellFormed
import PlainTables.Proofs.Workspace.Catalog
import PlainTables.Proofs.Workspace.Failure

/-! What a text can change among the files. A statement on a table changes files that lie right below
the directory of the selected database, which lies right below the root; selecting a database makes
directories on the way to it. The names in these paths come from the text, so this holds because
every statement that is read has valid names. -/
namespace PlainTables

open Actions FileTree

/-! ### Names and databases -/

/-- A valid name, which is always a single part of a path. -/
structure Name.IsPart (name : String) : Prop where
  valid : isValid name = true
  slash : '/' ∉ name.toList
  point : '.' ∉ name.toList

theorem Name.isPart_of_valid {name : String} (valid : isValid name = true) : IsPart name :=
  ⟨valid,not_mem_of_valid valid (by decide) (by decide),not_mem_of_valid valid (by decide) (by decide)⟩

/-- The selected database, if there is one, was selected in a session with this root. -/
def Session.Own (session : Session) : Prop :=
  ∀ db, session.database = some db → ∃ name w after,
    w.session.root = session.root ∧ Workspace.useDatabase name w = .ok db after

namespace Workspace

variable {w after : Workspace} {db : Database} {text : String} {place : Location}

theorem useDatabase_ok {name : String} (selected : useDatabase name w = .ok db after) :
    ∃ files, Database.openIn w.session.root name w.files = .ok db files ∧
      after = ⟨files,{ w.session with database := some db }⟩ := by
  rw [useDatabase,bind_of_ok get_run] at selected
  obtain ⟨_,_,opened,later⟩ := bind_eq_ok.mp selected
  obtain ⟨files,run,rfl⟩ := onFiles_eq_ok.mp opened
  cases later
  exact ⟨files,run,rfl⟩

theorem root_of_own (own : w.session.Own) (selected : w.session.database = some db) :
    Name.isValid db.name = true ∧ db.root = w.session.root.join (Path.ofText db.name) := by
  obtain ⟨name,other,_,root,made⟩ := own db selected
  obtain ⟨_,opened,-⟩ := useDatabase_ok made
  obtain ⟨valid,rfl⟩ := Database.openIn_eq_ok opened
  exact ⟨valid,by rw [root]⟩

/-- A file of a database that lies right below a root is found in the directory of its name. -/
theorem place_below {tree : FileTree} {root : Path}
    (below : Name.isValid db.name = true ∧ db.root = root.join (Path.ofText db.name)) {file : String}
    (step : Path.IsStep file) (led : tree.locate (db.root.join (Path.ofText file)) = .ok place) :
    ∃ home, tree.base root = .ok home ∧ place = file :: db.name :: home := by
  obtain ⟨inner,found,rfl⟩ := base_join step (base_of_locate led)
  rw [below.2] at found
  obtain ⟨home,base,rfl⟩ := base_join (Path.isStep_of_valid below.1) found
  exact ⟨home,base,rfl⟩

theorem place_of_locate (own : w.session.Own) (selected : w.session.database = some db)
    {file : String} (step : Path.IsStep file)
    (led : w.files.locate (db.root.join (Path.ofText file)) = .ok place) :
    ∃ home, w.files.base w.session.root = .ok home ∧ place = file :: db.name :: home :=
  place_below (root_of_own own selected) step led

/-- The session after a statement has a database of its own again. -/
theorem own_run (own : w.session.Own) (statement : Statement) :
    (left (run statement w)).session.Own := by
  cases ran : run statement w with
  | error fault after => exact (run_error ran).2 ▸ own
  | ok answer after =>
    by_cases selects : ∃ name, statement = .useDatabase name
    · obtain ⟨name,rfl⟩ := selects
      obtain ⟨db,_,selected,returned⟩ := bind_eq_ok.mp ran
      cases returned
      obtain ⟨files,-,rfl⟩ := useDatabase_ok selected
      rintro _ ⟨⟩
      exact ⟨name,w,_,rfl,selected⟩
    have other : ∀ name, statement ≠ .useDatabase name := fun name same => selects ⟨name,same⟩
    rw [run_of_other other] at ran
    cases selected : w.session.database with
    | none => simp [selected] at ran
    | some db =>
      simp only [selected] at ran
      obtain ⟨files,-,rfl⟩ := onFiles_eq_ok.mp ran
      exact own

theorem own_execute (own : w.session.Own) (text : String) :
    (left (execute text w)).session.Own := by
  rw [execute]
  cases Statement.parse text with
  | ok statement => exact own_run own statement
  | error cause => exact own

theorem own_start (files : FileTree) (root : Path) (format : TableFormat) :
    (start files root format).session.Own :=
  nofun

end Workspace

/-! ### Statements -/

namespace Statement

/-- The name of the database or the table that a statement is about. -/
def target? : Statement → Option String
  | .listTables => none
  | .useDatabase name | .dropTable name | .createTable name _ | .insert name _ _ | .read name _ _
  | .readOrdered name _ _ _ | .update name _ _ | .delete name _ => some name

theorem valid_of_proper {statement : Statement} (proper : statement.Proper) {name : String}
    (named : statement.target? = some name) : Name.isValid name = true := by
  cases statement <;> cases named
  case useDatabase | dropTable => exact proper
  case createTable | insert | read | readOrdered | update | delete => exact proper.1

/-- Files after a success, as they are after a failure only if that changes none. -/
def OnSuccess (w : Workspace) (result : EStateM.Result Fault Workspace Answer)
    (changed : FileTree → Prop) : Prop :=
  match result with
  | .ok _ after => changed after.files
  | .error _ after => after.files = w.files

/-- The directory of the selected database lies right below the root, which is `home`. -/
structure Selected (w : Workspace) (db : Database) (home : Location) : Prop where
  database : w.session.database = some db
  path : db.root = w.session.root.join (Path.ofText db.name)
  root : w.files.base w.session.root = .ok home

/-- The file of a table in the selected database, at most, is changed. -/
def ChangesFile (w : Workspace) (table : String) (after : FileTree) : Prop :=
  ∃ db home, Selected w db home ∧
    let file := (table ++ Database.tableSuffix) :: db.name :: home
    w.files.locate (db.tablePath table) = .ok file ∧ ChangesWithin w.files after [file]

/-- So is the scratch file beside it, and there is none afterwards. -/
def ReplacesFile (w : Workspace) (table : String) (after : FileTree) : Prop :=
  ∃ db home, Selected w db home ∧
    let file := (table ++ Database.tableSuffix) :: db.name :: home
    let scratch := (table ++ Database.tableSuffix ++ ".tmp") :: db.name :: home
    w.files.locate (db.tablePath table) = .ok file ∧
    w.files.locate (db.scratchPath table) = .ok scratch ∧
    ChangesWithin w.files after [file,scratch] ∧ after.node? scratch = none

/-- The files that a statement may change, by its kind. -/
def Confined (w : Workspace) (result : EStateM.Result Fault Workspace Answer) : Statement → Prop
  | .listTables | .read _ _ _ | .readOrdered _ _ _ _ => (left result).files = w.files
  | .useDatabase name =>
    MakesAlong (w.session.root.join (Path.ofText name)).stages w.files (left result).files
  | .createTable table _ | .insert table _ _ | .dropTable table =>
    OnSuccess w result (ChangesFile w table)
  | .update table _ _ | .delete table _ => OnSuccess w result (ReplacesFile w table)

end Statement

namespace Workspace

open Statement

variable {w after : Workspace} {db : Database} {table : String} {tree : FileTree}

theorem changesFile_of_changesTable (own : w.session.Own) (selected : w.session.database = some db)
    (valid : Name.isValid table = true) (changes : db.ChangesTable table w.files tree) :
    ChangesFile w table tree := by
  obtain ⟨place,located,within⟩ := changes
  obtain ⟨home,root,rfl⟩ := place_of_locate own selected (Path.isStep_table valid) located
  exact ⟨db,home,⟨selected,(root_of_own own selected).2,root⟩,located,within⟩

theorem replacesFile_of_replacesTable (own : w.session.Own) (selected : w.session.database = some db)
    (valid : Name.isValid table = true) (replaces : db.ReplacesTable table w.files tree) :
    ReplacesFile w table tree := by
  obtain ⟨place,beside,bytes,located,locatedBeside,-,rfl⟩ := replaces
  obtain ⟨home,root,rfl⟩ := place_of_locate own selected (Path.isStep_table valid) located
  obtain ⟨_,again,rfl⟩ := place_of_locate own selected (Path.isStep_scratch valid) locatedBeside
  rw [root] at again
  cases again
  refine ⟨db,home,⟨selected,(root_of_own own selected).2,root⟩,located,locatedBeside,
    changesWithin_replaced _ _ bytes,?_⟩
  apply node?_replaced_beside bytes (List.cons_ne_nil _ _)
  intro same
  have sizes := congrArg String.length (List.cons.inj same).1
  simp at sizes

/-- What a statement that needs a database does to the files is what it does in that database. -/
theorem onSuccess_run {statement : Statement} {changed : FileTree → Prop}
    (other : ∀ name, statement ≠ .useDatabase name)
    (each : ∀ db answer files, w.session.database = some db →
      db.run w.session.format statement w.files = .ok answer files → changed files) :
    OnSuccess w (run statement w) changed := by
  cases ran : run statement w with
  | error fault after =>
    rw [run_of_other other] at ran
    cases selected : w.session.database with
    | none =>
      simp only [selected,EStateM.Result.error.injEq] at ran
      exact ran.2 ▸ rfl
    | some db =>
      simp only [selected] at ran
      obtain ⟨files,failed,rfl⟩ := onFiles_eq_error.mp ran
      exact Database.run_allOrNothing db w.session.format other _ _ _ failed
  | ok answer after =>
    rw [run_of_other other] at ran
    cases selected : w.session.database with
    | none => simp [selected] at ran
    | some db =>
      simp only [selected] at ran
      obtain ⟨files,done,rfl⟩ := onFiles_eq_ok.mp ran
      exact each db answer files selected done

theorem files_of_onSuccess {result : EStateM.Result Fault Workspace Answer}
    (same : OnSuccess w result (· = w.files)) : (left result).files = w.files := by
  cases result <;> exact same

theorem files_useDatabase (w : Workspace) (name : String) :
    (left (run (.useDatabase name) w)).files =
      left (Database.openIn w.session.root name w.files) := by
  cases opened : Database.openIn w.session.root name w.files with
  | ok db files =>
    have selected : useDatabase name w = .ok db ⟨files,{ w.session with database := some db }⟩ := by
      rw [useDatabase,bind_of_ok get_run,bind_of_ok (onFiles_eq_ok.mpr ⟨files,opened,rfl⟩)]
      rfl
    rw [run,bind_of_ok selected]
    rfl
  | error fault files =>
    have refused : useDatabase name w = .error fault { w with files := files } := by
      rw [useDatabase,bind_of_ok get_run]
      exact bind_of_error (onFiles_eq_error.mpr ⟨files,opened,rfl⟩)
    rw [run,bind_of_error refused]
    rfl

/-- By the kind of the statement. -/
theorem run_confined (own : w.session.Own) {statement : Statement} (proper : statement.Proper) :
    statement.Confined w (run statement w) := by
  have valid := @valid_of_proper _ proper
  cases statement with
  | useDatabase name =>
    change MakesAlong _ _ _
    rw [files_useDatabase]
    exact Database.openIn_onlyMakes w.session.root name w.files
  | listTables =>
    refine files_of_onSuccess (onSuccess_run (by simp) fun db answer files _ done => ?_)
    obtain ⟨_,listed,-⟩ := bind_pure_eq_ok.mp done
    exact (Database.tables_looksOnly db).of_ok listed
  | read name fields filter =>
    refine files_of_onSuccess (onSuccess_run (by simp) fun db answer files _ done => ?_)
    obtain ⟨_,found,-⟩ := bind_pure_eq_ok.mp done
    exact (Database.read_looksOnly db _ _ _ _).of_ok found
  | readOrdered name fields filter key =>
    refine files_of_onSuccess (onSuccess_run (by simp) fun db answer files _ done => ?_)
    obtain ⟨_,found,-⟩ := bind_pure_eq_ok.mp done
    exact (Database.readOrdered_looksOnly db _ _ _ _ _).of_ok found
  | dropTable name =>
    refine onSuccess_run (by simp) fun db answer files selected done => ?_
    obtain ⟨_,dropped,-⟩ := bind_pure_eq_ok.mp done
    exact changesFile_of_changesTable own selected (valid rfl) (Database.dropTable_changes dropped)
  | createTable name columns =>
    refine onSuccess_run (by simp) fun db answer files selected done => ?_
    obtain ⟨_,created,-⟩ := bind_pure_eq_ok.mp done
    exact changesFile_of_changesTable own selected (valid rfl) (Database.createTable_changes created)
  | insert name fields rows =>
    refine onSuccess_run (by simp) fun db answer files selected done => ?_
    obtain ⟨_,inserted,-⟩ := bind_pure_eq_ok.mp done
    exact changesFile_of_changesTable own selected (valid rfl) (Database.insert_changes inserted)
  | update name assignments filter =>
    refine onSuccess_run (by simp) fun db answer files selected done => ?_
    obtain ⟨_,updated,-⟩ := bind_pure_eq_ok.mp done
    exact replacesFile_of_replacesTable own selected (valid rfl) (Database.update_changes updated)
  | delete name filter =>
    refine onSuccess_run (by simp) fun db answer files selected done => ?_
    obtain ⟨_,deleted,-⟩ := bind_pure_eq_ok.mp done
    exact replacesFile_of_replacesTable own selected (valid rfl) (Database.delete_changes deleted)

/-- A text changes nothing but the files of its statement, whose names are valid, and after it the
selected database is again one that was selected below the same root. -/
theorem execute_confined (w : Workspace) (text : String) (own : w.session.Own) :
    (left (execute text w)).session.Own ∧
    (∀ db, w.session.database = some db → Name.IsPart db.name) ∧
    match Statement.parse text with
    | .error _ => (left (execute text w)).files = w.files
    | .ok statement =>
      (∀ name, statement.target? = some name → Name.IsPart name) ∧
        statement.Confined w (execute text w) := by
  refine ⟨own_execute own text,?_,?_⟩
  · exact fun db selected => Name.isPart_of_valid (root_of_own own selected).1
  · rw [execute]
    cases parsed : Statement.parse text with
    | error cause => rfl
    | ok statement =>
      have proper := proper_of_parse parsed
      exact ⟨fun name named => Name.isPart_of_valid (valid_of_proper proper named),
        run_confined own proper⟩

/-- A table with a scratch file beside it that was left behind, in the selected database. -/
def stray : Workspace :=
  ⟨⟨[(["t.csv","d","data","work"],.file "a\n1\n2\n".toUTF8),
      (["t.csv.tmp","d","data","work"],.file "a\n".toUTF8),(["d","data","work"],.directory),
      (["data","work"],.directory),(["work"],.directory)],["work"]⟩,
    ⟨Path.ofText "data",some ⟨"d",⟨false,["data","d"]⟩⟩,.comma⟩⟩

def strayUpdated : EStateM.Result Fault Workspace Answer :=
  execute "UPDATE TABLE t SET a = 3 WHERE a = 2;" stray

/-- The update rewrites the table by way of the scratch file and leaves everything else. -/
theorem stray_confined :
    stray.session.Own ∧ strayUpdated = .ok (.rowCount 1 .updated) (left strayUpdated) ∧
      ChangesWithin stray.files (left strayUpdated).files
        [["t.csv","d","data","work"],["t.csv.tmp","d","data","work"]] ∧
      (left strayUpdated).files.node? ["t.csv.tmp","d","data","work"] = none := by
  have own : stray.session.Own := by
    rintro _ ⟨⟩
    exact ⟨"d",stray,_,rfl,eq_ok_of_outcome (by decide +kernel)⟩
  have updated : strayUpdated = .ok (.rowCount 1 .updated) (left strayUpdated) :=
    eq_ok_of_outcome (by decide +kernel)
  have parsed : Statement.parse "UPDATE TABLE t SET a = 3 WHERE a = 2;" =
      .ok (.update "t" [⟨"a","3"⟩] ⟨[⟨"a",.eq,"2"⟩],[]⟩) := by decide +kernel
  obtain ⟨-,-,confined⟩ := execute_confined stray "UPDATE TABLE t SET a = 3 WHERE a = 2;" own
  rw [parsed] at confined
  obtain ⟨-,replaces⟩ := confined
  change OnSuccess stray strayUpdated (ReplacesFile stray "t") at replaces
  rw [updated] at replaces
  obtain ⟨db,home,⟨selected,-,root⟩,-,-,within,absent⟩ := replaces
  cases selected
  have here : home = ["data","work"] := by
    have base : stray.files.base stray.session.root = .ok ["data","work"] := by decide +kernel
    rw [base] at root
    exact (Except.ok.inj root).symm
  subst here
  exact ⟨own,updated,within,absent⟩

end Workspace
end PlainTables
