import PlainTables.Proofs.Statement.Written
import PlainTables.Proofs.Workspace.Failure
import PlainTables.Proofs.Workspace.Operations

/-! Sessions refine catalogs. Every text says in a session what it says of a catalog, and after
it the files hold the tables of the catalog. A database is opened or made first; everything else
happens inside the selected one. -/
namespace PlainTables

open Actions FileAction FileTree

variable {format : TableFormat} {tree : FileTree} {databases : Databases} {name : String}
  {fault : Fault}

/-! ### Opening a database -/

theorem Path.stages_ofDatabase (name : String) :
    (Path.ofDatabase name).stages.reverse = [.ofDatabase name,.ofData] := rfl

namespace Holds

theorem isDirectory_ofDatabase (holds : Holds format tree databases)
    (valid : Name.isValid name = true) :
    tree.isDirectory (.ofDatabase name) = true ↔ name ∈ databases := by
  constructor
  · intro here
    by_contra fresh
    have node : tree.node? [name,"data","work"] = none := by rw [holds.directory,if_neg fresh]
    unfold isDirectory at here
    split at here
    · next place found =>
      obtain ⟨located,directory⟩ := find_eq_ok.mp found
      rcases holds.data with data | ⟨missing,-⟩
      · rw [locate_ofDatabase ⟨holds.current,holds.work,data⟩ (Path.isStep_of_valid valid)] at located
        split at located
        · cases located
        · cases located
          rw [node] at directory
          cases directory
      · rw [locate_ofDatabase_missing holds.current holds.work missing] at located
        split at located <;> cases located
    · cases here
  · intro known
    rw [isDirectory,holds.find_database known]

/-- The directory of a new database is made if its name is short enough. -/
theorem ensureDirectory_fresh (holds : Holds format tree databases)
    (data : tree.node? ["data","work"] = some .directory) (valid : Name.isValid name = true)
    (fresh : name ∉ databases) :
    ensureDirectory (.ofDatabase name) tree =
      if Room.ofFiles.database name then .ok () (tree.put [name,"data","work"] .directory)
      else .error Room.refusal tree := by
  have located := locate_ofDatabase ⟨holds.current,holds.work,data⟩ (Path.isStep_of_valid valid)
  have node : tree.node? [name,"data","work"] = none := by rw [holds.directory,if_neg fresh]
  by_cases fits : name.utf8ByteSize ≤ maxNameBytes
  · rw [if_neg (Nat.not_lt.mpr fits)] at located
    have made := makeDirectory_eq_ok.mpr ⟨_,located,node,rfl⟩
    rw [if_pos (Room.ofFiles_database.mpr fits),ensureDirectory,made]
  · rw [if_pos (Nat.not_le.mp fits)] at located
    have refused : tree.makeDirectory (.ofDatabase name) = .error .invalidFilename := by
      simp [makeDirectory,located,bind,Except.bind]
    rw [if_neg (mt Room.ofFiles_database.mp fits),ensureDirectory,refused]
    simp [Room.refusal]

/-- The directory of all databases is made when it is missing. -/
theorem ensureDirectory_missing (holds : Holds format tree databases)
    (missing : tree.node? ["data","work"] = none) :
    ensureDirectory .ofData tree = .ok () (tree.put ["data","work"] .directory) := by
  have made := makeDirectory_eq_ok.mpr
    ⟨_,locate_ofData holds.current holds.work,missing,rfl⟩
  rw [ensureDirectory,made]

/-- That directory is made first, and it stays if the name is refused. -/
theorem makeDirectories_missing (holds : Holds format tree databases)
    (missing : tree.node? ["data","work"] = none) (valid : Name.isValid name = true)
    (fresh : name ∉ databases)
    (short : ¬maxPathBytes < (Path.ofDatabase name).text.utf8ByteSize) :
    makeDirectories (.ofDatabase name) tree =
      if Room.ofFiles.database name then
        .ok () ((tree.put ["data","work"] .directory).put [name,"data","work"] .directory)
      else .error Room.refusal (tree.put ["data","work"] .directory) := by
  have located := locate_ofDatabase_missing holds.current holds.work missing name
  rw [if_neg short] at located
  have refused : tree.makeDirectory (.ofDatabase name) = .error .notFound := by
    simp [makeDirectory,located,bind,Except.bind]
  have first : ensureDirectory (.ofDatabase name) tree = .error (.io .notFound) tree := by
    simp [ensureDirectory,refused]
  have outer : ensureDirectories [.ofData] tree =
      .ok () (tree.put ["data","work"] .directory) :=
    Database.ensureDirectories_of_ok (holds.ensureDirectory_missing missing)
  have data := node?_put_same tree .directory (show ["data","work"] ≠ [] by simp)
  rw [makeDirectories,Path.stages_ofDatabase,Database.ensureDirectories_of_missing first,
    bind_of_ok outer,holds.putData.ensureDirectory_fresh data valid fresh]

/-- If a name is refused the directory of all databases may have been made before. -/
theorem makeDirectories_fresh (holds : Holds format tree databases)
    (valid : Name.isValid name = true) (fresh : name ∉ databases) :
    if Room.ofFiles.database name then
      ∃ after, makeDirectories (.ofDatabase name) tree = .ok () after ∧
        Holds format after (databases.insert name ∅)
    else
      ∃ after, makeDirectories (.ofDatabase name) tree = .error Room.refusal after ∧
        Holds format after databases := by
  rcases holds.data with data | ⟨missing,-⟩
  · have first := holds.ensureDirectory_fresh data valid fresh
    rw [makeDirectories,Path.stages_ofDatabase]
    split
    · next fits =>
      rw [if_pos fits] at first
      exact ⟨_,Database.ensureDirectories_of_ok first,holds.putDirectory data fresh valid fits⟩
    · next long =>
      rw [if_neg long] at first
      exact ⟨tree,Database.ensureDirectories_of_error first (by simp [Room.refusal]),holds⟩
  · by_cases beyond : maxPathBytes < (Path.ofDatabase name).text.utf8ByteSize
    · have located := locate_ofDatabase_missing holds.current holds.work missing name
      rw [if_pos beyond] at located
      have long : ¬Room.ofFiles.database name = true := by
        rw [Path.size_ofDatabase,maxPathBytes] at beyond
        rw [Room.ofFiles_database,maxNameBytes]
        omega
      have refused : tree.makeDirectory (.ofDatabase name) = .error .invalidFilename := by
        simp [makeDirectory,located,bind,Except.bind]
      have first : ensureDirectory (.ofDatabase name) tree = .error Room.refusal tree := by
        simp [ensureDirectory,refused,Room.refusal]
      rw [makeDirectories,Path.stages_ofDatabase,if_neg long]
      exact ⟨tree,Database.ensureDirectories_of_error first (by simp [Room.refusal]),holds⟩
    · have data := node?_put_same tree .directory (show ["data","work"] ≠ [] by simp)
      rw [holds.makeDirectories_missing missing valid fresh beyond]
      split
      · next fits => exact ⟨_,rfl,holds.putData.putDirectory data fresh valid fits⟩
      · exact ⟨_,rfl,holds.putData⟩

theorem openIn_refines (holds : Holds format tree databases) (valid : Name.isValid name = true) :
    if Room.ofFiles.database name then
      ∃ after, Database.openIn .ofData name tree = .ok (.ofName name) after ∧
        Holds format after (databases.insert name ((databases.lookup name).getD ∅))
    else
      ∃ after, Database.openIn .ofData name tree = .error Room.refusal after ∧
        Holds format after databases := by
  have here := holds.isDirectory_ofDatabase valid
  rw [Database.openIn_of_valid valid,Path.join_ofData (Path.isStep_of_valid valid)]
  by_cases known : name ∈ databases
  · obtain ⟨tables,lookup⟩ := Option.isSome_iff_exists.mp (AList.lookup_isSome.mpr known)
    rw [if_pos (holds.names name known).2,lookup,Option.getD_some]
    refine ⟨tree,?_,holds.keep lookup⟩
    rw [here.mpr known]
    rfl
  · have absent : tree.isDirectory (.ofDatabase name) = false := by
      rw [← Bool.not_eq_true,here]
      exact known
    have made := holds.makeDirectories_fresh valid known
    rw [AList.lookup_eq_none.mpr known,Option.getD_none,absent]
    split at made
    · next fits =>
      obtain ⟨after,run,kept⟩ := made
      rw [if_pos fits]
      have opened : (makeDirectories (.ofDatabase name) >>= fun _ =>
          pure (Database.ofName name)) tree = .ok (.ofName name) after := bind_of_ok run
      exact ⟨after,opened,kept⟩
    · next long =>
      obtain ⟨after,run,kept⟩ := made
      rw [if_neg long]
      exact ⟨after,bind_of_error run,kept⟩

end Holds

/-! ### Sessions -/

/-- A session on the directory `data` whose files hold the tables of a catalog. -/
structure Represents (format : TableFormat) (w : Workspace) (catalog : Catalog) : Prop where
  root : w.session.root = .ofData
  tableFormat : w.session.format = format
  database : w.session.database = catalog.selected.map Database.ofName
  selected : ∀ name, catalog.selected = some name → name ∈ catalog.databases
  files : Holds format w.files catalog.databases

variable {w : Workspace} {catalog : Catalog}

theorem represents_empty (format : TableFormat) :
    Represents format (Workspace.start .empty (Path.ofText "data") format) .empty := by
  refine ⟨Path.ofText_data,rfl,rfl,?_,holds_empty format⟩
  intro name selected
  cases selected

namespace Represents

/-- Every table of a catalog is read from the files. -/
theorem load (noFeed : format.delimiter ≠ '\n') (noReturn : format.delimiter ≠ '\r')
    (represents : Represents format w catalog) {t : String} {table : Table}
    (found : (catalog.tablesOf name).lookup t = some table) :
    (Database.ofName name).load format t w.files = .ok table w.files := by
  rw [Catalog.tablesOf] at found
  cases known : catalog.databases.lookup name with
  | none => simp [known] at found
  | some tables =>
    rw [known,Option.getD_some] at found
    have kept := represents.files.tables name tables known t table found
    exact represents.files.load noFeed noReturn known kept.valid
      (Tables.find_eq_ok.mpr ⟨kept.fits,found⟩)

end Represents

/-- The outcome of an action on a session, compared with what is expected of its catalog. A fault
leaves the catalog as it was, if not the files. -/
def Follows {α : Type} (format : TableFormat) (catalog : Catalog)
    (result : EStateM.Result Fault Workspace α) (expected : Except Fault (α × Catalog)) : Prop :=
  match expected with
  | .ok (a,changed) => ∃ after, result = .ok a after ∧ Represents format after changed
  | .error fault => ∃ after, result = .error fault after ∧ Represents format after catalog

theorem Catalog.run_of_other {room : Room} {statement : Statement}
    (other : ∀ name, statement ≠ .useDatabase name) :
    catalog.run room format statement = match catalog.selected with
      | none => .error .noDatabase
      | some name => (catalog.tablesOf name).run room format statement >>= fun (answer,tables) =>
          .ok (answer,⟨some name,catalog.databases.insert name tables⟩) := by
  cases statement with
  | useDatabase name => exact absurd rfl (other name)
  | _ => rfl

/-- A database is selected, and made if it is new. -/
theorem useDatabase_follows (represents : Represents format w catalog) (name : String) :
    Follows format catalog (Workspace.useDatabase name w)
      ((catalog.useDatabase .ofFiles name).map (Database.ofName name,·)) := by
  rw [Workspace.useDatabase,bind_of_ok get_run,represents.root,Catalog.useDatabase]
  cases checked : Name.check .database name with
  | error fault =>
    have refused : Database.openIn .ofData name w.files = .error fault w.files := by
      rw [Database.openIn,checked]
      rfl
    exact ⟨w,bind_of_error (Workspace.onFiles_eq_error.mpr ⟨_,refused,rfl⟩),represents⟩
  | ok _ =>
    have opened := represents.files.openIn_refines (Name.check_eq_ok_iff.mp checked)
    dsimp only [bind,Except.bind]
    split at opened
    · next fits =>
      obtain ⟨files,run,holds⟩ := opened
      rw [if_pos fits]
      refine ⟨_,bind_of_ok (Workspace.onFiles_eq_ok.mpr ⟨files,run,rfl⟩),?_⟩
      refine ⟨represents.root,represents.tableFormat,rfl,?_,holds⟩
      rintro _ ⟨⟩
      exact (AList.mem_insert _).mpr (.inl rfl)
    · next long =>
      obtain ⟨files,run,holds⟩ := opened
      rw [if_neg long]
      refine ⟨_,bind_of_error (Workspace.onFiles_eq_error.mpr ⟨files,run,rfl⟩),?_⟩
      exact ⟨represents.root,represents.tableFormat,represents.database,represents.selected,holds⟩

section Sessions

variable (noFeed : format.delimiter ≠ '\n') (noReturn : format.delimiter ≠ '\r')
  (represents : Represents format w catalog)

include noFeed noReturn represents

theorem run_follows {statement : Statement} (wellFormed : statement.WellFormed)
    (room : (catalog.run .ofFiles format statement).isOk →
      ∀ t ∈ statement.replaced?, Database.FitsScratch t) :
    Follows format catalog (Workspace.run statement w)
      (catalog.run .ofFiles format statement) := by
  by_cases selects : ∃ name, statement = .useDatabase name
  · obtain ⟨name,rfl⟩ := selects
    have opened := useDatabase_follows represents name
    rw [Workspace.run,Catalog.run]
    cases made : catalog.useDatabase .ofFiles name with
    | error fault =>
      rw [made] at opened
      obtain ⟨after,run,later⟩ := opened
      exact ⟨after,bind_of_error run,later⟩
    | ok changed =>
      rw [made] at opened
      obtain ⟨after,run,later⟩ := opened
      exact ⟨after,bind_of_ok run,later⟩
  have other : ∀ name, statement ≠ .useDatabase name := fun name same => selects ⟨name,same⟩
  rw [Workspace.run_of_other other,Catalog.run_of_other other,represents.database,
    represents.tableFormat]
  cases selected : catalog.selected with
  | none => exact ⟨w,rfl,represents⟩
  | some name =>
    obtain ⟨tables,known⟩ := Option.isSome_iff_exists.mp
      (AList.lookup_isSome.mpr (represents.selected name selected))
    have tablesOf : catalog.tablesOf name = tables := by
      rw [Catalog.tablesOf,known,Option.getD_some]
    rw [Catalog.run_of_other other,selected] at room
    dsimp only at room
    rw [tablesOf,isOk_bind_ok] at room
    have refines := run_refines noFeed noReturn represents.files known wellFormed other room
    dsimp only [Option.map_some]
    rw [tablesOf]
    cases expected : tables.run .ofFiles format statement with
    | error fault =>
      rw [expected] at refines
      exact ⟨w,Workspace.onFiles_eq_error.mpr ⟨_,refines,rfl⟩,represents⟩
    | ok pair =>
      rw [expected] at refines
      obtain ⟨files,run,holds⟩ := refines
      refine ⟨_,Workspace.onFiles_eq_ok.mpr ⟨files,run,rfl⟩,?_⟩
      refine ⟨represents.root,represents.tableFormat,?_,?_,holds⟩
      · rw [represents.database,selected]
      · rintro _ ⟨⟩
        exact (AList.mem_insert _).mpr (.inl rfl)

/-- One text is one step of both. -/
theorem execute_refines (text : String)
    (room : ∀ t ∈ catalog.replaced? .ofFiles format text, Database.FitsScratch t) :
    outcome (Workspace.execute text w) = (catalog.execute .ofFiles format text).1 ∧
      Represents format (left (Workspace.execute text w))
        (catalog.execute .ofFiles format text).2 := by
  have follows : Follows format catalog (Workspace.execute text w)
      (Statement.parse text >>= catalog.run .ofFiles format) := by
    rw [Workspace.execute]
    cases parsed : Statement.parse text with
    | error fault => exact ⟨w,rfl,represents⟩
    | ok statement =>
      refine run_follows noFeed noReturn represents (Statement.wellFormed_of_parse parsed) fun done => ?_
      simpa only [Catalog.replaced?,parsed,if_pos done] using room
  rw [Catalog.execute]
  cases expected : Statement.parse text >>= catalog.run .ofFiles format with
  | error fault =>
    rw [expected] at follows
    obtain ⟨after,run,later⟩ := follows
    rw [run]
    exact ⟨rfl,later⟩
  | ok pair =>
    rw [expected] at follows
    obtain ⟨after,run,later⟩ := follows
    rw [run]
    exact ⟨rfl,later⟩

end Sessions

theorem executeAll_refines (noFeed : format.delimiter ≠ '\n') (noReturn : format.delimiter ≠ '\r')
    (represents : Represents format w catalog) (texts : List String)
    (room : catalog.ReplacesWithRoom .ofFiles format texts) :
    (w.executeAll texts).1 = (catalog.executeAll .ofFiles format texts).1 ∧
      Represents format (w.executeAll texts).2 (catalog.executeAll .ofFiles format texts).2 := by
  induction texts generalizing w catalog with
  | nil => exact ⟨rfl,represents⟩
  | cons text later ih =>
    obtain ⟨said,after⟩ := execute_refines noFeed noReturn represents text room.1
    obtain ⟨rest,last⟩ := ih after room.2
    exact ⟨congrArg₂ List.cons said rest,last⟩

/-- On an empty directory a session says what a catalog says, text by text. After every text it has
selected the same database, and the files hold the tables of the catalog and no others. -/
theorem session_refines_catalog (noFeed : format.delimiter ≠ '\n')
    (noReturn : format.delimiter ≠ '\r') (texts : List String)
    (room : Catalog.empty.ReplacesWithRoom .ofFiles format texts) :
    ∃ said last catalog,
      (Workspace.start .empty (Path.ofText "data") format).executeAll texts = (said,last) ∧
      Catalog.empty.executeAll .ofFiles format texts = (said,catalog) ∧
      last.databaseName? = catalog.selected ∧ Represents format last catalog ∧
      ∀ name t table, (catalog.tablesOf name).lookup t = some table →
        (Database.ofName name).load format t last.files = .ok table last.files := by
  obtain ⟨said,represents⟩ :=
    executeAll_refines noFeed noReturn (represents_empty format) texts room
  refine ⟨_,_,_,rfl,Prod.ext said.symm rfl,?_,represents,?_⟩
  · rw [Workspace.databaseName?,represents.database,Option.map_map]
    exact Option.map_id'
  · intro name t table found
    exact represents.load noFeed noReturn found

/-- A short visit in which a statement fails. -/
def visit : List String :=
  ["CREATE DATABASE d;","CREATE TABLE t (a, b);","INSERT INTO t (b) VALUES (1), ('');",
    "UPDATE TABLE t SET a = x WHERE b = 1 OR c = 2;","DELETE FROM t WHERE b = '';",
    "DROP TABLE u;","SELECT * FROM t;"]

def visitSaid : List (Except Fault Answer) :=
  [.ok (.databaseSelected "d"),.ok (.message "Created Table: t"),.ok (.rowCount 2 .written),
    .ok (.rowCount 1 .updated),.ok (.rowCount 1 .deleted),.error (.noTable "u"),
    .ok (.records [[("a","x"),("b","1")]])]

theorem visit_refines_catalog :
    ∃ last catalog,
      (Workspace.start .empty (Path.ofText "data") .comma).executeAll visit = (visitSaid,last) ∧
      Catalog.empty.executeAll .ofFiles .comma visit = (visitSaid,catalog) ∧
      Represents .comma last catalog := by
  obtain ⟨answers,last,catalog,session,store,-,represents,-⟩ :=
    @session_refines_catalog .comma (by decide) (by decide) visit
      (Catalog.replacesWithRoom_of_names _ _ (by decide +kernel) _)
  have expected : answers = visitSaid := by
    have run : (Catalog.empty.executeAll .ofFiles .comma visit).1 = visitSaid := by decide +kernel
    rwa [store] at run
  subst expected
  exact ⟨last,catalog,session,store,represents⟩

/-! ### The limits of names -/

/-- One letter more than the name of a file may have. -/
def longName : String := String.ofList (List.replicate 256 'a')

theorem isValid_longName : Name.isValid longName = true := Name.isValid_letters 255

theorem size_longName : longName.utf8ByteSize = 256 := Name.size_letters 256

theorem Catalog.execute_of_parse {room : Room} {text : String} {statement : Statement}
    (parsed : Statement.parse text = .ok statement) :
    catalog.execute room format text = match catalog.run room format statement with
      | .ok (answer,changed) => (.ok answer,changed)
      | .error fault => (.error fault,catalog) := by
  rw [Catalog.execute,parsed]
  rfl

/-- Texts that make a database of that name. -/
def makesDatabase (name : String) : List String := [(Statement.useDatabase name).text]

/-- Texts that make a table of that name. -/
def makesTable (name : String) : List String :=
  [(Statement.useDatabase "d").text,(Statement.createTable name ["a"]).text]

theorem parse_useDatabase (valid : Name.isValid name = true) :
    Statement.parse (Statement.useDatabase name).text = .ok (.useDatabase name) :=
  Statement.parse_text valid fun _ => nofun

theorem parse_createTable (valid : Name.isValid name = true) :
    Statement.parse (Statement.createTable name ["a"]).text = .ok (.createTable name ["a"]) :=
  Statement.parse_text ⟨valid,by simp,by decide +kernel⟩ fun _ => nofun

section Makes

variable {room : Room} (valid : Name.isValid name = true)

include valid

theorem said_makesDatabase : (Catalog.empty.executeAll room .comma (makesDatabase name)).1 =
    [if room.database name then .ok (.databaseSelected name) else .error Room.refusal] := by
  have checked : Name.check .database name = .ok () := Name.check_eq_ok_iff.mpr valid
  by_cases fits : room.database name = true <;>
    simp [makesDatabase,Catalog.executeAll,Catalog.execute_of_parse (parse_useDatabase valid),
      Catalog.run,Catalog.useDatabase,checked,fits,bind,Except.bind]

theorem said_makesTable (opened : room.database "d" = true) :
    (Catalog.empty.executeAll room .comma (makesTable name)).1 =
      [.ok (.databaseSelected "d"),
        if room.table name then .ok (.message ("Created Table: " ++ name)) else .error Room.refusal] := by
  have own : Name.isValid "d" = true := by decide +kernel
  have checked : Name.check .database "d" = .ok () := Name.check_eq_ok_iff.mpr own
  have first : Header.ofColumns ["a"] = .ok ⟨["a"],List.nodup_singleton _⟩ := rfl
  have values : ["a"].forM TableFormat.comma.checkValue = .ok () := by decide +kernel
  have fresh : ((AList.singleton "d" ∅ : Databases).lookup "d").getD ∅ = ∅ := rfl
  by_cases fits : room.table name = true <;>
    simp [makesTable,Catalog.executeAll,Catalog.execute_of_parse (parse_useDatabase own),
      Catalog.execute_of_parse (parse_createTable valid),Catalog.run,Catalog.useDatabase,checked,opened,
      Catalog.empty,Catalog.tablesOf,fresh,Tables.run,Tables.create,first,values,fits,bind,Except.bind]

end Makes

/-- Without the limits of names a catalog would make a database, and a table, that a session refuses. -/
theorem long_names_refused :
    ((Workspace.start .empty (Path.ofText "data") .comma).executeAll (makesDatabase longName)).1 ≠
        (Catalog.empty.executeAll .unlimited .comma (makesDatabase longName)).1 ∧
      ((Workspace.start .empty (Path.ofText "data") .comma).executeAll (makesTable longName)).1 ≠
        (Catalog.empty.executeAll .unlimited .comma (makesTable longName)).1 := by
  have long : ¬Room.ofFiles.database longName = true ∧ ¬Room.ofFiles.table longName = true := by
    rw [Room.ofFiles_database,Room.ofFiles_table,String.utf8ByteSize_append,size_longName,maxNameBytes]
    omega
  have opened : Statement.parse (Statement.useDatabase "d").text = .ok (.useDatabase "d") :=
    parse_useDatabase (by decide +kernel)
  have same := fun texts fits => (executeAll_refines (by decide) (by decide) (represents_empty .comma) texts
    (Catalog.replacesWithRoom_of_names _ _ fits _)).1
  constructor
  · have keeps : ∀ text ∈ makesDatabase longName, ∀ statement ∈ (Statement.parse text).toOption,
        ∀ name ∈ statement.replaced?, Database.FitsScratch name := by
      simp [makesDatabase,parse_useDatabase isValid_longName,Except.toOption,Statement.replaced?]
    rw [same _ keeps,said_makesDatabase isValid_longName,said_makesDatabase isValid_longName,if_neg long.1]
    simp [Room.unlimited]
  · have keeps : ∀ text ∈ makesTable longName, ∀ statement ∈ (Statement.parse text).toOption,
        ∀ name ∈ statement.replaced?, Database.FitsScratch name := by
      simp [makesTable,opened,parse_createTable isValid_longName,Except.toOption,Statement.replaced?]
    rw [same _ keeps,said_makesTable isValid_longName (by decide +kernel),
      said_makesTable isValid_longName rfl,if_neg long.2]
    simp [Room.unlimited]

end PlainTables
