import PlainTables.Proofs.Statement.Written
import PlainTables.Proofs.Workspace.Reached

/-! Tables that were created in a session and have not been dropped since. They keep their columns, and
they can be rewritten exactly if there is room for a scratch file beside them; its name is longer than
that of the table's own file, so there may be room for the one and not for the other. -/
namespace PlainTables

open Actions FileTree

variable {root : Path} {format : TableFormat} {db : Database} {name : String}

/-! ### Scratch files -/

namespace Database

/-- There is room for the name of a scratch file and for the path to it. -/
def HasScratchRoom (db : Database) (name : String) : Prop :=
  (name ++ tableSuffix ++ ".tmp").utf8ByteSize ≤ maxNameBytes ∧
    (db.scratchPath name).text.utf8ByteSize ≤ maxPathBytes

instance (db : Database) (name : String) : Decidable (db.HasScratchRoom name) :=
  inferInstanceAs (Decidable (_ ∧ _))

theorem locate_scratch {tree : FileTree} {home : Location} (valid : Name.isValid name = true)
    (located : tree.locate (db.tablePath name) = .ok ((name ++ tableSuffix) :: home)) :
    tree.locate (db.scratchPath name) =
      if db.HasScratchRoom name then .ok ((name ++ tableSuffix ++ ".tmp") :: home)
      else .error .invalidFilename :=
  locate_beside (Path.isStep_table valid) (Path.isStep_scratch valid) located

theorem rewrites_iff {tree : FileTree} {place : Location} {table : Table}
    (stored : db.Stores format name tree place table) (valid : Name.isValid name = true)
    (changed : Table) :
    (∃ after, db.Rewrites format name place changed tree after) ↔
      db.HasScratchRoom name ∧ tree.isDirectory (db.scratchPath name) = false := by
  obtain ⟨home,-,rfl⟩ := base_join (Path.isStep_table valid) (base_of_locate stored.located)
  have located := locate_scratch valid stored.located
  rw [← Bool.not_eq_true,isDirectory_iff]
  by_cases room : db.HasScratchRoom name <;> simp [Rewrites,located,room]

end Database

/-! ### Names of directories -/

/-- Names that directories of a session can have: that of the first one, those on the path to the root,
and those of databases. -/
def DirectoryName (root : Path) (part : String) : Prop :=
  part = "work" ∨ part ∈ root.parts ∨ Name.isValid part = true

structure NamedDirectories (root : Path) (tree : FileTree) : Prop where
  current : ∀ part ∈ tree.current, DirectoryName root part
  directories : ∀ place, tree.node? place = some .directory → ∀ part ∈ place, DirectoryName root part

namespace NamedDirectories

variable {a b : FileTree}

theorem empty (root : Path) : NamedDirectories root .empty := by
  have first : ∀ part ∈ ["work"], DirectoryName root part := by simp [DirectoryName]
  refine ⟨first,fun place directory => ?_⟩
  by_cases top : place = []
  · simp [top]
  · simp only [node?,top,if_false,FileTree.empty,List.lookup_cons,List.lookup_nil] at directory
    split at directory
    · next same => exact eq_of_beq same ▸ first
    · cases directory

theorem of_sameDirectories (named : NamedDirectories root a) (same : SameDirectories a b) :
    NamedDirectories root b :=
  ⟨same.forth.current ▸ named.current,fun place directory =>
    named.directories place (same.back.directory place directory)⟩

theorem of_makesAlong (named : NamedDirectories root a) (valid : Name.isValid name = true)
    (makes : MakesAlong (root.join (Path.ofText name)).stages a b) : NamedDirectories root b := by
  have current : ∀ part ∈ b.current, DirectoryName root part := makes.current ▸ named.current
  refine ⟨current,fun place directory part member => ?_⟩
  by_cases same : b.node? place = a.node? place
  · exact named.directories place (same ▸ directory) part member
  obtain ⟨stage,among,led⟩ := makes.along place same
  rcases names_of_locate led part member with start | inside
  · exact current part start
  obtain ⟨n,-,rfl⟩ := List.mem_map.mp among
  have below := List.mem_of_mem_take inside
  rw [Path.ofText_step (Path.isStep_of_valid valid)] at below
  rcases List.mem_append.mp below with above | own
  · refine .inr (.inl ?_)
    split at above
    · exact List.dropLast_subset _ above
    · exact above
  · exact .inr (.inr (List.mem_singleton.mp own ▸ valid))

/-- A scratch file has the name of no directory, unless the path to the root has that name in it. -/
theorem isDirectory_scratch (named : NamedDirectories root a) {place : Location} {table : Table}
    (stored : db.Stores format name a place table) (valid : Name.isValid name = true)
    (apart : name ++ Database.tableSuffix ++ ".tmp" ∉ root.parts) :
    a.isDirectory (db.scratchPath name) = false := by
  obtain ⟨home,-,rfl⟩ := base_join (Path.isStep_table valid) (base_of_locate stored.located)
  rw [← Bool.not_eq_true,isDirectory_iff,Database.locate_scratch valid stored.located]
  rintro ⟨place,located,directory⟩
  split at located
  · cases located
    rcases named.directories _ directory _ List.mem_cons_self with first | above | below
    · have ends := congrArg (fun text : String => text.toList.getLast?) first
      simp at ends
    · exact apart above
    · exact Name.not_mem_of_valid below (show Unicode.isAlphabetic '.' = false by decide) (by decide)
        (by simp [Database.tableSuffix])
  · cases located

end NamedDirectories

namespace Workspace

variable {w after : Workspace}

theorem useDatabase_of_invalid (invalid : Name.isValid name = false) :
    left (useDatabase name w) = w := by
  have refused : Database.openIn w.session.root name w.files =
      .error (.badName .database name) w.files := Database.openIn_of_invalid (by simp [invalid])
  rw [useDatabase,bind_of_ok get_run,
    bind_of_error (onFiles_eq_error.mpr ⟨w.files,refused,rfl⟩)]
  rfl

theorem Reached.named (noFeed : format.delimiter ≠ '\n') (noReturn : format.delimiter ≠ '\r')
    (reached : Reached root format w) : NamedDirectories root w.files := by
  have selects {w : Workspace} (sound : Sound root format w) (named : NamedDirectories root w.files)
      (name : String) : NamedDirectories root (left (useDatabase name w)).files := by
    by_cases valid : Name.isValid name = true
    · exact named.of_makesAlong valid (sound.root ▸ makesAlong_useDatabase name w)
    · rwa [useDatabase_of_invalid (Bool.not_eq_true _ ▸ valid)]
  induction reached with
  | start => exact .empty root
  | select name before ih => exact selects (before.sound noFeed noReturn) ih name
  | execute text before ih =>
    have sound := before.sound noFeed noReturn
    rcases sound.step noFeed noReturn text with
      same | ⟨name,same⟩ | ⟨statement,db,answer,files,-,-,effect,done⟩
    · rwa [same]
    · rw [same]
      exact selects sound ih name
    · rw [done]
      exact ih.of_sameDirectories effect.sameDirectories

/-! ### Lasting tables -/

/-- The text drops the table. -/
def Drops (db : Database) (name : String) (w : Workspace) (text : String) : Prop :=
  w.session.database = some db ∧ Statement.parse text = .ok (.dropTable name) ∧
    ∃ answer after, execute text w = .ok answer after

/-- A session on an empty directory has created a table with these columns in a database and has not
dropped it since. -/
inductive Lasting (root : Path) (format : TableFormat) (db : Database) (name : String)
    (columns : List String) : Workspace → Prop
  | create {w after : Workspace} {text : String} {answer : Answer} (before : Reached root format w)
      (selected : w.session.database = some db)
      (parsed : Statement.parse text = .ok (.createTable name columns))
      (done : execute text w = .ok answer after) : Lasting root format db name columns after
  | execute {w : Workspace} (text : String) (before : Lasting root format db name columns w)
      (kept : ¬Drops db name w text) : Lasting root format db name columns (left (execute text w))
  | select {w : Workspace} (other : String) (before : Lasting root format db name columns w) :
    Lasting root format db name columns (left (useDatabase other w))

/-- The file of such a table. -/
structure Lives (root : Path) (format : TableFormat) (db : Database) (name : String)
    (columns : List String) (tree : FileTree) : Prop where
  below : Name.isValid db.name = true ∧ db.root = root.join (Path.ofText db.name)
  valid : Name.isValid name = true
  stored : ∃ place table, db.Stores format name tree place table ∧ table.header.columns = columns

variable {columns : List String}

theorem Lasting.reached (lasting : Lasting root format db name columns w) : Reached root format w := by
  induction lasting with
  | @create _ _ text _ before _ _ done =>
    have next := before.execute text
    rwa [done] at next
  | execute text _ _ ih => exact ih.execute text
  | select other _ ih => exact ih.select other

theorem Lives.of_addsDirectories {a b : FileTree} (lives : Lives root format db name columns a)
    (adds : AddsDirectories a b) : Lives root format db name columns b := by
  obtain ⟨place,table,stored,same⟩ := lives.stored
  have node := (adds.sameFiles place _).mp stored.node
  exact ⟨lives.below,lives.valid,place,table,⟨stored.storable,
    find_eq_ok.mpr ⟨adds.keepsDirectories.locate stored.located,node⟩⟩,same⟩

/-- Two databases below a root with a file in common are the same. -/
theorem eq_of_place {tree : FileTree} {place : Location} {other : Database} {target : String}
    (below : Name.isValid db.name = true ∧ db.root = root.join (Path.ofText db.name))
    (belowOther : Name.isValid other.name = true ∧ other.root = root.join (Path.ofText other.name))
    (valid : Name.isValid name = true) (validTarget : Name.isValid target = true)
    (located : tree.locate (db.tablePath name) = .ok place)
    (locatedOther : tree.locate (other.tablePath target) = .ok place) :
    other = db ∧ target = name := by
  obtain ⟨_,-,rfl⟩ := place_below below (Path.isStep_table valid) located
  obtain ⟨_,-,same⟩ := place_below belowOther (Path.isStep_table validTarget) locatedOther
  obtain ⟨files,rest⟩ := List.cons.inj same
  obtain ⟨names,-⟩ := List.cons.inj rest
  refine ⟨?_,((String.append_left_inj _).mp files).symm⟩
  obtain ⟨_,path⟩ := below
  obtain ⟨_,pathOther⟩ := belowOther
  rw [← names] at pathOther
  cases db
  cases other
  simp_all

theorem Lives.of_effect (noFeed : format.delimiter ≠ '\n') (noReturn : format.delimiter ≠ '\r')
    (lives : Lives root format db name columns w.files) (sound : Sound root format w)
    {other : Database} (selected : w.session.database = some other) {statement : Statement}
    {answer : Answer} {files : FileTree} (proper : statement.Proper)
    (effect : other.Effect format w.files statement answer files)
    (kept : other = db → statement ≠ .dropTable name) :
    Lives root format db name columns files := by
  obtain ⟨place,table,stored,same⟩ := lives.stored
  have below := root_of_own sound.own selected
  rw [sound.root] at below
  obtain ⟨found,later,header⟩ := effect.keeps_columns noFeed noReturn proper stored
    (by
      rintro target rfl located
      obtain ⟨database,rfl⟩ :=
        eq_of_place lives.below below lives.valid proper stored.located located
      exact kept database rfl)
    (by
      intro target valid located
      obtain ⟨_,-,rfl⟩ := place_below lives.below (Path.isStep_table lives.valid) stored.located
      obtain ⟨_,-,aside⟩ := place_below below (Path.isStep_scratch valid) located
      have ends := congrArg (fun text : String => text.toList.getLast?) (List.cons.inj aside).1
      simp [Database.tableSuffix] at ends)
  exact ⟨lives.below,lives.valid,place,found,later,header ▸ same⟩

theorem Lasting.lives (noFeed : format.delimiter ≠ '\n') (noReturn : format.delimiter ≠ '\r')
    (lasting : Lasting root format db name columns w) : Lives root format db name columns w.files := by
  induction lasting with
  | @create w after text answer before selected parsed done =>
    have sound := before.sound noFeed noReturn
    have proper := Statement.proper_of_parse parsed
    rw [run_of_execute parsed] at done
    obtain ⟨db',files,selected',effect,rfl⟩ := sound.effect noFeed noReturn proper (by simp) done
    rw [selected] at selected'
    cases selected'
    have below := root_of_own sound.own selected
    rw [sound.root] at below
    cases effect with
    | @createTable _ header place filled values located absent =>
      have free : w.files.node? place ≠ some .directory := by simp [absent]
      refine ⟨below,proper.1,place,⟨header,[]⟩,⟨.created filled values,?_⟩,rfl⟩
      exact Database.hasText_written located free _
  | select other before ih =>
    exact ih.of_addsDirectories (makesAlong_useDatabase other _).toAddsDirectories
  | @execute w text before kept ih =>
    have sound := before.reached.sound noFeed noReturn
    rcases sound.step noFeed noReturn text with
      same | ⟨name,same⟩ | ⟨statement,other,answer,files,parsed,selected,effect,done⟩
    · rwa [same]
    · rw [same]
      exact ih.of_addsDirectories (makesAlong_useDatabase name _).toAddsDirectories
    · rw [done]
      refine ih.of_effect noFeed noReturn sound selected (Statement.proper_of_parse parsed) effect ?_
      rintro rfl rfl
      exact kept ⟨selected,parsed,answer,_,done⟩

/-! ### Rewrites of lasting tables -/

end Workspace

/-- An UPDATE of a table that assigns storable values to columns it has, or a DELETE from it. -/
def Statement.Rewrites (format : TableFormat) (name : String) (columns : List String) :
    Statement → Prop
  | .update target assignments _ =>
    target = name ∧ ∀ a ∈ assignments, a.column ∈ columns ∧ format.isStorable a.value = true
  | .delete target _ => target = name
  | _ => False

namespace Workspace

theorem counts_iff (selected : w.session.database = some db) {statement : Statement}
    (other : ∀ name, statement ≠ .useDatabase name) :
    (∃ count change after, run statement w = .ok (.rowCount count change) after) ↔
      ∃ files count change,
        db.run w.session.format statement w.files = .ok (.rowCount count change) files := by
  constructor
  · rintro ⟨count,change,after,done⟩
    obtain ⟨found,files,again,ran,-⟩ := (run_eq_ok other).mp done
    rw [selected] at again
    cases again
    exact ⟨files,count,change,ran⟩
  · rintro ⟨files,count,change,ran⟩
    exact ⟨count,change,_,(run_eq_ok other).mpr ⟨db,files,selected,ran,rfl⟩⟩

/-- A table that a session has created and not dropped since can be rewritten exactly if there is room
for its scratch file and no directory in its place. A directory can be there only because the path to
the root leads through one of that name. -/
theorem rewritable_iff (noFeed : format.delimiter ≠ '\n') (noReturn : format.delimiter ≠ '\r')
    (lasting : Lasting root format db name columns w) (selected : w.session.database = some db) :
    (∀ text statement, Statement.parse text = .ok statement →
      statement.Rewrites format name columns →
      ((∃ count change after, execute text w = .ok (.rowCount count change) after) ↔
        db.HasScratchRoom name ∧ w.files.isDirectory (db.scratchPath name) = false)) ∧
    (name ++ Database.tableSuffix ++ ".tmp" ∉ root.parts →
      w.files.isDirectory (db.scratchPath name) = false) := by
  have sound := lasting.reached.sound noFeed noReturn
  have lives := lasting.lives noFeed noReturn
  obtain ⟨place,table,stored,rfl⟩ := lives.stored
  refine ⟨fun text statement parsed rewrites => ?_,
    (lasting.reached.named noFeed noReturn).isDirectory_scratch stored lives.valid⟩
  have proper := Statement.proper_of_parse parsed
  rw [run_of_execute parsed]
  cases statement with
  | useDatabase | listTables | dropTable | createTable | insert | read | readOrdered => cases rewrites
  | update target assignments filter =>
    obtain ⟨rfl,known⟩ := rewrites
    rw [counts_iff selected (by simp),sound.tableFormat,
      ← Database.rewrites_iff stored lives.valid (table.updated assignments filter)]
    have checked := Header.checkAssignments_eq_ok.mpr fun a member => (known a member).symm
    refine exists_congr fun files => ?_
    simp only [Database.run,bind_pure_eq_ok,checked,true_and,
      Database.update_eq_ok noFeed noReturn stored proper.2.2.balanced]
    simp
  | delete target filter =>
    cases rewrites
    rw [counts_iff selected (by simp),sound.tableFormat,
      ← Database.rewrites_iff stored lives.valid (table.deleted filter)]
    refine exists_congr fun files => ?_
    simp only [Database.run,bind_pure_eq_ok,
      Database.delete_eq_ok noFeed noReturn stored proper.2.balanced]
    simp

/-- A new database. -/
def opened : Workspace := left (execute "USE DATABASE d;" (start .empty (Path.ofText "data") .comma))

def openedDatabase : Database := ⟨"d",.ofDatabase "d"⟩

theorem opened_session : opened.session = ⟨Path.ofText "data",some openedDatabase,.comma⟩ := by
  decide +kernel

/-- Any name that a file can have leads to a place where nothing is. -/
theorem free_in_opened (valid : Name.isValid name = true)
    (fits : (name ++ Database.tableSuffix).utf8ByteSize ≤ maxNameBytes) :
    ∃ place, opened.files.locate (openedDatabase.tablePath name) = .ok place ∧
      opened.files.node? place = none := by
  have step := Path.isStep_table valid
  have near : opened.files.locate (openedDatabase.tablePath "t") =
      .ok ["t.csv","d","data","work"] := by decide +kernel
  have path : openedDatabase.tablePath name = .ofFile "d" (name ++ Database.tableSuffix) :=
    Path.join_ofDatabase (by decide) step
  have keys : opened.files.entries.map Prod.fst = [["d","data","work"],["data","work"],["work"]] := by
    decide +kernel
  refine ⟨[name ++ Database.tableSuffix,"d","data","work"],?_,?_⟩
  · refine (locate_beside (Path.isStep_table (by decide +kernel)) step near).trans (if_pos ⟨fits,?_⟩)
    change (openedDatabase.tablePath name).text.utf8ByteSize ≤ maxPathBytes
    have short : "d".utf8ByteSize = 1 := by decide
    rw [path,Path.size_ofFile,short]
    simp only [maxPathBytes,maxNameBytes] at fits ⊢
    omega
  · have unknown : [name ++ Database.tableSuffix,"d","data","work"] ∉
        opened.files.entries.map Prod.fst := by simp [keys]
    rw [node?,if_neg (by simp),List.lookup_eq_none_iff]
    intro entry member
    have apart : entry.1 ≠ [name ++ Database.tableSuffix,"d","data","work"] := by
      intro same
      rw [← same] at unknown
      exact unknown (List.mem_map_of_mem member)
    simpa using apart.symm

/-- So a table of that name lasts once it is created. -/
theorem exists_lasting (valid : Name.isValid name = true)
    (fits : (name ++ Database.tableSuffix).utf8ByteSize ≤ maxNameBytes) :
    ∃ w, Lasting (Path.ofText "data") .comma openedDatabase name ["x"] w ∧
      w.session.database = some openedDatabase := by
  obtain ⟨place,located,absent⟩ := free_in_opened valid fits
  have selected : opened.session.database = some openedDatabase := by rw [opened_session]
  have proper : (Statement.createTable name ["x"]).Proper := ⟨valid,by simp,by decide +kernel⟩
  have plain : (Statement.createTable name ["x"]).filter.PlainColumns := fun _ => nofun
  have parsed := Statement.parse_text proper plain
  have values : ["x"].forM TableFormat.comma.checkValue = .ok () := by decide +kernel
  obtain ⟨files,created⟩ : ∃ files,
      openedDatabase.createTable .comma name ["x"] opened.files = .ok () files :=
    ⟨_,Database.createTable_eq_ok.mpr ⟨⟨["x"],by decide⟩,place,rfl,values,located,absent,rfl⟩⟩
  have ran : run (.createTable name ["x"]) opened =
      .ok (.message ("Created Table: " ++ name)) { opened with files := files } := by
    refine (run_eq_ok (by simp)).mpr ⟨openedDatabase,files,selected,?_,rfl⟩
    rw [opened_session]
    exact bind_pure_eq_ok.mpr ⟨(),created,rfl⟩
  rw [← run_of_execute parsed] at ran
  exact ⟨_,.create (Reached.start.execute _) selected parsed ran,selected⟩

/-- As many letters as the name of a table's file has room for, but not that of its scratch file. -/
def wideName : String := String.ofList (List.replicate 248 'a')

theorem wideName_not_rewritable :
    ∃ w, Lasting (Path.ofText "data") .comma openedDatabase wideName ["x"] w ∧
      w.session.database = some openedDatabase ∧
      ∃ text, Statement.parse text = .ok (.delete wideName ⟨[⟨"x",.eq,"1"⟩],[]⟩) ∧
        ¬∃ count change after, execute text w = .ok (.rowCount count change) after := by
  have size : wideName.utf8ByteSize = 248 := Name.size_letters 248
  have valid : Name.isValid wideName = true := Name.isValid_letters 247
  have suffix : Database.tableSuffix.utf8ByteSize = 4 := by decide
  have scratch : ".tmp".utf8ByteSize = 4 := by decide
  obtain ⟨w,lasting,selected⟩ := exists_lasting valid (by
    rw [String.utf8ByteSize_append,size,suffix,maxNameBytes]
    omega)
  have proper : (Statement.delete wideName ⟨[⟨"x",.eq,"1"⟩],[]⟩).Proper := ⟨valid,by decide⟩
  have parsed := Statement.parse_text proper (by unfold Filter.PlainColumns; decide +kernel)
  refine ⟨w,lasting,selected,_,parsed,fun counted => ?_⟩
  have room := (((rewritable_iff (by decide) (by decide) lasting selected).1 _ _ parsed rfl).mp
    counted).1.1
  rw [String.utf8ByteSize_append,String.utf8ByteSize_append,size,suffix,scratch,maxNameBytes] at room
  omega

end Workspace
end PlainTables
