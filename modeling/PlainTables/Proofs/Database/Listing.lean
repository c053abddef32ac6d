import Mathlib.Algebra.Order.Ring.Int
import Mathlib.Data.List.Sort
import PlainTables.Proofs.Database.Effect
import PlainTables.Proofs.Files.Parent
import PlainTables.Proofs.Text.ByteOrder

/-! What a database directory lists. A table is listed if its name is valid and its path leads to a
file, and all other operations go through the same path; so the listing tells which tables can be
dropped and which can be made, and follows each such change. -/
namespace PlainTables.Database

open Actions FileAction FileTree

variable {db : Database} {format : TableFormat} {tree after : FileTree} {home place : Location}
  {name other : String} {names columns : List String} {bytes : ByteArray}

/-! ### Paths to tables -/

/-- There is room for the name of a table's file and for the path to it. -/
def HasRoom (db : Database) (name : String) : Prop :=
  (name ++ tableSuffix).utf8ByteSize ≤ maxNameBytes ∧
    (db.tablePath name).text.utf8ByteSize ≤ maxPathBytes

instance (db : Database) (name : String) : Decidable (db.HasRoom name) :=
  inferInstanceAs (Decidable (_ ∧ _))

/-- The root leads to a directory. -/
structure Rooted (db : Database) (tree : FileTree) (home : Location) : Prop where
  located : tree.locate db.root = .ok home
  directory : tree.node? home = some .directory

namespace Rooted

variable (rooted : db.Rooted tree home)

include rooted

theorem of_sameDirectories (same : SameDirectories tree after) : db.Rooted after home :=
  ⟨same.forth.locate rooted.located,same.forth.directory home rooted.directory⟩

theorem list : tree.list db.root = .ok (tree.namesIn home) := by
  have found : tree.find db.root = .ok (home,.directory) :=
    find_eq_ok.mpr ⟨rooted.located,rooted.directory⟩
  simp [FileTree.list,found,bind,Except.bind]

section Valid

variable (valid : Name.isValid name = true)

include valid

theorem locate_table :
    tree.locate (db.tablePath name) =
      if db.HasRoom name then .ok ((name ++ tableSuffix) :: home) else .error .invalidFilename :=
  locate_below (Path.isStep_table valid) rooted.located rooted.directory

theorem place_table (located : tree.locate (db.tablePath name) = .ok place) :
    db.HasRoom name ∧ place = (name ++ tableSuffix) :: home := by
  rw [rooted.locate_table valid] at located
  split at located
  · next room => exact ⟨room,(Except.ok.inj located).symm⟩
  · cases located

theorem isFile_table :
    tree.isFile (db.tablePath name) = true ↔
      db.HasRoom name ∧
        ∃ bytes, tree.node? ((name ++ tableSuffix) :: home) = some (.file bytes) := by
  simp only [isFile_iff,find_eq_ok]
  constructor
  · rintro ⟨place,bytes,located,file⟩
    obtain ⟨room,rfl⟩ := rooted.place_table valid located
    exact ⟨room,bytes,file⟩
  · rintro ⟨room,bytes,file⟩
    exact ⟨_,bytes,(rooted.locate_table valid).trans (if_pos room),file⟩

end Valid

end Rooted

theorem isFile_iff_dropTable :
    tree.isFile (db.tablePath name) = true ↔ ∃ after, db.dropTable name tree = .ok () after := by
  rw [isFile_iff]
  constructor
  · rintro ⟨place,bytes,found⟩
    exact ⟨_,dropTable_eq_ok.mpr ⟨place,bytes,found,rfl⟩⟩
  · rintro ⟨after,dropped⟩
    obtain ⟨place,bytes,found,-⟩ := dropTable_eq_ok.mp dropped
    exact ⟨place,bytes,found⟩

theorem createTable_of_isFile (distinct : columns.Nodup)
    (values : columns.forM format.checkValue = .ok ())
    (file : tree.isFile (db.tablePath name) = true) :
    db.createTable format name columns tree = .error (.tableExists name) tree := by
  obtain ⟨place,bytes,found⟩ := isFile_iff.mp file
  obtain ⟨located,node⟩ := find_eq_ok.mp found
  have passed : require (columns.forM format.checkValue) tree = .ok () tree :=
    require_eq_ok.mpr ⟨values,rfl⟩
  simp only [createTable,Header.ofColumns_eq_ok.mpr (Eq.refl (Header.mk columns distinct).columns)]
  rw [bind_of_ok passed]
  refine change_eq_error.mpr ⟨.alreadyExists,?_,rfl,rfl⟩
  simp [createFile,located,node,bind,Except.bind]

/-! ### Listings -/

/-- The valid names whose paths lead to files, in ascending order. -/
structure Lists (db : Database) (tree : FileTree) (names : List String) : Prop where
  sorted : names.SortedLT
  mem : ∀ name, name ∈ names ↔ Name.isValid name = true ∧ tree.isFile (db.tablePath name) = true

theorem Lists.unique {others : List String} (lists : db.Lists tree names)
    (again : db.Lists tree others) : names = others :=
  lists.sorted.eq_of_mem_iff again.sorted fun name => (lists.mem name).trans (again.mem name).symm

/-- The names of a directory that are listed, in the order in which they are found. -/
def found (db : Database) (tree : FileTree) (home : Location) : List String :=
  ((tree.namesIn home).filterMap tableOfFile?).filter fun name => tree.isFile (db.tablePath name)

theorem Rooted.tables (rooted : db.Rooted tree home) :
    db.tables tree = .ok ((db.found tree home).mergeSort (fun a b => a ≤ b)) tree := by
  have asked : ask (·.list db.root) Fault.io tree = .ok (tree.namesIn home) tree :=
    ask_eq_ok.mpr ⟨rooted.list,rfl⟩
  rw [Database.tables,bind_of_ok asked]
  rfl

theorem Rooted.lists (rooted : db.Rooted tree home) (distinct : Distinct tree) :
    db.Lists tree ((db.found tree home).mergeSort (fun a b => a ≤ b)) := by
  refine ⟨List.sortedLE_mergeSort.sortedLT_of_nodup ?_,fun name => ?_⟩
  · rw [(List.mergeSort_perm _ _).nodup_iff]
    exact (nodup_tablesOfFiles (nodup_namesIn distinct home)).filter _
  rw [List.mem_mergeSort,found,List.mem_filter,List.mem_filterMap]
  constructor
  · rintro ⟨⟨file,-,stem⟩,isFile⟩
    exact ⟨(tableOfFile?_eq_some.mp stem).2,isFile⟩
  · rintro ⟨valid,isFile⟩
    -- a path that leads to a file ends in an entry of the directory
    obtain ⟨-,bytes,node⟩ := (rooted.isFile_table valid).mp isFile
    refine ⟨⟨name ++ tableSuffix,?_,tableOfFile?_eq_some.mpr ⟨rfl,valid⟩⟩,isFile⟩
    simp [mem_namesIn,node]

theorem Rooted.tables_eq_ok (rooted : db.Rooted tree home) (distinct : Distinct tree) :
    db.tables tree = .ok names after ↔ after = tree ∧ db.Lists tree names := by
  rw [rooted.tables]
  constructor
  · rintro ⟨⟩
    exact ⟨rfl,rooted.lists distinct⟩
  · rintro ⟨rfl,lists⟩
    rw [(rooted.lists distinct).unique lists]

namespace Lists

variable (lists : db.Lists tree names) (rooted : db.Rooted tree home)

include lists rooted

/-- The file of a new table is listed, and no other one is touched. -/
theorem put (valid : Name.isValid name = true) (room : db.HasRoom name)
    (absent : tree.node? ((name ++ tableSuffix) :: home) = none) :
    db.Lists (tree.put ((name ++ tableSuffix) :: home) (.file bytes))
      (names.orderedInsert (· ≤ ·) name) := by
  have fresh : name ∉ names := fun listed => by
    obtain ⟨-,bytes,node⟩ := (rooted.isFile_table valid).mp ((lists.mem name).mp listed).2
    simp [absent] at node
  have free : tree.node? ((name ++ tableSuffix) :: home) ≠ some .directory := by simp [absent]
  have later : db.Rooted (tree.put _ (.file bytes)) home := rooted.of_sameDirectories (.put free)
  refine ⟨List.SortedLE.sortedLT_of_nodup ?_ ?_,fun other => ?_⟩
  · exact (lists.sorted.sortedLE.pairwise.orderedInsert name names).sortedLE
  · exact (List.perm_orderedInsert _ name names).nodup_iff.mpr
      (List.nodup_cons.mpr ⟨fresh,lists.sorted.nodup⟩)
  rw [List.mem_orderedInsert,lists.mem]
  by_cases same : other = name
  · subst same
    simp [valid,later.isFile_table valid,room,node?_put_same]
  · simp only [same,false_or]
    refine and_congr_right fun valid' => ?_
    rw [rooted.isFile_table valid',later.isFile_table valid',node?_put_other]
    simpa using same

theorem remove (valid : Name.isValid name = true)
    (free : tree.node? ((name ++ tableSuffix) :: home) ≠ some .directory) :
    db.Lists (tree.remove ((name ++ tableSuffix) :: home)) (names.erase name) := by
  have later := rooted.of_sameDirectories (.remove free)
  refine ⟨(lists.sorted.pairwise.sublist List.erase_sublist).sortedLT,fun other => ?_⟩
  rw [lists.sorted.nodup.mem_erase_iff,lists.mem]
  by_cases same : other = name
  · subst same
    simp [later.isFile_table valid,node?_remove_same]
  · simp only [ne_eq,same,not_false_eq_true,true_and]
    refine and_congr_right fun valid' => ?_
    rw [rooted.isFile_table valid',later.isFile_table valid',node?_remove_other]
    simpa using same

theorem createTable (valid : Name.isValid name = true) (room : db.HasRoom name)
    (absent : tree.node? ((name ++ tableSuffix) :: home) = none) (distinct : columns.Nodup)
    (values : columns.forM format.checkValue = .ok ()) :
    ∃ after, db.createTable format name columns tree = .ok () after ∧
      db.Rooted after home ∧ db.Lists after (names.orderedInsert (· ≤ ·) name) := by
  have located := (rooted.locate_table valid).trans (if_pos room)
  refine ⟨_,createTable_eq_ok.mpr ⟨⟨columns,distinct⟩,_,rfl,values,located,absent,rfl⟩,?_,?_⟩
  · exact rooted.of_sameDirectories (.put (by simp [absent]))
  · exact lists.put rooted valid room absent

theorem dropTable (valid : Name.isValid name = true) {u : Unit}
    (dropped : db.dropTable name tree = .ok u after) :
    db.Rooted after home ∧ db.Lists after (names.erase name) := by
  obtain ⟨place,bytes,found,rfl⟩ := dropTable_eq_ok.mp dropped
  obtain ⟨located,node⟩ := find_eq_ok.mp found
  obtain ⟨-,rfl⟩ := rooted.place_table valid located
  have free : tree.node? ((name ++ tableSuffix) :: home) ≠ some .directory := by simp [node]
  exact ⟨rooted.of_sameDirectories (.remove free),lists.remove rooted valid free⟩

end Lists

/-! ### Agreement -/

theorem exists_rooted (directory : tree.isDirectory db.root = true) : ∃ home, db.Rooted tree home := by
  obtain ⟨home,located,node⟩ := isDirectory_iff.mp directory
  exact ⟨home,located,node⟩

/-- The listing of a database directory holds valid names in the order of their bytes, each of them
once: those that can be dropped. A listed one cannot be made again; one without an entry can be made
if there is room for it, and then it is added to the listing. One that is dropped is taken from it. -/
theorem tables_agree (format : TableFormat) (distinct : Distinct tree)
    (directory : tree.isDirectory db.root = true) :
    ∃ entries names, tree.list db.root = .ok entries ∧ db.tables tree = .ok names tree ∧
      names.Pairwise (fun first second => first.toUTF8.toList < second.toUTF8.toList) ∧
      (∀ name ∈ names, Name.isValid name = true) ∧
      ∀ name, Name.isValid name = true →
        (name ∈ names ↔ ∃ after, db.dropTable name tree = .ok () after) ∧
        (∀ columns : List String, columns.Nodup → columns.forM format.checkValue = .ok () →
          (name ∈ names →
            db.createTable format name columns tree = .error (.tableExists name) tree) ∧
          (name ++ tableSuffix ∉ entries → db.HasRoom name →
            ∃ after, db.createTable format name columns tree = .ok () after ∧
              db.tables after = .ok (names.orderedInsert (· ≤ ·) name) after)) ∧
        ∀ after, db.dropTable name tree = .ok () after →
          db.tables after = .ok (names.erase name) after := by
  obtain ⟨home,rooted⟩ := exists_rooted directory
  have lists := rooted.lists distinct
  refine ⟨_,_,rooted.list,rooted.tables,?_,fun name listed => ?_,fun name valid => ?_⟩
  · exact lists.sorted.pairwise.imp Text.toUTF8_lt
  · exact ((lists.mem name).mp listed).1
  have listed := (lists.mem name).trans (and_iff_right valid)
  refine ⟨listed.trans isFile_iff_dropTable,fun columns nodup values => ⟨fun member => ?_,?_⟩,?_⟩
  · exact createTable_of_isFile nodup values (listed.mp member)
  · intro absent room
    rw [mem_namesIn,not_not] at absent
    obtain ⟨after,created,still,later⟩ :=
      lists.createTable rooted valid room absent nodup values
    obtain ⟨header,place,-,-,-,-,rfl⟩ := createTable_eq_ok.mp created
    exact ⟨_,created,(still.tables_eq_ok (distinct.put _ _)).mpr ⟨rfl,later⟩⟩
  · intro after dropped
    obtain ⟨still,later⟩ := lists.dropTable rooted valid dropped
    obtain ⟨place,bytes,-,rfl⟩ := dropTable_eq_ok.mp dropped
    exact (still.tables_eq_ok (distinct.remove _)).mpr ⟨rfl,later⟩

/-- A database directory with two tables and entries that are none: a directory, the file of a name
with a point, a hidden file, a scratch file and a file with another suffix. -/
def crowded : FileTree :=
  ⟨["t.csv","a.b.csv",".csv","t.csv.tmp","c.CSV","b.csv"].map
      (fun file => ([file,"d","work"],.file "x\n".toUTF8)) ++
    [(["e.csv","d","work"],.directory),(["d","work"],.directory),(["work"],.directory)],["work"]⟩

def crowdedDatabase : Database := ⟨"d",Path.ofText "d"⟩

theorem crowded_tables :
    (Distinct crowded ∧ crowded.isDirectory crowdedDatabase.root = true) ∧
      crowdedDatabase.tables crowded = .ok ["b","t"] crowded ∧
      (¬∃ after, crowdedDatabase.dropTable "e" crowded = .ok () after) ∧
      crowdedDatabase.createTable .comma "t" ["x"] crowded = .error (.tableExists "t") crowded ∧
      (∃ after, crowdedDatabase.createTable .comma "c" ["x"] crowded = .ok () after ∧
        crowdedDatabase.tables after = .ok ["b","c","t"] after) ∧
      ∃ after, crowdedDatabase.dropTable "t" crowded = .ok () after ∧
        crowdedDatabase.tables after = .ok ["b"] after := by
  have distinct : Distinct crowded := by
    rw [Distinct]
    decide +kernel
  have directory : crowded.isDirectory crowdedDatabase.root = true := by decide +kernel
  have rooted : crowdedDatabase.Rooted crowded ["d","work"] := ⟨by decide +kernel,rfl⟩
  have sorted : (crowdedDatabase.found crowded ["d","work"]).mergeSort (fun a b => a ≤ b) =
      ["b","t"] := by
    have found : crowdedDatabase.found crowded ["d","work"] = ["t","b"] := by decide +kernel
    have ascending : ["b","t"].SortedLE := by decide
    rw [found]
    exact ((List.mergeSort_perm _ _).trans (.swap "b" "t" [])).eq_of_sortedLE
      List.sortedLE_mergeSort ascending
  have run := rooted.tables
  rw [sorted] at run
  obtain ⟨entries,names,listed,again,-,-,agrees⟩ := tables_agree .comma distinct directory
  cases run.symm.trans again
  cases rooted.list.symm.trans listed
  have valid : Name.isValid "t" = true ∧ Name.isValid "e" = true ∧ Name.isValid "c" = true := by
    decide +kernel
  have passed : ["x"].forM TableFormat.comma.checkValue = .ok () := by decide +kernel
  have nodup : ["x"].Nodup := by decide
  have known := agrees "t" valid.1
  have added := ((agrees "c" valid.2.2).2.1 ["x"] nodup passed).2 (by decide +kernel) (by decide +kernel)
  obtain ⟨after,dropped⟩ := known.1.mp (by decide)
  refine ⟨⟨distinct,directory⟩,run,?_,(known.2.1 ["x"] nodup passed).1 (by decide),added,?_⟩
  · exact mt (agrees "e" valid.2.1).1.mpr (by decide)
  · exact ⟨after,dropped,known.2.2 after dropped⟩

/-! ### Long paths -/

theorem size_intercalate (part : String) (parts : List String) :
    ("/".intercalate (part :: parts)).utf8ByteSize =
      part.utf8ByteSize + (parts.map fun later => 1 + later.utf8ByteSize).sum := by
  induction parts generalizing part with
  | nil => simp
  | cons next later ih =>
    have slash : "/".utf8ByteSize = 1 := by decide
    rw [String.intercalate_cons_cons,String.utf8ByteSize_append,String.utf8ByteSize_append,ih,slash,
      List.map_cons,List.sum_cons]
    omega

/-- A directory with nothing in it. -/
def bare : FileTree := ⟨[(["d","work"],.directory),(["work"],.directory)],["work"]⟩

/-- The same directory by a path with some steps that stay where they are. -/
def staying (steps : Nat) : Database := ⟨"d",⟨false,"d" :: List.replicate steps "."⟩⟩

theorem size_staying (steps : Nat) :
    (staying steps).root.text.utf8ByteSize = 1 + 2 * steps := by
  have size : "d".utf8ByteSize = 1 ∧ ".".utf8ByteSize = 1 := by decide
  have text : (staying steps).root.text = "" ++ "/".intercalate ("d" :: List.replicate steps ".") := rfl
  rw [text,String.empty_append,size_intercalate,List.map_replicate,List.sum_replicate_nat,size.1,
    size.2,Nat.mul_comm]

theorem size_staying_table (steps : Nat) :
    ((staying steps).tablePath "t").text.utf8ByteSize = 7 + 2 * steps := by
  have size : "d".utf8ByteSize = 1 ∧ ".".utf8ByteSize = 1 ∧
      ("t" ++ tableSuffix).utf8ByteSize = 5 := by
    decide
  have last : ("d" :: List.replicate steps ".").getLast? ≠ some "" := fun last => by
    simpa using List.mem_of_getLast? last
  have step : Path.IsStep ("t" ++ tableSuffix) := Path.isStep_table (by decide +kernel)
  have text : ((staying steps).tablePath "t").text =
      "" ++ "/".intercalate ("d" :: (List.replicate steps "." ++ ["t" ++ tableSuffix])) := by
    rw [tablePath,Path.ofText_step step,Path.join,if_neg (by decide),staying,if_neg last]
    rfl
  rw [text,String.empty_append,size_intercalate,List.map_append,List.map_replicate,List.sum_append,
    List.sum_replicate_nat,List.map_singleton,List.sum_singleton,size.1,size.2.1,size.2.2]
  omega

theorem follow_staying (steps : Nat) :
    bare.follow ["d","work"] (List.replicate steps ".") = .ok ["d","work"] := by
  have stays := follow_of_blank (by rfl : bare.node? ["d","work"] = some .directory)
    (Path.blank_dots steps) []
  rwa [List.append_nil] at stays

theorem rooted_staying {steps : Nat} (short : 1 + 2 * steps ≤ maxPathBytes) :
    (staying steps).Rooted bare ["d","work"] := by
  refine ⟨?_,rfl⟩
  have led : bare.locate (staying steps).root =
      bare.follow ["work"] ("d" :: List.replicate steps ".") := by
    rw [locate,size_staying,if_neg (Nat.not_lt.mpr short)]
    rfl
  rw [led,follow_step rfl ⟨by decide,by decide,by decide,by decide⟩,if_neg (by decide)]
  exact follow_staying steps

/-- A name that is short enough for a file may still be refused, if the path to the file is too long. -/
theorem long_path_refused :
    ¬∀ (tree : FileTree) (db : Database) (name : String) (columns entries : List String),
      Distinct tree → tree.isDirectory db.root = true → Name.isValid name = true →
      columns.Nodup → columns.forM TableFormat.comma.checkValue = .ok () →
      tree.list db.root = .ok entries → name ++ tableSuffix ∉ entries →
      (name ++ tableSuffix).utf8ByteSize ≤ maxNameBytes →
      ∃ after, db.createTable .comma name columns tree = .ok () after := by
  intro creates
  -- the path to the directory has 4091 bytes, that to the file has six more
  have rooted : (staying 2045).Rooted bare ["d","work"] := rooted_staying (by decide)
  have directory : bare.isDirectory (staying 2045).root = true :=
    isDirectory_iff.mpr ⟨_,rooted.located,rooted.directory⟩
  have distinct : Distinct bare := by
    rw [Distinct]
    decide
  have valid : Name.isValid "t" = true := by decide +kernel
  obtain ⟨after,created⟩ := creates bare (staying 2045) "t" ["a"] _ distinct directory valid
    (by decide) (by decide +kernel) rooted.list (by decide +kernel) (by decide)
  obtain ⟨header,place,-,-,located,-⟩ := createTable_eq_ok.mp created
  have room := (rooted.place_table valid located).1.2
  rw [size_staying_table] at room
  exact absurd room (by decide)

end PlainTables.Database
