import PlainTables.Proofs.Database.Written
import PlainTables.Proofs.Files.Placed
import PlainTables.Proofs.Workspace.Catalog

/-! Trees that hold the tables of a catalog: a directory for every database, in it the text of
every table under its name, and nothing else. The invariant is kept by a change of one file that
follows a change of one table, and by a new directory for a new database. -/
namespace PlainTables

open FileTree

/-- The databases of a catalog. -/
abbrev Databases := AList fun _ : String => Tables

theorem mem_of_lookup {β : Type} {entries : AList fun _ : String => β} {key : String} {value : β}
    (found : entries.lookup key = some value) : key ∈ entries := by
  rw [← AList.lookup_isSome,found]
  rfl

/-! ### The invariant -/

/-- What a file of a database is, by the tables that it holds. -/
def fileOf? (format : TableFormat) (databases : Databases) (name file : String) : Option Node :=
  (databases.lookup name).bind fun tables =>
    (Database.tableOfFile? file).bind fun table =>
      (tables.lookup table).map fun found => .file (format.writtenTable found).toUTF8

/-- What is known of every table in a database. -/
structure Kept (format : TableFormat) (name : String) (table : Table) : Prop where
  valid : Name.isValid name = true
  fits : Room.ofFiles.table name = true
  storable : format.Storable table

structure Holds (format : TableFormat) (tree : FileTree) (databases : Databases) : Prop where
  current : tree.current = ["work"]
  distinct : Distinct tree
  work : tree.node? ["work"] = some .directory
  data : tree.node? ["data","work"] = some .directory ∨
    tree.node? ["data","work"] = none ∧ ∀ name, name ∉ databases
  directory : ∀ name, tree.node? [name,"data","work"] =
    if name ∈ databases then some .directory else none
  file : ∀ name file, tree.node? [file,name,"data","work"] = fileOf? format databases name file
  names : ∀ name ∈ databases, Name.isValid name = true ∧ Room.ofFiles.database name = true
  tables : ∀ name tables, databases.lookup name = some tables →
    ∀ table found, tables.lookup table = some found → Kept format table found

theorem holds_empty (format : TableFormat) : Holds format .empty ∅ := by
  refine ⟨rfl,by simp [Distinct,FileTree.empty],by simp [node?,FileTree.empty],?_,?_,?_,?_,?_⟩
  · exact .inr ⟨by simp [node?,FileTree.empty],by simp⟩
  · simp [node?,FileTree.empty]
  · simp [node?,FileTree.empty,fileOf?]
  · simp
  · simp

/-! ### One database set -/

section Insert

variable {format : TableFormat} {databases : Databases} {name other file : String}
  {changed : Tables}

theorem fileOf?_insert_same :
    fileOf? format (databases.insert name changed) name file =
      (Database.tableOfFile? file).bind fun table =>
        (changed.lookup table).map fun found => .file (format.writtenTable found).toUTF8 := by
  rw [fileOf?,AList.lookup_insert,Option.bind_some]

theorem fileOf?_insert_other (apart : other ≠ name) :
    fileOf? format (databases.insert name changed) other file =
      fileOf? format databases other file := by
  rw [fileOf?,fileOf?,AList.lookup_insert_ne apart]

theorem names_insert
    (names : ∀ name ∈ databases, Name.isValid name = true ∧ Room.ofFiles.database name = true)
    (own : Name.isValid name = true ∧ Room.ofFiles.database name = true) :
    ∀ other ∈ databases.insert name changed,
      Name.isValid other = true ∧ Room.ofFiles.database other = true := by
  intro other inside
  rcases (AList.mem_insert _).mp inside with rfl | inside
  · exact own
  · exact names other inside

theorem kept_insert
    (tables : ∀ name tables, databases.lookup name = some tables →
      ∀ table found, tables.lookup table = some found → Kept format table found)
    (own : ∀ table found, changed.lookup table = some found → Kept format table found) :
    ∀ other tables, (databases.insert name changed).lookup other = some tables →
      ∀ table found, tables.lookup table = some found → Kept format table found := by
  intro other found lookup
  by_cases same : other = name
  · subst same
    rw [AList.lookup_insert] at lookup
    cases lookup
    exact own
  · rw [AList.lookup_insert_ne same] at lookup
    exact tables other found lookup

end Insert

namespace Holds

variable {format : TableFormat} {tree after : FileTree} {databases : Databases} {name : String}
  {tables changed : Tables} {table : String}

/-- The invariant looks at a catalog through its lookups only. -/
theorem congr (holds : Holds format tree databases) {others : Databases}
    (same : ∀ name, others.lookup name = databases.lookup name) : Holds format tree others := by
  have member : ∀ name, name ∈ others ↔ name ∈ databases := fun name => by
    rw [← AList.lookup_isSome,← AList.lookup_isSome,same]
  refine ⟨holds.current,holds.distinct,holds.work,?_,?_,?_,?_,?_⟩
  · simpa only [member] using holds.data
  · simpa only [member] using holds.directory
  · simpa only [fileOf?,same] using holds.file
  · simpa only [member] using holds.names
  · simpa only [same] using holds.tables

theorem hasData (holds : Holds format tree databases) (known : name ∈ databases) : HasData tree := by
  refine ⟨holds.current,holds.work,?_⟩
  rcases holds.data with directory | ⟨-,none⟩
  · exact directory
  · exact absurd known (none name)

/-- One file has followed one table. -/
theorem change (holds : Holds format tree databases) (known : databases.lookup name = some tables)
    (valid : Name.isValid table = true) (current : after.current = tree.current)
    (distinct : Distinct after)
    (others : ∀ place, place ≠ [table ++ Database.tableSuffix,name,"data","work"] →
      after.node? place = tree.node? place)
    (here : after.node? [table ++ Database.tableSuffix,name,"data","work"] =
      (changed.lookup table).map fun found => .file (format.writtenTable found).toUTF8)
    (rest : ∀ other, other ≠ table → changed.lookup other = tables.lookup other)
    (kept : ∀ found, changed.lookup table = some found → Kept format table found) :
    Holds format after (databases.insert name changed) := by
  have here' := mem_of_lookup known
  have has := holds.hasData here'
  have member : ∀ other, other ∈ databases.insert name changed ↔ other ∈ databases := by
    intro other
    rw [AList.mem_insert]
    refine ⟨?_,.inr⟩
    rintro (rfl | inside)
    · exact here'
    · exact inside
  refine ⟨current.trans holds.current,distinct,?_,.inl ?_,?_,?_,?_,?_⟩
  · rw [others _ (by simp),holds.work]
  · rw [others _ (by simp),has.data]
  · intro other
    rw [others _ (by simp),holds.directory other]
    simp only [member]
  · intro other file
    by_cases same : other = name
    · subst same
      rw [fileOf?_insert_same]
      by_cases own : file = table ++ Database.tableSuffix
      · rw [own,here,Database.tableOfFile?_eq_some.mpr ⟨rfl,valid⟩,Option.bind_some]
      · rw [others _ (by simpa using own),holds.file,fileOf?,known,Option.bind_some]
        cases found : Database.tableOfFile? file with
        | none => rfl
        | some stem =>
          have apart : stem ≠ table := by
            rintro rfl
            exact own (Database.tableOfFile?_eq_some.mp found).1
          rw [Option.bind_some,Option.bind_some,rest stem apart]
    · rw [others _ (by simp [same]),holds.file,fileOf?_insert_other same]
  · exact names_insert holds.names (holds.names name here')
  · apply kept_insert holds.tables
    intro stem content inside
    by_cases own : stem = table
    · subst own
      exact kept content inside
    · rw [rest stem own] at inside
      exact holds.tables name tables known stem content inside

/-! ### Changes of files -/

/-- A file is written where a table is set. -/
theorem put (holds : Holds format tree databases) (known : databases.lookup name = some tables)
    {found : Table} (kept : Kept format table found) :
    Holds format
      (tree.put [table ++ Database.tableSuffix,name,"data","work"]
        (.file (format.writtenTable found).toUTF8))
      (databases.insert name (tables.insert table found)) := by
  refine holds.change known kept.valid rfl (holds.distinct.put _ _)
    (fun place apart => node?_put_other tree _ apart) ?_
    (fun other apart => AList.lookup_insert_ne apart) ?_
  · rw [node?_put_same tree _ (by simp),AList.lookup_insert,Option.map_some]
  · intro content inside
    rw [AList.lookup_insert] at inside
    cases inside
    exact kept

theorem replaced (holds : Holds format tree databases)
    (known : databases.lookup name = some tables) {found : Table} (kept : Kept format table found)
    {beside : Location} (absent : tree.node? beside = none) :
    Holds format
      (tree.replaced beside [table ++ Database.tableSuffix,name,"data","work"]
        (format.writtenTable found).toUTF8)
      (databases.insert name (tables.insert table found)) := by
  refine holds.change known kept.valid rfl (holds.distinct.replaced _ _ _)
    (fun place apart => node?_replaced_other _ absent apart) ?_
    (fun other apart => AList.lookup_insert_ne apart) ?_
  · rw [node?_replaced_same _ (by simp),AList.lookup_insert,Option.map_some]
  · intro content inside
    rw [AList.lookup_insert] at inside
    cases inside
    exact kept

theorem remove (holds : Holds format tree databases)
    (known : databases.lookup name = some tables) (valid : Name.isValid table = true) :
    Holds format (tree.remove [table ++ Database.tableSuffix,name,"data","work"])
      (databases.insert name (tables.erase table)) := by
  refine holds.change known valid rfl (holds.distinct.remove _)
    (fun place apart => node?_remove_other tree apart) ?_
    (fun other apart => AList.lookup_erase_ne apart) ?_
  · rw [node?_remove_same tree (by simp),AList.lookup_erase,Option.map_none]
  · intro content inside
    rw [AList.lookup_erase] at inside
    cases inside

theorem keep (holds : Holds format tree databases) (known : databases.lookup name = some tables) :
    Holds format tree (databases.insert name tables) := by
  apply holds.congr
  intro other
  by_cases same : other = name
  · rw [same,AList.lookup_insert,known]
  · rw [AList.lookup_insert_ne same]

/-- A table is set to what it was. -/
theorem again (holds : Holds format tree databases) (known : databases.lookup name = some tables)
    {found : Table} (kept : Kept format table found) (here : tables.lookup table = some found) :
    Holds format tree (databases.insert name (tables.insert table found)) := by
  have same : ∀ other, (tables.insert table found).lookup other = tables.lookup other := by
    intro other
    by_cases own : other = table
    · rw [own,AList.lookup_insert,here]
    · rw [AList.lookup_insert_ne own]
  refine holds.change known kept.valid rfl holds.distinct (fun _ _ => rfl) ?_ (fun other _ => same other) ?_
  · rw [holds.file,fileOf?,known,Option.bind_some,
      Database.tableOfFile?_eq_some.mpr ⟨rfl,kept.valid⟩,Option.bind_some,same]
  · intro content inside
    rw [AList.lookup_insert] at inside
    cases inside
    exact kept

/-- A directory is made for a new database. -/
theorem putDirectory (holds : Holds format tree databases)
    (data : tree.node? ["data","work"] = some .directory) (fresh : name ∉ databases)
    (valid : Name.isValid name = true) (fits : Room.ofFiles.database name = true) :
    Holds format (tree.put [name,"data","work"] .directory) (databases.insert name ∅) := by
  have other : ∀ place, place ≠ [name,"data","work"] →
      (tree.put [name,"data","work"] .directory).node? place = tree.node? place :=
    fun place apart => node?_put_other tree _ apart
  refine ⟨holds.current,holds.distinct.put _ _,?_,.inl ?_,?_,?_,?_,?_⟩
  · rw [other _ (by simp),holds.work]
  · rw [other _ (by simp),data]
  · intro found
    by_cases same : found = name
    · rw [same,node?_put_same tree _ (by simp),if_pos ((AList.mem_insert _).mpr (.inl rfl))]
    · rw [other _ (by simpa using same),holds.directory]
      simp [AList.mem_insert,same]
  · intro found file
    rw [other _ (by simp),holds.file]
    by_cases same : found = name
    · subst same
      rw [fileOf?_insert_same,fileOf?,AList.lookup_eq_none.mpr fresh]
      cases Database.tableOfFile? file <;> simp
    · rw [fileOf?_insert_other same]
  · exact names_insert holds.names ⟨valid,fits⟩
  · apply kept_insert holds.tables
    simp

/-- The directory of all databases is made before the first of them. -/
theorem putData (holds : Holds format tree databases) :
    Holds format (tree.put ["data","work"] .directory) databases := by
  have other : ∀ place, place ≠ ["data","work"] →
      (tree.put ["data","work"] .directory).node? place = tree.node? place :=
    fun place apart => node?_put_other tree _ apart
  refine ⟨holds.current,holds.distinct.put _ _,?_,.inl ?_,?_,?_,holds.names,holds.tables⟩
  · rw [other _ (by simp),holds.work]
  · exact node?_put_same tree _ (by simp)
  · intro found
    rw [other _ (by simp),holds.directory]
  · intro found file
    rw [other _ (by simp),holds.file]

end Holds
end PlainTables
