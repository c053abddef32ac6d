import PlainTables.Database.Run
import PlainTables.Proofs.Database.Written
import PlainTables.Proofs.Files.Below
import PlainTables.Proofs.Files.Directories
import PlainTables.Proofs.Statement.WellFormed

/-! Files that hold what statements have made. As long as every file is the written text of a table
whose cells can be stored, a statement that succeeds leaves such files again; what it does to them is
said once, by its kind. -/
namespace PlainTables

open Actions FileAction FileTree

variable {format : TableFormat} {tree after : FileTree} {place : Location} {table changed : Table}
  {db : Database} {name : String}

/-! ### Files of tables -/

/-- A file holds one table only. -/
theorem TableFormat.Storable.unique (noFeed : format.delimiter ≠ '\n')
    (noReturn : format.delimiter ≠ '\r') (storable : format.Storable table)
    (other : format.Storable changed)
    (same : (format.writtenTable table).toUTF8 = (format.writtenTable changed).toUTF8) :
    table = changed := by
  have texts : format.writtenTable table = format.writtenTable changed := by
    rw [← Option.some.injEq,← Text.fromUTF8?_toUTF8,same,Text.fromUTF8?_toUTF8]
  have whole := storable.tableOfText_writtenTable noFeed noReturn ""
  rw [texts,other.tableOfText_writtenTable noFeed noReturn] at whole
  exact (Except.ok.inj whole).symm

/-- Every file is the written text of a table whose cells can be stored. -/
def OnlyTables (format : TableFormat) (tree : FileTree) : Prop :=
  ∀ place bytes, tree.node? place = some (.file bytes) →
    ∃ table, format.Storable table ∧ bytes = (format.writtenTable table).toUTF8

namespace OnlyTables

theorem put (only : OnlyTables format tree) (storable : format.Storable table) :
    OnlyTables format (tree.put place (.file (format.writtenTable table).toUTF8)) := by
  intro other bytes file
  by_cases root : other = []
  · simp [root] at file
  by_cases same : other = place
  · rw [same,node?_put_same _ _ (same ▸ root)] at file
    cases file
    exact ⟨table,storable,rfl⟩
  · rw [node?_put_other _ _ same] at file
    exact only other bytes file

theorem remove (only : OnlyTables format tree) (place : Location) :
    OnlyTables format (tree.remove place) := by
  intro other bytes file
  by_cases root : other = []
  · simp [root] at file
  by_cases same : other = place
  · simp [same,node?_remove_same tree (same ▸ root)] at file
  · rw [node?_remove_other _ same] at file
    exact only other bytes file

theorem of_sameFiles {a b : FileTree} (only : OnlyTables format a) (same : SameFiles a b) :
    OnlyTables format b :=
  fun place bytes file => only place bytes ((same place bytes).mpr file)

end OnlyTables

namespace Database

/-- A table is found in its file as it is written. -/
structure Stores (db : Database) (format : TableFormat) (name : String) (tree : FileTree)
    (place : Location) (table : Table) : Prop where
  storable : format.Storable table
  text : HasText db name tree place (format.writtenTable table)

/-- The file of a table has been replaced by way of the scratch file. -/
def Rewrites (db : Database) (format : TableFormat) (name : String) (place : Location)
    (changed : Table) (tree after : FileTree) : Prop :=
  ∃ beside, tree.locate (db.scratchPath name) = .ok beside ∧ tree.node? beside ≠ some .directory ∧
    after = tree.replaced beside place (format.writtenTable changed).toUTF8

namespace Stores

variable (stored : db.Stores format name tree place table)

include stored

theorem located : tree.locate (db.tablePath name) = .ok place := (find_eq_ok.mp stored.text).1

theorem node : tree.node? place = some (.file (format.writtenTable table).toUTF8) :=
  (find_eq_ok.mp stored.text).2

theorem free : tree.node? place ≠ some .directory := by simp [stored.node]

theorem put (storable : format.Storable changed) :
    db.Stores format name (tree.put place (.file (format.writtenTable changed).toUTF8)) place changed :=
  ⟨storable,hasText_put stored.text⟩

/-- A file stays where it is when other ones are made or removed and no directory is. -/
theorem of_node {later : FileTree} (same : SameDirectories tree later)
    (kept : later.node? place = tree.node? place) : db.Stores format name later place table :=
  ⟨stored.storable,find_eq_ok.mpr ⟨same.forth.locate stored.located,kept.trans stored.node⟩⟩

section Read

variable (noFeed : format.delimiter ≠ '\n') (noReturn : format.delimiter ≠ '\r')

include noFeed noReturn

theorem read : format.tableOfText name (format.writtenTable table) = .ok table :=
  stored.storable.tableOfText_writtenTable noFeed noReturn name

theorem load : db.load format name tree = .ok table tree :=
  (load_eq_ok_iff stored.text).mpr (stored.read noFeed noReturn)

end Read

end Stores

theorem stores_of_loadText (noFeed : format.delimiter ≠ '\n') (noReturn : format.delimiter ≠ '\r')
    (only : OnlyTables format tree) {text : String}
    (loaded : db.loadText format name tree = .ok (table,text) tree) :
    ∃ place, db.Stores format name tree place table ∧ text = format.writtenTable table := by
  obtain ⟨⟨place,stored⟩,read⟩ := hasText_of_loadText loaded
  obtain ⟨found,storable,bytes⟩ := only place _ (find_eq_ok.mp stored).2
  have texts : text = format.writtenTable found := by
    rw [← Option.some.injEq,← Text.fromUTF8?_toUTF8,bytes,Text.fromUTF8?_toUTF8]
  rw [texts,storable.tableOfText_writtenTable noFeed noReturn] at read
  cases read
  exact ⟨place,⟨storable,texts ▸ stored⟩,texts⟩

theorem stores_of_load (noFeed : format.delimiter ≠ '\n') (noReturn : format.delimiter ≠ '\r')
    (only : OnlyTables format tree) (loaded : db.load format name tree = .ok table after) :
    after = tree ∧ ∃ place, db.Stores format name tree place table := by
  obtain rfl := (load_looksOnly db format name).of_ok loaded
  obtain ⟨text,found⟩ := load_eq_ok.mp loaded
  obtain ⟨place,stored,-⟩ := stores_of_loadText noFeed noReturn only found
  exact ⟨rfl,place,stored⟩

/-! ### Rewrites -/

theorem replace_eq_ok (stored : db.Stores format name tree place table) {u : Unit} :
    db.replace format name changed tree = .ok u after ↔
      db.Rewrites format name place changed tree after := by
  rcases replace_of_found format stored.text changed with
    ⟨beside,located,free,run⟩ | ⟨cause,refused,run⟩
  · rw [run]
    constructor
    · rintro ⟨⟩
      exact ⟨beside,located,free,rfl⟩
    · rintro ⟨_,again,-,rfl⟩
      rw [located] at again
      cases again
      rfl
  · rw [run]
    constructor
    · nofun
    · rintro ⟨beside,located,free,-⟩
      have written : tree.overwriteFile (db.scratchPath name) (format.writtenTable changed).toUTF8 =
          .ok (tree.put beside _) := overwriteFile_eq_ok.mpr ⟨beside,located,free,rfl⟩
      rw [refused] at written
      cases written

namespace Rewrites

variable (rewrites : db.Rewrites format name place changed tree after)

include rewrites

theorem sameDirectories (stored : db.Stores format name tree place table) :
    SameDirectories tree after := by
  obtain ⟨beside,-,free,rfl⟩ := rewrites
  exact .replaced free stored.free

theorem stores (stored : db.Stores format name tree place table) (storable : format.Storable changed) :
    db.Stores format name after place changed := by
  obtain ⟨beside,-,free,rfl⟩ := rewrites
  exact ⟨storable,hasText_replaced stored.text free⟩

theorem onlyTables (only : OnlyTables format tree) (storable : format.Storable changed) :
    OnlyTables format after := by
  obtain ⟨beside,-,-,rfl⟩ := rewrites
  exact ((only.put storable).remove beside).put storable

/-- The same rewrite can be made again, and nothing changes by it. -/
theorem again (stored : db.Stores format name tree place table) :
    ∃ last, db.Rewrites format name place changed after last ∧
      ∀ other, last.node? other = after.node? other := by
  have directories := rewrites.sameDirectories stored
  obtain ⟨beside,located,free,rfl⟩ := rewrites
  have inside := ne_nil_of_not_directory stored.free
  refine ⟨_,⟨beside,directories.forth.locate located,?_,rfl⟩,fun other => ?_⟩
  · exact fun directory => free (directories.back.directory beside directory)
  by_cases here : other = place
  · rw [here,node?_replaced_same _ inside,node?_replaced_same _ inside]
  by_cases aside : other = beside
  · have gone (before : FileTree) (bytes : ByteArray) :
        (before.replaced beside place bytes).node? beside = none :=
      node?_replaced_beside bytes (ne_nil_of_not_directory free) (aside ▸ here)
    rw [aside,gone,gone]
  · exact changesWithin_replaced beside place _ other (by simp [here,aside])

end Rewrites

end Database
end PlainTables
