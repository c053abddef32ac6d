import PlainTables.Proofs.Database.Written

/-! What changes make of tables that were written by hand. Every cell that is not changed stays
as it was, with one exception: a carriage return at the end of a line is a part of its last cell
when the line is read, but not when the line is written again. -/
namespace PlainTables.Database

open Actions FileAction FileTree

variable {db : Database} {name text : String} {tree after : FileTree} {table : Table} {n : Nat}

theorem insert_by_hand (loaded : db.loadText .comma name tree = .ok (table,text) tree)
    {fields : List String} {rows : List Row}
    (run : db.insert .comma name fields rows tree = .ok n after) :
    n = rows.length ∧
      (db.load .comma name after = .ok (table.inserted fields rows) after ↔
        rows = [] ∨ text.toList.getLast? ≠ some '\r') := by
  obtain ⟨⟨place,stored⟩,read⟩ := hasText_of_loadText loaded
  obtain ⟨checked,rfl,left⟩ := insert_done stored read run
  exact ⟨rfl,load_inserted_iff (by decide) (by decide) stored read checked left⟩

theorem update_by_hand (loaded : db.loadText .comma name tree = .ok (table,text) tree)
    {assignments : List Assignment} {filter : Filter}
    (run : db.update .comma name assignments filter tree = .ok n after) :
    n = (table.holding filter).length ∧
      (db.load .comma name after = .ok (table.updated assignments filter) after ↔
        ∀ row ∈ table.header.columns :: (table.updated assignments filter).rows,
          ¬TableFormat.EndsInReturn row) := by
  obtain ⟨⟨place,stored⟩,read⟩ := hasText_of_loadText loaded
  obtain ⟨checked,rfl,beside,free,rfl⟩ := update_done stored read run
  have writable := writable_updated (TableFormat.writable_of_tableOfText read) checked filter
  exact ⟨rfl,load_replaced_iff (by decide) (by decide) stored free writable⟩

theorem delete_by_hand (loaded : db.loadText .comma name tree = .ok (table,text) tree)
    {filter : Filter} (run : db.delete .comma name filter tree = .ok n after) :
    n = (table.holding filter).length ∧
      (db.load .comma name after = .ok (table.deleted filter) after ↔
        ∀ row ∈ table.header.columns :: (table.deleted filter).rows,
          ¬TableFormat.EndsInReturn row) := by
  obtain ⟨⟨place,stored⟩,read⟩ := hasText_of_loadText loaded
  obtain ⟨rfl,beside,free,rfl⟩ := delete_done stored read run
  have writable := writable_deleted (TableFormat.writable_of_tableOfText read) filter
  exact ⟨rfl,load_replaced_iff (by decide) (by decide) stored free writable⟩

/-- A change of a table that was read from any text is what is read afterwards, exactly if it
does not write a line anew that ends with a carriage return: the last line of the text before an
insertion, and every line of the new table in an update or a deletion. -/
theorem change_by_hand (db : Database) (name : String) (tree : FileTree) (table : Table)
    (text : String) (loaded : db.loadText .comma name tree = .ok (table,text) tree) :
    (∀ fields rows n after, db.insert .comma name fields rows tree = .ok n after →
      n = rows.length ∧ (db.load .comma name after = .ok (table.inserted fields rows) after ↔
        rows = [] ∨ text.toList.getLast? ≠ some '\r')) ∧
    (∀ assignments filter n after,
      db.update .comma name assignments filter tree = .ok n after →
      n = (table.holding filter).length ∧
        (db.load .comma name after = .ok (table.updated assignments filter) after ↔
          ∀ row ∈ table.header.columns :: (table.updated assignments filter).rows,
            ¬TableFormat.EndsInReturn row)) ∧
    (∀ filter n after, db.delete .comma name filter tree = .ok n after →
      n = (table.holding filter).length ∧
        (db.load .comma name after = .ok (table.deleted filter) after ↔
          ∀ row ∈ table.header.columns :: (table.deleted filter).rows,
            ¬TableFormat.EndsInReturn row)) :=
  ⟨fun _ _ _ _ run => insert_by_hand loaded run,fun _ _ _ _ run => update_by_hand loaded run,
    fun _ _ _ run => delete_by_hand loaded run⟩

/-- A table with a carriage return at the end of a cell, and its database. -/
def byHand : FileTree :=
  ⟨[(["t.csv","work"],.file "a,b\n1,2\r\r\n3,4".toUTF8),(["work"],.directory)],["work"]⟩

def here : Database := ⟨"work",Path.ofText "."⟩

/-- An insertion leaves the cell, an update replaces it, and a deletion of no row changes it. -/
theorem byHand_changed :
    let table : Table := ⟨⟨["a","b"],by decide⟩,[["1","2\r"],["3","4"]]⟩
    let inserted := here.insert .comma "t" ["b"] [["5"]] byHand
    let updated := here.update .comma "t" [⟨"b","6"⟩] ⟨[⟨"a",.eq,"1"⟩],[]⟩ byHand
    let deleted := here.delete .comma "t" ⟨[⟨"a",.gt,"3"⟩],[]⟩ byHand
    here.load .comma "t" (left inserted) =
        .ok ⟨table.header,[["1","2\r"],["3","4"],["","5"]]⟩ (left inserted) ∧
      here.load .comma "t" (left updated) = .ok ⟨table.header,[["1","6"],["3","4"]]⟩ (left updated) ∧
      here.load .comma "t" (left deleted) ≠ .ok table (left deleted) := by
  intro table inserted updated deleted
  have loaded : here.loadText .comma "t" byHand = .ok (table,"a,b\n1,2\r\r\n3,4") byHand :=
    (loadText_looksOnly here .comma "t").eq_ok (by decide +kernel)
  have insertion : inserted = .ok 1 (left inserted) := eq_ok_of_outcome (by decide +kernel)
  have change : updated = .ok 1 (left updated) := eq_ok_of_outcome (by decide +kernel)
  have deletion : deleted = .ok 0 (left deleted) := eq_ok_of_outcome (by decide +kernel)
  obtain ⟨insert,update,delete⟩ := change_by_hand here "t" byHand table _ loaded
  refine ⟨?_,?_,?_⟩
  · exact (insert _ _ _ _ insertion).2.mpr (.inr (by decide))
  · exact (update _ _ _ _ change).2.mpr (by decide)
  · have same : table.deleted ⟨[⟨"a",.gt,"3"⟩],[]⟩ = table := by decide +kernel
    rw [← same]
    exact fun found => absurd ((delete _ _ _ deletion).2.mp found) (by decide)

end PlainTables.Database
