import PlainTables.Database.Run
import PlainTables.Proofs.Database.Written
import PlainTables.Proofs.Table.Order
import PlainTables.Proofs.Table.Read

/-! Reads in order. An ordered read gives what the plain read gives, sorted by one column; it fails on
a column exactly if the plain read does or its own column is not among the selected ones. -/
namespace PlainTables

open Actions

/-! ### Tables -/

namespace Table

variable {table : Table} {fields : List String} {filter : Filter} {key : SortKey} {fault : Fault}

theorem category_of_readOrdered (balanced : filter.Balanced)
    (failed : table.readOrdered fields filter key = .error fault) : fault.category = .field := by
  rw [readOrdered_eq balanced] at failed
  rcases check_eq_error.mp failed with unknown | ⟨_,_,later⟩
  · exact category_of_checkSelected unknown
  · split at later
    · rw [← bind_ok] at later
      rcases check_eq_error.mp later with columns | ⟨_,_,returned⟩
      · exact category_of_selected columns
      · cases returned
    · cases later
      rfl

theorem readOrdered_eq_ok (balanced : filter.Balanced) {sorted : List Record} :
    table.readOrdered fields filter key = .ok sorted ↔
      key.column ∈ table.header.selectedFields fields ∧
        ∃ records, table.read fields filter = .ok records ∧ sorted = key.sort records := by
  rw [readOrdered_eq balanced,read_eq balanced]
  cases table.header.checkSelected fields with
  | error fault => simp [bind,Except.bind]
  | ok u =>
    by_cases inside : key.column ∈ table.header.selectedFields fields
    · cases table.selected fields filter <;> simp [bind,Except.bind,Except.map,inside,eq_comm]
    · simp [bind,Except.bind,inside]

theorem readOrdered_succeeds_iff (balanced : filter.Balanced) :
    (∃ sorted, table.readOrdered fields filter key = .ok sorted) ↔
      (∃ records, table.read fields filter = .ok records) ∧
        key.column ∈ table.header.selectedFields fields := by
  constructor
  · rintro ⟨_,sorted⟩
    obtain ⟨inside,records,found,-⟩ := (readOrdered_eq_ok balanced).mp sorted
    exact ⟨⟨records,found⟩,inside⟩
  · rintro ⟨⟨records,found⟩,inside⟩
    exact ⟨_,(readOrdered_eq_ok balanced).mpr ⟨inside,records,found,rfl⟩⟩

end Table

/-! ### Databases -/

namespace Database

variable {db : Database} {format : TableFormat} {name : String} {tree : FileTree} {table : Table}
  {fields : List String} {filter : Filter} {key : SortKey}

/-- A statement that fails on a column. -/
def FailsOnField (result : EStateM.Result Fault FileTree Answer) : Prop :=
  ∃ fault after, result = .error fault after ∧ fault.category = .field

/-- What is said of the records that were found. -/
def answered (tree : FileTree) : Except Fault (List Record) → EStateM.Result Fault FileTree Answer
  | .ok records => .ok (.records records) tree
  | .error fault => .error fault tree

theorem answered_eq_ok {found : Except Fault (List Record)} {records : List Record} :
    answered tree found = .ok (.records records) tree ↔ found = .ok records := by
  cases found <;> simp [answered]

theorem failsOnField_answered {found : Except Fault (List Record)}
    (category : ∀ fault, found = .error fault → fault.category = .field) :
    FailsOnField (answered tree found) ↔ ¬∃ records, found = .ok records := by
  cases found with
  | error fault => simp [answered,FailsOnField,category fault rfl]
  | ok records => simp [answered,FailsOnField]

theorem run_answered (look : Table → Except Fault (List Record))
    (loaded : db.load format name tree = .ok table tree) :
    ((db.load format name >>= fun table => FileAction.require (look table)) >>=
        fun records => pure (Answer.records records)) tree = answered tree (look table) := by
  have looked : (db.load format name >>= fun table => FileAction.require (look table)) tree =
      FileAction.require (look table) tree := bind_of_ok loaded
  cases found : look table with
  | error fault =>
    rw [found] at looked
    exact bind_of_error looked
  | ok records =>
    rw [found] at looked
    exact bind_of_ok looked

theorem run_read (loaded : db.load format name tree = .ok table tree) :
    db.run format (.read name fields filter) tree = answered tree (table.read fields filter) :=
  run_answered (·.read fields filter) loaded

theorem run_readOrdered (loaded : db.load format name tree = .ok table tree) :
    db.run format (.readOrdered name fields filter key) tree =
      answered tree (table.readOrdered fields filter key) :=
  run_answered (·.readOrdered fields filter key) loaded

/-- An ordered read on a table that loads. It sorts what the plain read gives, in either direction,
and leaves records whose sort cells are equal in the order of the table. -/
theorem readOrdered_sorts (loaded : db.load format name tree = .ok table tree)
    (balanced : filter.Balanced) (fields : List String) (key : SortKey) :
    let plain := db.run format (.read name fields filter) tree
    let ordered := db.run format (.readOrdered name fields filter key) tree
    (FailsOnField ordered ↔
      FailsOnField plain ∨ key.column ∉ table.header.selectedFields fields) ∧
    (¬FailsOnField ordered → ∃ records sorted,
      plain = .ok (.records records) tree ∧ ordered = .ok (.records sorted) tree ∧
      sorted.Perm records ∧
      records = (table.holding filter).map
        (table.header.record (table.header.selectedFields fields)) ∧
      (∀ record ∈ records, record.get? key.column = some (key.cellOf record)) ∧
      (sorted.Pairwise fun x y =>
        if key.ascending then compareCells (key.cellOf x) (key.cellOf y) ≠ .gt
        else compareCells (key.cellOf x) (key.cellOf y) ≠ .lt) ∧
      ∀ cell, sorted.filter (fun record => compareCells (key.cellOf record) cell = .eq) =
        records.filter fun record => compareCells (key.cellOf record) cell = .eq) := by
  dsimp only
  rw [run_read loaded,run_readOrdered loaded,
    failsOnField_answered fun _ failed => Table.category_of_read balanced failed,
    failsOnField_answered fun _ failed => Table.category_of_readOrdered balanced failed]
  rw [Table.readOrdered_succeeds_iff balanced]
  refine ⟨not_and_or,fun both => ?_⟩
  obtain ⟨⟨records,found⟩,inside⟩ := not_not.mp both
  obtain ⟨-,-,-,same⟩ := Table.read_eq_ok.mp found
  refine ⟨records,key.sort records,?_,?_,key.sort_perm records,same,?_,key.sort_ordered records,
    fun cell => key.sort_stable cell records⟩
  · rw [found,answered]
  · rw [(Table.readOrdered_eq_ok balanced).mpr ⟨inside,records,found,rfl⟩,answered]
  · intro record member
    rw [same] at member
    obtain ⟨row,-,rfl⟩ := List.mem_map.mp member
    rw [SortKey.cellOf,Header.get?_record row inside,Option.getD_some]

def results : Database := ⟨"results",Path.ofText "results"⟩

/-- Numbers, one of them written in two ways, and a text in one column. -/
def mixed : FileTree :=
  ⟨[(["t.csv","results"],.file "a,b\n2,x\n10,y\nz,w\n2.0,v\n".toUTF8),(["results"],.directory)],[]⟩

def mixedTable : Table :=
  ⟨⟨["a","b"],by decide⟩,[["2","x"],["10","y"],["z","w"],["2.0","v"]]⟩

/-- The two equal numbers keep their order in a descending read. -/
theorem mixed_sorted :
    let key : SortKey := ⟨"a",false⟩
    results.load .comma "t" mixed = .ok mixedTable mixed ∧ Filter.everything.Balanced ∧
      ∃ sorted, results.run .comma (.readOrdered "t" ["b","a"] .everything key) mixed =
          .ok (.records sorted) mixed ∧
        sorted.filter (fun record => compareCells (key.cellOf record) "2" = .eq) =
          [[("b","x"),("a","2")],[("b","v"),("a","2.0")]] := by
  intro key
  have loaded : results.load .comma "t" mixed = .ok mixedTable mixed :=
    (load_looksOnly _ .comma "t").eq_ok (by decide +kernel)
  have found : results.run .comma (.read "t" ["b","a"] .everything) mixed =
      .ok (.records (mixedTable.rows.map (mixedTable.header.record ["b","a"]))) mixed := by
    rw [run_read loaded]
    exact answered_eq_ok.mpr (by decide +kernel)
  obtain ⟨refused,sorts⟩ := readOrdered_sorts loaded Filter.everything_balanced ["b","a"] key
  have succeeds : ¬FailsOnField
      (results.run .comma (.readOrdered "t" ["b","a"] .everything key) mixed) := by
    intro failed
    rcases refused.mp failed with ⟨_,_,failed,-⟩ | missing
    · rw [found] at failed
      cases failed
    · exact missing (by decide)
  obtain ⟨records,sorted,plain,ordered,-,-,-,-,stable⟩ := sorts succeeds
  rw [found] at plain
  cases plain
  refine ⟨loaded,Filter.everything_balanced,sorted,ordered,?_⟩
  rw [stable "2"]
  decide +kernel

end Database
end PlainTables
