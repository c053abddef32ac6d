import PlainTables.Proofs.Database.Effect
import PlainTables.Proofs.Table.Delimited

/-! Calls on one table, one after the other and with any delimiter. What the answers say about the table
is kept in an account, and the calls also say which table they make. Main statement: the file can be read
after every call that succeeds, and agrees with the account, exactly if the lines of the tables that are
made all read back. With a delimiter that is no line feed and no carriage return they always do. -/
namespace PlainTables

open Actions FileAction FileTree

/-- A call that creates a table or changes it. -/
inductive TableChange where
  | create (columns : List String)
  | insert (fields : List String) (rows : List Row)
  | update (assignments : List Assignment) (filter : Filter)
  | delete (filter : Filter)

/-- The columns a table was created with, and its number of rows if the answers are right. -/
structure Account where
  columns : List String
  count : Nat

/-- A call that succeeds answers how many rows it has written, changed or removed. -/
def Account.record (account : Account) : TableChange → Nat → Account
  | .create columns,_ => ⟨columns,0⟩
  | .insert _ _,n => ⟨account.columns,account.count + n⟩
  | .update _ _,_ => account
  | .delete _,n => ⟨account.columns,account.count - n⟩

namespace TableChange

/-- The table after a call that succeeds, which is none before it is created. -/
def made (table? : Option Table) : TableChange → Option Table
  | .create columns => (Header.ofColumns columns).toOption.map fun header => ⟨header,[]⟩
  | .insert fields rows => table?.map fun table => table.inserted fields rows
  | .update assignments filter => table?.map fun table => table.updated assignments filter
  | .delete filter => table?.map fun table => table.deleted filter

variable {σ : Type} (db : Database) (format : TableFormat) (name : String)

def run : TableChange → FileAction Nat
  | .create columns => do
    db.createTable format name columns
    return 0
  | .insert fields rows => db.insert format name fields rows
  | .update assignments filter => db.update format name assignments filter
  | .delete filter => db.delete format name filter

/-- A record is kept of the calls that succeed, and after each of them it is right. -/
def Throughout (record : σ → TableChange → Nat → σ) (right : σ → FileTree → Prop) :
    σ → FileTree → List TableChange → Prop
  | _,_,[] => True
  | kept,tree,change :: later =>
    match change.run db format name tree with
    | .error _ after => Throughout record right kept after later
    | .ok n after =>
      right (record kept change n) after ∧ Throughout record right (record kept change n) after later

/-- The table can be loaded, with the columns and the number of rows of the account. -/
def Readable (account : Account) (tree : FileTree) : Prop :=
  ∃ table, db.load format name tree = .ok table tree ∧ table.header.columns = account.columns ∧
    table.rows.length = account.count

/-- Every line of the table reads back. -/
def LinesReadBack (table? : Option Table) : Prop :=
  ∀ table ∈ table?, ∀ row ∈ table.header.columns :: table.rows, format.ReadsBack row

def AlwaysReadable (tree : FileTree) (changes : List TableChange) : Prop :=
  Throughout db format name Account.record (Readable db format name) ⟨[],0⟩ tree changes

def LinesAlwaysReadBack (tree : FileTree) (changes : List TableChange) : Prop :=
  Throughout db format name (fun table? change _ => change.made table?)
    (fun table? _ => LinesReadBack format table?) none tree changes

variable {db format name} {tree after : FileTree} {change : TableChange} {changes : List TableChange}
  {table : Table} {place : Location} {n : Nat} {account : Account} {table? : Option Table}

/-! ### One call -/

theorem run_allOrNothing (change : TableChange) : AllOrNothing (change.run db format name) := by
  cases change with
  | create columns => exact .bind_pure (Database.createTable_allOrNothing db format name columns)
  | insert fields rows => exact Database.insert_allOrNothing db format name fields rows
  | update assignments filter => exact Database.update_allOrNothing db format name assignments filter
  | delete filter => exact Database.delete_allOrNothing db format name filter

theorem load_of_absent (absent : tree.isFile (db.tablePath name) = false) :
    db.load format name tree ≠ .ok table after := by
  intro loaded
  obtain ⟨text,found⟩ := Database.load_eq_ok.mp loaded
  obtain ⟨-,⟨place,bytes,file,-⟩,-⟩ := Database.loadText_eq_ok.mp found
  rw [isFile_iff.mpr ⟨place,bytes,file⟩] at absent
  cases absent

/-- Without a file only a creation succeeds. -/
theorem of_absent (absent : tree.isFile (db.tablePath name) = false)
    (named : ∀ columns, change = .create columns → columns ≠ [])
    (done : change.run db format name tree = .ok n after) :
    ∃ table place, change.made none = some table ∧ db.Stores format name after place table ∧
      account.record change n = ⟨table.header.columns,table.rows.length⟩ := by
  cases change with
  | create columns =>
    obtain ⟨_,created,rfl⟩ := bind_pure_eq_ok.mp done
    obtain ⟨header,place,rfl,values,located,free,rfl⟩ := Database.createTable_eq_ok.mp created
    have filled : 0 < header.width := List.length_pos_iff.mpr (named _ rfl)
    refine ⟨⟨header,[]⟩,place,?_,⟨.created filled values,?_⟩,rfl⟩
    · rw [made,Header.ofColumns_eq_ok.mpr rfl]
      rfl
    · exact Database.hasText_written located (by simp [free]) _
  | insert fields rows =>
    obtain ⟨table,text,loaded⟩ := Database.loaded_of_insert done
    exact absurd (Database.load_eq_ok.mpr ⟨text,loaded⟩) (load_of_absent absent)
  | update assignments filter =>
    obtain ⟨_,_,loaded,-⟩ := bind_eq_ok.mp done
    exact absurd loaded (load_of_absent absent)
  | delete filter =>
    obtain ⟨_,_,loaded,-⟩ := bind_eq_ok.mp done
    exact absurd loaded (load_of_absent absent)

/-- A table that can be read is changed as the call says, and the answer counts its rows. -/
theorem of_stores (stored : db.Stores format name tree place table)
    (readsBack : LinesReadBack format (some table))
    (done : change.run db format name tree = .ok n after) :
    ∃ changed, change.made (some table) = some changed ∧ db.Stores format name after place changed ∧
      Account.record ⟨table.header.columns,table.rows.length⟩ change n =
        ⟨changed.header.columns,changed.rows.length⟩ := by
  have read := stored.storable.tableOfText_of_readsBack (readsBack table rfl) name
  cases change with
  | create columns =>
    obtain ⟨_,created,-⟩ := bind_pure_eq_ok.mp done
    obtain ⟨_,_,-,-,located,free,-⟩ := Database.createTable_eq_ok.mp created
    rw [stored.located] at located
    cases located
    rw [stored.node] at free
    cases free
  | insert fields rows =>
    obtain ⟨checked,rfl,rfl⟩ := Database.insert_done stored.text read done
    refine ⟨_,rfl,?_,by simp [Account.record,Table.inserted]⟩
    split
    · next empty => simpa [empty,Table.inserted] using stored
    · rw [Database.extended,TableFormat.writtenTable_append]
      exact stored.put (stored.storable.inserted checked)
  | update assignments filter =>
    obtain ⟨checked,rfl,beside,free,rfl⟩ := Database.update_done stored.text read done
    refine ⟨_,rfl,⟨stored.storable.updated checked filter,?_⟩,by simp [Account.record,Table.updated]⟩
    exact Database.hasText_replaced stored.text free
  | delete filter =>
    obtain ⟨rfl,beside,free,rfl⟩ := Database.delete_done stored.text read done
    refine ⟨_,rfl,⟨stored.storable.deleted filter,?_⟩,?_⟩
    · exact Database.hasText_replaced stored.text free
    · rw [Table.length_deleted]
      rfl

/-- The account of a table in its file is right exactly if the lines of the file read back. -/
theorem readable_iff (stored : db.Stores format name tree place table) :
    Readable db format name ⟨table.header.columns,table.rows.length⟩ tree ↔
      LinesReadBack format (some table) := by
  constructor
  · rintro ⟨found,loaded,columns,count⟩ _ ⟨⟩
    have read := (Database.load_eq_ok_iff stored.text).mp loaded
    exact stored.storable.readsBack_of_counts read columns count
  · intro readsBack
    have read := stored.storable.tableOfText_of_readsBack (readsBack table rfl) name
    exact ⟨table,(Database.load_eq_ok_iff stored.text).mpr read,rfl,rfl⟩

/-! ### All calls -/

/-- Nothing stands in the place of the table, or a table whose account is right. -/
inductive Kept (db : Database) (format : TableFormat) (name : String) :
    Account → Option Table → FileTree → Prop where
  | absent {account : Account} {tree : FileTree} : tree.isFile (db.tablePath name) = false →
      Kept db format name account none tree
  | stored {table : Table} {tree : FileTree} {place : Location} :
      db.Stores format name tree place table → LinesReadBack format (some table) →
      Kept db format name ⟨table.header.columns,table.rows.length⟩ (some table) tree

/-- After a call that succeeds there is a table, and it may be read or not. -/
theorem Kept.run (kept : Kept db format name account table? tree)
    (named : ∀ columns, change = .create columns → columns ≠ [])
    (done : change.run db format name tree = .ok n after) :
    (Readable db format name (account.record change n) after ↔
        LinesReadBack format (change.made table?)) ∧
      (LinesReadBack format (change.made table?) →
        Kept db format name (account.record change n) (change.made table?) after) := by
  obtain ⟨table,place,made,stored,recorded⟩ : ∃ table place, change.made table? = some table ∧
      db.Stores format name after place table ∧
      account.record change n = ⟨table.header.columns,table.rows.length⟩ := by
    cases kept with
    | absent absent => exact of_absent absent named done
    | stored stored readsBack =>
      obtain ⟨changed,made,stored,recorded⟩ := of_stores stored readsBack done
      exact ⟨changed,_,made,stored,recorded⟩
  rw [made,recorded]
  exact ⟨readable_iff stored,.stored stored⟩

theorem Kept.throughout (kept : Kept db format name account table? tree)
    (named : ∀ columns, .create columns ∈ changes → columns ≠ []) :
    Throughout db format name Account.record (Readable db format name) account tree changes ↔
      Throughout db format name (fun table? change _ => change.made table?)
        (fun table? _ => LinesReadBack format table?) table? tree changes := by
  induction changes generalizing account table? tree with
  | nil => exact Iff.rfl
  | cons change later ih =>
    have others : ∀ columns, .create columns ∈ later → columns ≠ [] := fun columns member =>
      named columns (List.mem_cons_of_mem _ member)
    simp only [Throughout]
    cases done : change.run db format name tree with
    | error fault after =>
      rw [run_allOrNothing change _ _ _ done]
      exact ih kept others
    | ok n after =>
      obtain ⟨readable,next⟩ := kept.run (fun columns same => named columns (by simp [same])) done
      dsimp only
      rw [readable]
      exact and_congr_right fun readsBack => ih (next readsBack) others

theorem throughout_of_always {σ : Type} {record : σ → TableChange → Nat → σ}
    {right : σ → FileTree → Prop} (always : ∀ kept tree, right kept tree) (kept : σ) :
    Throughout db format name record right kept tree changes := by
  induction changes generalizing kept tree with
  | nil => trivial
  | cons change later ih =>
    simp only [Throughout]
    split
    · exact ih kept
    · exact ⟨always _ _,ih _⟩

/-- After every call on a table that succeeds, the table can be loaded with the columns of its creation
and as many rows as the answers say, exactly if each of its lines has read back each time. -/
theorem alwaysReadable_iff (db : Database) (format : TableFormat) (name : String) (tree : FileTree)
    (changes : List TableChange) (absent : tree.isFile (db.tablePath name) = false)
    (named : ∀ columns, .create columns ∈ changes → columns ≠ []) :
    (AlwaysReadable db format name tree changes ↔ LinesAlwaysReadBack db format name tree changes) ∧
      (format.delimiter ≠ '\n' → format.delimiter ≠ '\r' →
        AlwaysReadable db format name tree changes) := by
  have same : AlwaysReadable db format name tree changes ↔
      LinesAlwaysReadBack db format name tree changes := (Kept.absent absent).throughout named
  refine ⟨same,fun noFeed noReturn => same.mpr ?_⟩
  exact throughout_of_always (fun _ _ _ _ row _ =>
    TableFormat.readsBack_of_ordinary noFeed noReturn row) none

/-! ### Runs that can be decided -/

instance decidableLines (format : TableFormat) :
    (table? : Option Table) → Decidable (LinesReadBack format table?)
  | none => isTrue (by simp [LinesReadBack])
  | some table =>
    decidable_of_iff (∀ row ∈ table.header.columns :: table.rows, format.ReadsBack row)
      (by simp [LinesReadBack])

instance decidableThroughout {σ : Type} (record : σ → TableChange → Nat → σ)
    (right : σ → FileTree → Prop) [∀ kept tree, Decidable (right kept tree)] :
    (kept : σ) → (tree : FileTree) → (changes : List TableChange) →
      Decidable (Throughout db format name record right kept tree changes)
  | _,_,[] => isTrue trivial
  | kept,tree,change :: later =>
    match done : change.run db format name tree with
    | .error _ after =>
      have := decidableThroughout record right kept after later
      decidable_of_iff (Throughout db format name record right kept after later)
        (by simp [Throughout,done])
    | .ok n after =>
      have := decidableThroughout record right (record kept change n) after later
      decidable_of_iff (right (record kept change n) after ∧
          Throughout db format name record right (record kept change n) after later)
        (by simp [Throughout,done])

instance : Decidable (LinesAlwaysReadBack db format name tree changes) :=
  decidableThroughout _ _ _ _ _

/-- The directory of a database without tables. -/
def cleared : FileTree := ⟨[(["d"],.directory)],[]⟩

def clearedDatabase : Database := ⟨"d",Path.ofText "d"⟩

/-- The first row that is inserted has an empty last cell. -/
def revisions : List TableChange :=
  [.create ["a","b"],.insert ["a"] [["1"]],.insert ["b","a"] [["2","3"],["x","y"]],
    .update [⟨"b","4"⟩] ⟨[⟨"a",.eq,"3"⟩],[]⟩,.delete ⟨[⟨"a",.eq,"y"⟩],[]⟩]

/-- Between semicolons every table can be read, between carriage returns this one cannot, and between
line feeds one with a single column can. -/
theorem revisions_readable :
    AlwaysReadable clearedDatabase ⟨';'⟩ "t" cleared revisions ∧
    ¬AlwaysReadable clearedDatabase ⟨'\r'⟩ "t" cleared revisions ∧
    AlwaysReadable clearedDatabase ⟨'\n'⟩ "t" cleared [.create ["a"],.insert ["a"] [[""],["x"]]] := by
  have absent : cleared.isFile (clearedDatabase.tablePath "t") = false := by decide +kernel
  have named : ∀ columns, .create columns ∈ revisions → columns ≠ [] := by simp [revisions]
  refine ⟨?_,fun readable => ?_,?_⟩
  · exact (alwaysReadable_iff _ ⟨';'⟩ "t" _ revisions absent named).2 (by decide) (by decide)
  · have lines := (alwaysReadable_iff _ ⟨'\r'⟩ "t" _ revisions absent named).1.mp readable
    exact absurd lines (by decide +kernel)
  · exact (alwaysReadable_iff _ ⟨'\n'⟩ "t" _ _ absent (by simp)).1.mpr (by decide +kernel)

end TableChange
end PlainTables
