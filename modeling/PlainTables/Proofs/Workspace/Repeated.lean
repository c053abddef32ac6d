import PlainTables.Proofs.Table.Repeated
import PlainTables.Proofs.Workspace.Reached

/-! Statements that rewrite a table, executed a second time. The file that the first time has left is
read as the table that was written, so the second time writes the same text again. -/
namespace PlainTables

open Actions FileTree

variable {format : TableFormat}

/-! ### On one database -/

namespace Database

variable {db : Database} {tree after : FileTree} {name : String} {place : Location} {table : Table}
  {assignments : List Assignment} {filter : Filter}

variable (noFeed : format.delimiter ≠ '\n') (noReturn : format.delimiter ≠ '\r')
  (stored : db.Stores format name tree place table) (balanced : filter.Balanced)

include noFeed noReturn stored balanced

theorem update_again (checked : table.header.checkAssignments format assignments = .ok ())
    (rewrites : db.Rewrites format name place (table.updated assignments filter) tree after) :
    ∃ last, db.update format name assignments filter after =
        .ok ((table.updated assignments filter).holding filter).length last ∧
      ∀ other, last.node? other = after.node? other := by
  obtain ⟨last,rewritten,same⟩ := rewrites.again stored
  refine ⟨last,?_,same⟩
  have written := rewrites.stores stored (stored.storable.updated checked filter)
  refine (update_eq_ok noFeed noReturn written balanced).mpr ⟨checked,rfl,?_⟩
  rwa [Table.updated_updated]

theorem delete_again
    (rewrites : db.Rewrites format name place (table.deleted filter) tree after) :
    ∃ last, db.delete format name filter after = .ok 0 last ∧
      ∀ other, last.node? other = after.node? other := by
  obtain ⟨last,rewritten,same⟩ := rewrites.again stored
  refine ⟨last,?_,same⟩
  have written := rewrites.stores stored (stored.storable.deleted filter)
  refine (delete_eq_ok noFeed noReturn written balanced).mpr ⟨?_,?_⟩
  · rw [Table.holding_deleted]
    rfl
  · rwa [Table.deleted_deleted]

/-- Nothing that was deleted is read. -/
theorem read_after_delete
    (rewrites : db.Rewrites format name place (table.deleted filter) tree after)
    (known : ∀ clause ∈ filter.clauses, clause.column ∈ table.header.columns) :
    db.read format name ["*"] filter after = .ok [] after := by
  have written := rewrites.stores stored (stored.storable.deleted filter)
  rw [Database.read,bind_of_ok (written.load noFeed noReturn),
    Table.read_deleted table balanced known]
  rfl

end Database

/-! ### In a session -/

namespace Workspace

variable {root : Path} {w after : Workspace} {text : String} {answer : Answer}

/-- An UPDATE that has succeeded succeeds again: it changes no file and counts no more rows, even where
it has assigned cells that its condition looks at. A DELETE that has succeeded finds nothing more to
delete, and a SELECT with its condition finds nothing either. -/
theorem rewritten_again (noFeed : format.delimiter ≠ '\n') (noReturn : format.delimiter ≠ '\r')
    (reached : Reached root format w) (done : execute text w = .ok answer after) :
    (∀ name assignments filter, Statement.parse text = .ok (.update name assignments filter) →
      ∃ n m last, answer = .rowCount n .updated ∧
        execute text after = .ok (.rowCount m .updated) last ∧ m ≤ n ∧
        last.session = after.session ∧ ∀ place, last.files.node? place = after.files.node? place) ∧
    ∀ name filter, Statement.parse text = .ok (.delete name filter) →
      (∃ n last, answer = .rowCount n .deleted ∧
        execute text after = .ok (.rowCount 0 .deleted) last ∧
        last.session = after.session ∧ ∀ place, last.files.node? place = after.files.node? place) ∧
      ∃ db table, after.session.database = some db ∧
        db.load format name after.files = .ok table after.files ∧
        ((∀ clause ∈ filter.clauses, clause.column ∈ table.header.columns) →
          run (.read name ["*"] filter) after = .ok (.records []) after) := by
  have sound := reached.sound noFeed noReturn
  constructor
  · intro name assignments filter parsed
    have proper := Statement.proper_of_parse parsed
    rw [run_of_execute parsed] at done ⊢
    obtain ⟨db,files,selected,effect,rfl⟩ := sound.effect noFeed noReturn proper (by simp) done
    cases effect with
    | @update _ _ _ place table _ stored checked rewrites =>
      obtain ⟨last,again,same⟩ :=
        Database.update_again noFeed noReturn stored proper.2.2.balanced checked rewrites
      refine ⟨_,_,⟨last,w.session⟩,rfl,?_,table.length_holding_updated assignments filter,
        rfl,same⟩
      refine (run_eq_ok (by simp)).mpr ⟨db,last,selected,bind_pure_eq_ok.mpr ⟨_,?_,rfl⟩,rfl⟩
      rwa [sound.tableFormat]
  · intro name filter parsed
    have proper := Statement.proper_of_parse parsed
    rw [run_of_execute parsed] at done ⊢
    obtain ⟨db,files,selected,effect,rfl⟩ := sound.effect noFeed noReturn proper (by simp) done
    cases effect with
    | @delete _ _ place table _ stored rewrites =>
      have balanced := proper.2.balanced
      obtain ⟨last,again,same⟩ := Database.delete_again noFeed noReturn stored balanced rewrites
      refine ⟨⟨_,⟨last,w.session⟩,rfl,?_,rfl,same⟩,db,table.deleted filter,selected,?_,
        fun known => ?_⟩
      · refine (run_eq_ok (by simp)).mpr ⟨db,last,selected,bind_pure_eq_ok.mpr ⟨_,?_,rfl⟩,rfl⟩
        rwa [sound.tableFormat]
      · exact (rewrites.stores stored (stored.storable.deleted filter)).load noFeed noReturn
      · refine (run_eq_ok (by simp)).mpr ⟨db,files,selected,bind_pure_eq_ok.mpr ⟨_,?_,rfl⟩,rfl⟩
        rw [sound.tableFormat]
        exact Database.read_after_delete noFeed noReturn stored balanced rewrites known

/-- A few scores, two of them low. -/
def scored : Workspace :=
  ((start .empty (Path.ofText "data") .comma).executeAll
    ["CREATE DATABASE d;","CREATE TABLE t (a, b);",
      "INSERT INTO t (a, b) VALUES (1, x), (2, y), (3, z);"]).2

/-- The low scores are raised, which no row calls for afterwards. -/
def raised : EStateM.Result Fault Workspace Answer :=
  execute "UPDATE TABLE t SET a = 9 WHERE a < 3;" scored

def removed : EStateM.Result Fault Workspace Answer :=
  execute "DELETE FROM t WHERE a = 9;" (left raised)

theorem scored_again :
    raised = .ok (.rowCount 2 .updated) (left raised) ∧
    (∃ last, execute "UPDATE TABLE t SET a = 9 WHERE a < 3;" (left raised) =
        .ok (.rowCount 0 .updated) last ∧
      ∀ place, last.files.node? place = (left raised).files.node? place) ∧
    removed = .ok (.rowCount 2 .deleted) (left removed) ∧
    (∃ last, execute "DELETE FROM t WHERE a = 9;" (left removed) = .ok (.rowCount 0 .deleted) last ∧
      ∀ place, last.files.node? place = (left removed).files.node? place) ∧
    run (.read "t" ["*"] ⟨[⟨"a",.eq,"9"⟩],[]⟩) (left removed) = .ok (.records []) (left removed) := by
  have reached : Reached (Path.ofText "data") .comma scored := Reached.start.executeAll _
  obtain ⟨saidFirst,saidSecond,noMore,here,columns⟩ :
      outcome raised = .ok (.rowCount 2 .updated) ∧ outcome removed = .ok (.rowCount 2 .deleted) ∧
      outcome (execute "UPDATE TABLE t SET a = 9 WHERE a < 3;" (left raised)) =
        .ok (.rowCount 0 .updated) ∧
      (left removed).session.database = some ⟨"d",⟨false,["data","d"]⟩⟩ ∧
      (outcome (Database.load ⟨"d",⟨false,["data","d"]⟩⟩ .comma "t" (left removed).files)).map
        (·.header.columns) = .ok ["a","b"] := by decide +kernel
  have first := eq_ok_of_outcome saidFirst
  have second := eq_ok_of_outcome saidSecond
  have parsed : Statement.parse "UPDATE TABLE t SET a = 9 WHERE a < 3;" =
      .ok (.update "t" [⟨"a","9"⟩] ⟨[⟨"a",.lt,"3"⟩],[]⟩) := by decide +kernel
  have parsedDelete : Statement.parse "DELETE FROM t WHERE a = 9;" =
      .ok (.delete "t" ⟨[⟨"a",.eq,"9"⟩],[]⟩) := by decide +kernel
  obtain ⟨n,m,last,-,again,-,-,same⟩ :=
    (rewritten_again (by decide) (by decide) reached first).1 _ _ _ parsed
  obtain ⟨⟨_,later,-,gone,-,sameLater⟩,db,table,selected,loaded,nothing⟩ :=
    (rewritten_again (by decide) (by decide) (reached.execute _) second).2 _ _ parsedDelete
  refine ⟨first,⟨last,?_,same⟩,second,⟨later,gone,sameLater⟩,nothing ?_⟩
  · rw [again] at noMore
    cases noMore
    exact again
  · rw [selected] at here
    cases here
    rw [loaded] at columns
    have same : table.header.columns = ["a","b"] := Except.ok.inj columns
    simp [same]

end Workspace
end PlainTables
