import Mathlib.Data.List.Basic
import PlainTables.Proofs.Database.Failure
import PlainTables.Workspace

/-! A statement that fails changes no file and selects no database. A script that fails has
done what its statements before the failing one do, and nothing more. -/
namespace PlainTables.Workspace

open Actions FileTree

variable {w after : Workspace} {fault : Fault}

theorem onFiles_eq_ok {α : Type} {action : FileAction α} {a : α} :
    onFiles action w = .ok a after ↔
      ∃ files, action w.files = .ok a files ∧ after = { w with files := files } := by
  cases run : action w.files <;> simp [onFiles,run,eq_comm]

theorem onFiles_eq_error {α : Type} {action : FileAction α} :
    onFiles action w = .error fault after ↔
      ∃ files, action w.files = .error fault files ∧ after = { w with files := files } := by
  cases run : action w.files <;> simp [onFiles,run,eq_comm]

theorem useDatabase_eq_error {name : String} :
    useDatabase name w = .error fault after ↔
      ∃ files, Database.openIn w.session.root name w.files = .error fault files ∧
        after = { w with files := files } := by
  rw [useDatabase,bind_of_ok get_run,bind_eq_error,← onFiles_eq_error]
  constructor
  · rintro (refused | ⟨_,_,_,⟨⟩⟩)
    exact refused
  · exact .inl

theorem useDatabase_error {name : String} (failed : useDatabase name w = .error fault after) :
    AddsDirectories w.files after.files ∧ after.session = w.session := by
  obtain ⟨files,run,rfl⟩ := useDatabase_eq_error.mp failed
  have makes := Database.openIn_onlyMakes w.session.root name w.files
  rw [run] at makes
  exact ⟨makes.toAddsDirectories,rfl⟩

theorem run_of_other {statement : Statement} (other : ∀ name, statement ≠ .useDatabase name) :
    run statement w = match w.session.database with
      | none => .error .noDatabase w
      | some db => onFiles (db.run w.session.format statement) w := by
  cases statement with
  | useDatabase name => exact absurd rfl (other name)
  | _ =>
    rw [run,bind_of_ok get_run]
    · cases w.session.database <;> rfl
    · simp

/-- Nothing but directories is left of a statement that fails. -/
theorem run_error {statement : Statement} (failed : run statement w = .error fault after) :
    AddsDirectories w.files after.files ∧ after.session = w.session := by
  by_cases selects : ∃ name, statement = .useDatabase name
  · obtain ⟨name,rfl⟩ := selects
    rcases bind_eq_error.mp failed with refused | ⟨_,_,_,later⟩
    · exact useDatabase_error refused
    · cases later
  have other : ∀ name, statement ≠ .useDatabase name := fun name same => selects ⟨name,same⟩
  rw [run_of_other other] at failed
  cases selected : w.session.database with
  | none =>
    simp only [selected,EStateM.Result.error.injEq] at failed
    obtain ⟨-,rfl⟩ := failed
    exact ⟨.refl _,rfl⟩
  | some db =>
    simp only [selected] at failed
    obtain ⟨files,run,rfl⟩ := onFiles_eq_error.mp failed
    have same := Database.run_allOrNothing db w.session.format other _ _ _ run
    rw [same]
    exact ⟨.refl _,rfl⟩

theorem execute_error {text : String} (failed : execute text w = .error fault after) :
    AddsDirectories w.files after.files ∧ after.session = w.session := by
  cases parsed : Statement.parse text with
  | ok statement =>
    simp only [execute,parsed] at failed
    exact run_error failed
  | error cause =>
    simp only [execute,parsed,throw_run,EStateM.Result.error.injEq] at failed
    obtain ⟨-,rfl⟩ := failed
    exact ⟨.refl _,rfl⟩

/-- A failing statement leaves every file and the selected database as they were; a failing
script leaves what its statements before the failing one made of them. -/
theorem failure_changes_no_file (w after : Workspace) (text : String) (fault : Fault) :
    (execute text w = .error fault after →
      SameFiles w.files after.files ∧ after.session = w.session) ∧
    (executeScript text w = .error fault after →
      ∃ done failing later answers middle,
        Script.statements text = done ++ failing :: later ∧
        done.mapM execute w = .ok answers middle ∧
        execute failing middle = .error fault after ∧
        SameFiles middle.files after.files ∧ after.session = middle.session) := by
  constructor
  · intro failed
    obtain ⟨adds,session⟩ := execute_error failed
    exact ⟨adds.sameFiles,session⟩
  · intro failed
    obtain ⟨done,bad,later,answers,middle,split,run,last⟩ := mapM_eq_error failed
    obtain ⟨adds,session⟩ := execute_error last
    exact ⟨done,bad,later,answers,middle,split,run,last,adds.sameFiles,session⟩

/-- A script stopped by an unknown field, with the table it had made before. -/
def stopped : EStateM.Result Fault Workspace (List Answer) :=
  executeScript "USE DATABASE d; CREATE TABLE t (a); INSERT INTO t (b) VALUES (1); SHOW TABLES;"
    (start .empty (Path.ofText "data") .comma)

/-- The same table made again. -/
def refused : EStateM.Result Fault Workspace Answer :=
  execute "CREATE TABLE t (b);" (left stopped)

theorem stopped_changes_no_file :
    (refused = .error (.tableExists "t") (left refused) ∧
      SameFiles (left stopped).files (left refused).files ∧
      (left refused).session = (left stopped).session) ∧
    stopped = .error (.unknownField "b") (left stopped) ∧
      ∃ done failing later answers middle,
        done ++ failing :: later = ["USE DATABASE d;","CREATE TABLE t (a);",
          "INSERT INTO t (b) VALUES (1);","SHOW TABLES;"] ∧
        done.mapM execute (start .empty (Path.ofText "data") .comma) = .ok answers middle ∧
        SameFiles middle.files (left stopped).files ∧ (left stopped).session = middle.session := by
  have again : refused = .error (.tableExists "t") (left refused) :=
    eq_error_of_outcome (by decide +kernel)
  have failed : stopped = .error (.unknownField "b") (left stopped) :=
    eq_error_of_outcome (by decide +kernel)
  refine ⟨⟨again,(failure_changes_no_file _ _ _ _).1 again⟩,failed,?_⟩
  obtain ⟨done,failing,later,answers,middle,split,run,-,files,session⟩ :=
    (failure_changes_no_file _ _ _ _).2 failed
  refine ⟨done,failing,later,answers,middle,?_,run,files,session⟩
  rw [← split]
  decide +kernel

end PlainTables.Workspace
