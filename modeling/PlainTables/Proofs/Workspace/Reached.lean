import PlainTables.Proofs.Database.Effect
import PlainTables.Proofs.Workspace.Confined

/-! Where sessions on an empty directory lead. Whatever is executed, the root and the table format stay
as they were at the start, and every file holds a table that a statement has made. -/
namespace PlainTables.Workspace

open Actions FileTree

variable {root : Path} {format : TableFormat} {w after : Workspace} {db : Database} {name : String}
  {statement : Statement} {answer : Answer}

/-! ### Runs of a session -/

/-- A session on an empty directory has led here. Its texts may have failed on the way. -/
inductive Reached (root : Path) (format : TableFormat) : Workspace → Prop
  | start : Reached root format (.start .empty root format)
  | execute {w : Workspace} (text : String) (before : Reached root format w) :
    Reached root format (left (execute text w))
  | select {w : Workspace} (name : String) (before : Reached root format w) :
    Reached root format (left (useDatabase name w))

namespace Reached

theorem executeAll (reached : Reached root format w) (texts : List String) :
    Reached root format (w.executeAll texts).2 := by
  induction texts generalizing w with
  | nil => exact reached
  | cons text later ih => exact ih (reached.execute text)

/-- A script leads through the workspaces that its statements lead to. -/
theorem executeScript (reached : Reached root format w) (text : String) :
    Reached root format (left (executeScript text w)) := by
  rw [Workspace.executeScript]
  generalize Script.statements text = texts
  induction texts generalizing w with
  | nil => exact reached
  | cons first later ih =>
    rw [List.mapM_cons]
    have next := reached.execute first
    cases ran : Workspace.execute first w with
    | error fault middle =>
      rw [ran] at next
      rwa [bind_of_error ran]
    | ok answer middle =>
      rw [ran] at next
      rw [bind_of_ok ran,left_bind_pure]
      exact ih next

end Reached

/-! ### What a session keeps -/

structure Sound (root : Path) (format : TableFormat) (w : Workspace) : Prop where
  root : w.session.root = root
  tableFormat : w.session.format = format
  own : w.session.Own
  files : OnlyTables format w.files

theorem sound_start (root : Path) (format : TableFormat) :
    Sound root format (.start .empty root format) := by
  refine ⟨rfl,rfl,own_start _ _ _,fun place bytes file => ?_⟩
  by_cases top : place = []
  · simp [start,top] at file
  · simp only [start,node?,top,if_false,FileTree.empty,List.lookup_cons,List.lookup_nil] at file
    split at file <;> cases file

theorem run_of_execute {text : String} (parsed : Statement.parse text = .ok statement) :
    execute text = run statement := by
  rw [execute,parsed]

theorem run_eq_ok (other : ∀ name, statement ≠ .useDatabase name) :
    run statement w = .ok answer after ↔
      ∃ db files, w.session.database = some db ∧
        db.run w.session.format statement w.files = .ok answer files ∧
        after = { w with files := files } := by
  rw [run_of_other other]
  cases w.session.database with
  | none => simp
  | some db => simp [onFiles_eq_ok]

theorem run_eq_error (other : ∀ name, statement ≠ .useDatabase name) {fault : Fault}
    (failed : run statement w = .error fault after) : after = w := by
  rw [run_of_other other] at failed
  cases selected : w.session.database with
  | none =>
    simp only [selected,EStateM.Result.error.injEq] at failed
    exact failed.2.symm
  | some db =>
    simp only [selected] at failed
    obtain ⟨files,refused,rfl⟩ := onFiles_eq_error.mp failed
    rw [Database.run_allOrNothing db w.session.format other _ _ _ refused]

theorem left_run_useDatabase (name : String) (w : Workspace) :
    left (run (.useDatabase name) w) = left (useDatabase name w) :=
  left_bind_pure _ _ w

/-- Selecting a database changes the selection, and makes directories at most. -/
theorem session_useDatabase (name : String) (w : Workspace) :
    (left (useDatabase name w)).session.root = w.session.root ∧
      (left (useDatabase name w)).session.format = w.session.format := by
  cases selected : useDatabase name w with
  | error fault after =>
    obtain ⟨-,same⟩ := useDatabase_error selected
    exact ⟨congrArg Session.root same,congrArg Session.format same⟩
  | ok db after =>
    obtain ⟨files,-,rfl⟩ := useDatabase_ok selected
    exact ⟨rfl,rfl⟩

theorem makesAlong_useDatabase (name : String) (w : Workspace) :
    MakesAlong (w.session.root.join (Path.ofText name)).stages w.files
      (left (useDatabase name w)).files := by
  rw [← left_run_useDatabase,files_useDatabase]
  exact Database.openIn_onlyMakes _ name _

namespace Sound

variable (noFeed : format.delimiter ≠ '\n') (noReturn : format.delimiter ≠ '\r')
  (sound : Sound root format w)

include noFeed noReturn sound

theorem effect (proper : statement.Proper) (other : ∀ name, statement ≠ .useDatabase name)
    (done : run statement w = .ok answer after) :
    ∃ db files, w.session.database = some db ∧
      db.Effect format w.files statement answer files ∧ after = { w with files := files } := by
  obtain ⟨db,files,selected,ran,rfl⟩ := (run_eq_ok other).mp done
  rw [sound.tableFormat] at ran
  exact ⟨db,files,selected,
    Database.effect_of_run noFeed noReturn sound.files proper other ran,rfl⟩

omit noFeed noReturn in
theorem useDatabase (name : String) : Sound root format (left (useDatabase name w)) := by
  obtain ⟨sameRoot,sameFormat⟩ := session_useDatabase name w
  refine ⟨sameRoot.trans sound.root,sameFormat.trans sound.tableFormat,?_,?_⟩
  · rw [← left_run_useDatabase]
    exact own_run sound.own _
  · exact sound.files.of_sameFiles (makesAlong_useDatabase name w).sameFiles

/-- What a text can do: nothing, select a database, or what its statement does in the selected one. -/
theorem step (text : String) :
    left (Workspace.execute text w) = w ∨
    (∃ name, left (Workspace.execute text w) = left (Workspace.useDatabase name w)) ∨
    ∃ statement db answer files, Statement.parse text = .ok statement ∧
      w.session.database = some db ∧ db.Effect format w.files statement answer files ∧
      Workspace.execute text w = .ok answer { w with files := files } := by
  rw [Workspace.execute]
  cases parsed : Statement.parse text with
  | error cause => exact .inl rfl
  | ok statement =>
    by_cases selects : ∃ name, statement = .useDatabase name
    · obtain ⟨name,rfl⟩ := selects
      exact .inr (.inl ⟨name,left_run_useDatabase name w⟩)
    have other : ∀ name, statement ≠ .useDatabase name := fun name same => selects ⟨name,same⟩
    dsimp only
    cases ran : Workspace.run statement w with
    | error fault after => exact .inl (run_eq_error other ran)
    | ok answer after =>
      obtain ⟨db,files,selected,effect,rfl⟩ :=
        sound.effect noFeed noReturn (Statement.proper_of_parse parsed) other ran
      exact .inr (.inr ⟨statement,db,answer,files,rfl,selected,effect,rfl⟩)

theorem execute (text : String) : Sound root format (left (execute text w)) := by
  rcases sound.step noFeed noReturn text with
    same | ⟨name,same⟩ | ⟨statement,db,answer,files,-,-,effect,done⟩
  · rwa [same]
  · rw [same]
    exact sound.useDatabase name
  · rw [done]
    exact ⟨sound.root,sound.tableFormat,sound.own,effect.onlyTables sound.files⟩

end Sound

theorem Reached.sound (noFeed : format.delimiter ≠ '\n') (noReturn : format.delimiter ≠ '\r')
    (reached : Reached root format w) : Sound root format w := by
  induction reached with
  | start => exact sound_start root format
  | execute text _ ih => exact ih.execute noFeed noReturn text
  | select name _ ih => exact ih.useDatabase name

end PlainTables.Workspace
