import PlainTables.Proofs.Action
import PlainTables.Proofs.Editor.Shown
import PlainTables.Proofs.Script.Silent

/-! The error on show after a run. A text that is cut into nothing runs without an outcome, and what was
shown before it stays in part. Main statement: the error after a run is that of the run, except that an
older one stays where the text has blanks, comments and semicolons only. -/
namespace PlainTables

/-- A run that ends has an answer for every statement. -/
theorem Workspace.executeScript_eq_nil {text : String} {answers : List Answer} {w after : Workspace}
    (run : executeScript text w = .ok answers after) :
    answers = [] ↔ Script.Silent text.toList := by
  rw [← Script.statements_eq_nil_iff,← List.length_eq_zero_iff,← List.length_eq_zero_iff,
    Actions.length_of_mapM_eq_ok run]

namespace Editor

open Unicode (isBlank)
open Script (Silent)

variable {e : Editor}

/-- The error of the text, if it has one when it is run. -/
def textError (e : Editor) : Option String :=
  match Workspace.executeScript e.buffer.text e.workspace with
  | .ok .. => none
  | .error fault _ => some fault.message

theorem Shown.error_ofAnswer (answer : Answer) : (ofAnswer answer).error = none := by
  unfold ofAnswer
  split <;> rfl

theorem error_runText (filled : e.buffer.chars.all isBlank = false) :
    e.runText.error =
      (e.shown.ran (Workspace.executeScript e.buffer.text e.workspace)).error := by
  have shown := e.shown_runTo (Workspace.executeScript e.buffer.text e.workspace)
  rw [← runText_eq,filled] at shown
  exact congrArg Shown.error shown

/-- A silent text has no error, and it leaves the error that was there. -/
theorem error_runText_silent (filled : e.buffer.chars.all isBlank = false)
    (silent : Silent e.buffer.chars) : e.textError = none ∧ e.runText.error = e.error := by
  have nothing : Script.statements e.buffer.text = [] := by
    apply (Script.statements_eq_nil_iff _).mpr
    simpa [Buffer.text] using silent
  have run : Workspace.executeScript e.buffer.text e.workspace = .ok [] e.workspace := by
    rw [Workspace.executeScript,nothing,List.mapM_nil]
    rfl
  rw [error_runText filled,textError,run]
  exact ⟨rfl,rfl⟩

/-- Any other text shows its own error, and none if it has none. -/
theorem error_runText_spoken (filled : e.buffer.chars.all isBlank = false)
    (spoken : ¬Silent e.buffer.chars) : e.runText.error = e.textError := by
  rw [error_runText filled,textError]
  cases run : Workspace.executeScript e.buffer.text e.workspace with
  | error fault after => rfl
  | ok answers after =>
    have answered : answers ≠ [] := by
      rw [Ne,Workspace.executeScript_eq_nil run]
      simpa [Buffer.text] using spoken
    obtain ⟨answer,last⟩ := Option.ne_none_iff_exists'.mp (mt List.getLast?_eq_none_iff.mp answered)
    simp only [Shown.ran,last]
    exact Shown.error_ofAnswer answer

/-- After the run of a text that is not blank, the error on show is that of the run, unless the text is
silent and there was an error before: such a run has no error and keeps the old one. -/
theorem error_runText_iff (e : Editor) (filled : e.buffer.chars.all isBlank = false) :
    (e.runText.error = e.textError ↔ ¬Silent e.buffer.chars ∨ e.error = none) ∧
      (Silent e.buffer.chars → e.textError = none ∧ e.runText.error = e.error) := by
  refine ⟨?_,error_runText_silent filled⟩
  by_cases silent : Silent e.buffer.chars
  · obtain ⟨noError,kept⟩ := error_runText_silent filled silent
    simp [silent,noError,kept]
  · simp [silent,error_runText_spoken filled silent]

/-- An unknown command, and then a comment is typed. -/
def noted : Editor :=
  (start (.start .empty (Path.ofText "data") .comma)).after
    ([.char ':',.char 'x',.enter,.char 'i',.char '-',.char '-'].map fun key => .press ⟨key,.none⟩)

theorem noted_keeps_error : noted.buffer.chars.all isBlank = false ∧ noted.textError = none ∧
    noted.runText.error = some "Unknown command: x" := by
  have text : noted.buffer.chars = ['-','-'] := by rfl
  have filled : noted.buffer.chars.all isBlank = false := by rfl
  have silent : Silent noted.buffer.chars := by
    rw [text]
    exact .comment (.lastLine (by simp)) .none
  obtain ⟨noError,kept⟩ := (error_runText_iff noted filled).2 silent
  exact ⟨filled,noError,kept⟩

end Editor
end PlainTables
