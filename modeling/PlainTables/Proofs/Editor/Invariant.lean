import Mathlib.Data.List.Chain
import PlainTables.Proofs.Editor.Action

/-! What holds of the editor at any time. Each action keeps the invariant, so each key
press does. Main statement: a key press keeps the invariant. -/
namespace PlainTables.Editor

open Unicode (isBlank)

variable {e : Editor}

/-- What holds of an editor between two keys: a recalled text is in the history, no blank text and no
text twice in a row was noted, only the text is typed into, a command is there only while it is typed,
and the window does not leave the grid. -/
structure Invariant (e : Editor) : Prop where
  recalled_lt : ∀ i ∈ e.recalled, i < e.history.length
  history_filled : ∀ text ∈ e.history, text.toList.all isBlank = false
  history_apart : e.history.IsChain (· ≠ ·)
  insert_focus : e.mode = .insert → e.focus = .query
  command_empty : e.mode ≠ .command → e.command = []
  scroll_inside : ∀ grid ∈ e.result,
    e.scroll ≤ grid.rows.length - 1 ∧ e.columnScroll ≤ grid.columns.length - 1

/-! ### Runs -/

/-- How a run of the text ends, for any outcome of its statements. -/
def finish (e : Editor) : EStateM.Result Fault Workspace (List Answer) → Editor
  | .ok answers workspace =>
    let after := { e with workspace := workspace }
    match answers.getLast? with
    | some answer => after.showAnswer answer
    | none => { after with message := none }
  | .error fault workspace =>
    { e with
      workspace := workspace
      error := some fault.message
      result := none
      message := none }

/-- The run of a text whose statements have this outcome. -/
def runTo (e : Editor) (outcome : EStateM.Result Fault Workspace (List Answer)) : Editor :=
  if e.buffer.chars.all isBlank then e else (e.remember e.buffer.text).finish outcome

theorem runText_eq (e : Editor) :
    e.runText = e.runTo (Workspace.executeScript e.buffer.text e.workspace) := by
  unfold runText runTo
  split
  · rfl
  · cases Workspace.executeScript e.buffer.text e.workspace with
    | ok answers workspace => rfl
    | error fault workspace => rfl

/-! ### What running leaves as it is -/

/-- What the user has typed: the text and the command. -/
def typed (e : Editor) : Buffer × List Char := (e.buffer,e.command)

theorem typed_remember (e : Editor) (text : String) : (e.remember text).typed = e.typed := by
  unfold remember
  split <;> rfl

theorem typed_showAnswer (e : Editor) (answer : Answer) :
    (e.showAnswer answer).typed = e.typed := by
  unfold showAnswer
  split <;> rfl

theorem typed_runTo (e : Editor) (outcome : EStateM.Result Fault Workspace (List Answer)) :
    (e.runTo outcome).typed = e.typed := by
  unfold runTo
  split
  · rfl
  · rw [← e.typed_remember e.buffer.text]
    unfold finish
    split
    · dsimp only
      split
      · exact typed_showAnswer _ _
      · rfl
    · rfl

theorem typed_runText (e : Editor) : e.runText.typed = e.typed := by
  rw [runText_eq]
  exact e.typed_runTo _

theorem typed_useDatabase (e : Editor) (name : String) : (e.useDatabase name).typed = e.typed := by
  unfold useDatabase
  split <;> rfl

theorem buffer_runText (e : Editor) : e.runText.buffer = e.buffer := congrArg Prod.fst e.typed_runText

theorem command_runText (e : Editor) : e.runText.command = e.command :=
  congrArg Prod.snd e.typed_runText

theorem command_runCommand (e : Editor) (command : Command) :
    (e.runCommand command).command = e.command := by
  cases command with
  | quit | clear | nothing | unknown => rfl
  | run => exact e.command_runText
  | use name => exact congrArg Prod.snd (e.typed_useDatabase name)

namespace Invariant

theorem start (workspace : Workspace) : (Editor.start workspace).Invariant where
  recalled_lt := by simp [Editor.start]
  history_filled := by simp [Editor.start]
  history_apart := .nil
  insert_focus := by simp [Editor.start]
  command_empty := fun _ => rfl
  scroll_inside := by simp [Editor.start]

theorem edit (inv : e.Invariant) (change : Buffer → Buffer) : (e.edit change).Invariant :=
  { inv with }

theorem enter (inv : e.Invariant) (mode : Mode) (plain : e.mode = .command → e.command = []) :
    (e.enter mode).Invariant := by
  have empty : e.command = [] := by
    by_cases command : e.mode = .command
    · exact plain command
    · exact inv.command_empty command
  cases mode with
  | normal => exact { inv with insert_focus := by simp [Editor.enter], command_empty := fun _ => empty }
  | insert => exact { inv with insert_focus := fun _ => rfl, command_empty := fun _ => empty }
  | command => exact { inv with insert_focus := by simp [Editor.enter], command_empty := fun _ => rfl }

/-! ### Running -/

theorem remember (inv : e.Invariant) {text : String} (filled : text.toList.all isBlank = false) :
    (e.remember text).Invariant := by
  unfold Editor.remember
  split
  · exact { inv with recalled_lt := by simp }
  · next latest =>
    refine { inv with recalled_lt := by simp, history_filled := ?_, history_apart := ?_ }
    · exact List.forall_mem_append.mpr ⟨inv.history_filled,List.forall_mem_singleton.mpr filled⟩
    · refine List.isChain_append.mpr ⟨inv.history_apart,.singleton text,?_⟩
      rintro last ends _ first
      cases first
      rintro rfl
      exact latest ends

theorem showAnswer (inv : e.Invariant) (answer : Answer) : (e.showAnswer answer).Invariant := by
  unfold Editor.showAnswer
  split
  · exact { inv with scroll_inside := fun _ _ => ⟨Nat.zero_le _,Nat.zero_le _⟩ }
  · exact { inv with scroll_inside := by simp }

theorem finish (inv : e.Invariant) (outcome : EStateM.Result Fault Workspace (List Answer)) :
    (e.finish outcome).Invariant := by
  cases outcome with
  | ok answers workspace =>
    have moved : { e with workspace := workspace }.Invariant := { inv with }
    unfold Editor.finish
    dsimp only
    split
    · exact moved.showAnswer _
    · exact { moved with }
  | error fault workspace => exact { inv with scroll_inside := by simp [Editor.finish] }

/-- A text is noted when it runs, so it has more than blanks. -/
theorem runTo (inv : e.Invariant) (outcome : EStateM.Result Fault Workspace (List Answer)) :
    (e.runTo outcome).Invariant := by
  unfold Editor.runTo
  split
  · exact inv
  · next filled =>
    apply finish
    apply inv.remember
    simpa [Buffer.text] using filled

theorem runText (inv : e.Invariant) : e.runText.Invariant := by
  rw [runText_eq]
  exact inv.runTo _

theorem useDatabase (inv : e.Invariant) (name : String) : (e.useDatabase name).Invariant := by
  unfold Editor.useDatabase
  split
  · exact { inv with }
  · exact { inv with }

/-! ### History -/

theorem showPast (inv : e.Invariant) (i : Nat) : (e.showPast i).Invariant := by
  unfold Editor.showPast
  split
  · next found =>
    refine { inv with recalled_lt := fun j same => ?_ }
    cases same
    exact (List.getElem?_eq_some_iff.mp found).1
  · exact inv

theorem recallOlder (inv : e.Invariant) : e.recallOlder.Invariant := by
  unfold Editor.recallOlder
  split
  · exact inv.showPast _
  · exact inv.showPast _

theorem recallNewer (inv : e.Invariant) : e.recallNewer.Invariant := by
  unfold Editor.recallNewer
  split
  · exact inv
  · split
    · exact inv.showPast _
    · exact { inv with recalled_lt := by simp }

/-! ### Scrolling -/

/-- A scroll that stays inside every grid that is shown. -/
theorem scrolled (inv : e.Invariant) {row column : Nat}
    (inside : ∀ grid ∈ e.result, e.scroll ≤ grid.rows.length - 1 →
      e.columnScroll ≤ grid.columns.length - 1 →
        row ≤ grid.rows.length - 1 ∧ column ≤ grid.columns.length - 1) :
    { e with scroll := row, columnScroll := column }.Invariant := by
  refine { inv with scroll_inside := fun grid shown => ?_ }
  obtain ⟨rows,columns⟩ := inv.scroll_inside grid shown
  exact inside grid shown rows columns

theorem scroll (inv : e.Invariant) (move : Scroll) : (move.apply e).Invariant := by
  have counts : ∀ grid ∈ e.result,
      e.lastRow = grid.rows.length - 1 ∧ e.columnCount = grid.columns.length := by
    intro grid shown
    simp [Editor.lastRow,Editor.rowCount,Editor.columnCount,Option.mem_def.mp shown]
  cases move with
  | up => exact inv.scrolled fun grid shown rows columns => ⟨by omega,columns⟩
  | down =>
    show e.scrollDown.Invariant
    unfold Editor.scrollDown
    split
    · refine inv.scrolled fun grid shown rows columns => ⟨?_,columns⟩
      obtain ⟨last,-⟩ := counts grid shown
      omega
    · exact inv
  | left => exact inv.scrolled fun grid shown rows columns => ⟨rows,by omega⟩
  | right =>
    show e.scrollRight.Invariant
    unfold Editor.scrollRight
    split
    · refine inv.scrolled fun grid shown rows columns => ⟨rows,?_⟩
      obtain ⟨-,count⟩ := counts grid shown
      omega
    · exact inv
  | pageUp => exact inv.scrolled fun grid shown rows columns => ⟨by omega,columns⟩
  | pageDown =>
    refine inv.scrolled fun grid shown rows columns => ⟨?_,columns⟩
    obtain ⟨last,-⟩ := counts grid shown
    omega
  | top => exact inv.scrolled fun grid shown rows columns => ⟨Nat.zero_le _,columns⟩
  | bottom =>
    refine inv.scrolled fun grid shown rows columns => ⟨?_,columns⟩
    obtain ⟨last,-⟩ := counts grid shown
    omega

/-! ### Commands -/

theorem withoutCommand (inv : e.Invariant) : { e with command := [] }.Invariant :=
  { inv with command_empty := fun _ => rfl }

theorem runCommand (inv : e.Invariant) (command : Command) :
    (e.runCommand command).Invariant := by
  cases command with
  | quit | nothing | unknown => exact { inv with }
  | run => exact inv.runText
  | use name => exact inv.useDatabase name
  | clear => exact { inv with scroll_inside := by simp [Editor.runCommand] }

/-- A command is not there any more when it runs, and running does not bring it back. -/
theorem submit (inv : e.Invariant) : e.submitCommand.Invariant := by
  apply (inv.withoutCommand.runCommand _).enter
  intro _
  exact command_runCommand _ _

/-! ### Keys -/

theorem erase (inv : e.Invariant) (mode : e.mode = .command) :
    (Action.erase.perform e).Invariant := by
  show (if e.command = [] then e.enter .normal else { e with command := e.command.dropLast }).Invariant
  split
  · next empty => exact inv.enter .normal fun _ => empty
  · exact { inv with command_empty := fun leaves => absurd mode leaves }

theorem perform (inv : e.Invariant) {action : Action} (allowed : action.Allowed e.mode) :
    (action.perform e).Invariant := by
  cases action with
  | nothing => exact inv
  | quit => exact { inv with }
  | toggleFocus =>
    -- the focus is only changed where it may be on the results
    refine { inv with insert_focus := fun insert => ?_ }
    exact absurd (allowed.symm.trans insert) (by decide)
  | edit change => exact inv.edit _
  | scroll move => exact inv.scroll move
  | enter mode => exact inv.enter mode fun command => absurd command allowed
  | insertAfter motion =>
    refine (inv.edit motion.apply).enter .insert fun command => ?_
    exact absurd (allowed.symm.trans command) (by decide)
  | run => exact inv.runText
  | runAndLeave =>
    refine inv.runText.enter .normal fun _ => ?_
    rw [command_runText]
    exact inv.command_empty (by rw [allowed]; decide)
  | older => exact inv.recallOlder
  | newer => exact inv.recallNewer
  | type c => exact { inv with command_empty := fun leaves => absurd allowed leaves }
  | erase => exact inv.erase allowed
  | submit => exact inv.submit
  | cancel => exact inv.withoutCommand.enter .normal fun _ => rfl

theorem press (inv : e.Invariant) (key : KeyPress) : (e.press key).Invariant := by
  obtain ⟨action,allowed,-,acts⟩ := acts_press e key
  rw [acts]
  exact inv.perform allowed

end Invariant
end PlainTables.Editor
