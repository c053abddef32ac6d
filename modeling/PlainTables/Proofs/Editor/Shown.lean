import Mathlib.Tactic.Tauto
import PlainTables.Proofs.Editor.Events

/-! What is on show: the grid, the message and the error that a run or a command has left. A key changes
them only by the command it gives. Main statement: after a run of events a message is hidden behind a grid
exactly if a database was selected over that grid and nothing ran and nothing was cleared since. -/
namespace PlainTables.Editor

open Unicode (isBlank)

variable {e : Editor}

/-- What there is to be shown. -/
structure Shown where
  result : Option Grid
  message : Option String
  error : Option String
  deriving DecidableEq, Repr

def shown (e : Editor) : Shown := ⟨e.result,e.message,e.error⟩

/-! ### What a key changes -/

theorem shown_enter (e : Editor) (mode : Mode) : (e.enter mode).shown = e.shown := by
  cases mode <;> rfl

theorem shown_scroll (e : Editor) (move : Scroll) : (move.apply e).shown = e.shown := by
  cases move with
  | down =>
    show e.scrollDown.shown = e.shown
    unfold scrollDown
    split <;> rfl
  | right =>
    show e.scrollRight.shown = e.shown
    unfold scrollRight
    split <;> rfl
  | up | left | pageUp | pageDown | top | bottom => rfl

theorem shown_showPast (e : Editor) (i : Nat) : (e.showPast i).shown = e.shown := by
  unfold showPast
  split <;> rfl

/-! ### Runs and commands -/

/-- A grid if an answer has rows, a message otherwise. -/
def Shown.ofAnswer (answer : Answer) : Shown :=
  match answer.grid? with
  | some grid => ⟨some grid,none,none⟩
  | none => ⟨none,some answer.text,none⟩

/-- What is on show after a run with this outcome. -/
def Shown.ran (s : Shown) : EStateM.Result Fault Workspace (List Answer) → Shown
  | .ok answers _ => (answers.getLast?.map ofAnswer).getD { s with message := none }
  | .error fault _ => ⟨none,none,some fault.message⟩

theorem shown_remember (e : Editor) (text : String) : (e.remember text).shown = e.shown := by
  unfold remember
  split <;> rfl

theorem shown_showAnswer (e : Editor) (answer : Answer) :
    (e.showAnswer answer).shown = .ofAnswer answer := by
  unfold showAnswer Shown.ofAnswer
  cases answer.grid? <;> rfl

theorem shown_finish (e : Editor) (outcome : EStateM.Result Fault Workspace (List Answer)) :
    (e.finish outcome).shown = e.shown.ran outcome := by
  cases outcome with
  | ok answers workspace =>
    simp only [finish,Shown.ran]
    cases answers.getLast? with
    | none => rfl
    | some answer => exact shown_showAnswer _ answer
  | error fault workspace => rfl

/-- A text of blanks is not run. -/
theorem shown_runTo (e : Editor) (outcome : EStateM.Result Fault Workspace (List Answer)) :
    (e.runTo outcome).shown = if e.buffer.chars.all isBlank then e.shown else e.shown.ran outcome := by
  unfold runTo
  split
  · rfl
  · rw [shown_finish,shown_remember]

/-- The command that is being typed has no part in a run. -/
theorem shown_runCommand_typed (e : Editor) (typed : List Char) (command : Command) :
    (runCommand { e with command := typed } command).shown = (e.runCommand command).shown := by
  cases command with
  | quit | clear | nothing | unknown => rfl
  | run =>
    show (runText { e with command := typed }).shown = e.runText.shown
    rw [runText_eq,runText_eq,shown_runTo,shown_runTo]
    rfl
  | use name =>
    show (useDatabase { e with command := typed } name).shown = (e.useDatabase name).shown
    unfold useDatabase
    dsimp only
    split <;> rfl

/-! ### Keys -/

/-- The editor after the command that a key gives, if it gives one. -/
def ordered (e : Editor) (order : Option Command) : Editor := (order.map e.runCommand).getD e

theorem shown_perform (e : Editor) (action : Action) :
    (action.perform e).shown = (e.ordered (action.order? e)).shown := by
  cases action with
  | nothing | quit | toggleFocus | edit | insertAfter | type | cancel | run | runAndLeave => rfl
  | scroll move => exact e.shown_scroll move
  | enter mode => exact e.shown_enter mode
  | older =>
    show e.recallOlder.shown = e.shown
    rw [recallOlder_eq]
    exact e.shown_showPast _
  | newer =>
    show e.recallNewer.shown = e.shown
    unfold recallNewer
    split
    · rfl
    · split
      · exact e.shown_showPast _
      · rfl
  | erase =>
    show (if e.command = [] then e.enter .normal else { e with command := e.command.dropLast }).shown =
      e.shown
    split <;> rfl
  | submit => exact e.shown_runCommand_typed [] _

/-- A key changes what is on show as the command that it gives does. -/
theorem shown_press (e : Editor) (key : KeyPress) :
    (e.press key).shown = (e.ordered (e.order? key)).shown := by
  obtain ⟨action,-,order,acts⟩ := acts_press e key
  rw [acts,← order]
  exact e.shown_perform action

/-! ### A message behind a grid -/

/-- Only the grid is drawn. -/
def Shown.Overlaid (s : Shown) : Prop := s.result.isSome ∧ s.message.isSome

theorem Shown.not_overlaid_ofAnswer (answer : Answer) : ¬(ofAnswer answer).Overlaid := by
  unfold ofAnswer
  split <;> simp [Overlaid]

theorem Shown.not_overlaid_ran (s : Shown) (outcome : EStateM.Result Fault Workspace (List Answer)) :
    ¬(s.ran outcome).Overlaid := by
  cases outcome with
  | ok answers workspace =>
    simp only [ran]
    cases answers.getLast? with
    | none => simp [Overlaid]
    | some answer => exact not_overlaid_ofAnswer answer
  | error fault workspace => simp [ran,Overlaid]

/-- A database is selected over a grid. -/
def Covers (e : Editor) (order : Option Command) : Prop :=
  e.result.isSome ∧ ∃ name db workspace, order = some (.use name) ∧
    Workspace.useDatabase name e.workspace = .ok db workspace

/-- A text runs, or what is on show is cleared. -/
def Replaces (e : Editor) (order : Option Command) : Prop :=
  order = some .run ∧ e.buffer.chars.all isBlank = false ∨ order = some .clear

theorem overlaid_runTo (e : Editor) (outcome : EStateM.Result Fault Workspace (List Answer)) :
    (e.runTo outcome).shown.Overlaid ↔ e.shown.Overlaid ∧ e.buffer.chars.all isBlank = true := by
  rw [shown_runTo]
  split
  · next blank => simp [blank]
  · next filled => simp [filled,e.shown.not_overlaid_ran outcome]

theorem overlaid_useDatabase (e : Editor) (name : String) :
    (e.useDatabase name).shown.Overlaid ↔ e.Covers (some (.use name)) ∨ e.shown.Overlaid := by
  cases selected : Workspace.useDatabase name e.workspace with
  | ok db workspace =>
    have covers : e.Covers (some (.use name)) ↔ e.result.isSome := by simp [Covers,selected]
    simp only [useDatabase,selected,covers,Shown.Overlaid,shown]
    simpa using fun grid _ => grid
  | error fault workspace =>
    have covers : ¬e.Covers (some (.use name)) := by simp [Covers,selected]
    simp only [useDatabase,selected,covers,Shown.Overlaid,shown,false_or]

theorem overlaid_ordered (e : Editor) (order : Option Command) :
    (e.ordered order).shown.Overlaid ↔ e.Covers order ∨ e.shown.Overlaid ∧ ¬e.Replaces order := by
  cases order with
  | none => simp [ordered,Covers,Replaces]
  | some command =>
    show (e.runCommand command).shown.Overlaid ↔ _
    cases command with
    | quit | nothing | unknown => simp [runCommand,shown,Shown.Overlaid,Covers,Replaces]
    | clear => simp [runCommand,shown,Shown.Overlaid,Covers,Replaces]
    | run =>
      show e.runText.shown.Overlaid ↔ _
      rw [runText_eq,overlaid_runTo]
      simp [Covers,Replaces]
    | use name =>
      show (e.useDatabase name).shown.Overlaid ↔ _
      rw [overlaid_useDatabase]
      simp [Replaces]

/-! ### Events -/

/-- A key that selects a database over a grid. -/
def Event.Covers : Event → Editor → Prop
  | .press key,e => e.Covers (e.order? key)
  | .run _,_ | .outside _,_ => False

/-- A key that runs a text or clears, or a run that has an outcome. -/
def Event.Replaces : Event → Editor → Prop
  | .press key,e => e.Replaces (e.order? key)
  | .run _,e => e.buffer.chars.all isBlank = false
  | .outside _,_ => False

theorem overlaid_event (e : Editor) (event : Event) :
    (event.apply e).shown.Overlaid ↔ event.Covers e ∨ e.shown.Overlaid ∧ ¬event.Replaces e := by
  cases event with
  | press key =>
    show (e.press key).shown.Overlaid ↔ _
    rw [shown_press,overlaid_ordered]
    rfl
  | run outcome =>
    show (e.runTo outcome).shown.Overlaid ↔ _
    rw [overlaid_runTo]
    simp [Event.Covers,Event.Replaces]
  | outside workspace => simp [Event.apply,Event.Covers,Event.Replaces,shown]

/-- Nothing runs and nothing is cleared. -/
def Undisturbed (e : Editor) : List Event → Prop
  | [] => True
  | event :: later => ¬event.Replaces e ∧ (event.apply e).Undisturbed later

/-- A database is selected over a grid at some time, and what is on show is not replaced after that. -/
def CoveredDuring (e : Editor) (events : List Event) : Prop :=
  ∃ earlier event later, events = earlier ++ event :: later ∧ event.Covers (e.after earlier) ∧
    (event.apply (e.after earlier)).Undisturbed later

theorem coveredDuring_cons (e : Editor) (event : Event) (events : List Event) :
    e.CoveredDuring (event :: events) ↔
      event.Covers e ∧ (event.apply e).Undisturbed events ∨ (event.apply e).CoveredDuring events := by
  constructor
  · rintro ⟨earlier,chosen,later,split,covers,rest⟩
    cases earlier with
    | nil =>
      cases split
      exact .inl ⟨covers,rest⟩
    | cons first earlier =>
      cases split
      exact .inr ⟨earlier,chosen,later,rfl,covers,rest⟩
  · rintro (⟨covers,rest⟩ | ⟨earlier,chosen,later,rfl,covers,rest⟩)
    · exact ⟨[],event,events,rfl,covers,rest⟩
    · exact ⟨event :: earlier,chosen,later,rfl,covers,rest⟩

theorem overlaid_after (e : Editor) (events : List Event) :
    (e.after events).shown.Overlaid ↔
      e.shown.Overlaid ∧ e.Undisturbed events ∨ e.CoveredDuring events := by
  induction events generalizing e with
  | nil => simp [after,Undisturbed,CoveredDuring]
  | cons event events ih =>
    show ((event.apply e).after events).shown.Overlaid ↔ _
    rw [ih,overlaid_event,coveredDuring_cons,Undisturbed]
    tauto

/-- A message stands behind a grid after a run of the editor exactly if a database was selected over that
grid and nothing replaced what was on show since. -/
theorem overlaid_iff_covered (workspace : Workspace) (events : List Event) :
    ((start workspace).after events).shown.Overlaid ↔ (start workspace).CoveredDuring events := by
  have nothing : ¬(start workspace).shown.Overlaid := by simp [start,shown,Shown.Overlaid]
  rw [overlaid_after]
  simp [nothing]

end PlainTables.Editor
