import PlainTables.Editor.Press
import PlainTables.Proofs.Editor.Edit

/-! What a key does to the editor, apart from which key it is. Each key press is one of a few actions,
and some of them are only taken in some modes. Main statement: a key press is an action that its mode
allows, and it gives the command that the key gives. -/
namespace PlainTables.Editor

/-- What moves the grid under its window. -/
inductive Scroll where
  | up | down | left | right | pageUp | pageDown | top | bottom
  deriving DecidableEq, Repr

def Scroll.apply : Scroll → Editor → Editor
  | .up => Editor.scrollUp
  | .down => Editor.scrollDown
  | .left => Editor.scrollLeft
  | .right => Editor.scrollRight
  | .pageUp => Editor.pageUp
  | .pageDown => Editor.pageDown
  | .top => Editor.scrollToTop
  | .bottom => Editor.scrollToBottom

inductive Action where
  | nothing
  | quit
  | toggleFocus
  | edit (change : Edit)
  | scroll (move : Scroll)
  | enter (mode : Mode)
  /-- Begins to insert where a motion ends. -/
  | insertAfter (motion : Edit)
  | run
  | runAndLeave
  | older
  | newer
  /-- One more character of a command, one less, the whole command, and no command. -/
  | type (c : Char)
  | erase
  | submit
  | cancel
  deriving DecidableEq, Repr

namespace Action

def perform : Action → Editor → Editor
  | .nothing,e => e
  | .quit,e => { e with quit := true }
  | .toggleFocus,e => e.toggleFocus
  | .edit change,e => e.edit change.apply
  | .scroll move,e => move.apply e
  | .enter mode,e => e.enter mode
  | .insertAfter motion,e => (e.edit motion.apply).enter .insert
  | .run,e => e.runText
  | .runAndLeave,e => e.runText.enter .normal
  | .older,e => e.recallOlder
  | .newer,e => e.recallNewer
  | .type c,e => { e with command := e.command ++ [c] }
  | .erase,e =>
    if e.command = [] then e.enter .normal else { e with command := e.command.dropLast }
  | .submit,e => e.submitCommand
  | .cancel,e => Editor.enter { e with command := [] } .normal

/-- The modes in which a key does this. -/
def Allowed : Action → Mode → Prop
  | .toggleFocus,mode | .insertAfter _,mode | .run,mode => mode = .normal
  | .runAndLeave,mode | .older,mode | .newer,mode => mode = .insert
  | .enter _,mode | .edit _,mode => mode ≠ .command
  | .type _,mode | .erase,mode | .submit,mode => mode = .command
  | .nothing,_ | .quit,_ | .scroll _,_ | .cancel,_ => True

/-- The command an action gives. -/
def order? : Action → Editor → Option Command
  | .run,_ | .runAndLeave,_ => some .run
  | .submit,e => some (Command.ofText e.command)
  | _,_ => none

end Action

/-- The command a key gives: the one that was typed in command mode, and the run of the text in the
other modes. -/
def order? (e : Editor) (press : KeyPress) : Option Command :=
  match press.key,e.mode with
  | .enter,.normal => some .run
  | .enter,.insert => if press.modifiers.shift || press.modifiers.alt then none else some .run
  | .enter,.command => some (Command.ofText e.command)
  | _,_ => none

/-- An action that the mode allows and that gives this command. -/
def Acts (e : Editor) (order : Option Command) (after : Editor) : Prop :=
  ∃ action : Action, action.Allowed e.mode ∧ action.order? e = order ∧ after = action.perform e

variable {e : Editor} {order : Option Command}

theorem acts_ite {condition : Prop} [Decidable condition] {a b : Editor} (yes : Acts e order a)
    (no : Acts e order b) : Acts e order (if condition then a else b) := by
  split
  · exact yes
  · exact no

theorem order?_of_ne_enter {press : KeyPress} (other : press.key ≠ .enter) : e.order? press = none := by
  unfold order?
  split
  · contradiction
  · contradiction
  · contradiction
  · rfl

theorem acts_pressNormal (mode : e.mode = .normal) (press : KeyPress) :
    Acts e (e.order? press) (e.pressNormal press) := by
  have leaves : e.mode ≠ .command := by simp [mode]
  have edits : ∀ change : Edit, Acts e none (e.edit change.apply) := fun change =>
    ⟨.edit change,leaves,rfl,rfl⟩
  have scrolls : ∀ move : Scroll, Acts e none (move.apply e) := fun move =>
    ⟨.scroll move,trivial,rfl,rfl⟩
  have inserts : ∀ motion : Edit, Acts e none ((e.edit motion.apply).enter .insert) := fun motion =>
    ⟨.insertAfter motion,mode,rfl,rfl⟩
  have nothing : Acts e none e := ⟨.nothing,trivial,rfl,rfl⟩
  by_cases enter : press.key = .enter
  · have order : e.order? press = some .run := by simp [order?,enter,mode]
    rw [order,pressNormal,enter]
    exact ⟨.run,mode,rfl,rfl⟩
  rw [order?_of_ne_enter enter]
  unfold pressNormal
  dsimp only
  cases key : press.key with
  | char c =>
    -- one case for each key that means something, in the order of the definition
    refine acts_ite (scrolls .pageDown) ?_
    refine acts_ite (scrolls .pageUp) ?_
    refine acts_ite ⟨.enter .insert,leaves,rfl,rfl⟩ ?_
    refine acts_ite (inserts .toStart) ?_
    refine acts_ite (inserts .right) ?_
    refine acts_ite (inserts .toEnd) ?_
    refine acts_ite ⟨.enter .command,leaves,rfl,rfl⟩ ?_
    refine acts_ite ⟨.quit,trivial,rfl,rfl⟩ ?_
    refine acts_ite (acts_ite (edits .left) (scrolls .left)) ?_
    refine acts_ite (acts_ite (edits .right) (scrolls .right)) ?_
    refine acts_ite (acts_ite (edits .down) (scrolls .down)) ?_
    refine acts_ite (acts_ite (edits .up) (scrolls .up)) ?_
    refine acts_ite ?_ (acts_ite (scrolls .top) (acts_ite (scrolls .bottom) nothing))
    refine acts_ite (edits .toStart) ?_
    refine acts_ite (edits .toEnd) ?_
    refine acts_ite (edits .wordForward) ?_
    refine acts_ite (edits .wordBackward) ?_
    refine acts_ite (edits .deleteForward) ?_
    exact acts_ite (edits .deleteToEnd) nothing
  | left => exact acts_ite (edits .left) (scrolls .left)
  | right => exact acts_ite (edits .right) (scrolls .right)
  | down => exact acts_ite (edits .down) (scrolls .down)
  | up => exact acts_ite (edits .up) (scrolls .up)
  | tab => exact ⟨.toggleFocus,mode,rfl,rfl⟩
  | enter => exact absurd key enter
  | escape | backTab | backspace | delete | home | finish | pageUp | pageDown | function =>
    exact nothing

theorem acts_pressInsert (mode : e.mode = .insert) (press : KeyPress) :
    Acts e (e.order? press) (e.pressInsert press) := by
  have leaves : e.mode ≠ .command := by simp [mode]
  have edits : ∀ change : Edit, Acts e none (e.edit change.apply) := fun change =>
    ⟨.edit change,leaves,rfl,rfl⟩
  by_cases enter : press.key = .enter
  · have order : e.order? press =
        if press.modifiers.shift || press.modifiers.alt then none else some .run := by
      simp [order?,enter,mode]
    rw [order,pressInsert,enter]
    dsimp only
    split
    · exact edits (.insert '\n')
    · exact ⟨.runAndLeave,mode,rfl,rfl⟩
  rw [order?_of_ne_enter enter]
  unfold pressInsert
  cases key : press.key with
  | escape => exact ⟨.enter .normal,leaves,rfl,rfl⟩
  | enter => exact absurd key enter
  | backspace => exact edits .deleteBackward
  | delete => exact edits .deleteForward
  | left => exact edits .left
  | right => exact edits .right
  | home => exact edits .toStart
  | finish => exact edits .toEnd
  | up => exact ⟨.older,mode,rfl,rfl⟩
  | down => exact ⟨.newer,mode,rfl,rfl⟩
  | char c =>
    refine acts_ite ?_ (edits (.insert c))
    refine acts_ite (edits .deleteWord) ?_
    refine acts_ite (edits .deleteToStart) ?_
    refine acts_ite (edits .deleteToEnd) ?_
    refine acts_ite (edits .toStart) ?_
    exact acts_ite (edits .toEnd) (edits (.insert c))
  | tab | backTab | pageUp | pageDown | function => exact ⟨.nothing,trivial,rfl,rfl⟩

theorem acts_pressCommand (mode : e.mode = .command) (press : KeyPress) :
    Acts e (e.order? press) (e.pressCommand press) := by
  by_cases enter : press.key = .enter
  · have order : e.order? press = some (Command.ofText e.command) := by simp [order?,enter,mode]
    rw [order,pressCommand,enter]
    exact ⟨.submit,mode,rfl,rfl⟩
  rw [order?_of_ne_enter enter]
  unfold pressCommand
  cases key : press.key with
  | escape => exact ⟨.cancel,trivial,rfl,rfl⟩
  | enter => exact absurd key enter
  | backspace => exact ⟨.erase,mode,rfl,rfl⟩
  | char c => exact ⟨.type c,mode,rfl,rfl⟩
  | tab | backTab | delete | left | right | up | down | home | finish | pageUp | pageDown | function =>
    exact ⟨.nothing,trivial,rfl,rfl⟩

theorem acts_press (e : Editor) (press : KeyPress) : Acts e (e.order? press) (e.press press) := by
  unfold Editor.press
  split
  · next leaves =>
    have order : e.order? press = none := order?_of_ne_enter (by simp [leaves.2])
    rw [order]
    split
    · exact ⟨.quit,trivial,rfl,rfl⟩
    · exact ⟨.cancel,trivial,rfl,rfl⟩
  · split
    · next mode => exact acts_pressNormal mode press
    · next mode => exact acts_pressInsert mode press
    · next mode => exact acts_pressCommand mode press

end PlainTables.Editor
