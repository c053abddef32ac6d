import PlainTables.Proofs.Editor.Invariant

/-! Runs of the editor: keys, runs of the text with any outcome, and changes of the workspace from
outside. Main statement: after every run the invariant holds, and every place in a text or in the
history that a key uses is there. -/
namespace PlainTables.Editor

variable {e : Editor}

/-- What can happen to an editor: a key, a run with any outcome, and a change of the workspace from
outside. -/
inductive Event where
  | press (key : KeyPress)
  | run (outcome : EStateM.Result Fault Workspace (List Answer))
  | outside (workspace : Workspace)

def Event.apply : Event → Editor → Editor
  | .press key,e => e.press key
  | .run outcome,e => e.runTo outcome
  | .outside workspace,e => { e with workspace := workspace }

/-- The editor after some events, the first one first. -/
def after (e : Editor) (events : List Event) : Editor := events.foldl (fun e event => event.apply e) e

/-- What every event keeps is kept by every run. -/
theorem after_keeps {property : Editor → Prop}
    (step : ∀ e event, property e → property (Event.apply event e)) (events : List Event)
    (first : property e) : property (e.after events) := by
  induction events generalizing e with
  | nil => exact first
  | cons event events ih => exact ih (step e event first)

theorem Invariant.event (inv : e.Invariant) (event : Event) : (event.apply e).Invariant := by
  cases event with
  | press key => exact inv.press key
  | run outcome => exact inv.runTo outcome
  | outside workspace => exact { inv with }

theorem Invariant.after (workspace : Workspace) (events : List Event) :
    ((Editor.start workspace).after events).Invariant :=
  after_keeps (fun _ event inv => inv.event event) events (start workspace)

/-! ### The text -/

/-- What can become of a text when a key is pressed: it stays, or it is what an edit of its bytes
gives, a past text, or the empty text. -/
inductive Changed (e : Editor) : Buffer → Prop where
  | same : e.Changed e.buffer
  | edit (change : Edit) {buffer : Buffer} (gives : change.onBytes e.buffer.bytes = some buffer.bytes) :
    e.Changed buffer
  | past {i : Nat} {text : String} (found : e.history[i]? = some text) : e.Changed (.ofText text)
  | empty : e.Changed .empty

theorem Changed.of_eq {buffer : Buffer} (same : buffer = e.buffer) : e.Changed buffer := by
  rw [same]
  exact .same

theorem Changed.applied (change : Edit) : e.Changed (change.apply e.buffer) :=
  .edit change (change.onBytes_bytes e.buffer)

theorem buffer_enter (e : Editor) (mode : Mode) : (e.enter mode).buffer = e.buffer := by
  cases mode <;> rfl

theorem buffer_scroll (e : Editor) (move : Scroll) : (move.apply e).buffer = e.buffer := by
  cases move with
  | down =>
    show e.scrollDown.buffer = e.buffer
    unfold scrollDown
    split <;> rfl
  | right =>
    show e.scrollRight.buffer = e.buffer
    unfold scrollRight
    split <;> rfl
  | up | left | pageUp | pageDown | top | bottom => rfl

/-- The place of the text that is recalled before the one on show. -/
def olderPlace (e : Editor) : Nat :=
  match e.recalled with
  | none => e.history.length - 1
  | some i => i - 1

theorem recallOlder_eq (e : Editor) : e.recallOlder = e.showPast e.olderPlace := by
  unfold recallOlder olderPlace
  cases e.recalled <;> rfl

theorem changed_showPast (e : Editor) (i : Nat) : e.Changed (e.showPast i).buffer := by
  unfold showPast
  split
  · next found => exact .past found
  · exact .same

theorem changed_runCommand (e : Editor) (command : Command) :
    e.Changed (runCommand { e with command := [] } command).buffer := by
  cases command with
  | quit | nothing | unknown => exact .same
  | run => exact .of_eq (buffer_runText _)
  | use name => exact .of_eq (congrArg Prod.fst (typed_useDatabase _ name))
  | clear => exact .empty

theorem changed_perform (e : Editor) (action : Action) : e.Changed (action.perform e).buffer := by
  cases action with
  | nothing | quit | toggleFocus | type | cancel => exact .same
  | edit change => exact .applied change
  | scroll move => exact .of_eq (e.buffer_scroll move)
  | enter mode => exact .of_eq (e.buffer_enter mode)
  | insertAfter motion => exact .applied motion
  | run => exact .of_eq e.buffer_runText
  | runAndLeave => exact .of_eq e.buffer_runText
  | older =>
    show e.Changed e.recallOlder.buffer
    rw [recallOlder_eq]
    exact e.changed_showPast _
  | newer =>
    show e.Changed e.recallNewer.buffer
    unfold recallNewer
    split
    · exact .same
    · split
      · exact e.changed_showPast _
      · exact .empty
  | erase =>
    apply Changed.of_eq
    show (if e.command = [] then e.enter .normal else { e with command := e.command.dropLast }).buffer =
      e.buffer
    split <;> rfl
  | submit => exact e.changed_runCommand _

theorem changed_press (e : Editor) (key : KeyPress) : e.Changed (e.press key).buffer := by
  obtain ⟨action,-,-,acts⟩ := acts_press e key
  rw [acts]
  exact e.changed_perform action

/-! ### No place that is used is outside -/

/-- Every place in a text or in the history that a key uses is there. -/
structure Inside (e : Editor) : Prop where
  cursor_le : e.buffer.offset ≤ e.buffer.text.utf8ByteSize
  cursor_valid : (⟨e.buffer.offset⟩ : String.Pos.Raw).IsValid e.buffer.text
  edit : ∀ change : Edit, change.onBytes e.buffer.bytes = some (change.apply e.buffer).bytes
  older : e.history ≠ [] → ∃ text, e.history[e.olderPlace]? = some text ∧
    e.recallOlder = { e with recalled := some e.olderPlace, buffer := .ofText text }
  newer : ∀ i ∈ e.recalled, i + 1 < e.history.length → ∃ text, e.history[i + 1]? = some text ∧
    e.recallNewer = { e with recalled := some (i + 1), buffer := .ofText text }
  press : ∀ key : KeyPress, e.Changed (e.press key).buffer

theorem showPast_of_lt {i : Nat} (inside : i < e.history.length) :
    ∃ text, e.history[i]? = some text ∧
      e.showPast i = { e with recalled := some i, buffer := .ofText text } := by
  have found := List.getElem?_eq_getElem inside
  refine ⟨e.history[i],found,?_⟩
  simp only [showPast,found]

theorem Invariant.inside (inv : e.Invariant) : e.Inside where
  cursor_le := e.buffer.offset_le
  cursor_valid := e.buffer.isValid_offset
  edit := fun change => change.onBytes_bytes e.buffer
  older := by
    intro filled
    have nonempty := List.length_pos_iff.mpr filled
    have place : e.olderPlace < e.history.length := by
      unfold olderPlace
      split
      · omega
      · next i recalled =>
        have lt := inv.recalled_lt i recalled
        omega
    obtain ⟨text,found,shown⟩ := showPast_of_lt place
    refine ⟨text,found,?_⟩
    rw [recallOlder_eq,shown]
  newer := by
    intro i recalled inside
    obtain ⟨text,found,shown⟩ := showPast_of_lt inside
    refine ⟨text,found,?_⟩
    rw [← shown]
    simp only [Editor.recallNewer,Option.mem_def.mp recalled,if_pos inside]
  press := e.changed_press

/-- After every run of keys, whatever the statements return and whatever happens to the files
meanwhile, the invariant holds and every place that a key uses is there. -/
theorem after_inside (workspace : Workspace) (events : List Event) :
    ((start workspace).after events).Invariant ∧ ((start workspace).after events).Inside := by
  have inv := Invariant.after workspace events
  exact ⟨inv,inv.inside⟩

end PlainTables.Editor
