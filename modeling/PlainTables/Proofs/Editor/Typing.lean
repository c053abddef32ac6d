import PlainTables.Proofs.Editor.Events
import PlainTables.Proofs.Editor.Words

/-! Typing a text and erasing it. Every key that is pressed alone in insert mode, other than a key that
runs the text, recalls a past one or leaves the mode, is an edit, so a run of such keys is a run of edits.
Main statement: what was typed is erased by as many presses of backspace, and by as many presses of delete
after as many steps to the left. -/
namespace PlainTables

open Unicode (isBlank)
open Buffer (dropWord)

variable {b : Buffer} {changes : List Edit}

/-! ### Runs of edits -/

namespace Edit

def run (changes : List Edit) (b : Buffer) : Buffer := changes.foldl (fun b change => change.apply b) b

def runOnBytes? (changes : List Edit) (b : ByteBuffer) : Option ByteBuffer :=
  changes.foldlM (fun b change => change.onBytes b) b

@[simp] theorem run_nil (b : Buffer) : run [] b = b := rfl

@[simp] theorem run_cons (change : Edit) (changes : List Edit) (b : Buffer) :
    run (change :: changes) b = run changes (change.apply b) := rfl

@[simp] theorem run_append (changes later : List Edit) (b : Buffer) :
    run (changes ++ later) b = run later (run changes b) := List.foldl_append

theorem runOnBytes?_bytes (changes : List Edit) (b : Buffer) :
    runOnBytes? changes b.bytes = some (run changes b).bytes := by
  induction changes generalizing b with
  | nil => rfl
  | cons change changes ih =>
    rw [runOnBytes?,List.foldlM_cons,change.onBytes_bytes]
    exact ih (change.apply b)

theorem run_insert (text : List Char) (b : Buffer) :
    run (text.map .insert) b = ⟨b.before ++ text,b.after⟩ := by
  induction text generalizing b with
  | nil => simp
  | cons c text ih =>
    rw [List.map_cons,run_cons,ih]
    simp [apply,Buffer.insert]

/-- The last character goes first. -/
theorem run_deleteBackward (first text last : List Char) :
    run (.replicate text.length .deleteBackward) ⟨first ++ text,last⟩ = ⟨first,last⟩ := by
  induction text using List.reverseRecOn with
  | nil => simp
  | append_singleton text c ih =>
    have step : deleteBackward.apply ⟨first ++ (text ++ [c]),last⟩ = ⟨first ++ text,last⟩ := by
      simp [apply,Buffer.deleteBackward,← List.append_assoc]
    rw [List.length_append,List.length_singleton,List.replicate_succ,run_cons,step,ih]

theorem run_left (first text last : List Char) :
    run (.replicate text.length .left) ⟨first ++ text,last⟩ = ⟨first,text ++ last⟩ := by
  induction text using List.reverseRecOn generalizing last with
  | nil => simp
  | append_singleton text c ih =>
    have step : left.apply ⟨first ++ (text ++ [c]),last⟩ = ⟨first ++ text,c :: last⟩ := by
      have cut := Buffer.atPosition_length (first ++ text) (c :: last)
      simpa [apply,Buffer.left,Buffer.chars] using cut
    rw [List.length_append,List.length_singleton,List.replicate_succ,run_cons,step,ih]
    simp

theorem run_deleteForward (first text last : List Char) :
    run (.replicate text.length .deleteForward) ⟨first,text ++ last⟩ = ⟨first,last⟩ := by
  induction text with
  | nil => simp
  | cons c text ih =>
    rw [List.length_cons,List.replicate_succ,run_cons]
    exact ih

end Edit

/-! ### Runs of keys -/

namespace Editor

variable {e : Editor} {key : Key} {keys : List Key} {change : Edit}

/-- Keys pressed one after the other, each of them alone. -/
def alone (keys : List Key) : List Event := keys.map fun key => .press ⟨key,.none⟩

/-- The edit a key makes that is pressed alone in insert mode. -/
def edit? : Key → Option Edit
  | .char c => some (.insert c)
  | .backspace => some .deleteBackward
  | .delete => some .deleteForward
  | .left => some .left
  | .right => some .right
  | .home => some .toStart
  | .finish => some .toEnd
  | .enter | .escape | .tab | .backTab | .up | .down | .pageUp | .pageDown | .function _ => none

theorem press_insert (inserting : e.mode = .insert) {press : KeyPress}
    (stays : ¬ (press.modifiers.ctrl ∧ press.key = .char 'c')) : e.press press = e.pressInsert press := by
  rw [Editor.press,if_neg stays,inserting]

theorem press_alone (inserting : e.mode = .insert) (edits : edit? key = some change) :
    e.press ⟨key,.none⟩ = e.edit change.apply := by
  rw [press_insert inserting (by simp [Modifiers.none])]
  cases key with
  | char | backspace | delete | left | right | home | finish =>
    cases edits
    rfl
  | enter | escape | tab | backTab | up | down | pageUp | pageDown | function => cases edits

/-- The keys change the text in this way and nothing else, and its bytes in the same way. -/
structure Gives (e : Editor) (keys : List Key) (b : Buffer) : Prop where
  editor : e.after (alone keys) = { e with buffer := b }
  bytes : ∃ changes, keys.map edit? = changes.map some ∧
    Edit.runOnBytes? changes e.buffer.bytes = some b.bytes

theorem after_alone (inserting : e.mode = .insert) (edits : keys.map edit? = changes.map some) :
    e.after (alone keys) = { e with buffer := Edit.run changes e.buffer } := by
  induction keys generalizing e changes with
  | nil =>
    rw [List.map_nil,eq_comm,List.map_eq_nil_iff] at edits
    rw [edits]
    rfl
  | cons key keys ih =>
    cases changes with
    | nil => cases edits
    | cons change changes =>
      obtain ⟨here,later⟩ := List.cons.inj edits
      show (e.press ⟨key,.none⟩).after (alone keys) = _
      rw [press_alone inserting here]
      exact ih inserting later

theorem gives_of_edits (inserting : e.mode = .insert) (edits : keys.map edit? = changes.map some)
    (ends : Edit.run changes e.buffer = b) : e.Gives keys b where
  editor := by rw [after_alone inserting edits,ends]
  bytes := ⟨changes,edits,by rw [Edit.runOnBytes?_bytes,ends]⟩

theorem press_deleteWord (inserting : e.mode = .insert) (shift alt : Bool) :
    e.press ⟨.char 'w',⟨true,shift,alt⟩⟩ = e.edit Buffer.deleteWord :=
  press_insert inserting (by simp)

/-- A text that is typed stands before the cursor, and nothing else changes. As many presses of backspace
erase it, and so do as many presses of delete after as many steps to the left. Control-W erases the blanks
before the cursor and the word before them. -/
theorem typed_erased (inserting : e.mode = .insert) (text : List Char) :
    e.Gives (text.map .char) ⟨e.buffer.before ++ text,e.buffer.after⟩ ∧
    e.Gives (text.map .char ++ .replicate text.length .backspace) e.buffer ∧
    e.Gives (text.map .char ++ (.replicate text.length .left ++ .replicate text.length .delete)) e.buffer ∧
    ∃ lead word gap, e.buffer.before = lead ++ (word ++ gap) ∧ (∀ c ∈ word, isBlank c = false) ∧
      (∀ c ∈ gap, isBlank c = true) ∧ (∀ c ∈ (lead ++ word).getLast?, isBlank c = false) ∧
      (∀ c ∈ lead.getLast?, isBlank c = true) ∧
      Edit.deleteWord.onBytes e.buffer.bytes = some (Buffer.bytes ⟨lead,e.buffer.after⟩) ∧
      ∀ shift alt, e.press ⟨.char 'w',⟨true,shift,alt⟩⟩ = { e with buffer := ⟨lead,e.buffer.after⟩ } := by
  have typed : (text.map Key.char).map edit? = (text.map Edit.insert).map some := by
    rw [List.map_map,List.map_map]
    rfl
  refine ⟨?_,?_,?_,?_⟩
  · exact gives_of_edits inserting typed (Edit.run_insert text e.buffer)
  · have edits : (text.map Key.char ++ .replicate text.length .backspace).map edit? =
        (text.map Edit.insert ++ .replicate text.length .deleteBackward).map some := by
      simp [typed,edit?]
    refine gives_of_edits inserting edits ?_
    rw [Edit.run_append,Edit.run_insert,Edit.run_deleteBackward]
  · have edits : (text.map Key.char ++
        (.replicate text.length .left ++ .replicate text.length .delete)).map edit? =
          (text.map Edit.insert ++
            (.replicate text.length .left ++ .replicate text.length .deleteForward)).map some := by
      simp [typed,edit?]
    refine gives_of_edits inserting edits ?_
    rw [Edit.run_append,Edit.run_append,Edit.run_insert,Edit.run_left,Edit.run_deleteForward]
  · obtain ⟨word,gap,split,solid,blank,ends,before⟩ := Buffer.dropWord_split e.buffer.before
    exact ⟨dropWord e.buffer.before,word,gap,split,solid,blank,ends,before,
      Edit.deleteWord.onBytes_bytes e.buffer,press_deleteWord inserting⟩

/-- A cursor behind a blank of three bytes. -/
def quoting : Editor :=
  { start (.start .empty (Path.ofText "data") .comma) with
    mode := .insert
    buffer := ⟨['a',' ','é','\u3000'],['x']⟩ }

theorem quoting_erased : quoting.mode = .insert ∧
    quoting.Gives (['ß','\u2003'].map .char) ⟨['a',' ','é','\u3000','ß','\u2003'],['x']⟩ ∧
    quoting.Gives (['ß','\u2003'].map .char ++ .replicate 2 .backspace) quoting.buffer ∧
    quoting.Gives (['ß','\u2003'].map .char ++ (.replicate 2 .left ++ .replicate 2 .delete))
      quoting.buffer ∧
    quoting.press ⟨.char 'w',⟨true,false,false⟩⟩ = { quoting with buffer := ⟨['a',' '],['x']⟩ } := by
  obtain ⟨typed,erased,deleted,-⟩ := typed_erased (e := quoting) rfl ['ß','\u2003']
  exact ⟨rfl,typed,erased,deleted,rfl⟩

end Editor
end PlainTables
