import PlainTables.Editor.Basic
import PlainTables.Editor.Key

/-! What each key does. Control-C leaves a mode, or the editor in normal mode; every other
key depends on the mode, and in normal mode most keys depend on the focus. -/
namespace PlainTables.Editor

def pressNormal (e : Editor) (press : KeyPress) : Editor :=
  let inQuery := e.focus = .query
  match press.key with
  | .char c =>
    if c = 'd' ∧ press.modifiers.ctrl then e.pageDown
    else if c = 'u' ∧ press.modifiers.ctrl then e.pageUp
    else if c = 'i' then e.enter .insert
    else if c = 'I' then (e.edit Buffer.toStart).enter .insert
    else if c = 'a' then (e.edit Buffer.right).enter .insert
    else if c = 'A' then (e.edit Buffer.toEnd).enter .insert
    else if c = ':' then e.enter .command
    else if c = 'q' then { e with quit := true }
    else if c = 'h' then (if inQuery then e.edit Buffer.left else e.scrollLeft)
    else if c = 'l' then (if inQuery then e.edit Buffer.right else e.scrollRight)
    else if c = 'j' then (if inQuery then e.edit Buffer.down else e.scrollDown)
    else if c = 'k' then (if inQuery then e.edit Buffer.up else e.scrollUp)
    else if inQuery then
      if c = '0' then e.edit Buffer.toStart
      else if c = '$' then e.edit Buffer.toEnd
      else if c = 'w' then e.edit Buffer.wordForward
      else if c = 'b' then e.edit Buffer.wordBackward
      else if c = 'x' then e.edit Buffer.deleteForward
      else if c = 'D' then e.edit Buffer.deleteToEnd
      else e
    else if c = 'g' then e.scrollToTop
    else if c = 'G' then e.scrollToBottom
    else e
  | .left => if inQuery then e.edit Buffer.left else e.scrollLeft
  | .right => if inQuery then e.edit Buffer.right else e.scrollRight
  | .down => if inQuery then e.edit Buffer.down else e.scrollDown
  | .up => if inQuery then e.edit Buffer.up else e.scrollUp
  | .tab => e.toggleFocus
  | .enter => e.runText
  | _ => e

def pressInsert (e : Editor) (press : KeyPress) : Editor :=
  match press.key with
  | .escape => e.enter .normal
  | .enter =>
    if press.modifiers.shift || press.modifiers.alt then e.edit (·.insert '\n')
    else e.runText.enter .normal
  | .backspace => e.edit Buffer.deleteBackward
  | .delete => e.edit Buffer.deleteForward
  | .left => e.edit Buffer.left
  | .right => e.edit Buffer.right
  | .home => e.edit Buffer.toStart
  | .finish => e.edit Buffer.toEnd
  | .up => e.recallOlder
  | .down => e.recallNewer
  | .char c =>
    if press.modifiers.ctrl then
      if c = 'w' then e.edit Buffer.deleteWord
      else if c = 'u' then e.edit Buffer.deleteToStart
      else if c = 'k' then e.edit Buffer.deleteToEnd
      else if c = 'a' then e.edit Buffer.toStart
      else if c = 'e' then e.edit Buffer.toEnd
      else e.edit (·.insert c)
    else e.edit (·.insert c)
  | _ => e

def pressCommand (e : Editor) (press : KeyPress) : Editor :=
  match press.key with
  | .escape => Editor.enter { e with command := [] } .normal
  | .enter => e.submitCommand
  | .backspace =>
    if e.command = [] then e.enter .normal else { e with command := e.command.dropLast }
  | .char c => { e with command := e.command ++ [c] }
  | _ => e

def press (e : Editor) (press : KeyPress) : Editor :=
  if press.modifiers.ctrl ∧ press.key = .char 'c' then
    match e.mode with
    | .normal => { e with quit := true }
    | _ => Editor.enter { e with command := [] } .normal
  else
    match e.mode with
    | .normal => e.pressNormal press
    | .insert => e.pressInsert press
    | .command => e.pressCommand press

end PlainTables.Editor
