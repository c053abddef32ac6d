import PlainTables.Answer.Grid
import PlainTables.Editor.Buffer
import PlainTables.Workspace

/-! The editor: a text of statements, the outcome of the last run, and the workspace the
statements run in. Each function here is one thing a user can do. -/
namespace PlainTables

inductive Mode where
  | normal | insert | command
  deriving DecidableEq, Repr

inductive Focus where
  | query | results
  deriving DecidableEq, Repr

structure Editor where
  workspace : Workspace
  buffer : Buffer
  mode : Mode
  focus : Focus
  quit : Bool
  /-- The command being typed after a colon. -/
  command : List Char
  message : Option String
  error : Option String
  result : Option Grid
  scroll : Nat
  columnScroll : Nat
  /-- The texts that were run, the oldest first. -/
  history : List String
  /-- The place in the history of the text last recalled from it. -/
  recalled : Option Nat

namespace Editor

def start (workspace : Workspace) : Editor where
  workspace := workspace
  buffer := .empty
  mode := .normal
  focus := .query
  quit := false
  command := []
  message := none
  error := none
  result := none
  scroll := 0
  columnScroll := 0
  history := []
  recalled := none

def edit (e : Editor) (change : Buffer → Buffer) : Editor :=
  { e with buffer := change e.buffer }

def enter (e : Editor) (mode : Mode) : Editor :=
  match mode with
  | .normal => { e with mode := .normal }
  | .insert => { e with mode := .insert, focus := .query }
  | .command => { e with mode := .command, command := [] }

/-! ### Running -/

/-- Shows an answer: a grid if it has rows, a message otherwise. -/
def showAnswer (e : Editor) (answer : Answer) : Editor :=
  let shown := { e with error := none, scroll := 0, columnScroll := 0 }
  match answer.grid? with
  | some grid => { shown with result := some grid, message := none }
  | none => { shown with result := none, message := some answer.text }

/-- Appends a text to the history, unless it is the latest one already. -/
def remember (e : Editor) (text : String) : Editor :=
  if e.history.getLast? = some text then { e with recalled := none }
  else { e with history := e.history ++ [text], recalled := none }

/-- Runs the statements of the text and shows the last answer or the fault that stopped
them. A text of blanks is not run; one of comments only clears the message. -/
def runText (e : Editor) : Editor :=
  if e.buffer.chars.all Unicode.isBlank then e
  else
    let noted := e.remember e.buffer.text
    match Workspace.executeScript e.buffer.text e.workspace with
    | .ok answers workspace =>
      let after := { noted with workspace := workspace }
      match answers.getLast? with
      | some answer => after.showAnswer answer
      | none => { after with message := none }
    | .error fault workspace =>
      { noted with
        workspace := workspace
        error := some fault.message
        result := none
        message := none }

def useDatabase (e : Editor) (name : String) : Editor :=
  match Workspace.useDatabase name e.workspace with
  | .ok db workspace =>
    { e with
      workspace := workspace
      message := some (Answer.databaseSelected db.name).text
      error := none }
  | .error fault workspace => { e with workspace := workspace, error := some fault.message }

/-! ### History -/

def showPast (e : Editor) (i : Nat) : Editor :=
  match e.history[i]? with
  | some text => { e with recalled := some i, buffer := .ofText text }
  | none => e

def recallOlder (e : Editor) : Editor :=
  match e.recalled with
  | none => e.showPast (e.history.length - 1)
  | some i => e.showPast (i - 1)

/-- Past the newest text the editor is empty. -/
def recallNewer (e : Editor) : Editor :=
  match e.recalled with
  | none => e
  | some i =>
    if i + 1 < e.history.length then e.showPast (i + 1)
    else { e with recalled := none, buffer := .empty }

/-! ### Scrolling -/

def rowCount (e : Editor) : Nat := (e.result.map (·.rows.length)).getD 0

def columnCount (e : Editor) : Nat := (e.result.map (·.columns.length)).getD 0

def lastRow (e : Editor) : Nat := e.rowCount - 1

def pageSize : Nat := 10

def scrollUp (e : Editor) : Editor := { e with scroll := e.scroll - 1 }

def scrollDown (e : Editor) : Editor :=
  if e.scroll < e.lastRow then { e with scroll := e.scroll + 1 } else e

def scrollLeft (e : Editor) : Editor := { e with columnScroll := e.columnScroll - 1 }

def scrollRight (e : Editor) : Editor :=
  if e.columnScroll + 1 < e.columnCount then { e with columnScroll := e.columnScroll + 1 } else e

def pageUp (e : Editor) : Editor := { e with scroll := e.scroll - pageSize }

def pageDown (e : Editor) : Editor := { e with scroll := min (e.scroll + pageSize) e.lastRow }

def scrollToTop (e : Editor) : Editor := { e with scroll := 0 }

def scrollToBottom (e : Editor) : Editor := { e with scroll := e.lastRow }

/-! ### Commands -/

def toggleFocus (e : Editor) : Editor :=
  { e with focus := match e.focus with | .query => .results | .results => .query }

inductive Command where
  | quit
  | run
  | use (name : String)
  | clear
  | nothing
  | unknown (text : String)
  deriving DecidableEq, Repr

/-- Reads a command. What follows a database name is ignored. -/
def Command.ofText (text : List Char) : Command :=
  match (Text.words text).map String.ofList with
  | [] => .nothing
  | ["q"] | ["quit"] => .quit
  | ["e"] | ["exec"] | ["execute"] => .run
  | "use" :: name :: _ => .use name
  | ["clear"] => .clear
  | _ => .unknown (String.ofList (Text.trim text))

def runCommand (e : Editor) : Command → Editor
  | .quit => { e with quit := true }
  | .run => e.runText
  | .use name => e.useDatabase name
  | .clear => { e with buffer := .empty, result := none, message := none, error := none }
  | .nothing => e
  | .unknown text => { e with error := some ("Unknown command: " ++ text) }

/-- Runs the command that was typed and goes back to normal mode. -/
def submitCommand (e : Editor) : Editor :=
  (runCommand { e with command := [] } (Command.ofText e.command)).enter .normal

end Editor
end PlainTables
