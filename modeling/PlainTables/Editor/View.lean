import PlainTables.Editor.Basic
import PlainTables.Editor.Highlight
import PlainTables.Editor.Screen
import PlainTables.Text.Lines
import PlainTables.Text.Wrap

/-! The editor on a screen: a title, a pane with the statements, a pane with the outcome of
the last run, and a status line. Columns and rows on the screen are 16-bit numbers, as a
terminal has them. -/
namespace PlainTables.View

def programTitle : String := " flatsql "

def editorHeight : Nat := 7

/-! ### Panes -/

def paneColor (focused : Bool) : Color := if focused then .cyan else .darkGray

/-- A frame around rows; the title stands in the upper border. A pane too narrow for its
frame keeps the left part of it. -/
def pane (width height : Nat) (title : String) (focused : Bool) (rows : List ScreenRow) :
    List ScreenRow :=
  let style := Style.colored (paneColor focused)
  let inner := width - 2
  let bar (left fill right : Char) (label : List Char) : ScreenRow :=
    let shown := label.take inner
    ScreenRow.ofChars style
      ((left :: shown ++ List.replicate (inner - shown.length) fill ++ [right]).take width)
  let side : ScreenRow := [⟨'│', style⟩]
  let body := (fitRows inner (height - 2) rows).map fun row =>
    (side ++ ScreenRow.fit .plain inner row ++ side).take width
  bar '┌' '─' '┐' title.toList :: body ++ [bar '└' '─' '┘' []]

/-- Rows of one style that fills the whole area. -/
def filled (style : Style) (width height : Nat) (rows : List (List Char)) : List ScreenRow :=
  (rows.take height).map (fun row => ScreenRow.fit style width (ScreenRow.ofChars style row)) ++
    List.replicate (height - rows.length) (ScreenRow.blank style width)

def filledText (style : Style) (width height : Nat) (text : String) : List ScreenRow :=
  filled style width height ((Text.lines text).map String.toList)

/-! ### Statements -/

def pieceStyle : PieceKind → Style
  | .keyword => ⟨some .blue, none, true⟩
  | .number => .colored .cyan
  | .quoted => .colored .green
  | .comparator => .colored .magenta
  | .punctuation => .colored .yellow
  | .plain => .plain

def highlighted (line : List Char) : ScreenRow :=
  (Highlight.pieces line).flatMap fun (text, piece) =>
    ScreenRow.ofChars (pieceStyle piece) text

/-- Row and column of the cursor after a text. -/
def cursorCell (before : List Char) : UInt16 × UInt16 :=
  (UInt16.ofNat (before.count '\n'), UInt16.ofNat (Buffer.lastLine before).length)

/-- The characters of a text that begin before a byte offset. -/
def beforeOffset : List Char → Nat → List Char
  | [], _ => []
  | c :: rest, offset =>
    if offset = 0 then [] else c :: beforeOffset rest (offset - c.utf8Size)

/-- The lines of the text, wrapped with their indentation. -/
def editorPane (e : Editor) (width : Nat) : List ScreenRow :=
  let style : Text.WrapStyle Glyph := ⟨width - 2, fun glyph => Text.isBreak glyph.char, false⟩
  pane width editorHeight " Statement " (e.focus = .query)
    ((e.buffer.chars.splitOn '\n').flatMap fun line => Text.wrap style (highlighted line))

/-! ### Results -/

/-- Cut to a width, with dots for what is missing where there is room for them. -/
def shortened (width : Nat) (text : String) : String :=
  if text.length ≤ width then text
  else if width > 3 then String.ofList (text.toList.take (width - 3)) ++ "..."
  else String.ofList (text.toList.take width)

/-- The width a grid column is given on the screen, the gap to the next one apart. -/
def slotWidth (width : Nat) : UInt16 := UInt16.ofNat width + 2

/-- The cells of one grid row, each in its slot. -/
def gridRow (style : Style) (widths : List Nat) (skipped : Nat) (values : List String) :
    ScreenRow :=
  ((values.zip widths).drop skipped).flatMap fun (value, width) =>
    ScreenRow.fit style (slotWidth width).toNat (ScreenRow.ofText style (shortened width value)) ++
      ScreenRow.blank style 1

def headerStyle : Style := ⟨some .yellow, none, true⟩

def gridRows (e : Editor) (grid : Grid) (width height : Nat) : List ScreenRow :=
  let header := ScreenRow.fit headerStyle width
    (gridRow headerStyle grid.widths e.columnScroll grid.columns)
  let body := ((grid.rows.drop e.scroll).take (height - 1)).map
    (gridRow .plain grid.widths e.columnScroll)
  header :: body

def noRows : String := "(0 rows)"

def invitation : String := "Type a statement and press Enter"

def resultsTitle (e : Editor) : String :=
  match e.error, e.result with
  | some _, _ => " Error "
  | none, some grid => " Results (" ++ toString grid.rows.length ++ " rows) "
  | none, none => " Results "

/-- An error, wrapped without the indentation of its lines. -/
def errorRows (width height : Nat) (error : String) : List ScreenRow :=
  filled (.colored .red) width height
    ((Text.lines error).flatMap fun line => Text.wrap ⟨width, Text.isBreak, true⟩ line.toList)

/-- An error hides the grid, and a grid hides the message. -/
def resultsBody (e : Editor) (width height : Nat) : List ScreenRow :=
  match e.error, e.result, e.message with
  | some error, _, _ => errorRows width height error
  | none, some grid, _ =>
    if grid.rows = [] then [ScreenRow.ofText .plain noRows] else gridRows e grid width height
  | none, none, some message => filledText (.colored .green) width height message
  | none, none, none => filledText (.colored .darkGray) width height invitation

def resultsPane (e : Editor) (width height : Nat) : List ScreenRow :=
  pane width height (resultsTitle e) (e.focus = .results)
    (resultsBody e (width - 2) (height - 2))

/-! ### Title and status -/

def titleLine (e : Editor) : ScreenRow :=
  ScreenRow.ofText ⟨some .black, some .cyan, true⟩ programTitle ++
    ScreenRow.ofText (.colored .darkGray) (" " ++ e.workspace.session.root.text)

def modeLabel : Mode → String
  | .normal => " NORMAL "
  | .insert => " INSERT "
  | .command => " COMMAND "

def modeColor : Mode → Color
  | .normal => .blue
  | .insert => .green
  | .command => .yellow

def keyHints : Mode → String
  | .normal => "i:insert  j/k:move  Tab:focus  Enter:execute  :use NAME  q:quit"
  | .insert => "Esc:normal  Enter:execute  Shift+Enter:newline  Up/Down:history"
  | .command => "use NAME  e:execute  clear  q:quit  Esc:cancel"

def statusLine (e : Editor) : ScreenRow :=
  let database :=
    match e.workspace.databaseName? with
    | some name => ScreenRow.ofText (.colored .cyan) (" db:" ++ name ++ " ")
    | none => ScreenRow.ofText (.colored .red) " no database "
  ScreenRow.ofText ⟨some .black, some (modeColor e.mode), false⟩ (modeLabel e.mode) ++ database ++
    ScreenRow.ofText (.colored .darkGray) (keyHints e.mode)

def commandLine (e : Editor) : ScreenRow := ScreenRow.ofChars .plain (':' :: e.command)

/-- The command line in command mode, else the status line. -/
def lastLine (e : Editor) : ScreenRow :=
  match e.mode with
  | .command => commandLine e
  | _ => statusLine e

/-! ### The whole screen -/

/-- The cursor is shown where text is typed. -/
def cursor (e : Editor) (height : Nat) : Option (UInt16 × UInt16) :=
  match e.mode, e.focus with
  | .insert, .query =>
    let (row, column) := cursorCell e.buffer.before
    some (1 + column, 2 + row)
  | .command, _ => some (1 + UInt16.ofNat e.command.length, UInt16.ofNat (height - 1))
  | _, _ => none

def screen (e : Editor) (width height : Nat) : Screen :=
  let title := ScreenRow.fit .plain width (titleLine e)
  let last := ScreenRow.fit .plain width (lastLine e)
  ⟨title :: editorPane e width ++ resultsPane e width (height - editorHeight - 2) ++ [last],
    cursor e height⟩

end PlainTables.View
