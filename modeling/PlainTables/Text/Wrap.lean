import PlainTables.Unicode.Blank

/-! Wrapping: a line is broken into rows no wider than a given width, between words where
that is possible and inside a word that is too long. Blanks at a break are left out up to
the edge of the row. The items of a line may be characters or styled characters, each one
column wide. -/
namespace PlainTables.Text

variable {α : Type}

/-- How lines are wrapped. -/
structure WrapStyle (α : Type) where
  width : Nat
  /-- Whether an item stands between words. -/
  isGap : α → Bool
  /-- Whether blanks at the start of a row are left out. -/
  trimmed : Bool

/-- A line that has been wrapped up to some item. -/
structure Wrapping (α : Type) where
  /-- The closed rows. -/
  rows : List (List α)
  /-- The open row, up to its last whole word. -/
  row : List α
  /-- The blanks after it. -/
  gap : List α
  /-- The word after these, as far as it has been read. -/
  word : List α
  /-- Whether the last item that was kept is part of a word. -/
  inWord : Bool
  deriving DecidableEq, Repr

namespace Wrapping

def start : Wrapping α := ⟨[], [], [], [], false⟩

/-- The open row with what has been read after it. -/
def filledRow (style : WrapStyle α) (w : Wrapping α) : List α :=
  (if style.trimmed && w.row.isEmpty then [] else w.row ++ w.gap) ++ w.word

def settle (style : WrapStyle α) (w : Wrapping α) : Wrapping α :=
  { w with row := w.filledRow style, gap := [], word := [] }

/-- Whether the first word of a row, or the blanks before it, already reach the edge. -/
def reachesEdge (style : WrapStyle α) (w : Wrapping α) : Bool :=
  w.row.isEmpty &&
    if style.trimmed then style.width ≤ w.word.length || style.width ≤ w.gap.length
    else style.width ≤ w.word.length + w.gap.length

def isFull (style : WrapStyle α) (w : Wrapping α) : Bool :=
  style.width ≤ w.row.length + w.gap.length + w.word.length

/-- Closes the open row. -/
def breakRow (style : WrapStyle α) (w : Wrapping α) : Wrapping α :=
  { w with
    rows := w.rows ++ [w.row]
    row := []
    gap := w.gap.drop (style.width - w.row.length) }

def push (style : WrapStyle α) (w : Wrapping α) (item : α) : Wrapping α :=
  if style.isGap item then { w with gap := w.gap ++ [item], inWord := false }
  else { w with word := w.word ++ [item], inWord := true }

/-- Reads one item. A blank right at the edge is dropped with the break. -/
def read (style : WrapStyle α) (w : Wrapping α) (item : α) : Wrapping α :=
  let wordEnds := w.inWord && style.isGap item
  let settled := if wordEnds || w.reachesEdge style then w.settle style else w
  if settled.isFull style then
    let broken := settled.breakRow style
    if style.isGap item && broken.gap.isEmpty then broken else broken.push style item
  else settled.push style item

/-- All rows. Blanks that no word follows in their row come after an empty row, and a line
has at least one row. -/
def finish (style : WrapStyle α) (w : Wrapping α) : List (List α) :=
  let lone := w.row.isEmpty && w.word.isEmpty && !w.gap.isEmpty
  let last := w.filledRow style
  let rows := w.rows ++ (if lone then [[]] else []) ++ (if last.isEmpty then [] else [last])
  if rows.isEmpty then [[]] else rows

end Wrapping

/-- The rows of a line. Where there is no room there are no rows. -/
def wrap (style : WrapStyle α) (line : List α) : List (List α) :=
  if style.width = 0 then [] else (line.foldl (Wrapping.read style) .start).finish style

/-- Where a line may be broken: at a blank, the no-break space apart. -/
def isBreak (c : Char) : Bool := Unicode.isBlank c && c ≠ '\u00a0'

end PlainTables.Text
