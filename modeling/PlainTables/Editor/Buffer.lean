import PlainTables.Text.Trim

/-! The text under edit, cut at the cursor. The cursor is always between two characters, so
every edit and every motion is a change of the two halves. -/
namespace PlainTables

open Unicode (isBlank)

structure Buffer where
  before : List Char
  after : List Char
  deriving DecidableEq, Repr

namespace Buffer

def empty : Buffer := ⟨[], []⟩

def chars (b : Buffer) : List Char := b.before ++ b.after

def text (b : Buffer) : String := String.ofList b.chars

/-- A text with the cursor behind it. -/
def ofText (text : String) : Buffer := ⟨text.toList, []⟩

/-- A text with the cursor after its first `n` characters. -/
def atPosition (chars : List Char) (n : Nat) : Buffer := ⟨chars.take n, chars.drop n⟩

@[simp] theorem chars_atPosition (chars : List Char) (n : Nat) :
    (atPosition chars n).chars = chars := by
  simp [atPosition, Buffer.chars]

def utf8Size : List Char → Nat
  | [] => 0
  | c :: rest => c.utf8Size + utf8Size rest

@[simp] theorem utf8Size_nil : utf8Size [] = 0 := rfl

@[simp] theorem utf8Size_cons (c : Char) (rest : List Char) :
    utf8Size (c :: rest) = c.utf8Size + utf8Size rest := rfl

@[simp] theorem utf8Size_append (first later : List Char) :
    utf8Size (first ++ later) = utf8Size first + utf8Size later := by
  induction first with
  | nil => simp
  | cons c rest ih => simp [ih, Nat.add_assoc]

/-- The cursor counted in bytes. -/
def offset (b : Buffer) : Nat := utf8Size b.before

/-! ### Edits -/

def insert (b : Buffer) (c : Char) : Buffer := ⟨b.before ++ [c], b.after⟩

def deleteBackward (b : Buffer) : Buffer := ⟨b.before.dropLast, b.after⟩

def deleteForward (b : Buffer) : Buffer := ⟨b.before, b.after.tail⟩

def deleteToStart (b : Buffer) : Buffer := ⟨[], b.after⟩

def deleteToEnd (b : Buffer) : Buffer := ⟨b.before, []⟩

/-- A text without the blanks at its end and the word before them. -/
def dropWord (chars : List Char) : List Char :=
  ((chars.reverse.dropWhile isBlank).dropWhile (fun c => !isBlank c)).reverse

def deleteWord (b : Buffer) : Buffer := ⟨dropWord b.before, b.after⟩

/-! ### Motions within a line -/

def left (b : Buffer) : Buffer := atPosition b.chars (b.before.length - 1)

def right (b : Buffer) : Buffer := atPosition b.chars (b.before.length + 1)

def toStart (b : Buffer) : Buffer := ⟨[], b.chars⟩

def toEnd (b : Buffer) : Buffer := ⟨b.chars, []⟩

/-- Past the rest of this word and the blanks after it. -/
def wordForward (b : Buffer) : Buffer :=
  let rest := (b.after.dropWhile (fun c => !isBlank c)).dropWhile isBlank
  atPosition b.chars (b.chars.length - rest.length)

/-- To the start of the word that ends at or before the cursor. -/
def wordBackward (b : Buffer) : Buffer :=
  atPosition b.chars (dropWord b.before).length

/-! ### Motions between lines -/

def firstLine (chars : List Char) : List Char := chars.takeWhile (· ≠ '\n')

def lastLine (chars : List Char) : List Char :=
  (chars.reverse.takeWhile (· ≠ '\n')).reverse

/-- The line number of the cursor and the characters before it in that line. -/
def row (b : Buffer) : Nat := b.before.count '\n'

def column (b : Buffer) : Nat := (lastLine b.before).length

/-- One line up in the same column, or at the end of a line that is too short. -/
def up (b : Buffer) : Buffer :=
  if b.row = 0 then b
  else
    let above := b.before.take (b.before.length - b.column - 1)
    let line := lastLine above
    atPosition b.chars (above.length - line.length + min b.column line.length)

/-- One line down in the same column, or at the end of a line that is too short. -/
def down (b : Buffer) : Buffer :=
  if '\n' ∈ b.after then
    let start := b.before.length + (firstLine b.after).length + 1
    let line := firstLine (b.chars.drop start)
    atPosition b.chars (start + min b.column line.length)
  else b

/-! ### No motion changes the text -/

@[simp] theorem chars_left (b : Buffer) : b.left.chars = b.chars := chars_atPosition ..

@[simp] theorem chars_right (b : Buffer) : b.right.chars = b.chars := chars_atPosition ..

@[simp] theorem chars_toStart (b : Buffer) : b.toStart.chars = b.chars := rfl

@[simp] theorem chars_toEnd (b : Buffer) : b.toEnd.chars = b.chars := List.append_nil _

@[simp] theorem chars_wordForward (b : Buffer) : b.wordForward.chars = b.chars :=
  chars_atPosition ..

@[simp] theorem chars_wordBackward (b : Buffer) : b.wordBackward.chars = b.chars :=
  chars_atPosition ..

@[simp] theorem chars_up (b : Buffer) : b.up.chars = b.chars := by
  unfold up
  split
  · rfl
  · exact chars_atPosition ..

@[simp] theorem chars_down (b : Buffer) : b.down.chars = b.chars := by
  unfold down
  split
  · exact chars_atPosition ..
  · rfl

end Buffer
end PlainTables
