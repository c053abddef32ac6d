/-! Screens: rows of styled characters. -/
namespace PlainTables

inductive Color where
  | black | red | green | yellow | blue | magenta | cyan | darkGray
  deriving DecidableEq, Repr

structure Style where
  foreground : Option Color
  background : Option Color
  bold : Bool
  deriving DecidableEq, Repr

namespace Style

def plain : Style := ⟨none, none, false⟩

def colored (color : Color) : Style := ⟨some color, none, false⟩

end Style

structure Glyph where
  char : Char
  style : Style
  deriving DecidableEq, Repr

abbrev ScreenRow := List Glyph

structure Screen where
  rows : List ScreenRow
  /-- Column and row of the cursor, if it is shown. -/
  cursor : Option (UInt16 × UInt16)
  deriving DecidableEq, Repr

namespace ScreenRow

def ofChars (style : Style) (chars : List Char) : ScreenRow := chars.map (⟨·, style⟩)

def ofText (style : Style) (text : String) : ScreenRow := ofChars style text.toList

def blank (style : Style) (width : Nat) : ScreenRow := List.replicate width ⟨' ', style⟩

/-- Cut at the right edge, or filled up to it. -/
def fit (style : Style) (width : Nat) (row : ScreenRow) : ScreenRow :=
  row.take width ++ blank style (width - row.length)

@[simp] theorem length_fit (style : Style) (width : Nat) (row : ScreenRow) :
    (fit style width row).length = width := by
  simp [fit, blank]
  omega

/-- The characters, without the spaces at the end. -/
def text (row : ScreenRow) : String :=
  String.ofList ((row.map Glyph.char).reverse.dropWhile (· = ' ')).reverse

/-- A stretch of equally styled glyphs. -/
structure Run where
  start : Nat
  length : Nat
  style : Style
  deriving DecidableEq, Repr

/-- The longest stretches of one style, from a given column on. -/
def runsFrom (column : Nat) : ScreenRow → List Run
  | [] => []
  | glyph :: rest =>
    match runsFrom (column + 1) rest with
    | run :: later =>
      if run.style = glyph.style then ⟨column, run.length + 1, run.style⟩ :: later
      else ⟨column, 1, glyph.style⟩ :: run :: later
    | [] => [⟨column, 1, glyph.style⟩]

/-- The stretches that are styled at all. -/
def runs (row : ScreenRow) : List Run := (runsFrom 0 row).filter (·.style ≠ .plain)

end ScreenRow

/-- Rows filled up or cut to a height. -/
def fitRows (width height : Nat) (rows : List ScreenRow) : List ScreenRow :=
  rows.take height ++ List.replicate (height - rows.length) (ScreenRow.blank .plain width)

@[simp] theorem length_fitRows (width height : Nat) (rows : List ScreenRow) :
    (fitRows width height rows).length = height := by
  simp [fitRows]
  omega

end PlainTables
