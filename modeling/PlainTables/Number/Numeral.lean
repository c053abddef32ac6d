import PlainTables.Number.Binary64
import PlainTables.Text.Trim

/-! Decimal numerals, and the numbers that cells and literals denote. A text is a number
when all of it, blanks at its ends apart, is one numeral whose nearest binary64 number is
finite; `12abc` is text. -/
namespace PlainTables

/-- Digits with the place of the point and the written exponent put together. -/
structure Numeral where
  negative : Bool
  digits : List Char
  /-- The power of ten of the last digit. -/
  exponent : Int
  deriving DecidableEq, Repr

namespace Numeral

def digitValue (c : Char) : Nat := c.toNat - '0'.toNat

def natOfDigits (digits : List Char) : Nat :=
  digits.foldl (fun n c => 10 * n + digitValue c) 0

/-- Splits off a sign; true is a minus. -/
def sign : List Char → Bool × List Char
  | '-' :: rest => (true, rest)
  | '+' :: rest => (false, rest)
  | text => (false, text)

/-- An exponent that has reached 65536 takes no more digits: it is far beyond every finite
number already. -/
def exponentOfDigits (digits : List Char) : Nat :=
  digits.foldl (fun n c => if n < 65536 then 10 * n + digitValue c else n) 0

/-- What may follow the digits: nothing, or a whole exponent. -/
def exponentPart : List Char → Option Int
  | [] => some 0
  | c :: rest =>
    if c = 'e' ∨ c = 'E' then
      let (negative, digits) := sign rest
      if digits ≠ [] ∧ digits.all Char.isDigit then
        let size : Int := exponentOfDigits digits
        some (if negative then -size else size)
      else none
    else none

/-- The digits after a point, and what follows them. -/
def fractionPart : List Char → List Char × List Char
  | '.' :: rest => rest.span Char.isDigit
  | text => ([], text)

def ofText? (text : List Char) : Option Numeral :=
  let (negative, body) := sign text
  let (whole, afterWhole) := body.span Char.isDigit
  let (fraction, afterDigits) := fractionPart afterWhole
  if whole = [] ∧ fraction = [] then none
  else
    match exponentPart afterDigits with
    | some e => some ⟨negative, whole ++ fraction, e - fraction.length⟩
    | none => none

/-- The nearest number, or nothing when that is not finite. The leading digit decides alone
from `10 ^ 309` on, which is above every finite number, and below `10 ^ -324`, which is less
than half of the least one. -/
def toBinary64? (n : Numeral) : Option Binary64 :=
  let significant := n.digits.dropWhile (· = '0')
  let above : Int := significant.length + n.exponent
  if significant = [] then some (.zero n.negative)
  else if above ≥ 310 then none
  else if above ≤ -324 then some (.zero n.negative)
  else
    let whole := natOfDigits significant
    Binary64.ofMagnitude? n.negative
      (Binary64.nearestMagnitude (whole * Nat.pow 10 n.exponent.toNat)
        (Nat.pow 10 (-n.exponent).toNat))

end Numeral

/-- The finite number a text denotes. -/
def Binary64.ofText? (text : String) : Option Binary64 :=
  (Numeral.ofText? (Text.trim text.toList)).bind Numeral.toBinary64?

end PlainTables
