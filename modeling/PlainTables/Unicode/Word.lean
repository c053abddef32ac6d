import PlainTables.Unicode.Alphabetic
import PlainTables.Unicode.Numeric

/-! Word characters: letters, numeric characters and the underscore. -/
namespace PlainTables.Unicode

def isAlphanumeric (c : Char) : Bool := isAlphabetic c || isNumeric c

def isWordChar (c : Char) : Bool := isAlphanumeric c || c = '_'

theorem isAlphanumeric_ascii {c : Char} (h : c.toNat < 128) :
    isAlphanumeric c = c.isAlphanum := by
  simp [isAlphanumeric, isAlphabetic_ascii h, isNumeric_ascii h, Char.isAlphanum]

theorem isWordChar_of_isDigit {c : Char} (h : c.isDigit = true) : isWordChar c = true := by
  have low : c.toNat < 128 := by
    simp only [Char.isDigit, Bool.and_eq_true, decide_eq_true_eq, UInt32.le_iff_toNat_le] at h
    exact Nat.lt_of_le_of_lt h.2 (by decide)
  simp [isWordChar, isAlphanumeric_ascii low, Char.isAlphanum, h]

end PlainTables.Unicode
