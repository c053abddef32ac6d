import Mathlib.Data.List.TakeDrop
import Mathlib.Data.List.TakeWhile
import PlainTables.Number.Numeral
import PlainTables.Proofs.Number.Nearest

/-! Texts of integers. Such a text is a numeral without a point and an exponent, and the number that
is read from it is the nearest one to its integer. -/
namespace PlainTables

/-- The natural number that digits denote. -/
def naturalOf? (digits : List Char) : Option Nat :=
  if digits ≠ [] ∧ digits.all Char.isDigit then some (Nat.ofDigitChars 10 digits 0) else none

/-- The integer that a text denotes: digits, with a minus sign before them or without. -/
def integerOf? (text : String) : Option Int :=
  match text.toList with
  | '-' :: digits => (naturalOf? digits).map (Binary64.signed true)
  | digits => (naturalOf? digits).map (Binary64.signed false)

open Binary64 (signed)

/-- Digits with a sign in front, if there is one. -/
def spelling (negative : Bool) (digits : List Char) : List Char :=
  if negative then '-' :: digits else digits

theorem naturalOf?_eq_some {digits : List Char} {n : Nat} (denotes : naturalOf? digits = some n) :
    digits ≠ [] ∧ (∀ c ∈ digits, c.isDigit) ∧ n = Nat.ofDigitChars 10 digits 0 := by
  rw [naturalOf?] at denotes
  split at denotes
  · next digital =>
    exact ⟨digital.1,List.all_eq_true.mp digital.2,(Option.some.inj denotes).symm⟩
  · cases denotes

theorem integerOf?_eq_some {text : String} {n : Int} (denotes : integerOf? text = some n) :
    ∃ negative digits, text.toList = spelling negative digits ∧ digits ≠ [] ∧
      (∀ c ∈ digits, c.isDigit) ∧ n = signed negative (Nat.ofDigitChars 10 digits 0) := by
  rw [integerOf?] at denotes
  split at denotes
  · next digits shape =>
    obtain ⟨size,natural,rfl⟩ := Option.map_eq_some_iff.mp denotes
    obtain ⟨filled,digital,rfl⟩ := naturalOf?_eq_some natural
    exact ⟨true,digits,shape,filled,digital,rfl⟩
  · obtain ⟨size,natural,rfl⟩ := Option.map_eq_some_iff.mp denotes
    obtain ⟨filled,digital,rfl⟩ := naturalOf?_eq_some natural
    exact ⟨false,text.toList,rfl,filled,digital,rfl⟩

/-! ### Characters -/

theorem toNat_of_isDigit {c : Char} (digit : c.isDigit) : 48 ≤ c.toNat ∧ c.toNat ≤ 57 := by
  simp only [Char.isDigit,Bool.and_eq_true,decide_eq_true_eq,ge_iff_le,UInt32.le_iff_toNat_le] at digit
  exact digit

theorem isBlank_of_isDigit {c : Char} (digit : c.isDigit) : Unicode.isBlank c = false := by
  have bounds := toNat_of_isDigit digit
  rw [Unicode.isBlank]
  simp
  omega

theorem isBlank_spelling {digits : List Char} (digital : ∀ c ∈ digits, c.isDigit) (negative : Bool) :
    ∀ c ∈ spelling negative digits, Unicode.isBlank c = false := by
  intro c member
  cases negative with
  | false => exact isBlank_of_isDigit (digital c member)
  | true =>
    rcases List.mem_cons.mp member with rfl | member
    · decide
    · exact isBlank_of_isDigit (digital c member)

theorem trim_eq_self {text : List Char} (solid : ∀ c ∈ text, Unicode.isBlank c = false) :
    Text.trim text = text := by
  have start : Text.trimStart text = text := by
    apply List.dropWhile_eq_self_iff.mpr
    intro filled blank
    rw [solid _ (List.getElem_mem filled)] at blank
    cases blank
  obtain ⟨blanks,split,all⟩ := Text.trimEnd_append text
  have none : blanks = [] := by
    apply List.eq_nil_iff_forall_not_mem.mpr
    intro c member
    have blank := all c member
    rw [solid c (by rw [split]; exact List.mem_append_right _ member)] at blank
    cases blank
  rw [none,List.append_nil] at split
  rw [Text.trim,start,← split]

/-! ### Numerals -/

namespace Numeral

variable {digits : List Char}

theorem sign_of_digits (digital : ∀ c ∈ digits, c.isDigit) : sign digits = (false,digits) := by
  cases digits with
  | nil => rfl
  | cons c later =>
    have digit := digital c List.mem_cons_self
    rw [sign]
    all_goals
      intro rest same
      rw [(List.cons.inj same).1] at digit
      exact absurd digit (by decide)

theorem ofText?_spelling (negative : Bool) (filled : digits ≠ []) (digital : ∀ c ∈ digits, c.isDigit) :
    ofText? (spelling negative digits) = some ⟨negative,digits,0⟩ := by
  have signed : sign (spelling negative digits) = (negative,digits) := by
    cases negative
    · exact sign_of_digits digital
    · rfl
  have whole : digits.span Char.isDigit = (digits,[]) := by
    rw [List.span_eq_takeWhile_dropWhile,List.takeWhile_eq_self_iff.mpr digital,
      List.dropWhile_eq_nil_iff.mpr digital]
  simp only [ofText?,signed,whole,fractionPart,exponentPart]
  simp [filled]

theorem ofDigitChars_dropWhile (digits : List Char) :
    Nat.ofDigitChars 10 (digits.dropWhile (· = '0')) 0 = Nat.ofDigitChars 10 digits 0 := by
  induction digits with
  | nil => rfl
  | cons c later ih =>
    by_cases zero : c = '0'
    · subst zero
      simpa [Nat.ofDigitChars_cons] using ih
    · simp [zero]

theorem le_ofDigitChars {c : Char} (digit : c.isDigit) (other : c ≠ '0') (later : List Char) :
    10 ^ later.length ≤ Nat.ofDigitChars 10 (c :: later) 0 := by
  have leading : 1 ≤ 10 * 0 + (c.toNat - '0'.toNat) := by
    have bounds := toNat_of_isDigit digit
    have apart : c.toNat ≠ '0'.toNat := fun same => other (Char.toNat_inj.mp same)
    have zero : '0'.toNat = 48 := rfl
    omega
  rw [Nat.ofDigitChars_cons,Nat.ofDigitChars_eq_ofDigitChars_zero]
  calc 10 ^ later.length = 10 ^ later.length * 1 := (Nat.mul_one _).symm
    _ ≤ 10 ^ later.length * (10 * 0 + (c.toNat - '0'.toNat)) := Nat.mul_le_mul_left _ leading
    _ ≤ _ := Nat.le_add_right _ _

open Binary64

theorem overflow_le_pow {places : Nat} (many : 309 ≤ places) : overflow ≤ 10 ^ places := by
  induction places,many using Nat.le_induction with
  | base => decide +kernel
  | succ places _ ih =>
    rw [Nat.pow_succ]
    omega

/-- The first digit that counts is not zero, so what has too many digits is too large. -/
theorem significant_bounds (digital : ∀ c ∈ digits, c.isDigit) :
    (digits.dropWhile (· = '0') = [] ↔ Nat.ofDigitChars 10 digits 0 = 0) ∧
      (310 ≤ (digits.dropWhile (· = '0')).length → overflow ≤ Nat.ofDigitChars 10 digits 0) := by
  rw [← ofDigitChars_dropWhile]
  cases significant : digits.dropWhile (· = '0') with
  | nil => simp
  | cons c later =>
    have digit : c.isDigit := by
      apply digital
      apply (List.dropWhile_suffix _).mem
      rw [significant]
      exact List.mem_cons_self
    have other : c ≠ '0' := by
      have kept : digits.dropWhile (· = '0') ≠ [] := by simp [significant]
      simpa [significant] using List.head_dropWhile_not _ kept
    have least := le_ofDigitChars digit other later
    have positive : 0 < 10 ^ later.length := Nat.pow_pos (by decide)
    refine ⟨by simp; omega,fun many => ?_⟩
    have places : 309 ≤ later.length := by simpa using many
    exact (overflow_le_pow places).trans least

/-- Leading zeros and the bounds on the number of digits do not matter for a numeral of digits alone. -/
theorem toBinary64?_digits (negative : Bool) (digital : ∀ c ∈ digits, c.isDigit) :
    toBinary64? ⟨negative,digits,0⟩ =
      if Nat.ofDigitChars 10 digits 0 = 0 then some (.zero negative)
      else ofMagnitude? negative (nearestMagnitude (Nat.ofDigitChars 10 digits 0) 1) := by
  obtain ⟨empty,many⟩ := significant_bounds digital
  have whole : natOfDigits (digits.dropWhile (· = '0')) = Nat.ofDigitChars 10 digits 0 := by
    rw [natOfDigits,← ofDigitChars_dropWhile,Nat.ofDigitChars_eq_foldl]
    rfl
  unfold toBinary64?
  simp only [empty,whole]
  split
  · rfl
  split
  · next large => rw [ofMagnitude?_overflow negative (many (by omega))]
  rw [if_neg (by omega)]
  simp

end Numeral

/-! ### Numbers of integers -/

namespace Binary64

theorem natAbs_signed (negative : Bool) (size : Nat) : (signed negative size).natAbs = size := by
  cases negative <;> simp [signed]

theorem ofText?_of_digits {text : String} {negative : Bool} {digits : List Char}
    (shape : text.toList = spelling negative digits) (filled : digits ≠ [])
    (digital : ∀ c ∈ digits, c.isDigit) :
    ofText? text = if Nat.ofDigitChars 10 digits 0 = 0 then some (.zero negative)
      else ofMagnitude? negative (nearestMagnitude (Nat.ofDigitChars 10 digits 0) 1) := by
  rw [ofText?,shape,trim_eq_self (isBlank_spelling digital negative),
    Numeral.ofText?_spelling negative filled digital,Option.bind_some,
    Numeral.toBinary64?_digits negative digital]

/-- The text of an integer that is not too large is read as the nearest number. -/
theorem ofText?_nearest {text : String} {n : Int} (denotes : integerOf? text = some n)
    (finite : n.natAbs < overflow) :
    ∃ x r, ofText? text = some x ∧ RoundsTo n r ∧ x.amount = r * unitsOfOne := by
  obtain ⟨negative,digits,shape,filled,digital,rfl⟩ := integerOf?_eq_some denotes
  rw [natAbs_signed] at finite
  rw [ofText?_of_digits shape filled digital]
  by_cases zero : Nat.ofDigitChars 10 digits 0 = 0
  · have same : signed negative 0 = 0 := by cases negative <;> rfl
    rw [zero,if_pos rfl,same]
    exact ⟨_,0,rfl,.refl (fits_of_le (by decide)),by rw [Int.zero_mul]; exact same⟩
  · rw [if_neg zero]
    exact ofMagnitude?_nearest negative (Nat.pos_of_ne_zero zero) finite

/-- The text of a larger integer is no number. -/
theorem ofText?_overflow {text : String} {n : Int} (denotes : integerOf? text = some n)
    (large : overflow ≤ n.natAbs) : ofText? text = none := by
  obtain ⟨negative,digits,shape,filled,digital,rfl⟩ := integerOf?_eq_some denotes
  rw [natAbs_signed] at large
  have positive : 0 < overflow := by decide +kernel
  rw [ofText?_of_digits shape filled digital,if_neg (by omega),ofMagnitude?_overflow negative large]

end Binary64
end PlainTables
