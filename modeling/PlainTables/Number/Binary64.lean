/-! Finite numbers of the binary64 format. The magnitude is the encoding without its sign
bit, which grows with the absolute value, so comparing numbers is comparing integers. There
are two zeros: `value` takes them as one number, `rank` keeps them apart. -/
namespace PlainTables

/-- The encoding of infinity; no magnitude of a number reaches it. -/
def infinityMagnitude : Nat := 2047 <<< 52

structure Binary64 where
  negative : Bool
  magnitude : Nat
  finite : magnitude < infinityMagnitude
  deriving DecidableEq, Repr

namespace Binary64

def bits (x : Binary64) : Nat := if x.negative then 1 <<< 63 + x.magnitude else x.magnitude

/-- In the order of the numbers themselves. -/
def value (x : Binary64) : Int := if x.negative then -(x.magnitude : Int) else x.magnitude

/-- In the order that puts the negative zero before the positive one. -/
def rank (x : Binary64) : Int := if x.negative then -(x.magnitude : Int) - 1 else x.magnitude

theorem rank_injective {x y : Binary64} (h : x.rank = y.rank) : x = y := by
  obtain ⟨sx, mx, _⟩ := x
  obtain ⟨sy, my, _⟩ := y
  cases sx <;> cases sy <;> simp [rank] at h ⊢ <;> omega

/-! ### Rounding -/

/-- A quotient to the nearest integer, a tie to the even one. -/
def divEven (num den : Nat) : Nat :=
  let quotient := num / den
  let twice := 2 * (num % den)
  if twice < den ∨ (twice = den ∧ quotient % 2 = 0) then quotient else quotient + 1

/-- Whether `den * 2 ^ k ≤ num`, for an exponent of either sign. -/
def scaledLe (den : Nat) (k : Int) (num : Nat) : Bool :=
  den <<< k.toNat ≤ num <<< (-k).toNat

/-- The power of two at or below a positive quotient. -/
def binaryExponent (num den : Nat) : Int :=
  let guess : Int := num.log2 - den.log2
  if scaledLe den guess num then guess else guess - 1

/-- The magnitude nearest to a positive quotient, a tie to the even one, with no bound on
the exponent above. The unit is the weight of the last bit kept; a significand that rounds
up to the next power of two carries into the exponent by itself. -/
def nearestMagnitude (num den : Nat) : Nat :=
  let unit := max (binaryExponent num den - 52) (-1074)
  let significand := divEven (num <<< (-unit).toNat) (den <<< unit.toNat)
  (unit + 1074).toNat <<< 52 + significand

def zero (negative : Bool) : Binary64 := ⟨negative, 0, by decide⟩

/-- The number with a given magnitude, unless that is too large. -/
def ofMagnitude? (negative : Bool) (magnitude : Nat) : Option Binary64 :=
  if h : magnitude < infinityMagnitude then some ⟨negative, magnitude, h⟩ else none

end Binary64
end PlainTables
