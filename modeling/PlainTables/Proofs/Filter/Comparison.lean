import Mathlib.Data.String.Basic
import Mathlib.Order.Compare
import PlainTables.Filter.Verdict

/-! What comparators say of cells. Two cells that are numbers are related as their values are, and two
others as their texts are. One cell equals another if both are the same number or the same text. -/
namespace PlainTables

/-! ### Orders -/

namespace Comparator

section
variable {α β : Type} [LinearOrder α] [LinearOrder β] {x y : α} {x' y' : β}

/-- What a comparator says of two members of an order. -/
def Relates : Comparator → α → α → Prop
  | eq, x, y => x = y
  | notEq, x, y => x ≠ y
  | gt, x, y => x > y
  | lt, x, y => x < y
  | gtEq, x, y => x ≥ y
  | ltEq, x, y => x ≤ y

theorem holds_compare (c : Comparator) (x y : α) :
    c.holds (compare x y) = true ↔ c.Relates x y := by
  cases c <;> simp [holds,Relates,compare_lt_iff_lt,compare_gt_iff_gt]

instance (c : Comparator) (x y : α) : Decidable (c.Relates x y) :=
  decidable_of_iff _ (holds_compare c x y)

/-- Pairs that stand in the same order are related by the same comparators. -/
theorem relates_congr (less : x < y ↔ x' < y') (greater : y < x ↔ y' < x') (c : Comparator) :
    c.Relates x y ↔ c.Relates x' y' := by
  have apart : x ≠ y ↔ x' ≠ y' := by rw [← lt_or_lt_iff_ne,← lt_or_lt_iff_ne,less,greater]
  cases c
  case eq => exact not_iff_not.mp apart
  case notEq => exact apart
  case gt => exact greater
  case lt => exact less
  case gtEq => exact not_lt.symm.trans ((not_congr less).trans not_lt)
  case ltEq => exact not_lt.symm.trans ((not_congr greater).trans not_lt)

end

/-! ### Cells -/

variable {a b : String} {x y : Binary64}

theorem evaluate_numbers (first : Binary64.ofText? a = some x) (second : Binary64.ofText? b = some y)
    (c : Comparator) : c.evaluate (some a) b = true ↔ c.Relates x.value y.value := by
  rw [evaluate_some,cellOrdering,first,second]
  exact holds_compare c x.value y.value

theorem evaluate_texts (text : Binary64.ofText? a = none ∨ Binary64.ofText? b = none)
    (c : Comparator) : c.evaluate (some a) b = true ↔ c.Relates a b := by
  have ordering : cellOrdering a b = compare a b := by
    rw [cellOrdering]
    split
    · next first second => simp [first,second] at text
    · rfl
  rw [evaluate_some,ordering]
  exact holds_compare c a b

end Comparator

/-- The number that a cell is, or else its text. -/
def cellKey (cell : String) : Int ⊕ String :=
  match Binary64.ofText? cell with
  | some x => .inl x.value
  | none => .inr cell

theorem cellOrdering_eq_iff {a b : String} : cellOrdering a b = .eq ↔ cellKey a = cellKey b := by
  cases first : Binary64.ofText? a <;> cases second : Binary64.ofText? b <;>
    simp only [cellOrdering,cellKey,first,second,Sum.inl.injEq,Sum.inr.injEq,reduceCtorEq,iff_false]
  case none.none | some.some => exact compare_eq_iff_eq
  -- A text that is a number is never the same as one that is none.
  case none.some | some.none =>
    intro equal
    cases compare_eq_iff_eq.mp equal
    cases first.symm.trans second

theorem cellOrdering_swap (a b : String) : cellOrdering b a = (cellOrdering a b).swap := by
  cases first : Binary64.ofText? a <;> cases second : Binary64.ofText? b <;>
    simp only [cellOrdering,first,second]
  all_goals exact Std.OrientedOrd.eq_swap

end PlainTables
