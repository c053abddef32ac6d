import PlainTables.Proofs.Filter.Comparison
import PlainTables.Proofs.Table.Order

/-! Cells in a sorted result and cells in a filter. Cells of any kind have their place in a sorted
result. Cells of one kind stand in it as a filter compares them, but for a zero with a minus sign: it
is sorted before a zero without, and a filter takes the two as one number. -/
namespace PlainTables

/-! ### Zeros -/

namespace Binary64

variable {x y : Binary64}

/-- One of them is the zero with a minus sign and the other the zero without. -/
def OppositeZeros (x y : Binary64) : Prop :=
  x.magnitude = 0 ∧ y.magnitude = 0 ∧ x.negative ≠ y.negative

theorem OppositeZeros.symm (zeros : OppositeZeros x y) : OppositeZeros y x :=
  ⟨zeros.2.1,zeros.1,zeros.2.2.symm⟩

theorem OppositeZeros.value_eq (zeros : OppositeZeros x y) : x.value = y.value := by
  obtain ⟨first,second,-⟩ := zeros
  simp [value,first,second]

theorem OppositeZeros.rank_ne (zeros : OppositeZeros x y) : x.rank ≠ y.rank := by
  intro same
  exact zeros.2.2 (congrArg negative (rank_injective same))

theorem rank_lt_rank_iff (ordinary : ¬OppositeZeros x y) : x.rank < y.rank ↔ x.value < y.value := by
  obtain ⟨sx,mx,_⟩ := x
  obtain ⟨sy,my,_⟩ := y
  cases sx <;> cases sy <;> simp [rank,value,OppositeZeros] at ordinary ⊢ <;> omega

theorem compare_rank (ordinary : ¬OppositeZeros x y) :
    compare x.rank y.rank = compare x.value y.value := by
  have ordinary' : ¬OppositeZeros y x := fun zeros => ordinary zeros.symm
  simp only [Int.compare_eq_ite_lt,rank_lt_rank_iff ordinary,rank_lt_rank_iff ordinary']

end Binary64

/-- Two texts of zero, one of which has a minus sign. -/
def OppositeZeros (a b : String) : Prop :=
  ∃ x y, Binary64.ofText? a = some x ∧ Binary64.ofText? b = some y ∧ Binary64.OppositeZeros x y

variable {a b : String}

theorem compareCells_eq_cellOrdering
    (alike : (Binary64.ofText? a).isSome = (Binary64.ofText? b).isSome)
    (ordinary : ¬OppositeZeros a b) : compareCells a b = cellOrdering a b := by
  cases first : Binary64.ofText? a <;> cases second : Binary64.ofText? b <;>
    simp only [first,second,Option.isSome_some,Option.isSome_none,reduceCtorEq] at alike
  case none.none => simp only [compareCells,cellOrdering,first,second]
  case some.some x y =>
    have apart : ¬Binary64.OppositeZeros x y := fun zeros => ordinary ⟨x,y,first,second,zeros⟩
    simp only [compareCells,cellOrdering,first,second]
    exact Binary64.compare_rank apart

/-- Cells of one kind are sorted as a filter compares them, unless they are two zeros of different
signs: these are equal in a filter and not in a sorted result. -/
theorem sorted_as_compared (a b : String)
    (alike : (Binary64.ofText? a).isSome = (Binary64.ofText? b).isSome) :
    (¬OppositeZeros a b →
      (compareCells a b = .eq ↔ Comparator.eq.evaluate (some a) b = true) ∧
      (compareCells a b = .lt ↔ Comparator.lt.evaluate (some a) b = true) ∧
      (compareCells a b = .gt ↔ Comparator.gt.evaluate (some a) b = true)) ∧
    (OppositeZeros a b →
      Comparator.eq.evaluate (some a) b = true ∧ compareCells a b ≠ .eq) := by
  constructor
  · intro ordinary
    rw [compareCells_eq_cellOrdering alike ordinary]
    simp [Comparator.holds]
  · rintro ⟨x,y,first,second,zeros⟩
    refine ⟨(Comparator.evaluate_numbers first second .eq).mpr zeros.value_eq,fun same => ?_⟩
    simp only [compareCells,first,second] at same
    exact zeros.rank_ne (compare_eq_iff_eq.mp same)

theorem sorted_as_compared_ten :
    compareCells "1e1" " 10.0 " = .eq ∧ compareCells "-0" "0" ≠ .eq ∧
    Comparator.eq.evaluate (some "-0") "0" = true := by
  have ordinary : ¬OppositeZeros "1e1" " 10.0 " := by
    rintro ⟨x,y,first,-,zero,-,-⟩
    have ten : Binary64.ofText? "1e1" = some ⟨false,0x4024000000000000,by decide⟩ := by decide +kernel
    cases ten.symm.trans first
    cases zero
  have zeros : OppositeZeros "-0" "0" :=
    ⟨.zero true,.zero false,by decide +kernel,by decide +kernel,rfl,rfl,by decide⟩
  have sorted := ((sorted_as_compared "1e1" " 10.0 " (by decide +kernel)).1 ordinary).1
  have apart := (sorted_as_compared "-0" "0" (by decide +kernel)).2 zeros
  exact ⟨sorted.mpr (by decide +kernel),apart.2,apart.1⟩

/-! ### All cells -/

/-- Cells of any kind have their place in a sorted result, and numbers come before other texts. -/
theorem compareCells_total_preorder :
    (∀ a, compareCells a a = .eq) ∧
    (∀ a b, compareCells b a = (compareCells a b).swap) ∧
    (∀ a b c, compareCells a b ≠ .gt → compareCells b c ≠ .gt → compareCells a c ≠ .gt) ∧
    (∀ a b c, compareCells a b = .eq → compareCells b c = .eq → compareCells a c = .eq) ∧
    ∀ a b, (Binary64.ofText? a).isSome → (Binary64.ofText? b).isNone → compareCells a b = .lt := by
  refine ⟨fun _ => Std.ReflCmp.compare_self,fun _ _ => Std.OrientedCmp.eq_swap,?_,?_,?_⟩
  · intro a b c first second
    rw [ne_eq,Ordering.ne_gt_iff_isLE] at first second ⊢
    exact Std.TransCmp.isLE_trans first second
  · intro a b c first second
    exact Std.TransCmp.eq_trans first second
  · intro a b number text
    obtain ⟨x,first⟩ := Option.isSome_iff_exists.mp number
    have second := Option.isNone_iff_eq_none.mp text
    simp only [compareCells,first,second]

/-- The comparisons of a filter have the first cell before the second and the second before the third,
but the first after the third. -/
theorem compareCells_total_preorder_mixed :
    compareCells "9" "10a" ≠ .gt ∧ compareCells "10" "1e1" = .eq ∧
    cellOrdering "9" "10" = .lt ∧ cellOrdering "10" "10a" = .lt ∧ cellOrdering "9" "10a" = .gt := by
  obtain ⟨-,-,trans,tied,before⟩ := compareCells_total_preorder
  have text : compareCells "10" "10a" = .lt := before _ _ (by decide +kernel) (by decide +kernel)
  refine ⟨trans "9" "10" "10a" (by decide +kernel) (by rw [text]; decide),?_,?_⟩
  · exact tied "10" " 10.0 " "1e1" (by decide +kernel) (by decide +kernel)
  · decide +kernel

end PlainTables
