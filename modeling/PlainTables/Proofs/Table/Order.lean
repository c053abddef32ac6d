import Mathlib.Data.List.Basic
import PlainTables.Table.Selection

/-! Sorted records. Cells of any kind are compared by a total preorder, so a sort by one column puts
the records in order, and records with equal cells stay as they stood, in both directions. -/
namespace PlainTables

/-! ### Cells -/

instance : Std.OrientedCmp compareCells where
  eq_swap {a b} := by
    cases first : Binary64.ofText? a <;> cases second : Binary64.ofText? b <;>
      simp only [compareCells,first,second]
    case none.none | some.some => exact Std.OrientedOrd.eq_swap
    case none.some | some.none => rfl

/-- No text stands before a number, so three cells compare as numbers or as texts alone. -/
instance : Std.TransCmp compareCells where
  isLE_trans {a b c} le le' := by
    cases first : Binary64.ofText? a <;> cases second : Binary64.ofText? b <;>
      cases third : Binary64.ofText? c <;>
        simp only [compareCells,first,second,third] at le le' ⊢
    case none.none.none | some.some.some => exact Std.TransOrd.isLE_trans le le'
    case some.none.none | some.some.none => rfl
    all_goals contradiction

/-! ### Sorting -/

/-- A sort moves no item past another one that may stand on either side of it. -/
theorem filter_mergeSort {α : Type} {le : α → α → Bool} {p : α → Bool}
    (trans : ∀ a b c, le a b → le b c → le a c) (total : ∀ a b, le a b || le b a)
    (tied : ∀ a b, p a → p b → le a b) (items : List α) :
    (items.mergeSort le).filter p = items.filter p := by
  have ordered : (items.filter p).Pairwise (le · ·) := by
    refine List.pairwise_iff_forall_sublist.mpr fun {a b} pair => ?_
    have inside : ∀ c ∈ [a,b], p c := fun c member => (List.mem_filter.mp (pair.mem member)).2
    exact tied a b (inside a (by simp)) (inside b (by simp))
  have kept : (items.filter p).Sublist ((items.mergeSort le).filter p) := by
    have whole := (List.sublist_mergeSort trans total ordered List.filter_sublist).filter p
    rwa [List.filter_filter,funext fun a => Bool.and_self (p a)] at whole
  exact (kept.eq_of_length ((List.mergeSort_perm items le).filter p).length_eq.symm).symm

namespace SortKey

variable {key : SortKey}

/-- The cell of a record in the sort column. -/
def cellOf (key : SortKey) (record : Record) : String := (record.get? key.column).getD ""

/-- How two records stand to each other in a sorted result. -/
def compare (key : SortKey) (a b : Record) : Ordering := compareCells (key.cellOf a) (key.cellOf b)

instance (key : SortKey) : Std.TransCmp key.compare where
  eq_swap {a b} := by
    rw [compare,compare]
    exact Std.OrientedCmp.eq_swap
  isLE_trans {a b c} first second := by
    rw [compare] at first second ⊢
    exact Std.TransCmp.isLE_trans first second

theorem le_eq (key : SortKey) (a b : Record) :
    key.le a b = if key.ascending then (key.compare a b).isLE else (key.compare a b).isGE := by
  rw [le,compare,cellOf,cellOf]
  cases compareCells ((a.get? key.column).getD "") ((b.get? key.column).getD "") <;> rfl

theorem le_trans (key : SortKey) (a b c : Record) (first : key.le a b) (second : key.le b c) :
    key.le a c := by
  rw [le_eq] at first second ⊢
  cases direction : key.ascending
  · simp only [direction,Bool.false_eq_true,if_false] at first second ⊢
    exact Std.TransCmp.isGE_trans first second
  · simp only [direction,if_true] at first second ⊢
    exact Std.TransCmp.isLE_trans first second

theorem le_total (key : SortKey) (a b : Record) : key.le a b || key.le b a := by
  have swap : key.compare a b = (key.compare b a).swap := Std.OrientedCmp.eq_swap
  rw [le_eq,le_eq,swap]
  cases key.ascending <;> cases key.compare b a <;> rfl

theorem sort_perm (key : SortKey) (records : List Record) : (key.sort records).Perm records :=
  List.mergeSort_perm records key.le

theorem sort_ordered (key : SortKey) (records : List Record) :
    (key.sort records).Pairwise fun a b =>
      if key.ascending then key.compare a b ≠ .gt else key.compare a b ≠ .lt := by
  refine (List.pairwise_mergeSort key.le_trans key.le_total records).imp fun {a b} le => ?_
  rw [le_eq] at le
  cases direction : key.ascending
  all_goals
    simp only [direction,Bool.false_eq_true,if_true,if_false] at le ⊢
    intro order
    rw [order] at le
    cases le

/-- Records with equal cells stay as they stood. -/
theorem sort_stable (key : SortKey) (cell : String) (records : List Record) :
    (key.sort records).filter (fun record => compareCells (key.cellOf record) cell = .eq) =
      records.filter (fun record => compareCells (key.cellOf record) cell = .eq) := by
  apply filter_mergeSort key.le_trans key.le_total
  intro a b same same'
  have first : compareCells (key.cellOf a) cell = .eq := of_decide_eq_true same
  have second : compareCells (key.cellOf b) cell = .eq := of_decide_eq_true same'
  have tied : key.compare a b = .eq := by
    rw [compare]
    exact Std.TransCmp.eq_trans first (Std.OrientedCmp.eq_symm second)
  rw [le_eq,tied]
  split <;> rfl

end SortKey

end PlainTables
