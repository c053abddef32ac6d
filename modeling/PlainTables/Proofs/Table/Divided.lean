import Mathlib.Data.List.Lattice
import PlainTables.Proofs.Filter.Comparison
import PlainTables.Proofs.Table.Read

/-! Rows divided by comparisons. Of two cells the first is less, equal or greater, and the other
comparators are the negations of these. So the comparisons of a column with a value divide the rows of
a table, and no row is lost or selected twice. -/
namespace PlainTables

/-! ### Parts of a list -/

/-- Every member of the whole is in one of the parts, as often as in the whole, and in no other. -/
structure Divides {α : Type} (parts : List (List α)) (whole : List α) : Prop where
  all : parts.flatten.Perm whole
  apart : parts.Pairwise List.Disjoint

section
variable {α κ : Type} {accepts : κ → α → Bool} {keys : List κ} {whole : List α}

theorem count_flatten_filter [DecidableEq α] (keys : List κ) (whole : List α) (a : α) :
    (keys.map fun k => whole.filter (accepts k)).flatten.count a =
      keys.countP (accepts · a) * whole.count a := by
  induction keys with
  | nil => simp
  | cons k later ih =>
    rw [List.map_cons,List.flatten_cons,List.count_append,ih,List.countP_cons]
    by_cases accepted : accepts k a
    · rw [List.count_filter accepted,if_pos accepted,Nat.add_mul,Nat.one_mul,Nat.add_comm]
    · have none : (whole.filter (accepts k)).count a = 0 :=
        List.count_eq_zero.mpr fun member => accepted (List.mem_filter.mp member).2
      rw [none,if_neg accepted,Nat.zero_add,Nat.add_zero]

theorem pairwise_disjoint_filter (once : ∀ a ∈ whole, keys.countP (accepts · a) ≤ 1) :
    (keys.map fun k => whole.filter (accepts k)).Pairwise List.Disjoint := by
  induction keys with
  | nil => exact .nil
  | cons k later ih =>
    rw [List.map_cons,List.pairwise_cons]
    refine ⟨List.forall_mem_map.mpr fun k' member a first second => ?_,ih fun a inside => ?_⟩
    · obtain ⟨inside,accepted⟩ := List.mem_filter.mp first
      have again : 0 < later.countP (accepts · a) :=
        List.countP_pos_iff.mpr ⟨k',member,(List.mem_filter.mp second).2⟩
      have bound := once a inside
      rw [List.countP_cons,if_pos accepted] at bound
      omega
    · exact (List.sublist_cons_self k later).countP_le.trans (once a inside)

/-- Tests divide a list if each of its members passes one of them. -/
theorem divides_filter [DecidableEq α] (once : ∀ a ∈ whole, keys.countP (accepts · a) = 1) :
    Divides (keys.map fun k => whole.filter (accepts k)) whole := by
  refine ⟨List.perm_iff_count.mpr fun a => ?_,
    pairwise_disjoint_filter fun a inside => (once a inside).le⟩
  rw [count_flatten_filter]
  by_cases inside : a ∈ whole
  · rw [once a inside,Nat.one_mul]
  · rw [List.count_eq_zero.mpr inside,Nat.mul_zero]

end

/-! ### Comparators -/

namespace Comparator

theorem countP_holds (o : Ordering) : [lt,eq,gt].countP (·.holds o) = 1 := by
  cases o <;> decide

theorem countP_evaluate (cell? : Option String) (literal : String) :
    [eq,notEq].countP (·.evaluate cell? literal) = 1 := by
  cases cell? with
  | none =>
    simp only [evaluate_none]
    decide
  | some cell =>
    simp only [evaluate_some]
    cases cellOrdering cell literal <;> decide

theorem eq_evaluate_iff {a b : String} : eq.evaluate (some a) b = true ↔ cellKey a = cellKey b := by
  rw [evaluate_some,holds,beq_iff_eq,cellOrdering_eq_iff]

end Comparator

/-! ### Rows -/

namespace Table

variable {table : Table} {column value : String}

/-- The rows whose cell in a column stands in a relation to a value. -/
def related (table : Table) (column : String) (c : Comparator) (value : String) : List Row :=
  table.rows.filter fun row => c.evaluate (table.header.cell? row column) value

/-- The rows that have a cell in a column. -/
def having (table : Table) (column : String) : List Row :=
  table.rows.filter fun row => (table.header.cell? row column).isSome

theorem select_single (known : column ∈ table.header.columns) (c : Comparator) (value : String)
    (columns : List (String × Nat)) :
    table.select columns (Filter.single ⟨column,c,value⟩) =
      .ok ((table.related column c value).map (Row.record · columns)) := by
  have bound : (Filter.single ⟨column,c,value⟩).bind table.header .refused =
      .ok ((Filter.single ⟨column,c,value⟩).placed table.header) :=
    Filter.bind_eq_ok.mpr ⟨rfl,fun _ => by simpa [Filter.single] using known,rfl⟩
  rw [select,bound]
  simp only [bind,Except.bind,filter_accepts]
  rfl

theorem having_of_rectangular (rectangular : table.Rectangular)
    (known : column ∈ table.header.columns) : table.having column = table.rows := by
  apply List.filter_eq_self.mpr
  intro row member
  obtain ⟨place,here⟩ := List.mem_iff_getElem?.mp known
  obtain ⟨cell,-,found⟩ := cell?_of_rectangular rectangular member here
  rw [found]
  rfl

/-- A missing cell stands in no relation but the one of being different. -/
theorem related_eq_filter_having {c : Comparator} (other : c ≠ .notEq) :
    table.related column c value = (table.having column).filter fun row =>
      c.evaluate (table.header.cell? row column) value := by
  rw [related,having,List.filter_filter]
  apply List.filter_congr
  intro row _
  cases table.header.cell? row column <;> simp [other]

theorem divides_ordered (table : Table) (column value : String) :
    Divides [table.related column .lt value,table.related column .eq value,
      table.related column .gt value] (table.having column) := by
  have once : ∀ row ∈ table.having column, [Comparator.lt,.eq,.gt].countP
      (·.evaluate (table.header.cell? row column) value) = 1 := by
    intro row member
    obtain ⟨cell,found⟩ := Option.isSome_iff_exists.mp (List.mem_filter.mp member).2
    rw [found]
    exact Comparator.countP_holds _
  rw [related_eq_filter_having (by decide),related_eq_filter_having (by decide),
    related_eq_filter_having (by decide)]
  exact divides_filter once

theorem divides_equal (table : Table) (column value : String) :
    Divides [table.related column .eq value,table.related column .notEq value] table.rows := by
  have once : ∀ row ∈ table.rows, [Comparator.eq,.notEq].countP
      (·.evaluate (table.header.cell? row column) value) = 1 :=
    fun _ _ => Comparator.countP_evaluate _ value
  exact divides_filter once

end Table

/-- One of three comparators holds between two cells, the others are their negations, and equality is
an equivalence. So what a column is less than, equal to and greater than divides the rows of a table
that have it, which in a table with all its cells are all rows. -/
theorem comparators_coherent :
    (∀ cell literal,
      [Comparator.lt,.eq,.gt].countP (·.evaluate (some cell) literal) = 1 ∧
      Comparator.notEq.evaluate (some cell) literal = !Comparator.eq.evaluate (some cell) literal ∧
      Comparator.gtEq.evaluate (some cell) literal = !Comparator.lt.evaluate (some cell) literal ∧
      Comparator.ltEq.evaluate (some cell) literal = !Comparator.gt.evaluate (some cell) literal ∧
      Comparator.lt.evaluate (some cell) literal = Comparator.gt.evaluate (some literal) cell) ∧
    (Equivalence fun a b => Comparator.eq.evaluate (some a) b = true) ∧
    ∀ table : Table, ∀ column ∈ table.header.columns, ∀ value,
      (∀ c columns, table.select columns (Filter.single ⟨column,c,value⟩) =
        .ok ((table.related column c value).map (Row.record · columns))) ∧
      Divides [table.related column .lt value,table.related column .eq value,
        table.related column .gt value] (table.having column) ∧
      (table.Rectangular → table.having column = table.rows) ∧
      Divides [table.related column .eq value,table.related column .notEq value] table.rows := by
  refine ⟨fun cell literal => ?_,⟨?_,?_,?_⟩,fun table column known value => ⟨?_,?_,?_,?_⟩⟩
  · simp only [Comparator.evaluate_some]
    refine ⟨Comparator.countP_holds _,?_⟩
    rw [cellOrdering_swap cell literal]
    cases cellOrdering cell literal <;> decide
  · exact fun _ => Comparator.eq_evaluate_iff.mpr rfl
  · exact fun same => Comparator.eq_evaluate_iff.mpr (Comparator.eq_evaluate_iff.mp same).symm
  · intro a b c first second
    have keys := (Comparator.eq_evaluate_iff.mp first).trans (Comparator.eq_evaluate_iff.mp second)
    exact Comparator.eq_evaluate_iff.mpr keys
  · exact fun c columns => Table.select_single known c value columns
  · exact table.divides_ordered column value
  · exact fun rectangular => Table.having_of_rectangular rectangular known
  · exact table.divides_equal column value

def sizes : Table := ⟨⟨["id","size"],by decide⟩,[["1","10"],["2","9a"],["3","1e1"],["4","2"],["5","10"]]⟩

/-- The text is after the number. -/
theorem comparators_coherent_sizes :
    sizes.select [("id",0)] (Filter.single ⟨"size",.lt,"10.0"⟩) = .ok [[("id","4")]] ∧
    sizes.select [("id",0)] (Filter.single ⟨"size",.eq,"10.0"⟩) =
      .ok [[("id","1")],[("id","3")],[("id","5")]] ∧
    sizes.select [("id",0)] (Filter.single ⟨"size",.gt,"10.0"⟩) = .ok [[("id","2")]] ∧
    Divides [sizes.related "size" .lt "10.0",sizes.related "size" .eq "10.0",
      sizes.related "size" .gt "10.0"] sizes.rows ∧
    Comparator.eq.evaluate (some " 10") "1e1" = true := by
  obtain ⟨-,equality,divided⟩ := comparators_coherent
  obtain ⟨selected,ordered,whole,-⟩ := divided sizes "size" (by decide) "10.0"
  have rectangular : ∀ row ∈ sizes.rows, row.length = sizes.header.width := by decide
  rw [whole rectangular] at ordered
  refine ⟨?_,?_,?_,ordered,?_⟩
  · exact (selected .lt _).trans (by decide +kernel)
  · exact (selected .eq _).trans (by decide +kernel)
  · exact (selected .gt _).trans (by decide +kernel)
  · exact equality.trans (y := "10.0") (by decide +kernel) (by decide +kernel)

end PlainTables
