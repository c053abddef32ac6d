import PlainTables.Proofs.Table.Read

/-! A change of a table made a second time. The cells it writes are there already, so nothing is
written anew, even where the filter looks at them. -/
namespace PlainTables

/-! ### Rows -/

namespace Header

variable (header : Header) (assignments : List Assignment) (filter : Filter) (row : Row)

theorem overwritten_overwritten :
    header.overwritten assignments (header.overwritten assignments row) =
      header.overwritten assignments row := by
  unfold overwritten
  generalize header.columns = columns
  induction columns generalizing row with
  | nil => rfl
  | cons column later ih =>
    cases row with
    | nil => rfl
    | cons cell row =>
      have kept : (lastAssigned assignments column).getD ((lastAssigned assignments column).getD cell) =
          (lastAssigned assignments column).getD cell := by
        cases lastAssigned assignments column <;> rfl
      simp [ih,kept]

/-- What an update makes of a row. -/
def updatedRow : Row :=
  if filter.holds (header.cell? row) then header.overwritten assignments row else row

theorem updatedRow_updatedRow :
    header.updatedRow assignments filter (header.updatedRow assignments filter row) =
      header.updatedRow assignments filter row := by
  by_cases holds : filter.holds (header.cell? row) = true
  · simp only [updatedRow,holds,if_true,overwritten_overwritten,ite_self]
  · simp only [updatedRow,holds,if_false,Bool.false_eq_true]

/-- A row on which the filter was not true is as it was. -/
theorem holds_of_updatedRow {header : Header} {assignments : List Assignment} {filter : Filter}
    {row : Row} (still : filter.holds (header.cell? (header.updatedRow assignments filter row)) = true) :
    filter.holds (header.cell? row) = true := by
  by_contra before
  rw [updatedRow,if_neg before] at still
  exact before still

end Header

/-! ### Tables -/

namespace Table

variable (table : Table) (assignments : List Assignment) (filter : Filter)

theorem updated_eq :
    table.updated assignments filter =
      ⟨table.header,table.rows.map (table.header.updatedRow assignments filter)⟩ := rfl

theorem updated_updated :
    (table.updated assignments filter).updated assignments filter =
      table.updated assignments filter := by
  simp only [updated_eq,List.map_map,Function.comp_def,Header.updatedRow_updatedRow]

theorem length_holding_updated :
    ((table.updated assignments filter).holding filter).length ≤ (table.holding filter).length := by
  simp only [holding,updated_eq,← List.countP_eq_length_filter,List.countP_map]
  exact List.countP_mono_left fun row _ still => Header.holds_of_updatedRow still

theorem holding_deleted : (table.deleted filter).holding filter = [] := by
  rw [holding,deleted,List.filter_filter]
  simp

theorem deleted_deleted : (table.deleted filter).deleted filter = table.deleted filter := by
  simp only [deleted,List.filter_filter,Bool.and_self]

theorem read_deleted {filter : Filter} (balanced : filter.Balanced)
    (known : ∀ clause ∈ filter.clauses, clause.column ∈ table.header.columns) :
    (table.deleted filter).read ["*"] filter = .ok [] := by
  refine read_eq_ok.mpr ⟨.inl rfl,balanced,known,?_⟩
  rw [holding_deleted]
  rfl

end Table
end PlainTables
