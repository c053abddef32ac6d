import PlainTables.Proofs.Table.Selected

/-! What is read from a table. A read succeeds exactly if all columns it names are there and its
filter is balanced, and it gives the records of the rows on which the filter is true. A longer filter
is the shorter one joined with its last clause. -/
namespace PlainTables

open Actions

/-! ### Filters -/

namespace Filter

variable {filter : Filter} {header : Header} {clause : Clause}

/-- A clause as a filter. -/
def single (clause : Clause) : Filter := ⟨[clause],[]⟩

/-- A filter with one more clause at its end. -/
def extended (filter : Filter) (k : Connective) (clause : Clause) : Filter :=
  ⟨filter.clauses ++ [clause],filter.connectives ++ [k]⟩

theorem holds_single (clause : Clause) (cell? : String → Option String) :
    (single clause).holds cell? = clause.holds cell? := rfl

/-- What stands before the last connective is one operand of it, whatever the connectives are. -/
theorem holds_extended (balanced : filter.Balanced) (filled : filter.clauses ≠ []) (k : Connective)
    (clause : Clause) (cell? : String → Option String) :
    (filter.extended k clause).holds cell? =
      k.apply (filter.holds cell?) (clause.holds cell?) := by
  obtain ⟨clauses,connectives⟩ := filter
  cases clauses with
  | nil => exact absurd rfl filled
  | cons first later =>
    have sizes : connectives.length = later.length := balanced
    simp [holds,extended,List.zip_append sizes]

theorem balanced_extended (balanced : filter.Balanced) (filled : filter.clauses ≠ [])
    (k : Connective) (clause : Clause) : (filter.extended k clause).Balanced := by
  have positive := List.length_pos_iff.mpr filled
  rw [Balanced] at balanced ⊢
  simp only [extended,List.length_append,List.length_singleton]
  omega

theorem checkColumns_eq_ok :
    filter.checkColumns header = .ok () ↔
      ∀ clause ∈ filter.clauses, clause.column ∈ header.columns := by
  rw [checkColumns,forM_eq_ok]
  apply forall₂_congr
  intro clause _
  split <;> simp_all

/-- Binding a filter refuses nothing but a wrong number of connectives and, in a read, columns that
the table does not have. -/
theorem bind_eq_ok {unknown : UnknownColumns} {bound : BoundFilter} :
    filter.bind header unknown = .ok bound ↔
      filter.Balanced ∧
      (unknown = .refused → ∀ clause ∈ filter.clauses, clause.column ∈ header.columns) ∧
      bound = filter.placed header := by
  by_cases balanced : filter.Balanced
  · cases unknown with
    | missing => simp [bind_missing balanced,balanced,eq_comm]
    | refused =>
      rw [bind_refused balanced,← checkColumns_eq_ok]
      cases filter.checkColumns header <;> simp [Except.map,balanced,eq_comm]
  · simp only [balanced,false_and,iff_false]
    exact fun made => balanced (balanced_of_bind made)

/-- A bound filter has the connectives that its verdicts need, so `combine` does not refuse them. -/
theorem combine_of_bind {unknown : UnknownColumns} {bound : BoundFilter}
    (made : filter.bind header unknown = .ok bound) (row : Row) :
    combine (bound.clauses.map (·.verdict row)) bound.connectives = .ok (bound.accepts row) := by
  obtain ⟨balanced,-,rfl⟩ := bind_eq_ok.mp made
  have count : (filter.placed header).connectives.length =
      ((filter.placed header).clauses.map (·.verdict row)).length - 1 := by
    rw [placed,List.length_map,List.length_map]
    exact balanced
  exact if_neg fun uneven => uneven.2 count

/-- A longer filter accepts what its last connective makes of the shorter one and its last clause. -/
theorem bind_extended {unknown : UnknownColumns} {bound last : BoundFilter}
    (filled : filter.clauses ≠ []) (made : filter.bind header unknown = .ok bound)
    (one : (single clause).bind header unknown = .ok last) (k : Connective) :
    ∃ whole, (filter.extended k clause).bind header unknown = .ok whole ∧
      ∀ row, whole.accepts row = k.apply (bound.accepts row) (last.accepts row) := by
  obtain ⟨balanced,known,rfl⟩ := bind_eq_ok.mp made
  obtain ⟨-,knownLast,rfl⟩ := bind_eq_ok.mp one
  refine ⟨_,bind_eq_ok.mpr ⟨balanced_extended balanced filled k clause,?_,rfl⟩,fun row => ?_⟩
  · intro refused
    exact List.forall_mem_append.mpr ⟨known refused,knownLast refused⟩
  · rw [accepts_placed,accepts_placed,accepts_placed,holds_extended balanced filled,holds_single]

end Filter

/-! ### Records -/

namespace Header

variable {header : Header} {fields : List String}

theorem get?_record {column : String} (row : Row) (inside : column ∈ fields) :
    (header.record fields row).get? column = some ((header.cell? row column).getD "") := by
  rw [Record.get?,Header.record]
  induction fields with
  | nil => cases inside
  | cons field later ih =>
    rw [List.map_cons,List.lookup_cons]
    by_cases same : column = field
    · simp [same]
    · rw [beq_false_of_ne same]
      exact ih ((List.mem_cons.mp inside).resolve_left same)

end Header

/-! ### Reads -/

namespace Table

variable {table : Table} {fields : List String} {filter : Filter} {records : List Record}
  {fault : Fault}

theorem balanced_of_read (read : table.read fields filter = .ok records) : filter.Balanced := by
  obtain ⟨columns,-,selected⟩ := check_eq_ok.mp read
  obtain ⟨_,bound,-⟩ := check_eq_ok.mp selected
  exact Filter.balanced_of_bind bound

theorem read_eq_ok :
    table.read fields filter = .ok records ↔
      (fields = ["*"] ∨ ∀ field ∈ fields, field ∈ table.header.columns) ∧ filter.Balanced ∧
      (∀ clause ∈ filter.clauses, clause.column ∈ table.header.columns) ∧
      records = (table.holding filter).map
        (table.header.record (table.header.selectedFields fields)) := by
  rw [← Header.checkSelected_eq_ok,← Filter.checkColumns_eq_ok]
  constructor
  · intro read
    have balanced := balanced_of_read read
    rw [read_eq balanced] at read
    obtain ⟨_,checked,selected⟩ := check_eq_ok.mp read
    obtain ⟨_,columns,same⟩ := check_eq_ok.mp selected
    exact ⟨checked,balanced,columns,(Except.ok.inj same).symm⟩
  · rintro ⟨checked,balanced,columns,rfl⟩
    rw [read_eq balanced]
    exact check_eq_ok.mpr ⟨(),checked,check_eq_ok.mpr ⟨(),columns,rfl⟩⟩

theorem category_of_checkSelected
    (failed : table.header.checkSelected fields = .error fault) : fault.category = .field := by
  unfold Header.checkSelected at failed
  split at failed
  · cases failed
  · obtain ⟨field,-,here⟩ := of_forM_eq_error failed
    split at here <;> cases here
    rfl

theorem category_of_selected (failed : table.selected fields filter = .error fault) :
    fault.category = .field := by
  rcases check_eq_error.mp failed with columns | ⟨_,_,returned⟩
  · obtain ⟨clause,-,here⟩ := of_forM_eq_error columns
    split at here <;> cases here
    rfl
  · cases returned

/-- A balanced read fails on nothing but columns. -/
theorem category_of_read (balanced : filter.Balanced)
    (failed : table.read fields filter = .error fault) : fault.category = .field := by
  rw [read_eq balanced] at failed
  rcases check_eq_error.mp failed with unknown | ⟨_,_,columns⟩
  · exact category_of_checkSelected unknown
  · exact category_of_selected columns

theorem cell?_of_rectangular (rectangular : table.Rectangular) {row : Row} (member : row ∈ table.rows)
    {place : Nat} {column : String} (here : table.header.columns[place]? = some column) :
    ∃ cell, row[place]? = some cell ∧ table.header.cell? row column = some cell := by
  obtain ⟨bound,-⟩ := List.getElem?_eq_some_iff.mp here
  have inside : place < row.length := by
    rw [rectangular row member]
    exact bound
  refine ⟨row[place],List.getElem?_eq_getElem inside,?_⟩
  rw [Header.cell?_eq,Header.index?_eq_some.mpr here]
  exact List.getElem?_eq_getElem inside

/-- A read gives what its filter and its fields mean row by row, and filters join from the left. -/
theorem read_reference (table : Table) (rectangular : table.Rectangular) :
    (∀ fields filter records, table.read fields filter = .ok records ↔
      (fields = ["*"] ∨ ∀ field ∈ fields, field ∈ table.header.columns) ∧
      filter.connectives.length = filter.clauses.length - 1 ∧
      (∀ clause ∈ filter.clauses, clause.column ∈ table.header.columns) ∧
      records = (table.rows.filter fun row => filter.holds (table.header.cell? row)).map
        (table.header.record (table.header.selectedFields fields))) ∧
    (∀ row ∈ table.rows, ∀ (place : Nat) column, table.header.columns[place]? = some column →
      ∃ cell, row[place]? = some cell ∧ table.header.cell? row column = some cell) ∧
    ∀ filter : Filter, filter.clauses ≠ [] → ∀ clause unknown bound last,
      filter.bind table.header unknown = .ok bound →
      (Filter.single clause).bind table.header unknown = .ok last →
      ∃ both either, (filter.extended .and clause).bind table.header unknown = .ok both ∧
        (filter.extended .or clause).bind table.header unknown = .ok either ∧
        ∀ row, both.accepts row = (bound.accepts row && last.accepts row) ∧
          either.accepts row = (bound.accepts row || last.accepts row) := by
  refine ⟨fun _ _ _ => read_eq_ok,fun _ member _ _ => cell?_of_rectangular rectangular member,?_⟩
  intro filter filled clause unknown bound last made one
  obtain ⟨both,madeBoth,all⟩ := Filter.bind_extended filled made one .and
  obtain ⟨either,madeEither,any⟩ := Filter.bind_extended filled made one .or
  exact ⟨both,either,madeBoth,madeEither,fun row => ⟨all row,any row⟩⟩

def marks : Table := ⟨⟨["a","b","c"],by decide⟩,[["1","x","0"],["1","y","3"],["5","2","3.0"]]⟩

/-- The first row would be read if AND bound closer than OR. -/
theorem marks_read :
    marks.Rectangular ∧
    marks.read ["b","b","a"] ⟨[⟨"a",.eq,"1"⟩,⟨"b",.eq,"2"⟩,⟨"c",.eq,"3"⟩],[.or,.and]⟩ = .ok
      [[("b","y"),("b","y"),("a","1")],[("b","2"),("b","2"),("a","5")]] ∧
    ∃ bound last both,
      Filter.bind ⟨[⟨"a",.eq,"1"⟩,⟨"b",.eq,"2"⟩],[.or]⟩ marks.header .refused = .ok bound ∧
      Filter.bind ⟨[⟨"c",.eq,"3"⟩],[]⟩ marks.header .refused = .ok last ∧
      Filter.bind ⟨[⟨"a",.eq,"1"⟩,⟨"b",.eq,"2"⟩,⟨"c",.eq,"3"⟩],[.or,.and]⟩ marks.header .refused =
        .ok both ∧
      ∀ row, both.accepts row = (bound.accepts row && last.accepts row) := by
  have rectangular : ∀ row ∈ marks.rows, row.length = marks.header.width := by decide
  obtain ⟨read,-,joined⟩ := read_reference marks rectangular
  refine ⟨rectangular,(read _ _ _).mpr ⟨.inr (by decide),by decide,by decide,by decide +kernel⟩,?_⟩
  obtain ⟨both,_,made,-,accepts⟩ := joined ⟨[⟨"a",.eq,"1"⟩,⟨"b",.eq,"2"⟩],[.or]⟩ (by decide)
    ⟨"c",.eq,"3"⟩ .refused _ _ rfl rfl
  exact ⟨_,_,both,rfl,rfl,made,fun row => (accepts row).1⟩

end Table

end PlainTables
