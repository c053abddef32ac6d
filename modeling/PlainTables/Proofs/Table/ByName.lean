import Mathlib.Data.List.Nodup
import PlainTables.Database.Tables
import PlainTables.Proofs.Action

/-! Tables by the names of their columns. The operations replace names by places before they
touch a row; here cells are looked up, aligned and overwritten by name, and the two ways are
shown to agree, faults included. -/
namespace PlainTables

open Actions

/-! ### Cells -/

namespace Header

variable {header : Header} {row : Row} {column : String} {place : Nat}

/-- The cell of a row in a column; nothing if the table has no such column. -/
def cell? (header : Header) (row : Row) (column : String) : Option String :=
  (header.columns.zip row).lookup column

theorem lookup_zip (columns : List String) (row : Row) (column : String) :
    (columns.zip row).lookup column = (columns.idxOf? column).bind (row[·]?) := by
  induction columns generalizing row with
  | nil => rfl
  | cons first later ih =>
    rw [List.idxOf?_cons]
    by_cases same : first = column
    · cases row <;> simp [same]
    · have apart : (column == first) = false := beq_false_of_ne (Ne.symm same)
      cases row with
      | nil => simp [same]
      | cons cell row =>
        simp only [List.zip_cons_cons,List.lookup_cons,apart,ih row]
        cases later.idxOf? column <;> simp [same]

theorem cell?_eq (header : Header) (row : Row) (column : String) :
    header.cell? row column = (header.index? column).bind (row[·]?) :=
  lookup_zip header.columns row column

theorem index?_eq_some :
    header.index? column = some place ↔ header.columns[place]? = some column := by
  rw [index?,List.idxOf?_eq_some_iff]
  constructor
  · rintro ⟨inside,same,-⟩
    rw [List.getElem?_eq_getElem inside,same]
  · intro found
    obtain ⟨inside,same⟩ := List.getElem?_eq_some_iff.mp found
    refine ⟨inside,same,fun j before other => ?_⟩
    have equal := (List.Nodup.getElem_inj_iff header.distinct).mp (other.trans same.symm)
    omega

theorem index?_eq_none : header.index? column = none ↔ column ∉ header.columns :=
  List.idxOf?_eq_none_iff

end Header

/-! ### Filters -/

def Clause.holds (clause : Clause) (cell? : String → Option String) : Bool :=
  clause.comparator.evaluate (cell? clause.column) clause.literal

/-- The value of a filter, from the left; without clauses it is true. -/
def Filter.holds (filter : Filter) (cell? : String → Option String) : Bool :=
  match filter.clauses with
  | [] => true
  | first :: later =>
    (filter.connectives.zip later).foldl
      (fun verdict (k,clause) => k.apply verdict (clause.holds cell?)) (first.holds cell?)

namespace Filter

variable {filter : Filter} {header : Header}

/-- The clauses of a filter with the places of their columns. -/
def placed (filter : Filter) (header : Header) : BoundFilter :=
  ⟨filter.clauses.map fun clause => ⟨header.index? clause.column,clause.comparator,clause.literal⟩,
    filter.connectives⟩

theorem accepts_placed (filter : Filter) (header : Header) (row : Row) :
    (filter.placed header).accepts row = filter.holds (header.cell? row) := by
  have verdicts : (filter.placed header).clauses.map (·.verdict row) =
      filter.clauses.map (·.holds (header.cell? row)) := by
    simp [placed,BoundClause.verdict,Clause.holds,Header.cell?_eq]
  rw [BoundFilter.accepts,verdicts,holds]
  cases filter.clauses with
  | nil => rfl
  | cons first later =>
    simp [verdictOf,joinVerdicts,placed,List.zip_map_right,List.foldl_map]

theorem balanced_of_bind {unknown : UnknownColumns} {bound : BoundFilter}
    (made : filter.bind header unknown = .ok bound) : filter.Balanced := by
  by_contra other
  simp [Filter.bind,other] at made

/-- A column that the table does not have is a missing cell. -/
theorem bind_missing (balanced : filter.Balanced) :
    filter.bind header .missing = .ok (filter.placed header) := by
  have each : ∀ clause ∈ filter.clauses, clause.bind header .missing =
      (Except.ok () : Except Fault Unit).map fun _ =>
        ⟨header.index? clause.column,clause.comparator,clause.literal⟩ := by
    intro clause _
    cases found : header.index? clause.column <;> simp [Clause.bind,found,Except.map]
  have checked : filter.clauses.forM (fun _ => (Except.ok () : Except Fault Unit)) = .ok () :=
    forM_eq_ok.mpr fun _ _ => rfl
  rw [Filter.bind,if_pos balanced,mapM_eq_forM each,checked]
  rfl

/-- The first column of a filter that the table does not have is a fault. -/
def checkColumns (filter : Filter) (header : Header) : Except Fault Unit :=
  filter.clauses.forM fun clause =>
    if clause.column ∈ header.columns then .ok () else .error (.unknownFilterColumn clause.column)

theorem bind_refused (balanced : filter.Balanced) :
    filter.bind header .refused = (filter.checkColumns header).map fun _ => filter.placed header := by
  have each : ∀ clause ∈ filter.clauses, clause.bind header .refused =
      (if clause.column ∈ header.columns then .ok ()
        else .error (.unknownFilterColumn clause.column) : Except Fault Unit).map fun _ =>
          ⟨header.index? clause.column,clause.comparator,clause.literal⟩ := by
    intro clause _
    cases found : header.index? clause.column with
    | none =>
      rw [if_neg (Header.index?_eq_none.mp found)]
      simp [Clause.bind,found,Except.map]
    | some place =>
      have known : clause.column ∈ header.columns :=
        List.mem_of_getElem? (Header.index?_eq_some.mp found)
      rw [if_pos known]
      simp [Clause.bind,found,Except.map]
  rw [Filter.bind,if_pos balanced,mapM_eq_forM each,map_bind,bind_ok]
  rfl

end Filter

/-! ### Overwritten rows -/

/-- The value of the last assignment to a column. -/
def lastAssigned (assignments : List Assignment) (column : String) : Option String :=
  (assignments.reverse.find? (·.column = column)).map Assignment.value

namespace Header

variable {header : Header} {row : Row} {column : String}

/-- A row with some of its cells overwritten. -/
def overwritten (header : Header) (assignments : List Assignment) (row : Row) : Row :=
  (header.columns.zip row).map fun (column,cell) => (lastAssigned assignments column).getD cell

/-- Each value is checked before its column. -/
def checkAssignments (header : Header) (format : TableFormat) (assignments : List Assignment) :
    Except Fault Unit :=
  assignments.forM fun a => do
    format.checkValue a.value
    if a.column ∈ header.columns then .ok () else .error (.unknownAssignedColumn a.column)

/-- The places and values of assignments to columns of the table. -/
def placed (header : Header) (assignments : List Assignment) : List (Nat × String) :=
  assignments.map fun a => ((header.index? a.column).getD 0,a.value)

theorem targets_eq (header : Header) (format : TableFormat) (assignments : List Assignment) :
    Database.targets format header assignments =
      (header.checkAssignments format assignments).map fun _ => header.placed assignments := by
  apply mapM_eq_forM
  intro a _
  cases format.checkValue a.value with
  | error fault => rfl
  | ok _ =>
    cases found : header.index? a.column with
    | none =>
      simp only [if_neg (index?_eq_none.mp found),bind,Except.bind,Except.map]
    | some place =>
      have known : a.column ∈ header.columns := List.mem_of_getElem? (index?_eq_some.mp found)
      simp only [if_pos known,bind,Except.bind,Except.map,Option.getD_some]

theorem checkAssignments_eq_ok {format : TableFormat} {assignments : List Assignment} :
    header.checkAssignments format assignments = .ok () ↔
      ∀ a ∈ assignments, format.isStorable a.value = true ∧ a.column ∈ header.columns := by
  rw [checkAssignments,forM_eq_ok]
  apply forall₂_congr
  intro a _
  by_cases storable : format.isStorable a.value = true <;>
    by_cases known : a.column ∈ header.columns <;>
      simp [TableFormat.checkValue,storable,known,bind,Except.bind]

/-- Each place holds the last value that was set there. -/
theorem getElem?_assign (places : List (Nat × String)) (row : Row) (i : Nat) :
    (Database.assign places row)[i]? =
      row[i]?.map fun cell => (places.reverse.lookup i).getD cell := by
  induction places generalizing row with
  | nil => simp [Database.assign]
  | cons target later ih =>
    obtain ⟨place,value⟩ := target
    have step : Database.assign ((place,value) :: later) row =
        Database.assign later (row.set place value) := rfl
    rw [step,ih,List.reverse_cons,List.lookup_append,List.getElem?_set,List.lookup_cons,
      List.lookup_nil]
    by_cases same : place = i
    · subst same
      cases found : row[place]? with
      | none => simp [List.getElem?_eq_none_iff.mp found]
      | some cell =>
        obtain ⟨inside,-⟩ := List.getElem?_eq_some_iff.mp found
        cases later.reverse.lookup place <;> simp [inside]
    · have apart : (i == place) = false := beq_false_of_ne (Ne.symm same)
      simp [same,apart]

theorem lookup_placed {assignments : List Assignment} {i : Nat}
    (known : ∀ a ∈ assignments, a.column ∈ header.columns) (here : header.columns[i]? = some column) :
    (header.placed assignments).lookup i =
      (assignments.find? (·.column = column)).map Assignment.value := by
  induction assignments with
  | nil => rfl
  | cons a later ih =>
    obtain ⟨place,found⟩ : ∃ place, header.index? a.column = some place := by
      apply Option.ne_none_iff_exists'.mp
      intro missing
      exact index?_eq_none.mp missing (known a List.mem_cons_self)
    have rest := ih fun b member => known b (List.mem_cons_of_mem _ member)
    have step : header.placed (a :: later) = (place,a.value) :: header.placed later := by
      simp [placed,found]
    rw [step,List.lookup_cons,List.find?_cons,rest]
    by_cases same : a.column = column
    · rw [same,index?_eq_some.mpr here] at found
      cases found
      simp [same]
    · have apart : i ≠ place := by
        rintro rfl
        rw [index?_eq_some,here] at found
        exact same (Option.some_inj.mp found).symm
      simp [same,beq_false_of_ne apart]

/-- Assigning by place is overwriting by name. -/
theorem assign_placed {assignments : List Assignment}
    (known : ∀ a ∈ assignments, a.column ∈ header.columns) (width : row.length = header.width) :
    Database.assign (header.placed assignments) row = header.overwritten assignments row := by
  apply List.ext_getElem?
  intro i
  rw [getElem?_assign,overwritten,List.getElem?_map]
  cases found : row[i]? with
  | none =>
    have beyond : (header.columns.zip row).length ≤ i := by
      have := List.getElem?_eq_none_iff.mp found
      rw [List.length_zip]
      omega
    rw [List.getElem?_eq_none_iff.mpr beyond]
    rfl
  | some cell =>
    obtain ⟨inside,-⟩ := List.getElem?_eq_some_iff.mp found
    have bound : i < header.columns.length := by
      rw [Header.width] at width
      omega
    have here := List.getElem?_eq_getElem bound
    have pair : (header.columns.zip row)[i]? = some (header.columns[i],cell) :=
      List.getElem?_zip_eq_some.mpr ⟨here,found⟩
    have last := lookup_placed (fun a member => known a (List.mem_reverse.mp member)) here
    rw [pair,Option.map_some,Option.map_some]
    dsimp only
    rw [lastAssigned,← last,placed,placed,List.map_reverse]

end Header

/-! ### Aligned rows -/

namespace Header

variable {header : Header} {format : TableFormat}

/-- A row with the values of some fields, and the empty text in every other column. -/
def aligned (header : Header) (fields values : List String) : Row :=
  header.columns.map fun column => ((fields.zip values).lookup column).getD ""

/-- The fields have to be different columns, given the fields before them. -/
def checkFields (header : Header) (seen : List String) : List String → Except Fault Unit
  | [] => .ok ()
  | field :: later =>
    if field ∈ seen then .error (.repeatedField field)
    else if field ∈ header.columns then checkFields header (field :: seen) later
    else .error (.unknownField field)

theorem checkFields_eq_ok {seen fields : List String} :
    header.checkFields seen fields = .ok () ↔
      fields.Nodup ∧ (∀ field ∈ fields, field ∉ seen) ∧ ∀ field ∈ fields, field ∈ header.columns := by
  induction fields generalizing seen with
  | nil => simp [checkFields]
  | cons field later ih =>
    by_cases repeated : field ∈ seen
    · simp [checkFields,repeated]
    by_cases known : field ∈ header.columns
    · simp only [checkFields,repeated,known,if_false,if_true,ih,List.nodup_cons,List.mem_cons,not_or]
      grind
    · simp [checkFields,repeated,known]

/-- The place of each field. -/
def fieldsPlaced (header : Header) (fields : List String) : List Nat :=
  fields.map fun field => (header.index? field).getD 0

theorem fieldPlaces_eq (header : Header) (seen fields : List String) :
    Database.fieldPlaces header seen fields =
      (header.checkFields seen fields).map fun _ => header.fieldsPlaced fields := by
  induction fields generalizing seen with
  | nil => rfl
  | cons field later ih =>
    rw [Database.fieldPlaces,checkFields]
    split
    · rfl
    · cases found : header.index? field with
      | none => rw [if_neg (index?_eq_none.mp found)]; rfl
      | some place =>
        have known : field ∈ header.columns := List.mem_of_getElem? (index?_eq_some.mp found)
        rw [if_pos known]
        dsimp only
        rw [ih,map_bind,bind_ok]
        simp [fieldsPlaced,found]

theorem foldlM_set (format : TableFormat) (pairs : List (Nat × String)) (row : Row) :
    pairs.foldlM (fun row (place,value) => do
        format.checkValue value
        .ok (row.set place value)) row =
      ((pairs.map Prod.snd).forM format.checkValue).map fun _ => Database.assign pairs row := by
  induction pairs generalizing row with
  | nil => rfl
  | cons pair later ih =>
    obtain ⟨place,value⟩ := pair
    rw [List.foldlM_cons,List.map_cons,forM_cons]
    dsimp only
    cases format.checkValue value with
    | error fault => rfl
    | ok _ => exact ih (row.set place value)

theorem lastAssigned_zipWith {fields values : List String} (distinct : fields.Nodup)
    (column : String) :
    lastAssigned (fields.zipWith Assignment.mk values) column =
      (fields.zip values).lookup column := by
  induction fields generalizing values with
  | nil => rfl
  | cons field later ih =>
    obtain ⟨fresh,distinct⟩ := List.nodup_cons.mp distinct
    cases values with
    | nil => rfl
    | cons value values =>
      have rest := @ih values distinct
      rw [lastAssigned] at rest
      rw [lastAssigned,List.zipWith_cons_cons,List.reverse_cons,List.find?_append,Option.map_or,rest,
        List.zip_cons_cons,List.lookup_cons]
      by_cases same : field = column
      · subst same
        have absent : (later.zip values).lookup field = none := by
          refine List.lookup_eq_none_iff.mpr fun pair member => bne_iff_ne.mpr ?_
          rintro rfl
          exact fresh (List.of_mem_zip member).1
        simp [absent]
      · simp [same,beq_false_of_ne (Ne.symm same)]

/-- A row aligned by place is the row aligned by name. -/
theorem alignedRow_eq (format : TableFormat) {fields values : List String}
    (checked : header.checkFields [] fields = .ok ()) (fits : values.length = fields.length) :
    Database.alignedRow format header (header.fieldsPlaced fields) values =
      (values.forM format.checkValue).map fun _ => header.aligned fields values := by
  obtain ⟨distinct,-,known⟩ := checkFields_eq_ok.mp checked
  have pairs : (header.fieldsPlaced fields).zip values =
      header.placed (fields.zipWith Assignment.mk values) := by
    rw [fieldsPlaced,placed,List.map_zipWith,List.zip_map_left,List.zip,List.map_zipWith]
    rfl
  have whole : ((header.fieldsPlaced fields).zip values).map Prod.snd = values :=
    List.map_snd_zip (by simp [fieldsPlaced,fits])
  have columns : ∀ a ∈ fields.zipWith Assignment.mk values, a.column ∈ header.columns := by
    intro a member
    rw [← List.map_uncurry_zip_eq_zipWith] at member
    obtain ⟨pair,inside,rfl⟩ := List.mem_map.mp member
    exact known _ (List.of_mem_zip inside).1
  have empty : header.overwritten (fields.zipWith Assignment.mk values) header.emptyRow =
      header.aligned fields values := by
    have cells : ∀ columns : List String,
        columns.zip (List.replicate columns.length "") = columns.map (·,"") := by
      intro columns
      induction columns with
      | nil => rfl
      | cons column later ih => simp [List.replicate_succ,ih]
    rw [overwritten,emptyRow,width,cells,List.map_map,aligned]
    apply List.map_congr_left
    intro column _
    rw [Function.comp_apply]
    dsimp only
    rw [lastAssigned_zipWith distinct]
  rw [Database.alignedRow,foldlM_set,whole,pairs,assign_placed columns header.length_emptyRow,empty]

/-- What an insertion checks once the table has been read. -/
def checkInserted (header : Header) (format : TableFormat) (fields : List String)
    (rows : List Row) : Except Fault Unit := do
  header.checkFields [] fields
  rows.forM fun row => row.forM format.checkValue

theorem checkInserted_eq_ok {format : TableFormat} {fields : List String} {rows : List Row} :
    header.checkInserted format fields rows = .ok () ↔ header.checkFields [] fields = .ok () ∧
      ∀ row ∈ rows, ∀ value ∈ row, format.checkValue value = .ok () := by
  rw [checkInserted,check_eq_ok]
  simp only [forM_eq_ok]
  constructor
  · rintro ⟨_,known,values⟩
    exact ⟨known,values⟩
  · rintro ⟨known,values⟩
    exact ⟨(),known,values⟩

@[simp] theorem length_aligned (header : Header) (fields values : List String) :
    (header.aligned fields values).length = header.width := by
  simp [aligned,width]

theorem length_overwritten {row : Row} (assignments : List Assignment)
    (width : row.length = header.width) :
    (header.overwritten assignments row).length = header.width := by
  simp [overwritten,width,Header.width]

/-- A cell of an aligned row is a value or empty. -/
theorem mem_aligned {fields values : List String} {cell : String}
    (member : cell ∈ header.aligned fields values) : cell ∈ values ∨ cell = "" := by
  obtain ⟨column,-,rfl⟩ := List.mem_map.mp member
  cases found : (fields.zip values).lookup column with
  | none => exact .inr rfl
  | some value =>
    obtain ⟨before,after,split,-⟩ := List.lookup_eq_some_iff.mp found
    exact .inl (List.of_mem_zip (by rw [split]; simp : (column,value) ∈ fields.zip values)).2

/-- A cell of an overwritten row is an assigned value or one it had before. -/
theorem mem_overwritten {assignments : List Assignment} {row : Row} {cell : String}
    (member : cell ∈ header.overwritten assignments row) :
    (∃ a ∈ assignments, cell = a.value) ∨ cell ∈ row := by
  obtain ⟨⟨column,old⟩,inside,rfl⟩ := List.mem_map.mp member
  dsimp only
  cases found : lastAssigned assignments column with
  | none => exact .inr (List.of_mem_zip inside).2
  | some value =>
    obtain ⟨a,last,rfl⟩ := Option.map_eq_some_iff.mp found
    exact .inl ⟨a,List.mem_reverse.mp (List.mem_of_find?_eq_some last),rfl⟩

end Header

/-! ### Changed tables -/

namespace Table

variable {table : Table} {assignments : List Assignment} {filter : Filter}

/-- The rows on which a filter is true. -/
def holding (table : Table) (filter : Filter) : List Row :=
  table.rows.filter fun row => filter.holds (table.header.cell? row)

def inserted (table : Table) (fields : List String) (rows : List Row) : Table :=
  ⟨table.header,table.rows ++ rows.map (table.header.aligned fields)⟩

def updated (table : Table) (assignments : List Assignment) (filter : Filter) : Table :=
  ⟨table.header,table.rows.map fun row =>
    if filter.holds (table.header.cell? row) then table.header.overwritten assignments row else row⟩

def deleted (table : Table) (filter : Filter) : Table :=
  ⟨table.header,table.rows.filter fun row => !filter.holds (table.header.cell? row)⟩

theorem filter_accepts (table : Table) (filter : Filter) :
    table.rows.filter (filter.placed table.header).accepts = table.holding filter :=
  List.filter_congr fun row _ => filter.accepts_placed table.header row

theorem filter_not_accepts (table : Table) (filter : Filter) :
    (⟨table.header,table.rows.filter fun row => !(filter.placed table.header).accepts row⟩ : Table) =
      table.deleted filter := by
  simp only [deleted,Filter.accepts_placed]

theorem length_deleted (table : Table) (filter : Filter) :
    (table.deleted filter).rows.length = table.rows.length - (table.holding filter).length := by
  have parts := List.length_eq_length_filter_add (l := table.rows)
    fun row => filter.holds (table.header.cell? row)
  simp only [deleted,holding]
  omega

theorem map_assign (rectangular : table.Rectangular)
    (known : ∀ a ∈ assignments, a.column ∈ table.header.columns) :
    (⟨table.header,table.rows.map fun row => if (filter.placed table.header).accepts row then
        Database.assign (table.header.placed assignments) row else row⟩ : Table) =
      table.updated assignments filter := by
  rw [updated]
  congr 1
  apply List.map_congr_left
  intro row member
  rw [Filter.accepts_placed,Header.assign_placed known (rectangular row member)]

theorem mapM_alignedRow (format : TableFormat) {header : Header} {fields : List String}
    {rows : List Row} (checked : header.checkFields [] fields = .ok ())
    (fits : ∀ row ∈ rows, row.length = fields.length) :
    rows.mapM (Database.alignedRow format header (header.fieldsPlaced fields)) =
      (rows.forM fun row => row.forM format.checkValue).map fun _ =>
        rows.map (header.aligned fields) :=
  mapM_eq_forM fun row member => Header.alignedRow_eq format checked (fits row member)

theorem rectangular_inserted (rectangular : table.Rectangular) (fields : List String)
    (rows : List Row) : (table.inserted fields rows).Rectangular := by
  intro row member
  rcases List.mem_append.mp member with member | member
  · exact rectangular row member
  · obtain ⟨values,-,rfl⟩ := List.mem_map.mp member
    exact Header.length_aligned table.header fields values

theorem rectangular_updated (rectangular : table.Rectangular) (assignments : List Assignment)
    (filter : Filter) : (table.updated assignments filter).Rectangular := by
  intro row member
  obtain ⟨old,inside,rfl⟩ := List.mem_map.mp member
  split
  · exact Header.length_overwritten assignments (rectangular old inside)
  · exact rectangular old inside

theorem rectangular_deleted (rectangular : table.Rectangular) (filter : Filter) :
    (table.deleted filter).Rectangular :=
  fun row member => rectangular row (List.mem_filter.mp member).1

end Table

end PlainTables
