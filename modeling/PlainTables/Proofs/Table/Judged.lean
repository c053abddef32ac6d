import PlainTables.Proofs.Table.ByName
import PlainTables.Proofs.Table.Format
import PlainTables.Proofs.Text.Bytes

/-! What every text is as a table. A text is refused for its first defect only: a repeated column, or
the first line that has another number of cells than the header and is not passed over. Main
statement: the reader gives a table or a fault exactly where the rules of table texts do. -/
namespace PlainTables

open Actions

/-! ### Lines and columns -/

namespace Text

theorem linesOf_eq_nil {α : Type} [DecidableEq α] {feed ret : α} {text : List α} :
    linesOf feed ret text = [] ↔ text = [] := by
  constructor
  · intro none
    by_contra nonempty
    by_cases closed : text.getLast? = some feed
    · obtain ⟨start,rfl⟩ := List.getLast?_eq_some_iff.mp closed
      simp [linesOf_append_feed,List.splitOn_ne_nil] at none
    · obtain ⟨before,last,lines,-⟩ := linesOf_close ret nonempty closed
      simp [lines] at none
  · rintro rfl
    exact linesOf_nil feed ret

theorem lines_eq_nil {text : String} : lines text = [] ↔ text = "" := by
  rw [lines,List.map_eq_nil_iff,linesOf_eq_nil,String.toList_eq_nil_iff]

end Text

namespace Header

theorem firstRepeated?_eq_some {seen names : List String} {name : String} :
    firstRepeated? seen names = some name ↔ ∃ before after, names = before ++ name :: after ∧
      (name ∈ seen ∨ name ∈ before) ∧ before.Nodup ∧ ∀ other ∈ before, other ∉ seen := by
  induction names generalizing seen with
  | nil => simp [firstRepeated?]
  | cons first later ih =>
    rw [firstRepeated?]
    split
    · next repeated =>
      constructor
      · rintro ⟨⟩
        exact ⟨[],later,rfl,.inl repeated,.nil,by simp⟩
      · rintro ⟨before,after,split,-,-,fresh⟩
        cases before with
        | nil => rw [(List.cons.inj split).1]
        | cons other before =>
          obtain ⟨rfl,-⟩ := List.cons.inj split
          exact absurd repeated (fresh _ List.mem_cons_self)
    · next fresh =>
      rw [ih]
      constructor
      · rintro ⟨before,after,rfl,found,nodup,apart⟩
        refine ⟨first :: before,after,rfl,?_,List.nodup_cons.mpr ⟨?_,nodup⟩,?_⟩
        · simp only [List.mem_cons] at found ⊢
          tauto
        · exact fun member => apart first member List.mem_cons_self
        · refine List.forall_mem_cons.mpr ⟨fresh,fun other member => ?_⟩
          exact fun old => apart other member (List.mem_cons_of_mem _ old)
      · rintro ⟨before,after,split,found,nodup,apart⟩
        cases before with
        | nil =>
          obtain ⟨rfl,-⟩ := List.cons.inj split
          simp [fresh] at found
        | cons other before =>
          obtain ⟨rfl,rfl⟩ := List.cons.inj split
          obtain ⟨new,nodup⟩ := List.nodup_cons.mp nodup
          refine ⟨before,after,rfl,?_,nodup,fun other member => ?_⟩
          · simp only [List.mem_cons] at found ⊢
            tauto
          · rw [List.mem_cons,not_or]
            exact ⟨fun same => new (same ▸ member),apart other (List.mem_cons_of_mem _ member)⟩

/-- The name that a header is refused for is the first one that stands before itself. -/
theorem ofColumns_eq_error {columns : List String} {name : String} :
    ofColumns columns = .error name ↔
      ∃ before after, columns = before ++ name :: after ∧ name ∈ before ∧ before.Nodup := by
  have first := @firstRepeated?_eq_some [] columns name
  simp only [List.not_mem_nil,false_or,not_false_eq_true,implies_true,and_true] at first
  rw [← first]
  unfold ofColumns
  split
  · next other found => rw [Except.error.injEq,found,Option.some.injEq]
  · next none => simp [none]

end Header

/-! ### The rules -/

namespace TableFormat

/-- A line that is passed over: a blank one, where there is more than one column. -/
def PassedOver (width : Nat) (line : String) : Prop := line = "" ∧ 1 < width

instance (width : Nat) (line : String) : Decidable (PassedOver width line) :=
  inferInstanceAs (Decidable (_ ∧ _))

/-- A line that is neither passed over nor a row, and the first such line of those after the header. -/
structure Misfit (format : TableFormat) (width : Nat) (before : List String) (line : String) :
    Prop where
  earliest : ∀ other ∈ before,
    PassedOver width other ∨ (format.cellsOfLine other).length = width
  counts : ¬PassedOver width line
  differs : (format.cellsOfLine line).length ≠ width

/-- What the lines of a text are as a table, or why they are none. -/
inductive Judged (format : TableFormat) (name : String) :
    List String → Except Fault Table → Prop
  | missingHeader : Judged format name [] (.error (.malformedTable name 1 .missingHeader))
  /-- The header has a cell that is equal to one before it; the earliest such cell counts. -/
  | repeatedColumn {first : String} {later before after : List String} {column : String}
    (cells : format.cellsOfLine first = before ++ column :: after) (repeated : column ∈ before)
    (earliest : before.Nodup) :
    Judged format name (first :: later)
      (.error (.malformedTable name 1 (.repeatedColumn column)))
  /-- Lines are counted from one, those that are passed over among them. -/
  | rowWidth {header : Header} {first line : String} {before after : List String}
    (cells : format.cellsOfLine first = header.columns)
    (misfit : Misfit format header.width before line) :
    Judged format name (first :: (before ++ line :: after))
      (.error (.malformedTable name (before.length + 2)
        (.rowWidth header.width (format.cellsOfLine line).length)))
  | table {table : Table} {first : String} {later : List String}
    (cells : format.cellsOfLine first = table.header.columns)
    (rows : table.rows =
      (later.filter fun line => ¬PassedOver table.header.width line).map format.cellsOfLine)
    (widths : table.Rectangular) :
    Judged format name (first :: later) (.ok table)

variable {format : TableFormat} {name : String} {header : Header}

theorem width_pos {first : String} (cells : format.cellsOfLine first = header.columns) :
    0 < header.width := by
  rw [Header.width,← cells]
  exact List.length_pos_iff.mpr (cellsOfLine_ne_nil format first)

theorem passedOver_iff {width : Nat} (filled : 0 < width) {line : String} :
    PassedOver width line ↔ line = "" ∧ width ≠ 1 := by
  unfold PassedOver
  exact and_congr_right fun _ => by omega

theorem rowLines_eq {width : Nat} (filled : 0 < width) (lines : List String) :
    rowLines width lines = lines.filter fun line => ¬PassedOver width line := by
  apply List.filter_congr
  intro line _
  simp only [passedOver_iff filled,not_and,not_not,imp_iff_not_or]
  simp

theorem Misfit.cons {width : Nat} {before : List String} {line first : String}
    (misfit : Misfit format width before line)
    (fits : PassedOver width first ∨ (format.cellsOfLine first).length = width) :
    Misfit format width (first :: before) line :=
  ⟨List.forall_mem_cons.mpr ⟨fits,misfit.earliest⟩,misfit.counts,misfit.differs⟩

theorem Misfit.tail {width : Nat} {before : List String} {line first : String}
    (misfit : Misfit format width (first :: before) line) : Misfit format width before line :=
  ⟨(List.forall_mem_cons.mp misfit.earliest).2,misfit.counts,misfit.differs⟩

/-- The first misfit decides the fault. -/
theorem rowsOfLines_eq_error {width number : Nat} (filled : 0 < width) {lines : List String}
    {fault : Fault} :
    format.rowsOfLines name width number (lines.map some) = .error fault ↔
      ∃ before line after, lines = before ++ line :: after ∧ Misfit format width before line ∧
        fault = .malformedTable name (number + before.length)
          (.rowWidth width (format.cellsOfLine line).length) := by
  induction lines generalizing number with
  | nil => simp [rowsOfLines]
  | cons first later ih =>
    -- after a line that is taken, the misfit has one more line before it
    have taken (fits : PassedOver width first ∨ (format.cellsOfLine first).length = width) :
        format.rowsOfLines name width (number + 1) (later.map some) = .error fault ↔
          ∃ before line after, first :: later = before ++ line :: after ∧
            Misfit format width before line ∧
            fault = .malformedTable name (number + before.length)
              (.rowWidth width (format.cellsOfLine line).length) := by
      rw [ih]
      constructor
      · rintro ⟨before,line,after,rfl,misfit,rfl⟩
        refine ⟨first :: before,line,after,rfl,misfit.cons fits,?_⟩
        rw [List.length_cons,Nat.add_right_comm,Nat.add_assoc]
      · rintro ⟨before,line,after,split,misfit,rfl⟩
        cases before with
        | nil =>
          obtain ⟨rfl,-⟩ := List.cons.inj split
          exact absurd fits (not_or.mpr ⟨misfit.counts,misfit.differs⟩)
        | cons other before =>
          obtain ⟨rfl,rfl⟩ := List.cons.inj split
          refine ⟨before,line,after,rfl,misfit.tail,?_⟩
          rw [List.length_cons,Nat.add_right_comm,Nat.add_assoc]
    rw [List.map_cons,rowsOfLines]
    simp only [← passedOver_iff filled]
    split
    · next passed => exact taken (.inl passed)
    · next counts =>
      split
      · next fits =>
        rw [← taken (.inr fits),check_eq_error]
        simp
      · next differs =>
        constructor
        · rintro ⟨⟩
          exact ⟨[],first,later,rfl,⟨by simp,counts,differs⟩,rfl⟩
        · rintro ⟨before,line,after,split,misfit,rfl⟩
          cases before with
          | nil =>
            obtain ⟨rfl,-⟩ := List.cons.inj split
            rfl
          | cons other before =>
            obtain ⟨rfl,-⟩ := List.cons.inj split
            exact absurd (misfit.earliest _ List.mem_cons_self) (not_or.mpr ⟨counts,differs⟩)

/-! ### The reader -/

theorem judged_tableOfLines (format : TableFormat) (name : String) (lines : List String) :
    Judged format name lines (format.tableOfLines name (lines.map some)) := by
  cases lines with
  | nil => exact .missingHeader
  | cons first later =>
    rw [List.map_cons,tableOfLines]
    cases made : Header.ofColumns (format.cellsOfLine first) with
    | error column =>
      obtain ⟨before,after,cells,repeated,earliest⟩ := Header.ofColumns_eq_error.mp made
      exact .repeatedColumn cells repeated earliest
    | ok header =>
      have cells := (Header.ofColumns_eq_ok.mp made).symm
      have filled := width_pos cells
      dsimp only
      cases read : format.rowsOfLines name header.width 2 (later.map some) with
      | error fault =>
        obtain ⟨before,line,after,rfl,misfit,rfl⟩ := (rowsOfLines_eq_error filled).mp read
        rw [Nat.add_comm]
        exact .rowWidth cells misfit
      | ok rows =>
        obtain ⟨same,widths⟩ := rowsOfLines_eq_ok.mp read
        rw [rowLines_eq filled] at same
        exact .table cells same widths

theorem tableOfLines_of_judged {lines : List String} {outcome : Except Fault Table}
    (judged : Judged format name lines outcome) :
    format.tableOfLines name (lines.map some) = outcome := by
  cases judged with
  | missingHeader => rfl
  | repeatedColumn cells repeated earliest =>
    have made := Header.ofColumns_eq_error.mpr ⟨_,_,cells,repeated,earliest⟩
    rw [List.map_cons,tableOfLines,made]
  | @rowWidth header first line before after cells misfit =>
    have made := Header.ofColumns_eq_ok.mpr cells.symm
    rw [List.map_cons,tableOfLines,made]
    dsimp only
    rw [(rowsOfLines_eq_error (width_pos cells)).mpr ⟨before,line,after,rfl,misfit,rfl⟩,Nat.add_comm]
    rfl
  | table cells rows widths =>
    rw [← rowLines_eq (width_pos cells)] at rows
    exact tableOfLines_eq_ok.mpr ⟨_,_,rfl,cells,rows,widths⟩

theorem Judged.rectangular {lines : List String} {table : Table}
    (judged : Judged format name lines (.ok table)) : table.Rectangular := by
  cases judged with
  | table _ _ widths => exact widths

theorem message_malformedTable (name : String) (line : Nat) (defect : TableDefect) :
    (Fault.malformedTable name line defect).message =
      "Malformed table " ++ name ++ " at line " ++ toString line ++ ": " ++ defect.message := by
  have parts : (Fault.malformedTable name line defect).message =
      "Malformed table " ++ (name ++ " at line " ++ toString line ++ ": " ++ defect.message) ++ "" :=
    rfl
  rw [parts,String.append_empty]
  simp only [← String.append_assoc]

/-- The bytes of a text are a table, or none for one defect that is named with its line, as the rules
of its lines say. The columns of a table have places, and the places have their columns. -/
theorem tableOfBytes_judged (format : TableFormat) (name text : String) :
    (∀ outcome, format.tableOfBytes name text.toUTF8 = outcome ↔
      Judged format name (Text.lines text) outcome) ∧
    (Text.lines text = [] ↔ text = "") ∧
    (∀ table, format.tableOfBytes name text.toUTF8 = .ok table →
      table.header.columns.Nodup ∧ table.Rectangular ∧
        ∀ column place, table.header.index? column = some place ↔
          table.header.columns[place]? = some column) ∧
    (∀ line column, (Fault.malformedTable name line (.repeatedColumn column)).message =
      "Malformed table " ++ name ++ " at line " ++ toString line ++ ": " ++
        ("duplicate column " ++ column)) ∧
    ∀ line expected found, (Fault.malformedTable name line (.rowWidth expected found)).message =
      "Malformed table " ++ name ++ " at line " ++ toString line ++ ": " ++
        ("expected " ++ toString expected ++ " cells, found " ++ toString found) := by
  have judged := judged_tableOfLines format name (Text.lines text)
  rw [tableOfBytes_toUTF8,tableOfText]
  refine ⟨fun outcome => ⟨?_,tableOfLines_of_judged⟩,Text.lines_eq_nil,fun table read => ?_,
    fun line _ => message_malformedTable name line _,fun line _ _ => message_malformedTable name line _⟩
  · rintro rfl
    exact judged
  · rw [read] at judged
    exact ⟨table.header.distinct,judged.rectangular,fun column place => Header.index?_eq_some⟩

/-- Blank lines are counted, though a table of two columns has no row for them; a carriage return
before another one is a part of a cell. -/
theorem marked_text_judged :
    comma.tableOfBytes "t" "a,b\r\n\n1,2\r\n\n3\n4,5,6\n".toUTF8 =
        .error (.malformedTable "t" 5 (.rowWidth 2 1)) ∧
      comma.tableOfBytes "t" "a,b\n\n,\r\r\n".toUTF8 =
        .ok ⟨⟨["a","b"],by decide⟩,[["","\r"]]⟩ ∧
      Header.index? ⟨["a","b"],by decide⟩ "b" = some 1 := by
  have header : comma.cellsOfLine "a,b" = (⟨["a","b"],by decide⟩ : Header).columns := by
    decide +kernel
  have short : Text.lines "a,b\r\n\n1,2\r\n\n3\n4,5,6\n" =
      "a,b" :: (["","1,2",""] ++ "3" :: ["4,5,6"]) := by decide +kernel
  have misfit : Misfit comma 2 ["","1,2",""] "3" := by
    constructor <;> decide +kernel
  have lines : Text.lines "a,b\n\n,\r\r\n" = ["a,b","",",\r"] := by decide +kernel
  have widths : ∀ row ∈ [["","\r"]], row.length = 2 := by decide
  have read : comma.tableOfBytes "t" "a,b\n\n,\r\r\n".toUTF8 =
      .ok ⟨⟨["a","b"],by decide⟩,[["","\r"]]⟩ := by
    apply ((tableOfBytes_judged comma "t" "a,b\n\n,\r\r\n").1 _).mpr
    rw [lines]
    exact .table header (by decide +kernel) widths
  refine ⟨?_,read,?_⟩
  · apply ((tableOfBytes_judged comma "t" "a,b\r\n\n1,2\r\n\n3\n4,5,6\n").1 _).mpr
    rw [short]
    exact .rowWidth header misfit
  · obtain ⟨-,-,places⟩ := (tableOfBytes_judged comma "t" "a,b\n\n,\r\r\n").2.2.1 _ read
    exact (places "b" 1).mpr rfl

end TableFormat
end PlainTables
