import Mathlib.Data.List.Basic
import PlainTables.Answer.Layout

/-! Comma-separated values and back. A reader that knows nothing but quotes cuts the text at line feeds
and the lines at commas, both outside double quotes, and takes the quotes off a quoted cell. What is
written of records with the same columns, it reads as these columns and the rows: a written cell leaves
the reader outside quotes, whatever stands in it. -/
namespace PlainTables.Answer

variable {separator mark : Char} {quoted : Bool} {text rest cell : List Char}

/-! ### The reader -/

/-- The pieces of a text between the separators outside double quotes. A quote that is written twice
ends the quotes and opens them again, so nothing is cut between its two halves. -/
def piecesOutside (separator : Char) : Bool → List Char → List (List Char)
  | _, [] => [[]]
  | quoted, c :: rest =>
    if c = separator ∧ quoted = false then [] :: piecesOutside separator false rest
    else (piecesOutside separator (quoted ^^ c = '"') rest).modifyHead (c :: ·)

/-- Two quotes in a row stand for one. -/
def undoubled : List Char → List Char
  | '"' :: '"' :: rest => '"' :: undoubled rest
  | c :: rest => c :: undoubled rest
  | [] => []

/-- The cell that a piece of a line stands for. -/
def cellOfPiece (piece : List Char) : String :=
  match piece with
  | '"' :: rest => String.ofList (undoubled rest.dropLast)
  | _ => String.ofList piece

/-- The lines of a text with their cells. -/
def linesOfCells (text : String) : List (List String) :=
  (piecesOutside '\n' false text.toList).map fun line =>
    (piecesOutside ',' false line).map cellOfPiece

/-! ### Texts that the reader goes through -/

/-- From one side of the quotes to the other, a text has no separator where a separator counts. -/
def Goes (separator : Char) (text : List Char) (before after : Bool) : Prop :=
  ∀ rest, piecesOutside separator before (text ++ rest) =
    (piecesOutside separator after rest).modifyHead (text ++ ·)

namespace Goes

variable {before after later : Bool} {first second : List Char}

theorem nil (separator : Char) (quoted : Bool) : Goes separator [] quoted quoted := by
  intro rest
  rw [List.nil_append]
  cases piecesOutside separator quoted rest <;> rfl

theorem append (one : Goes separator first before after) (two : Goes separator second after later) :
    Goes separator (first ++ second) before later := by
  intro rest
  rw [List.append_assoc,one,two,List.modifyHead_modifyHead]
  congr 1
  funext piece
  simp

theorem char {c : Char} (stays : ¬(c = separator ∧ before = false)) :
    Goes separator [c] before (before ^^ c = '"') := by
  intro rest
  rw [List.singleton_append,piecesOutside,if_neg stays]
  rfl

/-- The whole text is one piece. -/
theorem single (goes : Goes separator text before after) :
    piecesOutside separator before text = [text] := by
  have whole := goes []
  rw [List.append_nil] at whole
  rw [whole,piecesOutside,List.modifyHead_cons,List.append_nil]

theorem cut (goes : Goes separator text before false) :
    piecesOutside separator before (text ++ separator :: rest) =
      text :: piecesOutside separator false rest := by
  rw [goes,piecesOutside,if_pos ⟨rfl,rfl⟩,List.modifyHead_cons,List.append_nil]

/-- No mark and no separator stands in the text. -/
theorem of_plain (quote : '"' ∉ text) (apart : separator ∉ text) :
    Goes separator text quoted quoted := by
  induction text with
  | nil => exact nil separator quoted
  | cons c rest ih =>
    rw [List.mem_cons,not_or] at quote apart
    have step : Goes separator [c] quoted (quoted ^^ c = '"') := char fun same => apart.1 same.1.symm
    rw [decide_eq_false (Ne.symm quote.1),Bool.xor_false] at step
    exact step.append (ih quote.2 apart.2)

end Goes

/-- Pieces that leave the reader outside quotes are found between their separators. -/
theorem piecesOutside_intercalate {pieces : List (List Char)} (some : pieces ≠ [])
    (goes : ∀ piece ∈ pieces, Goes separator piece false false) :
    piecesOutside separator false ([separator].intercalate pieces) = pieces := by
  induction pieces with
  | nil => exact absurd rfl some
  | cons piece later ih =>
    have here := goes piece List.mem_cons_self
    cases later with
    | nil => rw [List.intercalate_singleton,here.single]
    | cons next later =>
      rw [List.intercalate_cons_cons,List.append_assoc,List.singleton_append,here.cut,
        ih (List.cons_ne_nil _ _) fun other member => goes other (List.mem_cons_of_mem _ member)]

/-- So do such pieces with another mark between them. -/
theorem goes_intercalate {pieces : List (List Char)} (apart : mark ≠ separator) (plain : mark ≠ '"')
    (goes : ∀ piece ∈ pieces, Goes separator piece false false) :
    Goes separator ([mark].intercalate pieces) false false := by
  induction pieces with
  | nil => exact .nil separator false
  | cons piece later ih =>
    have here := goes piece List.mem_cons_self
    cases later with
    | nil => rwa [List.intercalate_singleton]
    | cons next later =>
      have between : Goes separator [mark] false false :=
        .of_plain (by simpa using plain.symm) (by simpa using apart.symm)
      rw [List.intercalate_cons_cons]
      exact (here.append between).append
        (ih fun other member => goes other (List.mem_cons_of_mem _ member))

/-! ### Cells as they are written -/

/-- A text with each quote written twice. -/
def doubled (text : List Char) : List Char :=
  text.flatMap fun c => if c = '"' then ['"','"'] else [c]

theorem quotedCell_eq (cell : String) :
    quotedCell cell = if needsQuotes cell then '"' :: doubled cell.toList ++ ['"'] else cell.toList :=
  rfl

theorem not_mem_of_not_needsQuotes {cell : String} (plain : needsQuotes cell = false) :
    ',' ∉ cell.toList ∧ '"' ∉ cell.toList ∧ '\n' ∉ cell.toList := by
  simp only [needsQuotes,List.any_eq_false,Bool.or_eq_true,decide_eq_true_eq,not_or] at plain
  refine ⟨?_,?_,?_⟩ <;> intro member
  · exact (plain _ member).1.1 rfl
  · exact (plain _ member).1.2 rfl
  · exact (plain _ member).2 rfl

/-- Inside quotes no separator counts, and a doubled quote comes back inside. -/
theorem goes_doubled (apart : separator ≠ '"') (text : List Char) :
    Goes separator (doubled text) true true := by
  induction text with
  | nil => exact .nil separator true
  | cons c rest ih =>
    have step : Goes separator (if c = '"' then ['"','"'] else [c]) true true := by
      split
      · have out : Goes separator ['"'] true false := .char (by simp)
        exact out.append (.char fun same => apart same.1.symm)
      · next other =>
        have stays : Goes separator [c] true (true ^^ c = '"') := .char (by simp)
        rwa [decide_eq_false other,Bool.xor_false] at stays
    exact step.append ih

theorem goes_quotedCell (counts : separator = ',' ∨ separator = '\n') (cell : String) :
    Goes separator (quotedCell cell) false false := by
  have apart : separator ≠ '"' := by
    rintro rfl
    simp at counts
  rw [quotedCell_eq]
  split
  · have opens : Goes separator ['"'] false true := .char fun same => apart same.1.symm
    exact (opens.append (goes_doubled apart cell.toList)).append (.char (by simp))
  · next plain =>
    obtain ⟨comma,quote,feed⟩ := not_mem_of_not_needsQuotes (by simpa using plain)
    rcases counts with rfl | rfl
    · exact .of_plain quote comma
    · exact .of_plain quote feed

theorem undoubled_doubled (text : List Char) : undoubled (doubled text) = text := by
  induction text with
  | nil => rfl
  | cons c rest ih =>
    rw [doubled,List.flatMap_cons,← doubled]
    by_cases quote : c = '"'
    · rw [if_pos quote,quote,List.cons_append,List.singleton_append,undoubled,ih]
    · rw [if_neg quote,List.singleton_append,undoubled,ih]
      rintro _ rfl
      exact absurd rfl quote

theorem cellOfPiece_quotedCell (cell : String) : cellOfPiece (quotedCell cell) = cell := by
  rw [quotedCell_eq]
  split
  · rw [List.cons_append,cellOfPiece,List.dropLast_concat,undoubled_doubled,String.ofList_toList]
  · next plain =>
    obtain ⟨-,quote,-⟩ := not_mem_of_not_needsQuotes (by simpa using plain)
    unfold cellOfPiece
    split
    · next begins => exact absurd (by simp [begins]) quote
    · exact String.ofList_toList

/-! ### Lines and records -/

theorem cells_commaLine {cells : List String} (some : cells ≠ []) :
    (piecesOutside ',' false (commaLine cells)).map cellOfPiece = cells := by
  have goes : ∀ piece ∈ cells.map quotedCell, Goes ',' piece false false := by
    intro piece member
    obtain ⟨cell,-,rfl⟩ := List.mem_map.mp member
    exact goes_quotedCell (.inl rfl) cell
  rw [commaLine,piecesOutside_intercalate (by simpa using some) goes,List.map_map]
  exact List.map_id'' cellOfPiece_quotedCell cells

theorem goes_commaLine (cells : List String) : Goes '\n' (commaLine cells) false false := by
  refine goes_intercalate (by decide) (by decide) fun piece member => ?_
  obtain ⟨cell,-,rfl⟩ := List.mem_map.mp member
  exact goes_quotedCell (.inr rfl) cell

/-- At least one record, each with the same columns, of which there is at least one. -/
structure Uniform (columns : List String) (records : List Record) : Prop where
  columns_ne_nil : columns ≠ []
  records_ne_nil : records ≠ []
  same : ∀ record ∈ records, record.columns = columns

variable {columns : List String} {records : List Record}

theorem Uniform.commaSeparated_eq (uniform : Uniform columns records) :
    commaSeparated records = String.ofList (['\n'].intercalate
      ((columns :: records.map Record.values).map commaLine)) := by
  obtain ⟨first,later,rfl⟩ := List.exists_cons_of_ne_nil uniform.records_ne_nil
  rw [commaSeparated,uniform.same first List.mem_cons_self,List.map_cons (f := commaLine),List.map_map]
  rfl

theorem Uniform.linesOfCells_commaSeparated (uniform : Uniform columns records) :
    linesOfCells (commaSeparated records) = columns :: records.map Record.values := by
  have filled : ∀ cells ∈ columns :: records.map Record.values, cells ≠ [] := by
    intro cells member
    rcases List.mem_cons.mp member with rfl | member
    · exact uniform.columns_ne_nil
    · obtain ⟨record,inside,rfl⟩ := List.mem_map.mp member
      have columns := uniform.columns_ne_nil
      rw [← uniform.same record inside] at columns
      simpa [Record.columns,Record.values] using columns
  have goes : ∀ line ∈ (columns :: records.map Record.values).map commaLine,
      Goes '\n' line false false := by
    intro line member
    obtain ⟨cells,-,rfl⟩ := List.mem_map.mp member
    exact goes_commaLine cells
  have lines := piecesOutside_intercalate (by simp) goes
  rw [linesOfCells,uniform.commaSeparated_eq,String.toList_ofList,lines,List.map_map]
  conv => rhs; rw [← List.map_id (columns :: records.map Record.values)]
  exact List.map_congr_left fun cells member => cells_commaLine (filled cells member)

/-- A record is its columns with its values. -/
theorem zip_columns_values (record : Record) : record.columns.zip record.values = record := by
  rw [Record.columns,Record.values,List.zip_map']
  exact List.map_id record

/-- Nothing of uniform records is lost in their comma-separated text: it is read as their columns and
their rows, and no other uniform records have it. -/
theorem commaSeparated_lossless (columns : List String) (records : List Record)
    (uniform : Uniform columns records) :
    linesOfCells (commaSeparated records) = columns :: records.map Record.values ∧
      ∀ (others : List String) (found : List Record), Uniform others found →
        commaSeparated found = commaSeparated records → found = records := by
  have read := uniform.linesOfCells_commaSeparated
  refine ⟨read,fun others found uniform' same => ?_⟩
  have read' := uniform'.linesOfCells_commaSeparated
  rw [same,read] at read'
  obtain ⟨rfl,values⟩ := List.cons.inj read'
  have rebuilt {list : List Record} (all : Uniform columns list) :
      (list.map Record.values).map columns.zip = list := by
    rw [List.map_map]
    conv => rhs; rw [← List.map_id list]
    refine List.map_congr_left fun record member => ?_
    rw [Function.comp_apply,← all.same record member,zip_columns_values,id]
  rw [← rebuilt uniform',← values,rebuilt uniform]

/-- A name and cells that need quotes beside cells that are blank. -/
def marked : List Record :=
  [[("a,\"b\"","\""),("c","")],[("a,\"b\"",""),("c","x\n,")]]

theorem marked_lossless :
    Uniform ["a,\"b\"","c"] marked ∧
      commaSeparated marked = "\"a,\"\"b\"\"\",c\n\"\"\"\",\n,\"x\n,\"" ∧
      linesOfCells "\"a,\"\"b\"\"\",c\n\"\"\"\",\n,\"x\n,\"" = [["a,\"b\"","c"],["\"",""],["","x\n,"]] := by
  have written : commaSeparated marked = "\"a,\"\"b\"\"\",c\n\"\"\"\",\n,\"x\n,\"" := by decide
  have uniform : Uniform ["a,\"b\"","c"] marked := ⟨by decide,by decide,by decide⟩
  obtain ⟨read,-⟩ := commaSeparated_lossless _ marked uniform
  exact ⟨uniform,written,written ▸ read⟩

end PlainTables.Answer
