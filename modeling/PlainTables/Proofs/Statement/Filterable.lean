import PlainTables.Proofs.Files.Placed
import PlainTables.Proofs.Number.Integer
import PlainTables.Proofs.Statement.Written
import PlainTables.Proofs.Token.Places
import PlainTables.Proofs.Token.Spelled

/-! The columns that can stand in a condition. A column of a CREATE TABLE is any word, quoted or not; a
column of a condition is a name in the text. Main statement: of the columns that can be created, all but
the reserved words can be compared in a condition. -/
namespace PlainTables

namespace Token

open Unicode (isWordChar)

variable {text : List Char} {s : String} {ts : List Token}

/-! ### Names in a text -/

theorem Scans.ofWord_name (scans : Scans text ts) (member : .name s ∈ ts) : ofWord s.toList = .name s := by
  induction scans with
  | done => cases member
  | @step c rest w ts ends _ ih =>
    rcases List.mem_append.mp member with here | later
    · cases found : front c rest with
      | token t width =>
        rw [found,Front.tokens,List.mem_singleton] at here
        subst here
        rcases front_token found with ⟨word,-,same,-⟩ | ⟨none,-⟩
        · have bare : (ofWord word).bare? = some s := by rw [← same]; rfl
          rw [toList_of_ofWord bare,same]
        · cases none
      | skipped | unexpected | openComment =>
        rw [found] at here
        cases here
    · exact ih later

/-- A valid name is one word, and not digits alone. -/
theorem word_of_valid {name : String} (valid : Name.isValid name = true) : name.toList ≠ [] ∧
    (∀ c ∈ name.toList, isWordChar c = true) ∧ name.toList.all Char.isDigit = false := by
  obtain ⟨first,later,split,letter,words⟩ := Name.toList_of_valid valid
  have digit : first.isDigit = false := by
    by_contra digit
    rw [Bool.not_eq_false] at digit
    have low : first.toNat < 128 := by
      have bounds := toNat_of_isDigit digit
      omega
    rw [Unicode.isAlphabetic_ascii low] at letter
    rw [isDigit_of_isAlpha letter] at digit
    cases digit
  rw [split]
  exact ⟨by simp,List.forall_mem_cons.mpr ⟨by simp [isWordChar,Unicode.isAlphanumeric,letter],words⟩,
    by simp [digit]⟩

/-- A valid name that is no reserved word is read as a name. -/
theorem isPlainName_of_valid {name : String} (valid : Name.isValid name = true)
    (free : isReserved name.toList = false) : IsPlainName name.toList := by
  obtain ⟨filled,word,digits⟩ := word_of_valid valid
  refine ⟨filled,List.all_eq_true.mpr word,digits,?_⟩
  simp only [isReserved,ofWord_eq word digits] at free
  cases found : Keyword.ofWord? name.toList with
  | none => rfl
  | some k => simp [found] at free

end Token

namespace Statement

open Phrase (ending)

variable {text name column : String} {columns : List String}

/-! ### Columns that are created and columns that are compared -/

/-- Some text is read as a SELECT whose only comparison is one of the column. -/
def Filterable (column : String) : Prop :=
  ∃ text table fields filter, parse text = .ok (.read table fields filter) ∧
    filter.clauses.map Clause.column = [column]

theorem not_reserved_of_filterable (filterable : Filterable column) :
    Token.isReserved column.toList = false := by
  obtain ⟨text,table,fields,filter,parsed,only⟩ := filterable
  obtain ⟨_,scanned,words,spelled,rfl⟩ := parse_eq_ok.mp parsed
  obtain ⟨compared,inside,rfl⟩ : ∃ c ∈ filter.clauses, c.column = column := by
    simpa [only] using List.mem_map (f := Clause.column) (l := filter.clauses) (b := column)
  have written : .name compared.column ∈ words := spelled.name_mem compared inside
  have member : .name compared.column ∈ (words ++ ending).dropLast := by simp [ending,written]
  have word := (Token.scans_of_tokens scanned).2.ofWord_name member
  simp [Token.isReserved,word]

theorem filterable_of_valid (valid : Name.isValid column = true)
    (free : Token.isReserved column.toList = false) : Filterable column := by
  have proper : (Statement.read "t" ["*"] ⟨[⟨column,.eq,""⟩],[]⟩).Proper :=
    ⟨by decide,by simp,.inr rfl⟩
  have plain : (Statement.read "t" ["*"] ⟨[⟨column,.eq,""⟩],[]⟩).filter.PlainColumns := by
    simpa [filter,Filter.PlainColumns] using Token.isPlainName_of_valid valid free
  exact ⟨_,_,_,_,parse_text proper plain,rfl⟩

/-- A reserved word between quotes is a column like any other, and no condition can compare it. -/
theorem select_created_not_filterable :
    parse "CREATE TABLE t ('select');" = .ok (.createTable "t" ["select"]) ∧ ¬Filterable "select" := by
  refine ⟨by decide +kernel,fun filterable => ?_⟩
  have reserved : Token.isReserved "select".toList = true := by decide +kernel
  cases reserved.symm.trans (not_reserved_of_filterable filterable)

/-- Of the columns of a CREATE TABLE that is read, those that a condition can compare are exactly the
ones that are no reserved words. -/
theorem filterable_iff_not_reserved (parsed : parse text = .ok (.createTable name columns)) :
    ∀ column ∈ columns, Filterable column ↔ Token.isReserved column.toList = false := by
  obtain ⟨-,-,valid⟩ := proper_of_parse parsed
  exact fun column member => ⟨not_reserved_of_filterable,filterable_of_valid (valid column member)⟩

/-- Columns with and without quotes, one of them a reserved word. -/
def mixedCreate : String := "CREATE TABLE t (Größe, '数量', \"Order\");"

theorem mixedCreate_filterable :
    parse mixedCreate = .ok (.createTable "t" ["Größe","数量","Order"]) ∧
      Filterable "Größe" ∧ Filterable "数量" ∧ ¬Filterable "Order" := by
  have parsed : parse mixedCreate = .ok (.createTable "t" ["Größe","数量","Order"]) := by
    decide +kernel
  have reserved : Token.isReserved "Order".toList = true := by decide +kernel
  refine ⟨parsed,?_,?_,fun filterable => ?_⟩
  · exact (filterable_iff_not_reserved parsed _ (by simp)).mpr (by decide +kernel)
  · exact (filterable_iff_not_reserved parsed _ (by simp)).mpr (by decide +kernel)
  · cases reserved.symm.trans ((filterable_iff_not_reserved parsed _ (by simp)).mp filterable)

end Statement
end PlainTables
