/-! Headers: the column names of a table, in order and without repetition. -/
namespace PlainTables

structure Header where
  columns : List String
  distinct : columns.Nodup
  deriving DecidableEq, Repr

namespace Header

/-- The first name that occurs before itself, given the names before the list. -/
def firstRepeated? (seen : List String) : List String → Option String
  | [] => none
  | name :: later => if name ∈ seen then some name else firstRepeated? (name :: seen) later

theorem nodup_of_firstRepeated? {seen names : List String}
    (h : firstRepeated? seen names = none) : names.Nodup ∧ ∀ name ∈ names, name ∉ seen := by
  induction names generalizing seen with
  | nil => simp
  | cons name later ih =>
    simp only [firstRepeated?] at h
    split at h
    · simp at h
    · next fresh =>
      obtain ⟨nodup, apart⟩ := ih h
      refine ⟨List.nodup_cons.mpr ⟨fun mem => apart name mem (by simp), nodup⟩, ?_⟩
      intro other mem
      rcases List.mem_cons.mp mem with rfl | mem
      · exact fresh
      · exact fun seenBefore => apart other mem (by simp [seenBefore])

/-- A header, or the first repeated name. -/
def ofColumns (columns : List String) : Except String Header :=
  match h : firstRepeated? [] columns with
  | some name => .error name
  | none => .ok ⟨columns, (nodup_of_firstRepeated? h).1⟩

def index? (header : Header) (name : String) : Option Nat := header.columns.idxOf? name

def width (header : Header) : Nat := header.columns.length

/-- A row with every cell empty. -/
def emptyRow (header : Header) : List String := List.replicate header.width ""

@[simp] theorem length_emptyRow (header : Header) :
    header.emptyRow.length = header.width := by
  simp [emptyRow]

end Header
end PlainTables
