import PlainTables.Unicode.Blank

/-! Blanks at the ends of a text and between its words. -/
namespace PlainTables.Text

open Unicode (isBlank)

def trimStart (text : List Char) : List Char := text.dropWhile isBlank

/-- Recursion on the text: a character stays if it is no blank or something after it stays. -/
def trimEnd : List Char → List Char
  | [] => []
  | c :: rest =>
    match trimEnd rest with
    | [] => if isBlank c then [] else [c]
    | kept => c :: kept

def trim (text : List Char) : List Char := trimEnd (trimStart text)

/-- The maximal runs of characters that are not blank. -/
def words (text : List Char) : List (List Char) :=
  (text.splitOnP isBlank).filter (fun piece => !piece.isEmpty)

@[simp] theorem trimEnd_nil : trimEnd [] = [] := rfl

theorem trimEnd_cons (c : Char) (rest : List Char) :
    trimEnd (c :: rest) =
      if trimEnd rest = [] then (if isBlank c then [] else [c]) else c :: trimEnd rest := by
  cases h : trimEnd rest <;> simp [trimEnd, h]

/-- Trimming removes a run of blanks and nothing else. -/
theorem trimEnd_append (text : List Char) :
    ∃ blanks, text = trimEnd text ++ blanks ∧ ∀ c ∈ blanks, isBlank c = true := by
  induction text with
  | nil => exact ⟨[], rfl, by simp⟩
  | cons c rest ih =>
    obtain ⟨blanks, split, all⟩ := ih
    rw [trimEnd_cons]
    by_cases empty : trimEnd rest = []
    · by_cases blank : isBlank c = true
      · refine ⟨c :: blanks, ?_, by simp [blank]; exact all⟩
        rw [empty, List.nil_append] at split
        simp [empty, blank, ← split]
      · refine ⟨blanks, ?_, all⟩
        rw [empty, List.nil_append] at split
        simp [empty, blank, ← split]
    · exact ⟨blanks, by simp [empty, ← split], all⟩

/-- The text without the blanks at its two ends. -/
def trimmed (text : String) : String := String.ofList (trim text.toList)

end PlainTables.Text
