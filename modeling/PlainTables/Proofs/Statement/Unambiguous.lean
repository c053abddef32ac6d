import PlainTables.Proofs.Statement.Grammar

/-! The order in which forms are tried. Main statement: no token list is a statement in two forms, so
another order can refuse a statement and never read a different one. -/
namespace PlainTables.Statement

variable {tokens : List Token} {statement other : Statement} {form form' : Form} {forms : List Form}
  {text : String}

/-- Reads a statement as `parse` does, with the given forms in the given order. -/
def parseBy (forms : List Form) (text : String) : Except Fault Statement :=
  match Token.tokens text with
  | .ok tokens =>
    match firstOf forms tokens with
    | some result => result
    | none => .error (.noSuchStatement (Text.trimmed text))
  | .error cause => .error (.unscannable cause)

theorem parseBy_all : parseBy Form.all text = parse text := rfl

/-- The first form that applies reads what any form reads. -/
theorem firstOf_of_form (read : form.statement? tokens = some (.ok statement)) :
    firstOf Form.all tokens = some (.ok statement) :=
  firstOf_eq_ok.mpr (spelled_of_form read).1

theorem form_unique (read : form.statement? tokens = some (.ok statement))
    (read' : form'.statement? tokens = some (.ok other)) : form = form' := by
  have same : some (Except.ok (ε := Fault) statement) = some (.ok other) :=
    (firstOf_of_form read).symm.trans (firstOf_of_form read')
  cases same
  exact (spelled_of_form read).2.symm.trans (spelled_of_form read').2

theorem parseBy_eq_ok : parseBy forms text = .ok statement ↔ ∃ tokens,
    Token.tokens text = .ok tokens ∧ firstOf forms tokens = some (.ok statement) := by
  unfold parseBy
  cases Token.tokens text with
  | error cause => simp
  | ok tokens => cases found : firstOf forms tokens <;> simp [found]

theorem parse_of_parseBy (read : parseBy forms text = .ok statement) : parse text = .ok statement := by
  obtain ⟨tokens,scanned,first⟩ := parseBy_eq_ok.mp read
  obtain ⟨form,-,applies⟩ := List.exists_of_findSome?_eq_some first
  rw [← parseBy_all]
  exact parseBy_eq_ok.mpr ⟨tokens,scanned,firstOf_of_form applies⟩

/-- At most one form reads a statement from given tokens, and none does if the first that applies finds
a fault. So whichever forms are tried and in whichever order, the statement read is the one `parse`
reads, and two orders that disagree differ in a fault. -/
theorem forms_unambiguous :
    (∀ tokens (form form' : Form) statement other, form.statement? tokens = some (.ok statement) →
      form'.statement? tokens = some (.ok other) → form = form') ∧
    (∀ tokens fault, firstOf Form.all tokens = some (.error fault) →
      ∀ (form : Form) statement, form.statement? tokens ≠ some (.ok statement)) ∧
    (∀ forms text statement, parseBy forms text = .ok statement → parse text = .ok statement) ∧
    ∀ forms forms' text, parseBy forms text ≠ parseBy forms' text →
      (∃ fault, parseBy forms text = .error fault) ∨ ∃ fault, parseBy forms' text = .error fault := by
  refine ⟨fun _ _ _ _ _ => form_unique,?_,fun _ _ _ => parse_of_parseBy,?_⟩
  · intro tokens fault refused form statement read
    cases refused.symm.trans (firstOf_of_form read)
  · intro forms forms' text differ
    cases read : parseBy forms text with
    | error fault => exact .inl ⟨fault,rfl⟩
    | ok statement =>
      cases read' : parseBy forms' text with
      | error fault => exact .inr ⟨fault,rfl⟩
      | ok other =>
        have same := (parse_of_parseBy read).symm.trans (parse_of_parseBy read')
        exact absurd (read.trans (same.trans read'.symm)) differ

def sortedRead : String := "SELECT a FROM t WHERE b = 1 ORDER BY c;"

def unnamedDrop : List Token :=
  [.keyword .drop,.keyword .table,.quoted "",.semicolon,.endOfInput]

/-- Both forms with a condition apply to the sorted read: tried first, the ordered one reads it, and the
other one takes ORDER BY into its condition and refuses it. -/
theorem forms_unambiguous_sorted :
    parse sortedRead = .ok (.readOrdered "t" ["a"] ⟨[⟨"b",.eq,"1"⟩],[]⟩ ⟨"c",true⟩) ∧
      (∃ fault, parseBy Form.all.reverse sortedRead = .error fault) ∧
      ∀ (form : Form) statement, form.statement? unnamedDrop ≠ some (.ok statement) := by
  obtain ⟨-,none,same,differ⟩ := forms_unambiguous
  have read : parseBy (Form.all.rotate 5) sortedRead =
    .ok (.readOrdered "t" ["a"] ⟨[⟨"b",.eq,"1"⟩],[]⟩ ⟨"c",true⟩) := by decide +kernel
  have other : parseBy Form.all.reverse sortedRead ≠ parseBy (Form.all.rotate 5) sortedRead := by
    decide +kernel
  refine ⟨same _ _ _ read,?_,none _ (.badName .table "") (by decide +kernel)⟩
  rcases differ _ _ _ other with refused | ⟨fault,refused⟩
  · exact refused
  · cases read.symm.trans refused

end PlainTables.Statement
