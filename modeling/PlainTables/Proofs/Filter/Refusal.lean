import PlainTables.Proofs.Filter.Condition

/-! Conditions that are refused. Main statement: tokens are read as a filter exactly if they spell it,
and otherwise the first piece between connectives that is no comparison says what is wrong. -/
namespace PlainTables.Filter

open Actions

variable {tokens condition piece : List Token} {fault : Fault}

/-- The name that stands where a connective belongs: the fourth token of a piece, behind a comparator
in the second place. -/
def strayConnective? : List Token → Option String
  | _ :: .comparator _ :: _ :: .name word :: _ => some word
  | _ => none

/-- What is wrong with a condition that has a piece which is no comparison. -/
def refusal (condition piece : List Token) : Fault :=
  match strayConnective? piece with
  | some word => .unknownOperator word
  | none =>
    if condition = [] then .emptyCondition
    else if piece = [] then .bareConnective condition
    else .malformedComparison piece

/-! ### Pieces between connectives -/

def isConnective (t : Token) : Bool := t = .keyword .and || t = .keyword .or

theorem isConnective_eq (t : Token) : isConnective t = t.connective?.isSome := by
  cases t with
  | keyword k => cases k <;> rfl
  | _ => rfl

theorem splitOnP_eq_pieces (tokens : List Token) :
    tokens.splitOnP isConnective = (pieces tokens).1 :: (pieces tokens).2.map Prod.snd := by
  induction tokens with
  | nil => rfl
  | cons t rest ih =>
    rw [List.splitOnP_cons_eq_if_modifyHead,ih,isConnective_eq]
    cases joins : t.connective? with
    | some k => simp [pieces_connective joins]
    | none =>
      have front : pieces ([t] ++ rest) = ([t] ++ (pieces rest).1,(pieces rest).2) :=
        pieces_append (by simpa using joins)
      rw [List.singleton_append] at front
      simp [front]

/-! ### Faults -/

theorem clause_fault (refused : Clause.ofTokens piece = .error fault) :
    fault = match strayConnective? piece with
      | some word => .unknownOperator word
      | none => .malformedComparison piece := by
  unfold Clause.ofTokens at refused
  split at refused
  · split at refused <;> cases refused
    rfl
  · cases refused
    rfl
  · next other =>
    cases refused
    rw [strayConnective?.eq_2 piece other]

theorem fault_of_clauseOfPiece (filled : condition ≠ [])
    (refused : clauseOfPiece condition piece = .error fault) : fault = refusal condition piece := by
  unfold clauseOfPiece at refused
  split at refused
  · cases refused
    simp [refusal,strayConnective?,filled]
  · next some =>
    rw [clause_fault refused,refusal,if_neg filled,if_neg some]

theorem clauseOfPiece_eq_error (filled : condition ≠ []) : clauseOfPiece condition piece = .error fault ↔
    (∀ c : Clause, ¬c.Spells piece) ∧ fault = refusal condition piece := by
  constructor
  · intro refused
    refine ⟨fun c spelled => ?_,fault_of_clauseOfPiece filled refused⟩
    rw [clauseOfPiece_eq_ok.mpr spelled] at refused
    cases refused
  · rintro ⟨unspelled,rfl⟩
    cases read : clauseOfPiece condition piece with
    | ok c => exact absurd (clauseOfPiece_eq_ok.mp read) (unspelled c)
    | error fault => rw [fault_of_clauseOfPiece filled read]

theorem ofTokens_eq_error : ofTokens tokens = .error fault ↔ ∃ before piece after,
    tokens.splitOnP isConnective = before ++ piece :: after ∧
    (∀ p ∈ before, ∃ c : Clause, c.Spells p) ∧ (∀ c : Clause, ¬c.Spells piece) ∧
    fault = refusal tokens piece := by
  by_cases filled : tokens = []
  · subst filled
    constructor
    · intro refused
      cases refused
      refine ⟨[],[],[],rfl,by simp,?_,rfl⟩
      rintro c ⟨v,-,same⟩
      cases same
    · rintro ⟨before,piece,after,cuts,-,-,rfl⟩
      have member : piece ∈ List.splitOnP isConnective ([] : List Token) := by simp [cuts]
      obtain rfl : piece = [] := by simpa using member
      rfl
  · have run : ofTokens tokens = (tokens.splitOnP isConnective).mapM (clauseOfPiece tokens) >>=
        fun clauses => .ok ⟨clauses,(pieces tokens).2.map Prod.fst⟩ := by
      rw [splitOnP_eq_pieces]
      unfold ofTokens
      split
      · exact absurd rfl filled
      · rfl
    simp only [run,check_eq_error,reduceCtorEq,and_false,exists_false,or_false,mapM_eq_fault,
      clauseOfPiece_eq_error filled,clauseOfPiece_eq_ok]

theorem category_of_refusal (none : strayConnective? piece = none) :
    (refusal condition piece).category = .statement := by
  simp only [refusal,none]
  split
  · rfl
  · split <;> rfl

/-- Tokens are read as the filter they spell. If they spell none, the first piece between connectives
that is no comparison decides: a name behind a comparison is an unknown operator, and anything else is
a fault of the statement. -/
theorem ofTokens_decides (tokens : List Token) :
    (∀ f : Filter, ofTokens tokens = .ok f ↔ f.Spells tokens) ∧
    ∀ fault, ofTokens tokens = .error fault ↔ ∃ before piece after,
      tokens.splitOnP isConnective = before ++ piece :: after ∧
      (∀ p ∈ before, ∃ c : Clause, c.Spells p) ∧ (∀ c : Clause, ¬c.Spells piece) ∧
      fault = refusal tokens piece ∧
      (strayConnective? piece = none → fault.category = .statement) := by
  refine ⟨fun f => ofTokens_eq_ok_iff,fun fault => ofTokens_eq_error.trans ?_⟩
  constructor
  · rintro ⟨before,piece,after,cuts,passed,unspelled,rfl⟩
    exact ⟨before,piece,after,cuts,passed,unspelled,rfl,category_of_refusal⟩
  · rintro ⟨before,piece,after,cuts,passed,unspelled,rfl,-⟩
    exact ⟨before,piece,after,cuts,passed,unspelled,rfl⟩

/-- A piece with a stray connective, behind one that is a comparison and before an empty one. -/
example : ofTokens [.name "a",.comparator .eq,.number "1",.keyword .or,.name "b",.comparator .lt,
    .quoted "x",.name "XOR",.name "c",.keyword .and] = .error (.unknownOperator "XOR") := by rfl

end PlainTables.Filter
