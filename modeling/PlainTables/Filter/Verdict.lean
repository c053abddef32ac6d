import PlainTables.Number.Numeral
import PlainTables.Filter.Basic
import PlainTables.Fault

/-! Verdicts on cells. A cell and a literal are compared as numbers when both are numbers
and as texts otherwise. Verdicts of several clauses are joined strictly from the left;
AND does not bind closer than OR. -/
namespace PlainTables

/-- How a cell stands to a literal in a comparison. -/
def cellOrdering (cell literal : String) : Ordering :=
  match Binary64.ofText? cell, Binary64.ofText? literal with
  | some x, some y => compare x.value y.value
  | _, _ => compare cell literal

namespace Comparator

def holds : Comparator → Ordering → Bool
  | eq, o => o == .eq
  | notEq, o => o != .eq
  | gt, o => o == .gt
  | lt, o => o == .lt
  | gtEq, o => o != .lt
  | ltEq, o => o != .gt

/-- A cell that is missing differs from every literal and stands in no other relation. -/
def evaluate (c : Comparator) (cell : Option String) (literal : String) : Bool :=
  match cell with
  | none => c == notEq
  | some text => c.holds (cellOrdering text literal)

@[simp] theorem evaluate_some (c : Comparator) (cell literal : String) :
    c.evaluate (some cell) literal = c.holds (cellOrdering cell literal) := rfl

@[simp] theorem evaluate_none (c : Comparator) (literal : String) :
    c.evaluate none literal = (c == notEq) := rfl

end Comparator

/-- Joins verdicts from the left. -/
def joinVerdicts (first : Bool) (later : List (Connective × Bool)) : Bool :=
  later.foldl (fun verdict (k, next) => k.apply verdict next) first

/-- The joint verdict of clauses and the connectives between them; no clause is acceptance. -/
def verdictOf : List Bool → List Connective → Bool
  | [], _ => true
  | first :: later, connectives => joinVerdicts first (connectives.zip later)

/-- `verdictOf`, after a check that there is one connective between any two neighbours. -/
def combine (verdicts : List Bool) (connectives : List Connective) : Except Fault Bool :=
  if verdicts ≠ [] ∧ connectives.length ≠ verdicts.length - 1 then
    .error (.unbalancedFilter verdicts.length connectives.length)
  else .ok (verdictOf verdicts connectives)

end PlainTables
