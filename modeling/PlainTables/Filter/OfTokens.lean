import PlainTables.Fault

/-! From the tokens after WHERE to a filter. The tokens are cut at their connectives and
every piece has to be one comparison; the first piece that is not decides the fault. -/
namespace PlainTables

namespace Clause

/-- A name, a comparator and a value. Four tokens or more with a name where a connective
belongs are taken as a use of an unknown connective. -/
def ofTokens : List Token → Except Fault Clause
  | [.name column, .comparator c, value] =>
    match value.value? with
    | some literal => .ok ⟨column, c, literal⟩
    | none => .error (.malformedComparison [.name column, .comparator c, value])
  | _ :: .comparator _ :: _ :: .name word :: _ => .error (.unknownOperator word)
  | tokens => .error (.malformedComparison tokens)

end Clause

namespace Filter

/-- The tokens before the first connective, then each connective with the tokens up to the
next one. -/
def pieces : List Token → List Token × List (Connective × List Token)
  | [] => ([], [])
  | t :: rest =>
    let (first, later) := pieces rest
    match t.connective? with
    | some k => ([], (k, first) :: later)
    | none => (t :: first, later)

/-- Reads one piece of a condition. -/
def clauseOfPiece (condition piece : List Token) : Except Fault Clause :=
  match piece with
  | [] => .error (.bareConnective condition)
  | _ => Clause.ofTokens piece

def ofTokens (condition : List Token) : Except Fault Filter :=
  match condition with
  | [] => .error .emptyCondition
  | _ => do
    let (first, later) := pieces condition
    let clauses ← (first :: later.map Prod.snd).mapM (clauseOfPiece condition)
    .ok ⟨clauses, later.map Prod.fst⟩

end Filter
end PlainTables
