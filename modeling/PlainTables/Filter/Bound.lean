import PlainTables.Filter.Verdict
import PlainTables.Table.Basic

/-! Filters bound to a header: every column name is replaced by its place. A bound filter
always has a verdict on a row. -/
namespace PlainTables

/-- What becomes of a filter column that the table does not have. -/
inductive UnknownColumns where
  | refused | missing
  deriving DecidableEq, Repr

structure BoundClause where
  /-- Nothing if the column is missing. -/
  place : Option Nat
  comparator : Comparator
  literal : String
  deriving DecidableEq, Repr

structure BoundFilter where
  clauses : List BoundClause
  connectives : List Connective
  deriving DecidableEq, Repr

namespace BoundClause

def verdict (clause : BoundClause) (row : Row) : Bool :=
  clause.comparator.evaluate (clause.place.bind (fun i => row[i]?)) clause.literal

end BoundClause

def BoundFilter.accepts (filter : BoundFilter) (row : Row) : Bool :=
  verdictOf (filter.clauses.map (·.verdict row)) filter.connectives

def Clause.bind (clause : Clause) (header : Header) (unknown : UnknownColumns) :
    Except Fault BoundClause :=
  match header.index? clause.column, unknown with
  | none, .refused => .error (.unknownFilterColumn clause.column)
  | place, _ => .ok ⟨place, clause.comparator, clause.literal⟩

/-- The number of connectives is checked before any column. -/
def Filter.bind (filter : Filter) (header : Header) (unknown : UnknownColumns) :
    Except Fault BoundFilter :=
  if filter.Balanced then do
    let clauses ← filter.clauses.mapM (·.bind header unknown)
    .ok ⟨clauses, filter.connectives⟩
  else .error (.unbalancedFilter filter.clauses.length filter.connectives.length)

end PlainTables
