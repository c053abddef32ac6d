import PlainTables.Unicode.Upper

/-! Filters as written in a WHERE clause: comparisons of a column with a literal, and the
connectives between them in textual order. Nothing here reads a table. -/
namespace PlainTables

inductive Comparator where
  | eq | notEq | gt | lt | gtEq | ltEq
  deriving DecidableEq, Repr

namespace Comparator

def symbol : Comparator → String
  | eq => "="
  | notEq => "!="
  | gt => ">"
  | lt => "<"
  | gtEq => ">="
  | ltEq => "<="

def all : List Comparator := [eq, notEq, gt, lt, gtEq, ltEq]

def ofSymbol? (text : String) : Option Comparator := all.find? (fun c => c.symbol == text)

theorem ofSymbol?_symbol (c : Comparator) : ofSymbol? c.symbol = some c := by
  cases c <;> decide

end Comparator

inductive Connective where
  | and | or
  deriving DecidableEq, Repr

namespace Connective

def word : Connective → String
  | and => "AND"
  | or => "OR"

/-- Letter case does not matter. -/
def ofWord? (text : String) : Option Connective :=
  [and, or].find? (fun k => k.word.toList == text.toList.map Unicode.upper)

theorem ofWord?_word (k : Connective) : ofWord? k.word = some k := by
  cases k <;> decide

/-- What a connective makes of the verdict so far and the next one. -/
def apply : Connective → Bool → Bool → Bool
  | and, a, b => a && b
  | or, a, b => a || b

end Connective

structure Clause where
  column : String
  comparator : Comparator
  literal : String
  deriving DecidableEq, Repr

/-- A clause as it reads, with no quotes around the literal. -/
def Clause.text (c : Clause) : String :=
  c.column ++ " " ++ c.comparator.symbol ++ " " ++ c.literal

/-- Clauses and the connectives between them. A filter without clauses accepts every row;
one with clauses is balanced when it has one connective fewer. -/
structure Filter where
  clauses : List Clause
  connectives : List Connective
  deriving DecidableEq, Repr

namespace Filter

def everything : Filter := ⟨[], []⟩

def isEmpty (f : Filter) : Bool := f.clauses.isEmpty

def Balanced (f : Filter) : Prop := f.connectives.length = f.clauses.length - 1

instance (f : Filter) : Decidable f.Balanced := inferInstanceAs (Decidable (_ = _))

@[simp] theorem everything_balanced : everything.Balanced := rfl

end Filter
end PlainTables
