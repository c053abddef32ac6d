import PlainTables.Token.Scan
import PlainTables.Text.Escaped

/-! Everything that can go wrong with a statement. A fault is a cause with its data; its
category, its message and the form a failed run prints are read off the cause. -/
namespace PlainTables

/-- Why the file system refused an operation. -/
inductive IoCause where
  | notFound | alreadyExists | isADirectory | notADirectory | invalidFilename | notUtf8
  deriving DecidableEq, Repr

namespace IoCause

def label : IoCause → String
  | .notFound => "NotFound"
  | .alreadyExists => "AlreadyExists"
  | .isADirectory => "IsADirectory"
  | .notADirectory => "NotADirectory"
  | .invalidFilename => "InvalidFilename"
  | .notUtf8 => "InvalidData"

/-- The number and the words the operating system has for a cause; text that is no UTF-8
is not its concern. -/
def system? : IoCause → Option (Nat × String)
  | .notFound => some (2, "No such file or directory")
  | .alreadyExists => some (17, "File exists")
  | .isADirectory => some (21, "Is a directory")
  | .notADirectory => some (20, "Not a directory")
  | .invalidFilename => some (36, "File name too long")
  | .notUtf8 => none

def notUtf8Text : String := "stream did not contain valid UTF-8"

def message (cause : IoCause) : String :=
  match cause.system? with
  | some (code, words) => words ++ " (os error " ++ toString code ++ ")"
  | none => notUtf8Text

/-- The fields of a cause, as a failed run prints them. -/
def describe (cause : IoCause) : String :=
  match cause.system? with
  | some (code, words) =>
    "Os \x7b code: " ++ toString code ++ ", kind: " ++ cause.label ++ ", message: "
      ++ Text.visible words ++ " \x7d"
  | none =>
    "Error \x7b kind: " ++ cause.label ++ ", message: " ++ Text.visible notUtf8Text ++ " \x7d"

end IoCause

/-- What a name is given to. -/
inductive NameRole where
  | database | table | column
  deriving DecidableEq, Repr

def NameRole.word : NameRole → String
  | .database => "database"
  | .table => "table"
  | .column => "column"

/-- Why a text is no table. -/
inductive TableDefect where
  | missingHeader
  | repeatedColumn (column : String)
  | rowWidth (expected found : Nat)
  deriving DecidableEq, Repr

def TableDefect.message : TableDefect → String
  | .missingHeader => "missing header"
  | .repeatedColumn column => "duplicate column " ++ column
  | .rowWidth expected found =>
    "expected " ++ toString expected ++ " cells, found " ++ toString found

inductive Fault where
  /-- The text does not fall into tokens. -/
  | unscannable (cause : ScanError)
  /-- No statement has this form. -/
  | noSuchStatement (text : String)
  | emptyCondition
  /-- A connective without a comparison on one of its sides. -/
  | bareConnective (condition : List Token)
  | malformedComparison (tokens : List Token)
  | assignmentSymbol (used : Comparator) (column : String)
  | badName (role : NameRole) (name : String)
  | repeatedColumn (column : String)
  | repeatedField (column : String)
  | unknownField (column : String)
  | unknownOrderColumn (column : String)
  | unknownAssignedColumn (column : String)
  | unknownFilterColumn (column : String)
  /-- The first row, counted from one, that does not have as many values as there are fields. -/
  | rowWidth (row : Nat)
  | unknownOperator (text : String)
  | unbalancedFilter (clauses connectives : Nat)
  /-- A table without a file, or a path to open as a database that is no directory. -/
  | noTable (name : String)
  | tableExists (name : String)
  | emptyOrderColumn
  | unstorable (value : String)
  | malformedTable (table : String) (line : Nat) (defect : TableDefect)
  | noDatabase
  | io (cause : IoCause)
  deriving DecidableEq, Repr

namespace Fault

inductive Category where
  | statement | name | field | dimension | operator | notFound | alreadyExists
  | emptyField | invalidValue | malformed | noDatabase | io
  deriving DecidableEq, Repr

namespace Category

def label : Category → String
  | .statement => "Syntax"
  | .name => "Name"
  | .field => "Field"
  | .dimension => "Dimension"
  | .operator => "Operator"
  | .notFound => "NotFound"
  | .alreadyExists => "AlreadyExists"
  | .emptyField => "EmptyField"
  | .invalidValue => "InvalidValue"
  | .malformed => "Malformed"
  | .noDatabase => "NoDatabase"
  | .io => "Io"

/-- What stands before the detail in a message. -/
def heading : Category → String
  | .statement => "Syntax error: "
  | .name => "Name error: "
  | .field => "Field error: "
  | .dimension => "Invalid tuple dimension for tuple "
  | .operator => "Operator error: "
  | .notFound => "No table named "
  | .alreadyExists => "Table already exists: "
  | .emptyField => "Empty field error: "
  | .invalidValue => "Invalid value: "
  | .malformed => "Malformed table "
  | .noDatabase => "No database selected"
  | .io => "IO error: "

end Category

def category : Fault → Category
  | .unscannable _ | .noSuchStatement _ | .emptyCondition | .bareConnective _
  | .malformedComparison _ | .assignmentSymbol _ _ => .statement
  | .badName _ _ => .name
  | .repeatedColumn _ | .repeatedField _ | .unknownField _ | .unknownOrderColumn _
  | .unknownAssignedColumn _ | .unknownFilterColumn _ => .field
  | .rowWidth _ => .dimension
  | .unknownOperator _ | .unbalancedFilter _ _ => .operator
  | .noTable _ => .notFound
  | .tableExists _ => .alreadyExists
  | .emptyOrderColumn => .emptyField
  | .unstorable _ => .invalidValue
  | .malformedTable _ _ _ => .malformed
  | .noDatabase => .noDatabase
  | .io _ => .io

/-- What a message says beyond its category. -/
def detail : Fault → String
  | .unscannable cause => cause.message
  | .noSuchStatement text => "Invalid query: " ++ text
  | .emptyCondition => "Empty WHERE clause"
  | .bareConnective condition =>
    "Missing condition around connective in WHERE clause: " ++ Token.textOf condition
  | .malformedComparison tokens => "Invalid condition: " ++ Token.textOf tokens
  | .assignmentSymbol used column =>
    "Invalid assignment operator '" ++ used.symbol ++ "' for " ++ column
  | .badName role name => "Invalid " ++ role.word ++ " name: " ++ name
  | .repeatedColumn column => "Duplicate column name: " ++ column
  | .repeatedField column => "Duplicate field name: " ++ column
  | .unknownField column => "Invalid field name: " ++ column
  | .unknownOrderColumn column => "Invalid field in ORDER BY: " ++ column
  | .unknownAssignedColumn column => "Invalid field in UPDATE: " ++ column
  | .unknownFilterColumn column => "Invalid field in WHERE clause: " ++ column
  | .rowWidth row => toString row
  | .unknownOperator text => text
  | .unbalancedFilter clauses connectives =>
    toString clauses ++ " clauses need " ++ toString (clauses - 1) ++ " connectives, found "
      ++ toString connectives
  | .noTable name => name
  | .tableExists name => name
  | .emptyOrderColumn => "Sorting column can't be empty"
  | .unstorable value => Text.visible value ++ " contains the delimiter or a line break"
  | .malformedTable table line defect =>
    table ++ " at line " ++ toString line ++ ": " ++ defect.message
  | .noDatabase => " (use `USE DATABASE <name>;`)"
  | .io cause => cause.message

/-- What stands after the detail in a message. -/
def ending : Fault → String
  | .noTable _ => " exists in the current database"
  | _ => ""

/-- The sentence shown to the user. -/
def message (fault : Fault) : String :=
  fault.category.heading ++ fault.detail ++ fault.ending

/-- The category and its fields, as a failed run prints them. -/
def describe (fault : Fault) : String :=
  match fault with
  | .rowWidth row => "Dimension \x7b row: " ++ toString row ++ " \x7d"
  | .malformedTable table line defect =>
    "Malformed \x7b table: " ++ Text.visible table ++ ", line: " ++ toString line
      ++ ", message: " ++ Text.visible defect.message ++ " \x7d"
  | .noDatabase => "NoDatabase"
  | .io cause => "Io(" ++ cause.describe ++ ")"
  | _ => fault.category.label ++ "(" ++ Text.visible fault.detail ++ ")"

end Fault
end PlainTables
