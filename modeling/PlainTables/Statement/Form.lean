import PlainTables.Statement.Phrase
import PlainTables.Filter.OfTokens
import PlainTables.Name
import PlainTables.Text.Trim

/-! The forms of a statement. A form looks at a whole token list: it either does not apply,
or it decides what the statement is or what is wrong with its names, fields and condition.
The forms are tried in one fixed order and the first that applies decides. -/
namespace PlainTables

inductive Form where
  | listTables | useDatabase | dropTable | read | readOrdered | readWhereOrdered | readWhere
  | update | createTable | insert | delete
  deriving DecidableEq, Repr

namespace Form

open Phrase
open Token (value?)

/-- The order in which forms are tried. -/
def all : List Form := [
  .listTables, .useDatabase, .dropTable, .read, .readOrdered, .readWhereOrdered, .readWhere,
  .update, .createTable, .insert, .delete]

/-! ### Checks once a form applies -/

def plainAssignment : String × Comparator × String → Except Fault Assignment
  | (column, symbol, value) =>
    if symbol = .eq then .ok ⟨column, value⟩ else .error (.assignmentSymbol symbol column)

def ordered (name : String) (fields : List String) (filter : Filter) (key : SortKey) :
    Except Fault Statement := do
  Name.check .table name
  if key.column = "" then .error .emptyOrderColumn
  else .ok (.readOrdered name fields filter key)

/-! ### The forms -/

def listTables? : List Token → Option (Except Fault Statement)
  | .keyword .show :: .keyword .tables :: rest =>
    if rest = ending then some (.ok .listTables) else none
  | _ => none

/-- CREATE and USE mean the same for a database. -/
def useDatabase? : List Token → Option (Except Fault Statement)
  | .keyword verb :: .keyword .database :: t :: rest =>
    if (verb = .create ∨ verb = .use) ∧ rest = ending then
      (value? t).map fun name => do
        Name.check .database name
        .ok (.useDatabase name)
    else none
  | _ => none

def dropTable? : List Token → Option (Except Fault Statement)
  | .keyword .drop :: .keyword .table :: t :: rest =>
    if rest = ending then
      (value? t).map fun name => do
        Name.check .table name
        .ok (.dropTable name)
    else none
  | _ => none

def read? (tokens : List Token) : Option (Except Fault Statement) :=
  match selectHead tokens with
  | some (fields, name, rest) =>
    if rest = ending then
      some do
        Name.check .table name
        .ok (.read name fields .everything)
    else none
  | none => none

def readOrdered? (tokens : List Token) : Option (Except Fault Statement) :=
  match selectHead tokens with
  | some (fields, name, rest) => (sortKey rest).map (ordered name fields .everything)
  | none => none

/-- Here the condition is read before the table's name is checked. -/
def readWhereOrdered? (tokens : List Token) : Option (Except Fault Statement) :=
  match selectHead tokens with
  | some (fields, name, .keyword .where :: rest) =>
    let (condition, after) := upTo (fun t => t = .keyword .order || t = .semicolon) rest
    (sortKey after).map fun key => do
      let filter ← Filter.ofTokens condition
      ordered name fields filter key
  | _ => none

def readWhere? (tokens : List Token) : Option (Except Fault Statement) :=
  match selectHead tokens with
  | some (fields, name, .keyword .where :: rest) =>
    (lastCondition rest).map fun condition => do
      Name.check .table name
      let filter ← Filter.ofTokens condition
      .ok (.read name fields filter)
  | _ => none

def update? : List Token → Option (Except Fault Statement)
  | .keyword .update :: .keyword .table :: t :: .keyword .set :: rest =>
    match value? t, assignments rest with
    | some name, some (written, .keyword .where :: after) =>
      (lastCondition after).map fun condition => do
        Name.check .table name
        let assigned ← written.mapM plainAssignment
        let filter ← Filter.ofTokens condition
        .ok (.update name assigned filter)
    | _, _ => none
  | _ => none

def createTable? : List Token → Option (Except Fault Statement)
  | .keyword .create :: .keyword .table :: t :: rest =>
    match value? t, tuple rest with
    | some name, some (columns, after) =>
      if after = ending then
        some do
          Name.check .table name
          columns.forM (Name.check .column)
          .ok (.createTable name columns)
      else none
    | _, _ => none
  | _ => none

def insert? : List Token → Option (Except Fault Statement)
  | .keyword .insert :: .keyword .into :: t :: rest =>
    match value? t, tuple rest with
    | some name, some (fields, .keyword .values :: tuples) =>
      match tuple tuples with
      | some (first, later) =>
        match laterTuples later with
        | some (rows, after) =>
          if after = ending then
            some do
              Name.check .table name
              .ok (.insert name fields (first :: rows))
          else none
        | none => none
      | none => none
    | _, _ => none
  | _ => none

def delete? : List Token → Option (Except Fault Statement)
  | .keyword .delete :: .keyword .from :: t :: .keyword .where :: rest =>
    match value? t, lastCondition rest with
    | some name, some condition =>
      some do
        Name.check .table name
        let filter ← Filter.ofTokens condition
        .ok (.delete name filter)
    | _, _ => none
  | _ => none

/-- What a form makes of a token list; nothing if it does not apply. -/
def statement? : Form → List Token → Option (Except Fault Statement)
  | .listTables => listTables?
  | .useDatabase => useDatabase?
  | .dropTable => dropTable?
  | .read => read?
  | .readOrdered => readOrdered?
  | .readWhereOrdered => readWhereOrdered?
  | .readWhere => readWhere?
  | .update => update?
  | .createTable => createTable?
  | .insert => insert?
  | .delete => delete?

end Form

namespace Statement

/-- What the first applicable form makes of a token list. -/
def firstOf (forms : List Form) (tokens : List Token) : Option (Except Fault Statement) :=
  forms.findSome? (fun form => form.statement? tokens)

def ofTokens (text : String) (tokens : List Token) : Except Fault Statement :=
  match firstOf Form.all tokens with
  | some result => result
  | none => .error (.noSuchStatement (Text.trimmed text))

/-- Reads one statement, its semicolon included. -/
def parse (text : String) : Except Fault Statement :=
  match Token.tokens text with
  | .ok tokens => ofTokens text tokens
  | .error cause => .error (.unscannable cause)

end Statement
end PlainTables
