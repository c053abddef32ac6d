import PlainTables.Unicode.Upper

/-! The reserved words of statements. They are read in any letter case. -/
namespace PlainTables

inductive Keyword where
  | show | tables | create | use | database | drop | table
  | select | from | where | and | or | order | by | asc | desc
  | update | set | insert | into | values | delete
  deriving DecidableEq, Repr

namespace Keyword

def word : Keyword → String
  | .show => "SHOW"
  | .tables => "TABLES"
  | .create => "CREATE"
  | .use => "USE"
  | .database => "DATABASE"
  | .drop => "DROP"
  | .table => "TABLE"
  | .select => "SELECT"
  | .from => "FROM"
  | .where => "WHERE"
  | .and => "AND"
  | .or => "OR"
  | .order => "ORDER"
  | .by => "BY"
  | .asc => "ASC"
  | .desc => "DESC"
  | .update => "UPDATE"
  | .set => "SET"
  | .insert => "INSERT"
  | .into => "INTO"
  | .values => "VALUES"
  | .delete => "DELETE"

def all : List Keyword := [
  .show, .tables, .create, .use, .database, .drop, .table, .select, .from, .where, .and,
  .or, .order, .by, .asc, .desc, .update, .set, .insert, .into, .values, .delete]

def ofWord? (text : List Char) : Option Keyword :=
  all.find? (fun k => k.word.toList == text.map Unicode.upper)

theorem ofWord?_word (k : Keyword) : ofWord? k.word.toList = some k := by
  cases k <;> decide

end Keyword
end PlainTables
