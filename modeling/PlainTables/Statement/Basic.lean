import PlainTables.Filter.Basic

/-! Statements. Names and fields are as written; whether a column exists is the business
of the table they are run on. -/
namespace PlainTables

structure Assignment where
  column : String
  value : String
  deriving DecidableEq, Repr

structure SortKey where
  column : String
  ascending : Bool
  deriving DecidableEq, Repr

inductive Statement where
  | listTables
  | useDatabase (name : String)
  | dropTable (name : String)
  | createTable (name : String) (columns : List String)
  | insert (name : String) (fields : List String) (rows : List (List String))
  | read (name : String) (fields : List String) (filter : Filter)
  | readOrdered (name : String) (fields : List String) (filter : Filter) (key : SortKey)
  | update (name : String) (assignments : List Assignment) (filter : Filter)
  | delete (name : String) (filter : Filter)
  deriving DecidableEq, Repr

end PlainTables
