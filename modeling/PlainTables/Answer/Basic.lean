import PlainTables.Table.Record

/-! What a statement answers. -/
namespace PlainTables

inductive RowChange where
  | written | updated | deleted
  deriving DecidableEq, Repr

def RowChange.word : RowChange → String
  | .written => "written"
  | .updated => "updated"
  | .deleted => "deleted"

inductive Answer where
  | tables (names : List String)
  | records (found : List Record)
  | rowCount (count : Nat) (change : RowChange)
  | message (words : String)
  | databaseSelected (name : String)
  deriving DecidableEq, Repr

namespace Answer

/-- An answer as plain lines. -/
def text : Answer → String
  | .tables names => "\n".intercalate names
  | .records found => "\n".intercalate (found.map Record.text)
  | .rowCount count change => toString count ++ " records " ++ change.word
  | .message words => words
  | .databaseSelected name => "Using database: " ++ name

end Answer
end PlainTables
