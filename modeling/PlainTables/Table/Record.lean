import PlainTables.Text.Escaped

/-! Records: the columns of a result row with their values, in the order they were asked
for. A column asked for twice stands twice. -/
namespace PlainTables

abbrev Record := List (String × String)

namespace Record

def columns (record : Record) : List String := record.map Prod.fst

def values (record : Record) : List String := record.map Prod.snd

/-- The value of the first column with that name. -/
def get? (record : Record) (column : String) : Option String := record.lookup column

def text (record : Record) : String :=
  "\x7b" ++ ", ".intercalate (record.map fun (column, value) => column ++ ": " ++ value) ++ "\x7d"

/-- A JSON object with the members in the record's order. -/
def json (record : Record) : String :=
  "\x7b" ++ ",".intercalate
    (record.map fun (column, value) => Text.json column ++ ":" ++ Text.json value) ++ "\x7d"

end Record
end PlainTables
