import PlainTables.Fault

/-! Names of databases, tables and columns: a letter, then word characters. A valid name
holds no point and no slash, so it is always one component of a path. -/
namespace PlainTables.Name

open Unicode (isAlphabetic isWordChar)

def isValid (name : String) : Bool :=
  match name.toList with
  | [] => false
  | first :: later => isAlphabetic first && later.all isWordChar

def check (role : NameRole) (name : String) : Except Fault Unit :=
  if isValid name then .ok () else .error (.badName role name)

theorem check_eq_ok_iff {role : NameRole} {name : String} :
    check role name = .ok () ↔ isValid name = true := by
  unfold check
  split <;> simp_all

end PlainTables.Name
