/-! Upper case as far as the words of statements can tell. Beside the ASCII letters only two
characters have a single ASCII letter as upper case: dotless ı and long ſ. A character whose
upper case is longer or is not ASCII stays as it is, which no reserved word notices: none
holds an SS, an FF, an FI, an FL or an ST. -/
namespace PlainTables.Unicode

def upper (c : Char) : Char :=
  if c = 'ı' then 'I' else if c = 'ſ' then 'S' else c.toUpper

end PlainTables.Unicode
