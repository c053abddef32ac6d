import PlainTables.Unicode.Extending
import PlainTables.Unicode.Unprintable

/-! Two quoted forms of a text. The visible form is for messages: every character that
cannot be seen on its own is written as an escape. The JSON form escapes what JSON asks for
and nothing else. -/
namespace PlainTables.Text

def hexadecimal (n : Nat) : List Char := Nat.toDigits 16 n

/-- One character of the visible form. -/
def visibleChar (c : Char) : List Char :=
  if c = '\x00' then ['\\', '0']
  else if c = '\t' then ['\\', 't']
  else if c = '\r' then ['\\', 'r']
  else if c = '\n' then ['\\', 'n']
  else if c = '"' then ['\\', '"']
  else if c = '\\' then ['\\', '\\']
  else if Unicode.isExtending c || Unicode.isUnprintable c then
    ['\\', 'u', '\x7b'] ++ hexadecimal c.toNat ++ ['\x7d']
  else [c]

def visible (text : String) : String :=
  String.ofList ('"' :: text.toList.flatMap visibleChar ++ ['"'])

/-- One character of the JSON form. -/
def jsonChar (c : Char) : List Char :=
  if c = '"' then ['\\', '"']
  else if c = '\\' then ['\\', '\\']
  else if c = '\x08' then ['\\', 'b']
  else if c = '\x0c' then ['\\', 'f']
  else if c = '\n' then ['\\', 'n']
  else if c = '\r' then ['\\', 'r']
  else if c = '\t' then ['\\', 't']
  else if c.toNat < 16 then ['\\', 'u', '0', '0', '0'] ++ hexadecimal c.toNat
  else if c.toNat < 32 then ['\\', 'u', '0', '0'] ++ hexadecimal c.toNat
  else [c]

def json (text : String) : String :=
  String.ofList ('"' :: text.toList.flatMap jsonChar ++ ['"'])

end PlainTables.Text
