import PlainTables.Token.Basic
import PlainTables.Unicode.Blank
import PlainTables.Unicode.Word

/-! From the text of a statement to its lexemes. `front` says what stands at the front of
a text and how far it reaches; `scanFrom` takes fronts until the text ends. Blanks,
comments and stray quotes are skipped. A scan that succeeds ends with `endOfInput`. -/
namespace PlainTables

open Unicode (isBlank isWordChar)

inductive ScanError where
  | unexpected (c : Char) (position : Nat)
  | openComment
  deriving DecidableEq, Repr

namespace ScanError

def message : ScanError → String
  | .unexpected c position =>
    "Unexpected character '" ++ c.toString ++ "' at position " ++ toString position
  | .openComment => "Unterminated block comment"

end ScanError

namespace Token

/-! ### Words -/

/-- A decimal point and the digits after it, where there is at least one. -/
def fraction : List Char → List Char
  | '.' :: d :: rest => if d.isDigit then '.' :: d :: rest.takeWhile Char.isDigit else []
  | _ => []

/-- The word a text begins with: its leading word characters, and a fraction after them
if they are all digits. -/
def wordAt (text : List Char) : List Char :=
  let run := text.takeWhile isWordChar
  if run ≠ [] ∧ run.all Char.isDigit then run ++ fraction (text.drop run.length) else run

/-- Digits and points after an optional minus sign are a number. Any other word is a
keyword or a name. -/
def ofWord (word : List Char) : Token :=
  let digits := if word.head? = some '-' then word.tail else word
  if digits ≠ [] ∧ digits.all (fun c => c.isDigit || c = '.') then
    .number (String.ofList word)
  else
    match Keyword.ofWord? word with
    | some k => .keyword k
    | none => .name (String.ofList word)

/-! ### Quoted texts -/

/-- Reads up to the closing quote; two quotes in a row stand for one. The count includes
the closing quote. -/
def untilQuote (quote : Char) : List Char → Option (List Char × Nat)
  | [] => none
  | c :: rest =>
    if c = quote then
      match rest with
      | [] => some ([], 1)
      | d :: more =>
        if d = quote then (untilQuote quote more).map fun (text, n) => (quote :: text, n + 2)
        else some ([], 1)
    else (untilQuote quote rest).map fun (text, n) => (c :: text, n + 1)

/-- The characters that end a value whose quote is never closed. -/
def isSeparator (c : Char) : Bool :=
  isBlank c || c ∈ [',', ';', '(', ')', '=', '<', '>', '!', '\'', '"']

/-! ### Comments -/

/-- Length of a line, its line feed included if it has one. -/
def lineLength : List Char → Nat
  | [] => 0
  | c :: rest => if c = '\n' then 1 else lineLength rest + 1

/-- Length of the rest of a block comment, its end mark included. -/
def blockLength : List Char → Option Nat
  | [] => none
  | '*' :: '/' :: _ => some 2
  | _ :: rest => (blockLength rest).map (· + 1)

/-! ### One step -/

/-- What a text begins with. A width counts the characters after the first one. -/
inductive Front where
  | token (t : Token) (width : Nat)
  | skipped (width : Nat)
  | unexpected
  | openComment
  deriving DecidableEq, Repr

def frontOfWord (word : List Char) : Front := .token (ofWord word) (word.length - 1)

/-- A quote that is never closed is dropped: what follows it up to the next separator is
the value, and without a value nothing is read. -/
def frontOfQuote (quote : Char) (rest : List Char) : Front :=
  match untilQuote quote rest with
  | some (text, n) => .token (.quoted (String.ofList text)) n
  | none =>
    match rest.takeWhile (fun c => !isSeparator c) with
    | [] => .skipped 0
    | value => .token (.quoted (String.ofList value)) value.length

def front (c : Char) (rest : List Char) : Front :=
  if isBlank c then .skipped 0
  else if c = ',' then .token .comma 0
  else if c = ';' then .token .semicolon 0
  else if c = '(' then .token .openParen 0
  else if c = ')' then .token .closeParen 0
  else if c = '*' then .token .star 0
  else if c = '=' then .token (.comparator .eq) 0
  else if c = '<' then
    match rest with
    | '=' :: _ => .token (.comparator .ltEq) 1
    | '>' :: _ => .token (.comparator .notEq) 1
    | _ => .token (.comparator .lt) 0
  else if c = '>' then
    match rest with
    | '=' :: _ => .token (.comparator .gtEq) 1
    | _ => .token (.comparator .gt) 0
  else if c = '!' then
    match rest with
    | '=' :: _ => .token (.comparator .notEq) 1
    | _ => .unexpected
  else if c = '-' then
    match rest with
    | '-' :: more => .skipped (lineLength more + 1)
    | d :: _ => if d.isDigit then frontOfWord ('-' :: wordAt rest) else .unexpected
    | [] => .unexpected
  else if c = '/' then
    match rest with
    | '*' :: more =>
      match blockLength more with
      | some n => .skipped (n + 1)
      | none => .openComment
    | _ => .unexpected
  else if c = '\'' ∨ c = '"' then frontOfQuote c rest
  else if isWordChar c then frontOfWord (wordAt (c :: rest))
  else .unexpected

/-! ### The whole text -/

def scanFrom (position : Nat) : List Char → Except ScanError (List Lexeme)
  | [] => .ok [⟨.endOfInput, position⟩]
  | c :: rest =>
    match front c rest with
    | .token t width => do
      let later ← scanFrom (position + width + 1) (rest.drop width)
      .ok (⟨t, position⟩ :: later)
    | .skipped width => scanFrom (position + width + 1) (rest.drop width)
    | .unexpected => .error (.unexpected c position)
    | .openComment => .error .openComment
termination_by text => text.length
decreasing_by all_goals simp only [List.length_drop, List.length_cons]; omega

def scan (text : String) : Except ScanError (List Lexeme) := scanFrom 0 text.toList

/-- The tokens of a text without their places. -/
def tokens (text : String) : Except ScanError (List Token) := do
  let lexemes ← scan text
  .ok (lexemes.map Lexeme.token)

/-- Whether a word is reserved. -/
def isReserved (word : List Char) : Bool :=
  match ofWord word with
  | .keyword _ => true
  | _ => false

end Token
end PlainTables
