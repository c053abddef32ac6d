import PlainTables.Token.Keyword
import PlainTables.Filter.Basic

/-! Tokens of a statement. A lexeme is a token with the place of its first character. -/
namespace PlainTables

inductive Token where
  | keyword (word : Keyword)
  | number (text : String)
  | quoted (text : String)
  | name (text : String)
  | comparator (which : Comparator)
  | star
  | comma
  | semicolon
  | openParen
  | closeParen
  | endOfInput
  deriving DecidableEq, Repr

structure Lexeme where
  token : Token
  /-- Counted in characters from the start of the text. -/
  position : Nat
  deriving DecidableEq, Repr

namespace Token

/-- The text of a token that can stand for a name or a value. -/
def value? : Token → Option String
  | .number s | .quoted s | .name s => some s
  | _ => none

def comparator? : Token → Option Comparator
  | .comparator c => some c
  | _ => none

/-- The connective a token is, if it is AND or OR. -/
def connective? : Token → Option Connective
  | .keyword .and => some .and
  | .keyword .or => some .or
  | _ => none

/-- How a token reads in a message. -/
def text : Token → String
  | .keyword k => k.word
  | .number s | .name s => s
  | .quoted s => "'" ++ s ++ "'"
  | .comparator c => c.symbol
  | .star => "*"
  | .comma => ","
  | .semicolon => ";"
  | .openParen => "("
  | .closeParen => ")"
  | .endOfInput => "end of input"

/-- Several tokens in a message, with one space between neighbours. -/
def textOf (tokens : List Token) : String := " ".intercalate (tokens.map text)

end Token
end PlainTables
