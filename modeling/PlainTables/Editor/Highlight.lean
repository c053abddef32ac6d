import PlainTables.Token.Scan

/-! Coloured pieces of a line of statements. Highlighting does not scan the line as a
statement: a quote reaches to the next quote of its kind or to the end of the line. -/
namespace PlainTables

inductive PieceKind where
  | keyword | number | quoted | comparator | punctuation | plain
  deriving DecidableEq, Repr

namespace Highlight

open Unicode (isWordChar)

/-- Characters after an opening quote that belong to the quoted piece. -/
def quotedWidth (quote : Char) (rest : List Char) : Nat :=
  let inside := rest.takeWhile (· ≠ quote)
  if quote ∈ rest then inside.length + 1 else inside.length

def wordPiece (word : List Char) : PieceKind :=
  if Token.isReserved word then .keyword
  else if word.all (fun c => c.isDigit || c = '.') then .number
  else .plain

/-- What a line begins with: how many characters after the first one belong to it, and what
it is. -/
def front (c : Char) (rest : List Char) : Nat × PieceKind :=
  if c = '\'' ∨ c = '"' then (quotedWidth c rest, .quoted)
  else if isWordChar c then
    let more := rest.takeWhile (fun d => isWordChar d || d = '.')
    (more.length, wordPiece (c :: more))
  else if c ∈ ['=', '<', '>', '!'] then (0, .comparator)
  else if c ∈ ['(', ')', ',', '*', ';'] then (0, .punctuation)
  else (0, .plain)

/-- The pieces of a line in order. -/
def pieces : List Char → List (List Char × PieceKind)
  | [] => []
  | c :: rest =>
    let (width, piece) := front c rest
    (c :: rest.take width, piece) :: pieces (rest.drop width)
termination_by line => line.length
decreasing_by simp only [List.length_drop, List.length_cons]; omega

end Highlight
end PlainTables
