import PlainTables.Token.Scan
import PlainTables.Text.Trim

/-! Scripts. A script is cut into statements at the semicolons outside quotes and comments.
A statement keeps its semicolon, and a last one may lack it; a piece that holds only blanks,
comments and perhaps a semicolon is no statement. -/
namespace PlainTables.Script

open Token (lineLength)
open Unicode (isBlank)

/-- The piece read so far, last character first. -/
structure Piece where
  reversed : List Char
  /-- Whether anything but blanks and comments has been read. -/
  content : Bool
  deriving DecidableEq, Repr

namespace Piece

def empty : Piece := ⟨[], false⟩

def push (p : Piece) (c : Char) : Piece := { p with reversed := c :: p.reversed }

def pushAll (p : Piece) (text : List Char) : Piece :=
  { p with reversed := text.reverse ++ p.reversed }

def mark (p : Piece) : Piece := { p with content := true }

/-- The statement a piece is, if it is one. -/
def finish (p : Piece) : List (List Char) :=
  if p.content then [Text.trim p.reversed.reverse] else []

end Piece

/-- Length of the rest of a block comment, given the character before it. An open comment
reaches to the end. -/
def blockWidth (before : Char) : List Char → Nat
  | [] => 0
  | c :: rest => if before = '*' ∧ c = '/' then 1 else blockWidth c rest + 1

/-- Characters after the first one of a comment that starts here; nothing if none does. The
star that opens a block comment does not count for its end. -/
def commentWidth (c : Char) (rest : List Char) : Option Nat :=
  match c, rest with
  | '-', '-' :: _ => some (lineLength rest)
  | '/', '*' :: more => some (blockWidth '\x00' more + 1)
  | _, _ => none

/-- Cuts a text, given the piece before it and the quote that is open. Inside quotes only
the same quote means anything, so a doubled quote closes and opens again. -/
def cut (quote : Option Char) (piece : Piece) : List Char → List (List Char)
  | [] => piece.finish
  | c :: rest =>
    match quote with
    | some q => cut (if c = q then none else some q) (piece.push c) rest
    | none =>
      if c = '\'' ∨ c = '"' then cut (some c) (piece.push c).mark rest
      else
        match commentWidth c rest with
        | some width =>
          cut none ((piece.push c).pushAll (rest.take width)) (rest.drop width)
        | none =>
          if c = ';' then (piece.push c).finish ++ cut none .empty rest
          else if isBlank c then cut none (piece.push c) rest
          else cut none (piece.push c).mark rest
termination_by text => text.length
decreasing_by all_goals simp only [List.length_drop, List.length_cons]; omega

/-- The statements of a script, in order. -/
def statements (text : String) : List String :=
  (cut none .empty text.toList).map String.ofList

end PlainTables.Script
