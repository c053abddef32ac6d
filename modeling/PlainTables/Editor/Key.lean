/-! Keys as a terminal reports them. -/
namespace PlainTables

inductive Key where
  | char (c : Char)
  | enter | escape | tab | backTab | backspace | delete
  | left | right | up | down | home | finish | pageUp | pageDown
  | function (n : Nat)
  deriving DecidableEq, Repr

structure Modifiers where
  ctrl : Bool
  shift : Bool
  alt : Bool
  deriving DecidableEq, Repr

def Modifiers.none : Modifiers := ⟨false, false, false⟩

structure KeyPress where
  key : Key
  modifiers : Modifiers
  deriving DecidableEq, Repr

end PlainTables
