import PlainTables.Statement.Basic
import PlainTables.Token.Basic

/-! Phrases that several statements share: lists, tuples, assignments, the head of a
SELECT, an order and a condition. A phrase is read from the front of a token list and gives
back what follows it, or nothing if the tokens do not begin with such a phrase. -/
namespace PlainTables.Phrase

open Token (value?)

/-- What every statement ends with. -/
def ending : List Token := [.semicolon, .endOfInput]

/-- Items of one token each, with commas between them. -/
def listOf {α : Type} (item : Token → Option α) : List Token → Option (List α × List Token)
  | [] => none
  | t :: .comma :: rest =>
    match item t, listOf item rest with
    | some a, some (later, after) => some (a :: later, after)
    | _, _ => none
  | t :: rest => (item t).map fun a => ([a], rest)

theorem length_of_listOf {α : Type} {item : Token → Option α} {tokens after : List Token}
    {items : List α} (h : listOf item tokens = some (items, after)) :
    after.length < tokens.length := by
  fun_induction listOf item tokens generalizing items with
  | case1 => simp at h
  | case2 t rest a later rest' _ _ ih =>
    simp only [Option.some.injEq, Prod.mk.injEq] at h
    obtain ⟨-, rfl⟩ := h
    rename_i found _
    have := ih found
    simp only [List.length_cons]
    omega
  | case3 => simp at h
  | case4 t rest _ =>
    simp only [Option.map_eq_some_iff, Prod.mk.injEq] at h
    obtain ⟨_, -, -, rfl⟩ := h
    simp

/-- A selected field: a star or a value. -/
def field? : Token → Option String
  | .star => some "*"
  | t => t.value?

/-- Values in parentheses. -/
def tuple : List Token → Option (List String × List Token)
  | .openParen :: rest =>
    match listOf value? rest with
    | some (values, .closeParen :: after) => some (values, after)
    | _ => none
  | _ => none

theorem length_of_tuple {tokens after : List Token} {values : List String}
    (h : tuple tokens = some (values, after)) : after.length < tokens.length := by
  unfold tuple at h
  split at h
  · split at h
    · next found =>
      simp only [Option.some.injEq, Prod.mk.injEq] at h
      obtain ⟨rfl, rfl⟩ := h
      have := length_of_listOf found
      simp only [List.length_cons] at this ⊢
      omega
    · simp at h
  · simp at h

/-- Drops a comma, if there is one. -/
def skipComma : List Token → List Token
  | .comma :: rest => rest
  | tokens => tokens

theorem length_skipComma (tokens : List Token) : (skipComma tokens).length ≤ tokens.length := by
  unfold skipComma
  split <;> simp

/-- Tuples up to the semicolon; the commas between them may be left out. -/
def laterTuples (tokens : List Token) : Option (List (List String) × List Token) :=
  if tokens.head? = some .semicolon then some ([], tokens)
  else
    match _found : tuple (skipComma tokens) with
    | none => none
    | some (row, rest) =>
      match laterTuples rest with
      | some (rows, after) => some (row :: rows, after)
      | none => none
termination_by tokens.length
decreasing_by
  have := length_of_tuple _found
  have := length_skipComma tokens
  omega

/-- Assignments as written, with commas between them; any comparator may stand in one. -/
def assignments : List Token → Option (List (String × Comparator × String) × List Token)
  | c :: o :: v :: .comma :: rest =>
    match value? c, o.comparator?, value? v, assignments rest with
    | some column, some symbol, some value, some (later, after) =>
      some ((column, symbol, value) :: later, after)
    | _, _, _, _ => none
  | c :: o :: v :: rest =>
    match value? c, o.comparator?, value? v with
    | some column, some symbol, some value => some ([(column, symbol, value)], rest)
    | _, _, _ => none
  | _ => none

/-- `SELECT fields FROM name`, and what follows. -/
def selectHead : List Token → Option (List String × String × List Token)
  | .keyword .select :: rest =>
    match listOf field? rest with
    | some (fields, .keyword .from :: t :: after) =>
      (value? t).map fun name => (fields, name, after)
    | _ => none
  | _ => none

/-- The column after ORDER BY; empty when none is named. -/
def sortColumn : List Token → String × List Token
  | .name column :: rest => (column, rest)
  | .quoted column :: rest => (column, rest)
  | tokens => ("", tokens)

/-- Ascending unless DESC is written. -/
def sortDirection : List Token → Bool × List Token
  | .keyword .asc :: rest => (true, rest)
  | .keyword .desc :: rest => (false, rest)
  | tokens => (true, tokens)

/-- `ORDER BY column direction` up to the end of the statement. -/
def sortKey : List Token → Option SortKey
  | .keyword .order :: .keyword .by :: rest =>
    let (column, afterColumn) := sortColumn rest
    let (ascending, after) := sortDirection afterColumn
    if after = ending then some ⟨column, ascending⟩ else none
  | _ => none

/-- The tokens up to a stop or the end of the input, and those from there on. -/
def upTo (stop : Token → Bool) (tokens : List Token) : List Token × List Token :=
  tokens.span (fun t => !(stop t || t = .endOfInput))

/-- A condition that reaches to the end of the statement. -/
def lastCondition (tokens : List Token) : Option (List Token) :=
  match upTo (· = .semicolon) tokens with
  | (condition, after) => if after = ending then some condition else none

end PlainTables.Phrase
