import PlainTables.Proofs.Script
import PlainTables.Proofs.Statement.Grammar

/-! What every statement that was read is known to be: its names are valid, no list in it is empty,
and a filter holds one connective between any two neighbouring clauses. Main statement: a text that
is read as a statement holds that one statement, and an UPDATE or a DELETE is never without a
condition. -/
namespace PlainTables

/-- A filter as it is written: at least one clause, and a connective between any two neighbours. -/
def Filter.IsCondition (f : Filter) : Prop := f.connectives.length + 1 = f.clauses.length

instance (f : Filter) : Decidable f.IsCondition := inferInstanceAs (Decidable (_ = _))

theorem Filter.IsCondition.balanced {f : Filter} (complete : f.IsCondition) : f.Balanced := by
  unfold Filter.IsCondition at complete
  unfold Filter.Balanced
  omega

namespace Statement

open Phrase

def Proper : Statement → Prop
  | .listTables => True
  | .useDatabase name | .dropTable name => Name.isValid name = true
  | .createTable name columns =>
    Name.isValid name = true ∧ columns ≠ [] ∧ ∀ column ∈ columns, Name.isValid column = true
  | .insert name fields rows =>
    Name.isValid name = true ∧ fields ≠ [] ∧ rows ≠ [] ∧ ∀ row ∈ rows, row ≠ []
  | .read name fields filter =>
    Name.isValid name = true ∧ fields ≠ [] ∧ (filter = .everything ∨ filter.IsCondition)
  | .readOrdered name fields filter key =>
    Name.isValid name = true ∧ fields ≠ [] ∧ (filter = .everything ∨ filter.IsCondition) ∧
      key.column ≠ ""
  | .update name assigned filter =>
    Name.isValid name = true ∧ assigned ≠ [] ∧ filter.IsCondition
  | .delete name filter => Name.isValid name = true ∧ filter.IsCondition

instance decidableProper : (s : Statement) → Decidable s.Proper
  | .listTables => inferInstanceAs (Decidable True)
  | .useDatabase _ | .dropTable _ => inferInstanceAs (Decidable (_ = _))
  | .createTable .. | .insert .. | .read .. | .readOrdered .. | .update .. | .delete .. =>
    inferInstanceAs (Decidable (_ ∧ _))

/-- The condition of a statement, which accepts every row where none is written. -/
def filter : Statement → Filter
  | .read _ _ filter | .readOrdered _ _ filter _ | .update _ _ filter | .delete _ filter => filter
  | .listTables | .useDatabase _ | .dropTable _ | .createTable _ _ | .insert _ _ _ => .everything

variable {words condition : List Token} {statement : Statement} {filter : Filter}

/-! ### Spelled statements -/

theorem isCondition_of_wheres (wheres : Wheres condition filter) :
    filter = .everything ∨ filter.IsCondition := by
  cases wheres with
  | none => exact .inl rfl
  | some spelled => exact .inr spelled.balanced

theorem Spells.proper (spelled : Spells words statement) : statement.Proper := by
  cases spelled with
  | listTables => trivial
  | useDatabase _ _ valid | dropTable _ valid => exact valid
  | createTable _ valid tuple columns => exact ⟨valid,tuple.ne_nil,columns⟩
  | insert _ valid fields first later =>
    exact ⟨valid,fields.ne_nil,by simp,List.forall_mem_cons.mpr ⟨first.ne_nil,later.ne_nil⟩⟩
  | read fields _ valid wheres => exact ⟨valid,fields.ne_nil,isCondition_of_wheres wheres⟩
  | readOrdered fields _ valid wheres _ named =>
    exact ⟨valid,fields.ne_nil,isCondition_of_wheres wheres,named⟩
  | update _ valid assigns condition =>
    exact ⟨valid,by simpa using assigns.ne_nil,condition.balanced⟩
  | delete _ valid condition => exact ⟨valid,condition.balanced⟩

theorem semicolon_not_mem_condition (spelled : filter.Spells condition) : .semicolon ∉ condition :=
  fun member => (spelled.inside _ member).2.1 rfl

theorem semicolon_not_mem_wheres (wheres : Wheres condition filter) : .semicolon ∉ condition := by
  cases wheres with
  | none => simp
  | some spelled => simpa using semicolon_not_mem_condition spelled

theorem Spells.semicolon_not_mem (spelled : Spells words statement) : .semicolon ∉ words := by
  cases spelled with
  | listTables => simp
  | useDatabase _ value _ | dropTable value _ => simp [semicolon_ne_of_value value]
  | createTable value _ tuple _ => simp [semicolon_ne_of_value value,tuple.semicolon_not_mem]
  | insert value _ fields first later =>
    simp [semicolon_ne_of_value value,fields.semicolon_not_mem,first.semicolon_not_mem,
      later.semicolon_not_mem]
  | read fields value _ wheres =>
    simp [semicolon_ne_of_value value,semicolon_not_mem_fields fields,semicolon_not_mem_wheres wheres]
  | readOrdered fields value _ wheres order _ =>
    simp [semicolon_ne_of_value value,semicolon_not_mem_fields fields,semicolon_not_mem_wheres wheres,
      order.semicolon_not_mem]
  | update value _ assigns condition =>
    simp [semicolon_ne_of_value value,assigns.semicolon_not_mem,semicolon_not_mem_condition condition]
  | delete value _ condition =>
    simp [semicolon_ne_of_value value,semicolon_not_mem_condition condition]

theorem name_mem_wheres (wheres : Wheres condition filter) :
    ∀ c ∈ filter.clauses, .name c.column ∈ condition := by
  cases wheres with
  | none => simp [Filter.everything]
  | some spelled =>
    intro c member
    exact List.mem_cons_of_mem _ (spelled.name_mem c member)

theorem Spells.name_mem (spelled : Spells words statement) :
    ∀ c ∈ statement.filter.clauses, .name c.column ∈ words := by
  intro c member
  cases spelled with
  | listTables | useDatabase | dropTable | createTable | insert => cases member
  | read _ _ _ wheres => simp [name_mem_wheres wheres c member]
  | readOrdered _ _ _ wheres _ _ => simp [name_mem_wheres wheres c member]
  | update _ _ _ condition => simp [condition.name_mem c member]
  | delete _ _ condition => simp [condition.name_mem c member]

theorem Spells.ne_nil (spelled : Spells words statement) : words ≠ [] := by
  cases spelled <;> simp

/-! ### Texts -/

/-- A text that is read as a statement has one semicolon, at its very end, so it holds one statement;
its names are valid, its lists are not empty, its condition is complete, and the columns it compares
are names in the text. -/
theorem statement_of_parse {text : String} (parsed : parse text = .ok statement) :
    ∃ tokens, Token.tokens text = .ok tokens ∧
      tokens.count .semicolon = 1 ∧ [.semicolon,.endOfInput] <:+ tokens ∧
      Script.statementGroups tokens.dropLast = [tokens.dropLast] ∧
      statement.Proper ∧ ∀ c ∈ statement.filter.clauses, .name c.column ∈ tokens := by
  obtain ⟨tokens,scanned,words,spelled,rfl⟩ := parse_eq_ok.mp parsed
  have plain := spelled.semicolon_not_mem
  refine ⟨_,scanned,?_,⟨words,rfl⟩,?_,spelled.proper,fun c member => ?_⟩
  · simp [ending,List.count_eq_zero_of_not_mem plain]
  · have whole : (words ++ ending).dropLast = words ++ [.semicolon] := by simp [ending]
    have kept : Script.isStatement (words ++ [.semicolon]) = true := by
      simpa [Script.isStatement] using spelled.ne_nil
    rw [whole,Script.statementGroups,Script.groups_append plain,List.filter_cons_of_pos kept]
    rfl
  · exact List.mem_append_left _ (spelled.name_mem c member)

/-- A statement with comments, a doubled quote and a name before each comparator. -/
def commentedDelete : String :=
  "DELETE /* all; */ FROM t -- of them;\nWHERE a = 'it''s;' and b_1 < -2; "

theorem commentedDelete_statement :
    parse commentedDelete = .ok (.delete "t" ⟨[⟨"a",.eq,"it's;"⟩,⟨"b_1",.lt,"-2"⟩],[.and]⟩) ∧
      ∃ tokens, Token.tokens commentedDelete = .ok tokens ∧
        tokens.count .semicolon = 1 ∧ [.semicolon,.endOfInput] <:+ tokens ∧
        Script.statementGroups tokens.dropLast = [tokens.dropLast] ∧
        (Statement.delete "t" ⟨[⟨"a",.eq,"it's;"⟩,⟨"b_1",.lt,"-2"⟩],[.and]⟩).Proper ∧
        ∀ c ∈ [(⟨"a",.eq,"it's;"⟩ : Clause),⟨"b_1",.lt,"-2"⟩], .name c.column ∈ tokens := by
  have parsed : parse commentedDelete =
      .ok (.delete "t" ⟨[⟨"a",.eq,"it's;"⟩,⟨"b_1",.lt,"-2"⟩],[.and]⟩) := by decide +kernel
  exact ⟨parsed,statement_of_parse parsed⟩

/-! ### What running a statement relies on -/

def WellFormed : Statement → Prop
  | .listTables | .useDatabase _ => True
  | .dropTable name | .insert name _ _ => Name.isValid name = true
  | .createTable name columns => Name.isValid name = true ∧ columns ≠ []
  | .read name _ filter | .readOrdered name _ filter _ | .update name _ filter
  | .delete name filter => Name.isValid name = true ∧ filter.Balanced

theorem balanced_of_wheres (written : filter = .everything ∨ filter.IsCondition) :
    filter.Balanced := by
  obtain rfl | complete := written
  · exact Filter.everything_balanced
  · exact complete.balanced

theorem Proper.wellFormed (proper : statement.Proper) : statement.WellFormed := by
  cases statement with
  | listTables | useDatabase => trivial
  | dropTable => exact proper
  | createTable =>
    obtain ⟨valid,columns,-⟩ := proper
    exact ⟨valid,columns⟩
  | insert => exact proper.1
  | read =>
    obtain ⟨valid,-,written⟩ := proper
    exact ⟨valid,balanced_of_wheres written⟩
  | readOrdered =>
    obtain ⟨valid,-,written,-⟩ := proper
    exact ⟨valid,balanced_of_wheres written⟩
  | update =>
    obtain ⟨valid,-,complete⟩ := proper
    exact ⟨valid,complete.balanced⟩
  | delete =>
    obtain ⟨valid,complete⟩ := proper
    exact ⟨valid,complete.balanced⟩

theorem proper_of_parse {text : String} (parsed : parse text = .ok statement) :
    statement.Proper := by
  obtain ⟨_,-,_,spelled,-⟩ := parse_eq_ok.mp parsed
  exact spelled.proper

theorem wellFormed_of_parse {text : String} (parsed : parse text = .ok statement) :
    statement.WellFormed :=
  (proper_of_parse parsed).wellFormed

end Statement
end PlainTables
