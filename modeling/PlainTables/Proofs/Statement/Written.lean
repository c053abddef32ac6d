import PlainTables.Proofs.Statement.WellFormed
import PlainTables.Proofs.Token.Layout

/-! How statements are written: every word as a quoted text, but the columns of a condition as names.
What is written spells the statement. -/
namespace PlainTables

/-! ### Phrases -/

namespace Phrase

/-- Phrases with a comma between neighbours. -/
def commas : List (List Token) → List Token
  | [] => []
  | first :: later => first ++ later.flatMap (.comma :: ·)

def quoteds (values : List String) : List Token := commas (values.map fun v => [.quoted v])

def quotedTuple (values : List String) : List Token := .openParen :: (quoteds values ++ [.closeParen])

theorem commas_cons (first second : List Token) (later : List (List Token)) :
    commas (first :: second :: later) = first ++ .comma :: commas (second :: later) := by
  simp [commas]

theorem lists_quoteds {item : Token → Option String} {values : List String}
    (quoted : ∀ v, item (.quoted v) = some v) (filled : values ≠ []) :
    Lists item (quoteds values) values := by
  induction values with
  | nil => exact absurd rfl filled
  | cons v later ih =>
    cases later with
    | nil => exact .one (quoted v)
    | cons w later =>
      have more := ih (by simp)
      rw [quoteds,List.map_cons,List.map_cons,commas_cons]
      exact .more (quoted v) more

theorem isTuple_quotedTuple {values : List String} (filled : values ≠ []) :
    IsTuple (quotedTuple values) values :=
  ⟨_,lists_quoteds (fun _ => rfl) filled,rfl⟩

theorem laterTuples_quoted {rows : List (List String)} (filled : ∀ row ∈ rows, row ≠ []) :
    LaterTuples ((rows.map quotedTuple).flatMap (.comma :: ·)) rows := by
  induction rows with
  | nil => exact .none
  | cons row rows ih =>
    obtain ⟨here,later⟩ := List.forall_mem_cons.mp filled
    exact .more (.inr rfl) (isTuple_quotedTuple here) (ih later)

def quotedAssignment (a : Assignment) : List Token :=
  [.quoted a.column,.comparator .eq,.quoted a.value]

theorem assigns_quoted {assigned : List Assignment} (filled : assigned ≠ []) :
    Assigns (commas (assigned.map quotedAssignment))
      (assigned.map fun a => (a.column,.eq,a.value)) := by
  induction assigned with
  | nil => exact absurd rfl filled
  | cons a later ih =>
    cases later with
    | nil => exact .one rfl rfl
    | cons b later =>
      have more := ih (by simp)
      rw [List.map_cons,List.map_cons,commas_cons]
      exact .more rfl rfl more

theorem orders_quoted (column : String) (ascending : Bool) :
    Orders [.keyword .order,.keyword .by,.quoted column,
      .keyword (if ascending then .asc else .desc)] ⟨column,ascending⟩ := by
  cases ascending with
  | true => exact .asc (.inr rfl)
  | false => exact .desc (.inr rfl)

theorem writable_commas {phrases : List (List Token)}
    (writable : ∀ phrase ∈ phrases, ∀ t ∈ phrase, t.Writable) : ∀ t ∈ commas phrases, t.Writable := by
  cases phrases with
  | nil => simp [commas]
  | cons first later =>
    obtain ⟨here,others⟩ := List.forall_mem_cons.mp writable
    refine List.forall_mem_append.mpr ⟨here,fun t member => ?_⟩
    obtain ⟨phrase,inside,last⟩ := List.mem_flatMap.mp member
    exact List.forall_mem_cons.mpr ⟨trivial,others phrase inside⟩ t last

theorem writable_quoteds (values : List String) : ∀ t ∈ quoteds values, t.Writable := by
  apply writable_commas
  intro phrase member t inside
  obtain ⟨v,-,rfl⟩ := List.mem_map.mp member
  rw [List.mem_singleton.mp inside]
  trivial

theorem writable_quotedTuple (values : List String) : ∀ t ∈ quotedTuple values, t.Writable := by
  simp only [quotedTuple,List.forall_mem_cons,List.forall_mem_append]
  exact ⟨trivial,writable_quoteds values,trivial,by simp⟩

end Phrase

/-! ### Conditions -/

def Connective.token : Connective → Token
  | .and => .keyword .and
  | .or => .keyword .or

theorem Connective.connective?_token (k : Connective) : k.token.connective? = some k := by
  cases k <;> rfl

def Clause.written (c : Clause) : List Token :=
  [.name c.column,.comparator c.comparator,.quoted c.literal]

namespace Filter

def written (f : Filter) : List Token :=
  match f.clauses with
  | [] => []
  | first :: later =>
    first.written ++ (f.connectives.zip later).flatMap fun (k,c) => k.token :: c.written

/-- The condition of a SELECT, which is left out where the filter accepts everything. -/
def writtenWhere (f : Filter) : List Token :=
  if f = .everything then [] else .keyword .where :: f.written

/-- The columns that are compared can be written as names. -/
def PlainColumns (f : Filter) : Prop := ∀ c ∈ f.clauses, Token.IsPlainName c.column.toList

instance (f : Filter) : Decidable f.PlainColumns := inferInstanceAs (Decidable (∀ _ ∈ _, _))

theorem spells_written {f : Filter} (complete : f.IsCondition) : f.Spells f.written := by
  obtain ⟨clauses,connectives⟩ := f
  cases clauses with
  | nil => simp [IsCondition] at complete
  | cons first later =>
    have sizes : connectives.length = later.length := by simpa [IsCondition] using complete
    have here : first.Spells first.written := ⟨_,rfl,rfl⟩
    clear complete
    induction later generalizing first connectives with
    | nil =>
      rw [List.length_eq_zero_iff.mp sizes]
      exact .one here
    | cons second later ih =>
      obtain ⟨k,connectives,rfl⟩ := List.exists_cons_of_length_eq_add_one sizes
      have more := ih connectives second (by simpa using sizes) ⟨_,rfl,rfl⟩
      exact .more here k.connective?_token more

theorem writable_written {f : Filter} (plain : f.PlainColumns) : ∀ t ∈ f.written, t.Writable := by
  have comparison : ∀ c ∈ f.clauses, ∀ t ∈ c.written, t.Writable := by
    intro c member
    simp only [Clause.written,List.forall_mem_cons]
    exact ⟨plain c member,trivial,trivial,by simp⟩
  unfold written
  split
  · simp
  · next first later clauses =>
    rw [clauses] at comparison
    refine List.forall_mem_append.mpr ⟨comparison first List.mem_cons_self,fun t member => ?_⟩
    obtain ⟨⟨k,c⟩,joined,inside⟩ := List.mem_flatMap.mp member
    refine List.forall_mem_cons.mpr ⟨?_,comparison c ?_⟩ t inside
    · cases k <;> trivial
    · exact List.mem_cons_of_mem _ (List.of_mem_zip joined).2

end Filter

/-! ### Statements -/

namespace Statement

open Phrase

/-- The tokens of a statement as it is written, up to its semicolon. -/
def written : Statement → List Token
  | .listTables => [.keyword .show,.keyword .tables]
  | .useDatabase name => [.keyword .use,.keyword .database,.quoted name]
  | .dropTable name => [.keyword .drop,.keyword .table,.quoted name]
  | .createTable name columns =>
    .keyword .create :: .keyword .table :: .quoted name :: quotedTuple columns
  | .insert name fields rows =>
    .keyword .insert :: .keyword .into :: .quoted name ::
      (quotedTuple fields ++ .keyword .values :: commas (rows.map quotedTuple))
  | .read name fields filter =>
    .keyword .select :: (quoteds fields ++ .keyword .from :: .quoted name :: filter.writtenWhere)
  | .readOrdered name fields filter key =>
    .keyword .select :: (quoteds fields ++ .keyword .from :: .quoted name ::
      (filter.writtenWhere ++ [.keyword .order,.keyword .by,.quoted key.column,
        .keyword (if key.ascending then .asc else .desc)]))
  | .update name assigned filter =>
    .keyword .update :: .keyword .table :: .quoted name :: .keyword .set ::
      (commas (assigned.map quotedAssignment) ++ .keyword .where :: filter.written)
  | .delete name filter =>
    .keyword .delete :: .keyword .from :: .quoted name :: .keyword .where :: filter.written

variable {statement : Statement} {filter : Filter}

theorem wheres_written (written : filter = .everything ∨ filter.IsCondition) :
    Wheres filter.writtenWhere filter := by
  by_cases all : filter = .everything
  · rw [Filter.writtenWhere,if_pos all,all]
    exact .none
  · rw [Filter.writtenWhere,if_neg all]
    exact .some (Filter.spells_written (written.resolve_left all))

theorem writable_writtenWhere (plain : filter.PlainColumns) :
    ∀ t ∈ filter.writtenWhere, t.Writable := by
  unfold Filter.writtenWhere
  split
  · simp
  · exact List.forall_mem_cons.mpr ⟨trivial,Filter.writable_written plain⟩

theorem Proper.spells_written (proper : statement.Proper) : Spells statement.written statement := by
  cases statement with
  | listTables => exact .listTables
  | useDatabase => exact .useDatabase (.inr rfl) rfl proper
  | dropTable => exact .dropTable rfl proper
  | createTable =>
    obtain ⟨valid,filled,columns⟩ := proper
    exact .createTable rfl valid (isTuple_quotedTuple filled) columns
  | insert name fields rows =>
    obtain ⟨valid,filled,some,nonempty⟩ := proper
    obtain ⟨row,rows,rfl⟩ := List.exists_cons_of_ne_nil some
    obtain ⟨first,later⟩ := List.forall_mem_cons.mp nonempty
    exact .insert rfl valid (isTuple_quotedTuple filled) (isTuple_quotedTuple first)
      (laterTuples_quoted later)
  | read =>
    obtain ⟨valid,filled,condition⟩ := proper
    exact .read (lists_quoteds (fun _ => rfl) filled) rfl valid (wheres_written condition)
  | readOrdered _ _ _ key =>
    obtain ⟨valid,filled,condition,named⟩ := proper
    exact .readOrdered (lists_quoteds (fun _ => rfl) filled) rfl valid (wheres_written condition)
      (orders_quoted key.column key.ascending) named
  | update =>
    obtain ⟨valid,filled,complete⟩ := proper
    exact .update rfl valid (assigns_quoted filled) (Filter.spells_written complete)
  | delete =>
    obtain ⟨valid,complete⟩ := proper
    exact .delete rfl valid (Filter.spells_written complete)

theorem writable_written (plain : statement.filter.PlainColumns) :
    ∀ t ∈ statement.written, t.Writable := by
  cases statement with
  | listTables | useDatabase | dropTable =>
    simp only [written,List.forall_mem_cons]
    exact ⟨trivial,trivial,by simp [Token.Writable]⟩
  | createTable name columns =>
    simp only [written,List.forall_mem_cons]
    exact ⟨trivial,trivial,trivial,writable_quotedTuple columns⟩
  | insert name fields rows =>
    have tuples : ∀ t ∈ commas (rows.map quotedTuple), t.Writable := by
      apply writable_commas
      simpa using fun row _ => writable_quotedTuple row
    simp only [written,List.forall_mem_cons,List.forall_mem_append]
    exact ⟨trivial,trivial,trivial,writable_quotedTuple fields,trivial,tuples⟩
  | read name fields filter =>
    simp only [written,List.forall_mem_cons,List.forall_mem_append]
    exact ⟨trivial,writable_quoteds fields,trivial,trivial,writable_writtenWhere plain⟩
  | readOrdered name fields filter key =>
    simp only [written,List.forall_mem_cons,List.forall_mem_append]
    exact ⟨trivial,writable_quoteds fields,trivial,trivial,writable_writtenWhere plain,trivial,
      trivial,trivial,trivial,by simp⟩
  | update name assigned filter =>
    have assignments : ∀ t ∈ commas (assigned.map quotedAssignment), t.Writable := by
      apply writable_commas
      intro phrase member
      obtain ⟨a,-,rfl⟩ := List.mem_map.mp member
      simp [quotedAssignment,Token.Writable]
    simp only [written,List.forall_mem_cons,List.forall_mem_append]
    exact ⟨trivial,trivial,trivial,trivial,assignments,trivial,Filter.writable_written plain⟩
  | delete name filter =>
    simp only [written,List.forall_mem_cons]
    exact ⟨trivial,trivial,trivial,trivial,Filter.writable_written plain⟩

/-- A text of one statement. -/
def text (statement : Statement) : String :=
  String.ofList (Token.spaced (statement.written ++ [.semicolon]))

theorem parse_text (proper : statement.Proper) (plain : statement.filter.PlainColumns) :
    parse statement.text = .ok statement := by
  have writable : ∀ t ∈ statement.written ++ [.semicolon], t.Writable :=
    List.forall_mem_append.mpr ⟨writable_written plain,by simp [Token.Writable]⟩
  have tokens := (Token.layout_spaced writable).reads.scans.tokens
  exact parse_eq_ok.mpr ⟨_,tokens,_,proper.spells_written,by simp [Phrase.ending]⟩

end Statement
end PlainTables
