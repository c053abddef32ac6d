import PlainTables.Proofs.Action
import PlainTables.Filter.OfTokens

/-! What a condition is: comparisons with connectives between them. A filter is read from tokens
exactly if they spell it. -/
namespace PlainTables

open Actions

/-- Tokens that spell a comparison. -/
def Clause.Spells (words : List Token) (c : Clause) : Prop :=
  ∃ v, Token.value? v = some c.literal ∧ words = [.name c.column,.comparator c.comparator,v]

namespace Filter

/-- Tokens that spell comparisons and the connectives between them. -/
inductive Spells : List Token → Filter → Prop where
  | one {words : List Token} {c : Clause} : c.Spells words → Spells words ⟨[c],[]⟩
  | more {words later : List Token} {t : Token} {c : Clause} {k : Connective} {f : Filter} :
      c.Spells words → t.connective? = some k → Spells later f →
      Spells (words ++ t :: later) ⟨c :: f.clauses,k :: f.connectives⟩

variable {tokens words condition : List Token} {t : Token} {c : Clause} {f : Filter}

theorem clauseOfPiece_eq_ok : clauseOfPiece condition words = .ok c ↔ c.Spells words := by
  constructor
  · intro read
    unfold clauseOfPiece at read
    split at read
    · cases read
    · unfold Clause.ofTokens at read
      split at read
      · split at read
        · next literal value =>
          cases read
          exact ⟨_,value,rfl⟩
        · cases read
      · cases read
      · cases read
  · rintro ⟨v,value,rfl⟩
    simp [clauseOfPiece,Clause.ofTokens,value]

/-! ### Pieces -/

theorem pieces_connective {k : Connective} (joins : t.connective? = some k) :
    pieces (t :: tokens) = ([],(k,(pieces tokens).1) :: (pieces tokens).2) := by
  simp only [pieces,joins]

theorem pieces_append (plain : ∀ t ∈ words, t.connective? = none) :
    pieces (words ++ tokens) = (words ++ (pieces tokens).1,(pieces tokens).2) := by
  induction words with
  | nil => rfl
  | cons t words ih =>
    have here := plain t List.mem_cons_self
    have later := ih fun u member => plain u (List.mem_cons_of_mem _ member)
    rw [List.cons_append,pieces,later,here]
    rfl

/-- Pieces are the tokens cut at their first connective, and the pieces of what follows it. -/
theorem pieces_split (tokens : List Token) :
    pieces tokens = (tokens,[]) ∨ ∃ first t k rest, t.connective? = some k ∧
      tokens = first ++ t :: rest ∧ pieces tokens = (first,(k,(pieces rest).1) :: (pieces rest).2) := by
  induction tokens with
  | nil => exact .inl rfl
  | cons t tokens ih =>
    cases joins : t.connective? with
    | some k => exact .inr ⟨[],t,k,tokens,joins,rfl,pieces_connective joins⟩
    | none =>
      have plain : ∀ u ∈ [t], u.connective? = none := by simpa using joins
      have front : pieces ([t] ++ tokens) = ([t] ++ (pieces tokens).1,(pieces tokens).2) :=
        pieces_append plain
      rw [List.singleton_append] at front
      rcases ih with whole | ⟨first,u,k,rest,joins,split,found⟩
      · exact .inl (by rw [front,whole]; rfl)
      · exact .inr ⟨t :: first,u,k,rest,joins,by rw [split]; rfl,by rw [front,found]; rfl⟩

theorem connective?_of_value {name : String} (read : t.value? = some name) :
    t.connective? = none := by
  cases t <;> first | rfl | cases read

theorem connective?_of_spells (spelled : c.Spells words) : ∀ t ∈ words, t.connective? = none := by
  obtain ⟨v,value,rfl⟩ := spelled
  have last := connective?_of_value value
  simp only [List.forall_mem_cons]
  exact ⟨rfl,rfl,last,by simp⟩

/-! ### Filters -/

theorem ofTokens_eq_ok {clauses : List Clause} {connectives : List Connective} :
    ofTokens tokens = .ok ⟨clauses,connectives⟩ ↔
      List.Forall₂ (fun piece c => c.Spells piece)
        ((pieces tokens).1 :: (pieces tokens).2.map Prod.snd) clauses ∧
      (pieces tokens).2.map Prod.fst = connectives := by
  cases tokens with
  | nil =>
    constructor
    · intro read
      cases read
    · rintro ⟨spelled,-⟩
      cases spelled with
      | cons first =>
        obtain ⟨v,-,same⟩ := first
        cases same
  | cons t rest =>
    have run : ofTokens (t :: rest) =
        ((pieces (t :: rest)).1 :: (pieces (t :: rest)).2.map Prod.snd).mapM
          (clauseOfPiece (t :: rest)) >>=
            fun clauses => .ok ⟨clauses,(pieces (t :: rest)).2.map Prod.fst⟩ := rfl
    rw [run,check_eq_ok]
    simp only [mapM_eq_ok,clauseOfPiece_eq_ok]
    constructor
    · rintro ⟨found,spelled,returned⟩
      cases returned
      exact ⟨spelled,rfl⟩
    · rintro ⟨spelled,joined⟩
      exact ⟨_,spelled,by rw [joined]⟩

theorem spells_of_pieces {first : List Token} {later : List (Connective × List Token)}
    {clauses : List Clause} (cuts : pieces tokens = (first,later))
    (spelled : List.Forall₂ (fun piece c => c.Spells piece) (first :: later.map Prod.snd) clauses) :
    Spells tokens ⟨clauses,later.map Prod.fst⟩ := by
  induction later generalizing tokens first clauses with
  | nil =>
    rcases pieces_split tokens with whole | ⟨_,_,_,_,_,_,found⟩
    · cases whole.symm.trans cuts
      cases spelled with
      | cons here rest =>
        cases rest
        exact .one here
    · cases found.symm.trans cuts
  | cons piece later ih =>
    rcases pieces_split tokens with whole | ⟨_,t,k,rest,joins,split,found⟩
    · cases whole.symm.trans cuts
    · cases found.symm.trans cuts
      cases spelled with
      | cons here others =>
        rw [split]
        exact .more here joins (ih rfl others)

/-- A filter is read from the tokens that spell it and from no others. -/
theorem ofTokens_eq_ok_iff : ofTokens tokens = .ok f ↔ Spells tokens f := by
  obtain ⟨clauses,connectives⟩ := f
  rw [ofTokens_eq_ok]
  constructor
  · rintro ⟨spelled,rfl⟩
    exact spells_of_pieces rfl spelled
  · intro spelled
    generalize whole : (⟨clauses,connectives⟩ : Filter) = f at spelled
    induction spelled generalizing clauses connectives with
    | @one words c here =>
      cases whole
      have cuts : pieces (words ++ []) = (words ++ [],[]) :=
        pieces_append (connective?_of_spells here)
      rw [List.append_nil] at cuts
      rw [cuts]
      simpa using here
    | @more words later t c k f here joins _ ih =>
      cases whole
      have cuts : pieces (words ++ t :: later) =
          (words ++ (pieces (t :: later)).1,(pieces (t :: later)).2) :=
        pieces_append (connective?_of_spells here)
      obtain ⟨spelled,joined⟩ := ih _ _ rfl
      rw [cuts,pieces_connective joins]
      exact ⟨by simpa using ⟨here,spelled⟩,by simpa using joined⟩

theorem Spells.balanced (spelled : Spells words f) :
    f.connectives.length + 1 = f.clauses.length := by
  induction spelled with
  | one => rfl
  | more _ _ _ ih => simpa using ih

theorem Spells.filled (spelled : Spells words f) : f.isEmpty = false := by
  cases spelled <;> rfl

theorem Spells.name_mem (spelled : Spells words f) : ∀ c ∈ f.clauses, .name c.column ∈ words := by
  induction spelled with
  | one here =>
    obtain ⟨v,-,rfl⟩ := here
    simp
  | more here _ _ ih =>
    obtain ⟨v,-,rfl⟩ := here
    intro c member
    rcases List.mem_cons.mp member with rfl | member
    · simp
    · simp [ih c member]

/-- A token that ends no condition. -/
def Inside (t : Token) : Prop := t ≠ .keyword .order ∧ t ≠ .semicolon ∧ t ≠ .endOfInput

theorem inside_of_value {literal : String} (read : t.value? = some literal) : Inside t := by
  refine ⟨?_,?_,?_⟩ <;> rintro rfl <;> cases read

theorem inside_of_connective {k : Connective} (joins : t.connective? = some k) : Inside t := by
  refine ⟨?_,?_,?_⟩ <;> rintro rfl <;> cases joins

theorem Spells.inside (spelled : Spells words f) : ∀ t ∈ words, Inside t := by
  have comparison : ∀ {words : List Token} {c : Clause}, c.Spells words → ∀ t ∈ words, Inside t := by
    rintro _ c ⟨v,literal,rfl⟩
    simp only [List.forall_mem_cons]
    exact ⟨inside_of_value rfl,by simp [Inside],inside_of_value literal,by simp⟩
  induction spelled with
  | one here => exact comparison here
  | more here joins _ ih =>
    simp only [List.forall_mem_append,List.forall_mem_cons]
    exact ⟨comparison here,inside_of_connective joins,ih⟩

end Filter
end PlainTables
