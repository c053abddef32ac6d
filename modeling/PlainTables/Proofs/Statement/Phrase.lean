import Mathlib.Data.List.TakeDrop
import Mathlib.Data.List.TakeWhile
import PlainTables.Statement.Phrase

/-! What the phrases of a statement are. A phrase is read from the front of a token list exactly if
the list begins with tokens that spell it and goes on with something that cannot belong to it. -/
namespace PlainTables.Phrase

open Token (value?)

variable {α : Type} {item : Token → Option α} {tokens after words : List Token} {t : Token}

/-! ### Lists -/

/-- Tokens that spell items, with a comma between neighbours. -/
inductive Lists (item : Token → Option α) : List Token → List α → Prop where
  | one {t : Token} {a : α} : item t = some a → Lists item [t] [a]
  | more {t : Token} {a : α} {words : List Token} {items : List α} : item t = some a →
      Lists item words items → Lists item (t :: .comma :: words) (a :: items)

theorem Lists.ne_nil {items : List α} (lists : Lists item words items) : items ≠ [] := by
  cases lists <;> simp

theorem Lists.not_mem {items : List α} (lists : Lists item words items) (other : item t = none)
    (comma : t ≠ .comma) : t ∉ words := by
  induction lists with
  | one read =>
    simp only [List.mem_singleton]
    rintro rfl
    simp [other] at read
  | more read _ ih =>
    simp only [List.mem_cons,not_or]
    refine ⟨?_,comma,ih⟩
    rintro rfl
    simp [other] at read

theorem semicolon_not_mem_fields {fields : List String} (lists : Lists field? words fields) :
    .semicolon ∉ words :=
  lists.not_mem rfl (by simp)

theorem listOf_comma (rest : List Token) :
    listOf item (t :: .comma :: rest) =
      (item t).bind fun a => (listOf item rest).map fun (later,after) => (a :: later,after) := by
  rw [listOf.eq_2]
  cases item t <;> cases listOf item rest <;> rfl

theorem listOf_last (ends : after.head? ≠ some .comma) :
    listOf item (t :: after) = (item t).map fun a => ([a],after) := by
  apply listOf.eq_3
  rintro rest rfl
  exact ends rfl

theorem listOf_eq_some {items : List α} : listOf item tokens = some (items,after) ↔
    ∃ words, Lists item words items ∧ tokens = words ++ after ∧ after.head? ≠ some .comma := by
  constructor
  · intro read
    fun_induction listOf item tokens generalizing items with
    | case1 => cases read
    | case2 t rest a later rest' found here ih =>
      cases read
      obtain ⟨words,lists,rfl,ends⟩ := ih found
      exact ⟨_,.more here lists,rfl,ends⟩
    | case3 => cases read
    | case4 t rest last =>
      obtain ⟨a,here,same⟩ := Option.map_eq_some_iff.mp read
      cases same
      refine ⟨[t],.one here,rfl,fun comma => ?_⟩
      obtain ⟨more,rfl⟩ := List.head?_eq_some_iff.mp comma
      exact last more rfl
  · rintro ⟨words,lists,rfl,ends⟩
    induction lists with
    | one here => rw [List.singleton_append,listOf_last ends,here,Option.map_some]
    | more here _ ih =>
      rw [List.cons_append,List.cons_append,listOf_comma,here,ih]
      rfl

/-! ### Tuples -/

/-- Tokens that spell a list of values in parentheses. -/
def IsTuple (words : List Token) (values : List String) : Prop :=
  ∃ inner, Lists value? inner values ∧ words = .openParen :: (inner ++ [.closeParen])

theorem IsTuple.ne_nil {values : List String} (spelled : IsTuple words values) : values ≠ [] := by
  obtain ⟨inner,lists,-⟩ := spelled
  exact lists.ne_nil

theorem IsTuple.semicolon_not_mem {values : List String} (spelled : IsTuple words values) :
    .semicolon ∉ words := by
  obtain ⟨inner,lists,rfl⟩ := spelled
  simpa using lists.not_mem rfl (by simp)

theorem tuple_eq_some {values : List String} : tuple tokens = some (values,after) ↔
    ∃ words, IsTuple words values ∧ tokens = words ++ after := by
  constructor
  · intro read
    unfold tuple at read
    split at read
    · split at read
      · next found =>
        cases read
        obtain ⟨inner,lists,rfl,-⟩ := listOf_eq_some.mp found
        exact ⟨_,⟨inner,lists,rfl⟩,by simp⟩
      · cases read
    · cases read
  · rintro ⟨_,⟨inner,lists,rfl⟩,rfl⟩
    have found : listOf value? (inner ++ .closeParen :: after) = some (values,.closeParen :: after) :=
      listOf_eq_some.mpr ⟨inner,lists,rfl,by simp⟩
    simp [tuple,found]

/-- Tokens that spell tuples, with or without a comma before each. -/
inductive LaterTuples : List Token → List (List String) → Prop where
  | none : LaterTuples [] []
  | more {comma words later : List Token} {row : List String} {rows : List (List String)} :
      comma = [] ∨ comma = [.comma] → IsTuple words row → LaterTuples later rows →
      LaterTuples (comma ++ words ++ later) (row :: rows)

theorem LaterTuples.ne_nil {rows : List (List String)} (spelled : LaterTuples words rows) :
    ∀ row ∈ rows, row ≠ [] := by
  induction spelled with
  | none => simp
  | more _ here _ ih => simpa using ⟨here.ne_nil,ih⟩

theorem LaterTuples.semicolon_not_mem {rows : List (List String)}
    (spelled : LaterTuples words rows) : .semicolon ∉ words := by
  induction spelled with
  | none => simp
  | more comma here _ ih =>
    have plain := here.semicolon_not_mem
    rcases comma with rfl | rfl <;> simp [plain,ih]

theorem skipComma_eq (tokens : List Token) :
    ∃ comma, (comma = [] ∨ comma = [.comma]) ∧ tokens = comma ++ skipComma tokens := by
  unfold skipComma
  split
  · exact ⟨[.comma],.inr rfl,rfl⟩
  · exact ⟨[],.inl rfl,rfl⟩

theorem laterTuples_step {row : List String} (goes : tokens.head? ≠ some .semicolon)
    (found : tuple (skipComma tokens) = some (row,after)) :
    laterTuples tokens =
      (laterTuples after).map fun (rows,rest) => (row :: rows,rest) := by
  rw [laterTuples.eq_def,if_neg goes]
  split
  · next missing => simp [found] at missing
  · next row' rest' found' =>
    cases found.symm.trans found'
    cases laterTuples after <;> rfl

theorem laterTuples_eq_some {rows : List (List String)} : laterTuples tokens = some (rows,after) ↔
    ∃ words, LaterTuples words rows ∧ tokens = words ++ after ∧ after.head? = some .semicolon := by
  constructor
  · intro read
    fun_induction laterTuples tokens generalizing rows with
    | case1 tokens ends =>
      cases read
      exact ⟨[],.none,rfl,ends⟩
    | case2 => cases read
    | case3 tokens _ row rest found rows' after' later ih =>
      cases read
      obtain ⟨words,here,split⟩ := tuple_eq_some.mp found
      obtain ⟨more,spelled,rfl,ends⟩ := ih later
      obtain ⟨comma,optional,whole⟩ := skipComma_eq tokens
      refine ⟨_,.more optional here spelled,?_,ends⟩
      rw [whole,split]
      simp
    | case4 => cases read
  · rintro ⟨words,spelled,rfl,ends⟩
    induction spelled with
    | none => rw [List.nil_append,laterTuples.eq_def,if_pos ends]
    | @more comma words later row rows optional here _ ih =>
      have found : tuple (words ++ (later ++ after)) = some (row,later ++ after) :=
        tuple_eq_some.mpr ⟨words,here,rfl⟩
      have next : laterTuples (comma ++ (words ++ (later ++ after))) =
          (laterTuples (later ++ after)).map fun (rows,rest) => (row :: rows,rest) := by
        obtain ⟨inner,-,rfl⟩ := here
        rcases optional with rfl | rfl <;> exact laterTuples_step (by simp) found
      rw [List.append_assoc,List.append_assoc,next,ih]
      rfl

/-! ### Assignments -/

/-- Tokens that spell assignments, with a comma between neighbours. -/
inductive Assigns : List Token → List (String × Comparator × String) → Prop where
  | one {c v : Token} {column value : String} {symbol : Comparator} : value? c = some column →
      value? v = some value → Assigns [c,.comparator symbol,v] [(column,symbol,value)]
  | more {c v : Token} {column value : String} {symbol : Comparator} {words : List Token}
      {later : List (String × Comparator × String)} : value? c = some column →
      value? v = some value → Assigns words later →
      Assigns (c :: .comparator symbol :: v :: .comma :: words) ((column,symbol,value) :: later)

theorem Assigns.ne_nil {written : List (String × Comparator × String)}
    (spelled : Assigns words written) : written ≠ [] := by
  cases spelled <;> simp

theorem semicolon_ne_of_value {name : String} (read : value? t = some name) : .semicolon ≠ t := by
  rintro rfl
  cases read

theorem Assigns.semicolon_not_mem {written : List (String × Comparator × String)}
    (spelled : Assigns words written) : .semicolon ∉ words := by
  induction spelled with
  | one column value => simp [semicolon_ne_of_value column,semicolon_ne_of_value value]
  | more column value _ ih => simp [semicolon_ne_of_value column,semicolon_ne_of_value value,ih]

theorem comparator?_eq_some {c : Comparator} : t.comparator? = some c ↔ t = .comparator c := by
  cases t <;> simp [Token.comparator?]

theorem assignments_eq_some {written : List (String × Comparator × String)} :
    assignments tokens = some (written,after) ↔
      ∃ words, Assigns words written ∧ tokens = words ++ after ∧ after.head? ≠ some .comma := by
  constructor
  · intro read
    fun_induction assignments tokens generalizing written with
    | case1 c o v rest column symbol value later rest' found here op name ih =>
      cases read
      rw [comparator?_eq_some.mp op]
      obtain ⟨words,spelled,rfl,ends⟩ := ih found
      exact ⟨_,.more name here spelled,rfl,ends⟩
    | case3 c o v rest last column symbol value here op name =>
      cases read
      rw [comparator?_eq_some.mp op]
      refine ⟨_,.one name here,rfl,fun comma => ?_⟩
      obtain ⟨more,rfl⟩ := List.head?_eq_some_iff.mp comma
      exact last more rfl
    | case2 | case4 | case5 => cases read
  · rintro ⟨words,spelled,rfl,ends⟩
    induction spelled with
    | @one c v column value symbol name here =>
      have last : ∀ rest, after ≠ .comma :: rest := by
        rintro rest rfl
        exact ends rfl
      simp [assignments,name,here,Token.comparator?]
    | more name here _ ih =>
      simp only [List.cons_append,assignments,name,here,Token.comparator?,ih]

/-! ### Heads and orders of a SELECT -/

theorem selectHead_eq_some {fields : List String} {name : String} :
    selectHead tokens = some (fields,name,after) ↔
      ∃ words t, Lists field? words fields ∧ value? t = some name ∧
        tokens = .keyword .select :: (words ++ .keyword .from :: t :: after) := by
  constructor
  · intro read
    unfold selectHead at read
    split at read
    · split at read
      · next found =>
        obtain ⟨words,lists,rfl,-⟩ := listOf_eq_some.mp found
        obtain ⟨_,value,same⟩ := Option.map_eq_some_iff.mp read
        cases same
        exact ⟨words,_,lists,value,rfl⟩
      · cases read
    · cases read
  · rintro ⟨words,t,lists,value,rfl⟩
    have found : listOf field? (words ++ .keyword .from :: t :: after) =
        some (fields,.keyword .from :: t :: after) :=
      listOf_eq_some.mpr ⟨words,lists,rfl,by simp⟩
    simp [selectHead,found,value]

/-- Tokens that spell an order by a column with a name. -/
inductive Orders : List Token → SortKey → Prop where
  | plain {t : Token} {column : String} : t = .name column ∨ t = .quoted column →
      Orders [.keyword .order,.keyword .by,t] ⟨column,true⟩
  | asc {t : Token} {column : String} : t = .name column ∨ t = .quoted column →
      Orders [.keyword .order,.keyword .by,t,.keyword .asc] ⟨column,true⟩
  | desc {t : Token} {column : String} : t = .name column ∨ t = .quoted column →
      Orders [.keyword .order,.keyword .by,t,.keyword .desc] ⟨column,false⟩

theorem sortColumn_ne_empty {column : String} (read : sortColumn tokens = (column,after))
    (named : column ≠ "") :
    ∃ t, (t = .name column ∨ t = .quoted column) ∧ tokens = t :: after := by
  unfold sortColumn at read
  split at read <;> cases read
  · exact ⟨_,.inl rfl,rfl⟩
  · exact ⟨_,.inr rfl,rfl⟩
  · exact absurd rfl named

theorem orders_of_sortKey {key : SortKey} (read : sortKey tokens = some key)
    (named : key.column ≠ "") : ∃ words, Orders words key ∧ tokens = words ++ ending := by
  unfold sortKey at read
  split at read
  · next rest =>
    obtain ⟨column,afterColumn,found⟩ : ∃ column afterColumn, sortColumn rest = (column,afterColumn) :=
      ⟨_,_,rfl⟩
    simp only [found] at read
    split at read
    · next ends =>
      cases read
      obtain ⟨t,word,rfl⟩ := sortColumn_ne_empty found named
      unfold sortDirection at ends ⊢
      split at ends <;> subst ends
      · exact ⟨_,.asc word,rfl⟩
      · exact ⟨_,.desc word,rfl⟩
      · exact ⟨_,.plain word,rfl⟩
    · cases read
  · cases read

theorem sortKey_of_orders {key : SortKey} (spelled : Orders words key) :
    sortKey (words ++ ending) = some key := by
  cases spelled with
  | plain word | asc word | desc word => rcases word with rfl | rfl <;> rfl

theorem Orders.semicolon_not_mem {key : SortKey} (spelled : Orders words key) :
    .semicolon ∉ words := by
  cases spelled with
  | plain word | asc word | desc word => rcases word with rfl | rfl <;> simp

/-! ### Conditions -/

theorem upTo_append {stop : Token → Bool} {condition : List Token}
    (inside : ∀ t ∈ condition, stop t = false ∧ t ≠ .endOfInput)
    (ends : ∃ t ∈ after.head?, stop t = true) : upTo stop (condition ++ after) = (condition,after) := by
  obtain ⟨t,first,stops⟩ := ends
  obtain ⟨rest,rfl⟩ := List.head?_eq_some_iff.mp first
  have kept : ∀ t ∈ condition, (!(stop t || decide (t = .endOfInput))) = true := by
    simpa using inside
  rw [upTo,List.span_eq_takeWhile_dropWhile,List.takeWhile_append_of_pos kept,
    List.dropWhile_append_of_pos kept]
  simp [stops]

theorem of_upTo {stop : Token → Bool} {condition : List Token}
    (read : upTo stop tokens = (condition,after)) :
    tokens = condition ++ after ∧ ∀ t ∈ condition, stop t = false ∧ t ≠ .endOfInput := by
  rw [upTo,List.span_eq_takeWhile_dropWhile] at read
  cases read
  refine ⟨List.takeWhile_append_dropWhile.symm,fun t member => ?_⟩
  simpa using List.mem_takeWhile_imp member

theorem lastCondition_eq_some {condition : List Token} : lastCondition tokens = some condition ↔
    tokens = condition ++ ending ∧ ∀ t ∈ condition, t ≠ .semicolon ∧ t ≠ .endOfInput := by
  constructor
  · intro read
    obtain ⟨front,rest,found⟩ : ∃ front rest, upTo (· = .semicolon) tokens = (front,rest) := ⟨_,_,rfl⟩
    simp only [lastCondition,found] at read
    split at read
    · next ends =>
      cases read
      rw [ends] at found
      simpa using of_upTo found
    · cases read
  · rintro ⟨rfl,inside⟩
    have found : upTo (· = .semicolon) (condition ++ ending) = (condition,ending) :=
      upTo_append (by simpa using inside) ⟨.semicolon,rfl,by simp⟩
    simp [lastCondition,found]

end PlainTables.Phrase
