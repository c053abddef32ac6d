import PlainTables.Proofs.Token.Reads

/-! How tokens are written. A text that holds each token as it is written, with blanks between them
where two would run together, is scanned to those tokens. -/
namespace PlainTables.Token

open Unicode (isBlank isWordChar)

variable {c : Char} {more rest text : List Char} {t : Token} {ts : List Token}

/-- Letters, digits and underscores that are read as a name: not digits alone, and no keyword. -/
def IsPlainName (text : List Char) : Prop :=
  text ≠ [] ∧ text.all isWordChar = true ∧ text.all Char.isDigit = false ∧
    Keyword.ofWord? text = none

instance (text : List Char) : Decidable (IsPlainName text) := inferInstanceAs (Decidable (_ ∧ _))

/-- A token in a text. A quoted text has every quote in it twice. -/
def written : Token → List Char
  | .keyword k => k.word.toList
  | .number s | .name s => s.toList
  | .quoted s => '\'' :: (doubled '\'' s.toList ++ ['\''])
  | .comparator c => c.symbol.toList
  | .star => ['*']
  | .comma => [',']
  | .semicolon => [';']
  | .openParen => ['(']
  | .closeParen => [')']
  | .endOfInput => []

/-- A token that is read back wherever it is written. -/
def Writable : Token → Prop
  | .name s => IsPlainName s.toList
  | .number _ | .endOfInput => False
  | _ => True

/-- A text that can follow a token, since its first character cannot belong to the token. -/
def Parted : Token → List Char → Prop
  | .keyword _,rest | .name _,rest => ∀ c ∈ rest.head?, isWordChar c = false
  | .quoted _,rest => rest.head? ≠ some '\''
  | .comparator .lt,rest => rest.head? ≠ some '=' ∧ rest.head? ≠ some '>'
  | .comparator .gt,rest => rest.head? ≠ some '='
  | _,_ => True

/-- A text in which tokens are written one after the other, with any blanks around them. -/
inductive Layout : List Token → List Char → Prop where
  | done : Layout [] []
  | blank {c : Char} {rest : List Char} {ts : List Token} : isBlank c = true → Layout ts rest →
      Layout ts (c :: rest)
  | token {t : Token} {rest : List Char} {ts : List Token} : t.Writable → Parted t rest →
      Layout ts rest → Layout (t :: ts) (t.written ++ rest)

/-! ### Words -/

theorem front_word (word : isWordChar c = true) : front c rest = frontOfWord (wordAt (c :: rest)) := by
  have apart : ∀ d, isWordChar d = false → c ≠ d := by
    rintro d other rfl
    rw [word] at other
    cases other
  have full : isBlank c = false := by
    by_contra blank
    have other := isWordChar_of_isBlank (by simpa using blank)
    rw [word] at other
    cases other
  simp [front.eq_def,full,word,apart ',' (by decide),apart ';' (by decide),apart '(' (by decide),
    apart ')' (by decide),apart '*' (by decide),apart '=' (by decide),apart '<' (by decide),
    apart '>' (by decide),apart '!' (by decide),apart '-' (by decide),apart '/' (by decide),
    apart '\'' (by decide),apart '"' (by decide)]

theorem wordAt_eq (word : ∀ c ∈ text, isWordChar c = true) (digits : text.all Char.isDigit = false)
    (ends : ∀ c ∈ rest.head?, isWordChar c = false) : wordAt (text ++ rest) = text := by
  have run : (text ++ rest).takeWhile isWordChar = text := takeWhile_append_eq word ends
  simp [wordAt,run,digits]

/-- A word that is not all digits is a keyword or a name. -/
theorem ofWord_eq (word : ∀ c ∈ text, isWordChar c = true) (digits : text.all Char.isDigit = false) :
    ofWord text = match Keyword.ofWord? text with
      | some k => .keyword k
      | none => .name (String.ofList text) := by
  have unsigned : text.head? ≠ some '-' := by
    intro first
    exact absurd (word _ (List.mem_of_mem_head? first)) (by decide)
  have letter : text.all (fun c => c.isDigit || c = '.') = false := by
    obtain ⟨c,member,other⟩ := List.all_eq_false.mp digits
    refine List.all_eq_false.mpr ⟨c,member,?_⟩
    have point : c ≠ '.' := by
      rintro rfl
      exact absurd (word _ member) (by decide)
    simp [other,point]
  cases found : Keyword.ofWord? text <;> simp [ofWord,unsigned,letter,found]

theorem ofWord_name (plain : IsPlainName text) : ofWord text = .name (String.ofList text) := by
  obtain ⟨-,word,digits,unreserved⟩ := plain
  rw [ofWord_eq (List.all_eq_true.mp word) digits,unreserved]

theorem ofWord_keyword (k : Keyword) : ofWord k.word.toList = .keyword k := by
  cases k <;> decide

/-! ### Steps -/

theorem reads_front (c : Char) (more : List Char)
    (ends : (front c (more ++ rest)).width? = some more.length)
    (closed : closes c (more ++ rest) = true) (reads : Reads rest ts) :
    Reads (c :: more ++ rest) ((front c (more ++ rest)).tokens ++ ts) := by
  have later : Reads ((more ++ rest).drop more.length) ts := by rwa [List.drop_left]
  exact .step ends closed later

theorem reads_token (c : Char) (more : List Char) (here : front c (more ++ rest) = .token t more.length)
    (closed : closes c (more ++ rest) = true) (reads : Reads rest ts) :
    Reads (c :: more ++ rest) (t :: ts) := by
  have step := reads_front c more (by rw [here]; rfl) closed reads
  rwa [here] at step

theorem reads_skipped (c : Char) (more : List Char) (here : front c (more ++ rest) = .skipped more.length)
    (closed : closes c (more ++ rest) = true) (reads : Reads rest ts) :
    Reads (c :: more ++ rest) ts := by
  have step := reads_front c more (by rw [here]; rfl) closed reads
  rwa [here] at step

/-- A text that begins with a word character and is one word is read as that word. -/
theorem reads_wordAt (filled : text ≠ []) (first : ∀ c ∈ text.head?, isWordChar c = true)
    (whole : wordAt (text ++ rest) = text) (reads : Reads rest ts) :
    Reads (text ++ rest) (ofWord text :: ts) := by
  obtain ⟨c,more,rfl⟩ := List.exists_cons_of_ne_nil filled
  have word := first c rfl
  apply reads_token _ _ _ _ reads
  · rw [front_word word,← List.cons_append,whole]
    rfl
  · have quote : c ≠ '\'' ∧ c ≠ '"' := by
      constructor <;> rintro rfl <;> exact absurd word (by decide)
    simp [closes,quote]

theorem reads_word (filled : text ≠ []) (word : ∀ c ∈ text, isWordChar c = true)
    (digits : text.all Char.isDigit = false) (ends : ∀ c ∈ rest.head?, isWordChar c = false)
    (reads : Reads rest ts) : Reads (text ++ rest) (ofWord text :: ts) :=
  reads_wordAt filled (fun c first => word c (List.mem_of_mem_head? first))
    (wordAt_eq word digits ends) reads

theorem reads_quoted {q : Char} (quote : q = '\'' ∨ q = '"') (text : List Char)
    (ends : rest.head? ≠ some q) (reads : Reads rest ts) :
    Reads (q :: (doubled q text ++ [q]) ++ rest) (.quoted (String.ofList text) :: ts) := by
  have read : untilQuote q (doubled q text ++ [q] ++ rest) =
      some (text,(doubled q text ++ [q]).length) :=
    untilQuote_eq_some.mpr ⟨rest,by simp,ends,by simp⟩
  apply reads_token _ _ _ _ reads
  · exact front_quote quote read
  · rw [closes,read]
    simp

theorem reads_comparator {k : Comparator} (parted : Parted (.comparator k) rest)
    (reads : Reads rest ts) : Reads (k.symbol.toList ++ rest) (.comparator k :: ts) := by
  cases k with
  | eq => exact reads_token '=' [] (by simp [front.eq_def,isBlank]) rfl reads
  | notEq => exact reads_token '!' ['='] (by simp [front_bang]) rfl reads
  | gt =>
    refine reads_token '>' [] ?_ rfl reads
    rw [List.nil_append,front_greater,if_neg parted]
    rfl
  | lt =>
    refine reads_token '<' [] ?_ rfl reads
    rw [List.nil_append,front_less,if_neg parted.1,if_neg parted.2]
    rfl
  | gtEq => exact reads_token '>' ['='] (by simp [front_greater]) rfl reads
  | ltEq => exact reads_token '<' ['='] (by simp [front_less]) rfl reads

theorem Reads.of_written (writable : t.Writable) (parted : Parted t rest) (reads : Reads rest ts) :
    Reads (t.written ++ rest) (t :: ts) := by
  cases t with
  | keyword k =>
    have word : k.word.toList ≠ [] ∧ k.word.toList.all isWordChar = true ∧
        k.word.toList.all Char.isDigit = false := by
      cases k <;> decide
    obtain ⟨filled,word,digits⟩ := word
    have here := reads_word filled (List.all_eq_true.mp word) digits parted reads
    rwa [ofWord_keyword] at here
  | name s =>
    have same := ofWord_name writable
    obtain ⟨filled,word,digits,-⟩ := writable
    have here := reads_word filled (List.all_eq_true.mp word) digits parted reads
    rwa [same,String.ofList_toList] at here
  | quoted s =>
    have here := reads_quoted (.inl rfl) s.toList parted reads
    rwa [String.ofList_toList] at here
  | comparator k => exact reads_comparator parted reads
  | number | endOfInput => cases writable
  | star => exact reads_token '*' [] (by simp [front.eq_def,isBlank]) rfl reads
  | comma => exact reads_token ',' [] (by simp [front.eq_def,isBlank]) rfl reads
  | semicolon => exact reads_token ';' [] front_semicolon rfl reads
  | openParen => exact reads_token '(' [] (by simp [front.eq_def,isBlank]) rfl reads
  | closeParen => exact reads_token ')' [] (by simp [front.eq_def,isBlank]) rfl reads

theorem Reads.cons_blank (blank : isBlank c = true) (reads : Reads rest ts) :
    Reads (c :: rest) ts := by
  have quote : c ≠ '\'' ∧ c ≠ '"' := by
    constructor <;> rintro rfl <;> exact absurd blank (by decide)
  exact reads_skipped c [] (front_blank blank) (by simp [closes,quote]) reads

/-- What is written is read back. -/
theorem Layout.reads (layout : Layout ts text) : Reads text ts := by
  induction layout with
  | done => exact .refl
  | blank blank _ ih => exact ih.cons_blank blank
  | token writable parted _ ih => exact ih.of_written writable parted

/-! ### A layout for every list of tokens -/

/-- The tokens with a space after each. -/
def spaced (tokens : List Token) : List Char := tokens.flatMap fun t => t.written ++ [' ']

theorem parted_space (t : Token) (rest : List Char) : Parted t (' ' :: rest) := by
  have other : isWordChar ' ' = false := by decide
  unfold Parted
  split <;> simp [other]

theorem layout_spaced (writable : ∀ t ∈ ts, t.Writable) : Layout ts (spaced ts) := by
  induction ts with
  | nil => exact .done
  | cons t ts ih =>
    obtain ⟨here,later⟩ := List.forall_mem_cons.mp writable
    have rest : Layout ts (' ' :: spaced ts) := .blank (by decide) (ih later)
    have whole : spaced (t :: ts) = t.written ++ ' ' :: spaced ts := by simp [spaced]
    rw [whole]
    exact .token here (parted_space t _) rest

end PlainTables.Token
