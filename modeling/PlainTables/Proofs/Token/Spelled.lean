import Mathlib.Data.List.Infix
import Mathlib.Data.String.Basic
import PlainTables.Proofs.Token.Layout

/-! All the ways in which tokens can be written. A keyword has any letter case, a quoted text has either
quote, and between two tokens stand blanks and comments in any number. Main statement: a text that is
put together like that is scanned to its tokens. -/
namespace PlainTables.Token

open Unicode (isBlank isWordChar)

variable {c : Char} {rest text digits : List Char} {t : Token} {ts : List Token}

/-! ### Spellings -/

/-- ASCII digits, and at least one. -/
def IsDigits (text : List Char) : Prop := text ≠ [] ∧ ∀ c ∈ text, c.isDigit = true

instance (text : List Char) : Decidable (IsDigits text) :=
  decidable_of_iff (text ≠ [] ∧ text.all Char.isDigit = true) (by simp [IsDigits])

/-- Digits, and a point with digits behind it if there is one. -/
inductive IsDecimal : List Char → Prop where
  | whole {digits : List Char} : IsDigits digits → IsDecimal digits
  | fraction {digits behind : List Char} : IsDigits digits → IsDigits behind →
      IsDecimal (digits ++ '.' :: behind)

/-- The texts that are read as one token. -/
inductive Spells : List Char → Token → Prop where
  | keyword {k : Keyword} {text : List Char} : text.map Char.toUpper = k.word.toList →
      Spells text (.keyword k)
  | number {text : List Char} : IsDecimal text → Spells text (.number (String.ofList text))
  | negative {text : List Char} : IsDecimal text →
      Spells ('-' :: text) (.number (String.ofList ('-' :: text)))
  | name {text : List Char} : IsPlainName text → Spells text (.name (String.ofList text))
  | quoted {q : Char} (text : List Char) : q = '\'' ∨ q = '"' →
      Spells (q :: (doubled q text ++ [q])) (.quoted (String.ofList text))
  | comparator (which : Comparator) : Spells which.symbol.toList (.comparator which)
  | unequal : Spells ['<','>'] (.comparator .notEq)
  | star : Spells ['*'] .star
  | comma : Spells [','] .comma
  | semicolon : Spells [';'] .semicolon
  | openParen : Spells ['('] .openParen
  | closeParen : Spells [')'] .closeParen

/-- Blanks, comments up to a line feed and comments up to their end mark, in any number and order. -/
inductive Gap : List Char → Prop where
  | none : Gap []
  | blank {c : Char} {rest : List Char} : isBlank c = true → Gap rest → Gap (c :: rest)
  | line {text rest : List Char} : '\n' ∉ text → Gap rest →
      Gap ('-' :: '-' :: (text ++ '\n' :: rest))
  | block {text rest : List Char} : ¬['*','/'] <:+: text → Gap rest →
      Gap ('/' :: '*' :: (text ++ '*' :: '/' :: rest))

/-- A token as it stands in a text, and the gap behind it. -/
structure Part where
  token : Token
  text : List Char
  gap : List Char
  spelled : Spells text token
  apart : Gap gap

def Part.written (p : Part) : List Char := p.text ++ p.gap

/-! ### Keywords -/

theorem toNat_of_isAlpha (letter : c.isAlpha = true) :
    65 ≤ c.toNat ∧ c.toNat ≤ 90 ∨ 97 ≤ c.toNat ∧ c.toNat ≤ 122 := by
  rcases Bool.or_eq_true_iff.mp letter with upper | lower
  · exact .inl (of_decide_eq_true upper)
  · obtain ⟨low,high⟩ := Bool.and_eq_true_iff.mp lower
    exact .inr ⟨of_decide_eq_true low,of_decide_eq_true high⟩

theorem isWordChar_of_isAlpha (letter : c.isAlpha = true) : isWordChar c = true := by
  have low : c.toNat < 128 := by
    have codes := toNat_of_isAlpha letter
    omega
  simp [isWordChar,Unicode.isAlphanumeric_ascii low,Char.isAlphanum,letter]

theorem isDigit_of_isAlpha (letter : c.isAlpha = true) : c.isDigit = false := by
  have codes := toNat_of_isAlpha letter
  by_contra digit
  have other : 48 ≤ c.toNat ∧ c.toNat ≤ 57 := by
    simpa [Char.isDigit,UInt32.le_iff_toNat_le] using digit
  omega

theorem upper_of_isAlpha (letter : c.isAlpha = true) : Unicode.upper c = c.toUpper := by
  have apart : c ≠ 'ı' ∧ c ≠ 'ſ' := by
    constructor <;> rintro rfl <;> exact absurd letter (by decide)
  simp [Unicode.upper,apart]

theorem isAlpha_of_toUpper (upper : c.toUpper.isUpper = true) : c.isAlpha = true := by
  apply Bool.or_eq_true_iff.mpr
  by_cases lower : 'a'.val ≤ c.val ∧ c.val ≤ 'z'.val
  · exact .inr (Bool.and_eq_true_iff.mpr ⟨decide_eq_true lower.1,decide_eq_true lower.2⟩)
  · have same : c.toUpper = c := dif_neg lower
    exact .inl (same ▸ upper)

/-- The letters of a keyword, in any case. -/
theorem isAlpha_of_keyword {k : Keyword} (same : text.map Char.toUpper = k.word.toList) :
    ∀ c ∈ text, c.isAlpha = true := by
  have upper : k.word.toList.all Char.isUpper = true := by
    cases k <;> decide
  intro c member
  exact isAlpha_of_toUpper (List.all_eq_true.mp upper _ (same ▸ List.mem_map_of_mem member))

theorem ofWord?_of_upper {k : Keyword} (same : text.map Unicode.upper = k.word.toList) :
    Keyword.ofWord? text = some k := by
  have own : k.word.toList.map Unicode.upper = k.word.toList := by
    cases k <;> decide
  have found := Keyword.ofWord?_word k
  rw [Keyword.ofWord?] at found ⊢
  rwa [own,← same] at found

theorem reads_keyword {k : Keyword} (same : text.map Char.toUpper = k.word.toList)
    (ends : ∀ c ∈ rest.head?, isWordChar c = false) (reads : Reads rest ts) :
    Reads (text ++ rest) (.keyword k :: ts) := by
  have letters := isAlpha_of_keyword same
  have filled : text ≠ [] := by
    rintro rfl
    cases k <;> simp [Keyword.word] at same
  have word : ∀ c ∈ text, isWordChar c = true := fun c member => isWordChar_of_isAlpha (letters c member)
  have digits : text.all Char.isDigit = false := by
    obtain ⟨c,more,rfl⟩ := List.exists_cons_of_ne_nil filled
    simp [isDigit_of_isAlpha (letters c List.mem_cons_self)]
  have upper : text.map Unicode.upper = k.word.toList := by
    rw [← same]
    exact List.map_congr_left fun c member => upper_of_isAlpha (letters c member)
  have here := reads_word filled word digits ends reads
  rwa [ofWord_eq word digits,ofWord?_of_upper upper] at here

/-! ### Numbers -/

theorem IsDecimal.digit_or_point (decimal : IsDecimal text) : ∀ c ∈ text, c.isDigit = true ∨ c = '.' := by
  cases decimal with
  | whole digits => exact fun c member => .inl (digits.2 c member)
  | fraction digits behind =>
    simp only [List.forall_mem_append,List.forall_mem_cons]
    exact ⟨fun c member => .inl (digits.2 c member),.inr trivial,fun c member => .inl (behind.2 c member)⟩

theorem IsDecimal.first (decimal : IsDecimal text) : ∃ d more, text = d :: more ∧ d.isDigit = true := by
  cases decimal with
  | whole digits | fraction digits =>
    obtain ⟨filled,digital⟩ := digits
    obtain ⟨d,more,rfl⟩ := List.exists_cons_of_ne_nil filled
    exact ⟨d,_,rfl,digital d List.mem_cons_self⟩

theorem ofWord_decimal (decimal : IsDecimal text) : ofWord text = .number (String.ofList text) ∧
    ofWord ('-' :: text) = .number (String.ofList ('-' :: text)) := by
  have all : text.all (fun c => c.isDigit || c = '.') = true := by simpa using decimal.digit_or_point
  obtain ⟨d,more,rfl,digit⟩ := decimal.first
  have unsigned : d ≠ '-' := by
    rintro rfl
    cases digit
  constructor
  · simp [ofWord,unsigned,all]
  · simp [ofWord,all]

theorem fraction_of_head (other : rest.head? ≠ some '.') : fraction rest = [] := by
  unfold fraction
  split <;> simp_all

theorem fraction_point (behind : IsDigits digits) (ends : ∀ c ∈ rest.head?, c.isDigit = false) :
    fraction ('.' :: (digits ++ rest)) = '.' :: digits := by
  obtain ⟨filled,digital⟩ := behind
  obtain ⟨d,more,rfl⟩ := List.exists_cons_of_ne_nil filled
  obtain ⟨digit,later⟩ := List.forall_mem_cons.mp digital
  simp [fraction,digit,takeWhile_append_eq later ends]

theorem wordAt_digits (whole : IsDigits digits) (ends : ∀ c ∈ rest.head?, isWordChar c = false) :
    wordAt (digits ++ rest) = digits ++ fraction rest := by
  obtain ⟨filled,digital⟩ := whole
  have run : (digits ++ rest).takeWhile isWordChar = digits :=
    takeWhile_append_eq (fun c member => Unicode.isWordChar_of_isDigit (digital c member)) ends
  have all : digits.all Char.isDigit = true := List.all_eq_true.mpr digital
  simp [wordAt,run,filled,all]

theorem wordAt_decimal (decimal : IsDecimal text) (ends : ∀ c ∈ rest.head?, isWordChar c = false)
    (other : rest.head? ≠ some '.') : wordAt (text ++ rest) = text := by
  cases decimal with
  | whole digits => rw [wordAt_digits digits ends,fraction_of_head other,List.append_nil]
  | fraction digits behind =>
    have point : isWordChar '.' = false := by decide
    rw [List.append_assoc,List.cons_append,wordAt_digits digits (by simpa using point),
      fraction_point behind (not_digit_of_not_wordChar ends)]

theorem reads_number (decimal : IsDecimal text) (ends : ∀ c ∈ rest.head?, isWordChar c = false)
    (other : rest.head? ≠ some '.') (reads : Reads rest ts) :
    Reads (text ++ rest) (.number (String.ofList text) :: ts) := by
  have word := wordAt_decimal decimal ends other
  have number := (ofWord_decimal decimal).1
  obtain ⟨d,more,rfl,digit⟩ := decimal.first
  have here := reads_wordAt (by simp) (by simpa using Unicode.isWordChar_of_isDigit digit) word reads
  rwa [number] at here

theorem reads_negative (decimal : IsDecimal text) (ends : ∀ c ∈ rest.head?, isWordChar c = false)
    (other : rest.head? ≠ some '.') (reads : Reads rest ts) :
    Reads ('-' :: text ++ rest) (.number (String.ofList ('-' :: text)) :: ts) := by
  have word := wordAt_decimal decimal ends other
  have number := (ofWord_decimal decimal).2
  obtain ⟨d,more,rfl,digit⟩ := decimal.first
  have dash : d ≠ '-' := by
    rintro rfl
    cases digit
  apply reads_token _ _ _ rfl reads
  rw [front_dash,word,frontOfWord,number]
  simp [dash,digit]

/-! ### Gaps -/

theorem lineLength_line (plain : '\n' ∉ text) (rest : List Char) :
    lineLength ('-' :: (text ++ '\n' :: rest)) = text.length + 2 := by
  have whole := (lineLength_of_not_mem (u := '-' :: text) (by simpa using plain) rest).2
  simpa using whole

theorem blockLength_block (plain : ¬['*','/'] <:+: text) (rest : List Char) :
    blockLength (text ++ '*' :: '/' :: rest) = some (text.length + 2) := by
  induction text with
  | nil => rfl
  | cons c text ih =>
    have inner : ¬['*','/'] <:+: text := fun inside => plain (inside.trans (List.suffix_cons c text).isInfix)
    have apart : ¬(c = '*' ∧ (text ++ '*' :: '/' :: rest).head? = some '/') := by
      rintro ⟨rfl,slash⟩
      cases text with
      | nil => simp at slash
      | cons d text =>
        obtain rfl : d = '/' := by simpa using slash
        exact plain (List.prefix_append ['*','/'] text).isInfix
    rw [List.cons_append,blockLength_other apart,ih inner]
    rfl

theorem Gap.reads {gap : List Char} (apart : Gap gap) (reads : Reads rest ts) : Reads (gap ++ rest) ts := by
  induction apart with
  | none => exact reads
  | blank blank _ ih => exact ih.cons_blank blank
  | @line text more plain _ ih =>
    have here : front '-' ('-' :: (text ++ ['\n']) ++ (more ++ rest)) =
        .skipped ('-' :: (text ++ ['\n'])).length := by
      rw [front_dash]
      simp [lineLength_line plain]
    have step := reads_skipped '-' _ here rfl ih
    simpa using step
  | @block text more plain _ ih =>
    have here : front '/' ('*' :: (text ++ ['*','/']) ++ (more ++ rest)) =
        .skipped ('*' :: (text ++ ['*','/'])).length := by
      rw [front_slash]
      simp [blockLength_block plain]
    have step := reads_skipped '/' _ here rfl ih
    simpa using step

theorem Gap.begins {gap : List Char} (apart : Gap gap) (filled : gap ≠ []) (rest : List Char) :
    Begins ['-','/'] (gap ++ rest) := by
  cases apart with
  | none => exact absurd rfl filled
  | blank blank => simp [Begins,blank]
  | line | block => simp [Begins]

/-! ### Texts -/

/-- A spelling is read as its token before a gap and at the end. -/
theorem Reads.of_spelled (reads : Reads rest ts) (spelled : Spells text t)
    (begins : Begins ['-','/'] rest) : Reads (text ++ rest) (t :: ts) := by
  have ends : ∀ c ∈ rest.head?, isWordChar c = false := begins.not_wordChar (by decide)
  have equals : rest.head? ≠ some '=' := begins.head?_ne (by decide) (by decide)
  have greater : rest.head? ≠ some '>' := begins.head?_ne (by decide) (by decide)
  have point : rest.head? ≠ some '.' := begins.head?_ne (by decide) (by decide)
  cases spelled with
  | keyword same => exact reads_keyword same ends reads
  | number decimal => exact reads_number decimal ends point reads
  | negative decimal => exact reads_negative decimal ends point reads
  | name plain =>
    rw [← ofWord_name plain]
    obtain ⟨filled,word,digits,-⟩ := plain
    exact reads_word filled (List.all_eq_true.mp word) digits ends reads
  | @quoted q text quote =>
    have other : rest.head? ≠ some q := by
      rcases quote with rfl | rfl <;> exact begins.head?_ne (by decide) (by decide)
    exact reads_quoted quote text other reads
  | comparator which =>
    have parted : Parted (.comparator which) rest := by
      cases which <;> simp [Parted,equals,greater]
    exact reads_comparator parted reads
  | unequal => exact reads_token '<' ['>'] (by simp [front_less]) rfl reads
  | star => exact Reads.of_written (t := .star) trivial trivial reads
  | comma => exact Reads.of_written (t := .comma) trivial trivial reads
  | semicolon => exact Reads.of_written (t := .semicolon) trivial trivial reads
  | openParen => exact Reads.of_written (t := .openParen) trivial trivial reads
  | closeParen => exact Reads.of_written (t := .closeParen) trivial trivial reads

theorem reads_parts {parts : List Part} (parted : ∀ p ∈ parts.dropLast, p.gap ≠ []) :
    Reads (parts.flatMap Part.written) (parts.map Part.token) := by
  induction parts with
  | nil => exact .refl
  | cons p parts ih =>
    have later : ∀ other ∈ parts.dropLast, other.gap ≠ [] := by
      intro other member
      refine parted other ?_
      cases parts with
      | nil => cases member
      | cons => exact List.mem_cons_of_mem _ member
    have begins : Begins ['-','/'] (p.gap ++ parts.flatMap Part.written) := by
      by_cases filled : p.gap = []
      · cases parts with
        | nil => simp [filled,begins_nil]
        | cons => exact absurd filled (parted p List.mem_cons_self)
      · exact p.apart.begins filled _
    rw [List.flatMap_cons,Part.written,List.append_assoc]
    exact (p.apart.reads (ih later)).of_spelled p.spelled begins

/-- Tokens in any spelling, with gaps around them that are not empty between two of them, are read
back. -/
theorem tokens_of_parts (before : List Char) (starts : Gap before) (parts : List Part)
    (parted : ∀ p ∈ parts.dropLast, p.gap ≠ []) :
    tokens (String.ofList (before ++ parts.flatMap Part.written)) =
      .ok (parts.map Part.token ++ [.endOfInput]) :=
  (starts.reads (reads_parts parted)).scans.tokens

/-- Comments with quotes and a semicolon in them, a star before a comment of a slash, quotes at both
ends of a quoted text, and a sign behind the end mark of a comment. -/
def mixed : List Part := [
  ⟨.keyword .select,"sElEcT".toList,[' '],.keyword (by decide),.blank (by decide) .none⟩,
  ⟨.star,['*'],_,.star,@Gap.block ['/'] [] (by decide) .none⟩,
  ⟨.name "_x1",_,_,@Spells.name ['_','x','1'] (by decide +kernel),
    @Gap.block ['\'',';'] [] (by decide) .none⟩,
  ⟨.comparator .notEq,_,['\t'],.unequal,.blank (by decide) .none⟩,
  ⟨.quoted "\"--\"",_,_,.quoted ['"','-','-','"'] (.inr rfl),@Gap.block ['*'] [] (by decide) .none⟩,
  ⟨.number "-1.5",_,_,.negative (@IsDecimal.fraction ['1'] ['5'] (by decide) (by decide)),
    @Gap.line [';'] [] (by decide) .none⟩,
  ⟨.semicolon,_,[],.semicolon,.none⟩]

theorem tokens_of_mixed :
    tokens "-- \"\nsElEcT */*/*/_x1/*';*/<>\t\"\"\"--\"\"\"/***/-1.5--;\n;" =
      .ok [.keyword .select,.star,.name "_x1",.comparator .notEq,.quoted "\"--\"",.number "-1.5",
        .semicolon,.endOfInput] := by
  have whole := tokens_of_parts _ (@Gap.line [' ','"'] [] (by decide) .none) mixed (by decide +kernel)
  have text : String.ofList ('-' :: '-' :: ([' ','"'] ++ '\n' :: []) ++ mixed.flatMap Part.written) =
      "-- \"\nsElEcT */*/*/_x1/*';*/<>\t\"\"\"--\"\"\"/***/-1.5--;\n;" := by decide +kernel
  rw [text] at whole
  exact whole

end PlainTables.Token
