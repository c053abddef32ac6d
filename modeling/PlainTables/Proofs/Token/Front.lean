import Mathlib.Data.List.TakeWhile
import Mathlib.Tactic.Tauto
import PlainTables.Token.Scan

/-! What stands at the front of a text, and how little of the text behind it decides that. A
front that ends before a semicolon or a blank is the same whatever follows these. -/
namespace PlainTables.Token

open Unicode (isBlank isWordChar)

variable {c q : Char} {u x y rest text : List Char} {w n : Nat} {t : Token}

/-! ### Characters -/

/-- No blank, and a character that opens no comment and no quote and ends no statement. -/
def isSolid (c : Char) : Bool :=
  !isBlank c && c ≠ '\'' && c ≠ '"' && c ≠ ';' && c ≠ '-' && c ≠ '/'

def blankCodes : List Nat :=
  List.range' 9 5 ++ List.range' 0x2000 11 ++
    [32,0x85,0xA0,0x1680,0x2028,0x2029,0x202F,0x205F,0x3000]

theorem toNat_mem_of_isBlank (blank : isBlank c = true) : c.toNat ∈ blankCodes := by
  simp only [isBlank,Bool.or_eq_true,Bool.and_eq_true,decide_eq_true_eq] at blank
  simp only [blankCodes,List.mem_append,List.mem_range'_1,List.mem_cons,List.not_mem_nil,or_false]
  omega

theorem isWordChar_of_isBlank (blank : isBlank c = true) : isWordChar c = false := by
  have all : ∀ code ∈ blankCodes, isWordChar (Char.ofNat code) = false := by decide +kernel
  have here := all c.toNat (toNat_mem_of_isBlank blank)
  rwa [Char.ofNat_toNat] at here

theorem isSolid_of_isWordChar (word : isWordChar c = true) : isSolid c = true := by
  by_contra other
  simp only [isSolid,ne_eq,decide_not,Bool.and_eq_true,Bool.not_eq_true',decide_eq_false_iff_not,
    not_and_or,not_not,Bool.not_eq_false] at other
  rcases other with ((((blank | rfl) | rfl) | rfl) | rfl) | rfl
  · rw [isWordChar_of_isBlank blank] at word
    cases word
  all_goals exact absurd word (by decide)

/-- A text that is empty or begins with a blank or with one of the given characters. -/
def Begins (marks text : List Char) : Prop := ∀ c ∈ text.head?, isBlank c = true ∨ c ∈ marks

/-- A text that ends whatever stands before it: an empty one, or one that begins with a
semicolon or a blank. -/
abbrev Stops : List Char → Prop := Begins [';']

/-- A text that ends whatever stands before it, unless that is a quoted text. -/
abbrev Breaks : List Char → Prop := Begins [';','\'','"']

theorem begins_nil {marks : List Char} : Begins marks [] := by simp [Begins]

theorem stops_semicolon : Stops (';' :: rest) := by simp [Begins]

theorem stops_of_blanks (blanks : ∀ c ∈ text, isBlank c = true) : Stops text :=
  fun c first => .inl (blanks c (List.mem_of_mem_head? first))

theorem Stops.breaks (stops : Stops text) : Breaks text :=
  fun c first => (stops c first).imp_right fun same => by simp [List.mem_singleton.mp same]

section Begins

variable {marks : List Char}

theorem Begins.head?_ne (begins : Begins marks text) (other : q ∉ marks) (full : isBlank q = false) :
    text.head? ≠ some q := by
  intro first
  rcases begins q first with blank | member
  · rw [full] at blank
    cases blank
  · exact other member

/-- Before such a text, the next character is one of the text itself. -/
theorem Begins.head?_append (begins : Begins marks x) (other : q ∉ marks) (full : isBlank q = false) :
    (u ++ x).head? = some q ↔ u.head? = some q := by
  cases u with
  | nil => simpa using begins.head?_ne other full
  | cons c u => rfl

theorem Begins.not_wordChar (begins : Begins marks text)
    (plain : marks.all (fun m => !isWordChar m) = true) :
    ∀ c ∈ text.head?, isWordChar c = false := by
  intro c first
  rcases begins c first with blank | member
  · exact isWordChar_of_isBlank blank
  · simpa using List.all_eq_true.mp plain c member

end Begins

theorem Stops.not_quote (stops : Stops text) (quote : q = '\'' ∨ q = '"') : text.head? ≠ some q := by
  rcases quote with rfl | rfl <;> exact stops.head?_ne (by decide) (by decide)

theorem Breaks.not_wordChar (breaks : Breaks text) : ∀ c ∈ text.head?, isWordChar c = false :=
  Begins.not_wordChar breaks (by decide)

theorem not_digit_of_not_wordChar (ends : ∀ c ∈ text.head?, isWordChar c = false) :
    ∀ c ∈ text.head?, c.isDigit = false := by
  intro c first
  by_contra digit
  have word := Unicode.isWordChar_of_isDigit (by simpa using digit)
  rw [ends c first] at word
  cases word

theorem Breaks.not_digit (breaks : Breaks text) : ∀ c ∈ text.head?, c.isDigit = false :=
  not_digit_of_not_wordChar breaks.not_wordChar

/-! ### Words -/

theorem takeWhile_append_stops {p : Char → Bool} (ends : ∀ c ∈ x.head?, p c = false) :
    (u ++ x).takeWhile p = u.takeWhile p := by
  rw [List.takeWhile_append]
  split
  · next whole =>
    have same : u.takeWhile p = u := (List.takeWhile_prefix p).eq_of_length whole
    cases x with
    | nil => rw [List.takeWhile_nil,List.append_nil,same]
    | cons c x => rw [List.takeWhile_cons_of_neg (by simp [ends c rfl]),List.append_nil,same]
  · rfl

theorem takeWhile_append_eq {p : Char → Bool} (inside : ∀ c ∈ u, p c = true)
    (ends : ∀ c ∈ x.head?, p c = false) : (u ++ x).takeWhile p = u := by
  rw [takeWhile_append_stops ends]
  exact List.takeWhile_eq_self_iff.mpr inside

theorem fraction_append (breaks : Breaks x) : fraction (u ++ x) = fraction u := by
  have digits := breaks.not_digit
  cases u with
  | nil =>
    cases x with
    | nil => rfl
    | cons d x =>
      have other := breaks.head?_ne (q := '.') (by decide) (by decide)
      unfold fraction
      split <;> simp_all
  | cons a u =>
    by_cases point : a = '.'
    · subst point
      cases u with
      | nil =>
        cases x with
        | nil => rfl
        | cons d x => simp [fraction,digits d rfl]
      | cons d u => simp [fraction,takeWhile_append_stops digits]
    · unfold fraction
      split <;> simp_all

/-- A word is read up to a break at the latest. -/
theorem wordAt_append (breaks : Breaks x) : wordAt (u ++ x) = wordAt u := by
  have run := takeWhile_append_stops (u := u) breaks.not_wordChar
  have inside := (List.takeWhile_prefix isWordChar : u.takeWhile isWordChar <+: u).length_le
  simp only [wordAt,run]
  rw [List.drop_append_of_le_length inside,fraction_append breaks]

theorem fraction_leads (text : List Char) : fraction text <+: text := by
  unfold fraction
  split
  · split
    · exact List.cons_prefix_cons.mpr ⟨rfl,List.cons_prefix_cons.mpr ⟨rfl,List.takeWhile_prefix _⟩⟩
    · exact List.nil_prefix
  · exact List.nil_prefix

theorem wordAt_leads (text : List Char) : wordAt text <+: text := by
  have run : text.takeWhile isWordChar <+: text := List.takeWhile_prefix isWordChar
  simp only [wordAt]
  split
  · conv => rhs; rw [List.prefix_iff_eq_append.mp run |>.symm]
    exact (List.prefix_append_right_inj _).mpr (fraction_leads _)
  · exact run

theorem isSolid_of_mem_fraction (member : c ∈ fraction text) : isSolid c = true := by
  unfold fraction at member
  split at member
  · split at member
    · next d rest digit =>
      rcases List.mem_cons.mp member with rfl | member
      · decide
      refine isSolid_of_isWordChar (Unicode.isWordChar_of_isDigit ?_)
      rcases List.mem_cons.mp member with rfl | member
      · exact digit
      · exact List.all_eq_true.mp List.all_takeWhile _ member
    · cases member
  · cases member

theorem isSolid_of_mem_wordAt (member : c ∈ wordAt text) : isSolid c = true := by
  simp only [wordAt] at member
  split at member
  · rcases List.mem_append.mp member with member | member
    · exact isSolid_of_isWordChar (List.all_eq_true.mp List.all_takeWhile _ member)
    · exact isSolid_of_mem_fraction member
  · exact isSolid_of_isWordChar (List.all_eq_true.mp List.all_takeWhile _ member)

/-! ### Quoted texts and comments -/

/-- A text as it stands between quotes: every quote in it twice. -/
def doubled (q : Char) (text : List Char) : List Char :=
  text.flatMap fun c => if c = q then [q,q] else [c]

theorem doubled_cons (q c : Char) (text : List Char) :
    doubled q (c :: text) = (if c = q then [q,q] else [c]) ++ doubled q text :=
  List.flatMap_cons

theorem untilQuote_other (other : c ≠ q) :
    untilQuote q (c :: rest) = (untilQuote q rest).map fun (text,n) => (c :: text,n+1) := by
  rw [untilQuote.eq_def]
  simp only [if_neg other]

theorem untilQuote_doubled :
    untilQuote q (q :: q :: rest) = (untilQuote q rest).map fun (text,n) => (q :: text,n+2) := by
  rw [untilQuote.eq_def]
  simp only [if_true]

theorem untilQuote_closing (ends : rest.head? ≠ some q) :
    untilQuote q (q :: rest) = some ([],1) := by
  cases rest with
  | nil => simp [untilQuote]
  | cons d rest =>
    rw [List.head?_cons,ne_eq,Option.some_inj] at ends
    simp [untilQuote,ends]

/-- A quoted text is what stands doubled before the closing quote. -/
theorem untilQuote_eq_some :
    untilQuote q rest = some (text,n) ↔
      ∃ later, rest = doubled q text ++ q :: later ∧ later.head? ≠ some q ∧
        n = (doubled q text).length + 1 := by
  constructor
  · intro read
    induction rest using untilQuote.induct q generalizing text n with
    | case1 => cases read
    | case2 =>
      rw [untilQuote_closing (by simp)] at read
      cases read
      exact ⟨[],rfl,by simp,rfl⟩
    | case3 more ih =>
      rw [untilQuote_doubled] at read
      obtain ⟨⟨inner,m⟩,found,same⟩ := Option.map_eq_some_iff.mp read
      cases same
      obtain ⟨later,rfl,ends,rfl⟩ := ih found
      exact ⟨later,by simp [doubled_cons],ends,by simp [doubled_cons]⟩
    | case4 d more other =>
      rw [untilQuote_closing (by simpa using other)] at read
      cases read
      exact ⟨d :: more,rfl,by simpa using other,rfl⟩
    | case5 d more other ih =>
      rw [untilQuote_other other] at read
      obtain ⟨⟨inner,m⟩,found,same⟩ := Option.map_eq_some_iff.mp read
      cases same
      obtain ⟨later,rfl,ends,rfl⟩ := ih found
      exact ⟨later,by simp [doubled_cons,other],ends,by simp [doubled_cons,other]⟩
  · rintro ⟨later,rfl,ends,rfl⟩
    induction text with
    | nil => exact untilQuote_closing ends
    | cons c text ih =>
      by_cases same : c = q
      · subst same
        simp [doubled_cons,untilQuote_doubled,ih]
      · simp [doubled_cons,same,untilQuote_other same,ih]

/-- What is read up to a closing quote does not depend on what follows the quote, as long as
that is no further quote. -/
theorem untilQuote_append (read : untilQuote q (u ++ x) = some (text,n)) (inside : n ≤ u.length)
    (ends : n = u.length → y.head? ≠ some q) : untilQuote q (u ++ y) = some (text,n) := by
  obtain ⟨later,split,last,rfl⟩ := untilQuote_eq_some.mp read
  have split : u ++ x = (doubled q text ++ [q]) ++ later := by simpa using split
  obtain ⟨between,rfl⟩ : doubled q text ++ [q] <+: u :=
    List.prefix_of_prefix_length_le ⟨later,split.symm⟩ (List.prefix_append u x) (by simpa using inside)
  rw [List.append_assoc] at split
  rw [← List.append_cancel_left split] at last
  refine untilQuote_eq_some.mpr ⟨between ++ y,by simp,?_,rfl⟩
  cases between with
  | nil => exact ends (by simp)
  | cons d between => exact last

theorem length_of_untilQuote (read : untilQuote q (u ++ x) = some (text,n)) (plain : q ∉ x) :
    n ≤ u.length := by
  obtain ⟨later,split,-,rfl⟩ := untilQuote_eq_some.mp read
  by_contra beyond
  have split : u ++ x = doubled q text ++ q :: later := split
  have short : u <+: doubled q text :=
    List.prefix_of_prefix_length_le (List.prefix_append u x) ⟨q :: later,split.symm⟩ (by omega)
  obtain ⟨between,same⟩ := short
  rw [← same,List.append_assoc] at split
  exact plain (by simp [List.append_cancel_left split])

theorem untilQuote_eq_none_of_append (left : untilQuote q (u ++ x) = none) (ends : x.head? ≠ some q) :
    untilQuote q u = none := by
  by_contra closed
  obtain ⟨⟨text,n⟩,read⟩ := Option.ne_none_iff_exists'.mp closed
  rw [← List.append_nil u] at read
  have inside := length_of_untilQuote read (by simp)
  rw [untilQuote_append read inside fun _ => ends] at left
  cases left

theorem lineLength_le (text : List Char) : lineLength text ≤ text.length := by
  induction text with
  | nil => exact Nat.zero_le _
  | cons c rest ih =>
    simp only [lineLength,List.length_cons]
    split <;> omega

theorem lineLength_append (inside : lineLength (u ++ x) ≤ u.length) (filled : x ≠ []) :
    lineLength (u ++ y) = lineLength (u ++ x) := by
  induction u with
  | nil =>
    obtain ⟨c,x,rfl⟩ := List.exists_cons_of_ne_nil filled
    simp only [List.nil_append,lineLength,List.length_nil] at inside
    split at inside <;> omega
  | cons c u ih =>
    simp only [List.cons_append,lineLength,List.length_cons] at inside ⊢
    split
    · rfl
    · next other =>
      rw [if_neg other] at inside
      rw [ih (by omega)]

/-- A line that reaches beyond some text holds all of it. -/
theorem lineLength_of_lt (beyond : u.length < lineLength (u ++ x)) : lineLength u = u.length := by
  induction u with
  | nil => rfl
  | cons c u ih =>
    simp only [List.cons_append,lineLength,List.length_cons] at beyond ⊢
    split
    · next feed =>
      rw [if_pos feed] at beyond
      omega
    · next other =>
      rw [if_neg other] at beyond
      rw [ih (by omega)]

theorem lineLength_of_not_mem (plain : '\n' ∉ u) (rest : List Char) :
    lineLength u = u.length ∧ lineLength (u ++ '\n' :: rest) = u.length + 1 := by
  induction u with
  | nil => exact ⟨rfl,rfl⟩
  | cons c u ih =>
    simp only [List.mem_cons,not_or] at plain
    obtain ⟨own,whole⟩ := ih plain.2
    have other : c ≠ '\n' := Ne.symm plain.1
    simp [lineLength,other,own,whole]

theorem lineLength_append_of_mem (member : '\n' ∈ u) (rest : List Char) :
    lineLength (u ++ rest) = lineLength u := by
  induction u with
  | nil => cases member
  | cons c u ih =>
    simp only [List.cons_append,lineLength]
    split
    · rfl
    · next other =>
      rw [ih (List.mem_of_ne_of_mem (Ne.symm other) member)]

theorem blockLength_ended : blockLength ('*' :: '/' :: rest) = some 2 := rfl

theorem blockLength_other (other : ¬(c = '*' ∧ rest.head? = some '/')) :
    blockLength (c :: rest) = (blockLength rest).map (· + 1) := by
  refine blockLength.eq_3 c rest fun tail star slash => other ⟨star,?_⟩
  rw [slash,List.head?_cons]

theorem two_le_of_blockLength (read : blockLength text = some n) : 2 ≤ n := by
  fun_induction blockLength text generalizing n with
  | case1 => cases read
  | case2 => exact Nat.le_of_eq (Option.some_inj.mp read)
  | case3 c rest _ ih =>
    obtain ⟨m,found,rfl⟩ := Option.map_eq_some_iff.mp read
    exact Nat.le_succ_of_le (ih found)

theorem slash_mem_of_blockLength (read : blockLength text = some n) : '/' ∈ text := by
  fun_induction blockLength text generalizing n with
  | case1 => cases read
  | case2 => simp
  | case3 c rest _ ih =>
    obtain ⟨m,found,-⟩ := Option.map_eq_some_iff.mp read
    exact List.mem_cons_of_mem _ (ih found)

theorem blockLength_append (read : blockLength (u ++ x) = some n) (inside : n ≤ u.length) :
    blockLength (u ++ y) = some n := by
  have wide := two_le_of_blockLength read
  induction u generalizing n with
  | nil =>
    rw [List.length_nil] at inside
    omega
  | cons c u ih =>
    rw [List.length_cons] at inside
    obtain ⟨d,u,rfl⟩ : ∃ d v, u = d :: v := by
      apply List.exists_cons_of_length_pos
      omega
    by_cases ended : c = '*' ∧ (d :: (u ++ x)).head? = some '/'
    · obtain ⟨rfl,slash⟩ := ended
      cases Option.some_inj.mp slash
      exact read
    · rw [List.cons_append,List.cons_append] at read ⊢
      rw [blockLength_other ended] at read
      rw [blockLength_other (by simpa using ended)]
      obtain ⟨m,found,rfl⟩ := Option.map_eq_some_iff.mp read
      have later := ih found (by omega) (two_le_of_blockLength found)
      rw [List.cons_append] at later
      rw [later,Option.map_some]

theorem length_of_blockLength (read : blockLength (u ++ x) = some n) (plain : '/' ∉ x) :
    n ≤ u.length := by
  induction u generalizing n with
  | nil =>
    exact absurd (slash_mem_of_blockLength read) plain
  | cons c u ih =>
    by_cases ended : c = '*' ∧ (u ++ x).head? = some '/'
    · obtain ⟨rfl,slash⟩ := ended
      cases u with
      | nil => exact absurd (List.mem_of_mem_head? slash) plain
      | cons d u =>
        cases Option.some_inj.mp slash
        cases read
        simp
    · rw [List.cons_append,blockLength_other ended] at read
      obtain ⟨m,found,rfl⟩ := Option.map_eq_some_iff.mp read
      exact Nat.succ_le_succ (ih found)

/-! ### Fronts -/

/-- How many characters after the first one a front takes, if it takes any. -/
def Front.width? : Front → Option Nat
  | .token _ width | .skipped width => some width
  | .unexpected | .openComment => none

/-- The token a front is, if it is one. -/
def Front.tokens : Front → List Token
  | .token t _ => [t]
  | .skipped _ | .unexpected | .openComment => []

/-- A quote that is closed, or any other character. -/
def closes (c : Char) (rest : List Char) : Bool :=
  (c ≠ '\'' && c ≠ '"') || (untilQuote c rest).isSome

/-- A front of one character, or a word. -/
theorem front_congr (operator : c ∉ ['<','>','!','-','/','\'','"'])
    (word : wordAt (c :: u) = wordAt (c :: x)) : front c u = front c x := by
  simp only [List.mem_cons,List.not_mem_nil,or_false,not_or] at operator
  obtain ⟨lt,gt,bang,dash,slash,single,double⟩ := operator
  simp only [front.eq_def,lt,gt,bang,dash,slash,single,double,word,if_false,or_self]

theorem front_eq_frontOfQuote (quote : c = '\'' ∨ c = '"') : front c rest = frontOfQuote c rest := by
  rcases quote with rfl | rfl <;> simp [front.eq_def,isBlank]

theorem front_quote (quote : c = '\'' ∨ c = '"') (read : untilQuote c rest = some (text,n)) :
    front c rest = .token (.quoted (String.ofList text)) n := by
  rw [front_eq_frontOfQuote quote,frontOfQuote,read]

theorem untilQuote_of_closes (quote : c = '\'' ∨ c = '"') (closed : closes c rest = true) :
    ∃ text n, untilQuote c rest = some (text,n) := by
  rcases quote with rfl | rfl <;> simpa [closes,Option.isSome_iff_exists] using closed

theorem closes_eq_false : closes c rest = false ↔ (c = '\'' ∨ c = '"') ∧ untilQuote c rest = none := by
  simp [closes]
  tauto

/-- A quote that is left open is dropped, and what follows it up to a separator is a value. -/
theorem front_open {value : List Char} (quote : c = '\'' ∨ c = '"') (left : untilQuote c rest = none)
    (found : rest.takeWhile (fun d => !isSeparator d) = value) :
    front c rest =
      if value = [] then .skipped 0 else .token (.quoted (String.ofList value)) value.length := by
  rw [front_eq_frontOfQuote quote,frontOfQuote,left]
  cases value <;> simp [found]

theorem front_semicolon : front ';' rest = .token .semicolon 0 := by
  simp [front.eq_def,isBlank]

theorem front_less : front '<' rest =
    if rest.head? = some '=' then .token (.comparator .ltEq) 1
    else if rest.head? = some '>' then .token (.comparator .notEq) 1
    else .token (.comparator .lt) 0 := by
  rw [front.eq_def,if_neg (by decide)]
  rcases rest with _ | ⟨d,rest⟩
  · simp
  · by_cases equals : d = '='
    · simp [equals]
    · by_cases greater : d = '>' <;> simp [equals,greater]

theorem front_greater : front '>' rest =
    if rest.head? = some '=' then .token (.comparator .gtEq) 1
    else .token (.comparator .gt) 0 := by
  rw [front.eq_def,if_neg (by decide)]
  rcases rest with _ | ⟨d,rest⟩
  · simp
  · by_cases equals : d = '=' <;> simp [equals]

theorem front_bang : front '!' rest =
    if rest.head? = some '=' then .token (.comparator .notEq) 1 else .unexpected := by
  rw [front.eq_def,if_neg (by decide)]
  rcases rest with _ | ⟨d,rest⟩
  · simp
  · by_cases equals : d = '=' <;> simp [equals]

theorem front_dash : front '-' rest =
    if rest.head? = some '-' then .skipped (lineLength rest)
    else if rest.head?.any Char.isDigit then frontOfWord ('-' :: wordAt rest)
    else .unexpected := by
  rw [front.eq_def,if_neg (by decide)]
  rcases rest with _ | ⟨d,rest⟩
  · simp
  · by_cases dash : d = '-'
    · subst dash
      simp [lineLength]
    · simp [dash]
      rfl

theorem front_slash : front '/' rest =
    if rest.head? = some '*' then
      match blockLength rest.tail with
      | some n => .skipped (n + 1)
      | none => .openComment
    else .unexpected := by
  rw [front.eq_def,if_neg (by decide)]
  rcases rest with _ | ⟨d,rest⟩
  · simp
  · by_cases star : d = '*'
    · subst star
      rfl
    · simp [star]

theorem Breaks.head?_not_digit (breaks : Breaks x) :
    (u ++ x).head?.any Char.isDigit = u.head?.any Char.isDigit := by
  cases u with
  | nil =>
    cases x with
    | nil => rfl
    | cons d x => simpa using breaks.not_digit d rfl
  | cons c u => rfl

/-- A front that ends before a break is the same before every other break. One that is a quoted text
and ends right there is the same before all but its own quote. -/
theorem front_append (ends : (front c (u ++ x)).width? = some w) (inside : w ≤ u.length)
    (line : c = '-' → (u ++ x).head? = some '-' → lineLength (u ++ x) ≤ u.length →
      lineLength (u ++ y) = lineLength (u ++ x))
    (breaks : Breaks x) (breaks' : Breaks y)
    (last : c = '\'' ∨ c = '"' → w = u.length → y.head? ≠ some c) (closed : closes c (u ++ x) = true) :
    front c (u ++ y) = front c (u ++ x) := by
  have heads : ∀ q, q ∉ [';','\'','"'] → isBlank q = false →
      ((u ++ y).head? = some q ↔ (u ++ x).head? = some q) := fun q other full =>
    (breaks'.head?_append other full).trans (breaks.head?_append other full).symm
  by_cases plain : c ∉ ['<','>','!','-','/','\'','"']
  · apply front_congr plain
    rw [← List.cons_append,← List.cons_append,wordAt_append breaks,wordAt_append breaks']
  simp only [List.mem_cons,List.not_mem_nil,or_false,not_not] at plain
  rcases plain with rfl | rfl | rfl | rfl | rfl | quote
  · simp only [front_less,heads '=' (by decide) (by decide),heads '>' (by decide) (by decide)]
  · simp only [front_greater,heads '=' (by decide) (by decide)]
  · simp only [front_bang,heads '=' (by decide) (by decide)]
  · rw [front_dash] at ends
    rw [front_dash,front_dash]
    simp only [heads '-' (by decide) (by decide),breaks.head?_not_digit,breaks'.head?_not_digit,
      wordAt_append breaks,wordAt_append breaks'] at ends ⊢
    split
    · next dash =>
      rw [if_pos dash] at ends
      cases ends
      rw [line rfl dash inside]
    · rfl
  · rw [front_slash] at ends
    rw [front_slash,front_slash]
    simp only [heads '*' (by decide) (by decide)] at ends ⊢
    split
    · next star =>
      rw [if_pos star] at ends
      have own := (breaks.head?_append (by decide) (by decide)).mp star
      obtain ⟨u,rfl⟩ := List.head?_eq_some_iff.mp own
      simp only [List.cons_append,List.tail_cons] at ends ⊢
      cases read : blockLength (u ++ x) with
      | none => simp [read,Front.width?] at ends
      | some n =>
        simp only [read,Front.width?,Option.some_inj] at ends
        rw [blockLength_append read (by simp at inside; omega)]
    · rfl
  · obtain ⟨text,n,read⟩ := untilQuote_of_closes quote closed
    rw [front_quote quote read] at ends ⊢
    cases ends
    exact front_quote quote (untilQuote_append read inside (last quote))

theorem closes_of_width (ends : (front c (u ++ x)).width? = some w) (inside : w ≤ u.length)
    (last : c = '\'' ∨ c = '"' → w = u.length → y.head? ≠ some c) (closed : closes c (u ++ x) = true) :
    closes c (u ++ y) = true := by
  by_cases quote : c = '\'' ∨ c = '"'
  · obtain ⟨text,n,read⟩ := untilQuote_of_closes quote closed
    rw [front_quote quote read] at ends
    cases ends
    rw [closes,untilQuote_append read inside (last quote)]
    simp
  · simp only [not_or] at quote
    simp [closes,quote]

/-! ### The kinds of fronts -/

/-- What a front that takes characters can be. -/
inductive Bite (c : Char) (rest : List Char) : Front → Prop where
  | blank : isBlank c = true → Bite c rest (.skipped 0)
  | semicolon : c = ';' → Bite c rest (.token .semicolon 0)
  | quoted {text : List Char} {n : Nat} : c = '\'' ∨ c = '"' → untilQuote c rest = some (text,n) →
      Bite c rest (.token (.quoted (String.ofList text)) n)
  | line {more : List Char} : c = '-' → rest = '-' :: more → Bite c rest (.skipped (lineLength rest))
  | block {more : List Char} {n : Nat} : c = '/' → rest = '*' :: more → blockLength more = some n →
      Bite c rest (.skipped (n + 1))
  | solid {t : Token} {w : Nat} : t ≠ .semicolon → isBlank c = false → c ∉ ['\'','"',';'] →
      (c = '-' → rest.head? ≠ some '-') → (c = '/' → rest.head? ≠ some '*') →
      (∀ d ∈ rest.take w, isSolid d = true) → w ≤ rest.length → Bite c rest (.token t w)

/-- A word is a number or a name that is written as it stands there, or a keyword. -/
theorem ofWord_cases (word : List Char) : ofWord word = .number (String.ofList word) ∨
    ofWord word = .name (String.ofList word) ∨ ∃ k, ofWord word = .keyword k := by
  simp only [ofWord]
  by_cases digits : (if word.head? = some '-' then word.tail else word) ≠ [] ∧
      (if word.head? = some '-' then word.tail else word).all (fun c => c.isDigit || c = '.')
  · exact .inl (if_pos digits)
  · rw [if_neg digits]
    cases Keyword.ofWord? word with
    | none => exact .inr (.inl rfl)
    | some k => exact .inr (.inr ⟨k,rfl⟩)

theorem ofWord_ne_semicolon (word : List Char) : ofWord word ≠ .semicolon := by
  rcases ofWord_cases word with same | same | ⟨k,same⟩ <;> simp [same]

theorem take_wordAt (text : List Char) : text.take (wordAt text).length = wordAt text :=
  (List.prefix_iff_eq_take.mp (wordAt_leads text)).symm

theorem mem_of_mem_take_pred {d : Char} (member : d ∈ rest.take (n - 1)) : d ∈ (c :: rest).take n := by
  cases n with
  | zero => simp at member
  | succ n => exact List.mem_cons_of_mem _ member

theorem bite_of_wordChar (word : isWordChar c = true) : Bite c rest (frontOfWord (wordAt (c :: rest))) := by
  have solid := isSolid_of_isWordChar word
  simp only [isSolid,ne_eq,decide_not,Bool.and_eq_true,Bool.not_eq_true',decide_eq_false_iff_not] at solid
  obtain ⟨⟨⟨⟨⟨full,single⟩,double⟩,semicolon⟩,dash⟩,slash⟩ := solid
  refine .solid (ofWord_ne_semicolon _) full (by simp [single,double,semicolon])
    (fun same => absurd same dash) (fun same => absurd same slash) (fun d member => ?_) ?_
  · have inside := mem_of_mem_take_pred (c := c) member
    rw [take_wordAt] at inside
    exact isSolid_of_mem_wordAt inside
  · have short := (wordAt_leads (c :: rest)).length_le
    rw [List.length_cons] at short
    omega

/-- An operator of one or two characters. -/
theorem bite_operator {t : Token} (other : t ≠ .semicolon) (operator : c ∈ [',','(',')','*','=','<','>','!'])
    (second : w = 0 ∨ w = 1 ∧ (rest.head? = some '=' ∨ rest.head? = some '>')) :
    Bite c rest (.token t w) := by
  have apart : isBlank c = false ∧ c ∉ ['\'','"',';'] ∧ c ≠ '-' ∧ c ≠ '/' := by
    simp only [List.mem_cons,List.not_mem_nil,or_false] at operator
    rcases operator with rfl | rfl | rfl | rfl | rfl | rfl | rfl | rfl <;> decide
  obtain ⟨full,plain,dash,slash⟩ := apart
  refine .solid other full plain (fun same => absurd same dash) (fun same => absurd same slash) ?_ ?_
  all_goals rcases second with rfl | ⟨rfl,equals | greater⟩
  · simp
  · obtain ⟨more,rfl⟩ := List.head?_eq_some_iff.mp equals
    simp [isSolid,isBlank]
  · obtain ⟨more,rfl⟩ := List.head?_eq_some_iff.mp greater
    simp [isSolid,isBlank]
  · exact Nat.zero_le _
  · obtain ⟨more,rfl⟩ := List.head?_eq_some_iff.mp equals
    simp
  · obtain ⟨more,rfl⟩ := List.head?_eq_some_iff.mp greater
    simp

theorem bite_less : Bite '<' rest (front '<' rest) := by
  rw [front_less]
  split
  · next equals => exact bite_operator (by simp) (by decide) (.inr ⟨rfl,.inl equals⟩)
  · split
    · next greater => exact bite_operator (by simp) (by decide) (.inr ⟨rfl,.inr greater⟩)
    · exact bite_operator (by simp) (by decide) (.inl rfl)

theorem bite_greater : Bite '>' rest (front '>' rest) := by
  rw [front_greater]
  split
  · next equals => exact bite_operator (by simp) (by decide) (.inr ⟨rfl,.inl equals⟩)
  · exact bite_operator (by simp) (by decide) (.inl rfl)

theorem bite_bang (ends : (front '!' rest).width? = some w) : Bite '!' rest (front '!' rest) := by
  rw [front_bang] at ends ⊢
  split at ends
  · next equals =>
    rw [if_pos equals]
    exact bite_operator (by simp) (by decide) (.inr ⟨rfl,.inl equals⟩)
  · cases ends

theorem bite_dash (ends : (front '-' rest).width? = some w) : Bite '-' rest (front '-' rest) := by
  rw [front_dash] at ends ⊢
  split
  · next dash =>
    obtain ⟨more,rfl⟩ := List.head?_eq_some_iff.mp dash
    exact .line rfl rfl
  · next other =>
    rw [if_neg other] at ends
    split at ends
    · next digit =>
      rw [if_pos digit]
      refine .solid (ofWord_ne_semicolon _) (by decide) (by decide) (fun _ => other) (by simp) ?_ ?_
      · intro d member
        rw [List.length_cons,Nat.add_sub_cancel,take_wordAt] at member
        exact isSolid_of_mem_wordAt member
      · exact (wordAt_leads rest).length_le
    · cases ends

theorem bite_slash (ends : (front '/' rest).width? = some w) : Bite '/' rest (front '/' rest) := by
  rw [front_slash] at ends ⊢
  split at ends
  · next star =>
    rw [if_pos star]
    obtain ⟨more,rfl⟩ := List.head?_eq_some_iff.mp star
    cases read : blockLength more with
    | none => simp [read,Front.width?] at ends
    | some n =>
      simp only [List.tail_cons,read]
      exact .block rfl rfl read
  · cases ends

/-- A character that begins nothing but itself, or a word. -/
theorem bite_plain (blank : ¬isBlank c = true) (quote : ¬(c = '\'' ∨ c = '"'))
    (operator : c ∉ ['<','>','!','-','/']) (ends : (front c rest).width? = some w) :
    Bite c rest (front c rest) := by
  by_cases semicolon : c = ';'
  · subst semicolon
    exact .semicolon rfl
  simp only [List.mem_cons,List.not_mem_nil,or_false,not_or] at operator
  obtain ⟨lt,gt,bang,dash,slash⟩ := operator
  simp only [front.eq_def,blank,quote,lt,gt,bang,dash,slash,semicolon,Bool.false_eq_true,if_false] at ends ⊢
  split
  · next comma => exact bite_operator (by simp) (by simp [comma]) (.inl rfl)
  split
  · next openParen => exact bite_operator (by simp) (by simp [openParen]) (.inl rfl)
  split
  · next closeParen => exact bite_operator (by simp) (by simp [closeParen]) (.inl rfl)
  split
  · next star => exact bite_operator (by simp) (by simp [star]) (.inl rfl)
  split
  · next equals => exact bite_operator (by simp) (by simp [equals]) (.inl rfl)
  split
  · next word => exact bite_of_wordChar word
  · simp_all [Front.width?]

theorem bite_front (ends : (front c rest).width? = some w) (closed : closes c rest = true) :
    Bite c rest (front c rest) := by
  by_cases blank : isBlank c = true
  · rw [front.eq_def,if_pos blank]
    exact .blank blank
  by_cases quote : c = '\'' ∨ c = '"'
  · obtain ⟨text,n,read⟩ := untilQuote_of_closes quote closed
    rw [front_quote quote read]
    exact .quoted quote read
  by_cases operator : c ∈ ['<','>','!','-','/']
  · simp only [List.mem_cons,List.not_mem_nil,or_false] at operator
    rcases operator with rfl | rfl | rfl | rfl | rfl
    · exact bite_less
    · exact bite_greater
    · exact bite_bang ends
    · exact bite_dash ends
    · exact bite_slash ends
  · exact bite_plain blank quote operator ends

theorem width_le (ends : (front c rest).width? = some w) (closed : closes c rest = true) :
    w ≤ rest.length := by
  have bite := bite_front ends closed
  generalize front c rest = here at bite ends
  cases bite with
  | blank | semicolon =>
    cases ends
    exact Nat.zero_le _
  | quoted _ read =>
    cases ends
    rw [← List.append_nil rest] at read
    exact length_of_untilQuote read (by simp)
  | line _ more =>
    cases ends
    exact lineLength_le rest
  | @block more n _ same read =>
    cases ends
    rw [same]
    rw [← List.append_nil more] at read
    exact Nat.succ_le_succ (length_of_blockLength read (by simp))
  | solid _ _ _ _ _ _ short =>
    cases ends
    exact short

/-- No front reaches beyond the text, whether or not its quote is closed. -/
theorem width_le_length (ends : (front c rest).width? = some w) : w ≤ rest.length := by
  cases closed : closes c rest with
  | true => exact width_le ends closed
  | false =>
    obtain ⟨quote,left⟩ := closes_eq_false.mp closed
    rw [front_open quote left rfl] at ends
    split at ends <;> cases ends
    · exact Nat.zero_le _
    · exact (List.takeWhile_prefix _).length_le

/-- A front that ends with the text is the same before a break. -/
theorem front_before (ends : (front c u).width? = some w) (closed : closes c u = true)
    (line : c = '-' → u.head? = some '-' → lineLength (u ++ y) = lineLength u) (breaks : Breaks y)
    (last : c = '\'' ∨ c = '"' → w = u.length → y.head? ≠ some c) :
    front c (u ++ y) = front c u ∧ closes c (u ++ y) = true := by
  have inside := width_le ends closed
  rw [← List.append_nil u] at ends closed
  have same := front_append ends inside (fun dash more _ => by simpa using line dash (by simpa using more))
    begins_nil breaks last closed
  rw [List.append_nil] at same
  exact ⟨same,closes_of_width ends inside last closed⟩

end PlainTables.Token
