import PlainTables.Proofs.Token.Reads

/-! Quotes without a partner. Such a quote is dropped, and the value behind it reaches to the next
separator. Main statement: neither a token before the quote nor one behind the value is changed. -/
namespace PlainTables.Token

open Unicode (isBlank)

variable {c q : Char} {u v rest text after value : List Char} {w : Nat} {ts us : List Token}

/-- A text whose last comment runs to the end of its line and lacks a line feed there. -/
def endsInLine : List Char → Bool
  | [] => false
  | c :: rest =>
    match front c rest with
    | .token _ width => endsInLine (rest.drop width)
    | .skipped width => (c = '-' && !rest.contains '\n') || endsInLine (rest.drop width)
    | .unexpected | .openComment => false
termination_by text => text.length
decreasing_by all_goals simp only [List.length_drop,List.length_cons]; omega

/-- A character that ends a value without quotes. -/
def EndsValue (c : Char) : Prop := isBlank c = true ∨ c ∈ ",;()=<>!'\"".toList

instance (c : Char) : Decidable (EndsValue c) := inferInstanceAs (Decidable (_ ∨ _))

theorem isSeparator_iff : isSeparator c = true ↔ EndsValue c := by
  simp [isSeparator,EndsValue]

/-! ### Before the quote -/

theorem endsInLine_drop (ends : (front c rest).width? = some w)
    (outside : endsInLine (c :: rest) = false) : endsInLine (rest.drop w) = false := by
  rw [endsInLine.eq_def] at outside
  cases here : front c rest <;> simp_all [Front.width?]

theorem line_feed_mem (line : rest.head? = some '-') (outside : endsInLine ('-' :: rest) = false) :
    '\n' ∈ rest := by
  rw [endsInLine.eq_def] at outside
  simp_all [front_dash]

/-- A quoted text that ends with the whole text ends it with its own quote. -/
theorem quote_ends (quote : c = '\'' ∨ c = '"') (closed : closes c u = true)
    (ends : (front c u).width? = some u.length) : [c] <:+ u := by
  obtain ⟨text,n,read⟩ := untilQuote_of_closes quote closed
  rw [front_quote quote read] at ends
  obtain ⟨later,rfl,-,rfl⟩ := untilQuote_eq_some.mp read
  have size : later = [] := by simpa [Front.width?] using ends
  exact ⟨doubled c text,by rw [size]⟩

/-- A text that does not end with a quote, and in no comment, is read before one as before the end. -/
theorem Leads.before_quote (leads : Leads u ts after) (finished : after = [])
    (quote : q = '\'' ∨ q = '"') (apart : ¬[q] <:+ u) (outside : endsInLine u = false)
    (v : List Char) : Leads (u ++ q :: v) ts (q :: v) := by
  induction leads with
  | refl =>
    subst finished
    exact .refl
  | @step c u after w ts ends closed _ ih =>
    have inside := width_le ends closed
    have behind : u.drop w <:+ c :: u := (List.drop_suffix w u).trans (List.suffix_cons c u)
    have later := ih finished (fun ended => apart (ended.trans behind)) (endsInLine_drop ends outside)
    have breaks : Breaks (q :: v) := by
      rcases quote with rfl | rfl <;> simp [Begins]
    have last : c = '\'' ∨ c = '"' → w = u.length → (q :: v).head? ≠ some c := by
      rintro opens rfl same
      cases same
      exact apart ((quote_ends opens closed ends).trans (List.suffix_cons _ u))
    have line : c = '-' → u.head? = some '-' → lineLength (u ++ q :: v) = lineLength u := by
      rintro rfl dash
      exact lineLength_append_of_mem (line_feed_mem dash outside) _
    obtain ⟨same,closes⟩ := front_before ends closed line breaks last
    rw [← same] at ends ⊢
    rw [List.cons_append]
    refine .step ends closes ?_
    rwa [List.drop_append_of_le_length inside]

/-! ### The value -/

theorem untilQuote_of_not_mem (plain : q ∉ rest) : untilQuote q rest = none := by
  by_contra closed
  obtain ⟨⟨text,n⟩,read⟩ := Option.ne_none_iff_exists'.mp closed
  obtain ⟨later,rfl,-,-⟩ := untilQuote_eq_some.mp read
  simp at plain

theorem Scans.of_unmatched (quote : q = '\'' ∨ q = '"') (plain : q ∉ value ++ rest)
    (whole : ∀ c ∈ value, ¬EndsValue c) (ends : ∀ c ∈ rest.head?, EndsValue c)
    (scans : Scans rest ts) : Scans (q :: (value ++ rest))
      ((if value = [] then [] else [.quoted (String.ofList value)]) ++ ts) := by
  have found : (value ++ rest).takeWhile (fun d => !isSeparator d) = value :=
    takeWhile_append_eq (by simpa [← isSeparator_iff] using whole) (by simpa [isSeparator_iff] using ends)
  have here := front_open quote (untilQuote_of_not_mem plain) found
  have step : (front q (value ++ rest)).width? = some value.length →
      Scans (q :: (value ++ rest)) ((front q (value ++ rest)).tokens ++ ts) :=
    fun width => .step width (by rwa [List.drop_left])
  by_cases empty : value = []
  · rw [if_pos empty] at here ⊢
    rw [here] at step
    exact step (by rw [empty]; rfl)
  · rw [if_neg empty] at here ⊢
    rw [here] at step
    exact step rfl

/-! ### The whole text -/

/-- A quote without a partner is dropped: the tokens before it stay as they are, what follows up to the
next separator is a value, and the rest is scanned as it is alone. -/
theorem tokens_of_unmatched (q : Char) (quote : q = '\'' ∨ q = '"') (before value rest : String)
    (first later : List Token) (scanned : tokens before = .ok first)
    (closed : quotesClosed before.toList = true) (apart : ¬[q] <:+ before.toList)
    (outside : endsInLine before.toList = false) (plain : q ∉ value.toList ++ rest.toList)
    (whole : ∀ c ∈ value.toList, ¬EndsValue c) (ends : ∀ c ∈ rest.toList.head?, EndsValue c)
    (follows : tokens rest = .ok later) :
    tokens (before ++ q.toString ++ value ++ rest) =
      .ok (first.dropLast ++ (if value = "" then [] else [.quoted value]) ++ later) := by
  obtain ⟨-,reads⟩ := reads_of_tokens scanned closed
  obtain ⟨last,scans⟩ := scans_of_tokens follows
  have leads := reads.before_quote rfl quote apart outside (value.toList ++ rest.toList)
  have total := (leads.scans (scans.of_unmatched quote plain whole ends)).tokens
  have text : before ++ q.toString ++ value ++ rest =
      String.ofList (before.toList ++ q :: (value.toList ++ rest.toList)) := by
    apply String.toList_inj.mp
    simp
  rw [text,total,last]
  simp

/-- A closed quote and one in a comment stand before the one without a partner, a further one without a
partner behind its value. -/
theorem tokens_of_unmatched_city :
    tokens "-- it's\nWHERE \"'\" <> a='Rome; \"x /* */" =
      .ok [.keyword .where,.quoted "'",.comparator .notEq,.name "a",.comparator .eq,.quoted "Rome",
        .semicolon,.quoted "x",.endOfInput] := by
  have solid : "Rome".toList.all (fun c => !isSeparator c) = true := by decide
  have whole := tokens_of_unmatched '\'' (.inl rfl) "-- it's\nWHERE \"'\" <> a=" "Rome" "; \"x /* */"
    [.keyword .where,.quoted "'",.comparator .notEq,.name "a",.comparator .eq,.endOfInput]
    [.semicolon,.quoted "x",.endOfInput] (by decide +kernel) (by decide +kernel) (by decide +kernel)
    (by decide +kernel) (by decide +kernel) (by simpa [← isSeparator_iff] using solid)
    (by simp [EndsValue]) (by decide +kernel)
  have text : "-- it's\nWHERE \"'\" <> a=" ++ '\''.toString ++ "Rome" ++ "; \"x /* */" =
      "-- it's\nWHERE \"'\" <> a='Rome; \"x /* */" := by decide +kernel
  rwa [text] at whole

end PlainTables.Token
