import PlainTables.Proofs.Token.Reads
import PlainTables.Script

/-! The statements of a script are the statements of its tokens. Cutting a text and scanning it
go through the same fronts in step, and what is cut off is scanned to the tokens it had in the
whole text. -/
namespace PlainTables.Script

open Token Unicode

variable {c q : Char} {rest text after : List Char} {w : Nat} {ts : List Token} {piece : Piece}

/-! ### Pieces -/

/-- A piece after some more text, which holds the given tokens. -/
def Piece.grown (piece : Piece) (text : List Char) (tokens : List Token) : Piece :=
  ⟨text.reverse ++ piece.reversed,piece.content || !tokens.isEmpty⟩

theorem Piece.grown_nil (piece : Piece) : piece.grown [] [] = piece := by
  simp [grown]

theorem Piece.grown_grown (piece : Piece) (a b : List Char) (s t : List Token) :
    (piece.grown a s).grown b t = piece.grown (a ++ b) (s ++ t) := by
  cases s <;> simp [grown]

/-! ### Comments -/

/-- The two ways to find the end of a block comment agree. -/
theorem blockWidth_eq (before : Char) (text : List Char) :
    blockWidth before text =
      if before = '*' ∧ text.head? = some '/' then 1 else (blockLength text).getD text.length := by
  induction text generalizing before with
  | nil => simp [blockWidth,blockLength]
  | cons c rest ih =>
    by_cases ended : before = '*' ∧ c = '/'
    · simp [blockWidth,ended]
    rw [blockWidth,if_neg ended,if_neg (by simpa using ended),ih c]
    by_cases mark : c = '*' ∧ rest.head? = some '/'
    · obtain ⟨rfl,slash⟩ := mark
      obtain ⟨more,rfl⟩ := List.head?_eq_some_iff.mp slash
      simp [blockLength_ended]
    · rw [if_neg mark,blockLength_other mark]
      cases blockLength rest <;> simp

theorem commentWidth_line : commentWidth '-' ('-' :: rest) = some (lineLength ('-' :: rest)) := rfl

theorem commentWidth_block {n : Nat} (read : blockLength rest = some n) :
    commentWidth '/' ('*' :: rest) = some (n + 1) := by
  rw [commentWidth,blockWidth_eq,if_neg (by simp),read,Option.getD_some]

theorem commentWidth_eq_none (dash : c = '-' → rest.head? ≠ some '-')
    (slash : c = '/' → rest.head? ≠ some '*') : commentWidth c rest = none := by
  unfold commentWidth
  split
  · exact absurd rfl (dash rfl)
  · exact absurd rfl (slash rfl)
  · rfl

/-! ### Cutting in step with the fronts -/

theorem cut_quote (quote : c = '\'' ∨ c = '"') :
    cut none piece (c :: rest) = cut (some c) (piece.push c).mark rest := by
  rw [cut.eq_def]
  simp only [if_pos quote]

theorem cut_comment (quote : ¬(c = '\'' ∨ c = '"')) (comment : commentWidth c rest = some w) :
    cut none piece (c :: rest) =
      cut none ((piece.push c).pushAll (rest.take w)) (rest.drop w) := by
  rw [cut.eq_def]
  simp only [if_neg quote,comment]

theorem cut_semicolon :
    cut none piece (';' :: rest) = (piece.push ';').finish ++ cut none .empty rest := by
  rw [cut.eq_def]
  simp [commentWidth]

theorem cut_blank (quote : ¬(c = '\'' ∨ c = '"')) (comment : commentWidth c rest = none)
    (other : c ≠ ';') (blank : isBlank c = true) :
    cut none piece (c :: rest) = cut none (piece.push c) rest := by
  rw [cut.eq_def]
  simp only [if_neg quote,comment,if_neg other,if_pos blank]

theorem cut_full (quote : ¬(c = '\'' ∨ c = '"')) (comment : commentWidth c rest = none)
    (other : c ≠ ';') (full : isBlank c = false) :
    cut none piece (c :: rest) = cut none (piece.push c).mark rest := by
  rw [cut.eq_def]
  simp [if_neg quote,comment,other,full]

theorem cut_inside (other : c ≠ q) :
    cut (some q) piece (c :: rest) = cut (some q) (piece.push c) rest := by
  rw [cut.eq_def]
  simp only [if_neg other]

theorem cut_closing : cut (some q) piece (q :: rest) = cut none (piece.push q) rest := by
  rw [cut.eq_def]
  simp only [if_true]

theorem mark_of_content (marked : piece.content = true) : piece.mark = piece := by
  cases piece
  cases marked
  rfl

theorem grown_singleton (c : Char) : piece.push c = piece.grown [c] [] := by
  simp [Piece.push,Piece.grown]

theorem pushAll_eq_grown (text : List Char) : piece.pushAll text = piece.grown text [] := by
  simp [Piece.pushAll,Piece.grown]

/-- Inside quotes a doubled quote closes and opens again. -/
theorem cut_doubled (quote : q = '\'' ∨ q = '"') (marked : piece.content = true) :
    cut (some q) piece (doubled q text ++ q :: rest) =
      cut none (piece.grown (doubled q text ++ [q]) []) rest := by
  induction text generalizing piece with
  | nil => rw [doubled,List.flatMap_nil,List.nil_append,cut_closing,grown_singleton,List.nil_append]
  | cons c text ih =>
    rw [doubled_cons]
    by_cases same : c = q
    · have marked : ((piece.push q).push q).content = true := marked
      rw [if_pos same,List.append_assoc,List.cons_append,cut_closing,List.singleton_append,
        cut_quote quote,mark_of_content marked,ih marked,grown_singleton,grown_singleton,
        Piece.grown_grown,Piece.grown_grown]
      rfl
    · have marked : (piece.push c).content = true := marked
      rw [if_neg same,List.append_assoc,List.singleton_append,cut_inside same,ih marked,
        grown_singleton,Piece.grown_grown]
      rfl

theorem not_quote_of_isSolid (solid : isSolid c = true) : ¬(c = '\'' ∨ c = '"') := by
  rintro (rfl | rfl) <;> exact absurd solid (by decide)

theorem cut_solid (marked : piece.content = true) (solid : ∀ d ∈ text, isSolid d = true) :
    cut none piece (text ++ rest) = cut none (piece.grown text []) rest := by
  induction text generalizing piece with
  | nil => rw [Piece.grown_nil,List.nil_append]
  | cons c text ih =>
    have here := solid c List.mem_cons_self
    have comment : commentWidth c (text ++ rest) = none := by
      refine commentWidth_eq_none ?_ ?_ <;> rintro rfl <;> exact absurd here (by decide)
    have other : c ≠ ';' := by
      rintro rfl
      exact absurd here (by decide)
    have full : isBlank c = false := by
      simp only [isSolid,Bool.and_eq_true,Bool.not_eq_true'] at here
      exact here.1.1.1.1.1
    have marked : (piece.push c).content = true := marked
    rw [List.cons_append,cut_full (not_quote_of_isSolid here) comment other full,
      mark_of_content marked,ih marked fun d member => solid d (List.mem_cons_of_mem _ member),grown_singleton,
      Piece.grown_grown]
    rfl

/-- A cut takes a front as a whole, unless it is a semicolon. -/
theorem cut_front (ends : (front c rest).width? = some w) (closed : closes c rest = true)
    (other : c ≠ ';') :
    cut none piece (c :: rest) =
      cut none (piece.grown (c :: rest.take w) (front c rest).tokens) (rest.drop w) := by
  have bite := bite_front ends closed
  generalize front c rest = here at bite ends ⊢
  cases bite with
  | blank blank =>
    cases ends
    have apart : ∀ d, isBlank d = false → c ≠ d := by
      rintro d full rfl
      rw [blank] at full
      cases full
    have comment : commentWidth c rest = none :=
      commentWidth_eq_none (fun dash => absurd dash (apart '-' (by decide)))
        fun slash => absurd slash (apart '/' (by decide))
    have quote : ¬(c = '\'' ∨ c = '"') := not_or.mpr ⟨apart _ (by decide),apart _ (by decide)⟩
    rw [cut_blank quote comment other blank,grown_singleton]
    rfl
  | semicolon same => exact absurd same other
  | @quoted text n quote read =>
    cases ends
    obtain ⟨later,rfl,-,rfl⟩ := untilQuote_eq_some.mp read
    have whole : doubled c text ++ c :: later = (doubled c text ++ [c]) ++ later := by simp
    have size : (doubled c text).length + 1 = (doubled c text ++ [c]).length := by simp
    have marked : (piece.push c).mark.content = true := rfl
    rw [cut_quote quote,cut_doubled quote marked,whole,size,List.take_left,List.drop_left]
    simp [Piece.grown,Piece.push,Piece.mark,Front.tokens]
  | line dash more =>
    cases ends
    subst dash more
    rw [cut_comment (by decide) commentWidth_line,grown_singleton,pushAll_eq_grown,Piece.grown_grown]
    rfl
  | block slash more read =>
    cases ends
    subst slash more
    rw [cut_comment (by decide) (commentWidth_block read),grown_singleton,pushAll_eq_grown,
      Piece.grown_grown]
    rfl
  | solid _ full plain dash slash solid _ =>
    cases ends
    have quote : ¬(c = '\'' ∨ c = '"') := by
      simp only [List.mem_cons,List.not_mem_nil,or_false,not_or] at plain
      simp [plain]
    have marked : (piece.push c).mark.content = true := rfl
    conv => lhs; rw [← List.take_append_drop w rest]
    rw [cut_full quote (by rw [List.take_append_drop]; exact commentWidth_eq_none dash slash) other
      full,cut_solid marked solid]
    simp [Piece.grown,Piece.push,Piece.mark,Front.tokens]

/-! ### Groups of tokens -/

/-- The tokens cut after each semicolon. The last group has no semicolon and may be empty. -/
def groups : List Token → List (List Token)
  | [] => [[]]
  | t :: rest =>
    if t = .semicolon then [t] :: groups rest else (groups rest).modifyHead (t :: ·)

/-- Whether a group holds more than a semicolon. -/
def isStatement (group : List Token) : Bool := group ≠ [] && group ≠ [.semicolon]

def statementGroups (tokens : List Token) : List (List Token) := (groups tokens).filter isStatement

theorem groups_of_not_mem (plain : .semicolon ∉ ts) : groups ts = [ts] := by
  induction ts with
  | nil => rfl
  | cons t rest ih =>
    simp only [List.mem_cons,not_or] at plain
    obtain ⟨apart,plain⟩ := plain
    rw [groups,if_neg (Ne.symm apart),ih plain]
    rfl

theorem groups_append {before after : List Token} (plain : .semicolon ∉ before) :
    groups (before ++ .semicolon :: after) = (before ++ [.semicolon]) :: groups after := by
  induction before with
  | nil => simp [groups]
  | cons t rest ih =>
    simp only [List.mem_cons,not_or] at plain
    obtain ⟨apart,plain⟩ := plain
    rw [List.cons_append,groups,if_neg (Ne.symm apart),ih plain]
    rfl

/-! ### Statements -/

theorem semicolon_not_mem_front (ends : (front c rest).width? = some w)
    (closed : closes c rest = true) (other : c ≠ ';') : .semicolon ∉ (front c rest).tokens := by
  have bite := bite_front ends closed
  generalize front c rest = here at bite ⊢
  cases bite with
  | semicolon same => exact absurd same other
  | solid apart => simpa [Front.tokens] using Ne.symm apart
  | _ => simp [Front.tokens]

/-- A front in a piece that ends with a semicolon is the front it had in the whole text. -/
theorem reads_cons_closed {first later : List Char} (ends : (front c rest).width? = some w)
    (closed : closes c rest = true) (split : rest.drop w = first ++ ';' :: later)
    (reads : Reads (first ++ [';']) ts) :
    Reads ((c :: rest.take w ++ first) ++ [';']) ((front c rest).tokens ++ ts) := by
  obtain ⟨u,made⟩ : ∃ u, u = rest.take w ++ first := ⟨_,rfl⟩
  have whole : rest = u ++ ';' :: later := by
    rw [made,List.append_assoc,← split,List.take_append_drop]
  have size : (rest.take w).length = w := by
    have filled : (rest.drop w).length ≠ 0 := by simp [split]
    rw [List.length_drop] at filled
    rw [List.length_take]
    omega
  have inside : w ≤ u.length := by
    rw [made,List.length_append]
    omega
  have remains : (u ++ [';']).drop w = first ++ [';'] := by
    rw [List.drop_append_of_le_length inside,made,List.drop_left' size]
  rw [List.cons_append,← made,List.cons_append]
  rw [whole] at ends closed ⊢
  have ending : Stops [';'] := stops_semicolon
  have last : c = '\'' ∨ c = '"' → w = u.length → [';'].head? ≠ some c :=
    fun quote _ => ending.not_quote quote
  have closes := closes_of_width ends inside last closed
  have line : lineLength (u ++ ';' :: later) ≤ u.length →
      lineLength (u ++ [';']) = lineLength (u ++ ';' :: later) :=
    fun short => lineLength_append short (by simp)
  have same := front_append ends inside (fun _ _ => line) stops_semicolon.breaks ending.breaks last
    closed
  rw [← same] at ends ⊢
  refine .step ends closes ?_
  rw [remains]
  exact reads

/-- What is cut of a text that is read with every quote closed: nothing up to its end, or its first
statement with the tokens up to the first semicolon. -/
theorem cut_leads (leads : Leads text ts after) (piece : Piece) :
    (.semicolon ∉ ts ∧ ∃ taken, text = taken ++ after ∧
      cut none piece text = cut none (piece.grown taken ts) after) ∨
    ∃ first later before more, text = first ++ ';' :: later ∧
      ts = before ++ .semicolon :: more ∧ .semicolon ∉ before ∧
      Reads (first ++ [';']) (before ++ [.semicolon]) ∧ Leads later more after ∧
      cut none piece text = ((piece.grown first before).push ';').finish ++ cut none .empty later := by
  induction leads generalizing piece with
  | refl => exact .inl ⟨by simp,[],rfl,by rw [Piece.grown_nil]⟩
  | @step c rest after w ts ends closed leads ih =>
    by_cases semicolon : c = ';'
    · subst semicolon
      rw [front_semicolon] at ends ⊢
      cases ends
      have alone : Reads [';'] ((front ';' []).tokens ++ []) :=
        .step (by rw [front_semicolon]; rfl) rfl (by rw [List.drop_nil]; exact .refl)
      rw [front_semicolon] at alone
      refine .inr ⟨[],rest,[],ts,rfl,rfl,by simp,alone,leads,?_⟩
      rw [Piece.grown_nil,cut_semicolon]
    have fresh := semicolon_not_mem_front ends closed semicolon
    rw [cut_front ends closed semicolon]
    rcases ih (piece.grown (c :: rest.take w) (front c rest).tokens) with
      ⟨plain,taken,split,last⟩ | ⟨first,later,before,more,split,tokens,plain,closedReads,leads,cuts⟩
    · refine .inl ⟨by simp [fresh,plain],c :: rest.take w ++ taken,?_,?_⟩
      · rw [List.append_assoc,← split,List.cons_append,List.take_append_drop]
      · rw [last,Piece.grown_grown]
    · refine .inr ⟨c :: rest.take w ++ first,later,(front c rest).tokens ++ before,more,?_,?_,
        by simp [fresh,plain],?_,leads,?_⟩
      · rw [List.append_assoc,← split,List.cons_append,List.take_append_drop]
      · rw [tokens,List.append_assoc]
      · rw [List.append_assoc (front c rest).tokens]
        exact reads_cons_closed ends closed split closedReads
      · rw [cuts,Piece.grown_grown]

theorem finish_grown {t : Token} (text : List Char) (ts : List Token) :
    (Piece.empty.grown text (t :: ts)).finish = [Text.trim text] := by
  simp [Piece.finish,Piece.grown,Piece.empty]

theorem finish_grown_push {t : Token} (text : List Char) (ts : List Token) :
    ((Piece.empty.grown text (t :: ts)).push ';').finish = [Text.trim (text ++ [';'])] := by
  simp [Piece.finish,Piece.grown,Piece.empty,Piece.push]

theorem cut_tokens (reads : Reads text ts) :
    (cut none .empty text).map (fun statement => Token.tokens (String.ofList statement)) =
      (statementGroups ts).map fun group => .ok (group ++ [.endOfInput]) := by
  generalize size : text.length = n
  induction n using Nat.strongRecOn generalizing text ts with
  | ind n ih =>
    rcases cut_leads reads .empty with
      ⟨plain,taken,split,last⟩ | ⟨first,later,before,more,rfl,rfl,plain,firstReads,laterReads,cuts⟩
    · rw [List.append_nil] at split
      rw [last,cut.eq_def,← split,statementGroups,groups_of_not_mem plain]
      cases ts with
      | nil => rfl
      | cons t ts =>
        have kept : isStatement (t :: ts) = true := by
          refine Bool.and_eq_true_iff.mpr ⟨by simp,decide_eq_true fun same => ?_⟩
          simp [same] at plain
        rw [finish_grown,List.filter_cons_of_pos kept]
        simp [reads.scans.trim.tokens]
    · have shorter : later.length < n := by
        simp only [List.length_append,List.length_cons] at size
        omega
      have rest := ih _ shorter laterReads rfl
      rw [cuts,List.map_append,rest,statementGroups,statementGroups,groups_append plain]
      cases before with
      | nil => rfl
      | cons t before =>
        have kept : isStatement (t :: before ++ [.semicolon]) = true := by simp [isStatement]
        rw [finish_grown_push,List.filter_cons_of_pos kept]
        simp [firstReads.scans.trim.tokens]

/-- The statements of a script are the groups of its tokens, in order. -/
theorem statements_tokens (text : String) (tokens : List Token)
    (scanned : Token.tokens text = .ok tokens) (closed : quotesClosed text.toList = true) :
    (statements text).map Token.tokens =
      (statementGroups tokens.dropLast).map fun group => .ok (group ++ [.endOfInput]) := by
  have reads := (reads_of_tokens scanned closed).2
  rw [statements,List.map_map]
  exact cut_tokens reads

/-- A script with a semicolon in a quoted text, one in each kind of comment and one alone. -/
def commented : String := "-- a;\nDROP TABLE 'x;''y'; /*/; */ ;\n1--\";\n=\"'\""

theorem commented_tokens :
    (statements commented).map Token.tokens =
      [.ok [.keyword .drop,.keyword .table,.quoted "x;'y",.semicolon,.endOfInput],
        .ok [.number "1",.comparator .eq,.quoted "'",.endOfInput]] := by
  have whole := statements_tokens commented
    [.keyword .drop,.keyword .table,.quoted "x;'y",.semicolon,.semicolon,.number "1",
      .comparator .eq,.quoted "'",.endOfInput] (by decide +kernel) (by decide +kernel)
  rw [whole]
  rfl

end PlainTables.Script
