import PlainTables.Proofs.Script
import PlainTables.Proofs.Statement.WellFormed

/-! Scripts that consist of statements. Where a text is scanned to the tokens of some statements, each
with its semicolon, it is cut into as many pieces, and each piece is read as its statement. A quote
that is left open in the last statement changes nothing in that. -/
namespace PlainTables.Script

open Token

variable {c q : Char} {rest text after : List Char} {ts us words : List Token} {piece : Piece}

/-- Behind a quote that is left open nothing is cut. -/
theorem cut_unclosed (quote : q = '\'' ∨ q = '"') (marked : piece.content = true)
    (left : untilQuote q rest = none) :
    cut (some q) piece rest = [Text.trim (piece.reversed.reverse ++ rest)] := by
  induction rest using untilQuote.induct q generalizing piece with
  | case1 =>
    rw [cut.eq_def]
    simp [Piece.finish,marked]
  | case2 =>
    rw [untilQuote_closing (by simp)] at left
    cases left
  | case3 more ih =>
    rw [untilQuote_doubled,Option.map_eq_none_iff] at left
    have again : ((piece.push q).push q).content = true := marked
    rw [cut_closing,cut_quote quote,mark_of_content again,ih again left]
    simp [Piece.push]
  | case4 d more other =>
    rw [untilQuote_closing (by simpa using other)] at left
    cases left
  | case5 d more other ih =>
    rw [untilQuote_other other,Option.map_eq_none_iff] at left
    have again : (piece.push d).content = true := marked
    rw [cut_inside other,ih again left]
    simp [Piece.push]

theorem cut_open (opened : closes c rest = false) :
    cut none piece (c :: rest) = [Text.trim (piece.reversed.reverse ++ c :: rest)] := by
  obtain ⟨quote,left⟩ := closes_eq_false.mp opened
  have marked : (piece.push c).mark.content = true := rfl
  rw [cut_quote quote,cut_unclosed quote marked left]
  simp [Piece.push,Piece.mark]

/-- Tokens of statements, each closed by a semicolon. -/
def closedBySemicolons (sentences : List (List Token)) : List Token :=
  sentences.flatMap (· ++ [.semicolon])

/-- What is left of a script: nothing, or its last statement from a quote on that is left open. -/
inductive Remains : List Char → List Token → Prop where
  | none : Remains [] []
  | opened {c : Char} {rest : List Char} {last : List Token} : closes c rest = false →
      Scans (c :: rest) (last ++ [.semicolon]) → .semicolon ∉ last →
      Remains (c :: rest) (last ++ [.semicolon])

theorem append_semicolon_inj {before later more : List Token} (plain : .semicolon ∉ before)
    (apart : .semicolon ∉ words) (same : before ++ .semicolon :: later = words ++ .semicolon :: more) :
    before = words ∧ later = more := by
  have cuts := congrArg groups same
  rw [groups_append plain,groups_append apart,List.cons.injEq] at cuts
  have equal : before = words := by simpa using cuts.1
  rw [equal,List.append_cancel_left_eq,List.cons.injEq] at same
  exact ⟨equal,same.2⟩

/-- A text that consists of statements is cut into these, even if a quote in the last is left open. -/
theorem cut_sentences {sentences : List (List Token)}
    (plain : ∀ words ∈ sentences, words ≠ [] ∧ .semicolon ∉ words) (leads : Leads text ts after)
    (remains : Remains after us) (whole : ts ++ us = closedBySemicolons sentences) :
    (cut none .empty text).map (fun statement => Token.tokens (String.ofList statement)) =
      sentences.map fun words => .ok (words ++ [.semicolon] ++ [.endOfInput]) := by
  induction sentences generalizing text ts with
  | nil =>
    obtain ⟨rfl,rfl⟩ := List.append_eq_nil_iff.mp whole
    generalize none : ([] : List Token) = us at remains
    cases remains with
    | opened => simp at none
    | none =>
      rcases cut_leads leads .empty with ⟨-,taken,-,last⟩ | ⟨_,_,_,_,_,absurdity,_⟩
      · rw [last,cut.eq_def]
        rfl
      · simp at absurdity
  | cons words sentences ih =>
    obtain ⟨⟨filled,apart⟩,later⟩ := List.forall_mem_cons.mp plain
    obtain ⟨t,more,rfl⟩ := List.exists_cons_of_ne_nil filled
    have split : ts ++ us = (t :: more) ++ .semicolon :: closedBySemicolons sentences := by
      simpa [closedBySemicolons] using whole
    rcases cut_leads leads .empty with
      ⟨fresh,taken,cutText,cuts⟩ | ⟨first,rest,before,others,rfl,rfl,fresh,reads,goes,cuts⟩
    · cases remains with
      | none =>
        rw [List.append_nil] at split
        simp [split] at fresh
      | @opened c rest last opened scans unread =>
        have single : .semicolon ∉ ts ++ last := by simp [fresh,unread]
        have split : (ts ++ last) ++ .semicolon :: [] =
            (t :: more) ++ .semicolon :: closedBySemicolons sentences := by
          simpa using split
        obtain ⟨same,none⟩ := append_semicolon_inj single apart split
        have finished : sentences = [] := by
          cases sentences with
          | nil => rfl
          | cons words sentences => simp [closedBySemicolons] at none
        have scanned := (leads.scans scans).trim.tokens
        rw [← List.append_assoc,same] at scanned
        rw [cuts,cut_open opened,finished]
        simp [Piece.grown,Piece.empty,← cutText,scanned]
    · rw [List.append_assoc,List.cons_append] at split
      obtain ⟨rfl,same⟩ := append_semicolon_inj fresh apart split
      rw [cuts,finish_grown_push,List.map_append,ih later goes same]
      simp [reads.scans.trim.tokens]

theorem plain_of_spells {sentences : List (List Token)} {script : List Statement}
    (spells : List.Forall₂ Statement.Spells sentences script) :
    ∀ words ∈ sentences, words ≠ [] ∧ .semicolon ∉ words := by
  induction spells with
  | nil => simp
  | cons spelled _ ih => exact List.forall_mem_cons.mpr ⟨⟨spelled.ne_nil,spelled.semicolon_not_mem⟩,ih⟩

theorem map_parse_of_tokens {pieces : List String} {sentences : List (List Token)}
    {script : List Statement} (spells : List.Forall₂ Statement.Spells sentences script)
    (scanned : pieces.map Token.tokens =
      sentences.map fun words => .ok (words ++ [.semicolon] ++ [.endOfInput])) :
    pieces.map Statement.parse = script.map .ok := by
  induction spells generalizing pieces with
  | nil => simpa using scanned
  | cons spelled _ ih =>
    obtain ⟨piece,later,rfl,first,others⟩ := List.map_eq_cons_iff.mp scanned
    have here := Statement.parse_eq_ok.mpr ⟨_,first,_,spelled,by simp [Phrase.ending]⟩
    rw [List.map_cons,List.map_cons,here,ih others]

/-- A text that has the tokens of some statements is read as these. -/
theorem map_parse_of_leads {text : String} {sentences : List (List Token)} {script : List Statement}
    (spells : List.Forall₂ Statement.Spells sentences script) (leads : Leads text.toList ts after)
    (remains : Remains after us) (whole : ts ++ us = closedBySemicolons sentences) :
    (statements text).map Statement.parse = script.map .ok := by
  apply map_parse_of_tokens spells
  rw [statements,List.map_map]
  exact cut_sentences (plain_of_spells spells) leads remains whole

end PlainTables.Script
