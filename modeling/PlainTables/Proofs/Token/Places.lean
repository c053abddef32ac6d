import PlainTables.Proofs.Token.Layout

/-! Where tokens stand in a text. No step of a scan leaves the text, so what it counts is the place of the
next character. Main statement: places increase up to the end of the text, and a number or a name stands
letter by letter at its place and ends before the next one. -/
namespace PlainTables.Token

open Unicode (isWordChar)

variable {c : Char} {rest text word : List Char} {w n : Nat} {s : String} {t : Token}
  {lexemes : List Lexeme}

/-- The text of a token that stands in the input letter by letter: of a number or a name. -/
def bare? : Token → Option String
  | .number s | .name s => some s
  | _ => none

/-! ### Words -/

theorem toList_of_ofWord (bare : (ofWord word).bare? = some s) : s.toList = word := by
  rcases ofWord_cases word with same | same | ⟨k,same⟩ <;> rw [same] at bare <;> cases bare <;>
    exact String.toList_ofList

theorem ofWord_ne_endOfInput (word : List Char) : ofWord word ≠ .endOfInput := by
  rcases ofWord_cases word with same | same | ⟨k,same⟩ <;> simp [same]

theorem frontOfQuote_token {q : Char} (here : frontOfQuote q rest = .token t w) :
    ∃ value, t = .quoted value := by
  unfold frontOfQuote at here
  split at here
  · cases here
    exact ⟨_,rfl⟩
  · split at here <;> cases here
    exact ⟨_,rfl⟩

/-- What a word scanner has read of a text. -/
def IsWordOf (word text : List Char) : Prop := word ≠ [] ∧ word <+: text

theorem isWordOf_wordAt (word : isWordChar c = true) : IsWordOf (wordAt (c :: rest)) (c :: rest) := by
  refine ⟨?_,wordAt_leads _⟩
  simp only [wordAt,List.takeWhile_cons_of_pos word]
  split <;> simp

/-- The token of a front is a word at the front, or it has no bare text and is not the end. -/
theorem front_token (here : front c rest = .token t w) :
    (∃ word, IsWordOf word (c :: rest) ∧ t = ofWord word ∧ w + 1 = word.length) ∨
      t.bare? = none ∧ t ≠ .endOfInput := by
  have ofFront : ∀ word, IsWordOf word (c :: rest) → frontOfWord word = .token t w →
      ∃ word, IsWordOf word (c :: rest) ∧ t = ofWord word ∧ w + 1 = word.length := by
    rintro word own same
    cases same
    exact ⟨word,own,rfl,Nat.sub_add_cancel (List.length_pos_iff.mpr own.1)⟩
  by_cases letter : isWordChar c = true
  · exact .inl (ofFront _ (isWordOf_wordAt letter) (front_word letter ▸ here))
  by_cases quote : c = '\'' ∨ c = '"'
  · rw [front_eq_frontOfQuote quote] at here
    obtain ⟨value,rfl⟩ := frontOfQuote_token here
    exact .inr ⟨rfl,by simp⟩
  by_cases operator : c ∈ ['<','>','!','-','/']
  · simp only [List.mem_cons,List.not_mem_nil,or_false] at operator
    rcases operator with rfl | rfl | rfl | rfl | rfl
    · rw [front_less] at here
      split_ifs at here <;> cases here <;> exact .inr ⟨rfl,by simp⟩
    · rw [front_greater] at here
      split_ifs at here <;> cases here <;> exact .inr ⟨rfl,by simp⟩
    · rw [front_bang] at here
      split_ifs at here
      cases here
      exact .inr ⟨rfl,by simp⟩
    · rw [front_dash] at here
      split_ifs at here
      refine .inl (ofFront _ ⟨by simp,?_⟩ here)
      exact List.cons_prefix_cons.mpr ⟨rfl,wordAt_leads rest⟩
    · rw [front_slash] at here
      split_ifs at here
      split at here <;> cases here
  · simp only [List.mem_cons,List.not_mem_nil,or_false,not_or] at operator
    simp only [front.eq_def,operator,quote,letter,if_false,Bool.false_eq_true] at here
    split_ifs at here <;> cases here <;> exact .inr ⟨rfl,by simp⟩

/-- A bare text is what its token takes of the text. -/
theorem front_bare (here : front c rest = .token t w) (bare : t.bare? = some s) :
    s.toList <+: c :: rest ∧ s.length = w + 1 := by
  rcases front_token here with ⟨word,own,rfl,size⟩ | ⟨none,-⟩
  · rw [toList_of_ofWord bare,← String.length_toList,toList_of_ofWord bare]
    exact ⟨own.2,size.symm⟩
  · rw [none] at bare
    cases bare

theorem front_ne_endOfInput (here : front c rest = .token t w) : t ≠ .endOfInput := by
  rcases front_token here with ⟨word,-,rfl,-⟩ | ⟨-,other⟩
  · exact ofWord_ne_endOfInput word
  · exact other

/-- The lexeme of a step, if it has one, is the token that its front is. -/
theorem of_mem_placed {l : Lexeme} (ends : (front c rest).width? = some w)
    (member : l ∈ (front c rest).tokens.map (⟨·,n⟩)) :
    l.position = n ∧ front c rest = .token l.token w := by
  cases here : front c rest with
  | token t width =>
    rw [here] at ends member
    cases ends
    obtain rfl : l = ⟨t,n⟩ := by simpa [Front.tokens] using member
    exact ⟨rfl,rfl⟩
  | skipped | unexpected | openComment =>
    rw [here] at member
    cases member

/-! ### Places -/

namespace Placed

theorem position_ge (placed : Placed n text lexemes) : ∀ l ∈ lexemes, n ≤ l.position := by
  induction placed with
  | done => simp
  | step ends _ ih =>
    intro l member
    rcases List.mem_append.mp member with here | later
    · exact Nat.le_of_eq (of_mem_placed ends here).1.symm
    · have beyond := ih l later
      omega

/-- The end of the input stands behind the last character, and there is no other. -/
theorem ended (placed : Placed n text lexemes) :
    ∃ earlier, lexemes = earlier ++ [⟨.endOfInput,n + text.length⟩] ∧
      ∀ l ∈ earlier, l.token ≠ .endOfInput := by
  induction placed with
  | done => exact ⟨[],rfl,by simp⟩
  | @step n c rest w later ends _ ih =>
    obtain ⟨earlier,rfl,others⟩ := ih
    have inside := width_le_length ends
    have size : n + w + 1 + (rest.drop w).length = n + (c :: rest).length := by
      rw [List.length_drop,List.length_cons]
      omega
    refine ⟨(front c rest).tokens.map (⟨·,n⟩) ++ earlier,by rw [size,List.append_assoc],?_⟩
    refine List.forall_mem_append.mpr ⟨fun l member => ?_,others⟩
    exact front_ne_endOfInput (of_mem_placed ends member).2

/-- A lexeme begins behind the beginning of every earlier one, and behind its end if that is bare. -/
theorem apart (placed : Placed n text lexemes) : lexemes.Pairwise fun l next =>
    l.position < next.position ∧ ∀ s ∈ l.token.bare?, l.position + s.length ≤ next.position := by
  induction placed with
  | done => exact List.pairwise_singleton _ _
  | @step n c rest w later ends placed ih =>
    refine List.pairwise_append.mpr ⟨?_,ih,fun l member next behind => ?_⟩
    · match front c rest with
      | .token t _ => exact List.pairwise_singleton _ _
      | .skipped _ | .unexpected | .openComment => exact .nil
    · obtain ⟨position,here⟩ := of_mem_placed ends member
      have beyond := placed.position_ge next behind
      refine ⟨by omega,fun s bare => ?_⟩
      obtain ⟨-,size⟩ := front_bare here bare
      omega

/-- A bare text stands at its place. -/
theorem stands (placed : Placed n text lexemes) {whole : List Char} (here : whole.drop n = text) :
    ∀ l ∈ lexemes, ∀ s ∈ l.token.bare?, s.toList <+: whole.drop l.position := by
  induction placed with
  | done => simp [bare?]
  | @step n c rest w later ends _ ih =>
    have behind : whole.drop (n + w + 1) = rest.drop w := by
      rw [Nat.add_assoc,← List.drop_drop,here,List.drop_succ_cons]
    refine List.forall_mem_append.mpr ⟨fun l member s bare => ?_,ih behind⟩
    obtain ⟨position,front⟩ := of_mem_placed ends member
    rw [position,here]
    exact (front_bare front bare).1

end Placed

/-! ### The whole text -/

/-- Lexemes that say where their tokens stand in a text. -/
structure Faithful (text : String) (lexemes : List Lexeme) : Prop where
  increasing : (lexemes.map Lexeme.position).Pairwise (· < ·)
  ended : ∃ earlier, lexemes = earlier ++ [⟨.endOfInput,text.length⟩] ∧
    ∀ l ∈ earlier, l.token ≠ .endOfInput
  stands : ∀ l ∈ lexemes, ∀ s ∈ l.token.bare?, s.toList <+: text.toList.drop l.position
  apart : ∀ earlier l next later, lexemes = earlier ++ l :: next :: later →
    ∀ s ∈ l.token.bare?, l.position + s.length ≤ next.position

/-- Every text that is scanned is scanned to lexemes at their places. -/
theorem faithful_of_scan (text : String) (lexemes : List Lexeme) (scanned : scan text = .ok lexemes) :
    Faithful text lexemes := by
  have placed := placed_of_scanFrom scanned
  have apart := placed.apart
  constructor
  · exact List.pairwise_map.mpr (apart.imp And.left)
  · have ended := placed.ended
    rwa [Nat.zero_add,String.length_toList] at ended
  · exact placed.stands List.drop_zero
  · rintro earlier l next later rfl
    have behind := List.pairwise_cons.mp (List.pairwise_append.mp apart).2.1
    exact (behind.1 next List.mem_cons_self).2

/-- A comment, a name and a number without a gap, and a quote that is never closed. -/
def unclosed : List Lexeme := [
  ⟨.name "ñ1",5⟩,⟨.comparator .notEq,7⟩,⟨.number "-7.5",9⟩,⟨.quoted "x--",13⟩,⟨.semicolon,17⟩,
  ⟨.endOfInput,18⟩]

theorem unclosed_faithful :
    scan "/*é*/ñ1<>-7.5'x--;" = .ok unclosed ∧ Faithful "/*é*/ñ1<>-7.5'x--;" unclosed := by
  have scanned : scan "/*é*/ñ1<>-7.5'x--;" = .ok unclosed := by decide +kernel
  exact ⟨scanned,faithful_of_scan _ _ scanned⟩

end PlainTables.Token
