import PlainTables.Proofs.Script
import PlainTables.Proofs.Token.Spelled

/-! Texts without a statement. Such a text holds blanks, comments and semicolons only, and its last comment
may be open. Main statement: these are exactly the texts that are cut into nothing. -/
namespace PlainTables.Script

open Token Unicode

variable {c : Char} {rest later text : List Char} {n width : Nat} {quote : Option Char} {piece : Piece}

/-- A text that begins with a comment, and what stands behind the comment. Both kinds of comments may reach
to the end of the text. -/
inductive Comment : List Char → List Char → Prop where
  | line {text rest : List Char} : '\n' ∉ text → Comment ('-' :: '-' :: (text ++ '\n' :: rest)) rest
  | lastLine {text : List Char} : '\n' ∉ text → Comment ('-' :: '-' :: text) []
  | block {text rest : List Char} : ¬['*','/'] <:+: text →
      Comment ('/' :: '*' :: (text ++ '*' :: '/' :: rest)) rest
  | openBlock {text : List Char} : ¬['*','/'] <:+: text → Comment ('/' :: '*' :: text) []

/-- Blanks, comments and semicolons in any number and order. -/
inductive Silent : List Char → Prop where
  | none : Silent []
  | blank {c : Char} {rest : List Char} : isBlank c = true → Silent rest → Silent (c :: rest)
  | semicolon {rest : List Char} : Silent rest → Silent (';' :: rest)
  | comment {text rest : List Char} : Comment text rest → Silent rest → Silent text

/-! ### Comments -/

theorem not_prefix_of_other (other : ∀ tail, c = '*' → rest = '/' :: tail → False) :
    ¬['*','/'] <+: c :: rest := by
  rintro ⟨tail,split⟩
  obtain ⟨star,slash⟩ := List.cons.inj split
  exact other tail star.symm slash.symm

theorem blockLength_eq_none_iff : blockLength text = none ↔ ¬['*','/'] <:+: text := by
  fun_induction blockLength text with
  | case1 => simp
  | case2 rest => simp [List.infix_cons_iff]
  | case3 c rest other ih =>
    have apart := not_prefix_of_other other
    rw [Option.map_eq_none_iff,ih,List.infix_cons_iff]
    simp [apart]

/-- The end mark that is found is the first one. -/
theorem blockLength_eq_some (read : blockLength text = some n) : ∃ inner rest,
    text = inner ++ '*' :: '/' :: rest ∧ n = inner.length + 2 ∧ ¬['*','/'] <:+: inner := by
  fun_induction blockLength text generalizing n with
  | case1 => cases read
  | case2 rest =>
    cases read
    exact ⟨[],rest,rfl,rfl,by simp⟩
  | case3 c rest other ih =>
    obtain ⟨m,found,rfl⟩ := Option.map_eq_some_iff.mp read
    obtain ⟨inner,later,rfl,rfl,plain⟩ := ih found
    refine ⟨c :: inner,later,rfl,by simp,?_⟩
    rw [List.infix_cons_iff,not_or]
    refine ⟨?_,plain⟩
    rintro ⟨tail,split⟩
    apply not_prefix_of_other other
    exact ⟨tail ++ '*' :: '/' :: later,by rw [← List.append_assoc,split,List.cons_append]⟩

theorem Comment.first (comment : Comment (c :: rest) later) : c = '-' ∨ c = '/' := by
  generalize begins : c :: rest = text at comment
  cases comment <;> simp_all

theorem comment_of_width (comment : commentWidth c rest = some width) :
    Comment (c :: rest) (rest.drop width) := by
  unfold commentWidth at comment
  split at comment
  · next more =>
    cases comment
    by_cases feed : '\n' ∈ more
    · obtain ⟨text,later,rfl,plain⟩ := List.eq_append_cons_of_mem feed
      have begins : Comment ('-' :: '-' :: (text ++ '\n' :: later)) later := .line plain
      rw [lineLength_line plain]
      simpa using begins
    · have whole := (lineLength_of_not_mem (u := '-' :: more) (by simpa using feed) []).1
      rw [whole,List.drop_length]
      exact .lastLine feed
  · next more =>
    cases comment
    rw [blockWidth_eq,if_neg (by simp),List.drop_succ_cons]
    cases read : blockLength more with
    | none =>
      rw [Option.getD_none,List.drop_length]
      exact .openBlock (blockLength_eq_none_iff.mp read)
    | some n =>
      obtain ⟨text,later,rfl,rfl,plain⟩ := blockLength_eq_some read
      have begins : Comment ('/' :: '*' :: (text ++ '*' :: '/' :: later)) later := .block plain
      simpa using begins
  · cases comment

theorem width_of_comment (comment : Comment (c :: rest) later) :
    ∃ width, commentWidth c rest = some width ∧ rest.drop width = later := by
  cases comment with
  | @line text rest plain =>
    refine ⟨_,commentWidth_line,?_⟩
    simp [lineLength_line plain]
  | @lastLine text plain =>
    have whole := (lineLength_of_not_mem (u := '-' :: text) (by simpa using plain) []).1
    refine ⟨_,commentWidth_line,?_⟩
    rw [whole,List.drop_length]
  | @block text later plain =>
    refine ⟨_,commentWidth_block (blockLength_block plain later),?_⟩
    simp
  | @openBlock text plain =>
    refine ⟨text.length + 1,?_,by simp⟩
    rw [commentWidth,blockWidth_eq,if_neg (by simp),blockLength_eq_none_iff.mpr plain,Option.getD_none]

/-! ### Silent texts -/

theorem silent_comment (comment : commentWidth c rest = some width) :
    Silent (c :: rest) ↔ Silent (rest.drop width) := by
  constructor
  · intro silent
    cases silent with
    | blank blank =>
      rcases (comment_of_width comment).first with rfl | rfl <;> exact absurd blank (by decide)
    | semicolon => cases comment
    | comment begins silent =>
      obtain ⟨other,found,rfl⟩ := width_of_comment begins
      rw [comment] at found
      cases found
      exact silent
  · exact .comment (comment_of_width comment)

theorem silent_semicolon : Silent (';' :: rest) ↔ Silent rest := by
  constructor
  · intro silent
    cases silent with
    | blank blank => exact absurd blank (by decide)
    | semicolon silent => exact silent
    | comment begins => cases begins
  · exact .semicolon

theorem silent_blank (blank : isBlank c = true) : Silent (c :: rest) ↔ Silent rest := by
  constructor
  · intro silent
    cases silent with
    | blank _ silent => exact silent
    | semicolon silent => exact silent
    | comment begins => rcases begins.first with rfl | rfl <;> exact absurd blank (by decide)
  · exact .blank blank

theorem not_silent (full : isBlank c = false) (other : c ≠ ';') (comment : commentWidth c rest = none) :
    ¬Silent (c :: rest) := by
  intro silent
  cases silent with
  | blank blank => simp [full] at blank
  | semicolon => exact other rfl
  | comment begins =>
    obtain ⟨width,found,-⟩ := width_of_comment begins
    simp [comment] at found

/-- A piece with content becomes a statement, so nothing comes of a text only if it has no content. -/
theorem cut_eq_nil_iff (marked : quote.isSome → piece.content = true) :
    cut quote piece text = [] ↔ piece.content = false ∧ Silent text := by
  fun_induction cut quote piece text with
  | case1 quote piece => simp [Piece.finish,Silent.none]
  | case2 piece c rest q ih =>
    have content : piece.content = true := marked rfl
    have inside := ih fun _ => content
    simpa [Piece.push,content] using inside
  | case3 piece c rest mark ih =>
    have loud : ¬Silent (c :: rest) := by
      rcases mark with rfl | rfl <;> exact not_silent (by decide) (by decide) rfl
    simpa [Piece.mark,loud] using ih fun _ => rfl
  | case4 piece c rest plain width comment ih =>
    rw [ih (by simp),silent_comment comment]
    rfl
  | case5 piece rest plain comment ih =>
    rw [List.append_eq_nil_iff,ih (by simp),silent_semicolon]
    simp [Piece.finish,Piece.push,Piece.empty]
  | case6 piece c rest plain comment other blank ih =>
    rw [ih (by simp),silent_blank blank]
    rfl
  | case7 piece c rest plain comment other full ih =>
    have loud := not_silent (by simpa using full) other comment
    simpa [Piece.mark,loud] using ih fun _ => rfl

theorem statements_eq_nil_iff (text : String) : statements text = [] ↔ Silent text.toList := by
  rw [statements,List.map_eq_nil_iff,cut_eq_nil_iff (by simp)]
  simp [Piece.empty]

end PlainTables.Script
