import PlainTables.Editor.View
import PlainTables.Proofs.Editor.Edit

/-! The pieces of a highlighted line, with their lengths counted in bytes. Main statement: the line is cut
between characters only, in no more steps than it has characters, and the pieces are the whole line. -/
namespace PlainTables.Highlight

open Bytes
open Buffer (utf8Size)
open Unicode (isWordChar)

variable {c : Char} {line rest : List Char} {n : Nat}

/-- What a line begins with and how many bytes it has. A closing quote is looked for behind the first byte,
and a word is read to see what it is. -/
def frontOnBytes? (c : Char) (line : List Char) : Option (Nat × PieceKind) :=
  if c = '\'' ∨ c = '"' then do
    let (_,inside) ← cutAt? line 1
    some (((find? (· = c) inside).map (· + 2)).getD (utf8Size line),.quoted)
  else if isWordChar c then do
    let length := (find? (fun d => !(isWordChar d || d = '.')) line).getD (utf8Size line)
    let (word,_) ← cutAt? line length
    some (length,wordPiece word)
  else if c ∈ ['=','<','>','!'] then some (1,.comparator)
  else if c ∈ ['(',')',',','*',';'] then some (1,.punctuation)
  else some (c.utf8Size,.plain)

/-- The pieces that are cut off one after the other in at most so many steps. -/
def cutPieces? : Nat → List Char → Option (List (List Char × PieceKind))
  | _,[] => some []
  | 0,_ :: _ => none
  | n + 1,c :: rest => do
    let (length,kind) ← frontOnBytes? c (c :: rest)
    let (piece,behind) ← cutAt? (c :: rest) length
    let later ← cutPieces? n behind
    some ((piece,kind) :: later)

/-! ### One piece -/

/-- The first piece of a line. -/
def piece (c : Char) (rest : List Char) : List Char := c :: rest.take (front c rest).1

theorem piece_append (c : Char) (rest : List Char) :
    piece c rest ++ rest.drop (front c rest).1 = c :: rest := by
  rw [piece,List.cons_append,List.take_append_drop]

theorem pieces_cons (c : Char) (rest : List Char) : pieces (c :: rest) =
    (piece c rest,(front c rest).2) :: pieces (rest.drop (front c rest).1) := by
  rw [pieces]
  rfl

/-- A quoted piece ends with its closing quote, or it is the rest of the line. -/
theorem size_quoted (byte : c.utf8Size = 1) (rest : List Char) :
    ((find? (· = c) rest).map (· + 2)).getD (1 + utf8Size rest) =
      1 + utf8Size (rest.take (quotedWidth c rest)) := by
  by_cases closed : c ∈ rest
  · obtain ⟨inside,later,rfl,other⟩ := List.eq_append_cons_of_mem closed
    have plain : ∀ d ∈ inside, (decide (d = c)) = false := by
      intro d member
      simpa using ne_of_mem_of_not_mem member other
    have read : (inside ++ c :: later).takeWhile (· ≠ c) = inside := by
      rw [List.takeWhile_append_of_pos (by simpa using plain),List.takeWhile_cons_of_neg (by simp),
        List.append_nil]
    have taken : (inside ++ c :: later).take (inside.length + 1) = inside ++ [c] := by
      simp [List.take_append,List.take_of_length_le]
    rw [find?_append plain (by simp),quotedWidth,if_pos closed,read,taken]
    simp [byte]
    omega
  · have plain : ∀ d ∈ rest, (decide (d = c)) = false := by
      intro d member
      simpa using ne_of_mem_of_not_mem member closed
    have read : rest.takeWhile (· ≠ c) = rest := List.takeWhile_eq_self_iff.mpr (by simpa using plain)
    rw [find?_eq_none plain,quotedWidth,if_neg closed,read,List.take_length]
    rfl

theorem take_takeWhile (p : Char → Bool) (text : List Char) :
    text.take (text.takeWhile p).length = text.takeWhile p :=
  (List.prefix_iff_eq_take.mp (List.takeWhile_prefix p)).symm

/-- A word piece ends before the first character that is no word character and no point. -/
theorem size_word (word : isWordChar c = true) (rest : List Char) :
    (find? (fun d => !(isWordChar d || d = '.')) (c :: rest)).getD (utf8Size (c :: rest)) =
      utf8Size (c :: rest.takeWhile fun d => isWordChar d || d = '.') := by
  have found := find?_getD (fun d => !(isWordChar d || d = '.')) (c :: rest) 0
  simpa [word] using found

/-- Counted in bytes, the first piece of a line is the same. -/
theorem frontOnBytes?_eq (c : Char) (rest : List Char) :
    frontOnBytes? c (c :: rest) = some (utf8Size (piece c rest),(front c rest).2) := by
  unfold frontOnBytes? piece front
  split
  · next quote =>
    have byte : c.utf8Size = 1 := by rcases quote with rfl | rfl <;> rfl
    have cut : cutAt? (c :: rest) 1 = some ([c],rest) := by
      rw [← byte]
      exact cutAt?_append [c] rest
    simp only [cut,bind,Option.bind,Buffer.utf8Size_cons,byte,size_quoted byte]
  split
  · next word =>
    have split : c :: rest = (c :: rest.takeWhile fun d => isWordChar d || d = '.') ++
        rest.dropWhile fun d => isWordChar d || d = '.' := by
      rw [List.cons_append,List.takeWhile_append_dropWhile]
    have cut := cutAt?_append (c :: rest.takeWhile fun d => isWordChar d || d = '.')
      (rest.dropWhile fun d => isWordChar d || d = '.')
    rw [← split] at cut
    simp only [size_word word,cut,bind,Option.bind,take_takeWhile]
  split
  · next comparator =>
    have byte : ∀ d ∈ ['=','<','>','!'], d.utf8Size = 1 := by simp [Char.utf8Size]
    simp [byte c comparator]
  split
  · next punctuation =>
    have byte : ∀ d ∈ ['(',')',',','*',';'], d.utf8Size = 1 := by simp [Char.utf8Size]
    simp [byte c punctuation]
  · rfl

/-! ### The whole line -/

theorem cutPieces?_eq (enough : line.length ≤ n) : cutPieces? n line = some (pieces line) := by
  induction n generalizing line with
  | zero =>
    obtain rfl := List.length_eq_zero_iff.mp (Nat.le_zero.mp enough)
    rw [cutPieces?,pieces]
  | succ n ih =>
    cases line with
    | nil => rw [cutPieces?,pieces]
    | cons c rest =>
      have shorter : (rest.drop (front c rest).1).length ≤ n := by
        rw [List.length_cons] at enough
        rw [List.length_drop]
        omega
      have cut := cutAt?_append (piece c rest) (rest.drop (front c rest).1)
      rw [piece_append] at cut
      simp only [cutPieces?,frontOnBytes?_eq,cut,ih shorter,pieces_cons,bind,Option.bind]

/-- A line cut into pieces that lose nothing of it. -/
structure Divides (line : List Char) (pieces : List (List Char × PieceKind)) : Prop where
  joined : pieces.flatMap Prod.fst = line
  filled : ∀ piece ∈ pieces, piece.1 ≠ []
  few : pieces.length ≤ line.length
  /-- Every cut is between two characters. -/
  apart : ∀ n, (⟨utf8Size ((pieces.take n).flatMap Prod.fst)⟩ : String.Pos.Raw).IsValid
    (String.ofList line)

theorem joined_pieces (line : List Char) : (pieces line).flatMap Prod.fst = line := by
  induction line using pieces.induct with
  | case1 => rw [pieces,List.flatMap_nil]
  | case2 c rest width kind here ih =>
    rw [pieces_cons,List.flatMap_cons,here,ih,← piece_append c rest,here]

theorem filled_pieces (line : List Char) : ∀ piece ∈ pieces line, piece.1 ≠ [] := by
  induction line using pieces.induct with
  | case1 => simp [pieces]
  | case2 c rest width kind here ih =>
    rw [pieces_cons,here]
    exact List.forall_mem_cons.mpr ⟨by simp [piece],ih⟩

/-- Pieces that are not empty are no more than the characters in them. -/
theorem length_le_of_filled {found : List (List Char × PieceKind)} (filled : ∀ piece ∈ found, piece.1 ≠ []) :
    found.length ≤ (found.flatMap Prod.fst).length := by
  induction found with
  | nil => exact Nat.zero_le _
  | cons piece found ih =>
    obtain ⟨here,later⟩ := List.forall_mem_cons.mp filled
    have wide := List.length_pos_iff.mpr here
    have rest := ih later
    rw [List.flatMap_cons,List.length_append,List.length_cons]
    omega

theorem divides_pieces (line : List Char) : Divides line (pieces line) where
  joined := joined_pieces line
  filled := filled_pieces line
  few := by
    have few := length_le_of_filled (filled_pieces line)
    rwa [joined_pieces] at few
  apart := by
    intro n
    have split : ((pieces line).take n).flatMap Prod.fst ++ ((pieces line).drop n).flatMap Prod.fst =
        line := by
      rw [← List.flatMap_append,List.take_append_drop,joined_pieces]
    have valid := Buffer.isValid_offset
      ⟨((pieces line).take n).flatMap Prod.fst,((pieces line).drop n).flatMap Prod.fst⟩
    rwa [Buffer.text,Buffer.chars,split] at valid

/-- The characters of a highlighted line are those of the line. -/
theorem chars_highlighted (line : List Char) : (View.highlighted line).map Glyph.char = line := by
  have each : ∀ text style, (ScreenRow.ofChars style text).map Glyph.char = text := by
    intro text style
    rw [ScreenRow.ofChars,List.map_map]
    exact List.map_id text
  simp only [View.highlighted,List.map_flatMap,each]
  exact joined_pieces line

/-- Highlighting loses nothing of a line. Counted in bytes, it cuts the same pieces off, with a step for
each character at most and every cut between two characters. -/
theorem pieces_keep_line (line : List Char) :
    cutPieces? line.length line = some (pieces line) ∧ Divides line (pieces line) ∧
      (View.highlighted line).map Glyph.char = line :=
  ⟨cutPieces?_eq (Nat.le_refl _),divides_pieces line,chars_highlighted line⟩

end PlainTables.Highlight
