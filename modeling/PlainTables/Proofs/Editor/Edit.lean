import PlainTables.Proofs.Editor.Bytes

/-! Edits of a text with the cursor counted in bytes. Main statement: every edit has a result wherever
the cursor stands, and it is the edit of the two halves of the text. -/
namespace PlainTables

open Unicode (isBlank)
open Buffer (utf8Size)

variable {text first last : List Char}

/-- A text and a cursor in it, counted in bytes. -/
structure ByteBuffer where
  text : List Char
  cursor : Nat
  deriving DecidableEq, Repr

namespace ByteBuffer

open Bytes

/-- Where the character before the cursor begins, or the start of the text. -/
def previous? (b : ByteBuffer) : Option Nat := do
  let (front,_) ← cutAt? b.text b.cursor
  some (((places 0 front).getLast?.map Prod.fst).getD 0)

/-- Where the character at the cursor ends, or the end of the text. -/
def next? (b : ByteBuffer) : Option Nat := do
  let (_,rest) ← cutAt? b.text b.cursor
  some ((rest.head?.map fun c => b.cursor + c.utf8Size).getD (utf8Size b.text))

def moveTo (b : ByteBuffer) (cursor : Nat) : ByteBuffer := { b with cursor := cursor }

def insert? (b : ByteBuffer) (c : Char) : Option ByteBuffer := do
  let text ← insertAt? b.text b.cursor c
  some ⟨text,b.cursor + c.utf8Size⟩

def deleteBackward? (b : ByteBuffer) : Option ByteBuffer :=
  if 0 < b.cursor then do
    let cursor ← b.previous?
    let text ← removeAt? b.text cursor
    some ⟨text,cursor⟩
  else some b

def deleteForward? (b : ByteBuffer) : Option ByteBuffer :=
  if b.cursor < utf8Size b.text then do
    let text ← removeAt? b.text b.cursor
    some { b with text := text }
  else some b

def deleteToStart? (b : ByteBuffer) : Option ByteBuffer := do
  let text ← drain? b.text 0 b.cursor
  some ⟨text,0⟩

def deleteToEnd? (b : ByteBuffer) : Option ByteBuffer := do
  let text ← truncate? b.text b.cursor
  some { b with text := text }

def toStart (b : ByteBuffer) : ByteBuffer := b.moveTo 0

def toEnd (b : ByteBuffer) : ByteBuffer := b.moveTo (utf8Size b.text)

def left? (b : ByteBuffer) : Option ByteBuffer := b.previous?.map b.moveTo

def right? (b : ByteBuffer) : Option ByteBuffer := b.next?.map b.moveTo

def wordForward? (b : ByteBuffer) : Option ByteBuffer := do
  let (_,rest) ← cutAt? b.text b.cursor
  let wordEnd := (find? isBlank rest).getD (utf8Size rest)
  let (_,behind) ← cutAt? rest wordEnd
  let width := ((find? (fun c => !isBlank c) behind).map (wordEnd + ·)).getD (utf8Size rest)
  some (b.moveTo (b.cursor + width))

/-- The last blank before the word takes as many bytes as it has. -/
def wordBackward? (b : ByteBuffer) : Option ByteBuffer := do
  let (front,_) ← cutAt? b.text b.cursor
  let words := Text.trimEnd front
  match findLast? isBlank words with
  | none => some (b.moveTo 0)
  | some place =>
    let (_,rest) ← cutAt? words place
    some (b.moveTo (place + (rest.head?.map Char.utf8Size).getD 1))

def deleteWord? (b : ByteBuffer) : Option ByteBuffer := do
  let moved ← b.wordBackward?
  let text ← drain? b.text moved.cursor b.cursor
  some { moved with text := text }

/-- Where the line begins that the front of a text ends with. -/
def lineStart (front : List Char) : Nat := ((findLast? (· = '\n') front).map (· + 1)).getD 0

/-- Where a character of a line begins, or the end of a line that is too short. -/
def placeInLine? (text : List Char) (start stop column : Nat) : Option Nat := do
  let line ← slice? text start stop
  some (((places 0 line)[column]?.map fun place => start + place.1).getD stop)

def up? (b : ByteBuffer) : Option ByteBuffer := do
  let (front,_) ← cutAt? b.text b.cursor
  let start := lineStart front
  if start = 0 then some b
  else
    let line ← slice? b.text start b.cursor
    let (above,_) ← cutAt? b.text (start - 1)
    let cursor ← placeInLine? b.text (lineStart above) (start - 1) line.length
    some (b.moveTo cursor)

def down? (b : ByteBuffer) : Option ByteBuffer := do
  let (front,rest) ← cutAt? b.text b.cursor
  match find? (· = '\n') rest with
  | none => some b
  | some width =>
    let line ← slice? b.text (lineStart front) b.cursor
    let start := b.cursor + width + 1
    let (_,below) ← cutAt? b.text start
    let stop := ((find? (· = '\n') below).map (start + ·)).getD (utf8Size b.text)
    let cursor ← placeInLine? b.text start stop line.length
    some (b.moveTo cursor)

end ByteBuffer

namespace Buffer

open Bytes ByteBuffer

theorem utf8Size_eq (text : List Char) : utf8Size text = (String.ofList text).utf8ByteSize := by
  induction text with
  | nil => rfl
  | cons c text ih =>
    have split : String.ofList (c :: text) = String.singleton c ++ String.ofList text := by
      rw [String.singleton_eq_ofList,← String.ofList_append]
      rfl
    rw [utf8Size_cons,ih,split,String.utf8ByteSize_append,String.utf8ByteSize_singleton]

/-- The bytes a text can be cut at are those that begin a character or end the text. -/
theorem isSome_cutAt? {n : Nat} : (cutAt? text n).isSome ↔
    (⟨n⟩ : String.Pos.Raw).IsValid (String.ofList text) := by
  rw [String.Pos.Raw.isValid_ofList,Option.isSome_iff_exists]
  constructor
  · rintro ⟨⟨first,last⟩,cut⟩
    obtain ⟨rfl,rfl⟩ := cutAt?_eq_some.mp cut
    refine ⟨first.length,?_⟩
    rw [List.take_left,utf8Size_eq]
  · rintro ⟨i,size⟩
    refine ⟨(text.take i,text.drop i),cutAt?_eq_some.mpr ⟨(List.take_append_drop i text).symm,?_⟩⟩
    rw [utf8Size_eq]
    exact size.symm

/-- The text and the cursor of an editor, counted in bytes. -/
def bytes (b : Buffer) : ByteBuffer := ⟨b.chars,b.offset⟩

variable {b : Buffer}

theorem cutAt?_bytes (b : Buffer) : cutAt? b.bytes.text b.bytes.cursor = some (b.before,b.after) :=
  cutAt?_append b.before b.after

/-- What keeps the text moves the cursor only. -/
theorem bytes_of_chars {moved : Buffer} (same : moved.chars = b.chars) :
    moved.bytes = b.bytes.moveTo moved.offset := by
  rw [bytes,same]
  rfl

/-- A motion moves to the end of a part of the text. -/
theorem bytes_atPosition (b : Buffer) (n : Nat) :
    (atPosition b.chars n).bytes = b.bytes.moveTo (utf8Size (b.chars.take n)) := by
  simp [bytes,moveTo,atPosition,offset,chars]

theorem insert?_bytes (b : Buffer) (c : Char) : b.bytes.insert? c = some (b.insert c).bytes := by
  simp only [insert?,insertAt?,cutAt?_bytes]
  simp [bytes,insert,chars,offset]

theorem previous?_bytes (b : Buffer) : b.bytes.previous? = some (utf8Size b.before.dropLast) := by
  simp only [previous?,cutAt?_bytes,bind,Option.bind]
  rcases List.eq_nil_or_concat b.before with none | ⟨init,c,split⟩
  · simp [none,places]
  · simp [split,places_append,places]

theorem next?_bytes (b : Buffer) : b.bytes.next? = some (utf8Size (b.before ++ b.after.take 1)) := by
  simp only [next?,cutAt?_bytes,bind,Option.bind]
  cases rest : b.after with
  | nil => simp [bytes,chars,rest]
  | cons c rest => simp [bytes,offset]

theorem deleteBackward?_bytes (b : Buffer) :
    b.bytes.deleteBackward? = some b.deleteBackward.bytes := by
  rcases List.eq_nil_or_concat b.before with none | ⟨init,c,split⟩
  · simp [ByteBuffer.deleteBackward?,deleteBackward,bytes,chars,offset,none]
  · rw [List.concat_eq_append] at split
    have cursor : 0 < b.bytes.cursor := by
      have wide := c.utf8Size_pos
      simp only [bytes,offset,split,utf8Size_append,utf8Size_cons]
      omega
    have text : b.bytes.text = init ++ c :: b.after := by simp [bytes,chars,split]
    rw [ByteBuffer.deleteBackward?,if_pos cursor,previous?_bytes,split,List.dropLast_concat]
    simp only [bind,Option.bind,text,removeAt?,cutAt?_append]
    simp [bytes,deleteBackward,chars,offset,split]

theorem deleteForward?_bytes (b : Buffer) :
    b.bytes.deleteForward? = some b.deleteForward.bytes := by
  cases rest : b.after with
  | nil => simp [ByteBuffer.deleteForward?,deleteForward,bytes,chars,offset,rest]
  | cons c rest' =>
    have cursor : b.bytes.cursor < utf8Size b.bytes.text := by
      have wide := c.utf8Size_pos
      simp only [bytes,offset,chars,rest,utf8Size_append,utf8Size_cons]
      omega
    rw [ByteBuffer.deleteForward?,if_pos cursor]
    simp only [bind,Option.bind,removeAt?,cutAt?_bytes,rest]
    simp [bytes,deleteForward,chars,offset,rest]

theorem deleteToStart?_bytes (b : Buffer) :
    b.bytes.deleteToStart? = some b.deleteToStart.bytes := by
  have drained := drain?_append [] b.before b.after
  simp only [List.nil_append,utf8Size_nil] at drained
  simp only [ByteBuffer.deleteToStart?,bytes,chars,offset,drained,bind,Option.bind]
  simp [deleteToStart]

theorem deleteToEnd?_bytes (b : Buffer) : b.bytes.deleteToEnd? = some b.deleteToEnd.bytes := by
  have inside : b.bytes.cursor ≤ utf8Size b.bytes.text := by simp [bytes,offset,chars]
  simp only [ByteBuffer.deleteToEnd?,truncate?,if_pos inside,cutAt?_bytes,bind,Option.bind]
  simp [bytes,deleteToEnd,chars,offset]

theorem left?_bytes (b : Buffer) : b.bytes.left? = some b.left.bytes := by
  have front : b.chars.take (b.before.length - 1) = b.before.dropLast := by
    rw [chars,List.take_append_of_le_length (Nat.sub_le _ _),List.dropLast_eq_take]
  rw [ByteBuffer.left?,previous?_bytes,left,bytes_atPosition,front]
  rfl

theorem right?_bytes (b : Buffer) : b.bytes.right? = some b.right.bytes := by
  have front : b.chars.take (b.before.length + 1) = b.before ++ b.after.take 1 := by
    rw [chars,List.take_length_add_append]
  rw [ByteBuffer.right?,next?_bytes,right,bytes_atPosition,front]
  rfl

theorem wordForward?_bytes (b : Buffer) : b.bytes.wordForward? = some b.wordForward.bytes := by
  obtain ⟨word,behind,gap,rest,parts⟩ : ∃ word behind gap rest,
      b.after.takeWhile (fun c => !isBlank c) = word ∧
        b.after.dropWhile (fun c => !isBlank c) = behind ∧
        behind.takeWhile isBlank = gap ∧ behind.dropWhile isBlank = rest :=
    ⟨_,_,_,_,rfl,rfl,rfl,rfl⟩
  obtain ⟨isWord,isBehind,isGap,isRest⟩ := parts
  have whole : b.after = word ++ behind := by
    rw [← isWord,← isBehind,List.takeWhile_append_dropWhile]
  have later : behind = gap ++ rest := by
    rw [← isGap,← isRest,List.takeWhile_append_dropWhile]
  have wordEnd : (find? isBlank b.after).getD (utf8Size b.after) = utf8Size word := by
    have found := find?_getD isBlank b.after 0
    rw [isWord] at found
    simpa using found
  have width : ((find? (fun c => !isBlank c) behind).map (utf8Size word + ·)).getD
      (utf8Size b.after) = utf8Size word + utf8Size gap := by
    have found := find?_getD (fun c => !isBlank c) behind (utf8Size word)
    simp only [Bool.not_not,isGap] at found
    rw [whole,utf8Size_append,found]
  have cut : cutAt? b.after (utf8Size word) = some (word,behind) := by
    rw [whole,cutAt?_append]
  have front : b.chars.take (b.chars.length - rest.length) = b.before ++ word ++ gap := by
    have split : b.chars = (b.before ++ word ++ gap) ++ rest := by simp [chars,whole,later]
    have size : b.chars.length - rest.length = (b.before ++ word ++ gap).length := by
      rw [split]
      simp only [List.length_append]
      omega
    rw [size,split,List.take_left]
  rw [wordForward,isBehind,isRest,bytes_atPosition,front]
  simp only [ByteBuffer.wordForward?,cutAt?_bytes,wordEnd,cut,width,bind,Option.bind]
  simp [bytes,offset,moveTo]

/-! ### Words before the cursor -/

theorem trimEnd_eq (text : List Char) :
    Text.trimEnd text = (text.reverse.dropWhile isBlank).reverse := by
  induction text with
  | nil => rfl
  | cons c rest ih =>
    rw [Text.trimEnd_cons,ih,List.reverse_cons,List.dropWhile_append]
    by_cases blanks : rest.reverse.dropWhile isBlank = []
    · cases blank : isBlank c <;> simp [blanks,blank]
    · simp [blanks]

/-- What stands before the word that ends a text. -/
theorem dropWord_eq_nil (other : ∀ c ∈ Text.trimEnd text, isBlank c = false) :
    dropWord text = [] := by
  rw [trimEnd_eq] at other
  have none : (text.reverse.dropWhile isBlank).dropWhile (fun c => !isBlank c) = [] := by
    simpa [List.dropWhile_eq_nil_iff] using other
  rw [dropWord,none,List.reverse_nil]

theorem dropWord_eq_append {c : Char} (split : Text.trimEnd text = first ++ c :: last)
    (blank : isBlank c = true) (other : ∀ d ∈ last, isBlank d = false) :
    dropWord text = first ++ [c] := by
  rw [trimEnd_eq,List.reverse_eq_iff] at split
  have word : ∀ d ∈ last.reverse, (!isBlank d) = true := by simpa using other
  rw [dropWord,split,List.reverse_append,List.reverse_cons,List.append_assoc,
    List.dropWhile_append_of_pos word]
  simp [blank]

theorem dropWord_leads (text : List Char) : dropWord text <+: text := by
  rw [dropWord,← List.reverse_suffix,List.reverse_reverse]
  exact (List.dropWhile_suffix _).trans (List.dropWhile_suffix _)

theorem wordBackward?_eq (b : Buffer) :
    b.bytes.wordBackward? = some (b.bytes.moveTo (utf8Size (dropWord b.before))) := by
  simp only [ByteBuffer.wordBackward?,cutAt?_bytes,bind,Option.bind]
  rcases split_at_last isBlank (Text.trimEnd b.before) with
    other | ⟨first,c,last,split,blank,other⟩
  · rw [findLast?_eq_none other,dropWord_eq_nil other]
    rfl
  · rw [split,findLast?_append blank other,dropWord_eq_append split blank other]
    simp [cutAt?_append]

theorem wordBackward?_bytes (b : Buffer) : b.bytes.wordBackward? = some b.wordBackward.bytes := by
  have leads : dropWord b.before <+: b.chars :=
    (dropWord_leads b.before).trans (List.prefix_append _ _)
  have front := (List.prefix_iff_eq_take.mp leads).symm
  rw [wordBackward?_eq,wordBackward,bytes_atPosition,front]

theorem deleteWord?_bytes (b : Buffer) : b.bytes.deleteWord? = some b.deleteWord.bytes := by
  obtain ⟨gone,split⟩ := dropWord_leads b.before
  have drained := drain?_append (dropWord b.before) gone b.after
  rw [split] at drained
  simp only [ByteBuffer.deleteWord?,wordBackward?_eq,bind,Option.bind]
  simp [moveTo,bytes,chars,offset,drained,deleteWord]

/-! ### Lines -/

@[simp] theorem utf8Size_feed : Char.utf8Size '\n' = 1 := rfl

theorem not_feed (plain : '\n' ∉ text) : ∀ c ∈ text, decide (c = '\n') = false :=
  fun _ member => decide_eq_false (ne_of_mem_of_not_mem member plain)

theorem lastLine_append (plain : '\n' ∉ last) : lastLine (first ++ '\n' :: last) = last := by
  have line : ∀ c ∈ last.reverse, c ≠ '\n' :=
    fun c member => ne_of_mem_of_not_mem (List.mem_reverse.mp member) plain
  rw [lastLine,List.reverse_append,List.reverse_cons,List.append_assoc,
    List.takeWhile_append_of_pos (by simpa using line)]
  simp

theorem lastLine_eq_self (plain : '\n' ∉ text) : lastLine text = text := by
  have line : ∀ c ∈ text.reverse, c ≠ '\n' :=
    fun c member => ne_of_mem_of_not_mem (List.mem_reverse.mp member) plain
  have whole : text.reverse.takeWhile (· ≠ '\n') = text.reverse := by
    rw [List.takeWhile_eq_self_iff]
    simpa using line
  rw [lastLine,whole,List.reverse_reverse]

theorem firstLine_append (plain : '\n' ∉ first) (later : List Char) :
    firstLine (first ++ '\n' :: later) = first := by
  have line : ∀ c ∈ first, decide (c ≠ '\n') = true :=
    fun c member => decide_eq_true (ne_of_mem_of_not_mem member plain)
  rw [firstLine,List.takeWhile_append_of_pos line]
  simp

theorem firstLine_eq_self (plain : '\n' ∉ text) : firstLine text = text := by
  have line : ∀ c ∈ text, c ≠ '\n' := fun c member => ne_of_mem_of_not_mem member plain
  rw [firstLine,List.takeWhile_eq_self_iff]
  simpa using line

theorem lineStart_append (plain : '\n' ∉ last) :
    lineStart (first ++ '\n' :: last) = utf8Size first + 1 := by
  rw [lineStart,findLast?_append (by simp) (not_feed plain)]
  rfl

theorem lineStart_eq_zero (plain : '\n' ∉ text) : lineStart text = 0 := by
  rw [lineStart,findLast?_eq_none (not_feed plain)]
  rfl

theorem split_at_last_feed (text : List Char) :
    '\n' ∉ text ∨ ∃ above line, text = above ++ '\n' :: line ∧ '\n' ∉ line := by
  rcases split_at_last (· = '\n') text with other | ⟨above,c,line,split,feed,other⟩
  · exact .inl fun member => by simpa using other _ member
  · obtain rfl : c = '\n' := by simpa using feed
    exact .inr ⟨above,line,split,fun member => by simpa using other _ member⟩

/-- A text is what stands before its last line and that line. -/
theorem split_lastLine (text : List Char) :
    ∃ lead, text = lead ++ lastLine text ∧ lineStart text = utf8Size lead := by
  rcases split_at_last_feed text with plain | ⟨above,line,rfl,plain⟩
  · refine ⟨[],?_,lineStart_eq_zero plain⟩
    rw [lastLine_eq_self plain,List.nil_append]
  · refine ⟨above ++ ['\n'],?_,?_⟩
    · simp [lastLine_append plain]
    · rw [lineStart_append plain,utf8Size_append]
      rfl

theorem placeInLine?_append (first line last : List Char) (column : Nat) :
    placeInLine? (first ++ line ++ last) (utf8Size first) (utf8Size (first ++ line)) column =
      some (utf8Size (first ++ line.take column)) := by
  have place := getElem?_places 0 column line
  have shifted : (places 0 line)[column]?.map (fun place => utf8Size first + place.1) =
      ((places 0 line)[column]?.map Prod.fst).map (utf8Size first + ·) := by
    rw [Option.map_map]
    rfl
  simp only [placeInLine?,slice?_append,bind,Option.bind,shifted,place]
  by_cases inside : column < line.length
  · simp [inside]
  · simp [inside,List.take_of_length_le (Nat.le_of_not_lt inside)]

/-- A place in a part of a text, or the end of that part. -/
theorem atPosition_inside (first line last : List Char) (n : Nat) :
    atPosition (first ++ line ++ last) (first.length + min n line.length) =
      ⟨first ++ line.take n,line.drop n ++ last⟩ := by
  have inside : min n line.length ≤ line.length := Nat.min_le_right _ _
  rw [atPosition,List.append_assoc,List.take_length_add_append,List.drop_length_add_append,
    List.take_append_of_le_length inside,List.drop_append_of_le_length inside,← List.take_eq_take_min,
    ← List.drop_eq_drop_min]

/-- The line above is the part of the text before the last line feed that has none itself. -/
theorem up_of_split {lead target line : List Char} (split : b.before = lead ++ target ++ '\n' :: line)
    (plain : '\n' ∉ line) (above : lastLine (lead ++ target) = target) :
    b.up = ⟨lead ++ target.take line.length,target.drop line.length ++ '\n' :: (line ++ b.after)⟩ := by
  have below : b.row ≠ 0 := by simp [row,split]
  have column : b.column = line.length := by rw [Buffer.column,split,lastLine_append plain]
  have front : b.before.take (b.before.length - line.length - 1) = lead ++ target := by
    have size : b.before.length - line.length - 1 = (lead ++ target).length := by
      rw [split,List.length_append,List.length_cons]
      omega
    rw [size,split,List.take_left]
  have start : (lead ++ target).length - target.length = lead.length := by
    rw [List.length_append,Nat.add_sub_cancel]
  have text : b.chars = lead ++ target ++ '\n' :: (line ++ b.after) := by simp [chars,split]
  rw [up,if_neg below]
  simp only [column,front,above,start]
  rw [text,atPosition_inside]

theorem up?_bytes (b : Buffer) : b.bytes.up? = some b.up.bytes := by
  rcases split_at_last_feed b.before with plain | ⟨above,line,split,plain⟩
  · have top : b.row = 0 := List.count_eq_zero_of_not_mem plain
    rw [up,if_pos top]
    simp only [ByteBuffer.up?,cutAt?_bytes,lineStart_eq_zero plain,if_true,bind,Option.bind]
  · obtain ⟨lead,lines,start⟩ := split_lastLine above
    have here : lineStart b.before = utf8Size above + 1 := by rw [split,lineStart_append plain]
    have own : slice? b.bytes.text (utf8Size above + 1) b.bytes.cursor = some line := by
      have sliced := slice?_append (above ++ ['\n']) line b.after
      simpa [bytes,chars,offset,split] using sliced
    have cut : cutAt? b.bytes.text (utf8Size above) = some (above,'\n' :: (line ++ b.after)) := by
      have whole := cutAt?_append above ('\n' :: (line ++ b.after))
      simpa [bytes,chars,split] using whole
    have place := placeInLine?_append lead (lastLine above) ('\n' :: (line ++ b.after)) line.length
    rw [← lines,← start] at place
    have text : b.bytes.text = above ++ '\n' :: (line ++ b.after) := by simp [bytes,chars,split]
    rw [← text] at place
    rw [bytes_of_chars b.chars_up,up_of_split (lines ▸ split) plain (lines ▸ rfl)]
    simp only [ByteBuffer.up?,cutAt?_bytes,here,own,cut,place,Nat.add_sub_cancel,Nat.succ_ne_zero,
      if_false,bind,Option.bind]
    rfl

/-- The line below reaches to the next line feed behind it. -/
theorem down_of_split {line target rest : List Char} (split : b.after = line ++ '\n' :: (target ++ rest))
    (plain : '\n' ∉ line) (below : firstLine (target ++ rest) = target) :
    b.down =
      ⟨b.before ++ line ++ ['\n'] ++ target.take b.column,target.drop b.column ++ rest⟩ := by
  have feed : '\n' ∈ b.after := by simp [split]
  have first : firstLine b.after = line := by rw [split,firstLine_append plain]
  have start : b.before.length + line.length + 1 = (b.before ++ line ++ ['\n']).length := by
    simp only [List.length_append,List.length_singleton]
  have text : b.chars = b.before ++ line ++ ['\n'] ++ (target ++ rest) := by simp [chars,split]
  have drops : b.chars.drop (b.before ++ line ++ ['\n']).length = target ++ rest := by
    rw [text,List.drop_left]
  rw [down,if_pos feed,first,start]
  simp only [drops,below]
  rw [text,← List.append_assoc,atPosition_inside]

theorem down?_bytes (b : Buffer) : b.bytes.down? = some b.down.bytes := by
  by_cases feed : '\n' ∈ b.after
  · obtain ⟨line,more,split,plain⟩ := List.eq_append_cons_of_mem feed
    obtain ⟨lead,lines,here⟩ := split_lastLine b.before
    obtain ⟨rest,whole⟩ : firstLine more <+: more := List.takeWhile_prefix _
    have found : find? (· = '\n') b.after = some (utf8Size line) := by
      rw [split]
      exact find?_append (not_feed plain) (by simp)
    have own : slice? b.bytes.text (lineStart b.before) b.bytes.cursor = some (lastLine b.before) := by
      have sliced := slice?_append lead (lastLine b.before) b.after
      rw [← lines,← here] at sliced
      exact sliced
    have text : b.bytes.text = b.before ++ line ++ ['\n'] ++ more := by simp [bytes,chars,split]
    have start : b.bytes.cursor + utf8Size line + 1 = utf8Size (b.before ++ line ++ ['\n']) := by
      simp [bytes,offset]
      omega
    have cut : cutAt? b.bytes.text (b.bytes.cursor + utf8Size line + 1) =
        some (b.before ++ line ++ ['\n'],more) := by
      rw [text,start,cutAt?_append]
    have stop : ((find? (· = '\n') more).map (b.bytes.cursor + utf8Size line + 1 + ·)).getD
        (utf8Size b.bytes.text) = utf8Size (b.before ++ line ++ ['\n'] ++ firstLine more) := by
      have ends := find?_getD (· = '\n') more (utf8Size (b.before ++ line ++ ['\n']))
      rw [text,start,utf8Size_append _ more,ends,utf8Size_append _ (firstLine more)]
      simp [firstLine]
    have place := placeInLine?_append (b.before ++ line ++ ['\n']) (firstLine more) rest b.column
    rw [List.append_assoc _ (firstLine more),whole,← text] at place
    have column : (lastLine b.before).length = b.column := rfl
    rw [bytes_of_chars b.chars_down,down_of_split (whole.symm ▸ split) plain (whole.symm ▸ rfl)]
    simp only [ByteBuffer.down?,cutAt?_bytes,found,own,cut,stop,column,bind,Option.bind]
    rw [start,place]
    rfl
  · have none : find? (· = '\n') b.after = none := find?_eq_none (not_feed feed)
    rw [down,if_neg feed]
    simp only [ByteBuffer.down?,cutAt?_bytes,none,bind,Option.bind]

theorem toStart_bytes (b : Buffer) : b.bytes.toStart = b.toStart.bytes := rfl

theorem toEnd_bytes (b : Buffer) : b.bytes.toEnd = b.toEnd.bytes := by
  simp [bytes,ByteBuffer.toEnd,Buffer.toEnd,moveTo,chars,offset]

/-- The cursor is a place in the text, between two characters. -/
theorem isValid_offset (b : Buffer) : (⟨b.offset⟩ : String.Pos.Raw).IsValid b.text := by
  apply isSome_cutAt?.mp
  exact Option.isSome_iff_exists.mpr ⟨_,b.cutAt?_bytes⟩

theorem offset_le (b : Buffer) : b.offset ≤ b.text.utf8ByteSize := by
  rw [text,← utf8Size_eq,chars,utf8Size_append]
  exact Nat.le_add_right _ _

end Buffer

/-! ### All edits -/

/-- What changes a text or moves the cursor in it. -/
inductive Edit where
  | insert (c : Char)
  | deleteBackward | deleteForward | deleteWord | deleteToStart | deleteToEnd
  | left | right | toStart | toEnd | wordForward | wordBackward | up | down
  deriving DecidableEq, Repr

namespace Edit

def apply : Edit → Buffer → Buffer
  | .insert c => (·.insert c)
  | .deleteBackward => Buffer.deleteBackward
  | .deleteForward => Buffer.deleteForward
  | .deleteWord => Buffer.deleteWord
  | .deleteToStart => Buffer.deleteToStart
  | .deleteToEnd => Buffer.deleteToEnd
  | .left => Buffer.left
  | .right => Buffer.right
  | .toStart => Buffer.toStart
  | .toEnd => Buffer.toEnd
  | .wordForward => Buffer.wordForward
  | .wordBackward => Buffer.wordBackward
  | .up => Buffer.up
  | .down => Buffer.down

def onBytes : Edit → ByteBuffer → Option ByteBuffer
  | .insert c => (·.insert? c)
  | .deleteBackward => ByteBuffer.deleteBackward?
  | .deleteForward => ByteBuffer.deleteForward?
  | .deleteWord => ByteBuffer.deleteWord?
  | .deleteToStart => ByteBuffer.deleteToStart?
  | .deleteToEnd => ByteBuffer.deleteToEnd?
  | .left => ByteBuffer.left?
  | .right => ByteBuffer.right?
  | .toStart => fun b => some b.toStart
  | .toEnd => fun b => some b.toEnd
  | .wordForward => ByteBuffer.wordForward?
  | .wordBackward => ByteBuffer.wordBackward?
  | .up => ByteBuffer.up?
  | .down => ByteBuffer.down?

/-- Every edit has a result on the bytes, the one it has on the two halves of the text. -/
theorem onBytes_bytes (edit : Edit) (b : Buffer) :
    edit.onBytes b.bytes = some (edit.apply b).bytes := by
  cases edit with
  | insert c => exact b.insert?_bytes c
  | deleteBackward => exact b.deleteBackward?_bytes
  | deleteForward => exact b.deleteForward?_bytes
  | deleteWord => exact b.deleteWord?_bytes
  | deleteToStart => exact b.deleteToStart?_bytes
  | deleteToEnd => exact b.deleteToEnd?_bytes
  | left => exact b.left?_bytes
  | right => exact b.right?_bytes
  | toStart => exact congrArg some b.toStart_bytes
  | toEnd => exact congrArg some b.toEnd_bytes
  | wordForward => exact b.wordForward?_bytes
  | wordBackward => exact b.wordBackward?_bytes
  | up => exact b.up?_bytes
  | down => exact b.down?_bytes

end Edit
end PlainTables
