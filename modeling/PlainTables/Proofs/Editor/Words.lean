import Mathlib.Data.List.Basic
import Mathlib.Order.Bounds.Defs
import PlainTables.Proofs.Editor.Vertical

/-! Words in a text, and motions between them. A word starts at a character that is no blank and stands
first or behind a blank. Main statement: a motion goes to the nearest word start in its direction, or to
the end of the text where there is none. -/
namespace PlainTables

open Unicode (isBlank)
open Buffer (utf8Size dropWord atPosition)
open Bytes (cutAt? cutAt?_eq_some)

variable {text first last lead word gap rest : List Char} {c d : Char} {n : Nat}

/-- A word starts at a byte of the text. -/
def WordStart (text : List Char) (n : Nat) : Prop :=
  ∃ first c last, cutAt? text n = some (first,c :: last) ∧ isBlank c = false ∧
    ∀ d ∈ first.getLast?, isBlank d = true

theorem wordStart_append (full : isBlank c = false) (apart : ∀ d ∈ first.getLast?, isBlank d = true) :
    WordStart (first ++ c :: last) (utf8Size first) :=
  ⟨first,c,last,cutAt?_eq_some.mpr ⟨rfl,rfl⟩,full,apart⟩

/-! ### Runs of words and blanks -/

/-- The run of one kind that a text begins with, the run of the other kind behind it, and the rest. -/
theorem split_runs (p : Char → Bool) (text : List Char) : ∃ run other rest,
    text = run ++ (other ++ rest) ∧ (text.dropWhile p).dropWhile (fun c => !p c) = rest ∧
      (∀ c ∈ run, p c = true) ∧ (∀ c ∈ other, p c = false) ∧
      (∀ c ∈ (other ++ rest).head?, p c = false) ∧ ∀ c ∈ rest.head?, p c = true := by
  have stops (q : Char → Bool) (text : List Char) : ∀ c ∈ (text.dropWhile q).head?, q c = false := by
    intro c first
    have found := List.head?_dropWhile_not q text
    rw [Option.mem_def.mp first] at found
    simpa using found
  refine ⟨text.takeWhile p,(text.dropWhile p).takeWhile fun c => !p c,_,?_,rfl,?_,?_,?_,?_⟩
  · rw [List.takeWhile_append_dropWhile,List.takeWhile_append_dropWhile]
  · exact fun c member => List.mem_takeWhile_imp member
  · exact fun c member => by simpa using List.mem_takeWhile_imp member
  · rw [List.takeWhile_append_dropWhile]
    exact stops p text
  · exact fun c first => by simpa using stops _ _ c first

/-- In a word with blanks behind it, only blanks stand behind a blank. -/
theorem isBlank_of_behind (solid : ∀ c ∈ word, isBlank c = false) (blank : ∀ c ∈ gap, isBlank c = true)
    (pair : [d,c].Sublist (word ++ gap)) (here : isBlank d = true) : isBlank c = true := by
  have ordered : (word ++ gap).Pairwise fun d c => isBlank d = true → isBlank c = true := by
    refine List.pairwise_append.mpr ⟨?_,?_,?_⟩
    · exact List.Pairwise.imp_of_mem (fun inside _ _ here => absurd here (by simp [solid _ inside]))
        (List.pairwise_of_forall fun _ _ => trivial)
    · exact List.Pairwise.imp_of_mem (fun _ inside _ _ => blank _ inside)
        (List.pairwise_of_forall fun _ _ => trivial)
    · exact fun d inside c _ here => absurd here (by simp [solid d inside])
  exact List.pairwise_pair.mp (ordered.sublist pair) here

theorem utf8Size_le_of_leads (leads : first <+: text) : utf8Size first ≤ utf8Size text := by
  obtain ⟨behind,rfl⟩ := leads
  rw [Buffer.utf8Size_append]
  exact Nat.le_add_right _ _

/-- No word starts within a word or in the blanks behind it. -/
theorem le_of_wordStart (solid : ∀ c ∈ word, isBlank c = false) (blank : ∀ c ∈ gap, isBlank c = true)
    (starts : WordStart (lead ++ (word ++ gap) ++ rest) n) (later : utf8Size lead < n) :
    utf8Size (lead ++ (word ++ gap)) ≤ n := by
  obtain ⟨first,c,last,cut,full,apart⟩ := starts
  obtain ⟨split,rfl⟩ := cutAt?_eq_some.mp cut
  by_contra inside
  -- the start lies strictly between the two ends, so a character of the word or a blank is before it
  have whole : first ++ [c] <+: lead ++ (word ++ gap) ++ rest := ⟨last,by rw [split]; simp⟩
  have behind : lead <+: first := by
    have leads : lead <+: lead ++ (word ++ gap) ++ rest := ⟨word ++ gap ++ rest,by simp⟩
    rcases List.prefix_or_prefix_of_prefix leads ((List.prefix_append first [c]).trans whole) with
      before | after
    · exact before
    · exact absurd (utf8Size_le_of_leads after) (Nat.not_le.mpr later)
  obtain ⟨middle,rfl⟩ := behind
  have before : middle ++ [c] <+: word ++ gap := by
    rw [← List.prefix_append_right_inj lead,← List.append_assoc]
    rcases List.prefix_or_prefix_of_prefix whole (List.prefix_append _ rest) with within | beyond
    · exact within
    · rcases List.prefix_concat_iff.mp beyond with same | short
      · exact same ▸ List.prefix_rfl
      · exact absurd (utf8Size_le_of_leads short) inside
  rcases List.eq_nil_or_concat' middle with rfl | ⟨init,d,rfl⟩
  · simp at later
  · have pair : [d,c].Sublist (word ++ gap) := by
      refine List.Sublist.trans ?_ before.sublist
      simp
    have here : isBlank d = true := apart d (by simp)
    rw [isBlank_of_behind solid blank pair here] at full
    cases full

theorem WordStart.lt (starts : WordStart text n) : n < utf8Size text := by
  obtain ⟨first,c,last,cut,-⟩ := starts
  obtain ⟨rfl,rfl⟩ := cutAt?_eq_some.mp cut
  have wide := c.utf8Size_pos
  rw [Buffer.utf8Size_append,Buffer.utf8Size_cons]
  omega

theorem WordStart.full (lead : List Char) (starts : WordStart (lead ++ rest) (utf8Size lead)) :
    ∀ c ∈ rest.head?, isBlank c = false := by
  obtain ⟨first,c,last,cut,full,-⟩ := starts
  rw [Bytes.cutAt?_append] at cut
  cases cut
  simpa using full

/-! ### The motions -/

namespace Buffer

variable {b : Buffer}

theorem atPosition_length (first last : List Char) :
    atPosition (first ++ last) first.length = ⟨first,last⟩ := by
  rw [atPosition,List.take_left,List.drop_left]

/-- A motion passes the rest of a word and the blanks behind it. -/
theorem wordForward_split (b : Buffer) : ∃ word gap rest, b.after = word ++ (gap ++ rest) ∧
    b.wordForward = ⟨b.before ++ (word ++ gap),rest⟩ ∧ (∀ c ∈ word, isBlank c = false) ∧
      (∀ c ∈ gap, isBlank c = true) ∧ (∀ c ∈ (gap ++ rest).head?, isBlank c = true) ∧
      ∀ c ∈ rest.head?, isBlank c = false := by
  obtain ⟨word,gap,rest,split,ends,solid,blank,stops,next⟩ := split_runs (fun c => !isBlank c) b.after
  simp only [Bool.not_not,Bool.not_eq_true',Bool.not_eq_false'] at ends solid blank stops next
  have text : b.chars = b.before ++ (word ++ gap) ++ rest := by simp [chars,split]
  have size : b.chars.length - rest.length = (b.before ++ (word ++ gap)).length := by
    rw [text,List.length_append,Nat.add_sub_cancel]
  refine ⟨word,gap,rest,split,?_,solid,blank,stops,next⟩
  simp only [wordForward,ends,size]
  rw [text,atPosition_length]

/-- A text is what stands before its last word, that word, and the blanks at its end. -/
theorem dropWord_split (text : List Char) : ∃ word gap, text = dropWord text ++ (word ++ gap) ∧
    (∀ c ∈ word, isBlank c = false) ∧ (∀ c ∈ gap, isBlank c = true) ∧
      (∀ c ∈ (dropWord text ++ word).getLast?, isBlank c = false) ∧
      ∀ c ∈ (dropWord text).getLast?, isBlank c = true := by
  obtain ⟨gap,word,lead,split,ends,blank,solid,stops,before⟩ := split_runs isBlank text.reverse
  have left : dropWord text = lead.reverse := by rw [dropWord,ends]
  refine ⟨word.reverse,gap.reverse,?_,by simpa using solid,by simpa using blank,?_,?_⟩
  · rw [left,← List.reverse_inj,split]
    simp
  · rw [left,← List.reverse_append,List.getLast?_reverse]
    exact stops
  · rw [left,List.getLast?_reverse]
    exact before

theorem wordBackward_eq {behind : List Char} (split : b.before = dropWord b.before ++ behind) :
    b.wordBackward = ⟨dropWord b.before,behind ++ b.after⟩ := by
  have text : b.chars = dropWord b.before ++ (behind ++ b.after) := by
    rw [← List.append_assoc,← split,chars]
  rw [wordBackward,text,atPosition_length]

/-- To the next word start, or to the end of the text. -/
theorem isLeast_wordForward (b : Buffer) :
    IsLeast {n | WordStart b.chars n ∧ b.offset < n} b.wordForward.offset ∨
      (∀ n, WordStart b.chars n → n ≤ b.offset) ∧ b.wordForward = b.toEnd := by
  obtain ⟨word,gap,rest,split,moved,solid,blank,stops,next⟩ := b.wordForward_split
  have text : b.chars = b.before ++ (word ++ gap) ++ rest := by simp [chars,split]
  have beyond : ∀ n, WordStart b.chars n → b.offset < n → utf8Size (b.before ++ (word ++ gap)) ≤ n := by
    intro n starts later
    rw [text] at starts
    exact le_of_wordStart solid blank starts later
  cases rest with
  | nil =>
    refine .inr ⟨fun n starts => ?_,?_⟩
    · by_contra later
      have inside := starts.lt
      have outside := beyond n starts (Nat.lt_of_not_le later)
      rw [text,List.append_nil] at inside
      omega
    · rw [moved,toEnd,text,List.append_nil]
  | cons c rest =>
    have full : isBlank c = false := next c rfl
    -- a word cannot follow the rest of a word at once
    obtain ⟨init,d,rfl⟩ := (List.eq_nil_or_concat' gap).resolve_left fun none => by
      rw [none] at stops
      exact absurd (stops c rfl) (by simp [full])
    have apart : isBlank d = true := blank d (by simp)
    refine .inl ⟨⟨?_,?_⟩,fun n found => ?_⟩
    · rw [moved,text]
      exact wordStart_append full (by simpa using apart)
    · have wide := d.utf8Size_pos
      rw [moved]
      simp [offset]
      omega
    · rw [moved]
      exact beyond n found.1 found.2

/-- To the word start before, or to the start of the text. -/
theorem isGreatest_wordBackward (b : Buffer) :
    IsGreatest {n | WordStart b.chars n ∧ n < b.offset} b.wordBackward.offset ∨
      (∀ n, WordStart b.chars n → b.offset ≤ n) ∧ b.wordBackward = b.toStart := by
  obtain ⟨word,gap,split,solid,blank,ends,before⟩ := dropWord_split b.before
  have moved := wordBackward_eq split
  have text : b.chars = dropWord b.before ++ (word ++ gap) ++ b.after := by rw [chars,← split]
  have beyond : ∀ n, WordStart b.chars n → b.wordBackward.offset < n → b.offset ≤ n := by
    intro n starts later
    rw [text] at starts
    rw [moved] at later
    rw [offset,split]
    exact le_of_wordStart solid blank starts later
  cases word with
  | nil =>
    have lead : dropWord b.before = [] := by
      rw [List.append_nil] at ends
      cases last : (dropWord b.before).getLast? with
      | none => exact List.getLast?_eq_none_iff.mp last
      | some d => exact absurd (before d last) (by simp [ends d last])
    rw [lead,List.nil_append,List.nil_append] at split text
    refine .inr ⟨fun n starts => ?_,by rw [moved,lead,toStart,text]; rfl⟩
    rcases Nat.eq_zero_or_pos n with rfl | later
    · -- the text begins with a blank if there is anything before the cursor
      cases gap with
      | nil => simp [offset,split]
      | cons d gap =>
        rw [text] at starts
        have full := WordStart.full [] starts d rfl
        rw [blank d List.mem_cons_self] at full
        cases full
    · exact beyond n starts (by rw [moved,lead]; exact later)
  | cons c word =>
    refine .inl ⟨⟨?_,?_⟩,fun n found => ?_⟩
    · have starts : WordStart (dropWord b.before ++ c :: (word ++ gap ++ b.after))
          (utf8Size (dropWord b.before)) := wordStart_append (solid c List.mem_cons_self) before
      rw [moved,text]
      show WordStart _ (utf8Size (dropWord b.before))
      simpa using starts
    · have wide := c.utf8Size_pos
      have size := congrArg utf8Size split
      rw [moved]
      simp only [utf8Size_append,utf8Size_cons,List.cons_append] at size
      show utf8Size (dropWord b.before) < utf8Size b.before
      omega
    · by_contra later
      exact absurd found.2 (Nat.not_lt.mpr (beyond n found.1 (Nat.lt_of_not_le later)))

/-- A motion by a word goes to the nearest word start in its direction, or to the end of the text on that
side where there is none, and it leaves the text as it is. -/
theorem wordStart_nearest (b : Buffer) :
    (IsLeast {n | WordStart b.chars n ∧ b.offset < n} b.wordForward.offset ∨
      (∀ n, WordStart b.chars n → n ≤ b.offset) ∧ b.wordForward = b.toEnd) ∧
    (IsGreatest {n | WordStart b.chars n ∧ n < b.offset} b.wordBackward.offset ∨
      (∀ n, WordStart b.chars n → b.offset ≤ n) ∧ b.wordBackward = b.toStart) ∧
    b.Moves .wordForward ∧ b.Moves .wordBackward :=
  ⟨b.isLeast_wordForward,b.isGreatest_wordBackward,moves_of_chars b.chars_wordForward,
    moves_of_chars b.chars_wordBackward⟩

end Buffer

end PlainTables
