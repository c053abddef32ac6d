import PlainTables.Text.Lines

/-! How lines come together. A text that ends with a line feed keeps its lines when more text
follows, and so does any other text once its last line has been closed, unless that line
ends with a carriage return: closing it takes the carriage return away. -/
namespace PlainTables.Text

variable {α : Type} [DecidableEq α] {feed ret : α} {text : List α}

theorem dropReturn_of_ne {line : List α} (keeps : line.getLast? ≠ some ret) :
    dropReturn ret line = line := by
  simp [dropReturn,keeps]

theorem dropReturn_eq_self {line : List α} :
    dropReturn ret line = line ↔ line.getLast? ≠ some ret := by
  refine ⟨?_,dropReturn_of_ne⟩
  intro same ends
  have nonempty : line ≠ [] := by
    rintro rfl
    simp at ends
  have shorter : line.dropLast.length < line.length := by
    have := List.length_pos_iff.mpr nonempty
    simp only [List.length_dropLast]
    omega
  simp only [dropReturn,ends,if_true] at same
  rw [same] at shorter
  exact Nat.lt_irrefl _ shorter

/-- The lines before a line feed and those after it. -/
theorem linesOf_append_feed (feed ret : α) (text later : List α) :
    linesOf feed ret (text ++ feed :: later) =
      (text.splitOn feed).map (dropReturn ret) ++ linesOf feed ret later := by
  have split := List.splitOn_append_cons_self (a := feed) text later
  have nonempty := List.splitOn_ne_nil feed later
  have last : (text.splitOn feed ++ later.splitOn feed).getLast? =
      (later.splitOn feed).getLast? := by
    rw [List.getLast?_append,List.getLast?_eq_some_getLast nonempty,Option.some_or]
  simp only [linesOf,split,last,List.dropLast_append_of_ne_nil nonempty,List.map_append]
  split <;> simp

theorem linesOf_closed_append (ret : α) (later : List α) (closed : text.getLast? = some feed) :
    linesOf feed ret (text ++ later) = linesOf feed ret text ++ linesOf feed ret later := by
  obtain ⟨start,rfl⟩ : ∃ start, text = start ++ [feed] := by
    obtain ⟨start,rfl⟩ := List.getLast?_eq_some_iff.mp closed
    exact ⟨start,rfl⟩
  rw [List.append_assoc,List.singleton_append,linesOf_append_feed]
  rw [linesOf_append_feed feed ret start [],linesOf_nil,List.append_nil]

/-- The pieces of a text that does not end with a line feed. -/
theorem splitOn_last (nonempty : text ≠ []) (opened : text.getLast? ≠ some feed) :
    ∃ before last, text.splitOn feed = before ++ [last] ∧ last ≠ [] ∧
      last.getLast? = text.getLast? := by
  by_cases broken : feed ∈ text
  · obtain ⟨backwards,front,split,fresh⟩ :=
      List.eq_append_cons_of_mem (List.mem_reverse.mpr broken)
    have whole : text = front.reverse ++ feed :: backwards.reverse := by
      rw [← List.reverse_reverse text,split]
      simp
    have filled : backwards.reverse ≠ [] := by
      intro empty
      rw [empty] at whole
      exact opened (by simp [whole])
    refine ⟨front.reverse.splitOn feed,backwards.reverse,?_,filled,?_⟩
    · rw [whole,List.splitOn_append_cons_self]
      rw [List.splitOn_eq_singleton (show feed ∉ backwards.reverse by simpa using fresh)]
    · rw [whole,List.getLast?_append,List.getLast?_cons,
        List.getLast?_eq_some_getLast filled]
      simp
  · exact ⟨[],text,List.splitOn_eq_singleton broken,nonempty,rfl⟩

/-- Closing the last line keeps it but for a carriage return at its end. -/
theorem linesOf_close (ret : α) (nonempty : text ≠ []) (opened : text.getLast? ≠ some feed) :
    ∃ before last, linesOf feed ret text = before ++ [last] ∧ last ≠ [] ∧
      last.getLast? = text.getLast? ∧
      linesOf feed ret (text ++ [feed]) = before ++ [dropReturn ret last] := by
  obtain ⟨pieces,last,split,filled,ends⟩ := splitOn_last nonempty opened
  refine ⟨pieces.map (dropReturn ret),last,?_,filled,ends,?_⟩
  · obtain ⟨a,rest,rfl⟩ := List.exists_cons_of_ne_nil filled
    simp [linesOf,split]
  · rw [linesOf_append_feed,split]
    simp

/-- Lines without line feeds, each closed by one. -/
theorem linesOf_flatMap (ret : α) {lines : List (List α)} (plain : ∀ line ∈ lines, feed ∉ line) :
    linesOf feed ret (lines.flatMap (· ++ [feed])) = lines.map (dropReturn ret) := by
  induction lines with
  | nil => exact linesOf_nil feed ret
  | cons line rest ih =>
    have whole : (line :: rest).flatMap (· ++ [feed]) =
        line ++ feed :: rest.flatMap (· ++ [feed]) := by
      simp
    rw [whole,linesOf_append_feed,List.splitOn_eq_singleton (plain line (by simp)),
      ih fun other member => plain other (by simp [member])]
    rfl

/-- A piece is free of the separator and made of characters of the text. -/
theorem of_mem_splitOn {sep : α} {piece : List α} (member : piece ∈ text.splitOn sep) :
    sep ∉ piece ∧ ∀ a ∈ piece, a ∈ text := by
  induction text generalizing piece with
  | nil =>
    rw [List.splitOn_nil,List.mem_singleton] at member
    simp [member]
  | cons a rest ih =>
    rw [List.splitOn_cons_eq_if_modifyHead] at member
    split at member
    · rcases List.mem_cons.mp member with rfl | member
      · simp
      · exact ⟨(ih member).1,fun b inside => List.mem_cons_of_mem _ ((ih member).2 b inside)⟩
    · next other =>
      obtain ⟨first,later,split⟩ := List.exists_cons_of_ne_nil (List.splitOn_ne_nil sep rest)
      rw [split,List.modifyHead_cons] at member
      rcases List.mem_cons.mp member with rfl | member
      · obtain ⟨fresh,within⟩ := ih (show first ∈ rest.splitOn sep by simp [split])
        have apart : sep ≠ a := by
          rintro rfl
          simp at other
        refine ⟨by simp [apart,fresh],fun b inside => ?_⟩
        rcases List.mem_cons.mp inside with rfl | inside
        · exact List.mem_cons_self
        · exact List.mem_cons_of_mem _ (within b inside)
      · obtain ⟨fresh,within⟩ := ih (show piece ∈ rest.splitOn sep by simp [split,member])
        exact ⟨fresh,fun b inside => List.mem_cons_of_mem _ (within b inside)⟩

theorem feed_not_mem_linesOf {line : List α} (member : line ∈ linesOf feed ret text) :
    feed ∉ line := by
  have dropped : ∀ piece ∈ text.splitOn feed, feed ∉ dropReturn ret piece := by
    intro piece mem
    unfold dropReturn
    split
    · exact fun inside => (of_mem_splitOn mem).1 ((List.dropLast_sublist _).mem inside)
    · exact (of_mem_splitOn mem).1
  have closed : ∀ piece ∈ (text.splitOn feed).dropLast.map (dropReturn ret), feed ∉ piece := by
    intro piece mem
    obtain ⟨source,inside,rfl⟩ := List.mem_map.mp mem
    exact dropped source ((List.dropLast_sublist _).mem inside)
  simp only [linesOf] at member
  split at member
  · next last =>
    rcases List.mem_append.mp member with mem | mem
    · exact closed line mem
    · rw [List.mem_singleton.mp mem]
      exact (of_mem_splitOn (List.mem_of_getLast? last)).1
  · exact closed line member

/-! ### Texts as strings -/

/-- What closes the last line of a text. -/
def closing (text : String) : String := if text.toList.getLast? = some '\n' then "" else "\n"

theorem lines_append (later : String) {text : String} (nonempty : text ≠ "")
    (keeps : text.toList.getLast? ≠ some '\r') :
    lines (text ++ (closing text ++ later)) = lines text ++ lines later := by
  by_cases closed : text.toList.getLast? = some '\n'
  · simp [lines,closing,closed,linesOf_closed_append '\r' _ closed]
  · obtain ⟨before,last,here,-,ends,there⟩ := linesOf_close '\r'
      (show text.toList ≠ [] by simpa using nonempty) closed
    rw [dropReturn_of_ne (ends ▸ keeps),← here] at there
    have whole := linesOf_closed_append '\r' later.toList
      (show (text.toList ++ ['\n']).getLast? = some '\n' by simp)
    rw [there,List.append_assoc,List.singleton_append] at whole
    simp [lines,closing,closed,whole]

/-- A text needs no line feed at its end, unless its last line is blank or ends in a carriage
return. -/
theorem lines_close {text : String} (nonempty : text ≠ "")
    (opened : text.toList.getLast? ≠ some '\n') (keeps : text.toList.getLast? ≠ some '\r') :
    lines (text ++ "\n") = lines text := by
  have whole := lines_append "" nonempty keeps
  rw [closing,if_neg opened,String.append_empty] at whole
  rw [whole]
  exact List.append_nil _

theorem lines_blank {text : String} (closed : text = "" ∨ text.toList.getLast? = some '\n') :
    lines (text ++ "\n") = lines text ++ [""] := by
  rcases closed with rfl | closed
  · decide
  · simp only [lines,String.toList_append,linesOf_closed_append '\r' _ closed,List.map_append]
    congr 1

theorem lines_append_return (later : String) {text : String}
    (ends : text.toList.getLast? = some '\r') :
    ∃ before last short, lines text = before ++ [last] ∧ last ≠ "" ∧ short ≠ last ∧
      lines (text ++ (closing text ++ later)) = before ++ short :: lines later := by
  have opened : text.toList.getLast? ≠ some '\n' := by simp [ends]
  have nonempty : text.toList ≠ [] := by
    intro empty
    simp [empty] at ends
  obtain ⟨before,last,here,filled,same,there⟩ := linesOf_close '\r' nonempty opened
  refine ⟨before.map String.ofList,String.ofList last,String.ofList (dropReturn '\r' last),
    by simp [lines,here],by simpa using filled,?_,?_⟩
  · intro equal
    exact dropReturn_eq_self.mp (String.ofList_injective equal) (same.trans ends)
  · have whole := linesOf_closed_append '\r' later.toList
      (show (text.toList ++ ['\n']).getLast? = some '\n' by simp)
    rw [there,List.append_assoc,List.singleton_append] at whole
    simp [lines,closing,opened,whole]

end PlainTables.Text
