import Mathlib.Data.List.Basic
import PlainTables.Proofs.Text.Lines
import PlainTables.Table.Format

/-! Texts in files. In UTF-8 the two symbols of a line end are bytes that no other character uses,
so a file of a text has the lines of that text, and it is read as a table as the text is. -/
namespace PlainTables

namespace Text

/-! ### Encoded lines -/

/-- In a code one symbol stands for itself alone. -/
structure Marks {α β : Type} (code : α → List β) (a : α) (b : β) : Prop where
  own : code a = [b]
  only : ∀ c, c ≠ a → b ∉ code c

section Code

variable {α β : Type} {code : α → List β} {a feed ret : α} {b byte mark : β}

theorem flatMap_intercalate (code : α → List β) (sep : List α) (pieces : List (List α)) :
    (sep.intercalate pieces).flatMap code =
      (sep.flatMap code).intercalate (pieces.map (·.flatMap code)) := by
  induction pieces with
  | nil => rfl
  | cons piece later ih =>
    cases later with
    | nil => simp
    | cons next later =>
      rw [List.map_cons] at ih
      rw [List.intercalate_cons_cons,List.flatMap_append,List.flatMap_append,ih,List.map_cons,
        List.map_cons,List.intercalate_cons_cons]

theorem Marks.mem_flatMap (marks : Marks code a b) {text : List α} :
    b ∈ text.flatMap code ↔ a ∈ text := by
  rw [List.mem_flatMap]
  constructor
  · rintro ⟨c,member,inside⟩
    by_cases same : c = a
    · exact same ▸ member
    · exact absurd inside (marks.only c same)
  · intro member
    exact ⟨a,member,by simp [marks.own]⟩

variable [DecidableEq α] [DecidableEq β] (filled : ∀ c, code c ≠ [])

theorem Marks.splitOn_flatMap (marks : Marks code a b) (text : List α) :
    (text.flatMap code).splitOn b = (text.splitOn a).map (·.flatMap code) := by
  have apart : ∀ piece ∈ (text.splitOn a).map (·.flatMap code), b ∉ piece := by
    intro piece member
    obtain ⟨source,inside,rfl⟩ := List.mem_map.mp member
    exact fun found => (of_mem_splitOn inside).1 (marks.mem_flatMap.mp found)
  have whole : [a].intercalate (text.splitOn a) = text := List.intercalate_splitOn a
  conv => lhs; rw [← whole]
  rw [flatMap_intercalate,List.flatMap_singleton,marks.own]
  exact List.splitOn_intercalate b apart (by simp)

include filled

theorem Marks.dropReturn_flatMap (marks : Marks code a b) (line : List α) :
    dropReturn b (line.flatMap code) = (dropReturn a line).flatMap code := by
  rcases List.eq_nil_or_concat' line with rfl | ⟨before,last,rfl⟩
  · rfl
  rw [List.flatMap_append,List.flatMap_singleton]
  by_cases same : last = a
  · simp [dropReturn,same,marks.own]
  · have keeps : (before.flatMap code ++ code last).getLast? ≠ some b := by
      rw [List.getLast?_append_of_ne_nil _ (filled last)]
      exact fun ends => marks.only last same (List.mem_of_getLast? ends)
    rw [dropReturn_of_ne keeps,dropReturn_of_ne (by simpa using same),List.flatMap_append,
      List.flatMap_singleton]

/-- Lines are cut at the same places in a text and in its code. -/
theorem linesOf_code (ends : Marks code feed byte) (returns : Marks code ret mark)
    (text : List α) :
    linesOf byte mark (text.flatMap code) = (linesOf feed ret text).map (·.flatMap code) := by
  obtain ⟨before,last,split⟩ : ∃ before last, text.splitOn feed = before ++ [last] :=
    ⟨_,_,(List.dropLast_append_getLast (List.splitOn_ne_nil feed text)).symm⟩
  have dropped : (before.map (·.flatMap code)).map (dropReturn mark) =
      (before.map (dropReturn ret)).map (·.flatMap code) := by
    rw [List.map_map,List.map_map]
    exact List.map_congr_left fun line _ => returns.dropReturn_flatMap filled line
  rw [linesOf,linesOf,ends.splitOn_flatMap,split]
  cases last with
  | nil => simp [dropped]
  | cons c rest =>
    obtain ⟨first,more,code⟩ := List.exists_cons_of_ne_nil (filled c)
    simp [dropped,code]

end Code

/-! ### UTF-8 -/

theorem fromUTF8?_toUTF8 (text : String) : String.fromUTF8? text.toUTF8 = some text := by
  rw [String.toUTF8_eq_toByteArray,String.fromUTF8?,dif_pos text.isValidUTF8]
  rfl

theorem eq_toUTF8 {bytes : ByteArray} {text : String}
    (decoded : String.fromUTF8? bytes = some text) : bytes = text.toUTF8 := by
  unfold String.fromUTF8? at decoded
  split at decoded <;> cases decoded
  rfl

theorem toList_loop (bytes : ByteArray) (i : Nat) (done : List UInt8) :
    ByteArray.toList.loop bytes i done = done.reverse ++ bytes.data.toList.drop i := by
  fun_induction ByteArray.toList.loop bytes i done with
  | case1 i done inside ih =>
    have here : i < bytes.data.toList.length := by simpa using inside
    rw [ih,List.drop_eq_getElem_cons here]
    simp [ByteArray.get!,inside]
  | case2 i done beyond =>
    rw [List.drop_eq_nil_of_le (by simpa using Nat.le_of_not_lt beyond),List.append_nil]

theorem toUTF8_ofList (text : List Char) :
    (String.ofList text).toUTF8 = ⟨(text.flatMap String.utf8EncodeChar).toArray⟩ := by
  rw [String.toUTF8_eq_toByteArray,String.toByteArray_ofList]
  exact ByteArray.ext List.data_toByteArray

theorem toList_toUTF8 (text : String) :
    text.toUTF8.toList = text.toList.flatMap String.utf8EncodeChar := by
  conv => lhs; rw [← String.ofList_toList (s := text)]
  rw [toUTF8_ofList,ByteArray.toList,toList_loop]
  simp

theorem utf8_ne_nil (c : Char) : String.utf8EncodeChar c ≠ [] := by
  intro empty
  have size := c.utf8Size_pos
  rw [← String.length_utf8EncodeChar,empty] at size
  cases size

/-- Every byte of a longer code has the eighth bit. -/
theorem le_of_mem_utf8 {c : Char} (long : 127 < c.val.toNat) :
    ∀ byte ∈ String.utf8EncodeChar c, 128 ≤ byte.toNat := by
  unfold String.utf8EncodeChar
  dsimp only
  rw [if_neg (Nat.not_le.mpr long)]
  split
  · simp only [List.forall_mem_cons,UInt8.toNat_ofNat',List.not_mem_nil,false_implies,implies_true,
      and_true]
    omega
  · split <;>
      simp only [List.forall_mem_cons,UInt8.toNat_ofNat',List.not_mem_nil,false_implies,
        implies_true,and_true] <;>
      omega

theorem utf8_of_le {c : Char} (short : c.val.toNat ≤ 127) :
    String.utf8EncodeChar c = [c.val.toUInt8] := by
  apply String.utf8EncodeChar_eq_singleton
  rw [Char.utf8Size_eq_one_iff,UInt32.le_iff_toNat_le]
  exact short

theorem toNat_byte {c : Char} (short : c.val.toNat ≤ 127) : c.val.toUInt8.toNat = c.val.toNat := by
  rw [UInt32.toNat_toUInt8]
  exact Nat.mod_eq_of_lt (Nat.lt_of_le_of_lt short (by decide))

theorem marks_utf8 {c : Char} (short : c.val.toNat ≤ 127) :
    Marks String.utf8EncodeChar c c.val.toUInt8 := by
  refine ⟨utf8_of_le short,fun other apart member => ?_⟩
  by_cases long : 127 < other.val.toNat
  · have high := le_of_mem_utf8 long _ member
    rw [toNat_byte short] at high
    omega
  · rw [utf8_of_le (by omega),List.mem_singleton] at member
    have same := congrArg UInt8.toNat member
    rw [toNat_byte short,toNat_byte (by omega)] at same
    exact apart (Char.toNat_inj.mp same.symm)

/-- The lines of a file are those of the text in it. -/
theorem byteLines_toUTF8 (text : String) : byteLines text.toUTF8 = (lines text).map some := by
  have feed := @marks_utf8 '\n' (by decide)
  have ret := @marks_utf8 '\r' (by decide)
  rw [byteLines,lines,toList_toUTF8]
  rw [show (10 : UInt8) = '\n'.val.toUInt8 from rfl,show (13 : UInt8) = '\r'.val.toUInt8 from rfl]
  rw [linesOf_code utf8_ne_nil feed ret,List.map_map,List.map_map]
  apply List.map_congr_left
  intro line _
  rw [Function.comp_apply,← toUTF8_ofList,fromUTF8?_toUTF8]
  rfl

end Text

theorem TableFormat.tableOfBytes_toUTF8 (format : TableFormat) (name text : String) :
    format.tableOfBytes name text.toUTF8 = format.tableOfText name text := by
  rw [tableOfBytes,Text.byteLines_toUTF8,tableOfText]

end PlainTables
