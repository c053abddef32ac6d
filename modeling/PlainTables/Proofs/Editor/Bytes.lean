import Mathlib.Data.List.TakeWhile
import PlainTables.Editor.Buffer

/-! Texts with places counted in bytes. A text is cut at a byte only between two characters; an
operation that would cut it elsewhere has no result. -/
namespace PlainTables.Bytes

open Buffer (utf8Size)

variable {text first last : List Char} {n : Nat}

/-- The two parts of a text, cut at a byte; nothing where the byte is within a character or behind the
text. -/
def cutAt? : List Char → Nat → Option (List Char × List Char)
  | text,0 => some ([],text)
  | [],_ + 1 => none
  | c :: rest,n + 1 =>
    if c.utf8Size ≤ n + 1 then
      (cutAt? rest (n + 1 - c.utf8Size)).map fun (first,last) => (c :: first,last)
    else none

def slice? (text : List Char) (start stop : Nat) : Option (List Char) := do
  let (front,_) ← cutAt? text stop
  let (_,middle) ← cutAt? front start
  some middle

def insertAt? (text : List Char) (n : Nat) (c : Char) : Option (List Char) :=
  (cutAt? text n).map fun (first,last) => first ++ c :: last

def removeAt? (text : List Char) (n : Nat) : Option (List Char) :=
  match cutAt? text n with
  | some (first,_ :: last) => some (first ++ last)
  | _ => none

def drain? (text : List Char) (start stop : Nat) : Option (List Char) := do
  let (front,last) ← cutAt? text stop
  let (first,_) ← cutAt? front start
  some (first ++ last)

/-- A text is not cut behind its end. -/
def truncate? (text : List Char) (n : Nat) : Option (List Char) :=
  if n ≤ utf8Size text then (cutAt? text n).map Prod.fst else some text

/-- The characters of a text with the bytes they begin at. -/
def places (start : Nat) : List Char → List (Nat × Char)
  | [] => []
  | c :: rest => (start,c) :: places (start + c.utf8Size) rest

def find? (p : Char → Bool) (text : List Char) : Option Nat :=
  ((places 0 text).find? fun place => p place.2).map Prod.fst

def findLast? (p : Char → Bool) (text : List Char) : Option Nat :=
  ((places 0 text).reverse.find? fun place => p place.2).map Prod.fst

theorem cutAt?_append (first last : List Char) :
    cutAt? (first ++ last) (utf8Size first) = some (first,last) := by
  induction first with
  | nil => simp [cutAt?]
  | cons c first ih =>
    have wide := c.utf8Size_pos
    obtain ⟨m,size⟩ : ∃ m, c.utf8Size + utf8Size first = m + 1 :=
      ⟨_,(Nat.sub_add_cancel (by omega)).symm⟩
    have here : c.utf8Size ≤ m + 1 := by omega
    have rest : m + 1 - c.utf8Size = utf8Size first := by omega
    rw [List.cons_append,Buffer.utf8Size_cons,size,cutAt?,if_pos here,rest,ih]
    rfl

/-- A text is cut exactly at the bytes where a part of it ends. -/
theorem cutAt?_eq_some : cutAt? text n = some (first,last) ↔
    text = first ++ last ∧ utf8Size first = n := by
  constructor
  · intro cut
    fun_induction cutAt? text n generalizing first with
    | case1 =>
      cases cut
      exact ⟨rfl,rfl⟩
    | case2 => cases cut
    | case3 c rest n here ih =>
      obtain ⟨⟨more,last'⟩,found,same⟩ := Option.map_eq_some_iff.mp cut
      cases same
      obtain ⟨rfl,size⟩ := ih found
      refine ⟨rfl,?_⟩
      rw [Buffer.utf8Size_cons]
      omega
    | case4 => cases cut
  · rintro ⟨rfl,rfl⟩
    exact cutAt?_append first last

theorem slice?_append (first middle last : List Char) :
    slice? (first ++ middle ++ last) (utf8Size first) (utf8Size (first ++ middle)) = some middle := by
  simp only [slice?,cutAt?_append,bind,Option.bind]

theorem drain?_append (first middle last : List Char) :
    drain? (first ++ middle ++ last) (utf8Size first) (utf8Size (first ++ middle)) =
      some (first ++ last) := by
  simp only [drain?,cutAt?_append,bind,Option.bind]

/-! ### Places -/

theorem places_append (start : Nat) (first last : List Char) :
    places start (first ++ last) = places start first ++ places (start + utf8Size first) last := by
  induction first generalizing start with
  | nil => rfl
  | cons c first ih => simp [places,ih,Nat.add_assoc]

theorem find?_places_eq_none {p : Char → Bool} (other : ∀ c ∈ text, p c = false) (start : Nat) :
    (places start text).find? (fun place => p place.2) = none := by
  induction text generalizing start with
  | nil => rfl
  | cons c text ih =>
    obtain ⟨here,later⟩ := List.forall_mem_cons.mp other
    rw [places,List.find?_cons_of_neg (by simp [here]),ih later]

theorem find?_reverse_places_eq_none {p : Char → Bool} (other : ∀ c ∈ text, p c = false)
    (start : Nat) : (places start text).reverse.find? (fun place => p place.2) = none := by
  rw [List.find?_eq_none]
  intro place member
  have all := List.find?_eq_none.mp (find?_places_eq_none other start)
  exact all place (List.mem_reverse.mp member)

theorem find?_eq_none {p : Char → Bool} (other : ∀ c ∈ text, p c = false) :
    find? p text = none := by
  rw [find?,find?_places_eq_none other,Option.map_none]

theorem find?_append {p : Char → Bool} {c : Char} (other : ∀ d ∈ first, p d = false)
    (here : p c = true) : find? p (first ++ c :: last) = some (utf8Size first) := by
  rw [find?,places_append,List.find?_append,find?_places_eq_none other,places]
  simp [here]

theorem findLast?_eq_none {p : Char → Bool} (other : ∀ c ∈ text, p c = false) :
    findLast? p text = none := by
  rw [findLast?,find?_reverse_places_eq_none other,Option.map_none]

theorem findLast?_append {p : Char → Bool} {c : Char} (here : p c = true)
    (other : ∀ d ∈ last, p d = false) : findLast? p (first ++ c :: last) = some (utf8Size first) := by
  rw [findLast?,places_append,places,List.reverse_append,List.reverse_cons,List.append_assoc,
    List.find?_append,find?_reverse_places_eq_none other]
  simp [here]

theorem getElem?_places (start n : Nat) (text : List Char) :
    ((places start text)[n]?).map Prod.fst =
      if n < text.length then some (start + utf8Size (text.take n)) else none := by
  induction text generalizing start n with
  | nil => simp [places]
  | cons c text ih =>
    cases n with
    | zero => simp [places]
    | succ n => simp [places,ih,Nat.add_assoc]

theorem find?_getD (p : Char → Bool) (text : List Char) (start : Nat) :
    ((find? p text).map (start + ·)).getD (start + utf8Size text) =
      start + utf8Size (text.takeWhile fun c => !p c) := by
  cases found : text.dropWhile fun c => !p c with
  | nil =>
    have other : ∀ c ∈ text, p c = false := by simpa [List.dropWhile_eq_nil_iff] using found
    have whole : text.takeWhile (fun c => !p c) = text := by
      rw [List.takeWhile_eq_self_iff]
      simpa using other
    rw [find?_eq_none other,whole]
    rfl
  | cons c rest =>
    have here : p c = true := by
      have stops := List.head_dropWhile_not (fun c => !p c) (l := text) (by simp [found])
      simpa [found] using stops
    have split : text = text.takeWhile (fun c => !p c) ++ c :: rest := by
      rw [← found,List.takeWhile_append_dropWhile]
    have other : ∀ d ∈ text.takeWhile (fun c => !p c), p d = false := by
      intro d member
      simpa using List.mem_takeWhile_imp member
    have place : find? p text = some (utf8Size (text.takeWhile fun c => !p c)) := by
      conv => lhs; rw [split]
      exact find?_append other here
    rw [place]
    rfl

/-- A text cut behind the last character of a kind. -/
theorem split_at_last (p : Char → Bool) (text : List Char) :
    (∀ c ∈ text, p c = false) ∨
      ∃ first c last, text = first ++ c :: last ∧ p c = true ∧ ∀ d ∈ last, p d = false := by
  induction text with
  | nil => exact .inl (by simp)
  | cons c text ih =>
    rcases ih with other | ⟨first,d,last,rfl,here,other⟩
    · cases here : p c with
      | true => exact .inr ⟨[],c,text,rfl,here,other⟩
      | false => exact .inl (List.forall_mem_cons.mpr ⟨here,other⟩)
    · exact .inr ⟨c :: first,d,last,rfl,here,other⟩

end PlainTables.Bytes
