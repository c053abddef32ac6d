import Mathlib.Data.String.Basic
import PlainTables.Proofs.Text.Bytes

/-! The order of texts by their characters is the order of their bytes. A greater character has a code
that is greater where the two codes first differ, so the texts differ in the same way. -/
namespace PlainTables.Text

/-! ### Lists that differ somewhere -/

section Precedes

variable {α β : Type} [LT α] [LT β] {x y : β} {xs ys : List β}

/-- Where the lists first differ both have a symbol, and that of the first is the lesser one. -/
inductive Precedes : List β → List β → Prop
  | here {x y : β} {xs ys : List β} (less : x < y) : Precedes (x :: xs) (y :: ys)
  | later {x : β} {xs ys : List β} (rest : Precedes xs ys) : Precedes (x :: xs) (x :: ys)

theorem precedes_nil : ¬Precedes ([] : List β) ys := nofun

theorem precedes_cons : Precedes (x :: xs) (y :: ys) ↔ x < y ∨ x = y ∧ Precedes xs ys := by
  constructor
  · rintro (less | rest)
    · exact .inl less
    · exact .inr ⟨rfl,rest⟩
  · rintro (less | ⟨rfl,rest⟩)
    · exact .here less
    · exact .later rest

theorem Precedes.append_lt (precedes : Precedes xs ys) (xs' ys' : List β) : xs ++ xs' < ys ++ ys' := by
  induction precedes with
  | here less => exact .rel less
  | later _ ih => exact .cons ih

theorem flatMap_lt {code : α → List β} (filled : ∀ a, code a ≠ [])
    (mono : ∀ a b, a < b → Precedes (code a) (code b)) {first second : List α}
    (less : first < second) : first.flatMap code < second.flatMap code := by
  induction less with
  | @nil b _ =>
    obtain ⟨x,more,same⟩ := List.exists_cons_of_ne_nil (filled b)
    rw [List.flatMap_nil,List.flatMap_cons,same]
    exact .nil
  | @cons a _ _ _ ih =>
    rw [List.flatMap_cons,List.flatMap_cons]
    exact List.Lex.append_left _ ih _
  | @rel a _ b _ less =>
    rw [List.flatMap_cons,List.flatMap_cons]
    exact (mono a b less).append_lt _ _

end Precedes

/-! ### UTF-8 -/

theorem ofNat_lt_ofNat {m n : Nat} (small : m < 256) (small' : n < 256) :
    UInt8.ofNat m < UInt8.ofNat n ↔ m < n := by
  rw [UInt8.lt_iff_toNat_lt,UInt8.toNat_ofNat',UInt8.toNat_ofNat',Nat.mod_eq_of_lt small,
    Nat.mod_eq_of_lt small']

theorem ofNat_eq_ofNat {m n : Nat} (small : m < 256) (small' : n < 256) :
    UInt8.ofNat m = UInt8.ofNat n ↔ m = n := by
  rw [← UInt8.toNat_inj,UInt8.toNat_ofNat',UInt8.toNat_ofNat',Nat.mod_eq_of_lt small,
    Nat.mod_eq_of_lt small']

/-- The bytes after the first hold six bits each, so they are compared as digits to the base 64. A
longer code starts with a greater byte. -/
theorem utf8_precedes {c d : Char} (less : c < d) :
    Precedes (String.utf8EncodeChar c) (String.utf8EncodeChar d) := by
  have codes : c.val.toNat < d.val.toNat := less
  have bound : d.val.toNat < 0x110000 := by
    rcases d.valid with low | ⟨-,high⟩ <;> omega
  have third (n : Nat) : n / 4096 = n / 64 / 64 := (Nat.div_div_eq_div_mul n 64 64).symm
  have fourth (n : Nat) : n / 262144 = n / 64 / 64 / 64 := by rw [← third,Nat.div_div_eq_div_mul]
  unfold String.utf8EncodeChar
  dsimp only
  generalize c.val.toNat = m at *
  generalize d.val.toNat = n at *
  split_ifs <;>
    simp (disch := omega) only [precedes_cons,precedes_nil,ofNat_lt_ofNat,ofNat_eq_ofNat,third,
      fourth] <;>
    omega

/-- Texts are in the order of their bytes. -/
theorem toUTF8_lt {first second : String} (less : first < second) :
    first.toUTF8.toList < second.toUTF8.toList := by
  rw [toList_toUTF8,toList_toUTF8]
  exact flatMap_lt utf8_ne_nil (fun _ _ => utf8_precedes) (String.lt_iff_toList_lt.mp less)

end PlainTables.Text
