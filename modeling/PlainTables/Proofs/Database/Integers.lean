import PlainTables.Proofs.Database.Written
import PlainTables.Proofs.Filter.Comparison
import PlainTables.Proofs.Number.Integer
import PlainTables.Proofs.Table.Read

/-! Integers in comparisons. Texts of integers are compared as the nearest numbers are, so the order of
two integers is never turned round, and it is lost only where both have more than 53 bits. A text of an
integer that is too large for a number is compared as a text. -/
namespace PlainTables

open Binary64 (overflow unitsOfOne)

/-! ### Rounded integers -/

/-- One of the integers is below `2 ^ 53`, or both have 53 significant bits. -/
def KeptApart (m n : Int) : Prop := m.natAbs < 2 ^ 53 ∨ n.natAbs < 2 ^ 53 ∨ Fits m ∧ Fits n

theorem KeptApart.symm {m n : Int} (apart : KeptApart m n) : KeptApart n m := by
  rcases apart with small | small | ⟨first,second⟩
  · exact .inr (.inl small)
  · exact .inl small
  · exact .inr (.inr ⟨second,first⟩)

variable {m n r s : Int} {a b : String}

theorem RoundsTo.lt_of_keptApart (first : RoundsTo m r) (second : RoundsTo n s)
    (apart : KeptApart m n) (less : m < n) : r < s := by
  rcases apart with small | small | ⟨fits,fits'⟩
  · have next : RoundsTo (m + 1) (m + 1) := .refl (fits_of_le (by omega))
    have above := next.mono second less
    have same := first.eq_self (fits_of_le small.le)
    omega
  · have before : RoundsTo (n - 1) (n - 1) := .refl (fits_of_le (by omega))
    have below := first.mono before (by omega)
    have same := second.eq_self (fits_of_le small.le)
    omega
  · rwa [first.eq_self fits,second.eq_self fits']

theorem RoundsTo.lt_iff (first : RoundsTo m r) (second : RoundsTo n s) (apart : KeptApart m n) :
    r < s ↔ m < n := by
  constructor
  · intro less
    by_contra le
    exact absurd (second.mono first (not_lt.mp le)) (not_le.mpr less)
  · exact first.lt_of_keptApart second apart

/-! ### Texts of integers -/

namespace Comparator

theorem evaluate_rounded (denotes : integerOf? a = some m) (denotes' : integerOf? b = some n)
    (finite : m.natAbs < overflow) (finite' : n.natAbs < overflow) :
    ∃ r s, RoundsTo m r ∧ RoundsTo n s ∧
      ∀ c : Comparator, c.evaluate (some a) b = true ↔ c.Relates r s := by
  obtain ⟨x,r,read,rounds,amount⟩ := Binary64.ofText?_nearest denotes finite
  obtain ⟨y,s,read',rounds',amount'⟩ := Binary64.ofText?_nearest denotes' finite'
  refine ⟨r,s,rounds,rounds',fun c => (evaluate_numbers read read' c).trans ?_⟩
  have positive : (0 : Int) < unitsOfOne := Int.natCast_pos.mpr Binary64.unitsOfOne_pos
  apply relates_congr
  · rw [Binary64.value_lt_value_iff,amount,amount',Int.mul_lt_mul_right positive]
  · rw [Binary64.value_lt_value_iff,amount,amount',Int.mul_lt_mul_right positive]

theorem evaluate_large (denotes : integerOf? a = some m) (denotes' : integerOf? b = some n)
    (large : overflow ≤ m.natAbs ∨ overflow ≤ n.natAbs) (c : Comparator) :
    c.evaluate (some a) b = true ↔ c.Relates a b :=
  evaluate_texts (large.imp (Binary64.ofText?_overflow denotes)
    (Binary64.ofText?_overflow denotes')) c

theorem evaluate_exact (denotes : integerOf? a = some m) (denotes' : integerOf? b = some n)
    (finite : m.natAbs < overflow) (finite' : n.natAbs < overflow) (apart : KeptApart m n)
    (c : Comparator) : c.evaluate (some a) b = true ↔ c.Relates m n := by
  obtain ⟨r,s,rounds,rounds',evaluated⟩ := evaluate_rounded denotes denotes' finite finite'
  exact (evaluated c).trans
    (relates_congr (rounds.lt_iff rounds' apart) (rounds'.lt_iff rounds apart.symm) c)

/-- A small integer is equal to itself alone, whatever the size of the other one. -/
theorem eq_evaluate_small (denotes : integerOf? a = some m) (denotes' : integerOf? b = some n)
    (small : n.natAbs < 2 ^ 53) : eq.evaluate (some a) b = true ↔ m = n := by
  have bound : 2 ^ 53 ≤ overflow := by decide +kernel
  rcases Nat.lt_or_ge m.natAbs overflow with finite | large
  · exact evaluate_exact denotes denotes' finite (by omega) (.inr (.inl small)) eq
  · refine (evaluate_large denotes denotes' (.inl large) eq).trans ⟨?_,?_⟩
    · intro same
      have same : a = b := same
      rw [same,denotes'] at denotes
      exact (Option.some.inj denotes).symm
    · omega

end Comparator

/-! ### Integers in a column -/

namespace Table

variable {table : Table} {column : String}

/-- The integer in a column of a row. -/
def integer? (table : Table) (column : String) (row : Row) : Option Int :=
  (table.header.cell? row column).bind integerOf?

theorem holds_integer {row : Row} (filled : (table.integer? column row).isSome)
    (denotes : integerOf? b = some n) (small : n.natAbs < 2 ^ 53) :
    (Filter.single ⟨column,.eq,b⟩).holds (table.header.cell? row) =
      decide (table.integer? column row = some n) := by
  obtain ⟨m,found⟩ := Option.isSome_iff_exists.mp filled
  obtain ⟨cell,here,integer⟩ := Option.bind_eq_some_iff.mp found
  rw [Bool.eq_iff_iff,decide_eq_true_eq,found,Option.some.injEq,
    ← Comparator.eq_evaluate_small integer denotes small,← here]
  rfl

end Table

namespace Database

variable {db : Database} {format : TableFormat} {name column : String} {tree : FileTree}
  {table : Table}

theorem delete_integer (loaded : db.load format name tree = .ok table tree)
    (filled : ∀ row ∈ table.rows, (table.integer? column row).isSome)
    (denotes : integerOf? b = some n) (small : n.natAbs < 2 ^ 53) :
    db.delete format name (Filter.single ⟨column,.eq,b⟩) tree =
      (db.replace format name
          ⟨table.header,table.rows.filter fun row => table.integer? column row ≠ some n⟩ >>= fun _ =>
        pure (table.rows.countP fun row => table.integer? column row = some n)) tree := by
  obtain ⟨text,found⟩ := load_eq_ok.mp loaded
  obtain ⟨⟨place,stored⟩,read⟩ := hasText_of_loadText found
  have balanced : (Filter.single ⟨column,.eq,b⟩).Balanced := rfl
  have holds : ∀ row ∈ table.rows,
      (Filter.single ⟨column,.eq,b⟩).holds (table.header.cell? row) =
        decide (table.integer? column row = some n) :=
    fun row member => Table.holds_integer (filled row member) denotes small
  have kept : table.deleted (Filter.single ⟨column,.eq,b⟩) =
      ⟨table.header,table.rows.filter fun row => table.integer? column row ≠ some n⟩ := by
    rw [Table.deleted]
    congr 1
    exact List.filter_congr fun row member => by rw [holds row member,decide_not]
  have removed : (table.holding (Filter.single ⟨column,.eq,b⟩)).length =
      table.rows.countP fun row => table.integer? column row = some n := by
    rw [List.countP_eq_length_filter,Table.holding,List.filter_congr holds]
  rw [delete_of_hasText stored read balanced,kept,removed]

end Database

/-- The text of an integer as a literal. Texts of integers below `2 ^ 1024 - 2 ^ 970` are compared as the
nearest numbers are, which keeps the order of the integers and, unless both have more than 53 bits, keeps
them apart. A larger integer is compared as a text. So a small literal removes the rows of its integer
and no others. -/
theorem integer_literal (literal : String) (n : Int) (denotes : integerOf? literal = some n) :
    (∀ cell m, integerOf? cell = some m →
      (m.natAbs < overflow ∧ n.natAbs < overflow →
        (∃ r s, RoundsTo m r ∧ RoundsTo n s ∧ (m ≤ n → r ≤ s) ∧ (n ≤ m → s ≤ r) ∧
          ∀ c : Comparator, c.evaluate (some cell) literal = true ↔ c.Relates r s) ∧
        (m.natAbs < 2 ^ 53 ∨ n.natAbs < 2 ^ 53 ∨ Fits m ∧ Fits n →
          ∀ c : Comparator, c.evaluate (some cell) literal = true ↔ c.Relates m n)) ∧
      (overflow ≤ m.natAbs ∨ overflow ≤ n.natAbs →
        ∀ c : Comparator, c.evaluate (some cell) literal = true ↔ c.Relates cell literal)) ∧
    (n.natAbs < 2 ^ 53 → ∀ (db : Database) format name tree table column,
      db.load format name tree = .ok table tree →
      (∀ row ∈ table.rows, (table.integer? column row).isSome) →
      db.delete format name (Filter.single ⟨column,.eq,literal⟩) tree =
        (db.replace format name
            ⟨table.header,table.rows.filter fun row => table.integer? column row ≠ some n⟩ >>= fun _ =>
          pure (table.rows.countP fun row => table.integer? column row = some n)) tree) := by
  refine ⟨fun cell m denotes' => ⟨fun ⟨finite,finite'⟩ => ⟨?_,?_⟩,?_⟩,?_⟩
  · obtain ⟨r,s,rounds,rounds',evaluated⟩ :=
      Comparator.evaluate_rounded denotes' denotes finite finite'
    exact ⟨r,s,rounds,rounds',rounds.mono rounds',rounds'.mono rounds,evaluated⟩
  · exact Comparator.evaluate_exact denotes' denotes finite finite'
  · exact Comparator.evaluate_large denotes' denotes
  · exact fun small _ _ _ _ _ _ loaded filled => Database.delete_integer loaded filled denotes small

def shelf : Database := ⟨"shelf",Path.ofText "shelf"⟩

def numbered : FileTree :=
  ⟨[(["t.csv","shelf"],.file "id,a\n7,x\n-7,y\n007,z\n9007199254740993,w\n".toUTF8),
    (["shelf"],.directory)],[]⟩

def numberedTable : Table :=
  ⟨⟨["id","a"],by decide⟩,[["7","x"],["-7","y"],["007","z"],["9007199254740993","w"]]⟩

/-- The text of `10 ^ 309`. -/
def huge : String := String.ofList ('1' :: List.replicate 309 '0')

theorem toList_huge : huge.toList = '1' :: List.replicate 309 '0' := String.toList_ofList

theorem integerOf?_huge : integerOf? huge = some (10 ^ 309) := by
  rw [integerOf?,toList_huge]
  decide +kernel

theorem huge_lt_seven : huge < "7" := by
  rw [String.lt_iff_toList_lt,toList_huge]
  decide +kernel

theorem integer_literal_seven :
    shelf.load .comma "t" numbered = .ok numberedTable numbered ∧
    shelf.delete .comma "t" (Filter.single ⟨"id",.eq,"7"⟩) numbered =
      (shelf.replace .comma "t"
          ⟨numberedTable.header,[["-7","y"],["9007199254740993","w"]]⟩ >>= fun _ => pure 2) numbered ∧
    Comparator.lt.evaluate (some "-12") "7" = true ∧
    Comparator.gtEq.evaluate (some "9007199254740993") "9007199254740992" = true ∧
    Comparator.lt.evaluate (some huge) "7" = true := by
  have loaded : shelf.load .comma "t" numbered = .ok numberedTable numbered :=
    (Database.load_looksOnly _ .comma "t").eq_ok (by decide +kernel)
  have seven := integer_literal "7" 7 (by decide +kernel)
  have large := integer_literal "9007199254740992" 9007199254740992 (by decide +kernel)
  refine ⟨loaded,?_,?_,?_,?_⟩
  · have removed := seven.2 (by decide) shelf .comma "t" numbered numberedTable "id" loaded
      (by decide +kernel)
    have kept : (numberedTable.rows.filter fun row => numberedTable.integer? "id" row ≠ some 7) =
        [["-7","y"],["9007199254740993","w"]] := by decide +kernel
    have counted : (numberedTable.rows.countP fun row => numberedTable.integer? "id" row = some 7) = 2 := by
      decide +kernel
    rwa [kept,counted] at removed
  · have exact := ((seven.1 "-12" (-12) (by decide +kernel)).1 (by decide +kernel)).2
      (.inl (by decide)) .lt
    exact exact.mpr (by decide)
  · obtain ⟨r,s,-,-,-,order,evaluated⟩ :=
      ((large.1 "9007199254740993" 9007199254740993 (by decide +kernel)).1 (by decide +kernel)).1
    exact (evaluated .gtEq).mpr (order (by decide))
  · have texts := (seven.1 huge (10 ^ 309) integerOf?_huge).2 (.inl (by decide +kernel)) .lt
    exact texts.mpr huge_lt_seven

theorem not_integers_compared_exactly :
    ¬∀ (cell literal : String) (m n : Int), integerOf? cell = some m → integerOf? literal = some n →
      ∀ c : Comparator, c.evaluate (some cell) literal = true ↔ c.Relates m n := by
  intro exactly
  have equal := (exactly "9007199254740993" "9007199254740992" 9007199254740993 9007199254740992
    (by decide +kernel) (by decide +kernel) .eq).mp (by decide +kernel)
  have different : (9007199254740993 : Int) ≠ 9007199254740992 := by decide
  exact different equal

end PlainTables
