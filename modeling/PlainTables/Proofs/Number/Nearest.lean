import Mathlib.Algebra.Order.Ring.Int
import Mathlib.Order.Monotone.Basic
import Mathlib.Tactic.LinearCombination
import Mathlib.Tactic.Ring
import PlainTables.Number.Binary64

/-! Integers as binary64 numbers. What is nearest to an integer is said of integers alone: those of
at most 53 significant bits. The magnitude found for an integer encodes the nearest one of them, and
it is too large exactly from half a step below `2 ^ 1024` on. -/
namespace PlainTables

/-! ### Integers of 53 bits -/

/-- Whether an integer has at most 53 significant bits. -/
def Fits (n : Int) : Prop :=
  ∃ significand exponent : Nat, significand < 2 ^ 53 ∧ n.natAbs = significand * 2 ^ exponent

/-- The integer of 53 bits nearest to another one. Of two that are equally near it is the one that is
an even multiple of their distance. -/
structure RoundsTo (n r : Int) : Prop where
  fits : Fits r
  closest : ∀ s, Fits s → (n - r).natAbs ≤ (n - s).natAbs
  even : ∀ s, Fits s → s ≠ r → (n - r).natAbs = (n - s).natAbs → 2 * (s - r) ∣ r

theorem fits_mul {significand : Nat} (small : significand ≤ 2 ^ 53) (exponent : Nat) :
    Fits (significand * (2 ^ exponent : Nat)) := by
  have size : ((significand : Int) * (2 ^ exponent : Nat)).natAbs = significand * 2 ^ exponent := by
    rw [Int.natAbs_mul,Int.natAbs_natCast,Int.natAbs_natCast]
  rcases Nat.lt_or_eq_of_le small with below | rfl
  · exact ⟨significand,exponent,below,size⟩
  · exact ⟨1,53 + exponent,by decide,by rw [size,Nat.one_mul,Nat.pow_add]⟩

theorem Fits.neg {n : Int} (fits : Fits n) : Fits (-n) := by
  simpa only [Fits,Int.natAbs_neg] using fits

theorem fits_natCast {n : Nat} (small : n ≤ 2 ^ 53) : Fits n := by
  simpa only [Nat.pow_zero,Nat.cast_one,Int.mul_one] using fits_mul small 0

theorem fits_of_le {n : Int} (small : n.natAbs ≤ 2 ^ 53) : Fits n := by
  rcases Int.natAbs_eq n with same | opposite
  · rw [same]
    exact fits_natCast small
  · rw [opposite]
    exact (fits_natCast small).neg

/-- An integer of 53 bits is a multiple of a power of two, or smaller than every multiple of it with
a significand of full length. -/
theorem Fits.grid {n : Int} (fits : Fits n) (exponent : Nat) :
    (∃ k : Int, n = k * (2 ^ exponent : Nat)) ∨ n.natAbs < 2 ^ 52 * 2 ^ exponent := by
  obtain ⟨significand,own,small,size⟩ := fits
  rcases Nat.lt_or_ge own exponent with finer | coarser
  · right
    calc n.natAbs = significand * 2 ^ own := size
      _ < 2 ^ 53 * 2 ^ own := Nat.mul_lt_mul_of_pos_right small (Nat.two_pow_pos own)
      _ = 2 ^ 52 * 2 ^ (own + 1) := by ring
      _ ≤ 2 ^ 52 * 2 ^ exponent :=
        Nat.mul_le_mul_left _ (Nat.pow_le_pow_right (by decide) finer)
  · left
    apply exists_eq_mul_left_of_dvd
    apply Int.dvd_natAbs.mp
    rw [size]
    exact_mod_cast (Nat.pow_dvd_pow 2 coarser).mul_left significand

namespace RoundsTo

variable {m n r s : Int}

theorem refl (fits : Fits n) : RoundsTo n n where
  fits := fits
  closest s _ := by omega
  even s _ other same := by omega

theorem eq_self (rounds : RoundsTo n r) (fits : Fits n) : r = n := by
  have exact := rounds.closest n fits
  omega

theorem neg (rounds : RoundsTo n r) : RoundsTo (-n) (-r) where
  fits := rounds.fits.neg
  closest s fits := by
    have near := rounds.closest (-s) fits.neg
    omega
  even s fits other same := by
    have even := rounds.even (-s) fits.neg (by omega) (by omega)
    have turned : 2 * (s - -r) = -(2 * (-s - r)) := by ring
    rw [turned]
    exact Int.neg_dvd.mpr (Int.dvd_neg.mpr even)

/-- Of two equally near integers only one is an even multiple of their distance. -/
theorem unique (first : RoundsTo n r) (second : RoundsTo n s) : r = s := by
  by_contra other
  have near := first.closest s second.fits
  have near' := second.closest r first.fits
  obtain ⟨i,left⟩ := first.even s second.fits (Ne.symm other) (by omega)
  obtain ⟨j,right⟩ := second.even r first.fits other (by omega)
  have whole : (s - r) * (1 + 2 * i + 2 * j) = 0 := by linear_combination right - left
  rcases Int.mul_eq_zero.mp whole with same | odd <;> omega

theorem mono (first : RoundsTo m r) (second : RoundsTo n s) (le : m ≤ n) : r ≤ s := by
  rcases Int.lt_or_eq_of_le le with less | rfl
  · have near := first.closest s second.fits
    have near' := second.closest r first.fits
    omega
  · exact (first.unique second).le

/-- What lies half a step or less below a power of two is rounded up to it: the power has the even
significand. -/
theorem lt_power_iff (rounds : RoundsTo n r) (exponent : Nat) :
    r < 2 ^ 54 * (2 ^ exponent : Nat) ↔ n < (2 ^ 54 - 1) * (2 ^ exponent : Nat) := by
  have positive : 0 < 2 ^ exponent := Nat.two_pow_pos exponent
  have double : 2 ^ (exponent + 1) = 2 * 2 ^ exponent := by rw [Nat.pow_succ,Nat.mul_comm]
  have power : Fits ((2 ^ 53 : Nat) * (2 ^ (exponent + 1) : Nat)) := fits_mul (Nat.le_refl _) _
  have last : Fits ((2 ^ 53 - 1 : Nat) * (2 ^ (exponent + 1) : Nat)) := fits_mul (by decide) _
  have grid := rounds.fits.grid (exponent + 1)
  rw [double] at power last grid
  generalize 2 ^ exponent = half at *
  have toPower := rounds.closest _ power
  have toLast := rounds.closest _ last
  push_cast at *
  constructor
  · intro below
    by_contra beyond
    obtain ⟨k,whole⟩ | small := grid
    · have least : (2 ^ 53 - 1) * (2 * half : Int) ≤ k * (2 * half) := by omega
      have most : k * (2 * half : Int) < 2 ^ 53 * (2 * half) := by omega
      have := Int.le_of_mul_le_mul_right least (by omega)
      have := Int.lt_of_mul_lt_mul_right most (by omega)
      obtain rfl : k = 2 ^ 53 - 1 := by omega
      have even := rounds.even _ power (by omega) (by omega)
      rw [whole,← Int.sub_mul,← Int.mul_assoc] at even
      have := Int.dvd_of_mul_dvd_mul_right (by omega) even
      omega
    · omega
  · intro below
    omega

end RoundsTo

namespace Binary64

/-! ### Encoded numbers -/

/-- The number that a magnitude encodes, counted in the least positive one. -/
def units (magnitude : Nat) : Nat :=
  if magnitude < 2 ^ 52 then magnitude
  else (2 ^ 52 + magnitude % 2 ^ 52) * 2 ^ (magnitude / 2 ^ 52 - 1)

/-- How many of the least positive number are one. -/
def unitsOfOne : Nat := 2 ^ 1074

theorem unitsOfOne_pos : 0 < unitsOfOne := by decide +kernel

theorem two_pow_eq {i j : Nat} (places : i = j + 1074) : 2 ^ i = 2 ^ j * unitsOfOne := by
  have split : ∀ k, i = j + k → 2 ^ i = 2 ^ j * 2 ^ k := fun k all => by rw [all,Nat.pow_add]
  rw [unitsOfOne]
  exact split 1074 places

/-- A significand of 54 bits can only be the next power of two, which carries into the exponent. -/
theorem units_add {place significand : Nat} (low : place = 0 ∨ 2 ^ 52 ≤ significand)
    (high : significand ≤ 2 ^ 53) : units (place * 2 ^ 52 + significand) = significand * 2 ^ place := by
  rcases Nat.lt_or_ge significand (2 ^ 52) with small | large
  · have zero : place = 0 := by omega
    rw [zero,Nat.zero_mul,Nat.zero_add,units,if_pos small,Nat.pow_zero,Nat.mul_one]
  rcases Nat.lt_or_eq_of_le high with inside | rfl
  · have quotient : (place * 2 ^ 52 + significand) / 2 ^ 52 = place + 1 := by omega
    have rest : (place * 2 ^ 52 + significand) % 2 ^ 52 = significand - 2 ^ 52 := by omega
    rw [units,if_neg (by omega),quotient,rest,Nat.add_sub_cancel' large,Nat.add_sub_cancel]
  · have quotient : (place * 2 ^ 52 + 2 ^ 53) / 2 ^ 52 = place + 2 := by omega
    have rest : (place * 2 ^ 52 + 2 ^ 53) % 2 ^ 52 = 0 := by omega
    have carried : place + 2 - 1 = place + 1 := by omega
    rw [units,if_neg (by omega),quotient,rest,carried,Nat.pow_succ]
    ring

theorem units_strictMono : StrictMono units := by
  apply strictMono_nat_of_lt_succ
  intro magnitude
  obtain ⟨place,significand,rfl,low,high⟩ : ∃ place significand,
      magnitude = place * 2 ^ 52 + significand ∧ (place = 0 ∨ 2 ^ 52 ≤ significand) ∧
        significand < 2 ^ 53 := by
    rcases Nat.lt_or_ge magnitude (2 ^ 52) with small | large
    · exact ⟨0,magnitude,by omega,.inl rfl,by omega⟩
    · exact ⟨magnitude / 2 ^ 52 - 1,2 ^ 52 + magnitude % 2 ^ 52,by omega,.inr (by omega),by omega⟩
  rw [Nat.add_assoc,units_add low (by omega),units_add (by omega) (by omega)]
  exact Nat.mul_lt_mul_of_pos_right (Nat.lt_succ_self significand) (Nat.two_pow_pos place)

/-- A size with a sign. -/
def signed (negative : Bool) (size : Nat) : Int := if negative then -(size : Int) else size

theorem signed_mul (negative : Bool) (size factor : Nat) :
    signed negative (size * factor) = signed negative size * factor := by
  cases negative <;> simp [signed]

/-- The number itself, counted in the least positive one. -/
def amount (x : Binary64) : Int := signed x.negative (units x.magnitude)

theorem value_lt_value_iff (x y : Binary64) : x.value < y.value ↔ x.amount < y.amount := by
  have fromZero : units 0 = 0 := rfl
  have first := units_strictMono.lt_iff_lt (a := 0) (b := x.magnitude)
  have second := units_strictMono.lt_iff_lt (a := 0) (b := y.magnitude)
  have less := units_strictMono.lt_iff_lt (a := x.magnitude) (b := y.magnitude)
  have greater := units_strictMono.lt_iff_lt (a := y.magnitude) (b := x.magnitude)
  rw [value,value,amount,amount,signed,signed]
  cases x.negative <;> cases y.negative <;> simp only [Bool.false_eq_true,if_false,if_true] <;> omega

/-! ### Rounded quotients -/

theorem divEven_half {den : Nat} (positive : 0 < den) (num : Nat) :
    2 * ((num : Int) - divEven num den * den).natAbs ≤ den ∧
      (2 * ((num : Int) - divEven num den * den).natAbs = den → divEven num den % 2 = 0) := by
  have parts : (num : Int) = (num / den : Nat) * den + (num % den : Nat) := by
    exact_mod_cast (Nat.div_add_mod' num den).symm
  have rest := Nat.mod_lt num positive
  unfold divEven
  dsimp only
  split
  · omega
  · have next : ((num / den + 1 : Nat) : Int) * den = (num / den : Nat) * den + den := by
      push_cast
      ring
    omega

theorem divEven_one (num : Nat) : divEven num 1 = num := by
  have half := (divEven_half Nat.one_pos num).1
  omega

/-- No multiple is closer, and only a neighbour of an even one is as close. -/
theorem divEven_closest {den : Nat} (positive : 0 < den) (num : Nat) (k : Int) :
    ((num : Int) - divEven num den * den).natAbs ≤ (num - k * den).natAbs ∧
    (k ≠ divEven num den →
      ((num : Int) - divEven num den * den).natAbs = (num - k * den).natAbs →
      divEven num den % 2 = 0 ∧ (k - divEven num den).natAbs = 1) := by
  obtain ⟨half,even⟩ := divEven_half positive num
  have moved : (num : Int) - k * den =
      (num - divEven num den * den) - (k - divEven num den) * den := by ring
  have size : ((k - divEven num den) * den : Int).natAbs = (k - divEven num den).natAbs * den := by
    rw [Int.natAbs_mul,Int.natAbs_natCast]
  rw [moved]
  generalize (k - divEven num den) * (den : Int) = step at *
  rcases Nat.lt_trichotomy (k - divEven num den).natAbs 1 with same | next | far
  · have none : (k - divEven num den).natAbs = 0 := by omega
    rw [none] at size
    omega
  · rw [next] at size
    omega
  · have : 2 * den ≤ (k - divEven num den).natAbs * den := Nat.mul_le_mul_right den far
    omega

theorem divEven_bounds {num den : Nat} (positive : 0 < den) (low : 2 ^ 52 * den ≤ num)
    (high : num < 2 ^ 53 * den) : 2 ^ 52 ≤ divEven num den ∧ divEven num den ≤ 2 ^ 53 := by
  have half := (divEven_half positive num).1
  constructor
  · by_contra less
    have : divEven num den * den ≤ (2 ^ 52 - 1) * den := Nat.mul_le_mul_right den (by omega)
    omega
  · by_contra more
    have : (2 ^ 53 + 1) * den ≤ divEven num den * den := Nat.mul_le_mul_right den (by omega)
    omega

/-! ### Nearest numbers -/

theorem roundsTo_divEven {n exponent : Nat} (low : 2 ^ 52 * 2 ^ exponent ≤ n)
    (high : n < 2 ^ 53 * 2 ^ exponent) :
    RoundsTo n (divEven n (2 ^ exponent) * (2 ^ exponent : Nat)) := by
  have positive : 0 < 2 ^ exponent := Nat.two_pow_pos exponent
  -- A number of 53 bits that is no multiple lies below all that come into question.
  have below : ∀ s : Int, s.natAbs < 2 ^ 52 * 2 ^ exponent →
      ((n : Int) - divEven n (2 ^ exponent) * (2 ^ exponent : Nat)).natAbs < (n - s).natAbs := by
    intro s small
    have least := (divEven_closest positive n (2 ^ 52)).1
    omega
  refine ⟨fits_mul (divEven_bounds positive low high).2 exponent,fun s fits => ?_,
    fun s fits other same => ?_⟩
  · rcases fits.grid exponent with ⟨k,rfl⟩ | small
    · exact (divEven_closest positive n k).1
    · exact (below s small).le
  · rcases fits.grid exponent with ⟨k,rfl⟩ | small
    · obtain ⟨even,next⟩ := (divEven_closest positive n k).2 (by rintro rfl; exact other rfl) same
      rw [← Int.sub_mul,← Int.mul_assoc]
      apply Int.mul_dvd_mul_right
      apply Int.natAbs_dvd.mp
      rw [Int.natAbs_mul,next]
      exact Int.natCast_dvd_natCast.mpr (Nat.dvd_of_mod_eq_zero even)
    · exact absurd same (below s small).ne

theorem nearestMagnitude_one {n : Nat} (positive : 0 < n) :
    nearestMagnitude n 1 = (n.log2 + 1022) * 2 ^ 52 +
      divEven (n * 2 ^ (52 - n.log2)) (2 ^ (n.log2 - 52)) := by
  have leading : 2 ^ n.log2 ≤ n := Nat.log2_self_le (Nat.pos_iff_ne_zero.mp positive)
  have guess : (n.log2 : Int) - (Nat.log2 1 : Nat) = n.log2 := by
    rw [show Nat.log2 1 = 0 by decide]
    omega
  have fits : scaledLe 1 n.log2 n = true := by
    simp [scaledLe,Nat.shiftLeft_eq,leading]
  have exponent : binaryExponent n 1 = n.log2 := by
    rw [binaryExponent,guess]
    simp only [fits,if_true]
  have unit : max ((n.log2 : Int) - 52) (-1074) = n.log2 - 52 := by omega
  have above : ((n.log2 : Int) - 52).toNat = n.log2 - 52 := by omega
  have below : (-((n.log2 : Int) - 52)).toNat = 52 - n.log2 := by omega
  have biased : ((n.log2 : Int) - 52 + 1074).toNat = n.log2 + 1022 := by omega
  simp only [nearestMagnitude,exponent,unit,above,below,biased,Nat.shiftLeft_eq,Nat.one_mul]

/-- An integer of 53 bits is moved up until its first bit is the leading one. -/
theorem units_short {n places : Nat} (leading : 2 ^ places ≤ n) (beyond : n < 2 ^ (places + 1))
    (few : places ≤ 52) :
    n ≤ 2 ^ 53 ∧ units ((places + 1022) * 2 ^ 52 + n * 2 ^ (52 - places)) = n * unitsOfOne := by
  have full : 2 ^ places * 2 ^ (52 - places) = 2 ^ 52 := by
    rw [← Nat.pow_add,Nat.add_sub_cancel' few]
  have least : 2 ^ 52 ≤ n * 2 ^ (52 - places) := full ▸ Nat.mul_le_mul_right _ leading
  have most : n * 2 ^ (52 - places) ≤ 2 ^ 53 := by
    calc n * 2 ^ (52 - places) ≤ 2 ^ (places + 1) * 2 ^ (52 - places) :=
          Nat.mul_le_mul_right _ beyond.le
      _ = 2 * (2 ^ places * 2 ^ (52 - places)) := by ring
      _ = 2 ^ 53 := by rw [full]; rfl
  have one : 2 ^ (52 - places) * 2 ^ (places + 1022) = unitsOfOne := by
    rw [← Nat.pow_add,two_pow_eq (j := 0) (by omega),Nat.pow_zero,Nat.one_mul]
  refine ⟨(Nat.le_mul_of_pos_right n (Nat.two_pow_pos _)).trans most,?_⟩
  rw [units_add (.inr least) most,Nat.mul_assoc,one]

/-- A longer one is rounded to a multiple of the power of two below its first 53 bits. -/
theorem units_long {n exponent : Nat} (leading : 2 ^ (52 + exponent) ≤ n)
    (beyond : n < 2 ^ (52 + exponent + 1)) :
    RoundsTo n (divEven n (2 ^ exponent) * 2 ^ exponent : Nat) ∧
      units ((52 + exponent + 1022) * 2 ^ 52 + divEven n (2 ^ exponent)) =
        divEven n (2 ^ exponent) * 2 ^ exponent * unitsOfOne := by
  rw [Nat.pow_add] at leading
  rw [Nat.add_right_comm,Nat.pow_add] at beyond
  obtain ⟨least,most⟩ := divEven_bounds (Nat.two_pow_pos exponent) leading beyond
  have one : 2 ^ (52 + exponent + 1022) = 2 ^ exponent * unitsOfOne := two_pow_eq (by omega)
  constructor
  · exact_mod_cast roundsTo_divEven leading beyond
  · rw [units_add (.inr least) most,one,Nat.mul_assoc]

/-- The magnitude found for an integer encodes the nearest number. -/
theorem units_nearestMagnitude {n : Nat} (positive : 0 < n) :
    ∃ r : Nat, RoundsTo n r ∧ units (nearestMagnitude n 1) = r * unitsOfOne := by
  have leading : 2 ^ n.log2 ≤ n := Nat.log2_self_le (Nat.pos_iff_ne_zero.mp positive)
  have beyond : n < 2 ^ (n.log2 + 1) := Nat.lt_log2_self
  rw [nearestMagnitude_one positive]
  generalize n.log2 = places at leading beyond ⊢
  rcases Nat.le_total places 52 with few | many
  · obtain ⟨small,size⟩ := units_short leading beyond few
    refine ⟨n,.refl (fits_natCast small),?_⟩
    rw [Nat.sub_eq_zero_of_le few,Nat.pow_zero,divEven_one,size]
  · obtain ⟨exponent,rfl⟩ := Nat.exists_eq_add_of_le many
    obtain ⟨rounds,size⟩ := units_long leading beyond
    have none : 52 - (52 + exponent) = 0 := by omega
    refine ⟨_,rounds,?_⟩
    rw [none,Nat.pow_zero,Nat.mul_one,Nat.add_sub_cancel_left,size]

/-- Half of the last place of the numbers below `2 ^ 1024`. -/
def halfStep : Nat := 2 ^ 970

/-- The least size that rounds to `2 ^ 1024`. -/
def overflow : Nat := 2 ^ 54 * halfStep - halfStep

theorem units_infinityMagnitude : units infinityMagnitude = 2 ^ 54 * halfStep * unitsOfOne := by
  have split : infinityMagnitude = 2045 * 2 ^ 52 + 2 ^ 53 := by decide
  have place : 2 ^ 2045 = 2 * halfStep * unitsOfOne := by decide +kernel
  rw [split,units_add (.inr (by decide)) (Nat.le_refl _),place]
  ring

theorem nearestMagnitude_lt_infinity_iff {n : Nat} (positive : 0 < n) :
    nearestMagnitude n 1 < infinityMagnitude ↔ n < overflow := by
  obtain ⟨r,rounds,size⟩ := units_nearestMagnitude positive
  have below := rounds.lt_power_iff 970
  rw [← halfStep] at below
  rw [← units_strictMono.lt_iff_lt,size,units_infinityMagnitude,
    Nat.mul_lt_mul_right unitsOfOne_pos,overflow]
  omega

/-- An integer that is not too large has a nearest number. -/
theorem ofMagnitude?_nearest (negative : Bool) {n : Nat} (positive : 0 < n) (finite : n < overflow) :
    ∃ x r, ofMagnitude? negative (nearestMagnitude n 1) = some x ∧
      RoundsTo (signed negative n) r ∧ x.amount = r * unitsOfOne := by
  obtain ⟨r,rounds,size⟩ := units_nearestMagnitude positive
  have inside := (nearestMagnitude_lt_infinity_iff positive).mpr finite
  refine ⟨⟨negative,_,inside⟩,signed negative r,by rw [ofMagnitude?,dif_pos inside],?_,?_⟩
  · cases negative
    · exact rounds
    · exact rounds.neg
  · rw [amount,size]
    exact signed_mul negative r unitsOfOne

theorem ofMagnitude?_overflow (negative : Bool) {n : Nat} (large : overflow ≤ n) :
    ofMagnitude? negative (nearestMagnitude n 1) = none := by
  have positive : 0 < n := by
    have : 0 < halfStep := by decide +kernel
    rw [overflow] at large
    omega
  have outside := mt (nearestMagnitude_lt_infinity_iff positive).mp (Nat.not_lt.mpr large)
  rw [ofMagnitude?,dif_neg outside]

end Binary64
end PlainTables
