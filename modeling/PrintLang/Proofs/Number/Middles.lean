import Mathlib
import PrintLang.Proofs.Number.Rounding

/-!
# Numbers between the middles around a double

A number is rounded to a double if it lies between the two middles around it, that is, half way to
the neighbours of the double at most.  A middle itself is rounded to the double with the even
significand.  As middles of different doubles do not cross, every number lies between the middles
around one double only.

Numbers are rational here, and they are counted in quanta like the values of ranks.  So quotients
and decimals can be compared with doubles, in whichever of their forms they are given.

## Main Definitions

* `Binary64.Surrounds` — a number lies between the middles around a rank
* `Decimal.value` — the number that a decimal stands for
* `Number.IsNearest` — the double to which a number is rounded, up to the sign of zero

## Main Statements

* `Binary64.surrounds_nearestRank`, `Binary64.Surrounds.unique` — a quotient lies between the
  middles around the rank to which it is rounded, and around no other
* `Decimal.nearestRank_of_surrounds` — hence decimals are rounded as their values tell
* `Number.isNearest_of_surrounds`, `Number.IsNearest.surrounds` — this is the nearest double, and no
  other double is
-/

namespace PrintLang

/-! ## Distances -/

section

variable {p q a : ℚ} (less : p < q)

include less

/-- The greater of two numbers is nearer to the numbers from their middle on. -/
theorem nearer_greater_iff : |q - a| ≤ |p - a| ↔ p + q ≤ 2 * a := by
  rw [← sq_le_sq]
  constructor
  · intro nearer
    by_contra beyond
    nlinarith
  · intro middle
    nlinarith

/-- The smaller one is nearer to those up to their middle. -/
theorem nearer_smaller_iff : |p - a| ≤ |q - a| ↔ 2 * a ≤ p + q := by
  rw [← sq_le_sq]
  constructor
  · intro nearer
    by_contra beyond
    nlinarith
  · intro middle
    nlinarith

/-- Both are as near to their middle. -/
theorem as_near_iff : |p - a| = |q - a| ↔ 2 * a = p + q := by
  rw [le_antisymm_iff, nearer_smaller_iff less, nearer_greater_iff less, ← le_antisymm_iff]

end

namespace Binary64

/-! ## Middles -/

/-- The number of quanta lies between the middles around the value of a rank; if it is one of the
middles, the rank is even.  Below rank zero there is no other rank. -/
@[mk_iff]
structure Surrounds (rank : Nat) (amount : ℚ) : Prop where
  lower : (quanta (rank - 1) + quanta rank : ℚ) ≤ 2 * amount
  upper : 2 * amount ≤ quanta rank + quanta (rank + 1)
  even : 2 * amount = quanta (rank - 1) + quanta rank ∨
    2 * amount = quanta rank + quanta (rank + 1) → rank % 2 = 0

theorem quanta_zero : quanta 0 = 0 := rfl

theorem quanta_one : quanta 1 = 1 := rfl

theorem quanta_pred_le (rank : Nat) : quanta (rank - 1) ≤ quanta rank :=
  strictMono_quanta.monotone (Nat.sub_le rank 1)

theorem quanta_lt_succ (rank : Nat) : quanta rank < quanta (rank + 1) :=
  strictMono_quanta (Nat.lt_succ_self rank)

/-- A number lies between the middles around a rank if it lies between the value of the rank and the
upper one. -/
theorem surrounds_of_le {rank : Nat} {amount : ℚ} (least : quanta rank ≤ amount)
    (greatest : 2 * amount ≤ quanta rank + quanta (rank + 1))
    (even : 2 * amount = quanta rank + quanta (rank + 1) → rank % 2 = 0) :
    Surrounds rank amount := by
  have below : (quanta (rank - 1) : ℚ) ≤ quanta rank := by exact_mod_cast quanta_pred_le rank
  refine ⟨by linarith, greatest, ?_⟩
  rintro (isLower | isUpper)
  · -- Only rank zero has no value below its own.
    have same : (quanta (rank - 1) : ℚ) = quanta rank := by linarith
    have rank_eq := strictMono_quanta.injective (by exact_mod_cast same)
    omega
  · exact even isUpper

/-- It also does if it lies between the lower one and the value. -/
theorem surrounds_succ_of_le {rank : Nat} {amount : ℚ}
    (least : quanta rank + quanta (rank + 1) ≤ 2 * amount) (greatest : amount ≤ quanta (rank + 1))
    (even : 2 * amount = quanta rank + quanta (rank + 1) → (rank + 1) % 2 = 0) :
    Surrounds (rank + 1) amount := by
  have above : (quanta (rank + 1) : ℚ) < quanta (rank + 1 + 1) := by
    exact_mod_cast quanta_lt_succ (rank + 1)
  refine ⟨least, by linarith, ?_⟩
  rintro (isLower | isUpper)
  · exact even isLower
  · linarith

/-- The value of a rank lies between the middles around it. -/
theorem surrounds_quanta (rank : Nat) : Surrounds rank (quanta rank) := by
  have above : (quanta rank : ℚ) < quanta (rank + 1) := by exact_mod_cast quanta_lt_succ rank
  refine surrounds_of_le le_rfl (by linarith) fun isUpper => ?_
  linarith

namespace Surrounds

variable {rank other : Nat} {amount : ℚ}

theorem not_lt (one : Surrounds rank amount) (another : Surrounds other amount) :
    ¬ rank < other := by
  intro lower
  have left : (quanta rank : ℚ) ≤ quanta (other - 1) := by
    exact_mod_cast strictMono_quanta.monotone (by omega : rank ≤ other - 1)
  have right : (quanta (rank + 1) : ℚ) ≤ quanta other := by
    exact_mod_cast strictMono_quanta.monotone (by omega : rank + 1 ≤ other)
  have atUpper := one.upper
  have atLower := another.lower
  -- The upper middle of the one is the lower middle of the other, so both ranks are even.
  have even := one.even (Or.inr (by linarith))
  have otherEven := another.even (Or.inl (by linarith))
  have same : (quanta (rank + 1) : ℚ) = quanta other := by linarith
  have rank_eq := strictMono_quanta.injective (by exact_mod_cast same)
  omega

/-- There is only one rank whose middles surround a number. -/
theorem unique (one : Surrounds rank amount) (another : Surrounds other amount) : rank = other :=
  Nat.le_antisymm (Nat.not_lt.mp (another.not_lt one)) (Nat.not_lt.mp (one.not_lt another))

theorem nonneg (surrounds : Surrounds rank amount) : 0 ≤ amount := by
  have lower := surrounds.lower
  have below : (0 : ℚ) ≤ quanta (rank - 1) := Nat.cast_nonneg _
  have here : (0 : ℚ) ≤ quanta rank := Nat.cast_nonneg _
  linarith

/-- Lower values are at least as far away, and if one is as far, the number is the lower middle. -/
theorem abs_sub_lower (surrounds : Surrounds rank amount) (lower : other < rank) :
    |quanta rank - amount| ≤ |quanta other - amount| ∧
      (|quanta other - amount| = |quanta rank - amount| → rank % 2 = 0) := by
  have least := surrounds.lower
  have below : (quanta other : ℚ) ≤ quanta (rank - 1) := by
    exact_mod_cast strictMono_quanta.monotone (by omega : other ≤ rank - 1)
  have here : (quanta other : ℚ) < quanta rank := by exact_mod_cast strictMono_quanta lower
  refine ⟨(nearer_greater_iff here).mpr (by linarith),
    fun same => surrounds.even (Or.inl ?_)⟩
  have isMiddle := (as_near_iff here).mp same
  linarith

/-- Higher values are, too, with the upper middle. -/
theorem abs_sub_higher (surrounds : Surrounds rank amount) (higher : rank < other) :
    |quanta rank - amount| ≤ |quanta other - amount| ∧
      (|quanta other - amount| = |quanta rank - amount| → rank % 2 = 0) := by
  have greatest := surrounds.upper
  have above : (quanta (rank + 1) : ℚ) ≤ quanta other := by
    exact_mod_cast strictMono_quanta.monotone (by omega : rank + 1 ≤ other)
  have here : (quanta rank : ℚ) < quanta other := by exact_mod_cast strictMono_quanta higher
  refine ⟨(nearer_smaller_iff here).mpr (by linarith),
    fun same => surrounds.even (Or.inr ?_)⟩
  have isMiddle := (as_near_iff here).mp same.symm
  linarith

/-- No value of a rank is nearer, and if another one is as near, the rank is even. -/
theorem abs_sub_le (surrounds : Surrounds rank amount) (other : Nat) :
    |quanta rank - amount| ≤ |quanta other - amount| ∧
      (other ≠ rank → |quanta other - amount| = |quanta rank - amount| → rank % 2 = 0) := by
  rcases Nat.lt_trichotomy other rank with lower | rfl | higher
  · exact (surrounds.abs_sub_lower lower).imp_right fun even _ => even
  · exact ⟨le_rfl, fun differ => absurd rfl differ⟩
  · exact (surrounds.abs_sub_higher higher).imp_right fun even _ => even

/-- The same goes for negative values, since zero is nearer than they are. -/
theorem abs_sub_le_neg (surrounds : Surrounds rank amount) (other : Nat) :
    |quanta rank - amount| ≤ |-quanta other - amount| ∧
      (|-quanta other - amount| = |quanta rank - amount| → rank % 2 = 0) := by
  obtain ⟨toZero, even⟩ := surrounds.abs_sub_le 0
  have nonneg := surrounds.nonneg
  have negative : (0 : ℚ) ≤ quanta other := Nat.cast_nonneg _
  have distance_eq : |-quanta other - amount| = quanta other + amount := by
    rw [← neg_add', abs_neg, abs_of_nonneg (by linarith)]
  have zero_eq : |(quanta 0 : ℚ) - amount| = amount := by
    rw [quanta_zero, Nat.cast_zero, zero_sub, abs_neg, abs_of_nonneg nonneg]
  rw [zero_eq] at toZero even
  rw [distance_eq]
  refine ⟨by linarith, fun same => ?_⟩
  by_cases isZero : rank = 0
  · rw [isZero]
  · exact even (Ne.symm isZero) (by linarith)

end Surrounds

/-- The rank to which a quotient is rounded has it between its middles. -/
theorem surrounds_nearestRank (num : Nat) {den : Nat} (positive : 0 < den) :
    Surrounds (nearestRank num den) (num / den) := by
  obtain ⟨below, unit, rest, num_eq, unit_eq, rest_lt, rounded⟩ :=
    exists_brackets_div num positive
  have den_pos : (0 : ℚ) < den := by exact_mod_cast positive
  have amount_eq : (num / den : ℚ) = quanta below + rest / den := by
    rw [← num_eq]
    push_cast
    rw [add_div, mul_div_cancel_right₀ _ den_pos.ne']
  have above_eq : (quanta (below + 1) : ℚ) = quanta below + unit := by exact_mod_cast unit_eq
  have part_nonneg : (0 : ℚ) ≤ rest / den := by positivity
  have part_le : (rest / den : ℚ) ≤ unit := by
    rw [div_le_iff₀ den_pos]
    exact_mod_cast Nat.le_of_lt rest_lt
  rw [amount_eq]
  rcases rounded with ⟨short, rank_eq⟩ | ⟨long, rank_eq⟩ | ⟨tie, rank_eq⟩
  · have half : 2 * (rest / den : ℚ) < unit := by
      rw [← mul_div_assoc, div_lt_iff₀ den_pos]
      exact_mod_cast short
    rw [rank_eq]
    exact surrounds_of_le (by linarith) (by linarith) fun isUpper => by linarith
  · have half : (unit : ℚ) < 2 * (rest / den) := by
      rw [← mul_div_assoc, lt_div_iff₀ den_pos]
      exact_mod_cast long
    rw [rank_eq]
    exact surrounds_succ_of_le (by linarith) (by linarith) fun isLower => by linarith
  · have half : 2 * (rest / den : ℚ) = unit := by
      rw [← mul_div_assoc, div_eq_iff den_pos.ne']
      exact_mod_cast tie
    -- Half way between two values, the even rank is chosen.
    rcases Nat.mod_two_eq_zero_or_one below with even | odd
    · rw [rank_eq, even, Nat.add_zero]
      exact surrounds_of_le (by linarith) (by linarith) fun _ => even
    · rw [rank_eq, odd]
      exact surrounds_succ_of_le (by linarith) (by linarith) fun _ => by omega

/-- Rounding is to lie between the middles. -/
theorem nearestRank_eq_iff {num den rank : Nat} (positive : 0 < den) :
    nearestRank num den = rank ↔ Surrounds rank (num / den) := by
  have surrounds := surrounds_nearestRank num positive
  constructor
  · rintro rfl
    exact surrounds
  · exact surrounds.unique

/-- Less than half a quantum is rounded to nothing. -/
theorem surrounds_zero {amount : ℚ} (least : 0 ≤ amount) (small : 2 * amount < 1) :
    Surrounds 0 amount := by
  refine surrounds_of_le (by rwa [quanta_zero]) ?_ fun isUpper => rfl
  rw [quanta_zero, quanta_one]
  norm_num
  exact small.le

end Binary64

/-! ## Decimals -/

namespace Decimal

open Binary64 (Surrounds quanta infinityRank)

/-- The number that a decimal stands for. -/
def value (d : Decimal) : ℚ :=
  d.coefficient * 10 ^ d.exponent

theorem value_ofNat (coefficient e : Nat) :
    value ⟨coefficient, .ofNat e⟩ = (coefficient * 10 ^ e : Nat) := by
  rw [value, Int.ofNat_eq_natCast, zpow_natCast]
  push_cast
  rfl

theorem value_negSucc (coefficient e : Nat) :
    value ⟨coefficient, .negSucc e⟩ = coefficient / (10 ^ (e + 1) : Nat) := by
  rw [value, zpow_negSucc, ← div_eq_mul_inv]
  push_cast
  rfl

section

-- Variables stand for large exponents, so that the powers are not computed.
variable {places least : Nat} (places_eq : places = 1074) (least_eq : least = 400)

include places_eq

include least_eq in
/-- A number that is as large as this is rounded to no finite double. -/
theorem infinityRank_le_of_surrounds {rank : Nat} {amount : ℚ} (surrounds : Surrounds rank amount)
    (large : ((10 ^ least * 2 ^ places : Nat) : ℚ) ≤ amount) : infinityRank ≤ rank := by
  by_contra finite
  have greatest : quanta infinityRank < 10 ^ least * 2 ^ places := by
    rw [places_eq, least_eq]
    decide +kernel
  have here : (quanta rank : ℚ) ≤ quanta infinityRank := by
    exact_mod_cast Binary64.strictMono_quanta.monotone (by omega : rank ≤ infinityRank)
  have above : (quanta (rank + 1) : ℚ) ≤ quanta infinityRank := by
    exact_mod_cast Binary64.strictMono_quanta.monotone (by omega : rank + 1 ≤ infinityRank)
  have upper := surrounds.upper
  have below : (quanta infinityRank : ℚ) < (10 ^ least * 2 ^ places : Nat) := by
    exact_mod_cast greatest
  linarith

/-- A number of less than half a quantum, as its digits tell. -/
theorem two_mul_lt_pow_ten {coefficient e : Nat}
    (small : coefficient.log2 + 1 + 1100 < 3 * (e + 1)) :
    2 * (coefficient * 2 ^ places) < 10 ^ (e + 1) := by
  calc 2 * (coefficient * 2 ^ places)
      = coefficient * 2 ^ (places + 1) := by rw [Nat.mul_left_comm, ← Nat.pow_succ']
    _ < 2 ^ (coefficient.log2 + 1) * 2 ^ (places + 1) :=
        Nat.mul_lt_mul_of_pos_right Nat.lt_log2_self (Nat.two_pow_pos _)
    _ = 2 ^ (coefficient.log2 + 1 + (places + 1)) := (Nat.pow_add ..).symm
    _ ≤ 2 ^ (3 * (e + 1)) := Nat.pow_le_pow_right Nat.two_pos (by omega)
    _ = 8 ^ (e + 1) := Nat.pow_mul ..
    _ ≤ 10 ^ (e + 1) := Nat.pow_le_pow_left (by decide) _

end

/-- A decimal is rounded to the double whose middles it lies between. -/
theorem nearestRank_of_surrounds {d : Decimal} {rank : Nat} (finite : rank < infinityRank)
    (surrounds : Surrounds rank (d.value * 2 ^ 1074)) : d.nearestRank = rank := by
  obtain ⟨coefficient, exponent⟩ := d
  obtain ⟨places, places_eq⟩ : ∃ places, places = 1074 := ⟨_, rfl⟩
  obtain ⟨least, least_eq⟩ : ∃ least, least = 400 := ⟨_, rfl⟩
  rw [← places_eq] at surrounds
  simp only [nearestRank, ← places_eq, ← least_eq, Nat.pow_eq]
  by_cases isZero : coefficient = 0
  · rw [value, isZero, Nat.cast_zero, zero_mul, zero_mul] at surrounds
    rw [if_pos isZero]
    exact (Binary64.surrounds_zero le_rfl (by norm_num)).unique surrounds
  have positive : 0 < coefficient := Nat.pos_of_ne_zero isZero
  rw [if_neg isZero]
  cases exponent with
  | ofNat e =>
    rw [value_ofNat] at surrounds
    dsimp only
    split
    · next large =>
      have bound : 10 ^ least * 2 ^ places ≤ coefficient * 10 ^ e * 2 ^ places :=
        Nat.mul_le_mul_right _ (Nat.le_trans (Nat.pow_le_pow_right (by decide) large)
          (Nat.le_mul_of_pos_left _ positive))
      have infinite := infinityRank_le_of_surrounds places_eq least_eq surrounds
        (by exact_mod_cast bound)
      omega
    · rw [Binary64.nearestRank_eq_iff Nat.one_pos, Nat.cast_one, div_one]
      exact_mod_cast surrounds
  | negSucc e =>
    rw [value_negSucc, div_mul_eq_mul_div] at surrounds
    have scale_pos : 0 < 10 ^ (e + 1) := Nat.pow_pos (by decide)
    dsimp only
    split
    · next small =>
      refine (Binary64.surrounds_zero (by positivity) ?_).unique surrounds
      rw [← mul_div_assoc, div_lt_one (by exact_mod_cast scale_pos)]
      exact_mod_cast two_mul_lt_pow_ten places_eq small
    · rw [Binary64.nearestRank_eq_iff scale_pos]
      exact_mod_cast surrounds

end Decimal

/-! ## The nearest double -/

namespace Number

open Binary64 (Surrounds quanta infinityRank rank isNegative)

/-- A number is rounded to a finite double: no finite double is nearer, and if another one is as
near, the double is the one with the even significand.  From the middle between the greatest finite
double and `2 ^ 1024` on, numbers are not rounded to finite doubles. -/
structure IsNearest (x : Float) (number : ℚ) : Prop where
  finite : rank x < infinityRank
  bounded : |number| < 2 ^ 1024 - 2 ^ 970
  least : ∀ y, rank y < infinityRank → |value x - number| ≤ |value y - number|
  even : ∀ y, rank y < infinityRank → value y ≠ value x →
    |value y - number| = |value x - number| → rank x % 2 = 0

/-- The number with a sign. -/
def withSign (negative : Bool) (magnitude : ℚ) : ℚ :=
  if negative then -magnitude else magnitude

/-- The distance of a double from a number with a sign, in quanta. -/
theorem abs_value_sub_withSign (y : Float) (negative : Bool) (magnitude : ℚ) :
    |value y - withSign negative magnitude| =
      |(if isNegative y = negative then (quanta (rank y) : ℚ) else -quanta (rank y)) -
        magnitude * 2 ^ 1074| / 2 ^ 1074 := by
  rw [value, withSign]
  generalize 1074 = places
  have positive : (0 : ℚ) < 2 ^ places := by positivity
  have factor (number : ℚ) : number / 2 ^ places - magnitude =
      (number - magnitude * 2 ^ places) / 2 ^ places := by
    rw [sub_div, mul_div_cancel_right₀ _ positive.ne']
  have turn (number : ℚ) : |number / 2 ^ places + magnitude| =
      |-number / 2 ^ places - magnitude| := by
    rw [neg_div, ← neg_add', abs_neg]
  cases isNegative y <;> cases negative <;>
    simp only [Bool.false_eq_true, reduceIte, reduceCtorEq, sub_neg_eq_add, turn, neg_neg, factor,
      abs_div, abs_of_pos positive]

/-- From the middle between the greatest finite double and the next power of two on, numbers are not
rounded to finite doubles. -/
theorem lt_last_middle_iff (magnitude : ℚ) : magnitude < 2 ^ 1024 - 2 ^ 970 ↔
    2 * (magnitude * 2 ^ 1074) < quanta (infinityRank - 1) + quanta infinityRank := by
  obtain ⟨half, half_eq⟩ : ∃ half, half = 970 := ⟨_, rfl⟩
  obtain ⟨least, least_eq⟩ : ∃ least, least = 1074 := ⟨_, rfl⟩
  have top_eq : 1024 = 54 + half := by omega
  have last : half + least = 2044 := by omega
  have positive : (0 : ℚ) < 2 * 2 ^ least := by positivity
  have greatest : (quanta (infinityRank - 1) + 2 * 2 ^ (half + least) : ℚ) =
      2 ^ 54 * 2 ^ (half + least) := by exact_mod_cast Binary64.quanta_greatest last
  have top : (quanta infinityRank : ℚ) = 2 ^ 54 * 2 ^ (half + least) := by
    exact_mod_cast Binary64.quanta_infinityRank last
  have middle_eq : (quanta (infinityRank - 1) + quanta infinityRank : ℚ) =
      (2 ^ (54 + half) - 2 ^ half) * (2 * 2 ^ least) := by
    rw [top, eq_sub_of_add_eq greatest, pow_add, pow_add]
    ring
  rw [← half_eq, ← least_eq, top_eq, middle_eq, mul_left_comm, mul_lt_mul_iff_left₀ positive]

/-- A number between the middles around a finite double is rounded to a finite double. -/
theorem lt_of_surrounds {rank : Nat} {magnitude : ℚ} (finite : rank < infinityRank)
    (surrounds : Surrounds rank (magnitude * 2 ^ 1074)) : magnitude < 2 ^ 1024 - 2 ^ 970 := by
  rw [lt_last_middle_iff]
  have upper := surrounds.upper
  obtain inner | greatest : rank + 1 < infinityRank ∨ rank + 1 = infinityRank := by omega
  · have below : (quanta rank : ℚ) ≤ quanta (infinityRank - 1) := by
      exact_mod_cast Binary64.strictMono_quanta.monotone (by omega : rank ≤ infinityRank - 1)
    have above : (quanta (rank + 1) : ℚ) < quanta infinityRank := by
      exact_mod_cast Binary64.strictMono_quanta inner
    exact lt_of_le_of_lt upper (add_lt_add_of_le_of_lt below above)
  · obtain rfl : rank = infinityRank - 1 := by omega
    rw [greatest] at upper
    refine lt_of_le_of_ne upper fun same => ?_
    -- The greatest significand is odd.
    have even := surrounds.even (Or.inr (by rw [greatest, same]))
    exact absurd even (by decide)

theorem abs_withSign (negative : Bool) (magnitude : ℚ) :
    |withSign negative magnitude| = |magnitude| := by
  cases negative
  · rfl
  · exact abs_neg magnitude

/-- Of the doubles with one sign, different ranks have different values. -/
theorem value_eq_iff {x y : Float} (sign_eq : isNegative y = isNegative x) :
    value y = value x ↔ rank y = rank x := by
  rw [value, value, sign_eq, div_left_inj' (by positivity)]
  refine ⟨fun same => ?_, fun rank_eq => by rw [rank_eq]⟩
  have quanta_eq : (quanta (rank y) : ℚ) = quanta (rank x) := by
    split at same
    · exact neg_injective same
    · exact same
  exact Binary64.strictMono_quanta.injective (by exact_mod_cast quanta_eq)

/-- A double is the nearest to the numbers between the middles around it, with its sign. -/
theorem isNearest_of_surrounds {x : Float} {magnitude : ℚ} (finite : rank x < infinityRank)
    (surrounds : Surrounds (rank x) (magnitude * 2 ^ 1074)) :
    IsNearest x (withSign (isNegative x) magnitude) := by
  have positive : (0 : ℚ) < 2 ^ 1074 := by positivity
  have nonneg : 0 ≤ magnitude := nonneg_of_mul_nonneg_left surrounds.nonneg positive
  refine ⟨finite, ?_, fun y _ => ?_, fun y _ differ => ?_⟩
  · rw [abs_withSign, abs_of_nonneg nonneg]
    exact lt_of_surrounds finite surrounds
  · rw [abs_value_sub_withSign, abs_value_sub_withSign, if_pos rfl,
      div_le_div_iff_of_pos_right positive]
    split
    · exact (surrounds.abs_sub_le (rank y)).1
    · exact (surrounds.abs_sub_le_neg (rank y)).1
  · rw [abs_value_sub_withSign, abs_value_sub_withSign, if_pos rfl, div_left_inj' positive.ne']
    split
    · next sign_eq =>
      exact (surrounds.abs_sub_le (rank y)).2 fun same => differ ((value_eq_iff sign_eq).mpr same)
    · exact (surrounds.abs_sub_le_neg (rank y)).2

namespace IsNearest

variable {x : Float} {magnitude : ℚ}

/-- The value of another rank is not nearer, and if it is as near, the rank is even. -/
theorem abs_quanta_sub_le (nearest : IsNearest x (withSign (isNegative x) magnitude)) {other : Nat}
    (finite : other < infinityRank) (differ : other ≠ rank x) :
    |quanta (rank x) - magnitude * 2 ^ 1074| ≤ |quanta other - magnitude * 2 ^ 1074| ∧
      (|quanta other - magnitude * 2 ^ 1074| = |quanta (rank x) - magnitude * 2 ^ 1074| →
        rank x % 2 = 0) := by
  have positive : (0 : ℚ) < 2 ^ 1074 := by positivity
  generalize y_eq : Binary64.ofRank (isNegative x) other = y
  have sign_eq : isNegative y = isNegative x := by rw [← y_eq, Binary64.isNegative_ofRank]
  have rank_eq : rank y = other := by
    rw [← y_eq, Binary64.rank_ofRank, Nat.min_eq_left finite.le]
  have least := nearest.least y (rank_eq ▸ finite)
  have even := nearest.even y (rank_eq ▸ finite)
  rw [Ne, value_eq_iff sign_eq, rank_eq] at even
  have even := even differ
  rw [abs_value_sub_withSign, abs_value_sub_withSign, if_pos rfl, if_pos sign_eq, rank_eq,
    div_le_div_iff_of_pos_right positive] at least
  rw [abs_value_sub_withSign, abs_value_sub_withSign, if_pos rfl, if_pos sign_eq, rank_eq,
    div_left_inj' positive.ne'] at even
  exact ⟨least, even⟩

/-- Conversely, a number lies between the middles around the nearest double. -/
theorem surrounds (nearest : IsNearest x (withSign (isNegative x) magnitude))
    (nonneg : 0 ≤ magnitude) : Surrounds (rank x) (magnitude * 2 ^ 1074) := by
  have finite := nearest.finite
  have positive : (0 : ℚ) < 2 ^ 1074 := by positivity
  have bounded := nearest.bounded
  rw [abs_withSign, abs_of_nonneg nonneg] at bounded
  have neighbour (other : Nat) (isFinite : other < infinityRank) (differ : other ≠ rank x) :=
    nearest.abs_quanta_sub_le isFinite differ
  generalize rank x = here at finite neighbour ⊢
  have lower : (quanta (here - 1) + quanta here : ℚ) ≤ 2 * (magnitude * 2 ^ 1074) ∧
      (2 * (magnitude * 2 ^ 1074) = quanta (here - 1) + quanta here → here % 2 = 0) := by
    cases here with
    | zero =>
      rw [Nat.zero_sub, Binary64.quanta_zero, Nat.cast_zero, add_zero]
      exact ⟨by positivity, fun _ => rfl⟩
    | succ below =>
      obtain ⟨least, even⟩ := neighbour below (by omega) (by omega)
      have less : (quanta below : ℚ) < quanta (below + 1) := by
        exact_mod_cast Binary64.quanta_lt_succ below
      rw [Nat.add_sub_cancel]
      exact ⟨(nearer_greater_iff less).mp least,
        fun isMiddle => even ((as_near_iff less).mpr isMiddle)⟩
  have upper : (2 * (magnitude * 2 ^ 1074) : ℚ) ≤ quanta here + quanta (here + 1) ∧
      (2 * (magnitude * 2 ^ 1074) = quanta here + quanta (here + 1) → here % 2 = 0) := by
    obtain inner | greatest : here + 1 < infinityRank ∨ here + 1 = infinityRank := by omega
    · obtain ⟨least, even⟩ := neighbour (here + 1) inner (by omega)
      have less : (quanta here : ℚ) < quanta (here + 1) := by
        exact_mod_cast Binary64.quanta_lt_succ here
      exact ⟨(nearer_smaller_iff less).mp least,
        fun isMiddle => even ((as_near_iff less).mpr isMiddle).symm⟩
    · obtain rfl : here = infinityRank - 1 := by omega
      rw [lt_last_middle_iff] at bounded
      rw [greatest]
      exact ⟨bounded.le, fun isMiddle => absurd isMiddle bounded.ne⟩
  exact ⟨lower.1, upper.1, fun isMiddle => isMiddle.elim lower.2 upper.2⟩

end IsNearest

end Number

end PrintLang
