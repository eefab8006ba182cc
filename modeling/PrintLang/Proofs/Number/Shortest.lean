import PrintLang.Proofs.Number.Positional
import PrintLang.Number

/-!
# Shortest decimals read back

The search for the shortest decimal ends with a number between the middles around the double, so
this decimal is rounded to the double again.  For a number that is not whole, it has an exponent
below zero, since whole numbers are rounded to whole doubles.  For a whole number up to `2 ^ 53`,
the search ends on a grid of whole numbers, which holds the number itself and no other number
between the middles; so the decimal is the number.

## Main Statements

* `Shortest.Bracket.readsBack_iff` — what the search compares are the middles
* `Shortest.surrounds_decimal`, `Shortest.nearestRank_decimal` — the decimal reads back
* `Shortest.exists_negSucc_of_not_isWhole`, `Shortest.text_decimal_of_le` — when its text has a
  point
-/

namespace PrintLang

namespace Shortest

open Binary64 (Surrounds quanta nearestRank infinityRank)

/-! ## Brackets -/

theorem unitsPerQuantum_pos : 0 < unitsPerQuantum := by
  unfold unitsPerQuantum
  generalize 1074 = places
  exact Nat.pow_pos (by decide)

namespace Bracket

theorem readsBack_ofRank (rank amount : Nat) : (ofRank rank).ReadsBack amount ↔
    units (rank - 1) + units rank ≤ 2 * amount ∧ 2 * amount ≤ units rank + units (rank + 1) ∧
      (2 * amount = units (rank - 1) + units rank ∨ 2 * amount = units rank + units (rank + 1) →
        rank % 2 = 0) := by
  simp only [ReadsBack, ofRank, decide_eq_true_eq]
  split
  · next even => simp [even]
  · next odd =>
    simp only [odd, imp_false]
    omega

/-- A number of units reads back as a double if it lies between the middles around it. -/
theorem readsBack_iff (rank amount : Nat) :
    (ofRank rank).ReadsBack amount ↔ Surrounds rank (amount / unitsPerQuantum) := by
  have positive : (0 : ℚ) < unitsPerQuantum := by exact_mod_cast unitsPerQuantum_pos
  have scaled (lower upper : Nat) : ((quanta lower + quanta upper : ℚ)) * unitsPerQuantum =
      (units lower + units upper : Nat) := by
    rw [units, units]
    push_cast
    ring
  have double (sum : ℚ) : (sum ≤ 2 * (amount / unitsPerQuantum) ↔
      sum * unitsPerQuantum ≤ (2 * amount : Nat)) ∧ (2 * (amount / unitsPerQuantum) ≤ sum ↔
      ((2 * amount : Nat) : ℚ) ≤ sum * unitsPerQuantum) ∧ (2 * (amount / unitsPerQuantum) = sum ↔
      ((2 * amount : Nat) : ℚ) = sum * unitsPerQuantum) := by
    rw [← mul_div_assoc, le_div_iff₀ positive, div_le_iff₀ positive, div_eq_iff positive.ne']
    push_cast
    exact ⟨Iff.rfl, Iff.rfl, Iff.rfl⟩
  rw [readsBack_ofRank, Binary64.surrounds_iff, (double _).1, (double _).2.1, (double _).2.2,
    (double _).2.2, scaled, scaled]
  simp only [Nat.cast_le, Nat.cast_inj]

/-! ## The search -/

/-- A hit on a grid reads back. -/
theorem readsBack_of_onGrid {bracket : Bracket} {unit multiple : Nat}
    (hit : bracket.onGrid unit = some multiple) : bracket.ReadsBack (multiple * unit) := by
  simp only [onGrid] at hit
  split at hit
  · next below =>
    split at hit
    · next above =>
      obtain rfl := Option.some.inj hit
      exact above.1
    · obtain rfl := Option.some.inj hit
      exact below
  · split at hit
    · next above =>
      obtain rfl := Option.some.inj hit
      exact above
    · cases hit

/-- The grid that holds the double itself has a hit if the double reads back. -/
theorem onGrid_ne_none {bracket : Bracket} {unit multiple : Nat} (positive : 0 < unit)
    (value_eq : bracket.value = multiple * unit) (own : bracket.ReadsBack bracket.value) :
    bracket.onGrid unit ≠ none := by
  have below_eq : bracket.value / unit * unit = bracket.value := by
    rw [value_eq, Nat.mul_div_cancel _ positive]
  simp only [onGrid, below_eq, if_pos own]
  split <;> exact Option.some_ne_none _

/-- The search ends on the first grid with a hit, with a number that reads back. -/
theorem exists_search {bracket : Bracket} (own : bracket.ReadsBack bracket.value) (k : Nat) :
    ∃ multiple j : Nat, bracket.search k = ⟨multiple, (j : Int) - 1074⟩ ∧
      bracket.ReadsBack (multiple * Nat.pow 10 j) ∧
      ∀ i ≤ k, bracket.onGrid (Nat.pow 10 i) ≠ none → i ≤ j := by
  induction k with
  | zero =>
    refine ⟨bracket.value, 0, rfl, ?_, fun i least _ => least⟩
    show bracket.ReadsBack (bracket.value * 1)
    rwa [Nat.mul_one]
  | succ k ih =>
    rw [search]
    split
    · next multiple hit =>
      exact ⟨multiple, k + 1, rfl, readsBack_of_onGrid hit, fun i least _ => least⟩
    · next miss =>
      obtain ⟨multiple, j, search_eq, readsBack, first⟩ := ih
      refine ⟨multiple, j, search_eq, readsBack, fun i least hit => ?_⟩
      obtain rfl | lower : i = k + 1 ∨ i ≤ k := by omega
      · exact absurd miss hit
      · exact first i lower hit

end Bracket

theorem readsBack_value (rank : Nat) : (Bracket.ofRank rank).ReadsBack (units rank) := by
  have positive : (0 : ℚ) < unitsPerQuantum := by exact_mod_cast unitsPerQuantum_pos
  rw [Bracket.readsBack_iff, units, Nat.cast_mul, mul_div_cancel_right₀ _ positive.ne']
  exact Binary64.surrounds_quanta rank

/-! ## The shortest decimal -/

/-- A decimal on the grid of some power of ten, counted in quanta. -/
theorem value_mul_quanta (multiple j : Nat) :
    Decimal.value ⟨multiple, (j : Int) - 1074⟩ * 2 ^ 1074 =
      (multiple * Nat.pow 10 j : Nat) / unitsPerQuantum := by
  unfold unitsPerQuantum
  rw [Decimal.value]
  obtain ⟨places, places_eq⟩ : ∃ places, places = 1074 := ⟨_, rfl⟩
  have place_eq : (1074 : Int) = (places : Int) := by rw [places_eq]; rfl
  rw [← places_eq, place_eq, zpow_sub₀ (by norm_num), zpow_natCast, zpow_natCast]
  simp only [Nat.pow_eq]
  have ten_eq : (10 : ℚ) ^ places = 2 ^ places * 5 ^ places := by
    rw [← mul_pow]
    norm_num
  rw [ten_eq]
  push_cast
  field_simp

/-- The shortest decimal lies between the middles around the double. -/
theorem surrounds_decimal (rank : Nat) : Surrounds rank ((decimal rank).value * 2 ^ 1074) := by
  rw [decimal]
  split
  · next isZero =>
    rw [isZero, Decimal.value, Nat.cast_zero, zero_mul, zero_mul]
    exact Binary64.surrounds_quanta 0
  · obtain ⟨multiple, j, search_eq, readsBack, -⟩ :=
      Bracket.exists_search (readsBack_value rank) (digitBound (units rank))
    rw [search_eq, value_mul_quanta, ← Bracket.readsBack_iff]
    exact readsBack

/-- **The shortest decimal reads back.** -/
theorem nearestRank_decimal {rank : Nat} (finite : rank < infinityRank) :
    (decimal rank).nearestRank = rank :=
  Decimal.nearestRank_of_surrounds finite (surrounds_decimal rank)

/-- A whole number lies between the middles around whole doubles only. -/
theorem isWhole_of_surrounds {rank n : Nat} (surrounds : Surrounds rank (n * 2 ^ 1074)) :
    Number.IsWhole rank := by
  have rank_eq : nearestRank (n * Nat.pow 2 1074) 1 = rank := by
    rw [Binary64.nearestRank_eq_iff Nat.one_pos]
    generalize 1074 = places at surrounds ⊢
    rw [Nat.pow_eq, Nat.cast_one, div_one]
    exact_mod_cast surrounds
  exact rank_eq ▸ Number.isWhole_nearestRank n

/-- Other doubles have decimals with an exponent below zero. -/
theorem exists_negSucc_of_not_isWhole {rank : Nat} (notWhole : ¬ Number.IsWhole rank) :
    ∃ coefficient e, decimal rank = ⟨coefficient, .negSucc e⟩ := by
  have surrounds := surrounds_decimal rank
  generalize decimal rank = d at surrounds ⊢
  obtain ⟨coefficient, exponent⟩ := d
  cases exponent with
  | negSucc e => exact ⟨coefficient, e, rfl⟩
  | ofNat e =>
    rw [Decimal.value_ofNat] at surrounds
    exact absurd (isWhole_of_surrounds surrounds) notWhole

/-! ## Small whole numbers -/

section

-- A variable stands for the number of places, so that the powers are not computed.
variable {rank n places : Nat} (places_eq : places = 1074)

include places_eq

/-- The search for a positive whole number starts on a grid of whole numbers. -/
theorem le_digitBound {amount : Nat} (positive : 0 < n)
    (amount_eq : amount = n * Nat.pow 10 places) : places ≤ digitBound amount := by
  have scale : Nat.pow 2 3567 ≤ Nat.pow 10 places := by
    rw [places_eq]
    decide +kernel
  have large : Nat.pow 2 3567 ≤ amount :=
    amount_eq ▸ Nat.le_trans scale (Nat.le_mul_of_pos_left _ positive)
  generalize size_eq : 3567 = size at large
  have notZero : amount ≠ 0 := Nat.ne_of_gt (Nat.lt_of_lt_of_le (Nat.two_pow_pos size) large)
  have log_ge := (Nat.le_log2 notZero).mpr large
  rw [digitBound]
  omega

/-- The next double after a whole number below `2 ^ 53` is at most the next whole number. -/
theorem quanta_succ_le (small : n < 2 ^ 53) (quanta_eq : quanta rank = n * Nat.pow 2 places) :
    quanta (rank + 1) ≤ (n + 1) * Nat.pow 2 places := by
  have next_eq := Binary64.quanta_nearestRank_of_le (by omega : 52 ≤ places)
    (Nat.succ_le_of_lt small)
  have above : rank < nearestRank ((n + 1) * Nat.pow 2 places) 1 := by
    rw [← Binary64.strictMono_quanta.lt_iff_lt, quanta_eq, next_eq]
    exact Nat.mul_lt_mul_of_pos_right (Nat.lt_succ_self n) (Nat.two_pow_pos places)
  rw [← next_eq]
  exact Binary64.strictMono_quanta.monotone above

/-- No other whole number lies between the middles around a whole number below `2 ^ 53`. -/
theorem eq_of_surrounds {other : Nat} (small : n < 2 ^ 53)
    (quanta_eq : quanta rank = n * Nat.pow 2 places)
    (surrounds : Surrounds rank (other * 2 ^ places)) : other = n := by
  have positive := Nat.two_pow_pos places
  have upper : 2 * (other * 2 ^ places) ≤ quanta rank + quanta (rank + 1) := by
    exact_mod_cast surrounds.upper
  have next_le := quanta_succ_le places_eq small quanta_eq
  have other_le : other ≤ n := by
    rw [Nat.pow_eq] at quanta_eq next_le
    have bound : (2 * other) * 2 ^ places ≤ (2 * n + 1) * 2 ^ places := by linarith
    have halves := Nat.le_of_mul_le_mul_right bound positive
    omega
  -- Up to `2 ^ 53` whole numbers are not rounded.
  have exact_eq := Binary64.quanta_nearestRank_of_le (by omega : 52 ≤ places)
    (by omega : other ≤ 2 ^ 53)
  have rank_eq : nearestRank (other * Nat.pow 2 places) 1 = rank := by
    rw [Binary64.nearestRank_eq_iff Nat.one_pos, Nat.pow_eq, Nat.cast_one, div_one]
    exact_mod_cast surrounds
  rw [rank_eq, quanta_eq] at exact_eq
  exact (Nat.eq_of_mul_eq_mul_right positive exact_eq).symm

/-- The shortest decimal for a positive whole number below `2 ^ 53` is this number. -/
theorem exists_decimal_of_lt (positive : 0 < n) (small : n < 2 ^ 53)
    (quanta_eq : quanta rank = n * Nat.pow 2 places) :
    ∃ coefficient e : Nat, decimal rank = ⟨coefficient, .ofNat e⟩ ∧ coefficient * 10 ^ e = n := by
  have surrounds := surrounds_decimal rank
  have notZero : rank ≠ 0 := by
    rintro rfl
    exact absurd quanta_eq.symm (Nat.ne_of_gt (Nat.mul_pos positive (Nat.two_pow_pos places)))
  have units_eq : units rank = n * Nat.pow 10 places := by
    unfold units unitsPerQuantum
    rw [quanta_eq, ← places_eq, Nat.mul_assoc, Nat.pow_eq, Nat.pow_eq, Nat.pow_eq, ← Nat.mul_pow]
  have own := readsBack_value rank
  obtain ⟨multiple, j, search_eq, -, first⟩ := Bracket.exists_search own (digitBound (units rank))
  have le_j : places ≤ j := first places (le_digitBound places_eq positive units_eq)
    (Bracket.onGrid_ne_none (Nat.pow_pos (by decide)) units_eq own)
  obtain ⟨e, rfl⟩ := Nat.exists_eq_add_of_le le_j
  have exponent_eq : ((places + e : Nat) : Int) - 1074 = .ofNat e := by
    rw [Int.ofNat_eq_natCast]
    omega
  have decimal_eq : decimal rank = ⟨multiple, .ofNat e⟩ := by
    rw [decimal, if_neg notZero, search_eq, exponent_eq]
  rw [decimal_eq, Decimal.value_ofNat, ← places_eq] at surrounds
  exact ⟨multiple, e, decimal_eq, eq_of_surrounds places_eq small quanta_eq surrounds⟩

end

/-- The rank of `2 ^ 53`.  The next whole number is half way to the next double and reads back, too,
but it is not nearer. -/
theorem decimal_two_pow : quanta (1076 * 2 ^ 52) = 2 ^ 53 * Nat.pow 2 1074 ∧
    decimal (1076 * 2 ^ 52) = ⟨2 ^ 53, 0⟩ := by
  decide +kernel

/-- **The shortest decimal for a whole number up to `2 ^ 53` is written with its digits.** -/
theorem text_decimal_of_le {rank n : Nat} (small : n ≤ 2 ^ 53)
    (quanta_eq : quanta rank = n * Nat.pow 2 1074) :
    (decimal rank).text = String.ofList (Decimal.digits n) := by
  have rank_eq {other : Nat} (same : quanta other = n * Nat.pow 2 1074) : rank = other :=
    Binary64.strictMono_quanta.injective (quanta_eq.trans same.symm)
  obtain rfl | rfl | ⟨positive, below⟩ : n = 0 ∨ n = 2 ^ 53 ∨ 0 < n ∧ n < 2 ^ 53 := by omega
  · rw [rank_eq (Binary64.quanta_zero.trans (Nat.zero_mul (Nat.pow 2 1074)).symm)]
    rfl
  · rw [rank_eq decimal_two_pow.1, decimal_two_pow.2]
    show String.ofList (_ ++ []) = _
    rw [List.append_nil]
  · generalize places_eq : 1074 = places at quanta_eq
    obtain ⟨coefficient, e, decimal_eq, rfl⟩ :=
      exists_decimal_of_lt places_eq.symm positive below quanta_eq
    rw [decimal_eq, ← Decimal.digits_append_zeros (Nat.pos_of_mul_pos_right positive)]
    rfl

end Shortest

end PrintLang
