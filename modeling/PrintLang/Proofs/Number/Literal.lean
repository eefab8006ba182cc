import PrintLang.Proofs.Number.Encoding
import PrintLang.Proofs.Token.Segmentation
import PrintLang.Number
import PrintLang.Decimal.Numeral

/-!
# Numbers that digits denote

The numbers of a source text are written as digits without sign, point and exponent.  They denote
the whole numbers among the doubles, since doubles from `2 ^ 53` on are whole anyway and smaller
whole numbers are not rounded, and beyond the largest double they denote infinity.  Conversely,
each of these doubles is denoted by its own digits.

## Main Definitions

* `Number.IsLiteral` — zero, the positive whole numbers and infinity
* `Number.literal` — digits for such a number

## Main Statements

* `Binary64.nearestRank_quanta` — rounding the value of a double gives the double
* `IsDigits.isLiteral_of_ofNumeral?` — digits denote nothing else
* `Number.ofNumeral?_literal` — the digits of such a number denote it
-/

namespace PrintLang

namespace Binary64

/-! ## Significands -/

theorem roundQuotient_mul (n : Nat) {unit : Nat} (positive : 0 < unit) :
    roundQuotient (n * unit) unit = n := by
  simp [roundQuotient, Nat.mul_div_cancel n positive, positive]

/-- Rounding goes to one of the two neighbours. -/
theorem roundQuotient_bounds (num den : Nat) :
    num / den ≤ roundQuotient num den ∧ roundQuotient num den ≤ num / den + 1 := by
  simp only [roundQuotient]
  split
  · omega
  · split <;> omega

/-- A significand with the implicit digit, and one that rounding has carried past its last digit,
stands for its product with a power of two. -/
theorem quanta_significand (exponent : Nat) {significand : Nat} (least : 2 ^ 52 ≤ significand)
    (greatest : significand ≤ 2 ^ 53) :
    quanta (exponent * 2 ^ 52 + significand) = significand * 2 ^ exponent := by
  have notZero (k : Nat) : k + 1 ≠ 0 := by omega
  obtain below | rfl : significand < 2 ^ 53 ∨ significand = 2 ^ 53 := by omega
  · have exponent_eq : (exponent * 2 ^ 52 + significand) / 2 ^ 52 = exponent + 1 := by omega
    have fraction_eq : (exponent * 2 ^ 52 + significand) % 2 ^ 52 = significand - 2 ^ 52 := by
      omega
    simp only [quanta, Nat.pow_eq, exponent_eq, fraction_eq, if_neg (notZero _)]
    rw [Nat.add_sub_cancel' least, Nat.add_sub_cancel]
  · have exponent_eq : (exponent * 2 ^ 52 + 2 ^ 53) / 2 ^ 52 = exponent + 1 + 1 := by omega
    have fraction_eq : (exponent * 2 ^ 52 + 2 ^ 53) % 2 ^ 52 = 0 := by omega
    simp only [quanta, Nat.pow_eq, exponent_eq, fraction_eq, if_neg (notZero _)]
    rw [Nat.add_sub_cancel, Nat.pow_succ]
    omega

theorem quanta_of_lt {rank : Nat} (small : rank < 2 ^ 52) : quanta rank = rank := by
  have exponent_eq : rank / 2 ^ 52 = 0 := by omega
  have fraction_eq : rank % 2 ^ 52 = rank := by omega
  simp only [quanta, Nat.pow_eq, exponent_eq, fraction_eq, if_pos]

/-! ## Rounding to doubles -/

/-- Rounding the value of a double gives the double. -/
theorem nearestRank_quanta (rank : Nat) : nearestRank (quanta rank) 1 = rank := by
  obtain small | large : rank < 2 ^ 52 ∨ 2 ^ 52 ≤ rank := by omega
  · have short : rank.log2 - 52 = 0 := by
      by_cases isZero : rank = 0
      · subst isZero
        rfl
      · have log_lt := (Nat.log2_lt isZero).mpr small
        omega
    have kept := roundQuotient_mul rank Nat.one_pos
    rw [Nat.mul_one] at kept
    simp only [nearestRank, quanta_of_lt small, Nat.div_one, short, Nat.pow_eq, Nat.pow_zero,
      Nat.mul_one, Nat.zero_mul, kept, Nat.zero_add]
  · obtain ⟨exponent, significand, least, below, rfl⟩ : ∃ exponent significand,
        2 ^ 52 ≤ significand ∧ significand < 2 ^ 53 ∧ rank = exponent * 2 ^ 52 + significand :=
      ⟨rank / 2 ^ 52 - 1, 2 ^ 52 + rank % 2 ^ 52, by omega, by omega, by omega⟩
    have positive : 0 < 2 ^ exponent := Nat.two_pow_pos exponent
    have log_eq : (significand * 2 ^ exponent).log2 = exponent + 52 := by
      have notZero : significand * 2 ^ exponent ≠ 0 := Nat.mul_ne_zero (by omega) (by omega)
      refine (Nat.log2_eq_iff notZero).mpr ⟨?_, ?_⟩
      · rw [Nat.add_comm, Nat.pow_add]
        exact Nat.mul_le_mul_right _ least
      · rw [Nat.add_right_comm, Nat.add_assoc, Nat.add_comm, Nat.pow_add]
        exact Nat.mul_lt_mul_of_pos_right below positive
    simp only [nearestRank, quanta_significand exponent least (Nat.le_of_lt below), Nat.div_one,
      log_eq, Nat.add_sub_cancel, Nat.pow_eq, Nat.one_mul, roundQuotient_mul _ positive]

/-- The value of the double nearest to a number with at least 53 binary digits. -/
theorem quanta_nearestRank {num : Nat} (large : 2 ^ 52 ≤ num) :
    quanta (nearestRank num 1) =
      roundQuotient num (2 ^ (num.log2 - 52)) * 2 ^ (num.log2 - 52) := by
  have notZero : num ≠ 0 := by omega
  have log_ge : 52 ≤ num.log2 := (Nat.le_log2 notZero).mpr large
  obtain ⟨exponent, log_eq⟩ := Nat.exists_eq_add_of_le log_ge
  have exponent_eq : num.log2 - 52 = exponent := by omega
  obtain ⟨lower, upper⟩ := (Nat.log2_eq_iff notZero).mp log_eq
  have positive : 0 < 2 ^ exponent := Nat.two_pow_pos exponent
  have least : 2 ^ 52 ≤ num / 2 ^ exponent := by
    rw [Nat.le_div_iff_mul_le positive, ← Nat.pow_add]
    exact lower
  have below : num / 2 ^ exponent < 2 ^ 53 := by
    rw [Nat.div_lt_iff_lt_mul positive, ← Nat.pow_add, Nat.add_right_comm 52 1]
    exact upper
  obtain ⟨ge, le⟩ := roundQuotient_bounds num (2 ^ exponent)
  simp only [nearestRank, Nat.div_one, exponent_eq, Nat.pow_eq, Nat.one_mul]
  exact quanta_significand exponent (Nat.le_trans least ge) (by omega)

/-- Rounding keeps multiples of a power of two: either no digit of the number is cut off, or the
significand is followed by more zeros. -/
theorem dvd_quanta_nearestRank (n : Nat) {places : Nat} (large : 52 ≤ places) :
    Nat.pow 2 places ∣ quanta (nearestRank (n * Nat.pow 2 places) 1) := by
  rw [Nat.pow_eq]
  obtain rfl | positive := Nat.eq_zero_or_pos n
  · rw [Nat.zero_mul]
    exact Nat.dvd_zero _
  have least : 2 ^ 52 ≤ n * 2 ^ places :=
    Nat.le_trans (Nat.pow_le_pow_right Nat.two_pos large) (Nat.le_mul_of_pos_left _ positive)
  rw [quanta_nearestRank least]
  generalize (n * 2 ^ places).log2 - 52 = exponent
  obtain zeros | fits := Nat.le_or_ge places exponent
  · exact Nat.dvd_mul_left_of_dvd (Nat.pow_dvd_pow 2 zeros) _
  · have exact_eq : n * 2 ^ places = n * 2 ^ (places - exponent) * 2 ^ exponent := by
      rw [Nat.mul_assoc, ← Nat.pow_add, Nat.sub_add_cancel fits]
    rw [exact_eq, roundQuotient_mul _ (Nat.two_pow_pos exponent), ← exact_eq]
    exact Nat.dvd_mul_left _ _

end Binary64

/-! ## Whole numbers -/

namespace Number

open Binary64 (infinityRank rank quanta nearestRank isNegative)

/-- The double nearest to a whole number is whole. -/
theorem isWhole_nearestRank (n : Nat) : IsWhole (nearestRank (n * Nat.pow 2 1074) 1) := by
  unfold IsWhole
  generalize places_eq : 1074 = places
  have large : 52 ≤ places := by omega
  exact Nat.mod_eq_zero_of_dvd (Binary64.dvd_quanta_nearestRank n large)

/-- A double is whole if its value is a multiple of the quanta in one. -/
theorem isWhole_of_quanta_eq {rank n : Nat} (quanta_eq : quanta rank = n * Nat.pow 2 1074) :
    IsWhole rank ∧ quanta rank / Nat.pow 2 1074 = n := by
  unfold IsWhole
  generalize 1074 = places at quanta_eq ⊢
  rw [quanta_eq]
  exact ⟨Nat.mul_mod_left n _, Nat.mul_div_cancel n (Nat.two_pow_pos places)⟩

theorem exists_quanta_eq {rank : Nat} (isWhole : IsWhole rank) :
    ∃ n, quanta rank = n * Nat.pow 2 1074 := by
  unfold IsWhole at isWhole
  generalize 1074 = places at isWhole ⊢
  exact ⟨_, (Nat.div_mul_cancel (Nat.dvd_of_mod_eq_zero isWhole)).symm⟩

/-- The number is zero, a positive whole number or infinity, and has no sign. -/
def IsLiteral (x : Float) : Prop :=
  isNegative x = false ∧ (rank x = infinityRank ∨ rank x < infinityRank ∧ IsWhole (rank x))

instance (x : Float) : Decidable (IsLiteral x) := by
  unfold IsLiteral
  infer_instance

/-- Digits for a number: those of its value, and for infinity a one with 309 zeros, which is more
than the largest double. -/
def literal (x : Float) : List Char :=
  if rank x = infinityRank then '1' :: List.replicate 309 '0'
  else Decimal.digits (quanta (rank x) / Nat.pow 2 1074)

end Number

/-- A decimal without places stands for a whole number. -/
theorem Decimal.nearestRank_whole (n : Nat) :
    nearestRank ⟨n, 0⟩ = Binary64.nearestRank (n * Nat.pow 2 1074) 1 := by
  simp only [nearestRank]
  generalize Nat.pow 2 1074 = unit
  split
  · next isZero =>
    rw [isZero, Nat.zero_mul]
    rfl
  · next notZero =>
    have one_eq : Nat.pow 10 0 = 1 := rfl
    rw [if_neg (by decide), one_eq, Nat.mul_one]

theorem Decimal.ofDigits_digits (n : Nat) : ofDigits (digits n) = n := by
  have read := Nat.ofDigitChars_ten_toDigits (n := n)
  rw [Nat.ofDigitChars_eq_foldl] at read
  exact read

theorem Decimal.isDigits_digits (n : Nat) : IsDigits (digits n) :=
  ⟨Nat.toDigits_ne_nil, fun c => Nat.isDigit_of_mem_toDigits (by decide) (by decide)⟩

/-- Digits denote the double nearest to the whole number that they write. -/
theorem IsDigits.ofNumeral?_eq {digits : List Char} (isDigits : IsDigits digits) :
    Number.ofNumeral? (String.ofList digits) = some (Binary64.ofRank false
      (Binary64.nearestRank (Decimal.ofDigits digits * Nat.pow 2 1074) 1)) := by
  obtain ⟨nonempty, members⟩ := isDigits
  have span_eq : digits.span Char.isDigit = (digits, []) := by
    rw [List.span_eq_takeWhile_dropWhile, List.takeWhile_eq_self_iff.mpr members,
      List.dropWhile_eq_nil_iff.mpr members]
  have denotes : Decimal.ofNumeral? digits = some ⟨Decimal.ofDigits digits, 0⟩ := by
    rw [Decimal.ofNumeral?, span_eq]
    simp [nonempty]
  obtain ⟨first, rest, rfl⟩ := List.exists_cons_of_ne_nil nonempty
  have isDigit := members first List.mem_cons_self
  -- The first digit is no sign, so all characters belong to the decimal.
  have notMinus : first ≠ '-' := by
    rintro rfl
    cases isDigit
  have notPlus : first ≠ '+' := by
    rintro rfl
    cases isDigit
  rw [← Decimal.nearestRank_whole]
  simp [Number.ofNumeral?, notMinus, notPlus, denotes]

/-- Digits denote a number that is zero, positive and whole, or infinity. -/
theorem IsDigits.isLiteral_of_ofNumeral? {digits : List Char} (isDigits : IsDigits digits)
    {x : Float} (denotes : Number.ofNumeral? (String.ofList digits) = some x) :
    Number.IsLiteral x := by
  rw [isDigits.ofNumeral?_eq] at denotes
  obtain rfl := Option.some.inj denotes
  rw [Number.IsLiteral, Binary64.isNegative_ofRank, Binary64.rank_ofRank]
  refine ⟨rfl, ?_⟩
  obtain finite | infinite := Nat.lt_or_ge
    (Binary64.nearestRank (Decimal.ofDigits digits * Nat.pow 2 1074) 1) Binary64.infinityRank
  · rw [Nat.min_eq_left (Nat.le_of_lt finite)]
    exact Or.inr ⟨finite, Number.isWhole_nearestRank _⟩
  · exact Or.inl (Nat.min_eq_right infinite)

namespace Number

open Binary64 (infinityRank rank quanta nearestRank)

theorem isDigits_literal (x : Float) : IsDigits (literal x) := by
  rw [literal]
  split
  · refine ⟨List.cons_ne_nil _ _, List.forall_mem_cons.mpr ⟨rfl, fun c member => ?_⟩⟩
    rw [List.eq_of_mem_replicate member]
    rfl
  · exact Decimal.isDigits_digits _

/-- A one with 309 zeros is rounded past the largest double. -/
theorem infinityRank_le_of_literal {x : Float} (infinite : rank x = infinityRank) :
    infinityRank ≤ nearestRank (Decimal.ofDigits (literal x) * Nat.pow 2 1074) 1 := by
  rw [literal, if_pos infinite]
  decide +kernel

/-- **The digits of a zero, of a positive whole number and of infinity denote that number.** -/
theorem ofNumeral?_literal {x : Float} (isLiteral : IsLiteral x) :
    ofNumeral? (String.ofList (literal x)) = some x := by
  obtain ⟨notNegative, size⟩ := isLiteral
  have isNumber : rank x ≤ infinityRank := by omega
  have x_eq := Binary64.ofRank_rank isNumber
  rw [notNegative] at x_eq
  rw [(isDigits_literal x).ofNumeral?_eq]
  refine congrArg some (Eq.trans ?_ x_eq)
  obtain infinite | ⟨finite, whole⟩ := size
  · rw [infinite, Binary64.ofRank, Binary64.ofRank, Nat.min_self,
      Nat.min_eq_right (infinityRank_le_of_literal infinite)]
  · rw [literal, if_neg (Nat.ne_of_lt finite)]
    have whole_eq : quanta (rank x) / Nat.pow 2 1074 * Nat.pow 2 1074 = quanta (rank x) :=
      Nat.div_mul_cancel (Nat.dvd_of_mod_eq_zero whole)
    rw [Decimal.ofDigits_digits, whole_eq, Binary64.nearestRank_quanta]

end Number

end PrintLang
