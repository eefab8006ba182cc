import PrintLang.Proofs.Number.Shortest
import PrintLang.Proofs.Number.Encoding
import PrintLang.Tree
import PrintLang.Value

/-!
# The texts of a number read back

The text that programs print for a finite double has digits on both sides of a point.  For a whole
number they are all of its digits and a zero; for any other number they are those of the shortest
decimal.  In both cases the number that is written lies between the middles around the double, so a
reader that rounds correctly gets the same double, bit by bit.  This is the only argument there is:
that different doubles have different texts follows, and so does that the two forms never collide.

## Main Definitions

* `Number.denoted` — the number that a sign and the digits around a point write

## Main Statements

* `Number.exists_pointed` — the form of a magnitude and what it denotes
* `Number.ofNumeral?_canonicalText` — the text that is printed reads back
* `Value.display_number_reads_back` — all of this for every double
-/

namespace PrintLang

namespace Number

open Binary64 (infinityRank rank quanta isNegative Surrounds)

/-! ## Magnitudes -/

/-- The digits that are printed for a finite magnitude. -/
def canonicalMagnitude (rank : Nat) : String :=
  if IsWhole rank then (Decimal.mk (quanta rank / Nat.pow 2 1074) 0).text ++ ".0"
  else (Shortest.decimal rank).text

theorem canonicalText_eq (x : Float) : canonicalText x = textBy canonicalMagnitude x :=
  rfl

theorem canonicalMagnitude_of_whole {rank n : Nat} (quanta_eq : quanta rank = n * Nat.pow 2 1074) :
    canonicalMagnitude rank = String.ofList (Decimal.digits n) ++ ".0" := by
  obtain ⟨isWhole, whole_eq⟩ := isWhole_of_quanta_eq quanta_eq
  rw [canonicalMagnitude, if_pos isWhole, whole_eq]
  show String.ofList (Decimal.digits n ++ []) ++ ".0" = _
  rw [List.append_nil]

/-- The form of a magnitude: digits on both sides of a point, which write a number between the
middles around the double.  The digits after the point are a zero if the number is whole, and then
the number that they write is the double itself. -/
theorem exists_pointed (rank : Nat) : ∃ whole fraction, IsDigits whole ∧ IsDigits fraction ∧
    canonicalMagnitude rank = String.ofList (whole ++ '.' :: fraction) ∧
    (fraction = ['0'] ↔ IsWhole rank) ∧
    (IsWhole rank → (Decimal.positional whole fraction).value * 2 ^ 1074 = quanta rank) ∧
    Surrounds rank ((Decimal.positional whole fraction).value * 2 ^ 1074) := by
  by_cases isWhole : IsWhole rank
  · obtain ⟨n, quanta_eq⟩ := exists_quanta_eq isWhole
    have value_eq : (Decimal.positional (Decimal.digits n) ['0']).value * 2 ^ 1074 =
        quanta rank := by
      rw [Decimal.value_positional_zero, Decimal.ofDigits_digits, quanta_eq]
      generalize 1074 = places
      rw [Nat.pow_eq]
      push_cast
      rfl
    have isZero : IsDigits ['0'] := ⟨by decide, List.all_eq_true.mp rfl⟩
    refine ⟨Decimal.digits n, ['0'], Decimal.isDigits_digits n, isZero, ?_,
      iff_of_true rfl isWhole, fun _ => value_eq, ?_⟩
    · rw [canonicalMagnitude_of_whole quanta_eq, String.ofList_append]
    · rw [value_eq]
      exact Binary64.surrounds_quanta rank
  · obtain ⟨coefficient, e, decimal_eq⟩ := Shortest.exists_negSucc_of_not_isWhole isWhole
    have surrounds := Shortest.surrounds_decimal rank
    obtain ⟨whole, fraction, wholeDigits, fractionDigits, text_eq, positional_eq⟩ :=
      Decimal.exists_pointed coefficient e
    rw [decimal_eq, ← positional_eq] at surrounds
    refine ⟨whole, fraction, wholeDigits, fractionDigits, ?_, iff_of_false ?_ isWhole,
      fun whole => absurd whole isWhole, surrounds⟩
    · rw [canonicalMagnitude, if_neg isWhole, decimal_eq, text_eq]
    · rintro rfl
      rw [Decimal.value_positional_zero] at surrounds
      exact isWhole (Shortest.isWhole_of_surrounds surrounds)

/-! ## Reading back -/

/-- A text of digits and a point that denotes a number which is rounded to the double of a rank. -/
def WritesRank (text : String) (rank : Nat) : Prop :=
  ∃ (digits : List Char) (d : Decimal), text = String.ofList digits ∧
    (∀ c ∈ digits, c.isDigit ∨ c = '.') ∧ (∃ c ∈ digits.head?, c.isDigit) ∧
    Decimal.ofNumeral? digits = some d ∧ d.nearestRank = rank

theorem writesRank_pointed {whole fraction : List Char} {rank : Nat} (isWhole : IsDigits whole)
    (isFraction : IsDigits fraction)
    (rank_eq : (Decimal.positional whole fraction).nearestRank = rank) :
    WritesRank (String.ofList (whole ++ '.' :: fraction)) rank := by
  obtain ⟨first, rest, rfl⟩ := List.exists_cons_of_ne_nil isWhole.1
  refine ⟨_, _, rfl, fun c member => ?_, ⟨first, rfl, isWhole.2 first List.mem_cons_self⟩,
    Decimal.ofNumeral?_pointed isWhole isFraction, rank_eq⟩
  rcases List.mem_append.mp member with digit | tail
  · exact Or.inl (isWhole.2 c digit)
  · rcases List.mem_cons.mp tail with point | digit
    · exact Or.inr point
    · exact Or.inl (isFraction.2 c digit)

theorem writesRank_digits {whole : List Char} {rank : Nat} (isWhole : IsDigits whole)
    (rank_eq : (Decimal.positional whole []).nearestRank = rank) :
    WritesRank (String.ofList whole) rank := by
  obtain ⟨first, rest, rfl⟩ := List.exists_cons_of_ne_nil isWhole.1
  exact ⟨_, _, rfl, fun c digit => Or.inl (isWhole.2 c digit),
    ⟨first, rfl, isWhole.2 first List.mem_cons_self⟩, Decimal.ofNumeral?_digits isWhole, rank_eq⟩

theorem writesRank_canonicalMagnitude {rank : Nat} (finite : rank < infinityRank) :
    WritesRank (canonicalMagnitude rank) rank := by
  obtain ⟨whole, fraction, isWhole, isFraction, text_eq, -, -, surrounds⟩ := exists_pointed rank
  rw [text_eq]
  exact writesRank_pointed isWhole isFraction (Decimal.nearestRank_of_surrounds finite surrounds)

/-- The text of the shortest decimal, which has a point or not. -/
theorem writesRank_text_decimal {rank : Nat} (finite : rank < infinityRank) :
    WritesRank (Shortest.decimal rank).text rank := by
  have surrounds := Shortest.surrounds_decimal rank
  have readsBack := Shortest.nearestRank_decimal finite
  generalize Shortest.decimal rank = d at surrounds readsBack ⊢
  obtain ⟨coefficient, exponent⟩ := d
  cases exponent with
  | ofNat e =>
    obtain ⟨whole, isWhole, text_eq, ofDigits_eq⟩ := Decimal.exists_digits coefficient e
    rw [text_eq]
    refine writesRank_digits isWhole (Decimal.nearestRank_of_surrounds finite ?_)
    rw [Decimal.value_positional_nil, ofDigits_eq, ← Decimal.value_ofNat]
    exact surrounds
  | negSucc e =>
    obtain ⟨whole, fraction, isWhole, isFraction, text_eq, positional_eq⟩ :=
      Decimal.exists_pointed coefficient e
    rw [← positional_eq] at readsBack
    rw [text_eq]
    exact writesRank_pointed isWhole isFraction readsBack

/-- Texts whose finite magnitudes read back read back with their signs, and so does infinity. -/
theorem ofNumeral?_textBy {finite : Nat → String}
    (writes : ∀ rank < infinityRank, WritesRank (finite rank) rank) {x : Float}
    (isNumber : rank x ≤ infinityRank) : ofNumeral? (textBy finite x) = some x := by
  have x_eq := Binary64.ofRank_rank isNumber
  obtain infinite | isFinite := Nat.eq_or_lt_of_le isNumber
  · rw [textBy_of_infinite finite infinite]
    rw [infinite] at x_eq
    rw [← x_eq, Binary64.isNegative_ofRank]
    cases isNegative x <;> decide +kernel
  · obtain ⟨digits, d, text_eq, -, first, denotes, rank_eq⟩ := writes _ isFinite
    rw [textBy_of_finite finite isFinite, text_eq, ofNumeral?_signed _ first denotes, rank_eq, x_eq]

/-- **The text that programs print for a number reads back.** -/
theorem ofNumeral?_canonicalText {x : Float} (isNumber : rank x ≤ infinityRank) :
    ofNumeral? (canonicalText x) = some x :=
  ofNumeral?_textBy (fun _ => writesRank_canonicalMagnitude) isNumber

/-- So does the text in displays of syntax trees. -/
theorem ofNumeral?_plainText {x : Float} (isNumber : rank x ≤ infinityRank) :
    ofNumeral? (plainText x) = some x :=
  ofNumeral?_textBy (fun _ => writesRank_text_decimal) isNumber

/-! ## Values -/

theorem value_eq_withSign (x : Float) :
    value x = withSign (isNegative x) (quanta (rank x) / 2 ^ 1074) := by
  rw [value, withSign]
  split
  · rw [neg_div]
  · rfl

theorem abs_value (x : Float) : |value x| = quanta (rank x) / 2 ^ 1074 := by
  rw [value_eq_withSign, abs_withSign, abs_of_nonneg (by positivity)]

theorem quanta_eq_of_value_eq {x : Float} {n : ℤ} (value_eq : value x = n) :
    quanta (rank x) = n.natAbs * Nat.pow 2 1074 := by
  have abs_eq := abs_value x
  rw [value_eq, ← Int.cast_abs, Int.abs_eq_natAbs, Int.cast_natCast] at abs_eq
  generalize 1074 = places at abs_eq ⊢
  rw [eq_div_iff (by positivity)] at abs_eq
  rw [Nat.pow_eq]
  exact_mod_cast abs_eq.symm

/-- The value of a double is an integer if its magnitude is whole. -/
theorem isWhole_iff (x : Float) : IsWhole (rank x) ↔ ∃ n : ℤ, value x = n := by
  constructor
  · intro isWhole
    obtain ⟨n, quanta_eq⟩ := exists_quanta_eq isWhole
    have abs_eq := abs_value x
    rw [quanta_eq] at abs_eq
    generalize 1074 = places at abs_eq
    rw [Nat.pow_eq, Nat.cast_mul, Nat.cast_pow, Nat.cast_ofNat,
      mul_div_cancel_right₀ _ (by positivity)] at abs_eq
    rcases eq_or_eq_neg_of_abs_eq abs_eq with eq | eq
    · exact ⟨n, by exact_mod_cast eq⟩
    · exact ⟨-n, by exact_mod_cast eq⟩
  · rintro ⟨n, eq⟩
    exact (isWhole_of_quanta_eq (quanta_eq_of_value_eq eq)).1

/-- The number that a sign and the digits before and after a point write. -/
def denoted (negative : Bool) (whole fraction : List Char) : ℚ :=
  withSign negative (Decimal.ofDigits whole + Decimal.ofDigits fraction / 10 ^ fraction.length)

/-- Only one double with a sign is the nearest to the numbers between the middles around it. -/
theorem isNearest_iff_eq {x : Float} {magnitude : ℚ} (finite : rank x < infinityRank)
    (surrounds : Surrounds (rank x) (magnitude * 2 ^ 1074)) (y : Float) :
    isNegative y = isNegative x ∧ IsNearest y (withSign (isNegative x) magnitude) ↔ y = x := by
  constructor
  · rintro ⟨sign_eq, nearest⟩
    have nonneg : 0 ≤ magnitude :=
      nonneg_of_mul_nonneg_left surrounds.nonneg (by positivity : (0 : ℚ) < 2 ^ 1074)
    rw [← sign_eq] at nearest
    have rank_eq := (nearest.surrounds nonneg).unique surrounds
    rw [← Binary64.ofRank_rank nearest.finite.le, ← Binary64.ofRank_rank finite.le, sign_eq,
      rank_eq]
  · rintro rfl
    exact ⟨rfl, isNearest_of_surrounds finite surrounds⟩

/-- The form of the text of a finite double, and what it denotes. -/
theorem exists_canonicalText {x : Float} (finite : rank x < infinityRank) :
    ∃ whole fraction, IsDigits whole ∧ IsDigits fraction ∧
      canonicalText x = signed (isNegative x) (String.ofList (whole ++ '.' :: fraction)) ∧
      (fraction = ['0'] ↔ ∃ n : ℤ, value x = n) ∧
      (fraction = ['0'] → denoted (isNegative x) whole fraction = value x) ∧
      ∀ y, isNegative y = isNegative x ∧ IsNearest y (denoted (isNegative x) whole fraction) ↔
        y = x := by
  obtain ⟨whole, fraction, isWhole, isFraction, text_eq, zero_iff, exact_eq, surrounds⟩ :=
    exists_pointed (rank x)
  have denoted_eq : denoted (isNegative x) whole fraction =
      withSign (isNegative x) (Decimal.positional whole fraction).value := by
    rw [denoted, Decimal.value_positional]
  refine ⟨whole, fraction, isWhole, isFraction, ?_, zero_iff.trans (isWhole_iff x), fun zero => ?_,
    fun y => ?_⟩
  · rw [canonicalText_eq, textBy_of_finite _ finite, text_eq]
  · rw [denoted_eq, value_eq_withSign, ← exact_eq (zero_iff.mp zero),
      mul_div_cancel_right₀ _ (by positivity)]
  · rw [denoted_eq]
    exact isNearest_iff_eq finite surrounds y

/-- Numbers that are not whole have one text. -/
theorem canonicalText_eq_plainText {x : Float} (finite : rank x < infinityRank)
    (notWhole : ¬ IsWhole (rank x)) : canonicalText x = plainText x := by
  rw [canonicalText_eq, plainText, textBy_of_finite _ finite, textBy_of_finite _ finite,
    canonicalMagnitude, if_neg notWhole]

/-- Small whole numbers have all of their digits in both texts. -/
theorem canonicalText_eq_plainText_append {x : Float} {n : Nat} (finite : rank x < infinityRank)
    (quanta_eq : quanta (rank x) = n * Nat.pow 2 1074) (small : n ≤ 2 ^ 53) :
    canonicalText x = plainText x ++ ".0" := by
  rw [canonicalText_eq, plainText, textBy_of_finite _ finite, textBy_of_finite _ finite,
    canonicalMagnitude_of_whole quanta_eq, Shortest.text_decimal_of_le small quanta_eq]
  cases isNegative x
  · rfl
  · exact String.append_assoc.symm

end Number

open Binary64 (rank isNegative)

/-- **The canonical text of a number reads back as that number.**

The text of what is no number, and of infinity with its sign, is a word.  The text of a finite
double is a minus sign if the sign bit is set, digits, a point and digits.  The digits after the
point are a single zero exactly if the value is an integer, and then the text denotes the value.  In
any case the double is the only one with its sign that is nearest to the number that is denoted, so
a reader that rounds correctly gets the same double, as `Number.ofNumeral?` does.  Therefore two
numbers have the same text only if they have the same bits.  The display of a syntax tree has the
same text for a number that is not whole, and for a small whole number it only lacks the place. -/
theorem Value.display_number_reads_back (x : Float) :
    (x.isNaN → (Value.number x).display = "NaN") ∧
    (x.isInf → (Value.number x).display = if isNegative x then "-inf" else "inf") ∧
    (x.isFinite → ∃ whole fraction, IsDigits whole ∧ IsDigits fraction ∧
      (Value.number x).display =
        (if isNegative x then "-" else "") ++ String.ofList (whole ++ '.' :: fraction) ∧
      (fraction = ['0'] ↔ ∃ n : ℤ, Number.value x = n) ∧
      (fraction = ['0'] → Number.denoted (isNegative x) whole fraction = Number.value x) ∧
      ∀ y, isNegative y = isNegative x ∧
        Number.IsNearest y (Number.denoted (isNegative x) whole fraction) ↔ y = x) ∧
    (¬ x.isNaN → Number.ofNumeral? (Value.number x).display = some x) ∧
    (∀ y : Float, ¬ x.isNaN → ¬ y.isNaN →
      ((Value.number x).display = (Value.number y).display ↔ x.toBits = y.toBits)) ∧
    (x.isFinite → ∀ span, ∃ text, (Tree.number x span).display = "Number(" ++ text ++ ")" ∧
      ((¬ ∃ n : ℤ, Number.value x = n) → (Value.number x).display = text) ∧
      ∀ n : ℤ, Number.value x = n → |n| ≤ 2 ^ 53 → (Value.number x).display = text ++ ".0") := by
  have isNumber {y : Float} (some : ¬ y.isNaN) : rank y ≤ Binary64.infinityRank :=
    Nat.not_lt.mp ((Binary64.isNaN_iff y).not.mp some)
  simp only [Value.display]
  refine ⟨fun none => ?_, fun infinite => ?_, fun finite => ?_, fun some => ?_,
    fun y some other => ?_, fun finite span => ⟨_, rfl, fun notWhole => ?_,
    fun n value_eq small => ?_⟩⟩
  · exact Number.textBy_of_isNaN _ ((Binary64.isNaN_iff x).mp none)
  · rw [Number.canonicalText, Number.textBy_of_infinite _ ((Binary64.isInf_iff x).mp infinite)]
    cases isNegative x <;> rfl
  · obtain ⟨whole, fraction, isWhole, isFraction, text_eq, rest⟩ :=
      Number.exists_canonicalText ((Binary64.isFinite_iff x).mp finite)
    refine ⟨whole, fraction, isWhole, isFraction, text_eq.trans ?_, rest⟩
    cases isNegative x
    · exact String.empty_append.symm
    · rfl
  · exact Number.ofNumeral?_canonicalText (isNumber some)
  · have reads := Number.ofNumeral?_canonicalText (isNumber some)
    have readsOther := Number.ofNumeral?_canonicalText (isNumber other)
    rw [Float.toBits_inj]
    constructor
    · intro same
      rw [same, readsOther] at reads
      exact (Option.some.inj reads).symm
    · rintro rfl
      rfl
  · have finite := (Binary64.isFinite_iff x).mp finite
    exact Number.canonicalText_eq_plainText finite ((Number.isWhole_iff x).not.mpr notWhole)
  · have finite := (Binary64.isFinite_iff x).mp finite
    rw [Int.abs_eq_natAbs] at small
    exact Number.canonicalText_eq_plainText_append finite (Number.quanta_eq_of_value_eq value_eq)
      (by omega)

/-- A tenth is not a double, and its text is that of the nearest double only. -/
theorem Value.display_number_reads_back_tenth :
    ∃ tenth : Float, tenth.toBits = 0x3FB999999999999A ∧ (Value.number tenth).display = "0.1" ∧
      Number.ofNumeral? "0.1" = some tenth ∧
      ∀ y : Float, ¬ y.isNaN →
        ((Value.number y).display = "0.1" ↔ y.toBits = 0x3FB999999999999A) := by
  have bits_eq : (Float.ofBits 0x3FB999999999999A).toBits = 0x3FB999999999999A := by decide +kernel
  have text_eq : (Value.number (Float.ofBits 0x3FB999999999999A)).display = "0.1" := by
    decide +kernel
  generalize Float.ofBits 0x3FB999999999999A = tenth at bits_eq text_eq
  have isNumber : ¬ tenth.isNaN := by
    rw [Binary64.isNaN_iff, Binary64.rank, bits_eq]
    decide
  obtain ⟨-, -, -, reads, same_iff, -⟩ := display_number_reads_back tenth
  rw [text_eq] at reads same_iff
  refine ⟨tenth, bits_eq, text_eq, reads isNumber, fun y other => ?_⟩
  rw [eq_comm, same_iff y isNumber other, bits_eq, eq_comm]

end PrintLang
