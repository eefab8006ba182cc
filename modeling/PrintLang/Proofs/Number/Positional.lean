import PrintLang.Proofs.Number.Middles
import PrintLang.Number

/-!
# Positional notation

The texts of decimals are digits, with a point among them if the exponent is below zero.  Read as
numerals, they denote the same number: the decimal itself if there is a point, and otherwise the
decimal with its zeros written out.  A sign in front carries over to the double.

## Main Definitions

* `Decimal.positional` — the number that digits before and after a point write
* `Number.signed` — a text with or without a minus sign

## Main Statements

* `Decimal.ofNumeral?_pointed` — digits around a point denote this number
* `Decimal.exists_pointed` — the text of a decimal with an exponent below zero has this form
* `Decimal.digits_append_zeros` — otherwise the zeros belong to the digits
-/

namespace PrintLang

namespace Decimal

/-! ## Digits -/

theorem ofDigits_append (front back : List Char) :
    ofDigits (front ++ back) = ofDigits front * 10 ^ back.length + ofDigits back := by
  induction back using List.reverseRecOn with
  | nil => simp [ofDigits]
  | append_singleton back digit ih =>
    simp only [ofDigits, ← List.append_assoc, List.foldl_append, List.foldl_cons, List.foldl_nil,
      List.length_append, List.length_singleton, Nat.pow_succ] at ih ⊢
    rw [ih]
    ring

theorem ofDigits_zeros (count : Nat) : ofDigits (List.replicate count '0') = 0 := by
  induction count with
  | zero => rfl
  | succ count ih => rw [List.replicate_succ', ofDigits_append, ih]; rfl

theorem isDigits_zeros_append {digits : List Char} (isDigits : IsDigits digits) (count : Nat) :
    IsDigits (List.replicate count '0' ++ digits) := by
  obtain ⟨nonempty, members⟩ := isDigits
  refine ⟨List.append_ne_nil_of_right_ne_nil _ nonempty, fun c member => ?_⟩
  rcases List.mem_append.mp member with zero | digit
  · rw [List.eq_of_mem_replicate zero]
    rfl
  · exact members c digit

/-- Zeros at the end multiply by powers of ten. -/
theorem digits_append_zeros {n : Nat} (positive : 0 < n) (count : Nat) :
    digits n ++ List.replicate count '0' = digits (n * 10 ^ count) := by
  induction count with
  | zero => rw [List.replicate_zero, List.append_nil, Nat.pow_zero, Nat.mul_one]
  | succ count ih =>
    have next_eq : n * 10 ^ (count + 1) = n * 10 ^ count * 10 := (Nat.mul_assoc ..).symm
    have scaled_pos : 0 < n * 10 ^ count := Nat.mul_pos positive (Nat.pow_pos (by decide))
    rw [List.replicate_succ', ← List.append_assoc, ih, next_eq]
    generalize n * 10 ^ count = scaled at scaled_pos
    rw [digits, digits, Nat.toDigits_of_base_le (n := scaled * 10) (by decide) (by omega),
      Nat.mul_div_cancel _ (by decide), Nat.mul_mod_left]
    rfl

/-! ## Texts with a point -/

/-- The number that digits before and after a point write. -/
def positional (whole fraction : List Char) : Decimal :=
  ⟨ofDigits (whole ++ fraction), -fraction.length⟩

theorem value_positional (whole fraction : List Char) :
    (positional whole fraction).value =
      ofDigits whole + ofDigits fraction / 10 ^ fraction.length := by
  have scale : (10 : ℚ) ^ fraction.length ≠ 0 := by positivity
  rw [value, positional, ofDigits_append, zpow_neg, zpow_natCast, ← div_eq_mul_inv, Nat.cast_add,
    Nat.cast_mul, Nat.cast_pow, add_div, Nat.cast_ofNat, mul_div_cancel_right₀ _ scale]

/-- A zero after the point does not count. -/
theorem value_positional_zero (whole : List Char) :
    (positional whole ['0']).value = ofDigits whole := by
  have zero_eq : ofDigits ['0'] = 0 := rfl
  rw [value_positional, zero_eq, Nat.cast_zero, zero_div, add_zero]

theorem value_positional_nil (whole : List Char) :
    (positional whole []).value = ofDigits whole := by
  have nothing : ofDigits [] = 0 := rfl
  rw [value_positional, nothing, Nat.cast_zero, zero_div, add_zero]

theorem span_isDigit {digits : List Char} (isDigits : IsDigits digits) :
    digits.span Char.isDigit = (digits, []) := by
  rw [List.span_eq_takeWhile_dropWhile, List.takeWhile_eq_self_iff.mpr isDigits.2,
    List.dropWhile_eq_nil_iff.mpr isDigits.2]

theorem span_isDigit_point {whole : List Char} (isWhole : IsDigits whole) (rest : List Char) :
    (whole ++ '.' :: rest).span Char.isDigit = (whole, '.' :: rest) := by
  rw [List.span_eq_takeWhile_dropWhile, List.takeWhile_append_of_pos isWhole.2,
    List.dropWhile_append_of_pos isWhole.2]
  simp

/-- Digits around a point denote the number that they write. -/
theorem ofNumeral?_pointed {whole fraction : List Char} (isWhole : IsDigits whole)
    (isFraction : IsDigits fraction) :
    ofNumeral? (whole ++ '.' :: fraction) = some (positional whole fraction) := by
  rw [ofNumeral?, span_isDigit_point isWhole]
  simp only [span_isDigit isFraction]
  simp [isWhole.1, positional]

/-- So do digits without a point. -/
theorem ofNumeral?_digits {whole : List Char} (isWhole : IsDigits whole) :
    ofNumeral? whole = some (positional whole []) := by
  rw [ofNumeral?, span_isDigit isWhole]
  simp [isWhole.1, positional]

/-- The text of a decimal with an exponent below zero has digits on both sides of a point, and they
write the decimal. -/
theorem exists_pointed (coefficient e : Nat) : ∃ whole fraction, IsDigits whole ∧
    IsDigits fraction ∧ text ⟨coefficient, .negSucc e⟩ = String.ofList (whole ++ '.' :: fraction) ∧
    positional whole fraction = ⟨coefficient, .negSucc e⟩ := by
  generalize padded_eq : List.replicate (e + 1 + 1 - (digits coefficient).length) '0' ++
    digits coefficient = padded
  have isDigits : IsDigits padded :=
    padded_eq ▸ isDigits_zeros_append (isDigits_digits coefficient) _
  have length_gt : e + 1 < padded.length := by
    rw [← padded_eq, List.length_append, List.length_replicate]
    omega
  have ofDigits_eq : ofDigits padded = coefficient := by
    rw [← padded_eq, ofDigits_append, ofDigits_zeros, Nat.zero_mul, Nat.zero_add, ofDigits_digits]
  have fraction_length : (padded.drop (padded.length - (e + 1))).length = e + 1 := by
    rw [List.length_drop]
    omega
  refine ⟨padded.take (padded.length - (e + 1)), padded.drop (padded.length - (e + 1)),
    ⟨?_, fun c member => isDigits.2 c (List.mem_of_mem_take member)⟩,
    ⟨?_, fun c member => isDigits.2 c (List.mem_of_mem_drop member)⟩, ?_, ?_⟩
  · refine List.ne_nil_of_length_pos ?_
    rw [List.length_take]
    omega
  · exact List.ne_nil_of_length_pos (by omega)
  · simp only [text, padded_eq]
  · rw [positional, List.take_append_drop, ofDigits_eq, fraction_length]
    rfl

/-- The text of another decimal is a row of digits. -/
theorem exists_digits (coefficient e : Nat) : ∃ whole, IsDigits whole ∧
    text ⟨coefficient, .ofNat e⟩ = String.ofList whole ∧
    ofDigits whole = coefficient * 10 ^ e := by
  refine ⟨digits coefficient ++ List.replicate e '0', ?_, rfl, ?_⟩
  · obtain ⟨nonempty, members⟩ := isDigits_digits coefficient
    refine ⟨List.append_ne_nil_of_left_ne_nil nonempty _, fun c member => ?_⟩
    rcases List.mem_append.mp member with digit | zero
    · exact members c digit
    · rw [List.eq_of_mem_replicate zero]
      rfl
  · rw [ofDigits_append, ofDigits_zeros, ofDigits_digits, List.length_replicate, Nat.add_zero]

end Decimal

/-! ## Signs -/

namespace Number

open Binary64 (infinityRank rank isNegative ofRank)

/-- The text with a minus sign in front if the number is negative. -/
def signed (negative : Bool) (text : String) : String :=
  if negative then "-" ++ text else text

theorem textBy_of_isNaN (finite : Nat → String) {x : Float} (beyond : infinityRank < rank x) :
    textBy finite x = "NaN" :=
  if_pos beyond

/-- The text of a finite double is that of its rank with its sign. -/
theorem textBy_of_finite (finite : Nat → String) {x : Float} (isFinite : rank x < infinityRank) :
    textBy finite x = signed (isNegative x) (finite (rank x)) := by
  simp only [textBy, signed]
  rw [if_neg (Nat.lt_asymm isFinite), if_neg (Nat.ne_of_lt isFinite)]

theorem textBy_of_infinite (finite : Nat → String) {x : Float} (infinite : rank x = infinityRank) :
    textBy finite x = signed (isNegative x) "inf" := by
  simp only [textBy, signed]
  rw [infinite, if_neg (Nat.lt_irrefl _), if_pos rfl]

/-- The sign carries over to the double that a numeral denotes. -/
theorem ofNumeral?_signed {text : List Char} {d : Decimal} (negative : Bool)
    (first : ∃ c ∈ text.head?, c.isDigit) (denotes : Decimal.ofNumeral? text = some d) :
    ofNumeral? (signed negative (String.ofList text)) = some (ofRank negative d.nearestRank) := by
  obtain ⟨c, isFirst, isDigit⟩ := first
  obtain ⟨rest, rfl⟩ := List.head?_eq_some_iff.mp isFirst
  have notMinus : c ≠ '-' := by
    rintro rfl
    cases isDigit
  have notPlus : c ≠ '+' := by
    rintro rfl
    cases isDigit
  cases negative <;> simp [ofNumeral?, signed, notMinus, notPlus, denotes]

end Number

end PrintLang
