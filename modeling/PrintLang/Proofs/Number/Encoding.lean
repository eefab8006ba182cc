import Mathlib
import PrintLang.Binary64

/-!
# The encoding of doubles

A double is known by its sign and its rank.  The encoding keeps both apart: the sign is the highest
bit, and the others are the rank.  Since a double that is made from its bits is taken apart and put
together again, the bits have to be such that they survive this.

The only ones that do not are those that encode that there is no number.  Their ranks are beyond
that of infinity.

## Main Statements

* `Binary64.toBits_ofBits` — the bits of the double that is made from some bits
* `Binary64.rank_ofRank`, `Binary64.isNegative_ofRank` — rank and sign of the double they make
* `Binary64.ofRank_rank` — a double is made by its sign and its rank
* `Binary64.isNaN_iff`, `Binary64.isInf_iff`, `Binary64.isFinite_iff` — its kind, by its rank
-/

namespace PrintLang

namespace Binary64

open Float.Model.Format (binary64)
open Float.Model.UnpackedFloat (unpackExponent unpackMantissa unpackExponent_def
  unpackMantissa_def unpack pack_unpack_of_valid isNaN isInf isFinite)

section Words

variable (word : BitVec binary64.numBits)

/-- The exponent is the greatest one from the rank of infinity on. -/
theorem unpackExponent_eq_last_iff :
    unpackExponent word = -BitVec.ofNat binary64.exponentBits 1 ↔
      infinityRank ≤ word.toNat % 2 ^ 63 := by
  rw [← BitVec.toNat_inj, unpackExponent_def, BitVec.extractLsb'_toNat, Nat.shiftRight_eq_div_pow]
  show word.toNat / 2 ^ 52 % 2 ^ 11 = 2 ^ 11 - 1 ↔ _
  simp only [infinityRank, Nat.pow_eq]
  omega

theorem unpackMantissa_eq_zero_iff :
    unpackMantissa word = BitVec.ofNat binary64.mantissaBitsWithoutImplicit 0 ↔
      word.toNat % 2 ^ 52 = 0 := by
  rw [← BitVec.toNat_inj, unpackMantissa_def, BitVec.extractLsb'_toNat, Nat.shiftRight_zero]
  exact Iff.rfl

end Words

/-- A word whose low bits are a rank up to that of infinity does not encode that there is no
number. -/
theorem valid_of_le {word : BitVec binary64.numBits}
    (bound : word.toNat % 2 ^ 63 ≤ infinityRank) : binary64.Valid word := by
  refine ⟨fun isLast notZero => absurd ?_ notZero⟩
  have least := (unpackExponent_eq_last_iff word).mp isLast
  rw [unpackMantissa_eq_zero_iff]
  simp only [infinityRank, Nat.pow_eq] at bound least
  omega

/-- The bits of the double that is made from some bits. -/
theorem toBits_ofBits {bits : UInt64} (bound : bits.toNat % 2 ^ 63 ≤ infinityRank) :
    (Float.ofBits bits).toBits = bits :=
  UInt64.toBitVec_inj.mp (pack_unpack_of_valid (valid_of_le bound))

section Ranks

variable (negative : Bool) (rank : Nat)

theorem toNat_toBits_ofRank :
    (ofRank negative rank).toBits.toNat =
      (if negative then 2 ^ 63 else 0) + min rank infinityRank := by
  have small : min rank infinityRank ≤ infinityRank := Nat.min_le_right _ _
  have bits_eq : (UInt64.ofNat ((if negative then Nat.pow 2 63 else 0) +
      min rank infinityRank)).toNat = (if negative then 2 ^ 63 else 0) + min rank infinityRank := by
    rw [UInt64.toNat_ofNat', Nat.mod_eq_of_lt, Nat.pow_eq]
    simp only [infinityRank, Nat.pow_eq] at small ⊢
    split <;> omega
  rw [ofRank, toBits_ofBits, bits_eq]
  rw [bits_eq]
  simp only [infinityRank, Nat.pow_eq] at small ⊢
  split <;> omega

theorem rank_ofRank : Binary64.rank (ofRank negative rank) = min rank infinityRank := by
  have small : min rank infinityRank ≤ infinityRank := Nat.min_le_right _ _
  rw [Binary64.rank, toNat_toBits_ofRank]
  simp only [infinityRank, Nat.pow_eq] at small ⊢
  split <;> omega

theorem isNegative_ofRank : isNegative (ofRank negative rank) = negative := by
  have small : min rank infinityRank ≤ infinityRank := Nat.min_le_right _ _
  rw [isNegative, toNat_toBits_ofRank]
  simp only [infinityRank, Nat.pow_eq] at small ⊢
  cases negative
  · exact decide_eq_false (by grind)
  · exact decide_eq_true (by grind)

end Ranks

/-- A double that is a number is made by its sign and its rank. -/
theorem ofRank_rank {x : Float} (isNumber : rank x ≤ infinityRank) :
    ofRank (isNegative x) (rank x) = x := by
  refine Float.toBits_inj.mp (UInt64.toNat_inj.mp ?_)
  have bound : x.toBits.toNat < 2 ^ 64 := x.toBits.toNat_lt
  rw [toNat_toBits_ofRank, Nat.min_eq_left isNumber, isNegative, rank]
  simp only [Nat.pow_eq, decide_eq_true_eq]
  split <;> omega

/-! ## Kinds of doubles -/

/-- The three kinds of doubles, by their ranks. -/
theorem kinds (x : Float) : x.isNaN = decide (infinityRank < rank x) ∧
    x.isInf = decide (rank x = infinityRank) ∧ x.isFinite = decide (rank x < infinityRank) := by
  have last_iff : _ ↔ infinityRank ≤ rank x := unpackExponent_eq_last_iff x.toModel.toBits.toBitVec
  have zero_iff : _ ↔ x.toBits.toNat % 2 ^ 52 = 0 :=
    unpackMantissa_eq_zero_iff x.toModel.toBits.toBitVec
  rw [Float.isNaN, Float.isInf, Float.isFinite, Float.Model.isNaN, Float.Model.isInf,
    Float.Model.isFinite, Float.Model.unpack, unpack]
  dsimp only
  by_cases isLast : infinityRank ≤ rank x
  · rw [if_pos (last_iff.mpr isLast)]
    by_cases isZero : x.toBits.toNat % 2 ^ 52 = 0
    · have rank_eq : rank x = infinityRank := by
        simp only [rank, infinityRank, Nat.pow_eq] at isLast ⊢
        omega
      simp [if_pos (zero_iff.mpr isZero), rank_eq, isNaN, isInf, isFinite]
    · have beyond : infinityRank < rank x := by
        simp only [rank, infinityRank, Nat.pow_eq] at isLast ⊢
        omega
      simp [if_neg (zero_iff.not.mpr isZero), beyond, Nat.ne_of_gt, Nat.le_of_lt, isNaN, isInf,
        isFinite]
  · rw [if_neg (last_iff.not.mpr isLast)]
    have below : rank x < infinityRank := Nat.lt_of_not_le isLast
    split
    · split <;> simp [below, Nat.ne_of_lt, Nat.le_of_lt, isNaN, isInf, isFinite]
    · simp [below, Nat.ne_of_lt, Nat.le_of_lt, isNaN, isInf, isFinite]

theorem isNaN_iff (x : Float) : x.isNaN = true ↔ infinityRank < rank x := by
  rw [(kinds x).1, decide_eq_true_eq]

theorem isInf_iff (x : Float) : x.isInf = true ↔ rank x = infinityRank := by
  rw [(kinds x).2.1, decide_eq_true_eq]

theorem isFinite_iff (x : Float) : x.isFinite = true ↔ rank x < infinityRank := by
  rw [(kinds x).2.2, decide_eq_true_eq]

end Binary64

end PrintLang
