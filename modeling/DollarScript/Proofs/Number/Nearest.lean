import DollarScript.Number.Shortest
import Mathlib.Algebra.Order.Ring.Nat

/-! The number nearest to a decimal depends on its value only, and every magnitude is the one
nearest to the decimal that is written for it. -/
namespace DollarScript

namespace Decimal

/-- The same value with zeros behind the digits. -/
def padded (d : Decimal) (count : Nat) : Decimal := ⟨d.digits * 10 ^ count, d.exponent - count⟩

variable {d : Decimal}

theorem den_pos (d : Decimal) : 0 < d.den := Nat.pow_pos (by decide)

theorem num_padded (d : Decimal) (count : Nat) :
    (d.padded count).num * d.den = d.num * (d.padded count).den := by
  have hpowers : count + (d.exponent - count).toNat + (-d.exponent).toNat =
      d.exponent.toNat + (-(d.exponent - count)).toNat := by omega
  simp only [num, den, padded, Nat.pow_eq]
  rw [Nat.mul_assoc, Nat.mul_assoc, ← Nat.pow_add, ← Nat.pow_add, Nat.mul_assoc, ← Nat.pow_add,
    ← Nat.add_assoc, hpowers]

/-- As many digits, as zeros are put behind them. -/
theorem toDigits_padded {n : Nat} (hn : 0 < n) (count : Nat) :
    Nat.toDigits 10 (n * 10 ^ count) = Nat.toDigits 10 n ++ List.replicate count '0' := by
  induction count with
  | zero => simp
  | succ count ih =>
    have hpos : 0 < n * 10 ^ count := Nat.mul_pos hn (Nat.pow_pos (by decide))
    have hlast := Nat.toDigits_append_toDigits (b := 10) (d := 0) (by decide) hpos (by decide)
    rw [pow_succ, ← mul_assoc, mul_comm, ← Nat.add_zero (10 * _), ← hlast, ih, List.append_assoc,
      List.replicate_succ', Nat.toDigits_zero]

end Decimal

namespace Binary64

variable {num den num' den' rank n : Nat}

/-! ### The nearest magnitude -/

theorem roundHalfEven_mul {c : Nat} (hc : 0 < c) (a b : Nat) :
    roundHalfEven (c * a) (c * b) = roundHalfEven a b := by
  have hlt : ∀ x y : Nat, c * x < c * y ↔ x < y := fun x y => Nat.mul_lt_mul_left hc
  simp only [roundHalfEven, Nat.mul_div_mul_left _ _ hc, Nat.mul_mod_mul_left,
    Nat.mul_left_comm 2 c, hlt]

theorem nearestRank_mul {c : Nat} (hc : 0 < c) (num den : Nat) :
    nearestRank (c * num) (c * den) = nearestRank num den := by
  simp only [nearestRank, Nat.mul_assoc c, Nat.mul_div_mul_left _ _ hc, roundHalfEven_mul hc]

theorem nearestRank_congr (hden : 0 < den) (hden' : 0 < den') (h : num' * den = num * den') :
    nearestRank num' den' = nearestRank num den := by
  rw [← nearestRank_mul hden num' den', ← nearestRank_mul hden' num den, Nat.mul_comm den, h,
    Nat.mul_comm den' num, Nat.mul_comm den den']

/-- Zeros behind the digits do not change which number is the nearest. -/
theorem rankOfDecimal_padded (d : Decimal) (count : Nat) :
    rankOfDecimal (d.padded count) = rankOfDecimal d := by
  by_cases hzero : d.digits = 0
  · simp [rankOfDecimal, Decimal.padded, hzero]
  · have hpos : 0 < d.digits := Nat.pos_of_ne_zero hzero
    have hpadded : (d.padded count).digits ≠ 0 :=
      Nat.ne_of_gt (Nat.mul_pos hpos (Nat.pow_pos (by decide)))
    have hsize : ((Nat.toDigits 10 (d.padded count).digits).length : Int)
        + (d.padded count).exponent = (Nat.toDigits 10 d.digits).length + d.exponent := by
      simp only [Decimal.padded, Decimal.toDigits_padded hpos, List.length_append,
        List.length_replicate]
      omega
    have hnearest : nearestRank (d.padded count).num (d.padded count).den =
        nearestRank d.num d.den :=
      nearestRank_congr d.den_pos (d.padded count).den_pos (d.num_padded count)
    simp only [rankOfDecimal, hsize, hzero, hpadded, false_or, hnearest]

/-! ### A magnitude itself -/

theorem units_pos (h : 0 < rank) : 0 < units rank := by
  unfold units
  split
  · exact h
  · exact Nat.mul_pos (Nat.add_pos_left (Nat.pow_pos (by decide)) _) (Nat.pow_pos (by decide))

theorem units_of_lt (h : rank < 2 ^ 52) : units rank = rank := if_pos h

theorem units_of_le (h : 2 ^ 52 ≤ rank) :
    units rank = (2 ^ 52 + rank % 2 ^ 52) * 2 ^ (rank / 2 ^ 52 - 1) :=
  if_neg (Nat.not_lt.mpr h)

/-- Each block of ranks has as its units the numbers of one more binary digit. -/
theorem log2_units (rank : Nat) : Nat.log2 (units rank) - 52 = rank / 2 ^ 52 - 1 := by
  by_cases h : rank < 2 ^ 52
  · rw [units_of_lt h, Nat.div_eq_of_lt h]
    by_cases hzero : rank = 0
    · simp [hzero]
    · have := (Nat.log2_lt hzero).mpr h
      omega
  · rw [units_of_le (by omega)]
    generalize hm : rank % 2 ^ 52 = m
    generalize rank / 2 ^ 52 - 1 = block
    have hlt : m < 2 ^ 52 := hm ▸ Nat.mod_lt _ (by decide)
    have hlog : Nat.log2 ((2 ^ 52 + m) * 2 ^ block) = 52 + block := by
      refine (Nat.log2_eq_iff ?_).mpr ⟨?_, ?_⟩
      · exact Nat.ne_of_gt (Nat.mul_pos (by omega) (Nat.pow_pos (by decide)))
      · rw [Nat.pow_add]
        exact Nat.mul_le_mul_right _ (by omega)
      · rw [Nat.add_right_comm, Nat.pow_add]
        exact Nat.mul_lt_mul_of_pos_right (by omega) (Nat.pow_pos (by decide))
    omega

theorem roundHalfEven_exact {b : Nat} (hb : 0 < b) (a : Nat) : roundHalfEven (a * b) b = a := by
  simp [roundHalfEven, Nat.mul_div_cancel _ hb, hb]

/-- Rounding gives the block of a rank back, and its place in the block. -/
theorem nearestRank_units (hden : 0 < den) (h : num * unitsPerOne = units rank * den) :
    nearestRank num den = rank := by
  simp only [nearestRank, h, Nat.mul_div_cancel _ hden, log2_units, Nat.pow_eq]
  rw [Nat.mul_comm (units rank), roundHalfEven_mul hden]
  by_cases hsmall : rank < 2 ^ 52
  · have hblock : rank / 2 ^ 52 - 1 = 0 := by omega
    have hround := roundHalfEven_exact Nat.one_pos rank
    rw [Nat.mul_one] at hround
    rw [units_of_lt hsmall, hblock, Nat.pow_zero, hround, Nat.zero_mul, Nat.zero_add]
  · rw [units_of_le (by omega), roundHalfEven_exact (Nat.pow_pos (by decide))]
    omega

/-! ### What is written for a magnitude -/

theorem units_lt {k : Nat} (h : rank / 2 ^ 52 - 1 ≤ k) : units rank < 2 ^ 53 * 2 ^ k := by
  by_cases hsmall : rank < 2 ^ 52
  · rw [units_of_lt hsmall]
    have hone : 2 ^ 53 * 1 ≤ 2 ^ 53 * 2 ^ k := Nat.mul_le_mul_left _ (Nat.pow_pos (by decide))
    omega
  · rw [units_of_le (by omega)]
    calc (2 ^ 52 + rank % 2 ^ 52) * 2 ^ (rank / 2 ^ 52 - 1)
        < 2 ^ 53 * 2 ^ (rank / 2 ^ 52 - 1) :=
          Nat.mul_lt_mul_of_pos_right (by omega) (Nat.pow_pos (by decide))
      _ ≤ 2 ^ 53 * 2 ^ k := Nat.mul_le_mul_left _ (Nat.pow_le_pow_right (by decide) h)

theorem length_toDigits_between {a b : Nat} (ha : 0 < a) (hb : 0 < b) (hlow : 10 ^ a ≤ n)
    (hhigh : n < 10 ^ b) :
    a < (Nat.toDigits 10 n).length ∧ (Nat.toDigits 10 n).length ≤ b := by
  refine ⟨Nat.lt_of_not_le fun hle => ?_, (Nat.length_toDigits_le_iff (by decide) hb).mpr hhigh⟩
  have hlt := (Nat.length_toDigits_le_iff (by decide) ha).mp hle
  omega

/-- A positive magnitude times `five` has between `a` and `b` digits, if the least and the greatest
have. -/
theorem length_units_between {a b five : Nat} (ha : 0 < a) (hb : 0 < b) (hlow : 10 ^ a ≤ five)
    (hhigh : 2 ^ 53 * 2 ^ 2045 * five ≤ 10 ^ b) (h : rank < ranks) (hpos : 0 < rank) :
    a < (Nat.toDigits 10 (units rank * five)).length ∧
      (Nat.toDigits 10 (units rank * five)).length ≤ b := by
  have hrank : rank < 2047 * 2 ^ 52 := h
  have hunits : units rank < 2 ^ 53 * 2 ^ 2045 := units_lt (by omega)
  have hfive : 0 < five := Nat.lt_of_lt_of_le (Nat.pow_pos (by decide)) hlow
  exact length_toDigits_between ha hb (hlow.trans (Nat.le_mul_of_pos_left _ (units_pos hpos)))
    ((Nat.mul_lt_mul_of_pos_right hunits hfive).trans_le hhigh)

theorem num_mul_unitsPerOne {d : Decimal} (five ten : Nat) (hten : five * unitsPerOne = ten)
    (hnum : d.num = n * five) (hden : d.den = ten) : d.num * unitsPerOne = n * d.den := by
  rw [hnum, hden, Nat.mul_assoc, hten]

/-- The exact value is neither so large nor so small that it would be settled by its size. -/
theorem rankOfDecimal_exact (h : rank < ranks) (hpos : 0 < rank) :
    rankOfDecimal (exact rank) = rank := by
  have hlow : 10 ^ 673 ≤ Nat.pow 5 1074 := by decide +kernel
  have hhigh : 2 ^ 53 * 2 ^ 2045 * Nat.pow 5 1074 ≤ 10 ^ 1474 := by decide +kernel
  obtain ⟨hlow, hhigh⟩ := length_units_between (by decide) (by decide) hlow hhigh h hpos
  have hfive : 0 < Nat.pow 5 1074 := by decide +kernel
  have hvalue : (exact rank).num * unitsPerOne = units rank * (exact rank).den := by
    refine num_mul_unitsPerOne (Nat.pow 5 1074) (Nat.pow 10 1074) ?_ ?_ ?_
    · decide +kernel
    · exact Nat.mul_one _
    · rfl
  have hne : units rank * Nat.pow 5 1074 ≠ 0 := Nat.ne_of_gt (Nat.mul_pos (units_pos hpos) hfive)
  rw [rankOfDecimal, if_neg, if_neg, nearestRank_units (exact rank).den_pos hvalue]
  · simp only [exact]
    omega
  · simp only [exact, hne, false_or]
    omega

theorem rankOfDecimal_digitsAt? {tie : Tie} {point : Int} {count : Nat} {d : Decimal}
    (h : digitsAt? tie rank point count = some d) : rankOfDecimal d = rank := by
  simp only [digitsAt?] at h
  split at h
  · cases h
  · rename_i hdown _
    cases h
    exact of_decide_eq_true hdown
  · rename_i _ hup
    cases h
    exact of_decide_eq_true hup
  · rename_i hdown hup
    split at h
    · cases h
      exact of_decide_eq_true hdown
    · cases h
      exact of_decide_eq_true hup
    · cases h
      split
      · exact of_decide_eq_true hdown
      · exact of_decide_eq_true hup

/-- However few digits are written, they are read back as the same magnitude. -/
theorem rankOfDecimal_shortest (tie : Tie) (h : rank < ranks) (hpos : 0 < rank) :
    rankOfDecimal (shortest tie rank) = rank := by
  simp only [shortest]
  cases hfind : (List.range' 1 17).findSome? (digitsAt? tie rank (pointOf rank)) with
  | none => exact rankOfDecimal_exact h hpos
  | some d =>
    obtain ⟨count, -, hd⟩ := List.exists_of_findSome?_eq_some hfind
    exact rankOfDecimal_digitsAt? hd

end Binary64

end DollarScript
