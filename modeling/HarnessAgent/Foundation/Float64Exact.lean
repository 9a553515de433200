import HarnessAgent.Foundation.Float64
import Mathlib.Algebra.Order.Field.Power
import Mathlib.Tactic.Linarith
import Mathlib.Tactic.NormNum
import Mathlib.Tactic.Positivity

/-! # Exact conversions

Rounding keeps the rationals that a double denotes, and natural numbers below
`2 ^ 53` are among them.
-/

namespace HarnessAgent.F64

/-! ## The binary exponent -/

theorem binaryExponent_spec (positive : 0 < number) :
    (2 : Rat) ^ binaryExponent number ≤ number ∧
      number < (2 : Rat) ^ (binaryExponent number + 1) := by
  let top := number.num.natAbs
  let bottom := number.den
  have topPositive : top ≠ 0 := by
    have := Rat.num_pos.mpr positive
    omega
  have bottomPositive : (0 : Rat) < bottom := by exact_mod_cast number.den_pos
  have quotient : number = top / bottom := by
    have numerator : ((top : Int) : Rat) = number.num := by
      have := Rat.num_pos.mpr positive
      rw [show (top : Int) = number.num by omega]
    rw [← Int.cast_natCast top, numerator]
    exact (Rat.num_div_den number).symm
  have topLower : (2 : Rat) ^ (top.log2 : Int) ≤ top := by
    exact_mod_cast Nat.log2_self_le topPositive
  have topUpper : (top : Rat) < (2 : Rat) ^ ((top.log2 : Int) + 1) := by
    exact_mod_cast @Nat.lt_log2_self top
  have bottomLower : (2 : Rat) ^ (bottom.log2 : Int) ≤ bottom := by
    exact_mod_cast Nat.log2_self_le number.den_nz
  have bottomUpper : (bottom : Rat) < (2 : Rat) ^ ((bottom.log2 : Int) + 1) := by
    exact_mod_cast @Nat.lt_log2_self bottom
  have upper : number < (2 : Rat) ^ ((top.log2 : Int) - bottom.log2 + 1) := by
    rw [quotient, div_lt_iff₀ bottomPositive]
    calc (top : Rat) < (2 : Rat) ^ ((top.log2 : Int) + 1) := topUpper
      _ = (2 : Rat) ^ ((top.log2 : Int) - bottom.log2 + 1) * (2 : Rat) ^ (bottom.log2 : Int) := by
          rw [← zpow_add₀ two_ne_zero]
          congr 1
          omega
      _ ≤ (2 : Rat) ^ ((top.log2 : Int) - bottom.log2 + 1) * bottom := by gcongr
  have lower : (2 : Rat) ^ ((top.log2 : Int) - bottom.log2 - 1) ≤ number := by
    rw [quotient, le_div_iff₀ bottomPositive]
    calc (2 : Rat) ^ ((top.log2 : Int) - bottom.log2 - 1) * bottom
        ≤ (2 : Rat) ^ ((top.log2 : Int) - bottom.log2 - 1) *
            (2 : Rat) ^ ((bottom.log2 : Int) + 1) := by gcongr
      _ = (2 : Rat) ^ (top.log2 : Int) := by
          rw [← zpow_add₀ two_ne_zero]
          congr 1
          omega
      _ ≤ top := topLower
  have unfolded : binaryExponent number =
      if (2 : Rat) ^ ((top.log2 : Int) - bottom.log2) ≤ number
      then (top.log2 : Int) - bottom.log2 else (top.log2 : Int) - bottom.log2 - 1 := rfl
  rw [unfolded]
  split
  next fits => exact ⟨fits, upper⟩
  next large =>
    refine ⟨lower, ?_⟩
    rw [sub_add_cancel]
    exact not_le.mp large

theorem binaryExponent_eq {exponent : Int} (lower : (2 : Rat) ^ exponent ≤ number)
    (upper : number < (2 : Rat) ^ (exponent + 1)) : binaryExponent number = exponent := by
  have positive : 0 < number := lt_of_lt_of_le (by positivity) lower
  rcases binaryExponent_spec positive with ⟨below, above⟩
  have left := (zpow_lt_zpow_iff_right₀ (one_lt_two : (1 : Rat) < 2)).mp
    (lt_of_le_of_lt below upper)
  have right := (zpow_lt_zpow_iff_right₀ (one_lt_two : (1 : Rat) < 2)).mp
    (lt_of_le_of_lt lower above)
  omega

theorem roundHalfEven_natCast (number : Nat) : roundHalfEven (number : Rat) = number := by
  have below : (number : Rat).floor = number := Rat.floor_intCast number
  simp [roundHalfEven, below]

/-! ## Mantissa and exponent -/

/-- The mantissa and exponent of a double: the mantissa has its leading bit unless
the exponent is the smallest. -/
structure Scaled where
  mantissa : Nat
  exponent : Int
  mantissa_lt : mantissa < 2 ^ 53
  exponent_ge : -1022 ≤ exponent
  exponent_le : exponent ≤ 1023
  normal : 2 ^ 52 ≤ mantissa ∨ exponent = -1022

def Scaled.value (scaled : Scaled) : Rat :=
  scaled.mantissa * (2 : Rat) ^ (scaled.exponent - 52)

def Scaled.bits (scaled : Scaled) : Nat :=
  (scaled.exponent + 1022).toNat * 2 ^ 52 + scaled.mantissa

theorem Scaled.bits_lt (scaled : Scaled) : scaled.bits < 2047 * 2 ^ 52 := by
  have mantissa := scaled.mantissa_lt
  have exponent : (scaled.exponent + 1022).toNat ≤ 2045 := by
    have := scaled.exponent_le
    omega
  rw [Scaled.bits]
  omega

theorem Scaled.ofMagnitude_value (scaled : Scaled) : ofMagnitude scaled.value = scaled.bits := by
  rcases Nat.eq_zero_or_pos scaled.mantissa with zero | positiveMantissa
  · have noValue : scaled.value = 0 := by simp [Scaled.value, zero]
    have smallest : scaled.exponent = -1022 := by
      rcases scaled.normal with large | smallest
      · omega
      · exact smallest
    simp [ofMagnitude, noValue, Scaled.bits, zero, smallest]
  have positive : 0 < scaled.value := by
    have : (0 : Rat) < scaled.mantissa := by exact_mod_cast positiveMantissa
    rw [Scaled.value]
    positivity
  have upper : scaled.value < (2 : Rat) ^ (scaled.exponent + 1) := by
    have bound : (scaled.mantissa : Rat) < (2 : Rat) ^ (53 : Int) := by
      exact_mod_cast scaled.mantissa_lt
    calc scaled.value < (2 : Rat) ^ (53 : Int) * (2 : Rat) ^ (scaled.exponent - 52) := by
          rw [Scaled.value]
          gcongr
      _ = (2 : Rat) ^ (scaled.exponent + 1) := by
          rw [← zpow_add₀ two_ne_zero]
          congr 1
          omega
  have exponent : max (binaryExponent scaled.value) (-1022) = scaled.exponent := by
    rcases scaled.normal with large | smallest
    · have lower : (2 : Rat) ^ scaled.exponent ≤ scaled.value := by
        have bound : (2 : Rat) ^ (52 : Int) ≤ scaled.mantissa := by exact_mod_cast large
        calc (2 : Rat) ^ scaled.exponent
            = (2 : Rat) ^ (52 : Int) * (2 : Rat) ^ (scaled.exponent - 52) := by
              rw [← zpow_add₀ two_ne_zero]
              congr 1
              omega
          _ ≤ scaled.value := by
              rw [Scaled.value]
              gcongr
      rw [binaryExponent_eq lower upper, max_eq_left scaled.exponent_ge]
    · have below := (binaryExponent_spec positive).1
      have order := (zpow_lt_zpow_iff_right₀ (one_lt_two : (1 : Rat) < 2)).mp
        (lt_of_le_of_lt below upper)
      rw [max_eq_right (by omega), smallest]
  have mantissa : scaled.value / (2 : Rat) ^ (scaled.exponent - 52) = scaled.mantissa := by
    rw [Scaled.value, mul_div_assoc, div_self (zpow_ne_zero _ two_ne_zero), mul_one]
  rw [ofMagnitude, if_neg (not_le.mpr positive)]
  simp only [exponent, mantissa, roundHalfEven_natCast, Int.toNat_natCast]
  exact min_eq_left (le_of_lt scaled.bits_lt)

theorem Scaled.value_nonneg (scaled : Scaled) : 0 ≤ scaled.value := by
  rw [Scaled.value]
  positivity

theorem Scaled.ofRat_value (scaled : Scaled) : ofRat scaled.value = ⟨UInt64.ofNat scaled.bits⟩ := by
  rw [ofRat, if_neg (not_lt.mpr scaled.value_nonneg), scaled.ofMagnitude_value]

theorem Scaled.ofRat_neg_value (scaled : Scaled) (positive : scaled.value ≠ 0) :
    ofRat (-scaled.value) = ⟨UInt64.ofNat (2 ^ 63 + scaled.bits)⟩ := by
  have negative : -scaled.value < 0 :=
    neg_lt_zero.mpr (lt_of_le_of_ne scaled.value_nonneg positive.symm)
  rw [ofRat, if_pos negative, neg_neg, scaled.ofMagnitude_value]

def scaled (number : F64) (finite : number.isFinite = true) : Scaled where
  mantissa :=
    if number.exponentField = 0 then number.fraction else 2 ^ 52 + number.fraction
  exponent := if number.exponentField = 0 then -1022 else (number.exponentField : Int) - 1023
  mantissa_lt := by
    have : number.fraction < 2 ^ 52 := Nat.mod_lt _ (by decide)
    split <;> omega
  exponent_ge := by split <;> omega
  exponent_le := by
    have : number.exponentField < 2 ^ 11 := Nat.mod_lt _ (by decide)
    have : number.exponentField ≠ 2047 := of_decide_eq_true finite
    split <;> omega
  normal := by
    split
    · exact .inr rfl
    · exact .inl (Nat.le_add_right _ _)

theorem bits_eq (number : F64) (finite : number.isFinite = true) :
    number.bits.toNat = (if number.isNegative then 2 ^ 63 else 0) +
      (number.scaled finite).bits := by
  have bound : number.bits.toNat < 2 ^ 64 := number.bits.toNat_lt
  have split : number.bits.toNat =
      (if number.isNegative then 2 ^ 63 else 0) + number.exponentField * 2 ^ 52 +
        number.fraction := by
    simp only [isNegative, exponentField, fraction, decide_eq_true_eq]
    split <;> omega
  have magnitude : number.exponentField * 2 ^ 52 + number.fraction =
      (number.scaled finite).bits := by
    simp only [Scaled.bits, scaled]
    split <;> omega
  rw [split, Nat.add_assoc, magnitude]

theorem value_eq (number : F64) (finite : number.isFinite = true) :
    number.value = if number.isNegative then -(number.scaled finite).value
      else (number.scaled finite).value := by
  have magnitude : (if number.exponentField = 0 then
      (number.fraction : Rat) * (2 : Rat) ^ (-1074 : Int)
    else (2 ^ 52 + number.fraction : Nat) * (2 : Rat) ^ ((number.exponentField : Int) - 1075)) =
      (number.scaled finite).value := by
    simp only [Scaled.value, scaled]
    split
    · norm_num
    · rw [show (number.exponentField : Int) - 1023 - 52 = number.exponentField - 1075 by omega]
  simp only [value, magnitude]

/-- Rounding the rational of a finite number gives the number back, unless it is
negative zero. -/
theorem ofRat_value (finite : number.isFinite = true)
    (notNegativeZero : number.isNegative = true → number.value ≠ 0) :
    ofRat number.value = number := by
  have bits := number.bits_eq finite
  have sameBits : UInt64.ofNat number.bits.toNat = number.bits := UInt64.ofNat_toNat
  rw [value_eq number finite] at notNegativeZero ⊢
  cases negative : number.isNegative with
  | false =>
      rw [negative] at bits
      simp only [Bool.false_eq_true, if_false, Nat.zero_add] at bits ⊢
      rw [Scaled.ofRat_value, ← bits, sameBits]
  | true =>
      rw [negative] at bits notNegativeZero
      simp only [if_true] at bits notNegativeZero ⊢
      rw [Scaled.ofRat_neg_value _ fun zero => notNegativeZero trivial (by rw [zero, neg_zero]),
        ← bits, sameBits]

/-! ## Natural numbers -/

section Decoding

variable (scaled : Scaled)

theorem toNat_ofNat_bits : (UInt64.ofNat scaled.bits).toNat = scaled.bits := by
  have bound := scaled.bits_lt
  rw [UInt64.toNat_ofNat', Nat.mod_eq_of_lt (by omega)]

theorem isNegative_ofBits : isNegative ⟨UInt64.ofNat scaled.bits⟩ = false := by
  have bound := scaled.bits_lt
  rw [isNegative, toNat_ofNat_bits]
  exact decide_eq_false (by omega)

theorem isFinite_ofBits : isFinite ⟨UInt64.ofNat scaled.bits⟩ = true := by
  have bound := scaled.bits_lt
  rw [isFinite, exponentField, toNat_ofNat_bits]
  exact decide_eq_true (by omega)

theorem value_ofBits : value ⟨UInt64.ofNat scaled.bits⟩ = scaled.value := by
  have mantissaBound := scaled.mantissa_lt
  have exponentBound := scaled.exponent_le
  have exponentLower := scaled.exponent_ge
  rw [value, isNegative_ofBits]
  simp only [Bool.false_eq_true, if_false, exponentField, fraction, toNat_ofNat_bits]
  by_cases large : 2 ^ 52 ≤ scaled.mantissa
  · have field : scaled.bits / 2 ^ 52 % 2 ^ 11 = (scaled.exponent + 1023).toNat := by
      rw [Scaled.bits]
      omega
    have mantissa : 2 ^ 52 + scaled.bits % 2 ^ 52 = scaled.mantissa := by
      rw [Scaled.bits]
      omega
    rw [field, if_neg (by omega), mantissa, Scaled.value]
    congr 2
    omega
  · have smallest : scaled.exponent = -1022 := scaled.normal.resolve_left large
    have bits : scaled.bits = scaled.mantissa := by simp [Scaled.bits, smallest]
    have field : scaled.bits / 2 ^ 52 % 2 ^ 11 = 0 := by omega
    have fraction : scaled.bits % 2 ^ 52 = scaled.mantissa := by omega
    rw [field, if_pos rfl, fraction, Scaled.value, smallest]
    norm_num

end Decoding

def scaledNat (number : Nat) (positive : number ≠ 0) (bound : number < 2 ^ 53) : Scaled where
  mantissa := number * 2 ^ (52 - number.log2)
  exponent := number.log2
  mantissa_lt := by
    have log : number.log2 ≤ 52 := Nat.lt_succ_iff.mp (Nat.log2_lt positive |>.mpr bound)
    calc number * 2 ^ (52 - number.log2)
        < 2 ^ (number.log2 + 1) * 2 ^ (52 - number.log2) :=
          Nat.mul_lt_mul_of_pos_right Nat.lt_log2_self (Nat.two_pow_pos _)
      _ = 2 ^ 53 := by
          rw [← Nat.pow_add]
          congr 1
          omega
  exponent_ge := by omega
  exponent_le := by
    have log : number.log2 < 53 := (Nat.log2_lt positive).mpr bound
    omega
  normal := by
    have log : number.log2 ≤ 52 := Nat.lt_succ_iff.mp (Nat.log2_lt positive |>.mpr bound)
    left
    calc 2 ^ 52 = 2 ^ number.log2 * 2 ^ (52 - number.log2) := by
          rw [← Nat.pow_add]
          congr 1
          omega
      _ ≤ number * 2 ^ (52 - number.log2) :=
          Nat.mul_le_mul_right _ (Nat.log2_self_le positive)

theorem value_scaledNat (positive : number ≠ 0) (bound : number < 2 ^ 53) :
    (scaledNat number positive bound).value = number := by
  have log : number.log2 ≤ 52 := Nat.lt_succ_iff.mp (Nat.log2_lt positive |>.mpr bound)
  have power : ((2 ^ (52 - number.log2) : Nat) : Rat) =
      (2 : Rat) ^ (52 - (number.log2 : Int)) := by
    rw [Nat.cast_pow, ← zpow_natCast, Nat.cast_sub log]
    rfl
  simp only [Scaled.value, scaledNat, Nat.cast_mul, power]
  rw [mul_assoc, ← zpow_add₀ two_ne_zero, show 52 - (number.log2 : Int) +
    ((number.log2 : Int) - 52) = 0 by omega, zpow_zero, mul_one]

theorem ofRat_natCast {number : Nat} (bound : number < 2 ^ 53) :
    (ofRat number).isFinite = true ∧ (ofRat number).isNegative = false ∧
      (ofRat number).value = number := by
  by_cases zero : number = 0
  · subst zero
    decide +kernel
  · rw [← value_scaledNat zero bound, Scaled.ofRat_value]
    exact ⟨isFinite_ofBits _, isNegative_ofBits _, value_ofBits _⟩

theorem toUnsigned_ofRat {width number : Nat} (bound : number < 2 ^ 53)
    (fits : number < 2 ^ width) : (ofRat number).toUnsigned width = number := by
  rcases ofRat_natCast bound with ⟨finite, positive, precise⟩
  have notNan : (ofRat number).isNan = false := by simp [isNan, finite]
  have floor : (number : Rat).floor = number := Rat.floor_intCast number
  rw [toUnsigned, notNan, positive, finite, precise, floor]
  simp only [Bool.or_self, Bool.false_eq_true, if_false, if_true, Int.toNat_natCast]
  exact min_eq_left (by omega)

/-! ## The other sign -/

theorem toNat_bits_neg (number : F64) :
    number.neg.bits.toNat = (number.bits.toNat + 2 ^ 63) % 2 ^ 64 :=
  UInt64.toNat_add _ _

theorem isNegative_neg (number : F64) : number.neg.isNegative = !number.isNegative := by
  have bound := number.bits.toNat_lt
  rw [isNegative, isNegative, toNat_bits_neg, ← decide_not, decide_eq_decide]
  omega

theorem exponentField_neg (number : F64) : number.neg.exponentField = number.exponentField := by
  have bound := number.bits.toNat_lt
  rw [exponentField, exponentField, toNat_bits_neg]
  omega

theorem fraction_neg (number : F64) : number.neg.fraction = number.fraction := by
  rw [fraction, fraction, toNat_bits_neg]
  omega

theorem isFinite_neg (number : F64) : number.neg.isFinite = number.isFinite := by
  rw [isFinite, isFinite, exponentField_neg]

theorem value_neg (number : F64) : number.neg.value = -number.value := by
  rw [value, value, isNegative_neg, exponentField_neg, fraction_neg]
  cases number.isNegative with
  | false => rfl
  | true => exact (neg_neg _).symm
end HarnessAgent.F64
