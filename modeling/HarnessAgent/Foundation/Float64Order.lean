import HarnessAgent.Foundation.Float64Exact

/-! # Rounding keeps the order

A larger number is not rounded to a smaller double.
-/

namespace HarnessAgent.F64

theorem roundHalfEven_bounds (number : Rat) :
    number - 1 / 2 ≤ roundHalfEven number ∧ (roundHalfEven number : Rat) ≤ number + 1 / 2 := by
  have below : (number.floor : Rat) ≤ number := Rat.floor_le number
  have above : number < number.floor + 1 := by exact_mod_cast Rat.lt_floor_add_one number
  unfold roundHalfEven
  dsimp only
  split
  next low => constructor <;> linarith
  next low =>
    split
    next high =>
      push_cast
      constructor <;> linarith
    next high =>
      have middle : number - number.floor = 1 / 2 := le_antisymm (not_lt.mp high) (not_lt.mp low)
      split
      · constructor <;> linarith
      · push_cast
        constructor <;> linarith

variable {left right : Rat}

theorem roundHalfEven_mono (order : left ≤ right) : roundHalfEven left ≤ roundHalfEven right := by
  by_contra crossed
  have apart : roundHalfEven right + 1 ≤ roundHalfEven left := not_le.mp crossed
  have apart' : (roundHalfEven right : Rat) + 1 ≤ roundHalfEven left := by exact_mod_cast apart
  have upper := (roundHalfEven_bounds left).2
  have lower := (roundHalfEven_bounds right).1
  have equal : left = right := by linarith
  rw [equal] at crossed
  exact crossed le_rfl

variable {number : Rat}

theorem roundHalfEven_le {bound : Nat} (upper : number ≤ bound) : roundHalfEven number ≤ bound := by
  have order := roundHalfEven_mono upper
  rwa [roundHalfEven_natCast] at order

theorem le_roundHalfEven {bound : Nat} (lower : (bound : Rat) ≤ number) :
    (bound : Int) ≤ roundHalfEven number := by
  have order := roundHalfEven_mono lower
  rwa [roundHalfEven_natCast] at order

def roundedMantissa (number : Rat) (exponent : Int) : Nat :=
  (roundHalfEven (number / (2 : Rat) ^ (exponent - 52))).toNat

def roundedExponent (number : Rat) : Int :=
  max (binaryExponent number) (-1022)

theorem ofMagnitude_eq (positive : 0 < number) :
    ofMagnitude number =
      min ((roundedExponent number + 1022).toNat * 2 ^ 52 +
        roundedMantissa number (roundedExponent number)) (2047 * 2 ^ 52) := by
  rw [ofMagnitude, if_neg (not_le.mpr positive)]
  rfl

theorem roundedMantissa_le (positive : 0 < number) :
    roundedMantissa number (roundedExponent number) ≤ 2 ^ 53 := by
  have below : number < (2 : Rat) ^ (roundedExponent number + 1) :=
    lt_of_lt_of_le (binaryExponent_spec positive).2
      (zpow_le_zpow_right₀ one_le_two (by rw [roundedExponent]; omega))
  have bound : number / (2 : Rat) ^ (roundedExponent number - 52) ≤ ((2 ^ 53 : Nat) : Rat) := by
    rw [div_le_iff₀ (by positivity)]
    apply le_of_lt
    calc number < (2 : Rat) ^ (roundedExponent number + 1) := below
      _ = ((2 ^ 53 : Nat) : Rat) * (2 : Rat) ^ (roundedExponent number - 52) := by
          rw [Nat.cast_pow, ← zpow_natCast, Nat.cast_two, ← zpow_add₀ two_ne_zero]
          congr 1
          omega
  have rounded := roundHalfEven_le bound
  rw [roundedMantissa]
  omega

theorem le_roundedMantissa (positive : 0 < number) (normal : -1022 ≤ binaryExponent number) :
    2 ^ 52 ≤ roundedMantissa number (roundedExponent number) := by
  have exponent : roundedExponent number = binaryExponent number := by
    rw [roundedExponent]
    omega
  have above : (2 : Rat) ^ roundedExponent number ≤ number := by
    rw [exponent]
    exact (binaryExponent_spec positive).1
  have bound : ((2 ^ 52 : Nat) : Rat) ≤ number / (2 : Rat) ^ (roundedExponent number - 52) := by
    rw [le_div_iff₀ (by positivity)]
    calc ((2 ^ 52 : Nat) : Rat) * (2 : Rat) ^ (roundedExponent number - 52)
        = (2 : Rat) ^ roundedExponent number := by
          rw [Nat.cast_pow, ← zpow_natCast, Nat.cast_two, ← zpow_add₀ two_ne_zero]
          congr 1
          omega
      _ ≤ number := above
  have rounded := le_roundHalfEven bound
  rw [roundedMantissa]
  omega

theorem binaryExponent_mono (positive : 0 < left) (order : left ≤ right) :
    binaryExponent left ≤ binaryExponent right := by
  have below := (binaryExponent_spec positive).1
  have above := (binaryExponent_spec (lt_of_lt_of_le positive order)).2
  have powers := (zpow_lt_zpow_iff_right₀ (one_lt_two : (1 : Rat) < 2)).mp
    (lt_of_le_of_lt below (lt_of_le_of_lt order above))
  omega

theorem ofMagnitude_mono (order : left ≤ right) : ofMagnitude left ≤ ofMagnitude right := by
  by_cases positive : 0 < left
  · have exponents := binaryExponent_mono positive order
    have later := lt_of_lt_of_le positive order
    rw [ofMagnitude_eq positive, ofMagnitude_eq later]
    have leftExponent : roundedExponent left = max (binaryExponent left) (-1022) := rfl
    have rightExponent : roundedExponent right = max (binaryExponent right) (-1022) := rfl
    apply min_le_min_right
    by_cases same : roundedExponent left = roundedExponent right
    · -- At the same exponent the mantissas are in order.
      have mantissas : roundedMantissa left (roundedExponent right) ≤
          roundedMantissa right (roundedExponent right) := by
        apply Int.toNat_le_toNat
        apply roundHalfEven_mono
        gcongr
      rw [same]
      omega
    · -- A mantissa that is rounded up carries at most into the next exponent.
      have upper := roundedMantissa_le positive
      have lower := le_roundedMantissa later (by omega)
      omega
  · rw [ofMagnitude, if_pos (not_lt.mp positive)]
    exact Nat.zero_le _

theorem Scaled.value_le {left right : Scaled} (order : left.bits ≤ right.bits) :
    left.value ≤ right.value := by
  have leftMantissa := left.mantissa_lt
  have rightMantissa := right.mantissa_lt
  have leftNormal := left.normal
  have rightNormal := right.normal
  have leftExponent := left.exponent_ge
  have rightExponent := right.exponent_ge
  rw [Scaled.bits, Scaled.bits] at order
  rw [Scaled.value, Scaled.value]
  rcases lt_trichotomy left.exponent right.exponent with smaller | same | larger
  · have lower : 2 ^ 52 ≤ right.mantissa := by omega
    calc (left.mantissa : Rat) * (2 : Rat) ^ (left.exponent - 52)
        ≤ (2 : Rat) ^ (53 : Int) * (2 : Rat) ^ (left.exponent - 52) := by
          gcongr
          exact_mod_cast le_of_lt leftMantissa
      _ = (2 : Rat) ^ (left.exponent + 1) := by
          rw [← zpow_add₀ two_ne_zero]
          congr 1
          omega
      _ ≤ (2 : Rat) ^ right.exponent := zpow_le_zpow_right₀ one_le_two (by omega)
      _ = (2 : Rat) ^ (52 : Int) * (2 : Rat) ^ (right.exponent - 52) := by
          rw [← zpow_add₀ two_ne_zero]
          congr 1
          omega
      _ ≤ right.mantissa * (2 : Rat) ^ (right.exponent - 52) := by
          gcongr
          exact_mod_cast lower
  · have mantissas : left.mantissa ≤ right.mantissa := by
      rw [same] at order
      omega
    rw [same]
    gcongr
  · omega

theorem ofRat_nonneg (nonneg : 0 ≤ number) :
    (ofRat number).bits.toNat = ofMagnitude number ∧ (ofRat number).isNegative = false ∧
      (ofRat number = infinity ∨ (ofRat number).isFinite = true) := by
  have bound : ofMagnitude number ≤ 2047 * 2 ^ 52 := by
    rw [ofMagnitude]
    split
    · omega
    · exact min_le_right _ _
  have bits : (ofRat number).bits.toNat = ofMagnitude number := by
    rw [ofRat, if_neg (not_lt.mpr nonneg), UInt64.toNat_ofNat', Nat.mod_eq_of_lt (by omega)]
  refine ⟨bits, ?_, ?_⟩
  · rw [isNegative, bits]
    exact decide_eq_false (by omega)
  · by_cases top : ofMagnitude number = 2047 * 2 ^ 52
    · left
      rw [ofRat, if_neg (not_lt.mpr nonneg), top]
      rfl
    · right
      rw [isFinite, exponentField, bits]
      exact decide_eq_true (by omega)

theorem lessEqual_ofRat (nonneg : 0 ≤ left) (order : left ≤ right) :
    (ofRat left).lessEqual (ofRat right) = true := by
  rcases ofRat_nonneg nonneg with ⟨leftBits, leftPositive, leftKind⟩
  rcases ofRat_nonneg (nonneg.trans order) with ⟨rightBits, rightPositive, rightKind⟩
  have bits := ofMagnitude_mono order
  have infinityNotNan : infinity.isNan = false := by decide
  have infinityBits : infinity.bits.toNat = 2047 * 2 ^ 52 := by decide
  rcases rightKind with right_infinite | rightFinite
  · have leftNotNan : (ofRat left).isNan = false := by
      rcases leftKind with infinite | finite
      · rw [infinite]
        exact infinityNotNan
      · simp [isNan, finite]
    simp [lessEqual, right_infinite, leftNotNan, infinityNotNan]
  · rcases leftKind with infinite | leftFinite
    · -- An infinite left side would leave no finite right side above it.
      rw [infinite, infinityBits] at leftBits
      have large := rightBits
      rw [bits_eq _ rightFinite, rightPositive] at large
      have below := ((ofRat right).scaled rightFinite).bits_lt
      simp only [Bool.false_eq_true, if_false] at large
      omega
    · have values : (ofRat left).value ≤ (ofRat right).value := by
        rw [value_eq _ leftFinite, value_eq _ rightFinite, leftPositive, rightPositive]
        simp only [Bool.false_eq_true, if_false]
        apply Scaled.value_le
        rw [bits_eq _ leftFinite, leftPositive] at leftBits
        rw [bits_eq _ rightFinite, rightPositive] at rightBits
        simp only [Bool.false_eq_true, if_false] at leftBits rightBits
        omega
      simp [lessEqual, isNan, leftFinite, rightFinite, values]

end HarnessAgent.F64
