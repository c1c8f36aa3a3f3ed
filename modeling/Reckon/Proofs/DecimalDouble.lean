import Reckon.Decimal.Basic
import Reckon.Proofs.NearestDouble

/-! Reading a decimal gives the nearest double. Few digits and a small power of ten are
two exact doubles, whose product or quotient is rounded once; all else is rounded from
the exact value. -/

namespace Reckon.Decimal

def value (decimal : Decimal) : ℚ :=
  decimal.digits * 10 ^ decimal.exponent

end Reckon.Decimal

namespace Reckon.Proofs.DecimalDouble
open Float.Model Float.Model.UnpackedFloat Double NearestDouble

variable {m₁ m₂ : ℕ} {e₁ e₂ : ℤ} {x y : Float} {p q : ℚ}

private theorem le_target_of_le {exponent : ℤ} (pos : 0 < q) (above : 2 ^ 52 * 2 ^ exponent ≤ q) :
    exponent ≤ target q := by
  have log : 52 + exponent ≤ Int.log 2 q := by
    refine (Int.zpow_le_iff_le_log (b := 2) (by decide) pos).mp ?_
    rw [Nat.cast_ofNat, zpow_add₀ (by norm_num)]
    exact_mod_cast above
  unfold target
  omega

/-- A product is rounded once. -/
theorem mul_eq (pos₁ : 0 < m₁) (pos₂ : 0 < m₂) (wide : 2 ^ 52 ≤ m₁ * m₂) :
    UnpackedFloat.mul Format.binary64 (.finite .positive m₁ e₁ pos₁) (.finite .positive m₂ e₂ pos₂) =
      nearest .positive (m₁ * 2 ^ e₁ * (m₂ * 2 ^ e₂)) := by
  have product : (m₁ : ℚ) * 2 ^ e₁ * (m₂ * 2 ^ e₂) = (m₁ * m₂ : ℕ) * 2 ^ (e₁ + e₂) := by
    rw [zpow_add₀ (by norm_num)]
    push_cast
    ring
  have pos : (0 : ℚ) < (m₁ * m₂ : ℕ) * 2 ^ (e₁ + e₂) := by
    have some : 0 < m₁ * m₂ := Nat.mul_pos pos₁ pos₂
    positivity
  rw [product]
  apply roundWithAccuracy_eq .positive pos
  · apply le_target_of_le pos
    have cast : (2 : ℚ) ^ 52 ≤ (m₁ * m₂ : ℕ) := by exact_mod_cast wide
    exact mul_le_mul_of_nonneg_right cast (by positivity)
  · exact mul_div_cancel_right₀ _ (by positivity)

private theorem marks_of_fraction (numerator : ℕ) {denominator : ℕ} (some : 0 < denominator) :
    Marks (.ofMantissaAndAccuracy (numerator / denominator)
      (accuracyOfFraction (numerator % denominator) denominator)) (numerator / denominator) := by
  have parts : (numerator : ℚ) / denominator =
      (numerator / denominator : ℕ) + (numerator % denominator : ℕ) / denominator := by
    have division : (numerator : ℚ) =
        denominator * (numerator / denominator : ℕ) + (numerator % denominator : ℕ) := by
      exact_mod_cast (Nat.div_add_mod numerator denominator).symm
    have nonzero : (denominator : ℚ) ≠ 0 := by positivity
    rw [← mul_right_inj' nonzero, mul_add, mul_div_cancel₀ _ nonzero, mul_div_cancel₀ _ nonzero]
    exact division
  have positive : (0 : ℚ) < denominator := by exact_mod_cast some
  have bound : ((numerator % denominator : ℕ) : ℚ) < denominator := by
    exact_mod_cast Nat.mod_lt numerator some
  rw [parts]
  generalize numerator / denominator = whole
  generalize numerator % denominator = rest at bound
  unfold accuracyOfFraction
  by_cases none : rest = 0
  · simp [none, ExtendedMantissa.ofMantissaAndAccuracy, Marks]
  · have above : (0 : ℚ) < rest := by positivity
    rw [if_neg none]
    rcases order : compare (2 * rest) denominator with _ | _ | _
    · have less : (2 * rest : ℚ) < denominator := by exact_mod_cast Nat.compare_eq_lt.mp order
      simp only [ExtendedMantissa.ofMantissaAndAccuracy, Marks, lt_add_iff_pos_right,
        add_sub_cancel_left]
      exact ⟨by positivity, by rwa [← mul_div_assoc, div_lt_one positive]⟩
    · have same : (2 * rest : ℚ) = denominator := by exact_mod_cast Nat.compare_eq_eq.mp order
      simp only [ExtendedMantissa.ofMantissaAndAccuracy, Marks, add_sub_cancel_left]
      rw [← mul_div_assoc, same, div_self positive.ne']
    · have more : (denominator : ℚ) < 2 * rest := by exact_mod_cast Nat.compare_eq_gt.mp order
      simp only [ExtendedMantissa.ofMantissaAndAccuracy, Marks, add_sub_cancel_left,
        add_lt_add_iff_left]
      exact ⟨by rwa [← mul_div_assoc, one_lt_div positive], by rwa [div_lt_one positive]⟩

/-- The digits of a quotient are developed far enough for it to be rounded once. -/
private theorem quotient_place (e₁ e₂ : ℤ) (pos₁ : 0 < m₁) (pos₂ : 0 < m₂) :
    Format.binary64.targetExponent (totalExponent m₁ e₁ - totalExponent m₂ e₂) ≤
      target (m₁ * 2 ^ e₁ / (m₂ * 2 ^ e₂)) := by
  have least : (2 : ℚ) ^ m₁.log2 ≤ m₁ := by exact_mod_cast Nat.log2_self_le pos₁.ne'
  have most : (m₂ : ℚ) ≤ 2 ^ (m₂.log2 + 1) := by exact_mod_cast Nat.lt_log2_self.le
  have log : (m₁.log2 : ℤ) + e₁ - (m₂.log2 + 1 : ℕ) - e₂ ≤
      Int.log 2 ((m₁ : ℚ) * 2 ^ e₁ / (m₂ * 2 ^ e₂)) := by
    refine (Int.zpow_le_iff_le_log (b := 2) (by decide) (by positivity)).mp ?_
    rw [Nat.cast_ofNat, zpow_sub₀ (by norm_num), zpow_sub₀ (by norm_num), zpow_add₀ (by norm_num),
      zpow_natCast, zpow_natCast, div_div]
    gcongr
  change max ((m₁.log2 : ℤ) + 1 + e₁ - ((m₂.log2 : ℤ) + 1 + e₂) - 53) (-1074) ≤ _
  unfold target
  push_cast at log
  omega

/-- A quotient is rounded once. -/
theorem div_eq (pos₁ : 0 < m₁) (pos₂ : 0 < m₂) :
    UnpackedFloat.div Format.binary64 (.finite .positive m₁ e₁ pos₁) (.finite .positive m₂ e₂ pos₂) =
      nearest .positive (m₁ * 2 ^ e₁ / (m₂ * 2 ^ e₂)) := by
  have place := quotient_place e₁ e₂ pos₁ pos₂
  simp only [UnpackedFloat.div, divCore]
  generalize Format.binary64.targetExponent (totalExponent m₁ e₁ - totalExponent m₂ e₂) = wanted at place
  have shift : (((e₁ - e₂ - min (e₁ - e₂) wanted).toNat : ℕ) : ℤ) =
      e₁ - e₂ - min (e₁ - e₂) wanted := by omega
  generalize (e₁ - e₂ - min (e₁ - e₂) wanted).toNat = count at shift
  apply roundWithAccuracy_eq _ (by positivity) (le_trans (min_le_right ..) place)
  have scaled : (m₁ : ℚ) * 2 ^ e₁ / (m₂ * 2 ^ e₂) / 2 ^ min (e₁ - e₂) wanted =
      (m₁ <<< count : ℕ) / m₂ := by
    have exponents : (2 : ℚ) ^ count = 2 ^ e₁ / 2 ^ e₂ / 2 ^ min (e₁ - e₂) wanted := by
      rw [← zpow_natCast, shift, zpow_sub₀ (by norm_num), zpow_sub₀ (by norm_num)]
    rw [Nat.shiftLeft_eq, Nat.cast_mul, Nat.cast_pow, Nat.cast_ofNat, exponents]
    field_simp
  rw [scaled]
  exact marks_of_fraction _ pos₂

def Holds (x : Float) (q : ℚ) : Prop :=
  ∃ m e pos, x.toModel.unpack = .finite .positive m e pos ∧ 2 ^ 52 ≤ m ∧ q = m * 2 ^ e

private theorem mul_of_holds (first : Holds x p) (second : Holds y q) :
    x * y = .ofModel (.pack (nearest .positive (p * q))) := by
  obtain ⟨m₁, e₁, pos₁, unpacked₁, wide₁, rfl⟩ := first
  obtain ⟨m₂, e₂, pos₂, unpacked₂, wide₂, rfl⟩ := second
  change Float.ofModel (.pack (UnpackedFloat.mul Format.binary64 x.toModel.unpack y.toModel.unpack)) = _
  rw [unpacked₁, unpacked₂, mul_eq pos₁ pos₂ (le_trans wide₁ (Nat.le_mul_of_pos_right _ pos₂))]

private theorem div_of_holds (first : Holds x p) (second : Holds y q) :
    x / y = .ofModel (.pack (nearest .positive (p / q))) := by
  obtain ⟨m₁, e₁, pos₁, unpacked₁, wide₁, rfl⟩ := first
  obtain ⟨m₂, e₂, pos₂, unpacked₂, wide₂, rfl⟩ := second
  change Float.ofModel (.pack (UnpackedFloat.div Format.binary64 x.toModel.unpack y.toModel.unpack)) = _
  rw [unpacked₁, unpacked₂, div_eq pos₁ pos₂]

section Whole

variable {n : ℕ}

private theorem whole_value (log : n.log2 ≤ 52) :
    (n : ℚ) = (n <<< (52 - n.log2) : ℕ) * 2 ^ ((n.log2 : ℤ) - 52) := by
  have exponent : ((52 - n.log2 : ℕ) : ℤ) = -((n.log2 : ℤ) - 52) := by omega
  rw [Nat.shiftLeft_eq, Nat.cast_mul, Nat.cast_pow, Nat.cast_ofNat, ← zpow_natCast, exponent,
    mul_assoc, ← zpow_add₀ (by norm_num), neg_add_cancel, zpow_zero, mul_one]

private theorem whole_wide (some : 0 < n) (log : n.log2 ≤ 52) : 2 ^ 52 ≤ n <<< (52 - n.log2) := by
  rw [Nat.shiftLeft_eq]
  calc 2 ^ 52 = 2 ^ n.log2 * 2 ^ (52 - n.log2) := by rw [← pow_add]; congr 1; omega
    _ ≤ n * 2 ^ (52 - n.log2) := Nat.mul_le_mul_right _ (Nat.log2_self_le some.ne')

private theorem whole_narrow (log : n.log2 ≤ 52) : n <<< (52 - n.log2) < 2 ^ 53 := by
  rw [Nat.shiftLeft_eq]
  calc n * 2 ^ (52 - n.log2) < 2 ^ (n.log2 + 1) * 2 ^ (52 - n.log2) :=
        Nat.mul_lt_mul_of_pos_right Nat.lt_log2_self (by positivity)
    _ = 2 ^ 53 := by rw [← pow_add]; congr 1; omega

private theorem round_whole (some : 0 < n) (log : n.log2 ≤ 52) (pos : 0 < n <<< (52 - n.log2)) :
    UnpackedFloat.round Format.binary64 .positive n 0 =
      .finite .positive (n <<< (52 - n.log2)) ((n.log2 : ℤ) - 52) pos := by
  have place : (0 : ℤ) - ((0 : ℤ) - Format.binary64.targetExponent (totalExponent n 0)).toNat =
      (n.log2 : ℤ) - 52 := by
    change (0 : ℤ) - ((0 : ℤ) - max ((n.log2 : ℤ) + 1 + 0 - 53) (-1074)).toNat = _
    omega
  have shift : ((0 : ℤ) - Format.binary64.targetExponent (totalExponent n 0)).toNat =
      52 - n.log2 := by omega
  have value := whole_value log
  have wide := whole_wide some log
  have canonical : Canonical ⟨n <<< (52 - n.log2), (n.log2 : ℤ) - 52⟩ :=
    ⟨whole_narrow log, by simp only; omega, by simp only; omega, .inl wide⟩
  have positive : (0 : ℚ) < n := by exact_mod_cast some
  rw [UnpackedFloat.round, decreaseExponent, place, shift]
  refine (roundWithAccuracy_eq .positive positive ?_ ?_).trans (nearest_eq canonical pos .positive ?_ ?_)
  · apply le_target_of_le positive
    rw [value]
    gcongr
    exact_mod_cast wide
  · change (n : ℚ) / _ = _
    rw [div_eq_iff (by positivity)]
    exact value
  · simp only [Magnitude.value, ← value, sub_self, abs_zero, mul_zero]
    positivity
  · intro
    simp only [Magnitude.value, ← value, sub_self, mul_zero]
    positivity

/-- A whole number below the width of a mantissa is taken as it is. -/
theorem holds_whole (some : 0 < n) (narrow : n < 2 ^ 53) : Holds n.toUInt64.toFloat n := by
  have log : n.log2 ≤ 52 := Nat.le_of_lt_succ ((Nat.log2_lt some.ne').mpr narrow)
  have wide := whole_wide some log
  have pos : 0 < n <<< (52 - n.log2) := by omega
  have canonical : Canonical ⟨n <<< (52 - n.log2), (n.log2 : ℤ) - 52⟩ :=
    ⟨whole_narrow log, by simp only; omega, by simp only; omega, .inl wide⟩
  have same : n.toUInt64.toNat = n := by
    rw [Nat.toUInt64_eq, UInt64.toNat_ofNat']
    omega
  have order : compare (n : ℤ) 0 = .gt := by
    rw [Int.compare_eq_gt]
    omega
  refine ⟨_, _, pos, ?_, wide, whole_value log⟩
  change (Float.Model.pack (normalize Format.binary64 n.toUInt64.toNat 0 .positive)).unpack = _
  rw [same, UnpackedFloat.normalize, order]
  simp only [Int.toNat_natCast]
  rw [round_whole some log pos]
  exact unpack_pack canonical pos .positive

end Whole

def tabulated (places : Fin 23) : Float :=
  have inside : places.val < Float.exactlyRepresentablePowersOfTen.size := places.isLt
  Float.exactlyRepresentablePowersOfTen[places.val]

/-- The powers of ten in the table are exact. -/
theorem holds_tabulated (places : Fin 23) : Holds (tabulated places) (10 ^ places.val) := by
  have checked : ∀ places, (tabulated places).isFinite = true ∧ isNegative (tabulated places) = false ∧
      2 ^ 52 ≤ (magnitude (tabulated places)).mantissa ∧
      (magnitude (tabulated places)).numerator =
        10 ^ places.val * (magnitude (tabulated places)).denominator := by
    decide +kernel
  obtain ⟨finite, positive, wide, value⟩ := checked places
  cases unpacks_of_isFinite finite with
  | zero _ empty =>
    rw [empty] at wide
    exact absurd wide (by decide)
  | finite pos unpacked _ =>
    refine ⟨_, _, pos, by rw [unpacked, sign, positive]; rfl, wide, ?_⟩
    have nonzero : ((magnitude (tabulated places)).denominator : ℚ) ≠ 0 := by
      exact_mod_cast (Magnitude.denominator_pos _).ne'
    refine Eq.trans ?_ (Magnitude.value_eq_div _).symm
    rw [eq_div_iff nonzero]
    exact_mod_cast value.symm

private theorem ofScientific_eq {digits : ℕ} {exponent : ℤ} (some : 0 < digits)
    (low : -2048 ≤ exponent) (high : exponent ≤ 2048) :
    UnpackedFloat.ofScientific Format.binary64 digits exponent =
      nearest .positive (digits * 10 ^ exponent) := by
  have inside : ¬ exponent > 2 ^ 11 ∧ ¬ exponent < -((2 ^ 11 : ℤ) + digits.log2) := by omega
  rw [UnpackedFloat.ofScientific, dif_neg some.ne', if_neg inside.1, if_neg inside.2]
  by_cases whole : 0 ≤ exponent
  · obtain ⟨places, rfl⟩ := Int.eq_ofNat_of_zero_le whole
    have wide : 2 ^ 52 ≤ digits <<< 53 * 10 ^ places := by
      rw [Nat.shiftLeft_eq]
      have ten : 0 < 10 ^ places := by positivity
      nlinarith [Nat.mul_pos some ten]
    rw [if_pos whole]
    refine (mul_eq _ _ wide).trans (congrArg (nearest .positive) ?_)
    have unit : (9007199254740992 : ℚ) * 2 ^ (-53 : ℤ) = 1 := by norm_num
    change ((digits <<< 53 : ℕ) : ℚ) * 2 ^ (-53 : ℤ) * ((10 ^ places : ℕ) * 2 ^ (0 : ℤ)) = _
    rw [Nat.shiftLeft_eq]
    push_cast
    rw [mul_assoc (digits : ℚ), unit]
    simp
  · obtain ⟨places, rfl⟩ := Int.exists_eq_neg_ofNat (le_of_not_ge whole)
    rw [if_neg whole]
    refine (div_eq _ _).trans (congrArg (nearest .positive) ?_)
    simp [div_eq_mul_inv]

/-- Reading a decimal gives the nearest double. -/
theorem toFloat_eq {decimal : Decimal} (some : 0 < decimal.digits)
    (low : -2048 ≤ decimal.exponent) (high : decimal.exponent ≤ 2048) :
    decimal.toFloat = .ofModel (.pack (nearest .positive decimal.value)) := by
  have exact := ofScientific_eq some low high
  unfold Decimal.toFloat Decimal.value
  by_cases below : decimal.exponent < 0
  · have places : decimal.exponent = -((-decimal.exponent).toNat : ℤ) := by omega
    rw [if_pos below]
    unfold Float.ofScientific
    by_cases few : decimal.digits < 2 ^ 53 ∧ (-decimal.exponent).toNat ≤ 22
    · have quotient := div_of_holds (holds_whole some few.1)
        (holds_tabulated ⟨(-decimal.exponent).toNat, by omega⟩)
      rw [dif_pos few]
      conv_rhs => rw [places, zpow_neg, zpow_natCast, ← div_eq_mul_inv]
      exact quotient
    · rw [dif_neg few, if_pos rfl, Int.negOfNat_eq, Int.ofNat_eq_natCast, ← places]
      exact congrArg (Float.ofModel ∘ Float.Model.pack) exact
  · have places : decimal.exponent = (decimal.exponent.toNat : ℤ) := by omega
    rw [if_neg below]
    unfold Float.ofScientific
    by_cases few : decimal.digits < 2 ^ 53 ∧ decimal.exponent.toNat ≤ 22
    · have product := mul_of_holds (holds_whole some few.1)
        (holds_tabulated ⟨decimal.exponent.toNat, by omega⟩)
      rw [dif_pos few]
      conv_rhs => rw [places, zpow_natCast]
      exact product
    · rw [dif_neg few, if_neg Bool.false_ne_true, Int.ofNat_eq_natCast, ← places]
      exact congrArg (Float.ofModel ∘ Float.Model.pack) exact

end Reckon.Proofs.DecimalDouble
