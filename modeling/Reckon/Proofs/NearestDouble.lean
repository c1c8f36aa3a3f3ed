import Reckon.Proofs.Double

/-! Rounding to the nearest double as arithmetic on rational numbers. The bits that the
format keeps beside a shifted mantissa say where the exact value lies, which is all that
rounding needs. -/

namespace Reckon.Proofs.NearestDouble
open Float.Model Float.Model.UnpackedFloat Double

/-- The whole number nearest to `x`, a tie going to the even one. -/
def nearestWhole (x : ℚ) : ℕ :=
  if 2 * (x - ⌊x⌋₊) < 1 then ⌊x⌋₊
  else if 1 < 2 * (x - ⌊x⌋₊) then ⌊x⌋₊ + 1
  else ⌊x⌋₊ + ⌊x⌋₊ % 2

def target (q : ℚ) : ℤ :=
  max (Int.log 2 q - 52) (-1074)

/-- The double nearest to a value, before the greatest exponent is looked at. -/
def nearest (s : Sign) (q : ℚ) : UnpackedFloat :=
  let units := nearestWhole (q / 2 ^ target q)
  if none : units = 0 then .zero s
  else if units < 2 ^ 53 then .finite s units (target q) (Nat.pos_of_ne_zero none)
  else .finite s (2 ^ 52) (target q + 1) (by decide)

/-- Where `x` lies, as the round bit and the sticky bit tell it. -/
def Marks (em : ExtendedMantissa) (x : ℚ) : Prop :=
  match em.roundBit, em.stickyBit with
  | false, false => x = em.mantissa
  | false, true => em.mantissa < x ∧ 2 * (x - em.mantissa) < 1
  | true, false => 2 * (x - em.mantissa) = 1
  | true, true => 1 < 2 * (x - em.mantissa) ∧ x < em.mantissa + 1

variable {em : ExtendedMantissa} {x q : ℚ} {mantissa : ℕ} {exponent : ℤ} {accuracy : Accuracy}

theorem Marks.bounds (marks : Marks em x) : em.mantissa ≤ x ∧ x < em.mantissa + 1 := by
  obtain ⟨mantissa, roundBit, stickyBit⟩ := em
  cases roundBit <;> cases stickyBit <;> simp only [Marks] at marks ⊢ <;>
    constructor <;> linarith

theorem Marks.floor (marks : Marks em x) : ⌊x⌋₊ = em.mantissa := by
  obtain ⟨low, high⟩ := marks.bounds
  exact (Nat.floor_eq_iff (le_trans (Nat.cast_nonneg _) low)).mpr ⟨low, high⟩

theorem Marks.roundedMantissa (marks : Marks em x) : em.roundedMantissa = nearestWhole x := by
  rw [nearestWhole, marks.floor]
  obtain ⟨mantissa, roundBit, stickyBit⟩ := em
  cases roundBit <;> cases stickyBit <;> simp only [Marks] at marks <;>
    simp only [ExtendedMantissa.roundedMantissa, ExtendedMantissa.accuracy,
      Accuracy.roundToNearestEven]
  · rw [if_pos (by linarith)]
  · rw [if_pos marks.2]
  · rw [if_neg (by linarith), if_neg (by linarith)]
  · rw [if_neg (by linarith), if_pos marks.1]

/-- A dropped bit halves the value and is remembered. -/
theorem Marks.shiftRightOne (marks : Marks em x) : Marks em.shiftRightOne (x / 2) := by
  obtain ⟨mantissa, roundBit, stickyBit⟩ := em
  have parts : (mantissa : ℚ) = 2 * (mantissa / 2 : ℕ) + (mantissa % 2 : ℕ) := by
    exact_mod_cast (Nat.div_add_mod mantissa 2).symm
  rcases Nat.mod_two_eq_zero_or_one mantissa with even | odd
  · rw [even] at parts
    cases roundBit <;> cases stickyBit <;>
      simp [Marks, ExtendedMantissa.shiftRightOne, even] at marks parts ⊢ <;>
      first | linarith | (constructor <;> linarith)
  · rw [odd] at parts
    cases roundBit <;> cases stickyBit <;>
      simp [Marks, ExtendedMantissa.shiftRightOne, odd] at marks parts ⊢ <;>
      first | linarith | (constructor <;> linarith)

theorem Marks.shiftRight (marks : Marks em x) (count : ℕ) : Marks (em >>> count) (x / 2 ^ count) := by
  change Marks (count.repeat ExtendedMantissa.shiftRightOne em) (x / 2 ^ count)
  induction count with
  | zero => simpa [Nat.repeat] using marks
  | succ count ih =>
    rw [Nat.repeat, pow_succ, ← div_div]
    exact ih.shiftRightOne

section Target

private theorem log_lt_iff (pos : 0 < q) : Int.log 2 q < exponent ↔ q < 2 ^ exponent := by
  simpa using (Int.lt_zpow_iff_log_lt (b := 2) (by decide) pos).symm

private theorem le_log_iff (pos : 0 < q) : exponent ≤ Int.log 2 q ↔ 2 ^ exponent ≤ q := by
  simpa using (Int.zpow_le_iff_le_log (b := 2) (by decide) pos).symm

private theorem lt_of_target (pos : 0 < q) : q / 2 ^ target q < 2 ^ 53 := by
  have below : Int.log 2 q < 53 + target q := by
    unfold target
    omega
  rw [log_lt_iff pos, zpow_add₀ (by norm_num)] at below
  rw [div_lt_iff₀ (by positivity)]
  exact_mod_cast below

/-- The format shifts a mantissa by as much as the exact value asks for. -/
private theorem targetExponent_eq (pos : 0 < q) (inside : mantissa ≤ q / 2 ^ exponent)
    (above : q / 2 ^ exponent < mantissa + 1) (low : exponent ≤ target q) :
    Format.binary64.targetExponent (totalExponent mantissa exponent) = target q := by
  rw [le_div_iff₀ (by positivity)] at inside
  rw [div_lt_iff₀ (by positivity)] at above
  change max ((mantissa.log2 : ℤ) + 1 + exponent - 53) (-1074) = target q
  by_cases none : mantissa = 0
  · subst none
    have under : Int.log 2 q < exponent := (log_lt_iff pos).mpr (by simpa using above)
    have zero : (0 : ℕ).log2 = 0 := by decide
    unfold target at low ⊢
    rw [zero]
    omega
  · have least : (2 : ℚ) ^ mantissa.log2 ≤ mantissa := by
      exact_mod_cast Nat.log2_self_le none
    have most : (mantissa : ℚ) + 1 ≤ 2 ^ (mantissa.log2 + 1) := by
      exact_mod_cast Nat.lt_log2_self
    have lower : (mantissa.log2 : ℤ) + exponent ≤ Int.log 2 q := by
      rw [le_log_iff pos, zpow_add₀ (by norm_num), zpow_natCast]
      exact le_trans (mul_le_mul_of_nonneg_right least (by positivity)) inside
    have upper : Int.log 2 q < (mantissa.log2 + 1 : ℕ) + exponent := by
      rw [log_lt_iff pos, zpow_add₀ (by norm_num), zpow_natCast]
      exact lt_of_lt_of_le above (mul_le_mul_of_nonneg_right most (by positivity))
    unfold target
    omega

private theorem target_eq (pos : 0 < q) (low : -1074 ≤ exponent)
    (inside : 2 ^ 52 * 2 ^ exponent ≤ q ∨ exponent = -1074) (below : q < 2 ^ 53 * 2 ^ exponent) :
    target q = exponent := by
  have upper : Int.log 2 q < 53 + exponent := by
    rw [log_lt_iff pos, zpow_add₀ (by norm_num)]
    exact_mod_cast below
  unfold target
  rcases inside with above | least
  · have lower : 52 + exponent ≤ Int.log 2 q := by
      rw [le_log_iff pos, zpow_add₀ (by norm_num)]
      exact_mod_cast above
    omega
  · omega

end Target

private theorem nearestWhole_le {limit : ℕ} (nonneg : 0 ≤ x) (below : x < limit) :
    nearestWhole x ≤ limit := by
  have floor : ⌊x⌋₊ < limit := (Nat.floor_lt nonneg).mpr below
  unfold nearestWhole
  split
  · omega
  · split <;> omega

private theorem targetExponent_le {units : ℕ} (low : -1074 ≤ exponent) (narrow : units < 2 ^ 53) :
    Format.binary64.targetExponent (totalExponent units exponent) ≤ exponent := by
  have log : units.log2 ≤ 52 := by
    by_cases none : units = 0
    · subst none
      decide
    · exact Nat.le_of_lt_succ ((Nat.log2_lt none).mpr narrow)
  change max ((units.log2 : ℤ) + 1 + exponent - 53) (-1074) ≤ exponent
  omega

/-- Once a value has its place in the format, no bit of it is dropped. -/
private theorem shift_exact {units : ℕ} (low : -1074 ≤ exponent) (narrow : units < 2 ^ 53) :
    shiftToTargetExponent Format.binary64 units exponent .exact =
      (⟨units, false, false⟩, exponent) := by
  have amount :
      (Format.binary64.targetExponent (totalExponent units exponent) - exponent).toNat = 0 := by
    have fits := targetExponent_le low narrow
    omega
  rw [shiftToTargetExponent, shiftToExponent, amount]
  exact congrArg (Prod.mk _) (add_zero exponent)

private theorem shift_carry (low : -1074 ≤ exponent) :
    shiftToTargetExponent Format.binary64 (2 ^ 53) exponent .exact =
      (⟨2 ^ 52, false, false⟩, exponent + 1) := by
  have amount :
      (Format.binary64.targetExponent (totalExponent (2 ^ 53) exponent) - exponent).toNat = 1 := by
    have log : Nat.log2 (2 ^ 53) = 53 := Nat.log2_two_pow
    change (max ((Nat.log2 (2 ^ 53) : ℤ) + 1 + exponent - 53) (-1074) - exponent).toNat = 1
    rw [log]
    omega
  rw [shiftToTargetExponent, shiftToExponent, amount]
  rfl

/-- Rounding a mantissa that was cut somewhere below its place. -/
theorem roundWithAccuracy_eq (s : Sign) (pos : 0 < q) (low : exponent ≤ target q)
    (marks : Marks (.ofMantissaAndAccuracy mantissa accuracy) (q / 2 ^ exponent)) :
    roundWithAccuracy Format.binary64 s mantissa exponent accuracy = nearest s q := by
  have cut : (ExtendedMantissa.ofMantissaAndAccuracy mantissa accuracy).mantissa = mantissa := by
    cases accuracy with
    | exact => rfl
    | inexact order => cases order <;> rfl
  have bounds := marks.bounds
  rw [cut] at bounds
  have place := targetExponent_eq pos bounds.1 bounds.2 low
  have least : -1074 ≤ target q := le_max_right ..
  have moved : exponent + (target q - exponent).toNat = target q := by omega
  have shifted := (marks.shiftRight (target q - exponent).toNat).roundedMantissa
  rw [div_div, ← zpow_natCast, ← zpow_add₀ (by norm_num), moved] at shifted
  have limit : nearestWhole (q / 2 ^ target q) ≤ 2 ^ 53 :=
    nearestWhole_le (by positivity) (by exact_mod_cast lt_of_target pos)
  have first : shiftToTargetExponent Format.binary64 mantissa exponent accuracy =
      (ExtendedMantissa.ofMantissaAndAccuracy mantissa accuracy >>> (target q - exponent).toNat,
        target q) := by
    rw [shiftToTargetExponent, place, shiftToExponent, moved]
  rw [roundWithAccuracy, first]
  simp only [shifted]
  unfold nearest
  by_cases narrow : nearestWhole (q / 2 ^ target q) < 2 ^ 53
  · simp only [shift_exact least narrow, narrow, if_true]
  · have carry : nearestWhole (q / 2 ^ target q) = 2 ^ 53 := by omega
    simp only [carry, shift_carry least]
    rfl

private theorem nearestWhole_eq {units : ℕ} (nonneg : 0 ≤ x) (close : 2 * |x - units| < 1) :
    nearestWhole x = units := by
  obtain ⟨low, high⟩ := abs_lt.mp (show |x - units| < 1 / 2 by linarith)
  rcases le_or_gt (units : ℚ) x with above | below
  · have floor : ⌊x⌋₊ = units := (Nat.floor_eq_iff nonneg).mpr ⟨above, by linarith⟩
    rw [nearestWhole, floor, if_pos (by linarith)]
  · have some : 0 < units := by exact_mod_cast nonneg.trans_lt below
    have floor : ⌊x⌋₊ = units - 1 := by
      rw [Nat.floor_eq_iff nonneg, Nat.cast_pred some]
      exact ⟨by linarith, by linarith⟩
    rw [nearestWhole, floor, Nat.cast_pred some, if_neg (by linarith), if_pos (by linarith)]
    omega

end Reckon.Proofs.NearestDouble

namespace Reckon.Magnitude

def value (m : Magnitude) : ℚ :=
  m.mantissa * 2 ^ m.exponent

theorem value_eq_div (m : Magnitude) : m.value = m.numerator / m.denominator := by
  obtain ⟨mantissa, exponent⟩ := m
  simp only [value, numerator, denominator, Nat.shiftLeft_eq]
  obtain ⟨places, rfl | rfl⟩ := exponent.eq_nat_or_neg
  · simp
  · simp [div_eq_mul_inv]

end Reckon.Magnitude

namespace Reckon.Proofs.NearestDouble
open Float.Model Float.Model.UnpackedFloat Double

variable {q : ℚ} {m : Magnitude}

/-- Less than half a unit away, the number of units is what rounding gives. -/
theorem nearestWhole_div {units : ℕ} {exponent : ℤ} (nonneg : 0 ≤ q)
    (close : 2 * |q - units * 2 ^ exponent| < 2 ^ exponent) :
    nearestWhole (q / 2 ^ exponent) = units := by
  have unit : (0 : ℚ) < 2 ^ exponent := by positivity
  have scaled : q / 2 ^ exponent - units = (q - units * 2 ^ exponent) / 2 ^ exponent := by
    field_simp
  apply nearestWhole_eq (by positivity)
  rwa [scaled, abs_div, abs_of_pos unit, ← mul_div_assoc, div_lt_one unit]

/-- Just below a power of two the doubles lie twice as close. -/
theorem nearest_below_power {exponent : ℤ} (s : Sign) (normal : -1074 < exponent)
    (below : q < 2 ^ 52 * 2 ^ exponent) (closer : 4 * (2 ^ 52 * 2 ^ exponent - q) < 2 ^ exponent) :
    nearest s q = .finite s (2 ^ 52) exponent (by decide) := by
  have unit : (0 : ℚ) < 2 ^ exponent := by positivity
  have half : (2 : ℚ) ^ (exponent - 1) = 2 ^ exponent / 2 := by
    rw [zpow_sub_one₀ (by norm_num), div_eq_mul_inv]
  have positive : 0 < q := by linarith
  have place : target q = exponent - 1 := by
    apply target_eq positive (by omega) (.inl ?_)
    · rw [half]
      linarith
    · rw [half]
      linarith
  have units : nearestWhole (q / 2 ^ (exponent - 1)) = 2 ^ 53 := by
    apply nearestWhole_div positive.le
    rw [half, abs_of_nonpos]
    · push_cast
      linarith
    · push_cast
      linarith
  unfold nearest
  simp only [place, units, sub_add_cancel]
  rfl

/-- Any value closer to a double than half the way to the next one is rounded to it. -/
theorem nearest_eq (canonical : Canonical m) (pos : 0 < m.mantissa) (s : Sign)
    (close : 2 * |q - m.value| < 2 ^ m.exponent)
    (closer : m.mantissa = 2 ^ 52 → 4 * (m.value - q) < 2 ^ m.exponent) :
    nearest s q = .finite s m.mantissa m.exponent pos := by
  obtain ⟨mantissa, exponent⟩ := m
  obtain ⟨width, least, greatest, full⟩ := canonical
  simp only [Magnitude.value] at *
  have unit : (0 : ℚ) < 2 ^ exponent := by positivity
  obtain ⟨low, high⟩ :=
    abs_lt.mp (show |q - mantissa * 2 ^ exponent| < 2 ^ exponent / 2 by linarith)
  have one : (1 : ℚ) ≤ mantissa := by exact_mod_cast pos
  have wide : (mantissa : ℚ) + 1 ≤ 2 ^ 53 := by exact_mod_cast width
  have positive : 0 < q := by nlinarith
  by_cases same : 2 ^ 52 * 2 ^ exponent ≤ q ∨ exponent = -1074
  · have place : target q = exponent := target_eq positive least same (by nlinarith)
    have units := nearestWhole_div positive.le close
    unfold nearest
    simp only [place, units, pos.ne', width, dif_neg, if_pos, not_false_eq_true]
  · obtain ⟨under, above⟩ := not_or.mp same
    have bottom : mantissa = 2 ^ 52 := by
      have normal := full.resolve_right above
      have tight : (mantissa : ℚ) < 2 ^ 52 + 1 := by nlinarith
      have tight' : mantissa < 2 ^ 52 + 1 := by exact_mod_cast tight
      omega
    subst bottom
    have near := closer rfl
    push_cast at near
    exact nearest_below_power s (by omega) (not_le.mp under) near

end Reckon.Proofs.NearestDouble
