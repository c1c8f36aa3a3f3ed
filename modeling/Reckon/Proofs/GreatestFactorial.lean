import Reckon.Proofs.DecimalDouble

/-! The factorials that a double can hold. A whole number below `2 ^ 1023` is rounded to a finite
double, and one from `2 ^ 1024` on to the infinity; no factorial lies between the two. -/

namespace Reckon.Proofs.GreatestFactorial
open Float.Model Float.Model.UnpackedFloat Double NearestDouble DecimalDouble

variable {q : ℚ} {n : ℕ}

private theorem log_nonneg (normal : 1 ≤ q) : 0 ≤ Int.log 2 q :=
  (Int.zpow_le_iff_le_log (b := 2) (by decide) (by linarith)).mp (by simpa)

private theorem target_eq_log (normal : 1 ≤ q) : target q = Int.log 2 q - 52 := by
  have log := log_nonneg normal
  unfold target
  omega

private theorem le_nearestWhole (normal : 1 ≤ q) : 2 ^ 52 ≤ nearestWhole (q / 2 ^ target q) := by
  have pos : 0 < q := by linarith
  have least : (2 : ℚ) ^ Int.log 2 q ≤ q := by
    simpa using Int.zpow_log_le_self (b := 2) (by decide) pos
  have inside : ((2 ^ 52 : ℕ) : ℚ) ≤ q / 2 ^ target q := by
    rw [le_div_iff₀ (by positivity), target_eq_log normal, Nat.cast_pow, Nat.cast_ofNat,
      ← zpow_natCast, ← zpow_add₀ (by norm_num)]
    simpa using least
  have floor : 2 ^ 52 ≤ ⌊q / 2 ^ target q⌋₊ := Nat.le_floor inside
  unfold nearestWhole
  split_ifs <;> omega

/-- The mantissa is full, and the exponent grows by one at most when the rounding carries. -/
theorem nearest_normal (s : Sign) (normal : 1 ≤ q) :
    ∃ (mantissa : ℕ) (exponent : ℤ) (pos : 0 < mantissa),
      nearest s q = .finite s mantissa exponent pos ∧ 2 ^ 52 ≤ mantissa ∧ mantissa < 2 ^ 53 ∧
        target q ≤ exponent ∧ exponent ≤ target q + 1 := by
  have wide := le_nearestWhole normal
  unfold nearest
  dsimp only
  rw [dif_neg (by omega)]
  split
  case isTrue narrow => exact ⟨_, _, by omega, rfl, wide, narrow, le_rfl, by omega⟩
  case isFalse => exact ⟨_, _, by decide, rfl, le_rfl, by decide, by omega, le_rfl⟩

private theorem ofNat_eq (some : 0 < n) : Float.ofNat n = .ofModel (.pack (nearest .positive n)) := by
  have value : Decimal.value ⟨n, 0⟩ = n := by simp [Decimal.value]
  have read := @toFloat_eq ⟨n, 0⟩ some (by simp) (by simp)
  rw [value] at read
  exact read

private theorem isFinite_of_lt (some : 0 < n) (below : n < 2 ^ 1023) : (Float.ofNat n).isFinite = true := by
  have normal : (1 : ℚ) ≤ n := by exact_mod_cast some
  have log : Int.log 2 (n : ℚ) < 1023 := by
    refine (Int.lt_zpow_iff_log_lt (b := 2) (by decide) (by linarith)).mp ?_
    exact_mod_cast below
  have least := log_nonneg normal
  have place := target_eq_log normal
  obtain ⟨mantissa, exponent, pos, rounded, wide, narrow, low, high⟩ :=
    nearest_normal .positive normal
  have canonical : Canonical ⟨mantissa, exponent⟩ :=
    ⟨narrow, by dsimp only; omega, by dsimp only; omega, .inl wide⟩
  rw [ofNat_eq some, rounded]
  change (Float.Model.pack _).unpack.isFinite = true
  rw [unpack_pack canonical pos .positive]
  rfl

/-- Beyond the greatest exponent of the format there is only the infinity. -/
theorem pack_of_le {s : Sign} {mantissa : ℕ} {exponent : ℤ} (pos : 0 < mantissa)
    (beyond : 972 ≤ exponent) :
    UnpackedFloat.pack Format.binary64 (.finite s mantissa exponent pos) =
      packedInfinity Format.binary64 s := by
  have field : 2 ^ Format.binary64.exponentBits ≤
      (exponent + Format.binary64.exponentBias +
        Format.binary64.mantissaBitsWithoutImplicit).toNat + 1 := by
    change 2048 ≤ (exponent + 1023 + 52).toNat + 1
    omega
  rw [UnpackedFloat.pack]
  dsimp only
  rw [if_pos field]

private theorem not_isFinite_of_le (large : 2 ^ 1024 ≤ n) : (Float.ofNat n).isFinite = false := by
  have some : 0 < n := Nat.one_le_two_pow.trans large
  have normal : (1 : ℚ) ≤ n := by exact_mod_cast some
  have log : 1024 ≤ Int.log 2 (n : ℚ) := by
    refine (Int.zpow_le_iff_le_log (b := 2) (by decide) (by linarith)).mp ?_
    exact_mod_cast large
  have place := target_eq_log normal
  obtain ⟨mantissa, exponent, pos, rounded, -, -, low, -⟩ := nearest_normal .positive normal
  rw [ofNat_eq some, rounded]
  change (unpack Format.binary64 (UnpackedFloat.pack Format.binary64 _)).isFinite = false
  rw [pack_of_le pos (by omega)]
  decide

theorem isFinite_factorial : (Float.ofNat n.factorial).isFinite = true ↔ n ≤ 170 := by
  have last : Nat.factorial 170 < 2 ^ 1023 := by decide +kernel
  have next : 2 ^ 1024 ≤ Nat.factorial 171 := by decide +kernel
  constructor
  · intro finite
    by_contra above
    have large := next.trans (Nat.factorial_le (show 171 ≤ n by omega))
    rw [not_isFinite_of_le large] at finite
    cases finite
  · intro small
    exact isFinite_of_lt n.factorial_pos ((Nat.factorial_le small).trans_lt last)

end Reckon.Proofs.GreatestFactorial
