import Reckon.Decimal.Shortest
import Reckon.Proofs.DecimalDouble

/-! The shortest digits of a double read back to it. With seventeen digits a neighbour of
the exact value is always nearer to it than half the way to the next double. -/

namespace Reckon.Proofs.ShortestDecimal
open Float.Model Float.Model.UnpackedFloat Double NearestDouble DecimalDouble Shortest

private theorem digits_bounds {n : ℕ} (pos : 0 < n) :
    (10 : ℚ) ^ ((Nat.toDigits 10 n).length - 1 : ℤ) ≤ n ∧
      (n : ℚ) < 10 ^ ((Nat.toDigits 10 n).length : ℤ) := by
  have some : 0 < (Nat.toDigits 10 n).length := Nat.length_toDigits_pos
  constructor
  · obtain ⟨count, known⟩ := Nat.exists_eq_succ_of_ne_zero some.ne'
    have exponent : ((count.succ : ℕ) : ℤ) - 1 = (count : ℕ) := by omega
    rw [known, exponent, zpow_natCast]
    by_cases none : count = 0
    · rw [none, pow_zero]
      exact_mod_cast pos
    · have more : ¬ (Nat.toDigits 10 n).length ≤ count := by omega
      rw [Nat.length_toDigits_le_iff (by decide) (Nat.pos_of_ne_zero none)] at more
      exact_mod_cast Nat.le_of_not_lt more
  · rw [zpow_natCast]
    exact_mod_cast (Nat.length_toDigits_le_iff (by decide) some).mp le_rfl

private theorem cast_powerOfTen_pos (places : ℕ) : (0 : ℚ) < powerOfTen places := by
  exact_mod_cast powerOfTen_pos places

/-- A power of ten on one side of a quotient or on the other. -/
private theorem powerOfTen_quotient (places : ℤ) :
    (powerOfTen places.toNat : ℚ) / powerOfTen (-places).toNat = 10 ^ places := by
  obtain ⟨count, rfl | rfl⟩ := places.eq_nat_or_neg <;> simp [powerOfTen]

/-- The digit counts of a quotient's two sides leave two candidates for its place. -/
theorem leadingPlace_bounds {numerator denominator : ℕ} (some : 0 < numerator)
    (divides : 0 < denominator) :
    (10 : ℚ) ^ (leadingPlace numerator denominator - 1) ≤ numerator / denominator ∧
      (numerator / denominator : ℚ) < 10 ^ leadingPlace numerator denominator := by
  obtain ⟨least, most⟩ := digits_bounds some
  obtain ⟨least', most'⟩ := digits_bounds divides
  have positive : (0 : ℚ) < denominator := by exact_mod_cast divides
  have ten : (10 : ℚ) ≠ 0 := by norm_num
  unfold leadingPlace
  generalize (Nat.toDigits 10 numerator).length = count at *
  generalize (Nat.toDigits 10 denominator).length = count' at *
  have compared : denominator * powerOfTen ((count : ℤ) - count').toNat ≤
      numerator * powerOfTen (-((count : ℤ) - count')).toNat ↔
        (10 : ℚ) ^ ((count : ℤ) - count') ≤ numerator / denominator := by
    rw [← powerOfTen_quotient, div_le_div_iff₀ (cast_powerOfTen_pos _) positive, mul_comm]
    exact_mod_cast Iff.rfl
  by_cases above : denominator * powerOfTen ((count : ℤ) - count').toNat ≤
      numerator * powerOfTen (-((count : ℤ) - count')).toNat
  · rw [if_pos above, add_sub_cancel_right]
    refine ⟨compared.mp above, ?_⟩
    rw [div_lt_iff₀ positive]
    calc (numerator : ℚ) < 10 ^ (count : ℤ) := most
      _ = 10 ^ ((count : ℤ) - count' + 1) * 10 ^ ((count' : ℤ) - 1) := by
        rw [← zpow_add₀ ten]
        congr 1
        omega
      _ ≤ 10 ^ ((count : ℤ) - count' + 1) * denominator := by gcongr
  · rw [if_neg above]
    refine ⟨?_, lt_of_not_ge (compared.not.mp above)⟩
    rw [le_div_iff₀ positive]
    calc (10 : ℚ) ^ ((count : ℤ) - count' - 1) * denominator
        ≤ 10 ^ ((count : ℤ) - count' - 1) * 10 ^ (count' : ℤ) := by gcongr
      _ = 10 ^ ((count : ℤ) - 1) := by
        rw [← zpow_add₀ ten]
        congr 1
        omega
      _ ≤ numerator := least

variable {m : Magnitude} {count : ℕ}

private theorem numerator_pos (pos : 0 < m.mantissa) : 0 < m.numerator := by
  rw [Magnitude.numerator, Nat.shiftLeft_eq]
  positivity

def place (m : Magnitude) : ℤ :=
  leadingPlace m.numerator m.denominator

private theorem place_bounds (pos : 0 < m.mantissa) :
    (10 : ℚ) ^ (place m - 1) ≤ m.value ∧ m.value < 10 ^ place m := by
  rw [Magnitude.value_eq_div]
  exact leadingPlace_bounds (numerator_pos pos) m.denominator_pos

/-- The exact value in units of one grid. -/
private theorem units_eq (m : Magnitude) (step : ℤ) :
    ((m.numerator * powerOfTen (-step).toNat : ℕ) : ℚ) /
      (m.denominator * powerOfTen step.toNat : ℕ) = m.value / 10 ^ step := by
  rw [Magnitude.value_eq_div, ← powerOfTen_quotient]
  push_cast
  have := cast_powerOfTen_pos (-step).toNat
  have := cast_powerOfTen_pos step.toNat
  field_simp

structure Fits (count : ℕ) (m : Magnitude) (decimal : Decimal) : Prop where
  some : 0 < decimal.digits
  least : place m - count ≤ decimal.exponent
  most : decimal.exponent ≤ place m

/-- The two neighbours in units of their grid, and what is left over the lower one. -/
private theorem neighbours_eq (pos : 0 < m.mantissa) (some : 0 < count) :
    ∃ low rest denominator : ℕ, ∃ above : Decimal,
      neighbours m count =
        (if 2 * rest < denominator ∨ (2 * rest = denominator ∧ low % 2 = 0)
          then [⟨low, place m - count⟩, above] else [above, ⟨low, place m - count⟩]) ∧
      rest < denominator ∧ m.value = (low + rest / denominator) * 10 ^ (place m - count) ∧ 0 < low ∧
      above.value = (low + 1) * 10 ^ (place m - count) ∧ Fits count m above := by
  obtain ⟨numerator, top⟩ : ∃ n, n = m.numerator * powerOfTen (-(place m - count)).toNat := ⟨_, rfl⟩
  obtain ⟨denominator, bottom⟩ : ∃ n, n = m.denominator * powerOfTen (place m - count).toNat :=
    ⟨_, rfl⟩
  have units := units_eq m (place m - count)
  rw [← top, ← bottom] at units
  have step : (0 : ℚ) < 10 ^ (place m - count) := by positivity
  have positive : 0 < denominator :=
    bottom ▸ Nat.mul_pos m.denominator_pos (powerOfTen_pos _)
  have least : denominator ≤ numerator := by
    have lower : (10 : ℚ) ^ (place m - count) ≤ m.value :=
      le_trans (zpow_le_zpow_right₀ (by norm_num) (by omega)) (place_bounds pos).1
    rw [← one_le_div step, ← units, one_le_div (by exact_mod_cast positive)] at lower
    exact_mod_cast lower
  refine ⟨numerator / denominator, numerator % denominator, denominator,
    if numerator / denominator + 1 = powerOfTen count then ⟨1, place m - count + count⟩
      else ⟨numerator / denominator + 1, place m - count⟩,
    by rw [top, bottom]; rfl, Nat.mod_lt _ positive, ?_, Nat.div_pos least positive, ?_, ?_⟩
  · have nonzero : (denominator : ℚ) ≠ 0 := by exact_mod_cast positive.ne'
    have division : (numerator : ℚ) =
        denominator * (numerator / denominator : ℕ) + (numerator % denominator : ℕ) := by
      exact_mod_cast (Nat.div_add_mod numerator denominator).symm
    rw [← div_eq_iff step.ne', ← units]
    conv_lhs => rw [division, add_div, mul_div_cancel_left₀ _ nonzero]
  · split
    case isTrue full =>
      have carry : ((numerator / denominator : ℕ) : ℚ) + 1 = 10 ^ (count : ℤ) := by
        rw [zpow_natCast]
        exact_mod_cast full
      rw [carry, Decimal.value, ← zpow_add₀ (by norm_num)]
      simp [add_comm]
    case isFalse => simp [Decimal.value]
  · split
    case isTrue => exact ⟨Nat.one_pos, by simp only; omega, by simp only; omega⟩
    case isFalse => exact ⟨Nat.succ_pos _, le_rfl, by simp only; omega⟩

/-- One of the two neighbours on a grid is at most half a unit away. -/
theorem neighbours_bounds (pos : 0 < m.mantissa) (some : 0 < count) :
    ∃ nearer farther, neighbours m count = [nearer, farther] ∧
      2 * |nearer.value - m.value| ≤ 10 ^ (place m - count) ∧
      Fits count m nearer ∧ Fits count m farther := by
  obtain ⟨low, rest, denominator, above, listed, less, exact, least, next, fits⟩ :=
    neighbours_eq pos some
  have unit : (0 : ℚ) < 10 ^ (place m - count) := by positivity
  have positive : (0 : ℚ) < denominator := by exact_mod_cast (Nat.zero_le _).trans_lt less
  have fits' : Fits count m ⟨low, place m - count⟩ := ⟨least, le_rfl, by simp only; omega⟩
  rw [listed]
  split
  case isTrue near =>
    refine ⟨_, _, rfl, ?_, fits', fits⟩
    have half : (2 * rest : ℚ) ≤ denominator := by
      exact_mod_cast near.elim Nat.le_of_lt fun tie => tie.1.le
    have distance : (low : ℚ) * 10 ^ (place m - count) - m.value =
        -(rest / denominator * 10 ^ (place m - count)) := by
      rw [exact]
      ring
    rw [Decimal.value, distance, abs_neg, abs_of_nonneg (by positivity), ← mul_assoc,
      ← mul_div_assoc]
    exact mul_le_of_le_one_left unit.le ((div_le_one positive).mpr half)
  case isFalse far =>
    refine ⟨_, _, rfl, ?_, fits, fits'⟩
    have half : (denominator : ℚ) ≤ 2 * rest := by
      exact_mod_cast Nat.le_of_not_lt (not_or.mp far).1
    have short : (rest : ℚ) / denominator ≤ 1 := by
      rw [div_le_one positive]
      exact_mod_cast less.le
    have distance : above.value - m.value = (1 - rest / denominator) * 10 ^ (place m - count) := by
      rw [exact, next]
      ring
    rw [distance, abs_of_nonneg (mul_nonneg (by linarith) unit.le), ← mul_assoc]
    apply mul_le_of_le_one_left unit.le
    have more : (1 : ℚ) ≤ 2 * (rest / denominator) := by
      rwa [← mul_div_assoc, one_le_div positive]
    linarith

/-- The neighbours on a grid have no more digits than the grid. -/
theorem neighbours_digits (pos : 0 < m.mantissa) (some : 0 < count) :
    ∀ neighbour ∈ neighbours m count, neighbour.digits < 10 ^ count := by
  have step : (0 : ℚ) < 10 ^ (place m - count) := by positivity
  have positive : 0 < m.denominator * powerOfTen (place m - count).toNat :=
    Nat.mul_pos m.denominator_pos (powerOfTen_pos _)
  have below : m.numerator * powerOfTen (-(place m - count)).toNat /
      (m.denominator * powerOfTen (place m - count).toNat) < 10 ^ count := by
    rw [Nat.div_lt_iff_lt_mul positive]
    have less : m.value / 10 ^ (place m - count) < 10 ^ count := by
      rw [div_lt_iff₀ step, ← zpow_natCast, ← zpow_add₀ (by norm_num)]
      simpa using (place_bounds pos).2
    rw [← units_eq, div_lt_iff₀ (by exact_mod_cast positive)] at less
    exact_mod_cast less
  have above {low : ℕ} (less : low < 10 ^ count) (step carried : ℤ) :
      (if low + 1 = powerOfTen count then (⟨1, carried⟩ : Decimal) else ⟨low + 1, step⟩).digits <
        10 ^ count := by
    split
    case isTrue => exact Nat.one_lt_pow some.ne' (by decide)
    case isFalse room =>
      have room' : low + 1 ≠ 10 ^ count := room
      simp only
      omega
  unfold neighbours
  dsimp only
  split
  · exact List.forall_mem_cons.mpr ⟨below, List.forall_mem_singleton.mpr (above below _ _)⟩
  · exact List.forall_mem_cons.mpr ⟨above below _ _, List.forall_mem_singleton.mpr below⟩

theorem place_range (canonical : Canonical m) (pos : 0 < m.mantissa) :
    -323 ≤ place m ∧ place m ≤ 309 := by
  obtain ⟨lower, upper⟩ := place_bounds pos
  obtain ⟨width, least, greatest, -⟩ := canonical
  have small : (10 : ℚ) ^ (-324 : ℤ) < m.value := by
    have one : (1 : ℚ) ≤ m.mantissa := by exact_mod_cast pos
    have powers : (2 : ℚ) ^ 1074 < 10 ^ 324 := by
      exact_mod_cast (show 2 ^ 1074 < 10 ^ 324 by decide +kernel)
    calc (10 : ℚ) ^ (-324 : ℤ) < 2 ^ (-1074 : ℤ) := inv_strictAnti₀ (by positivity) powers
      _ ≤ 2 ^ m.exponent := zpow_le_zpow_right₀ (by norm_num) least
      _ ≤ m.mantissa * 2 ^ m.exponent := le_mul_of_one_le_left (by positivity) one
  have large : m.value < 10 ^ (309 : ℤ) := by
    have wide : (m.mantissa : ℚ) ≤ 2 ^ 53 := by exact_mod_cast width.le
    have powers : (2 : ℚ) ^ 53 * 2 ^ 971 < 10 ^ 309 := by
      exact_mod_cast (show 2 ^ 53 * 2 ^ 971 < 10 ^ 309 by decide +kernel)
    calc (m.mantissa : ℚ) * 2 ^ m.exponent ≤ 2 ^ 53 * 2 ^ (971 : ℤ) :=
          mul_le_mul wide (zpow_le_zpow_right₀ (by norm_num) greatest) (by positivity) (by positivity)
      _ < 10 ^ (309 : ℤ) := powers
  have below := (zpow_lt_zpow_iff_right₀ (by norm_num)).mp (small.trans upper)
  have above := (zpow_lt_zpow_iff_right₀ (by norm_num)).mp (lower.trans_lt large)
  omega

theorem Fits.toFloat {decimal : Decimal} (fits : Fits count m decimal) (few : count ≤ 17)
    (canonical : Canonical m) (pos : 0 < m.mantissa) :
    decimal.toFloat = .ofModel (.pack (nearest .positive decimal.value)) := by
  obtain ⟨some, least, most⟩ := fits
  have range := place_range canonical pos
  exact toFloat_eq some (by omega) (by omega)

/-- Half a unit of the seventeenth digit is less than half the way to the next double. -/
theorem nearest_seventeen {q : ℚ} (canonical : Canonical m) (pos : 0 < m.mantissa)
    (close : 2 * |q - m.value| ≤ 10 ^ (place m - 17)) :
    nearest .positive q = .finite .positive m.mantissa m.exponent pos := by
  have unit : (0 : ℚ) < 2 ^ m.exponent := by positivity
  have size : 10 ^ 16 * (10 : ℚ) ^ (place m - 17) ≤ m.mantissa * 2 ^ m.exponent := by
    have split : (10 : ℚ) ^ 16 * 10 ^ (place m - 17) = 10 ^ (place m - 1) := by
      rw [← zpow_natCast, ← zpow_add₀ (by norm_num)]
      congr 1
      omega
    rw [split]
    exact (place_bounds pos).1
  have wide : (m.mantissa : ℚ) < 2 ^ 53 := by exact_mod_cast canonical.width
  apply nearest_eq canonical pos
  · nlinarith
  · intro bottom
    rw [bottom] at size
    push_cast at size
    have under := neg_abs_le (q - m.value)
    linarith

section Double

variable {x y : Float} (pos : 0 < (magnitude x).mantissa)
  (unpacked : x.toModel.unpack =
    .finite .positive (magnitude x).mantissa (magnitude x).exponent pos)
  (canonical : Canonical (magnitude x))

include unpacked in
/-- Doubles that are equal are the same unless they are zeros. -/
theorem beq_iff : (y == x) = true ↔ y = x := by
  have compared : (y == x) = (y.toModel.unpack.compare x.toModel.unpack == some .eq) := rfl
  rw [compared, unpacked]
  constructor
  · intro same
    apply unpack_injective
    rw [unpacked]
    cases known : y.toModel.unpack with
    | finite s m e pos' =>
      rw [known] at same
      cases s <;> simp [UnpackedFloat.compare, Ordering.then_eq_eq] at same ⊢
      exact ⟨same.2, same.1⟩
    | notANumber | zero => simp [known, UnpackedFloat.compare] at same
    | infinity s => cases s <;> simp [known, UnpackedFloat.compare] at same
  · rintro rfl
    rw [unpacked]
    simp [UnpackedFloat.compare]

include pos in
private theorem onGrid?_spec {decimal : Decimal} (found : onGrid? x count = some decimal)
    (some : 0 < count) : (decimal.toFloat == x) = true ∧ Fits count (magnitude x) decimal := by
  refine ⟨toFloat_of_onGrid? found, ?_⟩
  obtain ⟨nearer, farther, listed, -, fits, fits'⟩ := neighbours_bounds pos some
  have inside := List.mem_of_find?_eq_some found
  rw [listed] at inside
  simp only [List.mem_cons, List.not_mem_nil, or_false] at inside
  rcases inside with rfl | rfl <;> assumption

include unpacked canonical in
private theorem exists_onGrid? : ∃ decimal, onGrid? x 17 = some decimal := by
  obtain ⟨nearer, farther, listed, close, fits, -⟩ := neighbours_bounds pos (show 0 < 17 by decide)
  refine ⟨nearer, ?_⟩
  have back : nearer.toFloat = x := by
    apply unpack_injective
    rw [fits.toFloat le_rfl canonical pos, nearest_seventeen canonical pos close, unpacked]
    exact unpack_pack canonical pos .positive
  have same := (beq_iff pos unpacked).mpr back
  rw [onGrid?, listed]
  exact List.find?_cons_of_pos same

include unpacked canonical in
/-- The shortest digits read back to the double they were taken from. -/
theorem shortest_spec :
    (shortest x).toFloat = x ∧ ∃ count ≤ 17, Fits count (magnitude x) (shortest x) := by
  obtain ⟨decimal, found⟩ := exists_onGrid? pos unpacked canonical
  unfold shortest
  cases chosen : (List.range' 1 digitLimit).findSome? (onGrid? x) with
  | none =>
    have never := List.findSome?_eq_none_iff.mp chosen 17 (by decide)
    exact absurd found (by simp [never])
  | some best =>
    obtain ⟨count, inside, hit⟩ := List.exists_of_findSome?_eq_some chosen
    have range := List.mem_range'_1.mp inside
    obtain ⟨equal, fits⟩ := onGrid?_spec pos hit range.1
    exact ⟨(beq_iff pos unpacked).mp equal, count, Nat.le_of_lt_succ range.2, fits⟩

include pos in
theorem shortest_digits : (shortest x).digits < 10 ^ 17 := by
  unfold shortest
  cases chosen : (List.range' 1 digitLimit).findSome? (onGrid? x) with
  | none =>
    cases first : (neighbours (magnitude x) digitLimit).head? with
    | none => decide
    | some decimal => exact neighbours_digits pos (by decide) decimal (List.mem_of_head? first)
  | some best =>
    obtain ⟨count, inside, hit⟩ := List.exists_of_findSome?_eq_some chosen
    have range := List.mem_range'_1.mp inside
    have few := neighbours_digits pos range.1 best (List.mem_of_find?_eq_some hit)
    exact few.trans_le (Nat.pow_le_pow_right (by decide) (Nat.le_of_lt_succ range.2))

end Double

end Reckon.Proofs.ShortestDecimal
