import Reckon.Entry.Folding
import Reckon.Proofs.DecimalDouble

/-! The sign of a product, a quotient and a power. It can be taken before a product or after it. A
decimal without a sign has none as a double, so neither has the hundredth of a literal. -/

namespace Reckon.Proofs.QuotientSign
open Double DecimalDouble
open Float.Model Float.Model.UnpackedFloat

private theorem roundWithAccuracy_neg (s : Sign) (m : ℕ) (e : ℤ) (accuracy : Accuracy) :
    roundWithAccuracy Format.binary64 (-s) m e accuracy =
      (roundWithAccuracy Format.binary64 s m e accuracy).neg := by
  unfold roundWithAccuracy
  dsimp only
  split_ifs <;> rfl

private theorem div_unpacked_neg (u v : UnpackedFloat) :
    UnpackedFloat.div Format.binary64 u.neg v = (UnpackedFloat.div Format.binary64 u v).neg := by
  have signs (s t : Sign) : -s / t = -(s / t) := by
    cases s <;> cases t <;> rfl
  cases u <;> cases v <;> simp only [UnpackedFloat.neg, UnpackedFloat.div, signs, roundWithAccuracy_neg]

protected theorem neg_div (x y : Float) : -x / y = -(x / y) := by
  apply unpack_injective
  have quotient (x : Float) : (x / y).toModel.unpack =
      (Float.Model.pack (UnpackedFloat.div Format.binary64 x.toModel.unpack y.toModel.unpack)).unpack := rfl
  rw [unpack_neg, quotient, quotient, unpack_neg, div_unpacked_neg, unpack_pack_neg]

private theorem mul_unpacked_neg (u v : UnpackedFloat) :
    UnpackedFloat.mul Format.binary64 u.neg v = (UnpackedFloat.mul Format.binary64 u v).neg := by
  have signs (s t : Sign) : -s * t = -(s * t) := by
    cases s <;> cases t <;> rfl
  cases u <;> cases v <;> simp only [UnpackedFloat.neg, UnpackedFloat.mul, signs, roundWithAccuracy_neg]

protected theorem neg_mul (x y : Float) : -x * y = -(x * y) := by
  apply unpack_injective
  have product (x : Float) : (x * y).toModel.unpack =
      (Float.Model.pack (UnpackedFloat.mul Format.binary64 x.toModel.unpack y.toModel.unpack)).unpack := rfl
  rw [unpack_neg, product, product, unpack_neg, mul_unpacked_neg, unpack_pack_neg]

/-- No number at all, or one without a sign. -/
inductive Unsigned : UnpackedFloat → Prop
  | notANumber : Unsigned .notANumber
  | infinity : Unsigned (.infinity .positive)
  | zero : Unsigned (.zero .positive)
  | finite (m : ℕ) (e : ℤ) (pos : 0 < m) : Unsigned (.finite .positive m e pos)

variable {u v : UnpackedFloat} {x y base exponent : Float}

private theorem unsigned_round (m : ℕ) (e : ℤ) (accuracy : Accuracy) :
    Unsigned (roundWithAccuracy Format.binary64 .positive m e accuracy) := by
  unfold roundWithAccuracy
  dsimp only
  split_ifs
  · exact .zero
  · exact .finite ..

theorem Unsigned.mul (first : Unsigned u) (second : Unsigned v) :
    Unsigned (UnpackedFloat.mul Format.binary64 u v) := by
  cases first <;> cases second <;> first | exact unsigned_round .. | constructor

theorem Unsigned.div (first : Unsigned u) (second : Unsigned v) :
    Unsigned (UnpackedFloat.div Format.binary64 u v) := by
  cases first <;> cases second <;> first | exact unsigned_round .. | constructor

theorem Unsigned.sqrt (unsigned : Unsigned u) : Unsigned (UnpackedFloat.sqrt Format.binary64 u) := by
  cases unsigned <;> first | exact unsigned_round .. | constructor

theorem Unsigned.unpack_pack (unsigned : Unsigned u) : Unsigned (Float.Model.pack u).unpack := by
  have packed (exponent : BitVec 11) (fraction : BitVec 52) : Unsigned (UnpackedFloat.unpack Format.binary64
      (packComponents Format.binary64 .positive exponent fraction)) := by
    rw [unpack_packComponents]
    split_ifs <;> constructor
  cases unsigned with
  | notANumber | infinity | zero => exact packed _ _
  | finite m e pos =>
    change Unsigned (UnpackedFloat.unpack Format.binary64
      (UnpackedFloat.pack Format.binary64 (.finite .positive m e pos)))
    simp only [UnpackedFloat.pack]
    split_ifs <;> exact packed _ _

private theorem unsigned_mul (first : Unsigned x.toModel.unpack) (second : Unsigned y.toModel.unpack) :
    Unsigned (x * y).toModel.unpack :=
  (first.mul second).unpack_pack

private theorem unsigned_div (first : Unsigned x.toModel.unpack) (second : Unsigned y.toModel.unpack) :
    Unsigned (x / y).toModel.unpack :=
  (first.div second).unpack_pack

private theorem unsigned_sqrt (unsigned : Unsigned x.toModel.unpack) : Unsigned x.sqrt.toModel.unpack :=
  unsigned.sqrt.unpack_pack

private theorem unsigned_whole (n : UInt64) : Unsigned n.toFloat.toModel.unpack := by
  change Unsigned (Float.Model.pack (UnpackedFloat.normalize Format.binary64 n.toNat 0 .positive)).unpack
  apply Unsigned.unpack_pack
  unfold UnpackedFloat.normalize
  split
  case h_1 less =>
    rw [Int.compare_eq_lt] at less
    omega
  case h_2 => exact .zero
  case h_3 => exact unsigned_round ..

private theorem unsigned_tabulated (places : Fin 23) : Unsigned (tabulated places).toModel.unpack := by
  obtain ⟨m, e, pos, unpacked, -, -⟩ := holds_tabulated places
  rw [unpacked]
  exact .finite m e pos

private theorem unsigned_ofScientific (digits : ℕ) (below : Bool) (places : ℕ) :
    Unsigned (Float.ofScientific digits below places).toModel.unpack := by
  have exact (exponent : ℤ) : Unsigned (UnpackedFloat.ofScientific Format.binary64 digits exponent) := by
    unfold UnpackedFloat.ofScientific
    split_ifs
    · exact .zero
    · exact .infinity
    · exact .zero
    · exact (Unsigned.finite ..).mul (.finite ..)
    · exact (Unsigned.finite ..).div (.finite ..)
  unfold Float.ofScientific
  split
  case isTrue few =>
    have table := unsigned_tabulated ⟨places, Nat.lt_succ_of_le few.2⟩
    cases below with
    | true => exact unsigned_div (unsigned_whole _) table
    | false => exact unsigned_mul (unsigned_whole _) table
  case isFalse => exact (exact _).unpack_pack

theorem unsigned_toFloat (decimal : Decimal) : Unsigned decimal.toFloat.toModel.unpack := by
  unfold Decimal.toFloat
  split <;> exact unsigned_ofScientific ..

private theorem sign_eq_positive : sign x = .positive ↔ isNegative x = false := by
  unfold sign
  split <;> simp_all

private theorem unsigned_zero {s : Sign} : Unsigned (.zero s) ↔ s = .positive := by
  cases s with
  | positive => exact iff_of_true .zero rfl
  | negative => exact iff_of_false (nomatch ·) (nomatch ·)

private theorem unsigned_finite {s : Sign} {m : ℕ} {e : ℤ} {pos : 0 < m} :
    Unsigned (.finite s m e pos) ↔ s = .positive := by
  cases s with
  | positive => exact iff_of_true (.finite ..) rfl
  | negative => exact iff_of_false (nomatch ·) (nomatch ·)

private theorem unsigned_of_finite (finite : x.isFinite = true) :
    Unsigned x.toModel.unpack ↔ isNegative x = false := by
  cases unpacks_of_isFinite finite with
  | zero unpacked => rw [unpacked, unsigned_zero, sign_eq_positive]
  | finite pos unpacked => rw [unpacked, unsigned_finite, sign_eq_positive]

private theorem unsigned_of_infinite (infinite : ¬ x.isFinite = true) :
    Unsigned x.toModel.unpack ↔ isNegative x = false := by
  change ¬ x.toModel.unpack.isFinite = true at infinite
  generalize unpacked : x.toModel.unpack = u at infinite
  cases u with
  | notANumber =>
    obtain rfl : x = 0.0 / 0.0 := unpack_injective (unpacked.trans rfl)
    exact iff_of_true .notANumber (by decide)
  | infinity s =>
    cases s with
    | positive =>
      obtain rfl : x = 1.0 / 0.0 := unpack_injective (unpacked.trans rfl)
      exact iff_of_true .infinity (by decide)
    | negative =>
      obtain rfl : x = -1.0 / 0.0 := unpack_injective (unpacked.trans rfl)
      exact iff_of_false (nomatch ·) (by decide)
  | zero | finite => exact absurd rfl infinite

/-- To have no sign is a matter of the first bit, also for what is no finite number. -/
theorem unsigned_iff : Unsigned x.toModel.unpack ↔ isNegative x = false := by
  by_cases finite : x.isFinite = true
  · exact unsigned_of_finite finite
  · exact unsigned_of_infinite finite

theorem unsigned_numeralValue (numeral : List Char) : Unsigned (Entry.numeralValue numeral).toModel.unpack := by
  unfold Entry.numeralValue
  cases Reading.decimal? numeral with
  | none => exact unsigned_ofScientific 0 true 1
  | some decimal => exact unsigned_toFloat decimal

/-- A hundredth of a literal has no sign. -/
theorem unsigned_hundredth (numeral : List Char) :
    Unsigned (Entry.numeralValue numeral / 100.0).toModel.unpack :=
  unsigned_div (unsigned_numeralValue numeral) (unsigned_ofScientific 1000 true 1)

/-- A power of two numbers without a sign has none. It takes no trust in the power function of
doubles where the exponent has an operation of its own. -/
def PositivePower (base exponent : Float) : Prop :=
  isNegative base = false → isNegative exponent = false → isNegative (power base exponent) = false

theorem positivePower_of_own (own : exponent ∈ [0.0, 1.0, 2.0, 0.5]) : PositivePower base exponent := by
  intro positive _
  rw [← unsigned_iff] at positive ⊢
  simp only [List.mem_cons, List.not_mem_nil, or_false] at own
  rcases own with rfl | rfl | rfl | rfl
  · rw [power_zero]
    exact unsigned_iff.mpr (by decide)
  · rwa [power_one]
  · rw [power_two]
    exact unsigned_mul positive positive
  · rw [power_half]
    exact unsigned_sqrt positive

end Reckon.Proofs.QuotientSign
