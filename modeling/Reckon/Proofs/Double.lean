import Mathlib
import Reckon.Numeral

/-! A finite double is its sign and its magnitude. Two doubles that unpack alike have the
same bits, and what is packed in canonical form unpacks to itself. -/

namespace Reckon.Proofs.Double
open Float.Model Float.Model.UnpackedFloat

/-- A magnitude as the format keeps it: no bit to spare, unless the exponent is least. -/
structure Canonical (m : Magnitude) : Prop where
  width : m.mantissa < 2 ^ 53
  least : -1074 ≤ m.exponent
  greatest : m.exponent ≤ 971
  full : 2 ^ 52 ≤ m.mantissa ∨ m.exponent = -1074

def sign (x : Float) : Sign :=
  if isNegative x then .negative else .positive

section Fields

variable (bits : BitVec 64)

private theorem mantissa_toNat :
    (@unpackMantissa Format.binary64 bits).toNat = bits.toNat % 2 ^ 52 := by
  simp [unpackMantissa]

private theorem exponent_toNat :
    (@unpackExponent Format.binary64 bits).toNat = bits.toNat >>> 52 % 2 ^ 11 := by
  simp [unpackExponent]

private theorem sign_toNat :
    (@unpackSign Format.binary64 bits).toNat = bits.toNat >>> 63 := by
  have bound := bits.isLt
  simp [unpackSign, Nat.shiftRight_eq_div_pow]
  omega

private theorem implicit_toNat (fraction : BitVec 52) :
    (1#1 ++ fraction).toNat = 2 ^ 52 + fraction.toNat := by
  have bound := fraction.isLt
  rw [BitVec.toNat_append, ← Nat.shiftLeft_add_eq_or_of_lt bound]
  simp [Nat.shiftLeft_eq]

end Fields

private theorem toModel_unpack (x : Float) :
    x.toModel.unpack = UnpackedFloat.unpack Format.binary64 x.toBits.toBitVec := rfl

private theorem sign_eq (x : Float) :
    Sign.ofBitVec (@unpackSign Format.binary64 x.toBits.toBitVec) = sign x := by
  have value := sign_toNat x.toBits.toBitVec
  rw [UInt64.toNat_toBitVec] at value
  by_cases negative : x.toBits.toNat >>> 63 = 1
  · have bit : @unpackSign Format.binary64 x.toBits.toBitVec = 1#1 :=
      BitVec.eq_of_toNat_eq (value.trans negative)
    simp [sign, isNegative, negative, bit, Sign.ofBitVec]
  · have bit : @unpackSign Format.binary64 x.toBits.toBitVec = 0#1 := by
      apply BitVec.eq_of_toNat_eq
      have bound := (@unpackSign Format.binary64 x.toBits.toBitVec).isLt
      simp only [BitVec.toNat_ofNat]
      omega
    simp [sign, isNegative, negative, bit, Sign.ofBitVec]

private theorem magnitude_eq (x : Float) :
    magnitude x =
      match x.toBits.toNat >>> 52 % 2 ^ 11 with
      | 0 => ⟨x.toBits.toNat % 2 ^ 52, -1074⟩
      | field + 1 => ⟨2 ^ 52 + x.toBits.toNat % 2 ^ 52, (field : Int) - 1074⟩ := by
  unfold magnitude
  rfl

inductive Unpacks (x : Float) : Prop
  | zero (unpacked : x.toModel.unpack = .zero (sign x)) (empty : magnitude x = ⟨0, -1074⟩)
  | finite (pos : 0 < (magnitude x).mantissa)
      (unpacked : x.toModel.unpack =
        .finite (sign x) (magnitude x).mantissa (magnitude x).exponent pos)
      (canonical : Canonical (magnitude x))

section Finite

variable {x : Float}

/-- Only what is not finite has all the bits of its exponent set. -/
private theorem isFinite_iff :
    x.isFinite = true ↔ @unpackExponent Format.binary64 x.toBits.toBitVec ≠ -1#_ := by
  change x.toModel.unpack.isFinite = true ↔ _
  rw [toModel_unpack, UnpackedFloat.unpack]
  constructor
  · intro finite special
    rw [if_pos special] at finite
    split at finite <;> simp [UnpackedFloat.isFinite] at finite
  · intro other
    rw [if_neg other]
    split
    case isTrue => split <;> rfl
    case isFalse => rfl

private theorem canonical_of_isFinite (finite : x.isFinite = true) : Canonical (magnitude x) := by
  have below : x.toBits.toNat >>> 52 % 2 ^ 11 ≠ 2047 := by
    intro top
    rw [← UInt64.toNat_toBitVec, ← exponent_toNat] at top
    exact isFinite_iff.mp finite (BitVec.eq_of_toNat_eq top)
  rw [magnitude_eq]
  split
  case h_1 low => exact ⟨by simp only; omega, by simp, by simp, .inr rfl⟩
  case h_2 exponent known =>
    exact ⟨by simp only; omega, by simp only; omega, by simp only; omega, .inl (by simp only; omega)⟩

private theorem unpack_eq (finite : x.isFinite = true) :
    x.toModel.unpack =
      if none : (magnitude x).mantissa = 0 then .zero (sign x)
      else .finite (sign x) (magnitude x).mantissa (magnitude x).exponent (Nat.pos_of_ne_zero none) := by
  have fraction := mantissa_toNat x.toBits.toBitVec
  have field := exponent_toNat x.toBits.toBitVec
  rw [UInt64.toNat_toBitVec] at fraction field
  rw [toModel_unpack, UnpackedFloat.unpack, if_neg (isFinite_iff.mp finite), sign_eq]
  by_cases zero : @unpackExponent Format.binary64 x.toBits.toBitVec = 0#_
  · have size : magnitude x = ⟨(@unpackMantissa Format.binary64 x.toBits.toBitVec).toNat, -1074⟩ := by
      rw [magnitude_eq, ← field, zero, fraction]
      rfl
    have none : (@unpackMantissa Format.binary64 x.toBits.toBitVec).toNat = 0 ↔
        @unpackMantissa Format.binary64 x.toBits.toBitVec = 0#_ :=
      ⟨BitVec.eq_of_toNat_eq (y := 0#_), congrArg BitVec.toNat⟩
    simp only [size, none, zero]
    rfl
  · have some : x.toBits.toNat >>> 52 % 2 ^ 11 ≠ 0 := by
      intro low
      exact zero (BitVec.eq_of_toNat_eq (field.trans low))
    obtain ⟨exponent, known⟩ := Nat.exists_eq_succ_of_ne_zero some
    have size : magnitude x = ⟨2 ^ 52 + x.toBits.toNat % 2 ^ 52, (exponent : Int) - 1074⟩ := by
      rw [magnitude_eq, known]
    rw [if_neg zero, dif_neg (by rw [size]; simp only; omega)]
    simp only [size, field, known, implicit_toNat, fraction]
    congr 1
    simp [Format.exponentBias]
    omega

theorem unpacks_of_isFinite (finite : x.isFinite = true) : Unpacks x := by
  have canonical := canonical_of_isFinite finite
  have unpacked := unpack_eq finite
  by_cases none : (magnitude x).mantissa = 0
  · have least : (magnitude x).exponent = -1074 := canonical.full.resolve_left (by omega)
    rw [dif_pos none] at unpacked
    exact .zero unpacked (Magnitude.mk.injEq .. ▸ ⟨none, least⟩)
  · rw [dif_neg none] at unpacked
    exact .finite (Nat.pos_of_ne_zero none) unpacked canonical

end Finite

private theorem eq_of_toBits {x y : Float} (same : x.toBits = y.toBits) : x = y := by
  obtain ⟨⟨bits, valid⟩⟩ := x
  obtain ⟨⟨bits', valid'⟩⟩ := y
  change bits = bits' at same
  subst same
  rfl

/-- Sign and magnitude determine the bits. -/
theorem eq_of_parts {x y : Float} (signs : isNegative x = isNegative y)
    (sizes : magnitude x = magnitude y) : x = y := by
  have bound := x.toBits.toNat_lt
  have bound' := y.toBits.toNat_lt
  have fields : x.toBits.toNat >>> 52 % 2 ^ 11 = y.toBits.toNat >>> 52 % 2 ^ 11 ∧
      x.toBits.toNat % 2 ^ 52 = y.toBits.toNat % 2 ^ 52 := by
    rw [magnitude_eq, magnitude_eq] at sizes
    split at sizes <;> split at sizes <;> simp only [Magnitude.mk.injEq] at sizes <;> omega
  have top : x.toBits.toNat >>> 63 = 1 ↔ y.toBits.toNat >>> 63 = 1 := by
    have bits : (x.toBits.toNat >>> 63 == 1) = (y.toBits.toNat >>> 63 == 1) := signs
    exact beq_iff_eq.symm.trans ((Bool.eq_iff_iff.mp bits).trans beq_iff_eq)
  apply eq_of_toBits
  apply UInt64.toNat.inj
  omega

private theorem isNegative_of_sign {x y : Float} (same : sign x = sign y) : isNegative x = isNegative y := by
  unfold sign at same
  split at same <;> split at same <;> simp_all

private theorem isFinite_congr {x y : Float} (same : x.toModel.unpack = y.toModel.unpack) :
    x.isFinite = y.isFinite :=
  congrArg UnpackedFloat.isFinite same

private theorem eq_of_unpack {x y : Float} (finite : x.isFinite = true)
    (same : x.toModel.unpack = y.toModel.unpack) : x = y := by
  have finite' : y.isFinite = true := (isFinite_congr same).symm.trans finite
  have signs : sign x = sign y ∧ magnitude x = magnitude y := by
    rcases unpacks_of_isFinite finite with ⟨unpacked, empty⟩ | ⟨pos, unpacked, _⟩
    · rcases unpacks_of_isFinite finite' with ⟨unpacked', empty'⟩ | ⟨pos', unpacked', _⟩
      · rw [unpacked, unpacked'] at same
        exact ⟨by simpa using same, empty.trans empty'.symm⟩
      · rw [unpacked, unpacked'] at same
        cases same
    · rcases unpacks_of_isFinite finite' with ⟨unpacked', empty'⟩ | ⟨pos', unpacked', _⟩
      · rw [unpacked, unpacked'] at same
        cases same
      · rw [unpacked, unpacked'] at same
        injection same with signs mantissas exponents
        exact ⟨signs, Magnitude.mk.injEq .. ▸ ⟨mantissas, exponents⟩⟩
  exact eq_of_parts (isNegative_of_sign signs.1) signs.2

theorem unpack_injective {x y : Float} (same : x.toModel.unpack = y.toModel.unpack) : x = y := by
  by_cases finite : x.isFinite = true
  · exact eq_of_unpack finite same
  · have infinite : ¬ y.isFinite = true := by rwa [← isFinite_congr same]
    have top := not_ne_iff.mp (isFinite_iff.not.mp finite)
    have top' := not_ne_iff.mp (isFinite_iff.not.mp infinite)
    rw [toModel_unpack, toModel_unpack, UnpackedFloat.unpack, UnpackedFloat.unpack, if_pos top,
      if_pos top', sign_eq, sign_eq] at same
    split at same <;> split at same
    case isTrue.isTrue empty empty' =>
      injection same with signs
      have fields := congrArg BitVec.toNat (top.trans top'.symm)
      have fractions := congrArg BitVec.toNat (empty.trans empty'.symm)
      rw [exponent_toNat, exponent_toNat, UInt64.toNat_toBitVec, UInt64.toNat_toBitVec] at fields
      rw [mantissa_toNat, mantissa_toNat, UInt64.toNat_toBitVec, UInt64.toNat_toBitVec] at fractions
      refine eq_of_parts (isNegative_of_sign signs) ?_
      rw [magnitude_eq, magnitude_eq, fields, fractions]
    case isTrue.isFalse => cases same
    case isFalse.isTrue => cases same
    case isFalse.isFalse some some' =>
      have bits := x.toModel.valid.eq_packedNaN top some
      have bits' := y.toModel.valid.eq_packedNaN top' some'
      exact eq_of_toBits (UInt64.toBitVec_inj.mp (bits.trans bits'.symm))

private theorem sign_packComponents (s : Sign) (exponent : BitVec 11) (fraction : BitVec 52) :
    Sign.ofBitVec (unpackSign (packComponents Format.binary64 s exponent fraction)) = s := by
  have bit : unpackSign (packComponents Format.binary64 s exponent fraction) = s.toBitVec := by
    ext i inside
    have first : i = 0 := by omega
    subst first
    have top : (s.toBitVec ++ exponent ++ fraction).getLsbD 63 = s.toBitVec[0] := by
      rw [BitVec.getLsbD_append, BitVec.getLsbD_append]
      simp [BitVec.getLsbD_eq_getElem]
    simpa [unpackSign, packComponents, -BitVec.getLsbD_eq_getElem] using top
  rw [bit]
  cases s <;> rfl

private theorem fraction_pos {fraction : BitVec 52} (some : fraction ≠ 0#52) : 0 < fraction.toNat := by
  simpa [BitVec.toNat_pos, BitVec.pos_iff_ne_zero]

private theorem implicit_pos (fraction : BitVec 52) : 0 < (1#1 ++ fraction).toNat := by
  rw [implicit_toNat]
  positivity

theorem unpack_packComponents (s : Sign) (exponent : BitVec 11) (fraction : BitVec 52) :
    UnpackedFloat.unpack Format.binary64 (packComponents Format.binary64 s exponent fraction) =
      if exponent = -1#11 then if fraction = 0#52 then .infinity s else .notANumber
      else if exponent = 0#11 then
        if some : fraction = 0#52 then .zero s
        else .finite s fraction.toNat ((exponent.toNat : Int) - 1075 + 1) (fraction_pos some)
      else .finite s (1#1 ++ fraction).toNat ((exponent.toNat : Int) - 1075)
        (implicit_pos fraction) := by
  simp only [UnpackedFloat.unpack, unpackExponent_packComponents, unpackMantissa_packComponents,
    sign_packComponents]
  rfl

section Packed

variable {mantissa : Nat} {exponent : Int} (pos : 0 < mantissa) (s : Sign)

private theorem unpack_pack_normal (normal : 2 ^ 52 ≤ mantissa) (width : mantissa < 2 ^ 53)
    (least : -1074 ≤ exponent) (greatest : exponent ≤ 971) :
    (Float.Model.pack (.finite s mantissa exponent pos)).unpack = .finite s mantissa exponent pos := by
  have fits : ¬ 2 ^ 11 ≤ (exponent + 1023 + 52).toNat + 1 := by omega
  have log : mantissa.log2 + 1 = 53 := by
    have := (Nat.log2_eq_iff pos.ne').mpr ⟨normal, width⟩
    omega
  have field : (BitVec.ofNat 11 (exponent + 1023 + 52).toNat).toNat = (exponent + 1023 + 52).toNat := by
    rw [BitVec.toNat_ofNat]
    omega
  have fraction : (1#1 ++ BitVec.ofNat 52 mantissa).toNat = mantissa := by
    rw [implicit_toNat, BitVec.toNat_ofNat]
    omega
  have noSpecial : BitVec.ofNat 11 (exponent + 1023 + 52).toNat ≠ -1#11 := by
    intro special
    rw [special] at field
    change 2047 = _ at field
    omega
  have nonzero : BitVec.ofNat 11 (exponent + 1023 + 52).toNat ≠ 0#11 := by
    intro zero
    rw [zero] at field
    change 0 = _ at field
    omega
  change UnpackedFloat.unpack Format.binary64 (UnpackedFloat.pack Format.binary64 _) = _
  rw [UnpackedFloat.pack, if_neg (by exact fits), if_pos (by exact log)]
  refine (unpack_packComponents ..).trans ?_
  rw [if_neg (by exact noSpecial), if_neg (by exact nonzero)]
  congr 1
  change ((BitVec.ofNat 11 (exponent + 1023 + 52).toNat).toNat : Int) - 1075 = exponent
  rw [field]
  omega

private theorem unpack_pack_subnormal (low : mantissa < 2 ^ 52) :
    (Float.Model.pack (.finite s mantissa (-1074) pos)).unpack = .finite s mantissa (-1074) pos := by
  have fits : ¬ 2 ^ 11 ≤ ((-1074 : Int) + 1023 + 52).toNat + 1 := by decide
  have log : ¬ mantissa.log2 + 1 = 53 := by
    have := (Nat.log2_lt pos.ne').mpr low
    omega
  have fraction : (BitVec.ofNat 52 mantissa).toNat = mantissa := by
    rw [BitVec.toNat_ofNat]
    omega
  have some : BitVec.ofNat 52 mantissa ≠ 0#52 := by
    intro empty
    rw [empty] at fraction
    change 0 = _ at fraction
    omega
  change UnpackedFloat.unpack Format.binary64 (UnpackedFloat.pack Format.binary64 _) = _
  rw [UnpackedFloat.pack, if_neg (by exact fits), if_neg (by exact log)]
  refine (unpack_packComponents ..).trans ?_
  rw [if_neg (by decide), if_pos rfl, dif_neg (by exact some)]
  congr 1

end Packed

/-- What is packed in canonical form can be had back. -/
theorem unpack_pack {m : Magnitude} (canonical : Canonical m) (pos : 0 < m.mantissa) (s : Sign) :
    (Float.Model.pack (.finite s m.mantissa m.exponent pos)).unpack =
      .finite s m.mantissa m.exponent pos := by
  obtain ⟨mantissa, exponent⟩ := m
  obtain ⟨width, least, greatest, full⟩ := canonical
  by_cases normal : 2 ^ 52 ≤ mantissa
  · exact unpack_pack_normal pos s normal width least greatest
  · cases full.resolve_left normal
    exact unpack_pack_subnormal pos s (Nat.lt_of_not_le normal)

private theorem unpack_packComponents_neg (s : Sign) (exponent : BitVec 11) (fraction : BitVec 52) :
    UnpackedFloat.unpack Format.binary64 (packComponents Format.binary64 (-s) exponent fraction) =
      (UnpackedFloat.unpack Format.binary64 (packComponents Format.binary64 s exponent fraction)).neg := by
  rw [unpack_packComponents, unpack_packComponents]
  split_ifs <;> rfl

/-- The sign is packed by itself. -/
theorem unpack_pack_neg (u : UnpackedFloat) :
    (Float.Model.pack u.neg).unpack = (Float.Model.pack u).unpack.neg := by
  cases u with
  | notANumber => rfl
  | infinity s => exact unpack_packComponents_neg s _ _
  | zero s => exact unpack_packComponents_neg s _ _
  | finite s m e pos =>
    change UnpackedFloat.unpack Format.binary64 (UnpackedFloat.pack Format.binary64 (.finite (-s) m e pos)) =
      (UnpackedFloat.unpack Format.binary64 (UnpackedFloat.pack Format.binary64 (.finite s m e pos))).neg
    simp only [UnpackedFloat.pack]
    split_ifs <;> exact unpack_packComponents_neg s _ _

private theorem unpack_pack_unpack (x : Float) : (Float.Model.pack x.toModel.unpack).unpack = x.toModel.unpack := by
  cases known : x.toModel.unpack with
  | notANumber => rfl
  | infinity s => cases s <;> rfl
  | zero s => cases s <;> rfl
  | finite s m e pos =>
    have finite : x.isFinite = true := by
      change x.toModel.unpack.isFinite = true
      rw [known]
      rfl
    cases unpacks_of_isFinite finite with
    | zero unpacked empty =>
      rw [known] at unpacked
      cases unpacked
    | finite pos' unpacked canonical =>
      rw [← known, unpacked]
      exact unpack_pack canonical pos' (sign x)

theorem unpack_neg (x : Float) : (-x).toModel.unpack = x.toModel.unpack.neg := by
  change (Float.Model.pack x.toModel.unpack.neg).unpack = _
  rw [unpack_pack_neg, unpack_pack_unpack]

protected theorem neg_neg (x : Float) : - -x = x := by
  apply unpack_injective
  rw [unpack_neg, unpack_neg]
  cases x.toModel.unpack with
  | infinity s | zero s | finite s => cases s <;> rfl
  | notANumber => rfl

end Reckon.Proofs.Double
