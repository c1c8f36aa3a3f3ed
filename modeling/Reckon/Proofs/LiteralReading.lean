import Reckon.Numeral.Reading
import Reckon.Proofs.ShortestDecimal

/-! What is written as a literal is read back as the same double. -/

namespace Reckon.Text

private theorem digitValue_of_ascii {char : Char} (ascii : char.isDigit = true) :
    digitValue char = char.toNat - 48 := by
  have bounds : 48 ≤ char.toNat ∧ char.toNat < 58 := by
    simp only [Char.isDigit, Bool.and_eq_true, decide_eq_true_eq, ge_iff_le, UInt32.le_iff_toNat_le]
      at ascii
    exact ⟨ascii.1, Nat.lt_succ_of_le ascii.2⟩
  simp [digitValue, digitValue?, digitZeros, bounds.1, bounds.2]

theorem digitsValue_eq {digits : List Char} (ascii : ∀ char ∈ digits, char.isDigit = true) :
    digitsValue digits = Nat.ofDigitChars 10 digits 0 := by
  unfold digitsValue Nat.ofDigitChars
  generalize 0 = start
  induction digits generalizing start with
  | nil => rfl
  | cons digit rest ih =>
    rw [List.forall_mem_cons] at ascii
    rw [List.foldl_cons, List.foldl_cons, digitValue_of_ascii ascii.1]
    exact ih ascii.2 _

end Reckon.Text

namespace Reckon.Proofs.LiteralReading
open Float.Model Float.Model.UnpackedFloat Double NearestDouble DecimalDouble ShortestDecimal

variable {whole fraction rest : List Char} {decimal : Decimal} {x : Float}

/-- Digits, and a point only with digits behind it. -/
structure Spells (whole fraction : List Char) : Prop where
  filled : whole ≠ []
  digits : ∀ char ∈ whole ++ fraction, char.isDigit = true

theorem Spells.chars (spells : Spells whole fraction) :
    ∀ char ∈ whole ++ Decimal.fraction fraction, char.isDigit = true ∨ char = '.' := by
  intro char member
  have digits := spells.digits
  rw [List.forall_mem_append] at digits
  rcases List.mem_append.mp member with left | right
  · exact .inl (digits.1 char left)
  · cases fraction with
    | nil => cases right
    | cons digit others =>
      exact (List.mem_cons.mp right).elim .inr fun right => .inl (digits.2 char right)

private theorem splitDigits_append (rest : List Char) (ascii : ∀ char ∈ whole, char.isDigit = true)
    (ends : ∀ char ∈ rest.head?, Text.isDigit char = false) :
    Reading.splitDigits (whole ++ rest) = (whole, rest) := by
  have digits : ∀ char ∈ whole, Text.isDigit char = true :=
    fun char inside => Text.isDigit_of_ascii (ascii char inside)
  rw [Reading.splitDigits, List.span_eq_takeWhile_dropWhile, List.takeWhile_append_of_pos digits,
    List.dropWhile_append_of_pos digits]
  cases rest with
  | nil => simp
  | cons char rest => simp [ends char rfl]

theorem Spells.decimal? (spells : Spells whole fraction) :
    Reading.decimal? (whole ++ Decimal.fraction fraction) =
      some ⟨Text.digitsValue (whole ++ fraction), -fraction.length⟩ := by
  obtain ⟨filled, digits⟩ := spells
  have first : ∀ char ∈ whole, char.isDigit = true := fun char inside => digits char (by simp [inside])
  have second : ∀ char ∈ fraction, char.isDigit = true :=
    fun char inside => digits char (by simp [inside])
  have some : whole.isEmpty = false := by simpa using filled
  cases fraction with
  | nil =>
    have split := splitDigits_append [] first (by simp)
    simp [Reading.decimal?, Decimal.fraction, List.append_nil] at split ⊢
    simp [split, filled, Reading.exponent?]
  | cons digit others =>
    have split := splitDigits_append ('.' :: digit :: others) first (by simp; decide)
    have split' := splitDigits_append [] second (by simp)
    rw [List.append_nil] at split'
    simp [Reading.decimal?, Decimal.fraction, split, split', some, Reading.exponent?]

/-- The decimal that the digits in their places show: the zeros that fill them up before
the point are digits like all others. -/
def shown (decimal : Decimal) : Decimal :=
  if 0 ≤ decimal.exponent then ⟨decimal.digits * 10 ^ decimal.exponent.toNat, 0⟩ else decimal

theorem spelled_ascii (decimal : Decimal) : ∀ char ∈ decimal.spelled, char.isDigit = true :=
  fun _ inside => Nat.isDigit_of_mem_toDigits (by decide) (by decide) inside

theorem zeros_ascii (count : ℕ) : ∀ char ∈ List.replicate count '0', char.isDigit = true := by
  intro char inside
  rw [List.eq_of_mem_replicate inside]
  rfl

theorem ascii_append {first second : List Char} (left : ∀ char ∈ first, char.isDigit = true)
    (right : ∀ char ∈ second, char.isDigit = true) : ∀ char ∈ first ++ second, char.isDigit = true := by
  intro char inside
  exact (List.mem_append.mp inside).elim (left char) (right char)

theorem positional_spells (decimal : Decimal) :
    ∃ whole fraction, decimal.positional = whole ++ Decimal.fraction fraction ∧
      Spells whole fraction ∧ ⟨Text.digitsValue (whole ++ fraction), -fraction.length⟩ = shown decimal := by
  have ascii := spelled_ascii decimal
  have some : decimal.spelled ≠ [] := Nat.toDigits_ne_nil
  have value : Nat.ofDigitChars 10 decimal.spelled 0 = decimal.digits := Nat.ofDigitChars_ten_toDigits
  unfold Decimal.positional shown
  by_cases zeros : 0 ≤ decimal.exponent
  · have digits := ascii_append ascii (zeros_ascii decimal.exponent.toNat)
    refine ⟨decimal.spelled ++ List.replicate decimal.exponent.toNat '0', [], ?_, ⟨?_, ?_⟩, ?_⟩
    · simp [zeros, Decimal.fraction]
    · simp [some]
    · simpa using digits
    · rw [List.append_nil, Text.digitsValue_eq digits, Nat.ofDigitChars_append, value]
      simp [zeros, mul_comm]
  · by_cases inside : 0 < decimal.pointPlace
    · have digits : ∀ char ∈ decimal.spelled.take decimal.pointPlace.toNat ++
          decimal.spelled.drop decimal.pointPlace.toNat, char.isDigit = true := by
        rwa [List.take_append_drop]
      refine ⟨_, _, by simp [zeros, inside], ⟨?_, digits⟩, ?_⟩
      · simp [some]
        omega
      · rw [Text.digitsValue_eq digits, List.take_append_drop, value, if_neg zeros]
        have places : ((decimal.spelled.drop decimal.pointPlace.toNat).length : ℤ) = -decimal.exponent := by
          have total : decimal.pointPlace = decimal.spelled.length + decimal.exponent := rfl
          rw [List.length_drop]
          omega
        rw [places, neg_neg]
    · have zero : ∀ char ∈ ['0'], char.isDigit = true := zeros_ascii 1
      have digits := ascii_append zero
        (ascii_append (zeros_ascii (-decimal.pointPlace).toNat) ascii)
      refine ⟨['0'], _, by simp [zeros, inside], ⟨by simp, digits⟩, ?_⟩
      rw [Text.digitsValue_eq digits, Nat.ofDigitChars_append, Nat.ofDigitChars_append,
        Nat.ofDigitChars_replicate_zero, if_neg zeros]
      have places : ((List.replicate (-decimal.pointPlace).toNat '0' ++ decimal.spelled).length : ℤ) =
          -decimal.exponent := by
        have total : decimal.pointPlace = decimal.spelled.length + decimal.exponent := rfl
        rw [List.length_append, List.length_replicate]
        omega
      rw [places, neg_neg]
      have nothing : Nat.ofDigitChars 10 ['0'] 0 = 0 := rfl
      rw [nothing, mul_zero, value]

private theorem length_positional_le (decimal : Decimal) :
    decimal.positional.length ≤ decimal.spelled.length + decimal.exponent.natAbs + 2 := by
  have point (digits : List Char) : (Decimal.fraction digits).length ≤ digits.length + 1 := by
    cases digits <;> simp [Decimal.fraction]
  unfold Decimal.positional
  dsimp only
  split
  · simp only [List.length_append, List.length_replicate]
    omega
  split
  · have behind := point (decimal.spelled.drop decimal.pointPlace.toNat)
    simp only [List.length_append, List.length_take, List.length_drop] at behind ⊢
    omega
  · have behind := point (List.replicate (-decimal.pointPlace).toNat '0' ++ decimal.spelled)
    have total : decimal.pointPlace = decimal.spelled.length + decimal.exponent := rfl
    simp only [List.length_cons, List.length_append, List.length_replicate] at behind ⊢
    omega

private theorem toFloat_shown (some : 0 < decimal.digits) (low : -2048 ≤ decimal.exponent)
    (high : decimal.exponent ≤ 2048) : (shown decimal).toFloat = decimal.toFloat := by
  unfold shown
  split
  case isTrue zeros =>
    have same : Decimal.value ⟨decimal.digits * 10 ^ decimal.exponent.toNat, 0⟩ = decimal.value := by
      have places : decimal.exponent = (decimal.exponent.toNat : ℤ) := by omega
      simp only [Decimal.value, zpow_zero, mul_one]
      conv_rhs => rw [places, zpow_natCast]
      push_cast
      rfl
    rw [toFloat_eq some low high, toFloat_eq (by simp only; positivity) (by simp) (by simp), same]
  case isFalse => rfl

theorem specialName?_of_isFinite (finite : x.isFinite = true) : specialName? x = none := by
  have noSpecial : x.isNaN = false ∧ x.isInf = false := by
    change x.toModel.unpack.isNaN = false ∧ x.toModel.unpack.isInf = false
    cases unpacks_of_isFinite finite with
    | zero unpacked _ | finite _ unpacked _ =>
      rw [unpacked]
      exact ⟨rfl, rfl⟩
  rw [specialName?, noSpecial.1, noSpecial.2]
  rfl

def specialNames : List (List Char) :=
  [['n', 'a', 'n'], ['i', 'n', 'f'], ['-', 'i', 'n', 'f']]

/-- A number without a name is written as an unsigned literal behind the mark of its sign. -/
theorem literalText_cases (x : Float) :
    literalText x ∈ specialNames ∨ ∃ whole fraction,
      literalText x = signMark x ++ (whole ++ Decimal.fraction fraction) ∧ Spells whole fraction := by
  cases known : specialName? x with
  | none =>
    obtain ⟨whole, fraction, written, spells, -⟩ := positional_spells (absolute x)
    refine .inr ⟨whole, fraction, ?_, spells⟩
    rw [literalText, known, Option.getD_none, written]
  | some name =>
    left
    rw [literalText, known, Option.getD_some]
    unfold specialName? at known
    split_ifs at known <;> simp [← Option.some.inj known, specialNames]

def signed (x : Float) (decimal : Decimal) : Float :=
  if isNegative x then -decimal.toFloat else decimal.toFloat

private theorem signed_zero (empty : magnitude x = ⟨0, -1074⟩) : signed x ⟨0, 0⟩ = x := by
  unfold signed
  split
  case isTrue negative =>
    exact eq_of_parts (negative.symm ▸ by decide) (empty.symm ▸ by decide)
  case isFalse positive =>
    rw [Bool.not_eq_true] at positive
    exact eq_of_parts (positive.symm ▸ by decide) (empty.symm ▸ by decide)

private theorem abs_zero (unpacked : x.toModel.unpack = .zero (sign x)) : (x == 0.0) = true := by
  change (x.toModel.unpack.compare (.zero .positive) == some .eq) = true
  rw [unpacked]
  rfl

section Nonzero

variable (pos : 0 < (magnitude x).mantissa) (canonical : Canonical (magnitude x))
  (unpacked : x.toModel.unpack = .finite (sign x) (magnitude x).mantissa (magnitude x).exponent pos)

include unpacked in
private theorem nonzero : (x == 0.0) = false := by
  change (x.toModel.unpack.compare (.zero .positive) == some .eq) = false
  rw [unpacked]
  cases sign x <;> rfl

include unpacked canonical in
private theorem unpack_abs :
    x.abs.toModel.unpack = .finite .positive (magnitude x).mantissa (magnitude x).exponent pos := by
  change (Float.Model.pack x.toModel.unpack.abs).unpack = _
  rw [unpacked]
  exact unpack_pack canonical pos .positive

include unpacked canonical in
private theorem magnitude_abs : magnitude x.abs = magnitude x := by
  have unpacked' := unpack_abs pos canonical unpacked
  have finite : x.abs.isFinite = true := by
    change x.abs.toModel.unpack.isFinite = true
    rw [unpacked']
    rfl
  cases unpacks_of_isFinite finite with
  | zero other _ =>
    rw [unpacked'] at other
    cases other
  | finite pos' other _ =>
    rw [unpacked'] at other
    injection other with _ mantissas exponents
    exact (Magnitude.mk.injEq ..).mpr ⟨mantissas.symm, exponents.symm⟩

include unpacked canonical in
private theorem signed_shortest : signed x (shown (shortest x.abs)) = x := by
  have unpacked' := unpack_abs pos canonical unpacked
  have same := magnitude_abs pos canonical unpacked
  have range := place_range canonical pos
  obtain ⟨back, count, few, some, least, most⟩ :=
    shortest_spec (x := x.abs) (same ▸ pos) (by simp only [unpacked', same]) (same ▸ canonical)
  rw [same] at least most
  have exact := (toFloat_shown some (by omega) (by omega)).trans back
  have kept := unpacked
  unfold sign at kept
  apply unpack_injective
  unfold signed
  rw [exact]
  split
  case isTrue negative =>
    rw [if_pos negative] at kept
    change (Float.Model.pack x.abs.toModel.unpack.neg).unpack = _
    rw [unpacked', kept]
    exact unpack_pack canonical pos .negative
  case isFalse positive =>
    rw [if_neg positive] at kept
    rw [unpacked', kept]

include unpacked canonical in
private theorem length_shortest_le : (shortest x.abs).positional.length ≤ 360 := by
  have unpacked' := unpack_abs pos canonical unpacked
  have same := magnitude_abs pos canonical unpacked
  have range := place_range canonical pos
  obtain ⟨-, count, few, some, least, most⟩ :=
    shortest_spec (x := x.abs) (same ▸ pos) (by simp only [unpacked', same]) (same ▸ canonical)
  have digits : (shortest x.abs).spelled.length ≤ 17 :=
    (Nat.length_toDigits_le_iff (by decide) (by decide)).mpr (shortest_digits (same ▸ pos))
  have total := length_positional_le (shortest x.abs)
  rw [same] at least most
  omega

end Nonzero

/-- A finite double is written as an unsigned literal behind the mark of its sign, and is
what the literal reads as. -/
theorem literalText_spec (finite : x.isFinite = true) :
    ∃ whole fraction decimal, literalText x = signMark x ++ (whole ++ Decimal.fraction fraction) ∧
      Spells whole fraction ∧
      Reading.decimal? (whole ++ Decimal.fraction fraction) = some decimal ∧
      (if isNegative x then -decimal.toFloat else decimal.toFloat) = x := by
  obtain ⟨whole, fraction, written, spells, denoted⟩ := positional_spells (absolute x)
  refine ⟨whole, fraction, shown (absolute x), ?_, spells, ?_, ?_⟩
  · rw [literalText, specialName?_of_isFinite finite, written]
    rfl
  · rw [spells.decimal?, denoted]
  · change signed x (shown (absolute x)) = x
    unfold absolute
    cases unpacks_of_isFinite finite with
    | zero unpacked empty =>
      rw [if_pos (abs_zero unpacked)]
      exact signed_zero empty
    | finite pos unpacked canonical =>
      rw [if_neg (by simp [nonzero pos unpacked])]
      exact signed_shortest pos canonical unpacked

/-- Not even the zeros of the least and the greatest doubles make a literal long. -/
theorem length_literalText_le (finite : x.isFinite = true) : (literalText x).length ≤ 361 := by
  have sign : (signMark x).length ≤ 1 := by
    unfold signMark
    split <;> simp
  have digits : (absolute x).positional.length ≤ 360 := by
    unfold absolute
    cases unpacks_of_isFinite finite with
    | zero unpacked empty =>
      rw [if_pos (abs_zero unpacked)]
      decide
    | finite pos unpacked canonical =>
      rw [if_neg (by simp [nonzero pos unpacked])]
      exact length_shortest_le pos canonical unpacked
  rw [literalText, specialName?_of_isFinite finite, Option.getD_none, List.length_append]
  omega

end Reckon.Proofs.LiteralReading
