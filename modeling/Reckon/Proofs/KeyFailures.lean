import Reckon.Proofs.ErrorContract
import Reckon.Proofs.GreatestFactorial
import Reckon.QuickFunction

/-! What the function keys can fail with. Each key has its own failures for the operands it cannot
take, and only the factorial goes through whole numbers that may be too large for a double. -/

namespace Reckon.Proofs.KeyFailures
open QuickFunction ErrorContract GreatestFactorial

/-- A failure that a key may have: an operand outside its domain, a division by zero, or a name
that no key has. -/
inductive Own (name : String) : Failure → Prop
  | operand (cause : Cause) (kind : cause.kind ∈ [.domainError, .divisionByZero]) :
    Own name (.ofCause cause)
  | unknown (absent : named? name = none) : Own name (.refused (.unknownQuickFunction name))

/-- The factorial is asked for, the operand is an integer of the range, and no double holds its
factorial. -/
def Unheld (least greatest : ℤ) (name : String) (x : Float) : Prop :=
  name = factorial.name ∧ ∃ n : ℕ, whole? x = some (n : ℤ) ∧ least ≤ n ∧ n ≤ greatest ∧
    (Float.ofNat n.factorial).isFinite = false

/-- The factorial is asked for, the operand is an integer outside of the range, and the range
cannot be shown, since an end of it takes too many digits. -/
def Unshown (least greatest : ℤ) (name : String) (x : Float) : Prop :=
  name = factorial.name ∧ ∃ n : ℤ, whole? x = some n ∧ (n < least ∨ greatest < n) ∧
    ¬ ((Datum.integer least).Writable ∧ (Datum.integer greatest).Writable)

variable {config : Config} {least greatest : ℤ} {mode : AngleMode} {name : String} {x : Float}
  {quick : QuickFunction}

private theorem factorialOf_eq (n : ℕ) : factorialOf n = n.factorial := by
  induction n with
  | zero => rfl
  | succ n ih => rw [factorialOf, ih, Nat.factorial_succ]

/-- Every key but one decides by itself what it takes. -/
theorem value_own (other : quick ≠ .factorial) : FailsOnly (Own name) (quick.value config mode x) := by
  cases quick with
  | factorial => exact absurd rfl other
  | function f =>
    rw [QuickFunction.value]
    cases outcome : f.apply mode x with
    | ok value => exact .ok value
    | error cause =>
      rw [function_failsOnly f x cause outcome]
      exact .error (.operand _ (by simp [Cause.kind]))
  | inverse =>
    rw [QuickFunction.value]
    split
    · exact .error (.operand _ (by decide))
    · exact .ok _
  | hypotenuse =>
    rw [QuickFunction.value]
    split
    · exact .error (.operand _ (by simp [Cause.kind]))
    · exact .ok _
  | square | cube | percent | floor | negate => exact .ok _

section Factorial

variable (low : config.factorialMin = .integer least) (high : config.factorialMax = .integer greatest)

include low high

private theorem outOfRange_eq (n : ℤ) :
    outOfRange config n = .ok (decide (n < least) || decide (greatest < n)) := by
  rw [outOfRange, low, high, Datum.below?_integer, Datum.below?_integer]
  cases decide (n < least) <;> rfl

/-- The factorial of an integer of the range comes back as a double, if there is one for it. -/
theorem factorialValue_of_inside {n : ℤ} (whole : whole? x = some n) (above : least ≤ n)
    (below : n ≤ greatest) :
    factorialValue config x =
      if n < 0 then .ok 0.0
      else if (Float.ofNat n.toNat.factorial).isFinite then .ok (Float.ofNat n.toNat.factorial)
      else .error .overflow := by
  have range : outOfRange config n = .ok false := by
    rw [outOfRange_eq low high, decide_eq_false (by omega), decide_eq_false (by omega)]
    rfl
  unfold factorialValue
  simp only [whole, range, bind, Except.bind, Bool.false_eq_true, if_false]
  by_cases negative : n < 0
  · simp only [negative, if_true]
  · have great : greatestFactorial < n ↔ ¬ (Float.ofNat n.toNat.factorial).isFinite = true := by
      rw [isFinite_factorial, greatestFactorial]
      omega
    simp only [negative, if_false, great, ite_not, factorialOf_eq]

/-- Outside of the range both of its ends are shown. -/
theorem factorialValue_of_outside {n : ℤ} (whole : whole? x = some n)
    (outside : n < least ∨ greatest < n) :
    factorialValue config x = ((Datum.integer least).plain >>= fun first =>
      (Datum.integer greatest).plain >>= fun second =>
        .error (.ofCause (.factorialOutOfRange first second))) := by
  have range : outOfRange config n = .ok true := by
    rw [outOfRange_eq low high, ← Bool.decide_or, decide_eq_true outside]
  unfold factorialValue
  simp only [whole, range, low, high]
  rfl

private theorem factorialValue_overflow (unheld : Unheld least greatest name x) :
    factorialValue config x = .error .overflow := by
  obtain ⟨-, n, whole, above, below, infinite⟩ := unheld
  have natural : ¬ (n : ℤ) < 0 := by omega
  rw [factorialValue_of_inside low high whole above below, if_neg natural, Int.toNat_natCast,
    infinite, if_neg Bool.false_ne_true]

private theorem factorialValue_unshown (unshown : Unshown least greatest name x) :
    factorialValue config x = .error (.refused .tooManyDigits) := by
  obtain ⟨-, n, whole, outside, ends⟩ := unshown
  rw [factorialValue_of_outside low high whole outside]
  by_cases first : (Datum.integer least).Writable
  · obtain ⟨text, written⟩ := Datum.exists_plain first
    rw [written, Datum.plain_of_not_writable fun second => ends ⟨first, second⟩]
    rfl
  · rw [Datum.plain_of_not_writable first]
    rfl

private theorem factorialValue_own (held : ¬ Unheld least greatest factorial.name x)
    (shown : ¬ Unshown least greatest factorial.name x) :
    FailsOnly (Own name) (factorialValue config x) := by
  cases whole : whole? x with
  | none =>
    unfold factorialValue
    rw [whole]
    exact .error (.operand _ (by simp [Cause.kind]))
  | some n =>
    by_cases outside : n < least ∨ greatest < n
    · obtain ⟨first, second⟩ : (Datum.integer least).Writable ∧ (Datum.integer greatest).Writable := by
        by_contra ends
        exact shown ⟨rfl, n, whole, outside, ends⟩
      obtain ⟨text, written⟩ := Datum.exists_plain first
      obtain ⟨text', written'⟩ := Datum.exists_plain second
      rw [factorialValue_of_outside low high whole outside, written, written']
      exact .error (.operand _ (by simp [Cause.kind]))
    · rw [factorialValue_of_inside low high whole (by omega) (by omega)]
      split
      case isTrue => exact .ok _
      split
      case isTrue => exact .ok _
      case isFalse natural infinite =>
        refine absurd ⟨rfl, n.toNat, ?_, ?_⟩ held
        · rw [whole, Int.toNat_of_nonneg (by omega)]
        · exact ⟨by omega, by omega, Bool.eq_false_of_not_eq_true infinite⟩

theorem applyNamed_own (held : ¬ Unheld least greatest name x)
    (shown : ¬ Unshown least greatest name x) :
    FailsOnly (Own name) (applyNamed config mode name (.real x)) := by
  unfold applyNamed
  cases known : named? name with
  | none => exact .error (.unknown known)
  | some quick =>
    have value : FailsOnly (Own name) (quick.value config mode x) := by
      by_cases same : quick = .factorial
      · subst same
        rw [← name_of_named? known] at held shown
        exact factorialValue_own low high held shown
      · exact value_own same
    exact value.map

end Factorial

private theorem applyNamed_factorial {failure : Failure} (asked : name = factorial.name)
    (failed : factorialValue config x = .error failure) :
    applyNamed config mode name (.real x) = .error failure := by
  have known : named? name = some .factorial := asked ▸ named?_name .factorial
  unfold applyNamed
  rw [known]
  change _ <$> factorialValue config x = _
  rw [failed]
  rfl

/-- A key fails in a way of its own, but for two failures of the factorial. No double holds that
of an integer of the range from 171 on, which the check of the range does not keep out. And an
operand outside of the range is only told so if both ends of the range can be shown. -/
theorem own_or_overflow {config : Config} {least greatest : ℤ}
    (low : config.factorialMin = .integer least) (high : config.factorialMax = .integer greatest)
    (mode : AngleMode) (name : String) (x : Float) :
    (¬ Unheld least greatest name x → ¬ Unshown least greatest name x →
      FailsOnly (Own name) (applyNamed config mode name (.real x))) ∧
    (applyNamed config mode name (.real x) = .error .overflow ↔ Unheld least greatest name x) ∧
    (applyNamed config mode name (.real x) = .error (.refused .tooManyDigits) ↔
      Unshown least greatest name x) := by
  have overflow (unheld : Unheld least greatest name x) :
      applyNamed config mode name (.real x) = .error .overflow :=
    applyNamed_factorial unheld.1 (factorialValue_overflow low high unheld)
  have refused (unshown : Unshown least greatest name x) :
      applyNamed config mode name (.real x) = .error (.refused .tooManyDigits) :=
    applyNamed_factorial unshown.1 (factorialValue_unshown low high unshown)
  refine ⟨applyNamed_own low high, ⟨?_, overflow⟩, ⟨?_, refused⟩⟩
  · intro failed
    by_contra held
    have shown : ¬ Unshown least greatest name x := by
      intro unshown
      cases failed.symm.trans (refused unshown)
    cases applyNamed_own low high held shown _ failed
  · intro failed
    by_contra shown
    have held : ¬ Unheld least greatest name x := by
      intro unheld
      cases failed.symm.trans (overflow unheld)
    cases applyNamed_own low high held shown _ failed

theorem own_or_overflow_171 :
    Config.check { factorialMax := .integer 200 } = .ok () ∧ Unheld 0 200 "factorial" 171.0 ∧
      applyNamed { factorialMax := .integer 200 } .degrees "factorial" (.real 171.0) =
        .error .overflow ∧
      FailsOnly (Own "inverse")
        (applyNamed { factorialMax := .integer 200 } .degrees "inverse" (.real 0.0)) ∧
      applyNamed { factorialMax := .integer (10 ^ 4300) } .radians "factorial" (.real (-1.0)) =
        .error (.refused .tooManyDigits) := by
  have infinite : ¬ (Float.ofNat (Nat.factorial 171)).isFinite = true := by
    rw [isFinite_factorial]
    decide
  have unheld : Unheld 0 200 "factorial" 171.0 :=
    ⟨rfl, 171, by decide +kernel, by decide, by decide, Bool.eq_false_of_not_eq_true infinite⟩
  have held : ¬ Unheld 0 200 "inverse" 0.0 := fun unheld => absurd unheld.1 (by decide)
  have shown : ¬ Unshown 0 200 "inverse" 0.0 := fun unshown => absurd unshown.1 (by decide)
  have long : ¬ (Datum.integer (10 ^ 4300)).Writable := by decide +kernel
  have unshown : Unshown 0 (10 ^ 4300) "factorial" (-1.0) :=
    ⟨rfl, -1, by decide +kernel, .inl (by decide), fun ends => long ends.2⟩
  refine ⟨rfl, unheld, ?_, ?_, ?_⟩
  · exact (own_or_overflow rfl rfl .degrees "factorial" 171.0).2.1.mpr unheld
  · exact (own_or_overflow rfl rfl .degrees "inverse" 0.0).1 held shown
  · exact (own_or_overflow rfl rfl .radians "factorial" (-1.0)).2.2.mpr unshown

end Reckon.Proofs.KeyFailures
