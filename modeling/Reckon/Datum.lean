import Reckon.Error
import Reckon.Rounding

/-! A value as it comes from a table or from a caller: of any type, or missing. -/

namespace Reckon

inductive Datum where
  | real (value : Float)
  | integer (value : Int)
  | text (value : String)
  | flag (value : Bool)
  | missing
deriving DecidableEq, Repr

namespace Datum

/-- The greatest count of digits with which an integer is written. -/
@[irreducible]
def digitLimit : Nat := 4300

/-- An integer in its digits. One that takes too many is not written at all. -/
def written (value : Int) : Except Failure String :=
  if value.natAbs < powerOfTen digitLimit then .ok (toString value)
  else .error (.refused .tooManyDigits)

/-- The value as plain text. -/
def plain : Datum → Except Failure String
  | real value => .ok (exact value)
  | integer value => written value
  | text value => .ok value
  | flag value => .ok (if value then "True" else "False")
  | missing => .ok "None"

/-- The value as it appears inside a description: a text is quoted. -/
def described : Datum → Except Failure String
  | text value => .ok (Text.quoted value)
  | other => other.plain

/-- The text of a table cell. A missing value and NaN leave it empty. -/
def cell : Datum → Except Failure String
  | missing => .ok ""
  | real value => .ok (if value.isNaN then "" else exact value)
  | other => other.plain

/-- Any value can be written, except an integer of too many digits. -/
def Writable : Datum → Prop
  | integer value => value.natAbs < powerOfTen digitLimit
  | _ => True

instance (value : Datum) : Decidable value.Writable :=
  match value with
  | integer size => inferInstanceAs (Decidable (size.natAbs < powerOfTen digitLimit))
  | real _ | text _ | flag _ | missing => .isTrue trivial

theorem exists_plain {value : Datum} (writable : value.Writable) :
    ∃ text, value.plain = .ok text := by
  cases value with
  | integer size => exact ⟨toString size, if_pos writable⟩
  | _ => exact ⟨_, rfl⟩

theorem exists_described {value : Datum} (writable : value.Writable) :
    ∃ text, value.described = .ok text := by
  cases value with
  | integer size => exact ⟨toString size, if_pos writable⟩
  | _ => exact ⟨_, rfl⟩

theorem exists_cell {value : Datum} (writable : value.Writable) : ∃ text, value.cell = .ok text := by
  cases value with
  | integer size => exact ⟨toString size, if_pos writable⟩
  | _ => exact ⟨_, rfl⟩

theorem plain_of_not_writable {value : Datum} (unwritable : ¬ value.Writable) :
    value.plain = .error (.refused .tooManyDigits) := by
  cases value with
  | integer size => exact if_neg unwritable
  | _ => exact absurd trivial unwritable

theorem cell_of_not_writable {value : Datum} (unwritable : ¬ value.Writable) :
    value.cell = .error (.refused .tooManyDigits) := by
  cases value with
  | integer size => exact if_neg unwritable
  | _ => exact absurd trivial unwritable

/-- A flag counts as one or zero. -/
def integer? : Datum → Option Int
  | integer value => some value
  | flag value => some (if value then 1 else 0)
  | real value => whole? value
  | _ => none

/-- The double nearest to a number. A text is none, whatever it spells. -/
def nearest? : Datum → Option Float
  | real value => some value
  | integer value => some (Float.ofInt value)
  | flag value => some (if value then 1.0 else 0.0)
  | _ => none

/-- Whether the value says yes: it is there, and neither zero nor an empty text. -/
def affirms : Datum → Bool
  | real value => value != 0.0
  | integer value => value != 0
  | text value => value != ""
  | flag value => value
  | missing => false

/-- Equality of values, numbers of different types compared by size. -/
def same : Datum → Datum → Bool
  | real x, real y => x == y
  | text first, text second => first == second
  | missing, missing => true
  | first, second =>
    match first.integer?, second.integer? with
    | some m, some n => m == n
    | _, _ => false

end Datum

end Reckon
