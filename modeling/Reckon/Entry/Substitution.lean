/-! Substitution in a text, from left to right. A pattern sees the character before a
place and all the text from there on; what a match covers is not looked at again. -/

namespace Reckon.Entry

/-- What a match covers beyond its first character, and what replaces it. -/
structure Match where
  further : Nat
  replacement : List Char

abbrev Pattern := Option Char → List Char → Option Match

/-- Replaces every match, where `before` is the character to the left and the next
`covered` characters belong to the last match. The character to the left is the one
that was entered, whether it was replaced or not. -/
def substituteFrom (pattern : Pattern) : Option Char → Nat → List Char → List Char
  | _, _, [] => []
  | _, covered + 1, char :: rest => substituteFrom pattern (some char) covered rest
  | before, 0, char :: rest =>
    match pattern before (char :: rest) with
    | some found => found.replacement ++ substituteFrom pattern (some char) found.further rest
    | none => char :: substituteFrom pattern (some char) 0 rest

def substitute (pattern : Pattern) (text : List Char) : List Char :=
  substituteFrom pattern none 0 text

/-- Writes something between neighbours, as `gap` says for each pair. -/
def fillGaps (gap : Char → Char → List Char) : List Char → List Char
  | [] => []
  | char :: rest => char :: ((rest.head?.elim [] (gap char)) ++ fillGaps gap rest)

theorem substituteFrom_eq_self {pattern : Pattern} {text : List Char}
    (never : ∀ before rest, rest <:+ text → pattern before rest = none) :
    ∀ before, substituteFrom pattern before 0 text = text := by
  induction text with
  | nil => intro before; rfl
  | cons char rest ih =>
    intro before
    have deeper := ih fun before tail inside => never before tail (inside.trans (List.suffix_cons ..))
    simp [substituteFrom, never before (char :: rest) (List.suffix_refl _), deeper]

theorem fillGaps_eq_self {gap : Char → Char → List Char} {text : List Char}
    (empty : ∀ left right, gap left right = []) : fillGaps gap text = text := by
  induction text with
  | nil => rfl
  | cons char rest ih => cases rest <;> simp_all [fillGaps]

end Reckon.Entry
