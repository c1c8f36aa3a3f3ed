import Reckon.Proofs.Matches

/-! The passes over a text in two parts. A pass works on each part by itself if no match
reaches from one into the other, and what is written between the parts depends on the two
characters that meet there. -/

namespace Reckon.Entry

variable {pattern : Pattern} {gap : Char → Char → List Char} {before : Option Char}
  {first rest left middle right text : List Char} {char : Char}

private theorem getLast?_or (before : Option Char) (front back : List Char) :
    (front ++ back).getLast?.or before = back.getLast?.or (front.getLast?.or before) := by
  rw [List.getLast?_append, Option.or_assoc]

private theorem apart_behind {covered others : List Char} (parts : first = covered ++ others)
    (apart : ∀ front suffix, first = front ++ suffix → suffix ≠ [] →
      pattern (front.getLast?.or before) (suffix ++ rest) = pattern (front.getLast?.or before) suffix) :
    ∀ front suffix, others = front ++ suffix → suffix ≠ [] →
      pattern (front.getLast?.or (covered.getLast?.or before)) (suffix ++ rest) =
        pattern (front.getLast?.or (covered.getLast?.or before)) suffix := by
  intro front suffix whole filled
  have later := apart (covered ++ front) suffix (by simp [parts, whole]) filled
  rwa [getLast?_or] at later

theorem substituteFrom_parts
    (within : ∀ before text found, pattern before text = some found → found.further < text.length)
    (apart : ∀ front suffix, first = front ++ suffix → suffix ≠ [] →
      pattern (front.getLast?.or before) (suffix ++ rest) = pattern (front.getLast?.or before) suffix) :
    substituteFrom pattern before 0 (first ++ rest) =
      substituteFrom pattern before 0 first ++
        substituteFrom pattern (first.getLast?.or before) 0 rest := by
  -- on the length of the first part, since the scan goes on behind all that a match covers
  induction length : first.length using Nat.strong_induction_on generalizing before first with
  | _ count ih =>
    subst length
    cases first with
    | nil => rfl
    | cons char tail =>
      have here := apart [] (char :: tail) rfl (by simp)
      rw [List.getLast?_nil, Option.none_or] at here
      cases matched : pattern before (char :: tail) with
      | none =>
        rw [matched, List.cons_append] at here
        have later := ih _ (by simp) (apart_behind (List.singleton_append (x := char)).symm apart) rfl
        have final : (char :: tail).getLast?.or before = tail.getLast?.or (some char) :=
          getLast?_or before [char] tail
        rw [List.getLast?_singleton, Option.some_or] at later
        simp only [List.cons_append, substituteFrom, here, matched, later, final]
      | some found =>
        obtain ⟨covered, others, parts, length, shorter⟩ := exists_covered (within _ _ _ matched)
        have filled : covered.getLast?.or before = covered.getLast? := by
          obtain ⟨first, more, rfl⟩ := List.exists_cons_of_length_eq_add_one length
          simp [List.getLast?_cons]
        have later := ih _ shorter (apart_behind parts apart) rfl
        rw [matched] at here
        rw [parts] at matched here ⊢
        rw [List.append_assoc] at here
        rw [filled] at later
        rw [List.append_assoc, substituteFrom_replaced here length, substituteFrom_replaced matched length,
          later, List.append_assoc, getLast?_or, filled]

def bridge (gap : Char → Char → List Char) : Option Char → Option Char → List Char
  | some left, some right => gap left right
  | _, _ => []

theorem fillGaps_cons (char : Char) (rest : List Char) :
    fillGaps gap (char :: rest) = char :: (bridge gap (some char) rest.head? ++ fillGaps gap rest) := by
  cases rest <;> rfl

theorem fillGaps_parts (first rest : List Char) :
    fillGaps gap (first ++ rest) =
      fillGaps gap first ++ (bridge gap first.getLast? rest.head? ++ fillGaps gap rest) := by
  induction first with
  | nil => rfl
  | cons char first ih =>
    cases first with
    | nil => exact fillGaps_cons char rest
    | cons next first =>
      rw [List.cons_append, fillGaps_cons, ih, fillGaps_cons char (next :: first), List.getLast?_cons_cons]
      simp

theorem head?_fillGaps (text : List Char) : (fillGaps gap text).head? = text.head? := by
  cases text <;> rfl

theorem getLast?_fillGaps (text : List Char) : (fillGaps gap text).getLast? = text.getLast? := by
  induction text using List.reverseRecOn with
  | nil => rfl
  | append_singleton front char =>
    have single : fillGaps gap [char] = [char] := rfl
    rw [fillGaps_parts, single, ← List.append_assoc, List.getLast?_concat, List.getLast?_concat]

def written (text : List Char) : List Char :=
  fillGaps emptyGap (fillGaps productGap text)

theorem complete_eq (text : List Char) : complete text = written (foldPercents text) := rfl

theorem getLast?_written (text : List Char) : (written text).getLast? = text.getLast? := by
  rw [written, getLast?_fillGaps, getLast?_fillGaps]

theorem head?_written (text : List Char) : (written text).head? = text.head? := by
  rw [written, head?_fillGaps, head?_fillGaps]

/-- The product that is written where an operand may end and another one may begin. -/
def product (last? next? : Option Char) : List Char :=
  bridge productGap last? next?

private theorem product_cases (last? next? : Option Char) :
    product last? next? = [] ∨ product last? next? = ['*'] := by
  cases last? with
  | none => exact .inl rfl
  | some last =>
    cases next? with
    | none => exact .inl rfl
    | some next =>
      show productGap last next = [] ∨ productGap last next = ['*']
      unfold productGap
      split
      · exact .inr rfl
      · exact .inl rfl

private theorem fillGaps_zeros (quiet : bridge emptyGap first.getLast? rest.head? = [])
    (last? next? : Option Char) :
    fillGaps emptyGap (first ++ (product last? next? ++ rest)) =
      fillGaps emptyGap first ++ (product last? next? ++ fillGaps emptyGap rest) := by
  rcases product_cases last? next? with none | star
  · rw [none, List.nil_append, fillGaps_parts, quiet]
  · have before : bridge emptyGap first.getLast? (some '*') = [] := by
      cases first.getLast? <;> simp [bridge, emptyGap]
    have behind : bridge emptyGap (some '*') rest.head? = [] := by
      cases rest.head? <;> simp [bridge, emptyGap]
    rw [star, fillGaps_parts, List.singleton_append, fillGaps_cons, List.head?_cons, before, behind]
    rfl

/-- An operand stays as it is where it stands, and products are written on its two sides. -/
theorem written_middle (filled : middle ≠ []) (products : fillGaps productGap middle = middle)
    (zeros : fillGaps emptyGap middle = middle) (noClosing : middle.head? ≠ some ')')
    (noOpening : middle.getLast? ≠ some '(') :
    written (left ++ (middle ++ right)) =
      written left ++ product left.getLast? middle.head? ++
        (middle ++ (product middle.getLast? right.head? ++ written right)) := by
  have head (others : List Char) : (middle ++ others).head? = middle.head? := by
    cases middle with
    | nil => exact absurd rfl filled
    | cons char rest => rfl
  have quiet (others : List Char) : bridge emptyGap others.getLast? middle.head? = [] := by
    cases known : middle.head? with
    | none => cases others.getLast? <;> rfl
    | some next =>
      have other : next ≠ ')' := fun same => noClosing (known.trans (congrArg some same))
      cases others.getLast? <;> simp [bridge, emptyGap, other]
  have quiet' (others : List Char) : bridge emptyGap middle.getLast? others.head? = [] := by
    cases known : middle.getLast? with
    | none => rfl
    | some last =>
      have other : last ≠ '(' := fun same => noOpening (known.trans (congrArg some same))
      cases others.head? <;> simp [bridge, emptyGap, other]
  have inside : fillGaps emptyGap (middle ++ (product middle.getLast? right.head? ++
      fillGaps productGap right)) =
      middle ++ (product middle.getLast? right.head? ++ fillGaps emptyGap (fillGaps productGap right)) := by
    rw [fillGaps_zeros (quiet' _), zeros]
  unfold written
  rw [fillGaps_parts, fillGaps_parts middle, products, head]
  show fillGaps emptyGap (fillGaps productGap left ++ (product left.getLast? middle.head? ++
    (middle ++ (product middle.getLast? right.head? ++ fillGaps productGap right)))) = _
  rw [fillGaps_zeros (by rw [head]; exact quiet _), inside, List.append_assoc]

theorem written_minus (text : List Char) : written (text ++ ['-']) = written text ++ ['-'] := by
  have noOperand : Text.isDigit '-' = false ∧ Text.isLetter '-' = false := by decide
  have noProduct : bridge productGap text.getLast? (some '-') = [] := by
    cases text.getLast? <;> simp [bridge, productGap, noOperand]
  have noZero : bridge emptyGap (fillGaps productGap text).getLast? (some '-') = [] := by
    cases (fillGaps productGap text).getLast? <;> simp [bridge, emptyGap]
  have alone (gap : Char → Char → List Char) : fillGaps gap ['-'] = ['-'] := rfl
  rw [written, fillGaps_parts, alone, List.head?_cons, noProduct, List.nil_append, fillGaps_parts, alone,
    List.head?_cons, noZero, List.nil_append, written]

end Reckon.Entry
