import Reckon.Proofs.FoldedText

/-! Preparing a text in parts. A name of a constant is made of letters, so none reaches over a
place that has no letter on one of its sides, and a product is written behind a percent sign
that an operand follows. -/

namespace Reckon.Entry
open Proofs.SettledText Proofs.FoldedText

variable {pattern : Pattern} {before last? next? : Option Char} {first rest text result : List Char}
  {char : Char}

/-- No name reaches over the place between two characters. -/
def Cut (last? next? : Option Char) : Prop :=
  (∀ last ∈ last?, Text.isFoldedLetter last = false) ∨ ∀ next ∈ next?, Text.isFoldedLetter next = false

/-- Only the letters around a place decide whether a pattern matches there. -/
structure Separates (pattern : Pattern) : Prop where
  within : ∀ before text found, pattern before text = some found → found.further < text.length
  apart : ∀ before suffix rest, suffix ≠ [] → Cut suffix.getLast? rest.head? →
    pattern before (suffix ++ rest) = pattern before suffix
  beside : ∀ last? rest, Cut last? rest.head? → pattern last? rest = pattern none rest

private theorem substitute_parts (separates : Separates pattern) (cut : Cut first.getLast? rest.head?) :
    substitute pattern (first ++ rest) = substitute pattern first ++ substitute pattern rest := by
  unfold substitute
  rw [substituteFrom_parts separates.within, Option.or_none,
    substituteFrom_beside (separates.beside _ _ cut)]
  rintro front suffix rfl filled
  apply separates.apart _ _ _ filled
  rwa [List.getLast?_append_of_ne_nil _ filled] at cut

theorem Cut.free_behind {last : Char} (cut : Cut (some last) next?)
    (letter : Text.isFoldedLetter last = true) : standsFree next? = true := by
  rcases cut with noLetter | noLetter
  · rw [noLetter last rfl] at letter
    cases letter
  · cases next? with
    | none => rfl
    | some next => simp [standsFree, noLetter next rfl]

theorem Cut.free_before {next : Char} (cut : Cut last? (some next))
    (letter : Text.isFoldedLetter next = true) : standsFree last? = true := by
  rcases cut with noLetter | noLetter
  · cases last? with
    | none => rfl
    | some last => simp [standsFree, noLetter last rfl]
  · rw [noLetter next rfl] at letter
    cases letter

private theorem alone : standsFree none = true := rfl

private theorem folded_p {char : Char} (small : char.toLower = 'p') : Text.isFoldedLetter char = true :=
  isFoldedLetter_of_toLower (by decide) small

private theorem folded_e {char : Char} (small : char.toLower = 'e') : Text.isFoldedLetter char = true :=
  isFoldedLetter_of_toLower (by decide) small

private theorem separates_piPattern : Separates piPattern where
  within _ _ _ matched := (nameMatch_of_piPattern matched).within
  apart before suffix rest filled cut := by
    cases rest with
    | nil => rw [List.append_nil]
    | cons next more =>
      obtain ⟨char, tail, rfl⟩ := List.exists_cons_of_ne_nil filled
      cases tail with
      | nil =>
        have noName : char.toLower = 'p' → Text.isFoldedI next = false := by
          intro small
          rw [← Bool.not_eq_true]
          intro second
          have free : standsFree (some next) = true := cut.free_behind (folded_p small)
          simp [standsFree, isFoldedLetter_of_isFoldedI second] at free
        by_cases small : char.toLower = 'p' <;> simp [piPattern, small, noName]
      | cons second tail =>
        cases tail with
        | nil =>
          by_cases folded : Text.isFoldedI second = true
          · have free : standsFree (some next) = true := cut.free_behind (isFoldedLetter_of_isFoldedI folded)
            simp [piPattern, free, alone]
          · simp [piPattern, folded]
        | cons third tail => rfl
  beside last? rest cut := by
    cases rest with
    | nil => rfl
    | cons char tail =>
      cases tail with
      | nil => rfl
      | cons second after =>
        by_cases small : char.toLower = 'p'
        · have free : standsFree last? = true := cut.free_before (folded_p small)
          simp [piPattern, free, alone]
        · simp [piPattern, small]

private theorem separates_eulerPattern : Separates eulerPattern where
  within _ _ _ matched := (nameMatch_of_eulerPattern matched).within
  apart before suffix rest filled cut := by
    cases rest with
    | nil => rw [List.append_nil]
    | cons next more =>
      obtain ⟨char, tail, rfl⟩ := List.exists_cons_of_ne_nil filled
      cases tail with
      | nil =>
        by_cases small : char.toLower = 'e'
        · have free : standsFree (some next) = true := cut.free_behind (folded_e small)
          simp [eulerPattern, free, alone]
        · simp [eulerPattern, small]
      | cons second tail => rfl
  beside last? rest cut := by
    cases rest with
    | nil => rfl
    | cons char after =>
      by_cases small : char.toLower = 'e'
      · have free : standsFree last? = true := cut.free_before (folded_e small)
        simp [eulerPattern, free, alone]
      · simp [eulerPattern, small]

/-- What takes the place of a name begins and ends in a parenthesis. -/
theorem ends_enclosed (encloses : Encloses pattern) (parts : Substituted pattern before text result) :
    (result.head? = text.head? ∨ result.head? = some '(') ∧
      (result.getLast? = text.getLast? ∨ result.getLast? = some ')') := by
  induction parts with
  | nil => exact ⟨.inl rfl, .inl rfl⟩
  | @kept before char rest result unmatched later ih =>
    refine ⟨.inl rfl, ?_⟩
    rw [List.getLast?_cons, List.getLast?_cons]
    exact ih.2.imp (fun same => by rw [same]) fun closed => by rw [closed]; rfl
  | @replaced before covered rest result found matched length later ih =>
    obtain ⟨x, -, same⟩ := encloses _ _ _ matched
    have final : found.replacement.getLast? = some ')' := by rw [same, enclosed, List.getLast?_concat]
    rw [same] at final ⊢
    refine ⟨.inr rfl, ?_⟩
    rw [List.getLast?_append, List.getLast?_append, final]
    rcases ih.2 with kept | closed
    · rw [kept]
      cases known : rest.getLast? with
      | none => exact .inr rfl
      | some last => exact .inl rfl
    · rw [closed]
      exact .inr rfl

theorem Cut.substituted (encloses : Encloses pattern) (separates : Separates pattern)
    (cut : Cut first.getLast? rest.head?) :
    Cut (substitute pattern first).getLast? (substitute pattern rest).head? := by
  have closing : Text.isFoldedLetter ')' = false := by decide
  have opening : Text.isFoldedLetter '(' = false := by decide
  have parts (text : List Char) := ends_enclosed encloses (Entry.substituted separates.within none text)
  rcases cut with noLetter | noLetter
  · left
    rcases (parts first).2 with same | closed
    · rwa [substitute, same]
    · rw [substitute, closed]
      rintro _ ⟨⟩
      exact closing
  · right
    rcases (parts rest).1 with same | opened
    · rwa [substitute, same]
    · rw [substitute, opened]
      rintro _ ⟨⟩
      exact opening

theorem expandConstants_parts (cut : Cut first.getLast? rest.head?) :
    expandConstants (first ++ rest) = expandConstants first ++ expandConstants rest := by
  rw [expandConstants, substitute_parts separates_piPattern cut,
    substitute_parts separates_eulerPattern (cut.substituted encloses_piPattern separates_piPattern)]
  rfl

theorem ends_expandConstants (text : List Char) :
    ((expandConstants text).head? = text.head? ∨ (expandConstants text).head? = some '(') ∧
      ((expandConstants text).getLast? = text.getLast? ∨ (expandConstants text).getLast? = some ')') := by
  have first := ends_enclosed encloses_piPattern (substituted separates_piPattern.within none text)
  have second := ends_enclosed encloses_eulerPattern
    (substituted separates_eulerPattern.within none (substitute piPattern text))
  constructor
  · rcases second.1 with same | opened
    · exact first.1.imp same.trans same.trans
    · exact .inr opened
  · rcases second.2 with same | closed
    · exact first.2.imp same.trans same.trans
    · exact .inr closed

private theorem eq_ofNat {number : Nat} (code : char.toNat = number) : char = Char.ofNat number :=
  (Char.ofNat_toNat char).symm.trans (congrArg Char.ofNat code)

theorem eq_of_isGreekPi (greek : Text.isGreekPi char = true) : char = 'π' ∨ char = 'Π' ∨ char = 'ϖ' := by
  simp only [Text.isGreekPi, Bool.or_eq_true, beq_iff_eq, or_assoc] at greek
  exact greek.imp eq_ofNat (Or.imp eq_ofNat eq_ofNat)

theorem noDigit_of_name (name : Text.isFoldedLetter char = true ∨ Text.isGreekPi char = true) :
    Text.isDigit char = false := by
  rcases name with folded | greek
  · simp only [Text.isFoldedLetter, Bool.or_eq_true, beq_iff_eq, or_assoc] at folded
    rcases folded with letter | code | code | code | code
    · exact Text.isDigit_of_letter letter
    all_goals
      rw [eq_ofNat code]
      decide
  · rcases eq_of_isGreekPi greek with rfl | rfl | rfl <;> decide

private theorem noPi_substituted (parts : Substituted piPattern before text result) :
    ∀ char ∈ result, Text.isGreekPi char = false := by
  induction parts with
  | nil => simp
  | @kept before char rest result unmatched later ih =>
    refine List.forall_mem_cons.mpr ⟨?_, ih⟩
    rw [← Bool.not_eq_true]
    intro greek
    simp [piPattern, greek] at unmatched
  | @replaced before covered rest result found matched length later ih =>
    refine List.forall_mem_append.mpr ⟨fun char member => ?_, ih⟩
    obtain ⟨x, plain, same⟩ := encloses_piPattern _ _ _ matched
    rw [← Bool.not_eq_true]
    intro greek
    rw [same] at member
    rcases eq_of_isGreekPi greek with rfl | rfl | rfl <;>
      exact not_mem_enclosed plain (by decide) (by decide) member

theorem noPi_expandConstants (text : List Char) :
    ∀ char ∈ expandConstants text, Text.isGreekPi char = false := by
  have greek : Substituted piPattern none text (substitute piPattern text) :=
    substituted separates_piPattern.within none text
  have euler : Substituted eulerPattern none (substitute piPattern text) (expandConstants text) :=
    substituted separates_eulerPattern.within none _
  intro char member
  rcases mem_substituted encloses_eulerPattern euler member with old | numeral | rfl | rfl
  · exact noPi_substituted greek char old
  · rw [← Bool.not_eq_true]
    intro greek
    rcases eq_of_isGreekPi greek with rfl | rfl | rfl <;> exact absurd numeral (by decide)
  · decide
  · decide

structure Bare (char : Char) : Prop extends Kept char where
  noLetter : Text.isFoldedLetter char = false

theorem expandConstants_eq_self (bare : ∀ char ∈ text, Bare char) : expandConstants text = text := by
  have piPass : substitute piPattern text = text := by
    apply substituteFrom_eq_self
    intro before rest inside
    cases rest with
    | nil => rfl
    | cons char rest =>
      have known := bare char (inside.subset (by simp))
      exact piPattern_eq_none known.noPi fun small => absurd small (not_small (by decide) known.noLetter)
  rw [expandConstants, piPass]
  apply substituteFrom_eq_self
  intro before rest inside
  cases rest with
  | nil => rfl
  | cons char rest =>
    have known := bare char (inside.subset (by simp))
    exact eulerPattern_eq_none fun small => absurd small (not_small (by decide) known.noLetter)

def spelled (text : List Char) : List Char :=
  (text.map plainSign).filter fun char => !Text.isBlank char

theorem spelled_append (first rest : List Char) : spelled (first ++ rest) = spelled first ++ spelled rest := by
  rw [spelled, List.map_append, List.filter_append]
  rfl

theorem plainSign_point (char : Char) : plainSign char = '.' ↔ char = '.' := by
  unfold plainSign
  split_ifs with times divide
  · simp [times]
  · simp [divide]
  · rfl

theorem spelled_eq (text : List Char) :
    spelled text = (text.filter fun char => !Text.isBlank char).map plainSign := by
  have same : (fun char => !Text.isBlank char) ∘ plainSign = fun char => !Text.isBlank char := by
    funext char
    have signs : Text.isBlank '*' = Text.isBlank '×' ∧ Text.isBlank '/' = Text.isBlank '÷' := by decide
    simp only [Function.comp, plainSign]
    split_ifs with times divide
    · rw [times, signs.1]
    · rw [divide, signs.2]
    · rfl
  rw [spelled, List.filter_map, same]

/-- What ends an operand or begins one is entered as it is read. -/
theorem spelled_operand (operand : Text.isDigit char = true ∨ Text.isLetter char = true ∨
      Text.isGreekPi char = true ∨ char ∈ ['(', ')', '%']) : spelled [char] = [char] := by
  have known : plainSign char = char ∧ Text.isBlank char = false := by
    rcases operand with digit | letter | greek | sign
    · exact ⟨plainSign_digit digit, Text.isBlank_of_digit digit⟩
    · exact ⟨plainSign_letter letter, Text.isBlank_of_letter letter⟩
    · rcases eq_of_isGreekPi greek with rfl | rfl | rfl <;> decide
    · simp only [List.mem_cons, List.not_mem_nil, or_false] at sign
      rcases sign with rfl | rfl | rfl <;> decide
  simp [spelled, known.1, known.2]

theorem spelled_eq_self (bare : ∀ char ∈ text, Bare char) : spelled text = text := by
  have same : text.map plainSign = text :=
    (List.map_congr_left fun char member => (bare char member).plain).trans (List.map_id' text)
  rw [spelled, same]
  exact List.filter_eq_self.mpr fun char member => by simp [(bare char member).visible]

theorem prepare_eq (text : List Char) : prepare text = fillGaps percentGap (expandConstants (spelled text)) := rfl

def prepareBefore (left : List Char) : List Char :=
  prepare left ++ if (prepare left).getLast? = some '%' then ['*'] else []

def prepareBehind (right : List Char) : List Char :=
  bridge percentGap (some '%') (prepare right).head? ++ prepare right

/-- A part with a percent sign at its end stays as it is where it stands. -/
theorem prepare_middle {middle : List Char} (bare : ∀ char ∈ middle, Bare char)
    (first : ∃ char, middle.head? = some char ∧ (Text.isDigit char = true ∨ char = '('))
    (final : middle.getLast? = some '%') (inert : fillGaps percentGap middle = middle)
    (left right : List Char) :
    prepare (left ++ (middle ++ right)) = prepareBefore left ++ (middle ++ prepareBehind right) := by
  obtain ⟨char, head, operand⟩ := first
  have noLetter := (bare char (List.mem_of_mem_head? head)).noLetter
  have noLetter' := (bare '%' (List.mem_of_getLast? final)).noLetter
  have cut : Cut (spelled left).getLast? (middle ++ spelled right).head? := by
    rw [List.head?_append, head]
    right
    rintro _ ⟨⟩
    exact noLetter
  have cut' : Cut middle.getLast? (spelled right).head? := by
    rw [final]
    left
    rintro _ ⟨⟩
    exact noLetter'
  have gap : bridge percentGap (prepare left).getLast? (middle ++ expandConstants (spelled right)).head? =
      if (prepare left).getLast? = some '%' then ['*'] else [] := by
    rw [List.head?_append, head]
    cases (prepare left).getLast? with
    | none => rfl
    | some last =>
      rcases operand with digit | rfl
      · simp [bridge, percentGap, digit]
      · simp [bridge, percentGap]
  rw [prepare_eq, spelled_append, spelled_append, spelled_eq_self bare, expandConstants_parts cut,
    expandConstants_parts cut', expandConstants_eq_self bare, fillGaps_parts, fillGaps_parts middle, inert,
    final, ← getLast?_fillGaps (expandConstants (spelled left)), ← prepare_eq, ← prepare_eq, gap,
    ← head?_fillGaps (expandConstants (spelled right)), ← prepare_eq, ← List.append_assoc]
  rfl

end Reckon.Entry
