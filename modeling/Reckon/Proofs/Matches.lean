import Reckon.Proofs.SettledText

/-! The text that comes of a substitution: parts that are kept and parts that are replaced
take turns from left to right. The names of constants are replaced so, too. -/

namespace Reckon.Entry

variable {pattern : Pattern} {before : Option Char} {text result : List Char} {found : Match}

/-- A text and what is left of it once every match is replaced. -/
inductive Substituted (pattern : Pattern) : Option Char → List Char → List Char → Prop
  | nil {before : Option Char} : Substituted pattern before [] []
  | kept {before : Option Char} {char : Char} {rest result : List Char}
      (unmatched : pattern before (char :: rest) = none)
      (later : Substituted pattern (some char) rest result) :
      Substituted pattern before (char :: rest) (char :: result)
  | replaced {before : Option Char} {covered rest result : List Char} {found : Match}
      (matched : pattern before (covered ++ rest) = some found)
      (length : covered.length = found.further + 1)
      (later : Substituted pattern covered.getLast? rest result) :
      Substituted pattern before (covered ++ rest) (found.replacement ++ result)

/-- A match cuts the text into what it covers and what it leaves. -/
theorem exists_covered (fits : found.further < text.length) :
    ∃ covered others, text = covered ++ others ∧ covered.length = found.further + 1 ∧
      others.length < text.length := by
  refine ⟨text.take (found.further + 1), text.drop (found.further + 1), ?_, ?_, ?_⟩
  · exact (List.take_append_drop ..).symm
  · rw [List.length_take]
    omega
  · rw [List.length_drop]
    omega

/-- Substitution leaves nothing out, if no match covers more than there is. -/
theorem substituted
    (within : ∀ before text found, pattern before text = some found → found.further < text.length)
    (before : Option Char) (text : List Char) :
    Substituted pattern before text (substituteFrom pattern before 0 text) := by
  induction length : text.length using Nat.strong_induction_on generalizing before text with
  | _ count ih =>
    subst length
    cases text with
    | nil => exact .nil
    | cons char rest =>
      cases matched : pattern before (char :: rest) with
      | none =>
        simp only [substituteFrom, matched]
        exact .kept matched (ih _ (by simp) (some char) rest rfl)
      | some found =>
        obtain ⟨covered, others, parts, length, shorter⟩ := exists_covered (within _ _ _ matched)
        have later := ih _ shorter covered.getLast? others rfl
        rw [parts] at matched ⊢
        rw [substituteFrom_replaced matched length]
        exact .replaced matched length later

theorem getLast?_substituted {closing : Char → Prop} (parts : Substituted pattern before text result)
    (ends : ∀ before covered rest found, pattern before (covered ++ rest) = some found →
      covered.length = found.further + 1 → ∃ last ∈ covered.getLast?, closing last)
    (open? : ∀ last ∈ text.getLast?, ¬ closing last) : result.getLast? = text.getLast? := by
  induction parts with
  | nil => rfl
  | @kept before char rest result unmatched later ih =>
    rw [List.getLast?_cons, List.getLast?_cons, ih]
    intro last final
    apply open?
    rw [List.getLast?_cons, Option.mem_def.mp final]
    rfl
  | @replaced before covered rest result found matched length later ih =>
    cases rest with
    | nil =>
      obtain ⟨last, final, closes⟩ := ends _ _ _ _ matched length
      rw [List.append_nil] at open?
      exact absurd closes (open? last final)
    | cons char rest =>
      have filled : (char :: rest).getLast? = some ((char :: rest).getLast (by simp)) :=
        List.getLast?_eq_some_getLast _
      rw [List.getLast?_append, filled, Option.some_or] at open?
      rw [List.getLast?_append, List.getLast?_append, ih (filled ▸ open?), filled]
      rfl

theorem head?_substituted {starts : Char → Prop} (parts : Substituted pattern before text result)
    (begins : ∀ before text found, pattern before text = some found → ∀ first ∈ text.head?, starts first)
    (free : ∀ first ∈ text.head?, ¬ starts first) : result.head? = text.head? := by
  cases parts with
  | nil | kept => rfl
  | replaced matched length later =>
    have begun := begins _ _ _ matched
    obtain ⟨first, others, rfl⟩ := List.exists_cons_of_length_eq_add_one length
    exact absurd (begun first rfl) (free first rfl)

/-- The name of a constant: letters, the look-alikes of letters, or the Greek letter. -/
def IsName (text : List Char) : Prop :=
  ∀ char ∈ text, Text.isFoldedLetter char = true ∨ Text.isGreekPi char = true

structure NameMatch (text : List Char) (found : Match) : Prop where
  within : found.further < text.length
  name : IsName (text.take (found.further + 1))
  constant : ∃ x ∈ [pi, euler], found.replacement = enclosed x

theorem isFoldedLetter_of_toLower {char small : Char} (letter : Text.isLetter small = true)
    (same : char.toLower = small) : Text.isFoldedLetter char = true :=
  Text.isFoldedLetter_of_isLetter (Text.isLetter_of_toLower (same ▸ letter))

theorem isFoldedLetter_of_isFoldedI {char : Char} (folded : Text.isFoldedI char = true) :
    Text.isFoldedLetter char = true := by
  simp only [Text.isFoldedI, Bool.or_eq_true, beq_iff_eq, or_assoc] at folded
  rcases folded with rfl | rfl | dotted | dotless
  · decide
  · decide
  · simp [Text.isFoldedLetter, dotted]
  · simp [Text.isFoldedLetter, dotless]

theorem nameMatch_of_piPattern (matched : piPattern before text = some found) : NameMatch text found := by
  unfold piPattern at matched
  split at matched
  case h_2 => cases matched
  case h_1 char rest =>
    split at matched
    case isTrue greek =>
      obtain rfl := Option.some.inj matched
      exact ⟨by simp, by simp [IsName, greek], pi, by simp, rfl⟩
    case isFalse =>
      split at matched
      case h_2 => cases matched
      case h_1 second after =>
        split at matched
        case isFalse => cases matched
        case isTrue name =>
          obtain rfl := Option.some.inj matched
          have first := isFoldedLetter_of_toLower (by decide) name.1
          have second := isFoldedLetter_of_isFoldedI name.2.1
          exact ⟨by simp, by simp [IsName, first, second], pi, by simp, rfl⟩

theorem nameMatch_of_eulerPattern (matched : eulerPattern before text = some found) :
    NameMatch text found := by
  unfold eulerPattern at matched
  split at matched
  case h_2 => cases matched
  case h_1 char after =>
    split at matched
    case isFalse => cases matched
    case isTrue name =>
      obtain rfl := Option.some.inj matched
      have letter := isFoldedLetter_of_toLower (by decide) name.1
      exact ⟨by simp, by simp [IsName, letter], euler, by simp, rfl⟩

end Reckon.Entry
