import Reckon.Proofs.LiteralReading

/-! The display of a number. Its literal is shown with commas in the integer part, which cut it
into groups of three digits from the right, and nothing else is added: without the commas the
display is the literal. -/

namespace Reckon.Proofs.ThousandGroups
open Grouped LiteralReading

variable {digits whole fraction lead text rest : List Char} {others : List (List Char)} {x : Float}

/-- Digits cut from the right: each group has three of them, and what is left for the first group
is one to three. -/
structure Groups (digits lead : List Char) (others : List (List Char)) : Prop where
  parts : lead ++ others.flatten = digits
  some : 1 ≤ lead.length
  few : lead.length ≤ 3
  threes : ∀ group ∈ others, group.length = 3

def separated (lead : List Char) (others : List (List Char)) : List Char :=
  lead ++ others.flatMap (',' :: ·)

theorem Groups.length (groups : Groups digits lead others) :
    digits.length = lead.length + 3 * others.length := by
  rw [← groups.parts, List.length_append, List.length_flatten, List.map_congr_left groups.threes,
    List.map_const', List.sum_replicate, smul_eq_mul, Nat.mul_comm]

/-- Among digits, full groups are ahead just where a multiple of three of them follows. -/
theorem threesAhead_iff (digits : ∀ char ∈ text, Text.isDigit char = true) :
    Entry.threesAhead text = true ↔ text.length % 3 = 0 ∧ text ≠ [] := by
  induction text using Entry.threesAhead.induct with
  | case1 first second third rest ih =>
    have later : ∀ char ∈ rest, Text.isDigit char = true := fun char member => digits char (by simp [member])
    have three : [first, second, third].all Text.isDigit = true :=
      List.all_eq_true.mpr fun char member => digits char (List.mem_append_left rest member)
    rw [Entry.threesAhead, three, Bool.true_and, Bool.or_eq_true, ih later]
    cases rest with
    | nil => simp
    | cons next others =>
      simp [later next]
      omega
  | case2 text short =>
    match text, short with
    | [], _ => simp [Entry.threesAhead]
    | [_], _ => simp [Entry.threesAhead]
    | [_, _], _ => simp [Entry.threesAhead]
    | first :: second :: third :: rest, short => exact absurd rfl (short first second third rest)

/-- The pattern matches between two digits just where a multiple of three digits follows. -/
theorem thousandsPattern_digits {before digit : Char} (inside : Text.isDigit before = true)
    (digits : ∀ char ∈ digit :: rest, Text.isDigit char = true) :
    Entry.thousandsPattern (some before) (digit :: rest) =
      if (digit :: rest).length % 3 = 0 then some ⟨0, [',', digit]⟩ else none := by
  have ahead : Entry.threesAhead (digit :: rest) = decide ((digit :: rest).length % 3 = 0) := by
    rw [Bool.eq_iff_iff, threesAhead_iff digits]
    simp
  simp only [Entry.thousandsPattern, Option.any_some, inside, ahead, Bool.true_and, decide_eq_true_eq]

private theorem substitute_behind {before : Char} (inside : Text.isDigit before = true)
    (digits : ∀ char ∈ text, Text.isDigit char = true) :
    Entry.substituteFrom Entry.thousandsPattern (some before) 0 text =
      if text.length % 3 = 0 ∧ text ≠ [] then ',' :: group text else group text := by
  cases text with
  | nil => rfl
  | cons digit rest =>
    rw [Entry.substituteFrom, thousandsPattern_digits inside digits]
    by_cases full : (digit :: rest).length % 3 = 0
    · rw [if_pos full, if_pos ⟨full, by simp⟩]
      rfl
    · rw [if_neg full, if_neg fun both => full both.1]
      rfl

private theorem group_cons {digit : Char} (digits : ∀ char ∈ digit :: rest, Text.isDigit char = true) :
    group (digit :: rest) =
      if rest.length % 3 = 0 ∧ rest ≠ [] then digit :: ',' :: group rest else digit :: group rest := by
  rw [List.forall_mem_cons] at digits
  have front : group (digit :: rest) =
      digit :: Entry.substituteFrom Entry.thousandsPattern (some digit) 0 rest := rfl
  rw [front, substitute_behind digits.1 digits.2]
  split <;> rfl

/-- A group is full just if a multiple of three digits follows, and then a new one begins. -/
theorem group_spec (filled : digits ≠ []) (ascii : ∀ char ∈ digits, Text.isDigit char = true) :
    ∃ lead others, Groups digits lead others ∧ group digits = separated lead others := by
  induction digits with
  | nil => exact absurd rfl filled
  | cons digit rest ih =>
    have written := group_cons ascii
    by_cases last : rest = []
    · subst last
      exact ⟨[digit], [], ⟨rfl, by simp, by simp, by simp⟩, rfl⟩
    · obtain ⟨lead, others, groups, behind⟩ := ih last fun char member => ascii char (List.mem_cons_of_mem _ member)
      have count := groups.length
      have few := groups.few
      have some := groups.some
      rw [behind] at written
      by_cases full : rest.length % 3 = 0
      · refine ⟨[digit], lead :: others, ⟨?_, by simp, by simp, ?_⟩, ?_⟩
        · simp [← groups.parts]
        · exact List.forall_mem_cons.mpr ⟨by omega, groups.threes⟩
        · rw [written, if_pos ⟨full, last⟩]
          simp [separated]
      · refine ⟨digit :: lead, others, ⟨?_, ?_, ?_, groups.threes⟩, ?_⟩
        · simp [← groups.parts]
        · simp
        · rw [List.length_cons]
          omega
        · rw [written, if_neg fun both => full both.1]
          rfl

def withoutCommas (text : List Char) : List Char :=
  text.filter (· != ',')

private theorem withoutCommas_append (first second : List Char) :
    withoutCommas (first ++ second) = withoutCommas first ++ withoutCommas second :=
  List.filter_append ..

private theorem withoutCommas_eq_self (plain : ',' ∉ text) : withoutCommas text = text := by
  rw [withoutCommas, List.filter_eq_self]
  intro char member
  exact bne_iff_ne.mpr fun same => plain (same ▸ member)

private theorem withoutCommas_separated (plain : ',' ∉ lead ++ others.flatten) :
    withoutCommas (separated lead others) = lead ++ others.flatten := by
  rw [List.mem_append, not_or] at plain
  obtain ⟨first, later⟩ := plain
  rw [separated, withoutCommas_append, withoutCommas_eq_self first]
  congr 1
  induction others with
  | nil => rfl
  | cons group others ih =>
    rw [List.flatten_cons, List.mem_append, not_or] at later
    have comma : withoutCommas (',' :: group) = withoutCommas group := rfl
    rw [List.flatMap_cons, withoutCommas_append, comma, withoutCommas_eq_self later.1, ih later.2,
      List.flatten_cons]

private theorem noComma_of_digits (digits : ∀ char ∈ text, char.isDigit = true) : ',' ∉ text := by
  intro member
  exact absurd (digits ',' member) (by decide)

/-- The integer part ends at the point or where the text does. -/
theorem groupInteger_spelled (spells : Spells whole fraction) :
    groupInteger (whole ++ Decimal.fraction fraction) =
      group whole ++ Decimal.fraction fraction := by
  have inside : ∀ char ∈ whole, (char != '.') = true := by
    intro char member
    have digit := spells.digits char (List.mem_append_left _ member)
    exact bne_iff_ne.mpr fun point => absurd (point ▸ digit) (by decide)
  rw [groupInteger, List.takeWhile_append_of_pos inside, List.dropWhile_append_of_pos inside]
  cases fraction with
  | nil => simp [Decimal.fraction]
  | cons digit more => simp [Decimal.fraction]

private theorem grouped_of_isFinite (finite : x.isFinite = true) :
    grouped x = String.ofList (signMark x ++ groupInteger (absolute x).positional) := by
  have unnamed := specialName?_of_isFinite finite
  rw [specialName?] at unnamed
  split_ifs at unnamed with isNaN isInf
  rw [grouped, if_neg isNaN, if_neg isInf]

/-- A literal and its display differ in nothing but the commas of the integer part. -/
structure Shows (x : Float) (whole fraction lead : List Char) (others : List (List Char)) :
    Prop where
  spells : Spells whole fraction
  literal : literal x = String.ofList (signMark x ++ (whole ++ Decimal.fraction fraction))
  groups : Groups whole lead others
  grouped : grouped x =
    String.ofList (signMark x ++ (separated lead others ++ Decimal.fraction fraction))

private theorem exists_shows (finite : x.isFinite = true) :
    ∃ whole fraction lead others, Shows x whole fraction lead others := by
  obtain ⟨whole, fraction, written, spells, -⟩ := positional_spells (absolute x)
  have ascii : ∀ char ∈ whole, Text.isDigit char = true := fun char member =>
    Text.isDigit_of_ascii (spells.digits char (List.mem_append_left _ member))
  obtain ⟨lead, others, groups, cut⟩ := group_spec spells.filled ascii
  refine ⟨whole, fraction, lead, others, spells, ?_, groups, ?_⟩
  · rw [literal, literalText, specialName?_of_isFinite finite, written, Option.getD_none]
  · rw [grouped_of_isFinite finite, written, groupInteger_spelled spells, cut]

theorem Shows.withoutCommas (display : Shows x whole fraction lead others) :
    String.ofList (withoutCommas (Reckon.grouped x).toList) = Reckon.literal x := by
  have ascii := display.spells.digits
  rw [List.forall_mem_append] at ascii
  have sign : ',' ∉ signMark x := by
    unfold signMark
    split <;> decide
  have inside : ',' ∉ lead ++ others.flatten := by
    rw [display.groups.parts]
    exact noComma_of_digits ascii.1
  have behind : ',' ∉ Decimal.fraction fraction := by
    have digits := noComma_of_digits ascii.2
    cases fraction with
    | nil => exact digits
    | cons digit more => simpa [Decimal.fraction] using digits
  rw [display.grouped, display.literal, String.toList_ofList, withoutCommas_append,
    withoutCommas_append, withoutCommas_eq_self sign, withoutCommas_separated inside,
    withoutCommas_eq_self behind, display.groups.parts]

/-- A finite double is displayed as its literal with commas between groups of three digits, in the
integer part and nowhere else: behind the sign there is a digit, and so there is around each comma.
Without the commas the display is the literal, so doubles with different literals look different. -/
theorem literal_with_commas {x : Float} (finite : x.isFinite = true) :
    (∃ whole fraction lead others, Shows x whole fraction lead others) ∧
      String.ofList (withoutCommas (grouped x).toList) = literal x ∧
      ∀ y : Float, y.isFinite = true → literal x ≠ literal y → grouped x ≠ grouped y := by
  obtain ⟨whole, fraction, lead, others, display⟩ := exists_shows finite
  refine ⟨⟨whole, fraction, lead, others, display⟩, display.withoutCommas, ?_⟩
  intro y finite' different alike
  obtain ⟨_, _, _, _, display'⟩ := exists_shows finite'
  apply different
  rw [← display.withoutCommas, alike, display'.withoutCommas]

theorem literal_with_commas_negative :
    (-1234567.0625 : Float).isFinite = true ∧ grouped (-1234567.0625) = "-1,234,567.0625" ∧
      grouped (-1234567.0625) ≠ grouped 1234567.0625 ∧
      ∃ whole fraction lead others, Shows (-1234567.0625) whole fraction lead others := by
  have finite : (-1234567.0625 : Float).isFinite = true := by decide +kernel
  have finite' : (1234567.0625 : Float).isFinite = true := by decide +kernel
  have written : grouped (-1234567.0625) = "-1,234,567.0625" := by decide +kernel
  have different : literal (-1234567.0625) ≠ literal 1234567.0625 := by decide +kernel
  obtain ⟨display, -, apart⟩ := literal_with_commas finite
  exact ⟨finite, written, apart _ finite' different, display⟩

end Reckon.Proofs.ThousandGroups
