import Reckon.Proofs.BatchRows
import Reckon.Proofs.LeadingProduct
import Reckon.Proofs.WrittenNumber

/-! Toggling the sign in a session. A result is turned as a number. Without one a minus is put in
front of the text on display or taken away from there, and what that turns is the first operand. -/

namespace Reckon.Proofs.ToggledSign
open Entry Grammar Arranging Transparency SharedEvaluator BatchRows TurnedSign LeadingProduct
open WrittenNumber Evaluator Lexer

variable {text : String} {mode : AngleMode} {value other : Float}

/-- The text with a minus taken away from its start or put there. -/
def toggled : List Char → List Char
  | '-' :: rest => rest
  | text => '-' :: text

private theorem toggled_cases (text : List Char) :
    toggled text = '-' :: text ∨ text = '-' :: toggled text := by
  unfold toggled
  split
  case h_1 => exact .inr rfl
  case h_2 => exact .inl rfl

private theorem turns_toggled (text : List Char) :
    Turns (lex (normalize text)) (lex (normalize (toggled text))) := by
  rcases toggled_cases text with same | same
  · rw [same, normalize_minus]
    exact turns_minus (normalize text)
  · generalize toggled text = rest at same
    rw [same, normalize_minus]
    exact (turns_minus (normalize rest)).symm

private theorem isBalanced_toggled (text : List Char) : isBalanced (toggled text) = isBalanced text := by
  have level : ReadText.Level ['-'] := ReadText.level_of_plain (by decide)
  have plain (text : List Char) : isBalanced ('-' :: text) = isBalanced text := by
    rw [isBalanced, ← List.singleton_append, openAfter_append, level 0]
    rfl
  rcases toggled_cases text with same | same
  · rw [same, plain]
  · conv_rhs => rw [same, plain]

private theorem normalize_blank {text : List Char} (blank : text.all Text.isBlank = true) :
    normalize text = [] := by
  have nothing : Entry.spelled text = [] := by
    rw [spelled_eq, List.map_eq_nil_iff, List.filter_eq_nil_iff]
    simpa using blank
  have shape : normalize text = written (computed (fillGaps percentGap (expandConstants (Entry.spelled text)))) :=
    rfl
  rw [shape, nothing]
  rfl

/-- When a text that is not blank has a value, and which one. -/
theorem evaluate_eq_ok_iff (visible : Text.allBlank text = false) :
    evaluate {} mode (some text) = .ok value ↔
      text.length ≤ 1000 ∧ isBalanced text.toList = true ∧ ∃ items y,
        lex (normalize text.toList) = .ok items ∧ carryOut mode items = .ok y ∧
          value = roundTo resultScale y := by
  have limit : ({} : Config).maxLength = .integer 1000 := rfl
  have entered : enteredText (some text) = text := by simp [enteredText, visible]
  rw [evaluate, entered, limit, Datum.below?_integer]
  by_cases short : text.length ≤ 1000
  · rw [decide_eq_false (by omega), compute_eq_execute, execute]
    simp only [short, true_and]
    cases isBalanced text.toList with
    | false => simp
    | true =>
      cases lex (normalize text.toList) with
      | error cause => simp [liftCause, Except.mapError, bind, Except.bind]
      | ok items =>
        simp only [Except.ok.injEq, exists_and_left, exists_eq_left', true_and]
        show (carryOut mode items).mapError _ >>= _ = _ ↔ _
        cases carryOut mode items with
        | error failure => simp [Except.mapError, bind, Except.bind]
        | ok y =>
          rw [decimalScale_default]
          simp [Except.mapError, bind, Except.bind, pure, Except.pure, eq_comm]
  · rw [decide_eq_true (by omega)]
    cases (Datum.integer 1000).plain <;> simp [short, bind, Except.bind]

/-- A text that has a value is balanced and is read. Nothing is read of a blank one. -/
theorem read_of_value (known : evaluate {} mode (some text) = .ok value) :
    isBalanced text.toList = true ∧ ∃ items, lex (normalize text.toList) = .ok items := by
  cases visible : Text.allBlank text with
  | false =>
    obtain ⟨-, balanced, items, -, read, -⟩ := (evaluate_eq_ok_iff visible).mp known
    exact ⟨balanced, items, read⟩
  | true =>
    have plain : ∀ char ∈ text.toList, char ≠ '(' ∧ char ≠ ')' := by
      intro char member
      have blank := List.all_eq_true.mp visible char member
      constructor <;> rintro rfl <;> exact absurd blank (by decide)
    have level := ReadText.level_of_plain plain 0
    refine ⟨by rw [isBalanced, level]; rfl, [], ?_⟩
    rw [normalize_blank visible]
    rfl

/-- A text of which nothing is left but blanks had no value. -/
theorem visible_toggled (known : evaluate {} mode (some text) = .ok value) :
    Text.allBlank (String.ofList (toggled text.toList)) = false := by
  obtain ⟨-, items, read⟩ := read_of_value known
  rw [← Bool.not_eq_true]
  intro blank
  rw [Text.allBlank, String.toList_ofList] at blank
  rcases toggled_cases text.toList with same | same
  · rw [same] at blank
    exact absurd (List.all_eq_true.mp blank '-' (List.mem_cons_self ..)) (by decide)
  · rw [same, normalize_minus, normalize_blank blank] at read
    cases read

/-- What a text that has a value evaluates to once it is toggled. -/
theorem evaluate_toggled (known : evaluate {} mode (some text) = .ok value) :
    evaluate {} mode (some (String.ofList (toggled text.toList))) = .ok other ↔
      (toggled text.toList).length ≤ 1000 ∧ ∃ items row y,
        lex (normalize text.toList) = .ok items ∧ turned items = some row ∧
          carryOut mode row = .ok y ∧ other = roundTo resultScale y := by
  obtain ⟨balanced, items, read⟩ := read_of_value known
  have turns := (turns_toggled text.toList).forth items read
  rw [evaluate_eq_ok_iff (visible_toggled known), String.toList_ofList, String.length_ofList,
    isBalanced_toggled]
  constructor
  · rintro ⟨short, -, row, y, read', carried, same⟩
    exact ⟨short, items, row, y, read, (turns row).mp read', carried, same⟩
  · rintro ⟨short, items', row, y, read', turns', carried, same⟩
    obtain rfl := Except.ok.inj (read.symm.trans read')
    exact ⟨short, balanced, row, y, (turns row).mpr turns', carried, same⟩

variable {items rest : List Lexeme} {tree : Expr}

/-- The product that a text starts with changes its sign with its first operand. -/
theorem evaluate_leading (known : evaluate {} mode (some text) = .ok value)
    (read : lex (normalize text.toList) = .ok (items ++ rest)) (reading : Reads .product items tree)
    (loose : Loose rest) (free : ¬ Glued items) (short : (toggled text.toList).length ≤ 1000) :
    ∃ x, tree.value mode = .ok x ∧
      (∃ y, carryOut mode (.number x :: rest) = .ok y ∧ value = roundTo resultScale y) ∧
      ∀ other, evaluate {} mode (some (String.ofList (toggled text.toList))) = .ok other ↔
        ∃ y, carryOut mode (.number (-x) :: rest) = .ok y ∧ other = roundTo resultScale y := by
  obtain ⟨row, negated, turns, reading', negates⟩ := turnsIn_product reading free
  have visible : Text.allBlank text = false := by
    rw [← Bool.not_eq_true]
    intro blank
    rw [normalize_blank blank] at read
    obtain ⟨rfl, -⟩ := List.append_eq_nil_iff.mp (Except.ok.inj read).symm
    cases turns
  obtain ⟨-, -, row', y, read', carried, same⟩ := (evaluate_eq_ok_iff visible).mp known
  obtain rfl := Except.ok.inj (read.symm.trans read')
  obtain ⟨x, valued, carried⟩ := (carryOut_leading reading loose).mp carried
  have opposite : negated.value mode = .ok (-x) := by
    rw [negates mode, valued]
    rfl
  refine ⟨x, valued, ⟨y, carried, same⟩, fun other => ?_⟩
  rw [evaluate_toggled known]
  constructor
  · rintro ⟨-, whole, row', z, read', turns', carried', same'⟩
    obtain rfl := Except.ok.inj (read.symm.trans read')
    obtain rfl := Option.some.inj ((turned_append turns rest).symm.trans turns')
    obtain ⟨x', valued', carried'⟩ := (carryOut_leading reading' loose).mp carried'
    obtain rfl := Except.ok.inj (opposite.symm.trans valued')
    exact ⟨z, carried', same'⟩
  · rintro ⟨z, carried', same'⟩
    exact ⟨short, _, _, z, read, turned_append turns rest,
      (carryOut_leading reading' loose).mpr ⟨-x, opposite, carried'⟩, same'⟩

variable {session : Session} {evaluator : Evaluator}

private theorem currentValue_eq (sound : Sound {} mode evaluator) (empty : session.result = none) :
    (session.currentValue {} evaluator).1 = evaluate {} session.mode (some session.expression) := by
  rw [Session.currentValue, empty]
  exact sound.evaluate_in _ _

private theorem toggleSign_text (session : Session) (evaluator : Evaluator) (empty : session.result = none) :
    (session.toggleSign evaluator).session =
        { session with expression := String.ofList (toggled session.expression.toList) } ∧
      (session.toggleSign evaluator).evaluator = evaluator := by
  rw [Session.toggleSign, empty]
  dsimp only
  split
  case h_1 rest known =>
    rw [known]
    exact ⟨rfl, rfl⟩
  case h_2 other =>
    rcases toggled_cases session.expression.toList with same | same
    · rw [same]
      exact ⟨rfl, rfl⟩
    · exact absurd same (other _)

private theorem isFinite_neg (finite : value.isFinite = true) : (-value).isFinite = true := by
  change (-value).toModel.unpack.isFinite = true
  change value.toModel.unpack.isFinite = true at finite
  rw [Double.unpack_neg]
  generalize value.toModel.unpack = unpacked at finite
  cases unpacked <;> first | rfl | cases finite

/-- A result is written back with its sign turned. -/
theorem currentValue_toggled (sound : Sound {} mode evaluator) (held : session.result = some value)
    (finite : value.isFinite = true) :
    ((session.toggleSign evaluator).session.currentValue {} (session.toggleSign evaluator).evaluator).1 =
      .ok (roundTo resultScale (-value)) := by
  have writes : session.write? (-value) =
      .ok { session with expression := literal (-value), result := none } := by
    rw [Session.write?, if_pos (isFinite_neg finite)]
  rw [Session.toggleSign, held]
  dsimp only
  rw [writes]
  exact (displays_of_write? writes).currentValue sound

/-- The value of an expression of its own that a session has on display. -/
theorem currentValue_turned (sound : Sound {} mode evaluator) (empty : session.result = none) :
    ((session.toggleSign evaluator).session.currentValue {} (session.toggleSign evaluator).evaluator).1 =
      evaluate {} session.mode (some (String.ofList (toggled session.expression.toList))) := by
  obtain ⟨written, unchanged⟩ := toggleSign_text session evaluator empty
  rw [written, unchanged]
  exact currentValue_eq sound empty

/-- A result that is toggled gives way to its opposite, rounded again. Without a result, where the
text on display is a product that begins with no literal under a power, and is not too long with a
minus more, the value behind it is the opposite of what the product was before it was rounded. -/
theorem opposite_of_toggled {capacity? : Option Datum} {mode? : Option AngleMode} {tasks : List Task}
    {session : Session} {value : Float} (whole : IsWhole (capacity?.getD ({} : Config).cacheSize))
    (sets : ∀ task ∈ tasks, SetsWhole task) (finite : value.isFinite = true)
    (known : (session.currentValue {} (after {} (Evaluator.new {} capacity? mode?) tasks)).1 = .ok value) :
    let outcome := session.toggleSign (after {} (Evaluator.new {} capacity? mode?) tasks)
    let next := (outcome.session.currentValue {} outcome.evaluator).1
    let text := session.expression.toList
    ((∃ result, session.result = some result) → next = .ok (roundTo resultScale (-value))) ∧
      ∀ items tree, session.result = none → lex (normalize text) = .ok items →
        Reads .product items tree → ¬ Glued items → (toggled text).length ≤ 1000 →
        ∃ x, tree.value session.mode = .ok x ∧ value = roundTo resultScale x ∧
          next = .ok (roundTo resultScale (-x)) := by
  intro outcome next text
  have sound := sound_after (@sound_new {} capacity? mode? whole) sets
  constructor
  · rintro ⟨result, held⟩
    rw [Session.currentValue, held] at known
    obtain rfl := Except.ok.inj known
    exact currentValue_toggled sound held finite
  · intro items tree empty read reading free short
    rw [currentValue_eq sound empty] at known
    have alone : Loose [] := by simp [Loose]
    rw [← List.append_nil items] at read
    obtain ⟨x, valued, ⟨y, carried, same⟩, opposite⟩ := evaluate_leading known read reading alone free short
    obtain rfl : x = y := Except.ok.inj carried
    have next_eq : next = _ := currentValue_turned sound empty
    exact ⟨x, valued, same, next_eq.trans ((opposite _).mpr ⟨-x, rfl, rfl⟩)⟩

theorem opposite_of_toggled_product :
    let session : Session :=
      { expression := "-(2+3)*4", memory := .missing, mode := .degrees, historySize := none }
    let tasks : List Task := [.evaluate (some "2*3") none, .resize (.integer 0)]
    let evaluator := after {} (Evaluator.new {} none none) tasks
    let outcome := session.toggleSign evaluator
    IsWhole (.integer 1000) ∧ (∀ task ∈ tasks, SetsWhole task) ∧
      (session.currentValue {} evaluator).1 = .ok (-20.0) ∧
      (outcome.session.currentValue {} outcome.evaluator).1 = .ok 20.0 := by
  intro session tasks evaluator outcome
  have whole : IsWhole (.integer 1000) := ⟨1000, rfl⟩
  have sets : ∀ task ∈ tasks, SetsWhole task := by
    simp [tasks, SetsWhole, IsWhole]
  have known : (session.currentValue {} evaluator).1 = .ok (-20.0) := by decide +kernel
  have number (x : Float) : Reads .product [.number x] (.literal x) :=
    .factor (.unsigned (.base (.bare (.number x))))
  have group := Reads.group (.sum .add rfl (.term (number 2.0)) (number 3.0))
  have reading : Reads .product ([.negate, .opening, .number 2.0, .binary .add, .number 3.0, .closing] ++
      [.binary .multiply, .number 4.0]) (.binary .multiply (.negate
        (.binary .add (.literal 2.0) (.literal 3.0))) (.literal 4.0)) :=
    .product .multiply rfl (.factor (.negate (.unsigned (.base (.bare group)))))
      (.unsigned (.base (.bare (.number 4.0))))
  have free : ¬ Glued ([.negate, .opening, .number 2.0, .binary .add, .number 3.0, .closing] ++
      [.binary .multiply, .number 4.0]) := by
    rintro ⟨x, count, rest, same⟩
    simp [signedRow] at same
  have read : lex (normalize "-(2+3)*4".toList) =
      .ok ([.negate, .opening, .number 2.0, .binary .add, .number 3.0, .closing] ++
        [.binary .multiply, .number 4.0]) := by rfl
  have opposite := (@opposite_of_toggled none none tasks session (-20.0) whole sets (by decide) known).2
  obtain ⟨x, valued, -, next⟩ := opposite _ _ rfl read reading free (by decide)
  obtain rfl := Except.ok.inj valued
  have rounded : roundTo resultScale (-(-(2.0 + 3.0) * 4.0)) = 20.0 := by decide +kernel
  exact ⟨whole, sets, known, next.trans (congrArg Except.ok rounded)⟩

/-- Results are rounded with a half going up, so that the opposite of one may be rounded to another
number, and of a sum only the first part is turned. -/
theorem not_opposite_of_toggled :
    let session (text : String) : Session :=
      { expression := text, memory := .real 0.0, mode := .degrees, historySize := some 3 }
    let evaluator := Evaluator.new {} none none
    let value (text : String) := ((session text).currentValue {} evaluator).1
    let next (text : String) :=
      (((session text).toggleSign evaluator).session.currentValue {} evaluator).1
    (value "1/200000000" = .ok 0.00000001 ∧ next "1/200000000" = .ok 0.0 ∧
        ((0.0 : Float) == -0.00000001) = false) ∧
      value "2+3" = .ok 5.0 ∧ next "2+3" = .ok 1.0 ∧ ((1.0 : Float) == -5.0) = false := by
  intro session evaluator value next
  have half : value "1/200000000" = .ok 0.00000001 ∧ next "1/200000000" = .ok 0.0 := by decide +kernel
  have sum : value "2+3" = .ok 5.0 ∧ next "2+3" = .ok 1.0 := by decide +kernel
  exact ⟨⟨half.1, half.2, by decide +kernel⟩, sum.1, sum.2, by decide +kernel⟩

end Reckon.Proofs.ToggledSign
