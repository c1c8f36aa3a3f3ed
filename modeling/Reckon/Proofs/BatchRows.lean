import Reckon.Batch
import Reckon.Proofs.ErrorContract
import Reckon.Proofs.Transparency

/-! The rows of a batch. If all its values can be written, each row says what its own value
evaluates to, whatever stands beside it and whatever the evaluator has done before. -/

namespace Reckon.Proofs.BatchRows
open Evaluator ErrorContract Transparency Lexer

def Tells (outcome : Except Failure Float) (value : Float) (error : Option Kind) : Prop :=
  (outcome = .ok value ∧ error = none) ∨
    ∃ cause text?, outcome = .error (.evaluation cause text?) ∧ value = 0.0 / 0.0 ∧
      error = some cause.kind

def failsWith (kind : Kind) : Except Failure Float → Bool
  | .error (.evaluation cause _) => cause.kind == kind
  | _ => false

/-- What a value evaluates to once it was written. -/
def outcomeOf (config : Config) (mode : AngleMode) (value : Datum) : Except Failure Float :=
  value.cell >>= fun text => evaluate config mode (some text)

def AllWritable (batch : Series) : Prop :=
  ∀ entry ∈ batch, entry.2.Writable

def after (config : Config) (evaluator : Evaluator) (tasks : List Task) : Evaluator :=
  tasks.foldl (fun evaluator task => (evaluator.perform config task).2) evaluator

variable {config : Config} {mode : AngleMode} {evaluator : Evaluator} {batch : Series}

theorem sound_after (sound : Sound config mode evaluator) {tasks : List Task}
    (sets : ∀ task ∈ tasks, SetsWhole task) : Sound config mode (after config evaluator tasks) := by
  induction tasks generalizing evaluator with
  | nil => exact sound
  | cons task rest ih =>
    rw [List.forall_mem_cons] at sets
    exact ih (sound.perform sets.1).2 sets.2

section Lines

def textOf (value : Datum) : String :=
  value.cell.toOption.getD ""

private theorem cell_of_writable {value : Datum} (writable : value.Writable) :
    value.cell = .ok (textOf value) := by
  obtain ⟨text, written⟩ := Datum.exists_cell writable
  rw [textOf, written]
  rfl

theorem allWritable_texts (texts : List String) : AllWritable (.numbered (texts.map .text)) := by
  intro entry member
  rw [Series.numbered_map_text] at member
  obtain ⟨place, inside, rfl⟩ := List.mem_mapIdx.mp member
  exact trivial

theorem outcomeOf_of_cell {value : Datum} {text : String} (written : value.cell = .ok text) :
    outcomeOf config mode value = evaluate config mode (some text) := by
  rw [outcomeOf, written]
  rfl

private theorem lines_of_writable (writable : AllWritable batch) :
    batch.lines = .ok (batch.map fun entry => (entry.1, textOf entry.2)) := by
  induction batch with
  | nil => rfl
  | cons entry rest ih =>
    obtain ⟨first, others⟩ := List.forall_mem_cons.mp writable
    have later := ih others
    rw [Series.lines] at later ⊢
    rw [List.mapM_cons, later, cell_of_writable first]
    rfl

/-- The induction finds the first value that cannot be written. -/
theorem lines_of_not_writable (unwritable : ¬ AllWritable batch) :
    batch.lines = .error (.refused .tooManyDigits) := by
  induction batch with
  | nil => exact absurd (List.forall_mem_nil _) unwritable
  | cons entry rest ih =>
    rw [Series.lines, List.mapM_cons]
    by_cases first : entry.2.Writable
    · have later := ih fun others => unwritable (List.forall_mem_cons.mpr ⟨first, others⟩)
      rw [Series.lines] at later
      rw [later, cell_of_writable first]
      rfl
    · rw [Datum.cell_of_not_writable first]
      rfl

end Lines

section Rows

variable {outcome : Datum → Except Failure Float}

def kind? : Failure → Option Kind
  | .evaluation cause _ => some cause.kind
  | _ => none

def rowOf (label : Datum) (text : String) : Except Failure Float → Row
  | .ok value => ⟨label, text, value, none⟩
  | .error failure => ⟨label, text, 0.0 / 0.0, kind? failure⟩

/-- The rows of a batch in which each value has an outcome of its own. -/
def rowsOf (outcome : Datum → Except Failure Float) (batch : Series) : List Row :=
  batch.map fun entry => rowOf entry.1 (textOf entry.2) (outcome entry.2)

theorem row_eq (usable : Usable config) (mode : AngleMode) (entry : Datum × String) :
    row config mode entry =
      .ok (rowOf entry.1 entry.2 (evaluate config mode (some entry.2))) := by
  rw [row]
  cases outcome : evaluate config mode (some entry.2) with
  | ok value => rfl
  | error failure =>
    obtain ⟨cause, rfl, -⟩ := usable.failsOnly mode (some entry.2) failure outcome
    rfl

/-- What is remembered does not show in the rows. -/
theorem rows_eq (usable : Usable config) (sound : Sound config mode evaluator)
    (unit? : Option AngleMode) (writable : AllWritable batch) :
    (evaluator.evaluateMany config unit? batch).1 =
      .ok (rowsOf (outcomeOf config (unit?.getD mode)) batch) := by
  have alone : row config (unit?.getD mode) = fun entry =>
      pure (rowOf entry.1 entry.2 (evaluate config (unit?.getD mode) (some entry.2))) :=
    funext (row_eq usable (unit?.getD mode))
  rw [(sound.evaluateMany unit? batch).1, plainRows, lines_of_writable writable, alone]
  simp only [bind, Except.bind, List.mapM_pure, List.map_map]
  refine congrArg Except.ok (List.map_congr_left fun entry member => ?_)
  rw [outcomeOf_of_cell (cell_of_writable (writable entry member))]
  rfl

private theorem evaluateMany_of_not_writable (config : Config) (evaluator : Evaluator)
    (unit? : Option AngleMode) (unwritable : ¬ AllWritable batch) :
    evaluator.evaluateMany config unit? batch = (.error (.refused .tooManyDigits), evaluator) := by
  rw [Evaluator.evaluateMany, lines_of_not_writable unwritable]

theorem exists_rows_iff (usable : Usable config) (sound : Sound config mode evaluator)
    (unit? : Option AngleMode) (batch : Series) :
    (∃ rows, (evaluator.evaluateMany config unit? batch).1 = .ok rows) ↔ AllWritable batch := by
  constructor
  · rintro ⟨rows, answered⟩
    by_contra unwritable
    rw [evaluateMany_of_not_writable config evaluator unit? unwritable] at answered
    cases answered
  · exact fun writable => ⟨_, rows_eq usable sound unit? writable⟩

private theorem tells_rowsOf (writable : AllWritable batch)
    (fails : ∀ entry ∈ batch, ∀ failure, outcome entry.2 = .error failure →
      ∃ cause text?, failure = .evaluation cause text?) :
    List.Forall₂ (fun entry row => row.label = entry.1 ∧ entry.2.cell = .ok row.expression ∧
      Tells (outcome entry.2) row.value row.error) batch (rowsOf outcome batch) := by
  rw [rowsOf, List.forall₂_map_right_iff, List.forall₂_same]
  intro entry member
  have written := cell_of_writable (writable entry member)
  cases known : outcome entry.2 with
  | ok value => exact ⟨rfl, written, .inl ⟨rfl, rfl⟩⟩
  | error failure =>
    obtain ⟨cause, text?, rfl⟩ := fails entry member failure known
    exact ⟨rfl, written, .inr ⟨cause, text?, rfl, rfl, rfl⟩⟩

private theorem countP_rowsOf (kind : Kind) (batch : Series) :
    (rowsOf outcome batch).countP (fun row => row.error == some kind) =
      batch.countP fun entry => failsWith kind (outcome entry.2) := by
  rw [rowsOf, List.countP_map]
  apply List.countP_congr
  intro entry _
  rw [Function.comp_apply]
  cases outcome entry.2 with
  | ok value => exact Iff.rfl
  | error failure => cases failure <;> exact Iff.rfl

end Rows

private theorem mem_failureCounts {rows : List Row} {kind : Kind} {count : Nat} :
    (kind, count) ∈ Batch.failureCounts rows ↔
      0 < count ∧ rows.countP (fun row => row.error == some kind) = count := by
  have listed : kind ∈ Batch.kindsByName := by cases kind <;> decide
  simp only [Batch.failureCounts, List.mem_filter, List.mem_map, Prod.mk.injEq, bne_iff_ne]
  constructor
  · rintro ⟨⟨other, _, rfl, counted⟩, some⟩
    exact ⟨Nat.pos_of_ne_zero some, counted⟩
  · rintro ⟨some, counted⟩
    exact ⟨⟨kind, listed, rfl, counted⟩, some.ne'⟩

private theorem outcomeOf_failsOnly (usable : Usable config) (mode : AngleMode) {value : Datum}
    (writable : value.Writable) {failure : Failure}
    (failed : outcomeOf config mode value = .error failure) :
    ∃ cause text?, failure = .evaluation cause text? := by
  rw [outcomeOf_of_cell (cell_of_writable writable)] at failed
  obtain ⟨cause, same, -⟩ := usable.failsOnly mode (some (textOf value)) failure failed
  exact ⟨cause, _, same⟩

/-- A batch has rows if all its values can be written, and else nothing of it is evaluated. The
rows follow the batch in its order, each under its own label, and say what the evaluation alone
answers, after whatever tasks. Another order of the batch is another order of the rows, and each
kind of error is counted as often as a value of the batch fails with it. -/
theorem rows_as_evaluated {config : Config} {capacity? : Option Datum} {mode? : Option AngleMode}
    {tasks : List Task} (usable : Usable config) (whole : IsWhole (capacity?.getD config.cacheSize))
    (sets : ∀ task ∈ tasks, SetsWhole task) (unit? : Option AngleMode) (batch : Series) :
    let evaluator := after config (Evaluator.new config capacity? mode?) tasks
    let outcome := outcomeOf config (unit?.getD (mode?.getD config.defaultMode))
    ((∃ rows, (evaluator.evaluateMany config unit? batch).1 = .ok rows) ↔ AllWritable batch) ∧
      (¬ AllWritable batch → evaluator.evaluateMany config unit? batch =
        (.error (.refused .tooManyDigits), evaluator)) ∧
      ∀ rows, (evaluator.evaluateMany config unit? batch).1 = .ok rows →
        List.Forall₂ (fun entry row => row.label = entry.1 ∧ entry.2.cell = .ok row.expression ∧
          Tells (outcome entry.2) row.value row.error) batch rows ∧
        (∀ others, batch.Perm others → ∃ rows',
          (evaluator.evaluateMany config unit? others).1 = .ok rows' ∧ rows.Perm rows') ∧
        ∀ kind count, (kind, count) ∈ Batch.failureCounts rows ↔
          0 < count ∧ batch.countP (fun entry => failsWith kind (outcome entry.2)) = count := by
  intro evaluator outcome
  have sound : Sound config (mode?.getD config.defaultMode) evaluator :=
    sound_after (sound_new whole) sets
  have writable_iff := exists_rows_iff usable sound unit? batch
  refine ⟨writable_iff, evaluateMany_of_not_writable config evaluator unit?, fun rows answered => ?_⟩
  have writable := writable_iff.mp ⟨rows, answered⟩
  obtain rfl : rowsOf outcome batch = rows :=
    Except.ok.inj ((rows_eq usable sound unit? writable).symm.trans answered)
  refine ⟨?_, fun others perm => ⟨rowsOf outcome others, ?_, perm.map _⟩, fun kind count => ?_⟩
  · exact tells_rowsOf writable fun entry member _ =>
      outcomeOf_failsOnly usable _ (writable entry member)
  · exact rows_eq usable sound unit? fun entry member => writable entry (perm.mem_iff.mpr member)
  · rw [mem_failureCounts, countP_rowsOf]

theorem rows_as_evaluated_mixed :
    let tasks : List Task := [.evaluate (some "2+2") none, .resize (.integer (-1))]
    let batch : Series := [(.text "a", .text "1/0"), (.text "1", .missing),
      (.integer 1, .real (0.0 / 0.0)), (.integer 1, .text "2+2"), (.missing, .integer (-3))]
    let rows : List Row := [⟨.text "a", "1/0", 0.0 / 0.0, some .divisionByZero⟩,
      ⟨.text "1", "", 0.0, none⟩, ⟨.integer 1, "", 0.0, none⟩, ⟨.integer 1, "2+2", 4.0, none⟩,
      ⟨.missing, "-3", -3.0, none⟩]
    let endless : Series := [(.integer 0, .text "1+1"), (.integer 1, .integer (10 ^ 4300))]
    let evaluator := after {} (Evaluator.new {} (some (.integer 2)) none) tasks
    let uncounted := after {} (Evaluator.new {} none none) [.resize .missing]
    Usable {} ∧ IsWhole (.integer 2) ∧ (∀ task ∈ tasks, SetsWhole task) ∧
      (evaluator.evaluateMany {} none batch).1 = .ok rows ∧
      (.divisionByZero, 1) ∈ Batch.failureCounts rows ∧
      (evaluator.evaluateMany {} none endless).1 = .error (.refused .tooManyDigits) ∧
      (uncounted.evaluateMany {} none (.numbered [.text "1+1"])).1 = .error .wrongType := by
  intro tasks batch rows endless evaluator uncounted
  have sets : ∀ task ∈ tasks, SetsWhole task := by
    simp [tasks, SetsWhole, IsWhole]
  have answers := @rows_as_evaluated {} (some (.integer 2)) none tasks usable_default ⟨2, rfl⟩ sets none
  have answered : (evaluator.evaluateMany {} none batch).1 = .ok rows := by decide +kernel
  obtain ⟨-, -, counted⟩ := (answers batch).2.2 rows answered
  have once : batch.countP (fun entry =>
      failsWith .divisionByZero (outcomeOf {} .degrees entry.2)) = 1 := by
    decide +kernel
  have long : ¬ AllWritable endless := by
    simp only [AllWritable]
    decide +kernel
  have lost : (evaluator.evaluateMany {} none endless).1 = .error (.refused .tooManyDigits) := by
    rw [(answers endless).2.1 long]
  exact ⟨usable_default, ⟨2, rfl⟩, sets, answered, (counted .divisionByZero 1).mpr ⟨by decide, once⟩,
    lost, by decide +kernel⟩

end Reckon.Proofs.BatchRows
