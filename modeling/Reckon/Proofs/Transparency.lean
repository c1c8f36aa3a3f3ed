import Reckon.Evaluator.Task

/-! Remembering changes no answer. Whatever was asked before, what is kept is what the
evaluation would answer again, so it does not matter whether it is looked up or worked out. -/

namespace Reckon.Proofs.Transparency
open Evaluator

/-- No expression and the empty one have one entry, and one value. -/
theorem evaluate_getD (config : Config) (mode : AngleMode) (text? : Option String) :
    Reckon.evaluate config mode (some (text?.getD "")) = Reckon.evaluate config mode text? := by
  cases text? with
  | none =>
    have zero : enteredText (some "") = enteredText none := rfl
    simp only [Reckon.evaluate, Option.getD_none, zero]
  | some text => rfl

def Faithful (config : Config) (entries : List (Query × Float)) : Prop :=
  ∀ text mode value, ((text, mode), value) ∈ entries →
    Reckon.evaluate config mode (some text) = .ok value

/-- A capacity that is a whole number, negative ones included. -/
def IsWhole (capacity : Datum) : Prop :=
  ∃ size : Int, capacity = .integer size

variable {config : Config} {entries : List (Query × Float)} {text : String} {mode unit : AngleMode}
  {value : Float} {evaluator : Evaluator}

theorem Faithful.trim (faithful : Faithful config entries) (size : Nat) :
    Faithful config (Recency.trim size entries) :=
  fun text mode value kept => faithful text mode value (List.mem_of_mem_drop kept)

theorem Faithful.put (faithful : Faithful config entries)
    (evaluated : Reckon.evaluate config mode (some text) = .ok value) :
    Faithful config (Recency.put (text, mode) value entries) := by
  intro other unit result member
  rcases List.mem_append.mp member with older | last
  · exact faithful other unit result (List.mem_filter.mp older).1
  · cases List.mem_singleton.mp last
    exact evaluated

theorem mem_of_lookup {query : Query} (found : entries.lookup query = some value) :
    (query, value) ∈ entries := by
  obtain ⟨older, later, rfl, -⟩ := List.lookup_eq_some_iff.mp found
  simp

/-- A query whose evaluation fails is not among what is kept. -/
theorem Faithful.lookup_eq_none {failure : Failure} (faithful : Faithful config entries)
    (failed : Reckon.evaluate config mode (some text) = .error failure) :
    entries.lookup (text, mode) = none := by
  cases found : entries.lookup (text, mode) with
  | none => rfl
  | some value =>
    have evaluated := faithful text mode value (mem_of_lookup found)
    rw [failed] at evaluated
    cases evaluated

/-- What holds of an evaluator at any time: nothing that was done before shows. -/
structure Sound (config : Config) (mode : AngleMode) (evaluator : Evaluator) : Prop where
  mode : evaluator.mode = mode
  whole : IsWhole evaluator.capacity
  faithful : Faithful config evaluator.remembered

theorem sound_new {config : Config} {capacity? : Option Datum} {mode? : Option AngleMode}
    (whole : IsWhole (capacity?.getD config.cacheSize)) :
    Sound config (mode?.getD config.defaultMode) (Evaluator.new config capacity? mode?) :=
  ⟨rfl, whole, nofun⟩

/-- A whole number can be compared, so that keeping a value never fails. -/
theorem Sound.remember (sound : Sound config mode evaluator)
    (evaluated : Reckon.evaluate config unit (some text) = .ok value) :
    ∃ after, evaluator.remember (text, unit) value = .ok after ∧ Sound config mode after := by
  obtain ⟨size, whole⟩ := sound.whole
  rw [Evaluator.remember, whole, Datum.below?_integer]
  by_cases some : 0 < size
  · rw [decide_eq_true some]
    exact ⟨_, rfl, sound.mode, ⟨size, rfl⟩, (sound.faithful.put evaluated).trim _⟩
  · rw [decide_eq_false some]
    exact ⟨_, rfl, sound⟩

/-- One question is answered as the evaluation alone answers it. -/
theorem Sound.evaluate (sound : Sound config mode evaluator) (text? : Option String)
    (mode? : Option AngleMode) :
    (evaluator.evaluate config text? mode?).1 = Reckon.evaluate config (mode?.getD mode) text? ∧
      Sound config mode (evaluator.evaluate config text? mode?).2 := by
  have same := evaluate_getD config (mode?.getD mode) text?
  have known : evaluator.query text? mode? = (text?.getD "", mode?.getD mode) := by
    rw [Evaluator.query, sound.mode]
  have missed : Sound config mode { evaluator with misses := evaluator.misses + 1 } :=
    ⟨sound.mode, sound.whole, sound.faithful⟩
  simp only [Evaluator.evaluate, known]
  cases found : evaluator.remembered.lookup (text?.getD "", mode?.getD mode) with
  | some value =>
    have evaluated := sound.faithful _ _ value (mem_of_lookup found)
    rw [← same, evaluated]
    exact ⟨rfl, sound.mode, sound.whole, sound.faithful.put evaluated⟩
  | none =>
    cases outcome : Reckon.evaluate config (mode?.getD mode) text? with
    | error failure => exact ⟨rfl, missed⟩
    | ok value =>
      obtain ⟨after, kept, later⟩ := missed.remember (same.trans outcome)
      simp only [kept]
      exact ⟨trivial, later⟩

/-- Where the unit is given, the one that the evaluator would take does not matter. -/
theorem Sound.evaluate_in (sound : Sound config mode evaluator) (text? : Option String)
    (unit : AngleMode) :
    (evaluator.evaluate config text? (some unit)).1 = Reckon.evaluate config unit text? :=
  (sound.evaluate text? (some unit)).1

def attempt (outcome : Except Failure Float) : Except Failure (Float × Option Kind) :=
  match outcome with
  | .ok value => .ok (value, none)
  | .error (.evaluation cause _) => .ok (0.0 / 0.0, some cause.kind)
  | .error failure => .error failure

theorem Sound.tryEvaluate (sound : Sound config mode evaluator) (text? : Option String)
    (mode? : Option AngleMode) :
    (evaluator.tryEvaluate config text? mode?).1 =
        attempt (Reckon.evaluate config (mode?.getD mode) text?) ∧
      Sound config mode (evaluator.tryEvaluate config text? mode?).2 := by
  obtain ⟨same, after⟩ := sound.evaluate text? mode?
  unfold Evaluator.tryEvaluate
  rw [← same]
  generalize evaluator.evaluate config text? mode? = outcome at after
  obtain ⟨outcome, later⟩ := outcome
  cases outcome with
  | ok value => exact ⟨rfl, after⟩
  | error failure => cases failure <;> exact ⟨rfl, after⟩

def row (config : Config) (mode : AngleMode) (entry : Datum × String) : Except Failure Row :=
  (fun attempt => ⟨entry.1, entry.2, attempt.1, attempt.2⟩) <$>
    attempt (Reckon.evaluate config mode (some entry.2))

theorem Sound.evaluateLines (sound : Sound config mode evaluator) (mode? : Option AngleMode)
    (lines : List (Datum × String)) :
    (evaluator.evaluateLines config mode? lines).1 = lines.mapM (row config (mode?.getD mode)) ∧
      Sound config mode (evaluator.evaluateLines config mode? lines).2 := by
  induction lines generalizing evaluator with
  | nil => exact ⟨rfl, sound⟩
  | cons line rest ih =>
    obtain ⟨label, text⟩ := line
    obtain ⟨same, after⟩ := sound.tryEvaluate (some text) mode?
    rw [List.mapM_cons, Evaluator.evaluateLines, row, ← same]
    generalize evaluator.tryEvaluate config (some text) mode? = outcome at after
    obtain ⟨outcome, later⟩ := outcome
    cases outcome with
    | error failure => exact ⟨rfl, after⟩
    | ok attempt =>
      obtain ⟨same, last⟩ := ih after
      refine ⟨?_, last⟩
      simp only [same]
      rfl

def plainRows (config : Config) (mode : AngleMode) (batch : Series) : Except Failure (List Row) :=
  batch.lines >>= fun lines => lines.mapM (row config mode)

theorem Sound.evaluateMany (sound : Sound config mode evaluator) (mode? : Option AngleMode)
    (batch : Series) :
    (evaluator.evaluateMany config mode? batch).1 = plainRows config (mode?.getD mode) batch ∧
      Sound config mode (evaluator.evaluateMany config mode? batch).2 := by
  rw [Evaluator.evaluateMany, plainRows]
  cases batch.lines with
  | error failure => exact ⟨rfl, sound⟩
  | ok lines => exact sound.evaluateLines mode? lines

def plainAnswer (config : Config) (mode : AngleMode) : Task → Except Failure Answer
  | .evaluate text? mode? => .number <$> Reckon.evaluate config (mode?.getD mode) text?
  | .attempt text? mode? =>
    (fun attempt => .attempted attempt.1 attempt.2) <$>
      attempt (Reckon.evaluate config (mode?.getD mode) text?)
  | .batch values mode? => .rows <$> plainRows config (mode?.getD mode) values
  | .clear | .resize _ => .ok .nothing

def SetsWhole : Task → Prop
  | .resize capacity => IsWhole capacity
  | _ => True

theorem Sound.perform (sound : Sound config mode evaluator) {task : Task} (sets : SetsWhole task) :
    (evaluator.perform config task).1 = plainAnswer config mode task ∧
      Sound config mode (evaluator.perform config task).2 := by
  cases task with
  | evaluate text? mode? =>
    obtain ⟨same, after⟩ := sound.evaluate text? mode?
    rw [plainAnswer, ← same]
    exact ⟨rfl, after⟩
  | attempt text? mode? =>
    obtain ⟨same, after⟩ := sound.tryEvaluate text? mode?
    rw [plainAnswer, ← same]
    exact ⟨rfl, after⟩
  | batch values mode? =>
    obtain ⟨same, after⟩ := sound.evaluateMany mode? values
    rw [plainAnswer, ← same]
    exact ⟨rfl, after⟩
  | clear => exact ⟨rfl, sound.mode, sound.whole, nofun⟩
  | resize capacity => exact ⟨rfl, sound.mode, sets, sound.faithful⟩

theorem Sound.run (sound : Sound config mode evaluator) {tasks : List Task}
    (sets : ∀ task ∈ tasks, SetsWhole task) :
    (evaluator.run config tasks).map Prod.fst = tasks.map (plainAnswer config mode) ∧
      ∀ step ∈ evaluator.run config tasks, Sound config mode step.2 := by
  induction tasks generalizing evaluator with
  | nil => exact ⟨rfl, List.forall_mem_nil _⟩
  | cons task rest ih =>
    rw [List.forall_mem_cons] at sets
    obtain ⟨same, after⟩ := sound.perform sets.1
    obtain ⟨others, later⟩ := ih after sets.2
    simp only [Evaluator.run, List.map_cons, same, others, List.forall_mem_cons]
    exact ⟨trivial, after, later⟩

/-- In every run each answer is the one that is given where nothing is remembered. At any
time each entry is the value of its query, and no query that fails has one. -/
theorem answers_as_evaluated {config : Config} {capacity? : Option Datum} {mode? : Option AngleMode}
    {tasks : List Task} (whole : IsWhole (capacity?.getD config.cacheSize))
    (sets : ∀ task ∈ tasks, SetsWhole task) :
    ((Evaluator.new config capacity? mode?).run config tasks).map Prod.fst =
        tasks.map (plainAnswer config (mode?.getD config.defaultMode)) ∧
      ∀ step ∈ (Evaluator.new config capacity? mode?).run config tasks,
        Faithful config step.2.remembered ∧
          ∀ text mode failure, Reckon.evaluate config mode (some text) = .error failure →
            step.2.remembered.lookup (text, mode) = none := by
  obtain ⟨same, later⟩ := (sound_new whole).run sets
  exact ⟨same, fun step member =>
    ⟨(later step member).faithful, fun _ _ _ => (later step member).faithful.lookup_eq_none⟩⟩

theorem answers_as_evaluated_resized :
    let tasks : List Task := [.evaluate (some "2+2") none, .attempt (some "1/0") none,
      .resize (.integer (-1)), .evaluate none (some .radians), .clear, .evaluate (some "2+2") none]
    IsWhole (.integer 1) ∧ (∀ task ∈ tasks, SetsWhole task) ∧
      ((Evaluator.new {} (some (.integer 1)) none).run {} tasks).map Prod.fst =
        tasks.map (plainAnswer {} .degrees) := by
  intro tasks
  have sets : ∀ task ∈ tasks, SetsWhole task := by
    simp [tasks, SetsWhole, IsWhole]
  exact ⟨⟨1, rfl⟩, sets, (@answers_as_evaluated {} (some (.integer 1)) none tasks ⟨1, rfl⟩ sets).1⟩

end Reckon.Proofs.Transparency
