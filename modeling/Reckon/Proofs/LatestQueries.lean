import Mathlib.Data.List.Dedup
import Mathlib.Data.List.DropRight
import Reckon.Proofs.Transparency

/-! What an evaluator remembers follows from the history of requests alone. It is the latest
distinct queries among those that have a value, in the order of their last request, and a
request is a hit if its query is one of them. -/

namespace Reckon.Proofs.LatestQueries
open Evaluator Transparency

section Order

variable {κ ν : Type} {size : Nat}

private theorem rtake_of_length_le {entries : List ν} (few : entries.length ≤ size) :
    entries.rtake size = entries := by
  rw [List.rtake, Nat.sub_eq_zero_of_le few, List.drop_zero]

private theorem rtake_append (older : List ν) {recent : List ν} (many : size ≤ recent.length) :
    (older ++ recent).rtake size = recent.rtake size := by
  have place : older.length + recent.length - size = older.length + (recent.length - size) := by
    omega
  rw [List.rtake, List.rtake, List.length_append, place, List.drop_length_add_append]

private theorem length_rtake (entries : List ν) :
    (entries.rtake size).length = min size entries.length := by
  rw [List.rtake, List.length_drop]
  omega

private theorem keys_trim (size : Nat) (entries : List (κ × ν)) :
    (Recency.trim (min entries.length size) entries).map Prod.fst =
      (entries.map Prod.fst).rtake size := by
  have dropped : entries.length - min entries.length size = entries.length - size := by omega
  rw [Recency.trim, List.rtake, List.map_drop, List.length_map, dropped]

variable [DecidableEq κ] {keys : List κ} {key : κ}

private theorem keys_put (key : κ) (value : ν) (entries : List (κ × ν)) :
    (Recency.put key value entries).map Prod.fst =
      (entries.map Prod.fst).filter (· != key) ++ [key] := by
  rw [Recency.put, Recency.erase, List.map_append, List.filter_map]
  rfl

private theorem dedup_concat (keys : List κ) (key : κ) :
    (keys ++ [key]).dedup = keys.dedup.filter (· != key) ++ [key] := by
  induction keys with
  | nil => rfl
  | cons first rest ih =>
    rw [List.cons_append, List.dedup_cons, List.dedup_cons, ih]
    by_cases repeated : first ∈ rest
    · rw [if_pos repeated, if_pos (List.mem_append_left _ repeated)]
    · by_cases same : first = key
      · simp [same ▸ repeated, same]
      · simp [repeated, same]

/-- The last distinct keys of a row, each at the place where it stands last. -/
def latest (size : Nat) (keys : List κ) : List κ :=
  keys.dedup.rtake size

private theorem latest_nil : latest size ([] : List κ) = [] :=
  List.rtake_nil size

private theorem nodup_latest (size : Nat) (keys : List κ) : (latest size keys).Nodup :=
  (List.nodup_dedup keys).sublist (List.drop_sublist _ _)

/-- A key that comes last moves to the end, and what is then too much goes at the front. -/
theorem latest_concat (positive : 0 < size) (keys : List κ) (key : κ) :
    latest size (keys ++ [key]) =
      ((latest size keys).filter (· != key) ++ [key]).rtake size := by
  cases size with
  | zero => cases positive
  | succ rest =>
    rw [latest, dedup_concat, List.rtake_concat_succ, List.rtake_concat_succ]
    congr 1
    by_cases few : keys.dedup.length ≤ rest + 1
    · rw [latest, rtake_of_length_le few]
    · have parts : keys.dedup = keys.dedup.rdrop (rest + 1) ++ latest (rest + 1) keys :=
        (List.take_append_drop _ _).symm
      have many : rest ≤ ((latest (rest + 1) keys).filter (· != key)).length := by
        have most : (latest (rest + 1) keys).length - 1 ≤
            ((latest (rest + 1) keys).erase key).length := List.le_length_erase
        rw [← (nodup_latest (rest + 1) keys).erase_eq_filter]
        rw [latest, length_rtake] at most
        exact Nat.le_trans (by omega) most
      rw [parts, List.filter_append, rtake_append _ many]

/-- A key that is among the latest takes the place of none. -/
theorem latest_concat_of_mem (known : key ∈ latest size keys) :
    latest size (keys ++ [key]) = (latest size keys).filter (· != key) ++ [key] := by
  have bounded : (latest size keys).length ≤ size := by
    rw [latest, length_rtake]
    exact Nat.min_le_left ..
  have fewer : ((latest size keys).filter (· != key)).length + 1 = (latest size keys).length := by
    rw [← (nodup_latest size keys).erase_eq_filter, List.length_erase_add_one known]
  have fits : ((latest size keys).filter (· != key) ++ [key]).length ≤ size := by
    rw [List.length_append, List.length_singleton, fewer]
    exact bounded
  rw [latest_concat (by omega), rtake_of_length_le fits]

end Order

def hasValue (config : Config) (query : Query) : Bool :=
  (Reckon.evaluate config query.2 (some query.1)).isOk

def found (config : Config) (size : Nat) (requests : List Query) : Nat :=
  (List.range requests.length).countP fun place =>
    requests[place]?.any fun query =>
      decide (query ∈ latest size ((requests.take place).filter (hasValue config)))

private theorem found_concat (config : Config) (size : Nat) (requests : List Query) (query : Query) :
    found config size (requests ++ [query]) = found config size requests +
      if query ∈ latest size (requests.filter (hasValue config)) then 1 else 0 := by
  rw [found, List.length_append, List.length_singleton, List.range_succ, List.countP_append]
  congr 1
  · apply List.countP_congr
    intro place inside
    have before := List.mem_range.mp inside
    rw [List.getElem?_append_left before, List.take_append_of_le_length (Nat.le_of_lt before)]
  · simp [List.countP_singleton]

/-- The requests for some lines. They go on as long as the lines have a row. -/
def lineRequests (config : Config) (mode : AngleMode) : List (Datum × String) → List Query
  | [] => []
  | line :: rest =>
    (line.2, mode) :: match row config mode line with
      | .ok _ => lineRequests config mode rest
      | .error _ => []

def batchRequests (config : Config) (mode : AngleMode) (batch : Series) : List Query :=
  match batch.lines with
  | .ok lines => lineRequests config mode lines
  | .error _ => []

def requestsOf (config : Config) (mode : AngleMode) : Task → List Query
  | .evaluate text? mode? | .attempt text? mode? => [(text?.getD "", mode?.getD mode)]
  | .batch values mode? => batchRequests config (mode?.getD mode) values
  | .clear | .resize _ => []

/-- The requests that count after a task: those before the memory is cleared do not. -/
def extend (config : Config) (mode : AngleMode) (requests : List Query) (task : Task) :
    List Query :=
  if task = .clear then [] else requests ++ requestsOf config mode task

def sinceClear (config : Config) (mode : AngleMode) (tasks : List Task) : List Query :=
  tasks.foldl (extend config mode) []

structure Follows (config : Config) (size : Nat) (requests : List Query)
    (evaluator : Evaluator) : Prop where
  capacity : evaluator.capacity = .integer size
  keys : evaluator.remembered.map Prod.fst = latest size (requests.filter (hasValue config))
  hits : evaluator.hits = found config size requests
  total : evaluator.hits + evaluator.misses = requests.length

variable {config : Config} {mode : AngleMode} {size : Nat} {requests : List Query}
  {evaluator : Evaluator} {query : Query}

theorem Follows.nothing (capacity : evaluator.capacity = .integer size)
    (forgotten : evaluator.remembered = []) (hits : evaluator.hits = 0)
    (misses : evaluator.misses = 0) : Follows config size [] evaluator := by
  refine ⟨capacity, ?_, hits, ?_⟩
  · rw [forgotten, List.map_nil, List.filter_nil, latest_nil]
  · rw [hits, misses, List.length_nil]

theorem Follows.lookup_eq_none_iff (follows : Follows config size requests evaluator) :
    evaluator.remembered.lookup query = none ↔
      query ∉ latest size (requests.filter (hasValue config)) := by
  rw [← follows.keys, List.lookup_eq_none_iff, List.mem_map]
  constructor
  · intro other known
    obtain ⟨entry, inside, same⟩ := known
    exact bne_iff_ne.mp (other entry inside) same.symm
  · intro absent entry inside
    exact bne_iff_ne.mpr fun same => absent ⟨entry, inside, same.symm⟩

private theorem valued_concat (requests : List Query) (valued : hasValue config query = true) :
    (requests ++ [query]).filter (hasValue config) =
      requests.filter (hasValue config) ++ [query] := by
  rw [List.filter_append, List.filter_singleton, valued, cond_true]

theorem Follows.hit (follows : Follows config size requests evaluator)
    (known : query ∈ latest size (requests.filter (hasValue config)))
    (valued : hasValue config query = true) (value : Float) :
    Follows config size (requests ++ [query]) { evaluator with
      remembered := Recency.put query value evaluator.remembered
      hits := evaluator.hits + 1 } := by
  refine ⟨follows.capacity, ?_, ?_, ?_⟩
  · rw [keys_put, follows.keys, valued_concat requests valued, latest_concat_of_mem known]
  · rw [found_concat, if_pos known, follows.hits]
  · rw [List.length_append, List.length_singleton, ← follows.total]
    exact Nat.add_right_comm ..

/-- How the counters go on if a query is not among the latest. -/
theorem Follows.counted_miss (follows : Follows config size requests evaluator)
    (absent : query ∉ latest size (requests.filter (hasValue config))) :
    evaluator.hits = found config size (requests ++ [query]) ∧
      evaluator.hits + (evaluator.misses + 1) = (requests ++ [query]).length := by
  constructor
  · rw [found_concat, if_neg absent, follows.hits, Nat.add_zero]
  · rw [List.length_append, List.length_singleton, ← follows.total, Nat.add_assoc]

theorem Follows.miss (follows : Follows config size requests evaluator)
    (absent : query ∉ latest size (requests.filter (hasValue config)))
    (valueless : hasValue config query = false) :
    Follows config size (requests ++ [query])
      { evaluator with misses := evaluator.misses + 1 } := by
  obtain ⟨hits, total⟩ := follows.counted_miss absent
  refine ⟨follows.capacity, ?_, hits, total⟩
  rw [follows.keys, List.filter_append, List.filter_singleton, valueless, cond_false,
    List.append_nil]

/-- A value that had to be worked out is kept, unless there is no room at all. -/
theorem Follows.remember (follows : Follows config size requests evaluator)
    (absent : query ∉ latest size (requests.filter (hasValue config)))
    (valued : hasValue config query = true) (value : Float) {after : Evaluator}
    (kept : Evaluator.remember { evaluator with misses := evaluator.misses + 1 } query value =
      .ok after) :
    Follows config size (requests ++ [query]) after := by
  obtain ⟨hits, total⟩ := follows.counted_miss absent
  rw [Evaluator.remember, follows.capacity, Datum.below?_integer] at kept
  by_cases room : 0 < size
  · rw [decide_eq_true (Int.natCast_pos.mpr room)] at kept
    cases kept
    refine ⟨rfl, ?_, hits, total⟩
    rw [valued_concat requests valued, latest_concat room, ← follows.keys, ← keys_put query value]
    exact keys_trim size _
  · rw [decide_eq_false (by omega)] at kept
    cases kept
    refine ⟨rfl, ?_, hits, total⟩
    have empty : size = 0 := Nat.eq_zero_of_not_pos room
    rw [follows.keys, empty, latest, latest, List.rtake_zero, List.rtake_zero]

theorem Follows.evaluate (follows : Follows config size requests evaluator)
    (sound : Sound config mode evaluator) (text? : Option String) (mode? : Option AngleMode) :
    Follows config size (requests ++ [(text?.getD "", mode?.getD mode)])
      (evaluator.evaluate config text? mode?).2 := by
  have asked : evaluator.query text? mode? = (text?.getD "", mode?.getD mode) := by
    rw [Evaluator.query, sound.mode]
  simp only [Evaluator.evaluate, asked, ← evaluate_getD config (mode?.getD mode) text?]
  generalize text?.getD "" = text, mode?.getD mode = unit
  cases known : evaluator.remembered.lookup (text, unit) with
  | some value =>
    have recent : (text, unit) ∈ latest size (requests.filter (hasValue config)) := by
      by_contra absent
      rw [follows.lookup_eq_none_iff.mpr absent] at known
      cases known
    have valued : hasValue config (text, unit) = true := by
      rw [hasValue, sound.faithful text unit value (mem_of_lookup known)]
      rfl
    exact follows.hit recent valued value
  | none =>
    have absent := follows.lookup_eq_none_iff.mp known
    cases outcome : Reckon.evaluate config unit (some text) with
    | error failure =>
      have valueless : hasValue config (text, unit) = false := by
        rw [hasValue, outcome]
        rfl
      exact follows.miss absent valueless
    | ok value =>
      have valued : hasValue config (text, unit) = true := by
        rw [hasValue, outcome]
        rfl
      have missed : Sound config mode { evaluator with misses := evaluator.misses + 1 } :=
        ⟨sound.mode, sound.whole, sound.faithful⟩
      obtain ⟨after, kept, -⟩ := missed.remember outcome
      simp only [kept]
      exact follows.remember absent valued value kept

theorem tryEvaluate_snd (config : Config) (evaluator : Evaluator) (text? : Option String)
    (mode? : Option AngleMode) :
    (evaluator.tryEvaluate config text? mode?).2 = (evaluator.evaluate config text? mode?).2 := by
  unfold Evaluator.tryEvaluate
  split <;> simp only [*]

theorem Follows.tryEvaluate (follows : Follows config size requests evaluator)
    (sound : Sound config mode evaluator) (text? : Option String) (mode? : Option AngleMode) :
    Follows config size (requests ++ [(text?.getD "", mode?.getD mode)])
      (evaluator.tryEvaluate config text? mode?).2 := by
  rw [tryEvaluate_snd]
  exact follows.evaluate sound text? mode?

theorem Follows.evaluateLines (follows : Follows config size requests evaluator)
    (sound : Sound config mode evaluator) (mode? : Option AngleMode)
    (lines : List (Datum × String)) :
    Follows config size (requests ++ lineRequests config (mode?.getD mode) lines)
      (evaluator.evaluateLines config mode? lines).2 := by
  induction lines generalizing evaluator requests with
  | nil => rwa [lineRequests, List.append_nil]
  | cons line rest ih =>
    obtain ⟨label, text⟩ := line
    obtain ⟨same, later⟩ := sound.tryEvaluate (some text) mode?
    have followed := follows.tryEvaluate sound (some text) mode?
    rw [lineRequests, row, ← same, Evaluator.evaluateLines, List.append_cons]
    generalize evaluator.tryEvaluate config (some text) mode? = outcome at followed later
    obtain ⟨outcome, after⟩ := outcome
    cases outcome with
    | error failure =>
      rw [← List.append_nil (requests ++ _)] at followed
      exact followed
    | ok attempt => exact ih followed later

/-- A batch makes its requests one after another until a line has no row. -/
theorem Follows.evaluateMany (follows : Follows config size requests evaluator)
    (sound : Sound config mode evaluator) (mode? : Option AngleMode) (batch : Series) :
    Follows config size (requests ++ batchRequests config (mode?.getD mode) batch)
      (evaluator.evaluateMany config mode? batch).2 := by
  rw [Evaluator.evaluateMany, batchRequests]
  cases batch.lines with
  | error failure => rwa [List.append_nil]
  | ok lines => exact follows.evaluateLines sound mode? lines

theorem Follows.perform (follows : Follows config size requests evaluator)
    (sound : Sound config mode evaluator) {task : Task}
    (unresized : ∀ capacity, task ≠ .resize capacity) :
    Follows config size (extend config mode requests task) (evaluator.perform config task).2 := by
  cases task with
  | evaluate text? mode? => exact follows.evaluate sound text? mode?
  | attempt text? mode? => exact follows.tryEvaluate sound text? mode?
  | batch values mode? => exact follows.evaluateMany sound mode? values
  | clear => exact .nothing follows.capacity rfl rfl rfl
  | resize capacity => exact absurd rfl (unresized capacity)

private theorem setsWhole_of_unresized {task : Task} (unresized : ∀ capacity, task ≠ .resize capacity) :
    SetsWhole task := by
  cases task with
  | resize capacity => exact absurd rfl (unresized capacity)
  | _ => trivial

theorem Follows.run (follows : Follows config size requests evaluator)
    (sound : Sound config mode evaluator) {tasks : List Task}
    (unresized : ∀ capacity, .resize capacity ∉ tasks) {place : Nat}
    {step : Except Failure Answer × Evaluator}
    (reached : (evaluator.run config tasks)[place]? = some step) :
    Follows config size ((tasks.take (place + 1)).foldl (extend config mode) requests) step.2 := by
  induction tasks generalizing evaluator requests place with
  | nil => cases reached
  | cons task rest ih =>
    have fixed : ∀ capacity, task ≠ .resize capacity := by
      intro capacity same
      exact unresized capacity (same ▸ List.mem_cons_self)
    have followed := follows.perform sound fixed
    rw [List.take_succ_cons, List.foldl_cons]
    cases place with
    | zero =>
      cases reached
      exact followed
    | succ place =>
      have others : ∀ capacity, .resize capacity ∉ rest :=
        fun capacity inside => unresized capacity (List.mem_cons_of_mem _ inside)
      exact ih followed (sound.perform (setsWhole_of_unresized fixed)).2 others reached

/-- In every run in which the capacity stays the same, each answer is the one that evaluation
gives, and what is remembered after it are the latest distinct queries among the requests
since the last clearing that had a value, the least recent one first. As many requests
count as hits as found their query among these. -/
theorem remembers_latest {config : Config} {capacity? : Option Datum} {mode? : Option AngleMode}
    {size : Nat} {tasks : List Task} (bounded : capacity?.getD config.cacheSize = .integer size)
    (unresized : ∀ capacity, .resize capacity ∉ tasks) {place : Nat}
    {step : Except Failure Answer × Evaluator}
    (reached : ((Evaluator.new config capacity? mode?).run config tasks)[place]? = some step) :
    let mode := mode?.getD config.defaultMode
    let requests := sinceClear config mode (tasks.take (place + 1))
    tasks[place]?.map (plainAnswer config mode) = some step.1 ∧
      step.2.remembered.map Prod.fst = latest size (requests.filter (hasValue config)) ∧
      step.2.hits = found config size requests ∧
      step.2.hits + step.2.misses = requests.length := by
  intro mode requests
  have sound : Sound config mode (Evaluator.new config capacity? mode?) :=
    sound_new ⟨size, bounded⟩
  have sets : ∀ task ∈ tasks, SetsWhole task := by
    intro task inside
    apply setsWhole_of_unresized
    intro capacity same
    exact unresized capacity (same ▸ inside)
  have answers := congrArg (·[place]?) (sound.run sets).1
  simp only [List.getElem?_map, reached] at answers
  have initial : Follows config size [] (Evaluator.new config capacity? mode?) :=
    .nothing bounded rfl rfl rfl
  have follows := initial.run sound unresized reached
  exact ⟨answers.symm, follows.keys, follows.hits, follows.total⟩

theorem remembers_latest_mixed :
    let tasks : List Task := [.evaluate (some "9") none, .clear, .evaluate none none,
      .attempt (some "1/0") none, .batch [(.text "a", .text "1"), (.text "b", .text "("),
        (.integer 3, .text "1"), (.missing, .missing)] none,
      .evaluate (some "1") (some .radians), .evaluate (some "") none]
    let steps := (Evaluator.new {} (some (.integer 2)) none).run {} tasks
    (∀ capacity, .resize capacity ∉ tasks) ∧ ∃ step, steps[6]? = some step ∧
      step.2.remembered.map Prod.fst = [("1", .radians), ("", .degrees)] ∧
      step.2.hits = 3 ∧ step.2.misses = 5 := by
  intro tasks steps
  have unresized : ∀ capacity, .resize capacity ∉ tasks := by simp [tasks]
  have count : steps.length = 7 := length_run ..
  have reached : steps[6]? = some steps[6] := List.getElem?_eq_getElem (by omega)
  obtain ⟨-, keys, hits, total⟩ :=
    @remembers_latest {} (some (.integer 2)) none 2 tasks rfl unresized 6 _ reached
  have three : found {} 2 (sinceClear {} .degrees tasks) = 3 := by decide +kernel
  have eight : (sinceClear {} .degrees tasks).length = 8 := by decide +kernel
  refine ⟨unresized, _, reached, ?_, hits.trans three, ?_⟩
  · rw [keys]
    decide +kernel
  · have split := total.trans eight
    rw [hits.trans three] at split
    omega

end Reckon.Proofs.LatestQueries
