import Reckon.Proofs.BatchRows
import Reckon.Proofs.EvaluatorEffects

/-! The accounts of an evaluator. Its counters add up to the requests since the memory was last
cleared, what it remembers was missed once, and there is never more of it than some capacity
in force since then had room for. -/

namespace Reckon.Proofs.MemoryAccounts
open Evaluator BatchRows EvaluatorEffects ErrorContract LatestQueries Transparency

/-- The capacities since the memory was last cleared, the one in force now in front. -/
def govern (capacities : List Datum) : Task → List Datum
  | .clear => capacities.take 1
  | .resize capacity => capacity :: capacities
  | .evaluate .. | .attempt .. | .batch .. => capacities

def inForce (capacity : Datum) (tasks : List Task) : List Datum :=
  tasks.foldl govern [capacity]

/-- One of the capacities has room for so many entries. None has less room than for no entry. -/
def Admits (capacities : List Datum) (count : Nat) : Prop :=
  ∃ size : Int, .integer size ∈ capacities ∧ count ≤ max 0 size

structure Accounts (total : Nat) (capacities : List Datum) (evaluator : Evaluator) : Prop where
  total : evaluator.hits + evaluator.misses = total
  distinct : (evaluator.remembered.map Prod.fst).Nodup
  missed : evaluator.remembered.length ≤ evaluator.misses
  admitted : Admits capacities evaluator.remembered.length
  current : capacities.head? = some evaluator.capacity

variable {config : Config} {mode : AngleMode} {total : Nat} {capacities : List Datum}
  {evaluator : Evaluator} {size : Int} {text? : Option String} {mode? : Option AngleMode}

theorem Admits.fewer {count fewer : Nat} (admits : Admits capacities count) (le : fewer ≤ count) :
    Admits capacities fewer := by
  obtain ⟨size, known, room⟩ := admits
  exact ⟨size, known, Int.le_trans (Int.ofNat_le.mpr le) room⟩

theorem Accounts.cleared (accounts : Accounts total capacities evaluator)
    (whole : evaluator.capacity = .integer size) :
    Accounts 0 (capacities.take 1) evaluator.clear := by
  have known : capacities.take 1 = [evaluator.capacity] := by
    obtain ⟨others, parts⟩ := List.head?_eq_some_iff.mp accounts.current
    rw [parts, List.take_succ_cons, List.take_zero]
  refine ⟨rfl, List.nodup_nil, Nat.le_refl 0, ⟨size, ?_, Int.le_max_left ..⟩, ?_⟩
  · rw [known, whole]
    exact List.mem_singleton_self _
  · rw [known]
    rfl

theorem Accounts.resized (accounts : Accounts total capacities evaluator) (capacity : Datum) :
    Accounts total (capacity :: capacities) (evaluator.resize capacity) := by
  obtain ⟨counted, distinct, missed, ⟨size, known, room⟩, -⟩ := accounts
  exact ⟨counted, distinct, missed, ⟨size, List.mem_cons_of_mem _ known, room⟩, rfl⟩

/-- Each of the ways in which a request goes keeps the accounts, with one request more. -/
theorem Accounts.request {outcome : Except Failure Float} {later : Evaluator}
    (accounts : Accounts total capacities evaluator) (whole : evaluator.capacity = .integer size)
    (effect : Effect config evaluator size text? mode? (outcome, later)) :
    Accounts (total + 1) capacities later := by
  obtain ⟨counted, distinct, missed, admitted, current⟩ := accounts
  cases effect with
  | @hit value found =>
    have shorter := length_put_of_mem (mem_of_lookup found) value
    refine ⟨?_, Recency.keys_nodup_put distinct, Nat.le_trans shorter missed,
      admitted.fewer shorter, current⟩
    rw [Nat.add_right_comm, counted]
  | failed | passed =>
    refine ⟨?_, distinct, Nat.le_succ_of_le missed, admitted, current⟩
    rw [← Nat.add_assoc, counted]
  | kept room gives =>
    have longer := Nat.le_trans gives.suffix.length_le (length_put_le _ _ _)
    refine ⟨?_, ?_, Nat.le_trans longer (Nat.succ_le_succ missed), ⟨size, ?_, ?_⟩, current⟩
    · rw [← Nat.add_assoc, counted]
    · exact (Recency.keys_nodup_put distinct).sublist (gives.suffix.sublist.map _)
    · exact whole ▸ List.mem_of_head? current
    · exact Int.le_trans gives.length_le (Int.le_max_right ..)

theorem Accounts.evaluate (accounts : Accounts total capacities evaluator)
    (sound : Sound config mode evaluator) (text? : Option String) (mode? : Option AngleMode) :
    Accounts (total + 1) capacities (evaluator.evaluate config text? mode?).2 := by
  obtain ⟨size, whole⟩ := sound.whole
  exact accounts.request whole (evaluate_effect whole config text? mode?)

theorem Accounts.tryEvaluate (accounts : Accounts total capacities evaluator)
    (sound : Sound config mode evaluator) (text? : Option String) (mode? : Option AngleMode) :
    Accounts (total + 1) capacities (evaluator.tryEvaluate config text? mode?).2 := by
  rw [tryEvaluate_snd]
  exact accounts.evaluate sound text? mode?

theorem Accounts.evaluateLines (accounts : Accounts total capacities evaluator)
    (sound : Sound config mode evaluator) (mode? : Option AngleMode)
    (lines : List (Datum × String)) :
    Accounts (total + (lineRequests config (mode?.getD mode) lines).length) capacities
      (evaluator.evaluateLines config mode? lines).2 := by
  induction lines generalizing evaluator total with
  | nil => exact accounts
  | cons line rest ih =>
    obtain ⟨label, text⟩ := line
    obtain ⟨same, later⟩ := sound.tryEvaluate (some text) mode?
    have counted := accounts.tryEvaluate sound (some text) mode?
    rw [lineRequests, row, ← same, Evaluator.evaluateLines, List.length_cons, Nat.add_comm _ 1,
      ← Nat.add_assoc]
    generalize evaluator.tryEvaluate config (some text) mode? = outcome at counted later
    obtain ⟨outcome, after⟩ := outcome
    cases outcome with
    | error failure => exact counted
    | ok attempt => exact ih counted later

theorem Accounts.evaluateMany (accounts : Accounts total capacities evaluator)
    (sound : Sound config mode evaluator) (mode? : Option AngleMode) (batch : Series) :
    Accounts (total + (batchRequests config (mode?.getD mode) batch).length) capacities
      (evaluator.evaluateMany config mode? batch).2 := by
  rw [Evaluator.evaluateMany, batchRequests]
  cases batch.lines with
  | error failure => exact accounts
  | ok lines => exact accounts.evaluateLines sound mode? lines

theorem Accounts.perform {requests : List Query}
    (accounts : Accounts requests.length capacities evaluator)
    (sound : Sound config mode evaluator) (task : Task) :
    Accounts (extend config mode requests task).length (govern capacities task)
      (evaluator.perform config task).2 := by
  by_cases cleared : task = .clear
  · subst cleared
    obtain ⟨size, whole⟩ := sound.whole
    exact accounts.cleared whole
  · rw [extend, if_neg cleared, List.length_append]
    cases task with
    | evaluate text? mode? => exact accounts.evaluate sound text? mode?
    | attempt text? mode? => exact accounts.tryEvaluate sound text? mode?
    | batch values mode? => exact accounts.evaluateMany sound mode? values
    | clear => exact absurd rfl cleared
    | resize capacity => exact accounts.resized capacity

theorem Accounts.after {requests : List Query}
    (accounts : Accounts requests.length capacities evaluator)
    (sound : Sound config mode evaluator) {tasks : List Task}
    (sets : ∀ task ∈ tasks, SetsWhole task) :
    Accounts (tasks.foldl (extend config mode) requests).length (tasks.foldl govern capacities)
      (BatchRows.after config evaluator tasks) := by
  induction tasks generalizing evaluator requests capacities with
  | nil => exact accounts
  | cons task rest ih =>
    rw [List.forall_mem_cons] at sets
    exact ih (accounts.perform sound task) (sound.perform sets.1).2 sets.2

/-- Where all settings can be used, no line ends a batch: each of them is a request. -/
theorem requestsOf_batch (usable : Usable config) (mode : AngleMode) (unit? : Option AngleMode)
    {batch : Series} {lines : List (Datum × String)} (written : batch.lines = .ok lines) :
    requestsOf config mode (.batch batch unit?) =
      lines.map fun line => (line.2, unit?.getD mode) := by
  rw [requestsOf, batchRequests, written]
  clear written
  dsimp only
  induction lines with
  | nil => rfl
  | cons line rest ih => rw [lineRequests, row_eq usable, List.map_cons, ih]

/-- At any time the counters add up to the requests since the memory was last cleared, and each
line of a batch is one of them. No query is remembered twice, as many were missed as are
remembered, and some capacity since the clearing had room for them. Whatever asks the evaluator
for something, its memory does not fail: nothing is given up where nothing is. -/
theorem requests_accounted {config : Config} {capacity? : Option Datum} {mode? : Option AngleMode}
    {tasks : List Task} (whole : IsWhole (capacity?.getD config.cacheSize))
    (sets : ∀ task ∈ tasks, SetsWhole task) :
    let mode := mode?.getD config.defaultMode
    let evaluator := after config (Evaluator.new config capacity? mode?) tasks
    (evaluator.hits + evaluator.misses = (sinceClear config mode tasks).length ∧
      (Usable config → ∀ batch lines unit?, batch.lines = .ok lines →
        requestsOf config mode (.batch batch unit?) =
          lines.map fun line => (line.2, unit?.getD mode))) ∧
      (evaluator.remembered.map Prod.fst).Nodup ∧
      evaluator.remembered.length ≤ evaluator.misses ∧
      Admits (inForce (capacity?.getD config.cacheSize) tasks) evaluator.remembered.length ∧
      ∀ task found text? unit?, Asks config evaluator task found text? unit? →
        ∃ size : Int, found.capacity = .integer size ∧
          Effect config found size text? unit? (found.evaluate config text? unit?) := by
  intro mode evaluator
  have fresh : Sound config mode (Evaluator.new config capacity? mode?) := sound_new whole
  obtain ⟨first, start⟩ := whole
  have opened : Accounts ([] : List Query).length [capacity?.getD config.cacheSize]
      (Evaluator.new config capacity? mode?) :=
    ⟨rfl, List.nodup_nil, Nat.le_refl 0,
      ⟨first, start ▸ List.mem_singleton_self _, Int.le_max_left ..⟩, rfl⟩
  have accounts := opened.after fresh sets
  refine ⟨⟨accounts.total, fun usable _ _ unit? => requestsOf_batch usable mode unit?⟩,
    accounts.distinct, accounts.missed, accounts.admitted, ?_⟩
  intro task found text? unit? asks
  obtain ⟨size, known⟩ := (sound_after fresh sets).whole
  have capacity := (capacity_of_asks asks).trans known
  exact ⟨size, capacity, evaluate_effect capacity config text? unit?⟩

theorem requests_accounted_resized :
    let tasks : List Task := [.evaluate (some "9") none, .clear,
      .batch [(.text "a", .text "1"), (.text "b", .text "2"), (.text "c", .text "1/0"),
        (.text "d", .text "1")] none, .resize (.integer (-1)),
      .evaluate (some "3") none, .resize (.integer 1), .attempt none (some .radians)]
    let evaluator := after {} (Evaluator.new {} (some (.integer 2)) none) tasks
    IsWhole (.integer 2) ∧ (∀ task ∈ tasks, SetsWhole task) ∧
      evaluator.hits + evaluator.misses = 6 ∧
      Admits [.integer 1, .integer (-1), .integer 2] evaluator.remembered.length := by
  intro tasks evaluator
  have sets : ∀ task ∈ tasks, SetsWhole task := by
    simp [tasks, SetsWhole, IsWhole]
  obtain ⟨⟨counted, -⟩, -, -, admitted, -⟩ :=
    @requests_accounted {} (some (.integer 2)) none tasks ⟨2, rfl⟩ sets
  have six : (sinceClear {} .degrees tasks).length = 6 := by decide +kernel
  exact ⟨⟨2, rfl⟩, sets, counted.trans six, admitted⟩

end Reckon.Proofs.MemoryAccounts
