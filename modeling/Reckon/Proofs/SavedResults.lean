import Reckon.CommandLine.Program
import Reckon.Proofs.NumberCells
import Reckon.Proofs.WrittenFile
import Reckon.Proofs.WrittenTable

/-! The results of a batch, kept in a table and read again. The column of the expressions holds
what was evaluated, whatever stands in the cells beside it, and only blank ones are left out. -/

namespace Reckon.Proofs.SavedResults
open CommandLine ExpressionFile BatchRows WrittenFile WrittenTable Transparency ErrorContract
open LiteralReading NumberCells

section Column

private theorem align_of_rectangle {width : Nat} {rows : List (List String)}
    (same : ∀ row ∈ rows, row.length = width) : Columns.align width rows = .ok rows := by
  induction rows with
  | nil => rfl
  | cons row rows ih =>
    obtain ⟨own, same⟩ := List.forall_mem_cons.mp same
    have full : Columns.pad width row = row := by simp [Columns.pad, own]
    rw [Columns.align, if_neg (by omega), ih same, full]
    rfl

/-- In a table whose records are as long as the header no cell is moved. -/
theorem column_of_rectangle {header : List String} {rows : List (List String)} {wanted : String}
    {place : Nat} (same : ∀ row ∈ rows, row.length = header.length)
    (found : (Columns.names header).idxOf? wanted = some place) :
    Columns.column wanted (header :: rows) = .ok (rows.map fun row => row.getD place "") := by
  have width : Columns.rowWidth header rows = header.length := by
    cases rows with
    | nil => simp [Columns.rowWidth]
    | cons row rows => simp [Columns.rowWidth, same row List.mem_cons_self]
  have aligned := align_of_rectangle same
  simp only [Columns.column, width, aligned, found, bind, Except.bind, Nat.sub_self, Nat.zero_add]
  rfl

end Column

section Cells

private theorem noReturn_spells {whole fraction : List Char} (spells : Spells whole fraction) :
    '\r' ∉ whole ++ Decimal.fraction fraction := by
  intro member
  exact absurd (spells.chars _ member) (by decide)

private theorem noReturn_scientific (decimal : Decimal) : '\r' ∉ decimal.scientific := by
  obtain ⟨back, mark, literal⟩ := isLiteral_back (decimal.pointPlace - 1)
  have sign : (if decimal.pointPlace - 1 < 0 then BinaryOp.subtract else .add).symbol ≠ '\r' := by
    split <;> decide
  rw [Decimal.scientific, mark, List.mem_append, List.mem_cons, List.mem_cons]
  rintro (front | letter | sign' | power)
  · exact noReturn_spells (spells_front decimal) front
  · exact absurd letter (by decide)
  · exact sign sign'.symm
  · exact absurd (literal.chars _ power) (by decide)

/-- No number is put down with a return. -/
theorem noReturn_exact (x : Float) : '\r' ∉ exactText x := by
  have sign : '\r' ∉ signMark x := by
    unfold signMark
    split <;> decide
  have digits : '\r' ∉ (absolute x).positional := by
    obtain ⟨whole, fraction, written, spells, -⟩ := positional_spells (absolute x)
    rw [written]
    exact noReturn_spells spells
  have special : ∀ name, specialName? x = some name → '\r' ∉ name := by
    unfold specialName?
    split
    · rintro _ ⟨⟩; decide
    · split
      · split <;> rintro _ ⟨⟩ <;> decide
      · rintro _ ⟨⟩
  unfold exactText
  cases named : specialName? x with
  | some name => exact special name named
  | none =>
    apply List.not_mem_append sign
    split
    · split
      · exact List.not_mem_append digits (by decide)
      · exact digits
    · exact noReturn_scientific (absolute x)

private theorem keeps_rowCells {row : Row} (plain : '\r' ∉ row.expression.toList) :
    ∀ cell ∈ Batch.rowCells row, Keeps cell.toList := by
  have value : '\r' ∉ (if row.value.isNaN then "" else exact row.value).toList := by
    split
    · decide
    · rw [exact, String.toList_ofList]
      exact noReturn_exact row.value
  have error : '\r' ∉ ((row.error.map Kind.name).getD "").toList := by
    cases row.error with
    | none => decide
    | some kind => cases kind <;> decide
  intro cell member _
  simp only [Batch.rowCells, List.mem_cons, List.not_mem_nil, or_false] at member
  rcases member with rfl | rfl | rfl
  · exact plain
  · exact value
  · exact error

variable {rows : List Row} {path : String}

/-- A table of results has all its records, blank or not. -/
theorem records_resultTable (plain : ∀ row ∈ rows, '\r' ∉ row.expression.toList) :
    Csv.records (Batch.resultTable {} rows).toList =
      .ok (Batch.header {} :: rows.map Batch.rowCells) := by
  have keeps : ∀ record ∈ Batch.header {} :: rows.map Batch.rowCells,
      ∀ cell ∈ record, Keeps cell.toList := by
    rw [List.forall_mem_cons, List.forall_mem_map]
    refine ⟨?_, fun row member => keeps_rowCells (plain row member)⟩
    have header : ∀ cell ∈ Batch.header {}, '\r' ∉ cell.toList := by decide
    exact fun cell member _ => header cell member
  have noMark : ∀ char, (Batch.resultTable {} rows).toList.head? = some char →
      char.toNat ≠ 0xFEFF := by
    intro char first
    rw [Batch.resultTable, Csv.write, String.toList_ofList] at first
    have begins : some 'e' = some char := first
    cases begins
    decide
  have all : ∀ record ∈ Batch.header {} :: rows.map Batch.rowCells, shows record = true := by
    rw [List.forall_mem_cons, List.forall_mem_map]
    exact ⟨shows_of_two _ _ _, fun row _ => shows_of_two _ _ _⟩
  rw [Batch.resultTable, records_write keeps noMark, List.filter_eq_self.mpr all]

private theorem load_resultTable (plain : ∀ row ∈ rows, '\r' ∉ row.expression.toList)
    (table : isTable path = true) :
    load {} path none (Batch.resultTable {} rows) =
      .ok (.numbered (((rows.map Row.expression).filter fun expression =>
        !Text.allBlank expression).map .text)) := by
  have found : (Columns.names (Batch.header {})).idxOf? (columnName {} none) = some 0 := by decide
  have same : ∀ record ∈ rows.map Batch.rowCells, record.length = (Batch.header {}).length := by
    rw [List.forall_mem_map]
    exact fun _ _ => rfl
  have column := column_of_rectangle same found
  rw [List.map_map] at column
  rw [load, if_pos table, records_resultTable plain]
  simp only [bind, Except.bind, column]
  rfl

end Cells

section Files

/-- The tree when a run is over, with the files that it left behind. -/
def left (tree : Files.Tree) (run : Run) : Files.Tree :=
  run.files.foldl (fun tree file => put tree file.1 file.2) tree

/-- The settings ask for the results to be kept, in a table at the path. -/
structure Saves (settings : Settings) (path : String) : Prop where
  asked : settings.saveResults = true
  given : settings.outputPath = some path
  table : isTable path = true

variable {settings : Settings} {path : String} {world : World}

private theorem outputPath_of_saves (saves : Saves settings path) (config : Config) :
    Batch.outputPath config settings.outputPath = path := by
  have some : path ≠ "" := by
    rintro rfl
    exact absurd saves.table (by decide +kernel)
  simp [Batch.outputPath, saves.given, some]

/-- A run that succeeds leaves one file behind, at the place that the path leads to. -/
theorem exists_place (saves : Saves settings path) {config : Config} {rows : List Row}
    (done : (finishBatch config world settings rows).exit = .ok 0) :
    ∃ place, Files.target world.tree (Files.fromHome world.home path) = .ok place ∧
      finishBatch config world settings rows =
        { exit := .ok 0, files := [(place, Batch.resultTable config rows)] } := by
  rw [finishBatch, if_pos saves.asked, outputPath_of_saves saves] at done ⊢
  cases found : Files.target world.tree (Files.fromHome world.home path) with
  | error failure =>
    simp only [found] at done
    cases done
  | ok place => exact ⟨place, rfl, by simp only [found]⟩

/-- Where the results were kept they are found again. -/
theorem read_left (saves : Saves settings path) {config : Config} {rows : List Row}
    (done : (finishBatch config world settings rows).exit = .ok 0) :
    Files.read (left world.tree (finishBatch config world settings rows))
      (sourcePath world.home path) = .ok (Batch.resultTable config rows) := by
  obtain ⟨place, found, same⟩ := exists_place saves done
  rw [same, sourcePath, if_pos saves.table]
  exact read_put found (Batch.resultTable config rows)

end Files

def seriesOf (batch : List (Datum × String)) : Series :=
  batch.map fun entry => (entry.1, .text entry.2)

private theorem expressions_rowsOf (outcome : Datum → Except Failure Float) (batch : List (Datum × String)) :
    (rowsOf outcome (seriesOf batch)).map Row.expression = batch.map Prod.snd := by
  rw [rowsOf, seriesOf, List.map_map, List.map_map]
  refine List.map_congr_left fun entry _ => ?_
  rw [Function.comp_apply, Function.comp_apply]
  cases outcome (.text entry.2) <;> rfl

private theorem allWritable_seriesOf (batch : List (Datum × String)) : AllWritable (seriesOf batch) :=
  List.forall_mem_map.mpr fun _ _ => trivial

/-- Results that were kept in a table load back: whatever the evaluator did before, the file holds
the expressions of the batch in their order, numbered from zero, those that are blank left out. -/
theorem expressions_load_back {capacity? : Option Datum} {mode? : Option AngleMode}
    {tasks : List Evaluator.Task} (whole : IsWhole (capacity?.getD ({} : Config).cacheSize))
    (sets : ∀ task ∈ tasks, SetsWhole task) (unit? : Option AngleMode) {settings : Settings}
    {path : String} (saves : Saves settings path) {batch : List (Datum × String)}
    (plain : ∀ entry ∈ batch, '\r' ∉ entry.2.toList) :
    let evaluator := after {} (Evaluator.new {} capacity? mode?) tasks
    ∃ rows, (evaluator.evaluateMany {} unit? (seriesOf batch)).1 = .ok rows ∧
      ∀ world, (finishBatch {} world settings rows).exit = .ok 0 →
        (Files.read (left world.tree (finishBatch {} world settings rows))
            (sourcePath world.home path) >>= load {} path none) =
          .ok (((batch.map Prod.snd).filter fun expression => !Text.allBlank expression).mapIdx
            fun place expression => (.integer place, .text expression)) := by
  intro evaluator
  let mode := mode?.getD ({} : Config).defaultMode
  have sound : Sound {} mode evaluator := sound_after (sound_new whole) sets
  refine ⟨_, rows_eq usable_default sound unit? (allWritable_seriesOf batch), ?_⟩
  intro world done
  have known := expressions_rowsOf (outcomeOf {} (unit?.getD mode)) batch
  have plain' : ∀ row ∈ rowsOf (outcomeOf {} (unit?.getD mode)) (seriesOf batch),
      '\r' ∉ row.expression.toList := by
    intro row member
    have listed : row.expression ∈ batch.map Prod.snd := known ▸ List.mem_map_of_mem member
    obtain ⟨entry, inside, same⟩ := List.mem_map.mp listed
    exact same ▸ plain entry inside
  rw [read_left saves done, ← known, ← Series.numbered_map_text]
  exact load_resultTable plain' saves.table

theorem expressions_load_back_quoted :
    let tasks : List Evaluator.Task := [.evaluate (some "2+2") none, .resize (.integer 1)]
    let batch : List (Datum × String) := [(.text "a", "1,\"2\"\n3"), (.integer 7, ""),
      (.text "c", " 1+1"), (.text "c", "1/0"), (.missing, "\t ")]
    let evaluator := after {} (Evaluator.new {} (some (.integer 2)) none) tasks
    let settings : Settings := { saveResults := true, outputPath := some "a.csv" }
    let tree : Files.Tree := fun place => if place = [] then some .directory else none
    let world : World := ⟨tree, Files.root, [], []⟩
    IsWhole (.integer 2) ∧ (∀ task ∈ tasks, SetsWhole task) ∧ Saves settings "a.csv" ∧
      (∀ entry ∈ batch, '\r' ∉ entry.2.toList) ∧
      ∃ rows, (evaluator.evaluateMany {} (some .radians) (seriesOf batch)).1 = .ok rows ∧
        (finishBatch {} world settings rows).exit = .ok 0 ∧
        (Files.read (left tree (finishBatch {} world settings rows))
            (sourcePath Files.root "a.csv") >>= load {} "a.csv" none) =
          .ok [(.integer 0, .text "1,\"2\"\n3"), (.integer 1, .text " 1+1"),
            (.integer 2, .text "1/0")] := by
  intro tasks batch evaluator settings tree world
  have sets : ∀ task ∈ tasks, SetsWhole task := by
    simp [tasks, SetsWhole, IsWhole]
  have saves : Saves settings "a.csv" := ⟨rfl, rfl, by decide +kernel⟩
  have plain : ∀ entry ∈ batch, '\r' ∉ entry.2.toList := by decide
  have found : Files.target tree "a.csv" = .ok ["a.csv"] := by
    have alone : Files.names "a.csv" = ["a.csv"] := names_of_single (by decide) (by decide)
    have relative : Files.isAbsolute "a.csv" = false := by decide
    have noSlash : "a.csv".endsWith "/" = false := by decide +kernel
    simp only [Files.target, Files.hasParent, alone, relative, noSlash]
    rfl
  obtain ⟨rows, answered, loads⟩ := @expressions_load_back (some (.integer 2)) none tasks
    ⟨2, rfl⟩ sets (some .radians) settings "a.csv" saves batch plain
  have done : (finishBatch {} world settings rows).exit = .ok 0 := by
    have home : Files.fromHome world.home "a.csv" = "a.csv" := by decide +kernel
    rw [finishBatch, if_pos saves.asked, outputPath_of_saves saves, home]
    simp only [world, found]
  exact ⟨⟨2, rfl⟩, sets, saves, plain, rows, answered, done, loads world done⟩

end Reckon.Proofs.SavedResults
