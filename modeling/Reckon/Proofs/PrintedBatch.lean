import Reckon.CommandLine.Program
import Reckon.Proofs.BatchRows
import Reckon.Proofs.WrittenFile

/-! What a batch prints. The lines of a text file are told by their endings, and each expression
among them is shown as it is when it is asked for alone. -/

namespace Reckon.Proofs.PrintedBatch
open CommandLine ErrorContract ExpressionFile Transparency BatchRows

section Lines

def Plain (line : List Char) : Prop :=
  ∀ char ∈ line, char ≠ '\n' ∧ char ≠ '\r'

inductive Breaks : List Char → List Char → Prop
  | feed (rest : List Char) : Breaks ['\n'] rest
  | both (rest : List Char) : Breaks ['\r', '\n'] rest
  | lone {rest : List Char} (alone : rest.head? ≠ some '\n') : Breaks ['\r'] rest

/-- The lines of a text. The last one needs no ending, but is not empty then. -/
inductive HasLines : List Char → List (List Char) → Prop
  | nothing : HasLines [] []
  | last {line : List Char} (filled : line ≠ []) (plain : Plain line) : HasLines line [line]
  | ended {line ending rest : List Char} {lines : List (List Char)} (plain : Plain line)
      (breaks : Breaks ending rest) (later : HasLines rest lines) :
      HasLines (line ++ (ending ++ rest)) (line :: lines)

variable {text line ending rest : List Char} {lines : List (List Char)}

private theorem linesFrom_plain (plain : Plain line) (front rest : List Char) :
    linesFrom front (line ++ rest) = linesFrom (front ++ line) rest := by
  induction line generalizing front with
  | nil => simp
  | cons char more ih =>
    obtain ⟨⟨noFeed, noReturn⟩, plain⟩ := List.forall_mem_cons.mp plain
    have goesOn : linesFrom front (char :: (more ++ rest)) = linesFrom (front ++ [char]) (more ++ rest) := by
      rw [linesFrom]
      · simp [noFeed, noReturn]
      · exact fun _ same _ => noReturn same
    rw [List.cons_append, goesOn, ih plain, List.append_assoc, List.singleton_append]

private theorem linesFrom_breaks (breaks : Breaks ending rest) (line : List Char) :
    linesFrom line (ending ++ rest) = line :: linesFrom [] rest := by
  cases breaks with
  | feed => simp [linesFrom]
  | both => simp [linesFrom]
  | lone alone =>
    rw [List.singleton_append, linesFrom]
    · simp
    · rintro more - rfl
      exact alone rfl

private theorem hasLines_linesFrom (plain : Plain line) (text : List Char) :
    HasLines (line ++ text) (linesFrom line text) := by
  have nothing : Plain [] := List.forall_mem_nil _
  fun_induction linesFrom line text with
  | case1 line empty =>
    rw [List.isEmpty_iff.mp empty]
    exact .nothing
  | case2 line filled =>
    rw [List.append_nil]
    exact .last (by simpa using filled) plain
  | case3 line rest ih => exact .ended plain (.both rest) (ih nothing)
  | case4 line char rest other ends ih =>
    rcases ends with rfl | rfl
    · exact .ended plain (.feed rest) (ih nothing)
    · have alone : rest.head? ≠ some '\n' := by
        intro feed
        obtain ⟨more, rfl⟩ := List.head?_eq_some_iff.mp feed
        exact other more rfl rfl
      exact .ended plain (.lone alone) (ih nothing)
  | case5 line char rest other goesOn ih =>
    have longer : Plain (line ++ [char]) := by
      intro next member
      rcases List.mem_append.mp member with inner | last
      · exact plain next inner
      · rw [List.mem_singleton.mp last]
        exact not_or.mp goesOn
    simpa using ih longer

/-- A text has lines in one way only. -/
theorem hasLines_iff : HasLines text lines ↔ lines = linesFrom [] text := by
  constructor
  · intro has
    induction has with
    | nothing => rfl
    | @last line filled plain =>
      have read := linesFrom_plain plain [] []
      simp only [List.append_nil, List.nil_append] at read
      rw [read, linesFrom, if_neg (by simpa using filled)]
    | ended plain breaks later ih =>
      rw [linesFrom_plain plain, List.nil_append, linesFrom_breaks breaks, ← ih]
  · rintro rfl
    exact hasLines_linesFrom (List.forall_mem_nil _) text

end Lines

/-- The lines without their outer blanks, those with nothing left in them dropped. -/
def expressions (lines : List (List Char)) : List String :=
  (lines.map fun line => String.ofList (Text.trim line)).filter fun expression => expression ≠ ""

/-- A line that begins and ends with no blank is blank only if it is empty. -/
theorem allBlank_trim (line : List Char) :
    Text.allBlank (String.ofList (Text.trim line)) = true ↔ String.ofList (Text.trim line) = "" := by
  have stops := List.head?_dropWhile_not Text.isBlank (Text.trimStart line).reverse
  rw [Text.allBlank, String.toList_ofList, Text.trim, Text.trimEnd]
  cases found : (Text.trimStart line).reverse.dropWhile Text.isBlank with
  | nil => simp
  | cons last rest =>
    rw [found] at stops
    simp [show Text.isBlank last = false from stops]

private theorem load_lines {path : String} (noTable : isTable path = false) (config : Config)
    (column? : Option String) (text : String) :
    load config path column? text =
      .ok (.numbered ((expressions (linesFrom [] text.toList)).map .text)) := by
  have same : (lines text).map Text.strip =
      (linesFrom [] text.toList).map fun line => String.ofList (Text.trim line) := by
    simp [lines, Text.strip]
  have dropped : ∀ expression ∈ (lines text).map Text.strip,
      (!Text.allBlank expression) = decide (expression ≠ "") := by
    intro expression member
    rw [same] at member
    obtain ⟨line, -, rfl⟩ := List.mem_map.mp member
    rw [Bool.eq_iff_iff, Bool.not_eq_true', ← Bool.not_eq_true, allBlank_trim, decide_eq_true_iff]
  rw [load, noTable, if_neg Bool.false_ne_true, expressions, ← same, ← List.filter_congr dropped]
  rfl

/-- What stands behind an expression: what is printed for it alone, or the kind of its error where
nothing is printed. -/
def Shows (config : Config) (mode : AngleMode) (expression shown : String) : Prop :=
  ((runSingle config mode expression).exit = .ok 0 ∧
      (runSingle config mode expression).output = shown ++ "\n") ∨
    (runSingle config mode expression).exit = .ok 1 ∧
      ∃ cause text?, evaluate config mode (some expression) = .error (.evaluation cause text?) ∧
        shown = cause.kind.name

variable {config : Config}

def shownOf (config : Config) (mode : AngleMode) (expression : String) : String :=
  Batch.shown (rowOf .missing expression (evaluate config mode (some expression)))

private theorem rowLine_rowOf (mode : AngleMode) (label : Datum) (expression : String) :
    Batch.rowLine (rowOf label expression (evaluate config mode (some expression))) =
      expression ++ " = " ++ shownOf config mode expression := by
  rw [shownOf]
  cases evaluate config mode (some expression) <;> rfl

private theorem shows_shownOf (usable : Usable config) (whole : IsWhole config.cacheSize)
    (mode : AngleMode) (expression : String) :
    Shows config mode expression (shownOf config mode expression) := by
  have alone := ((@sound_new config none (some mode) whole).evaluate (some expression) none).1
  rw [Option.getD_none, Option.getD_some] at alone
  rw [Shows, runSingle, alone, shownOf]
  cases outcome : evaluate config mode (some expression) with
  | ok value => exact .inl ⟨rfl, rfl⟩
  | error failure =>
    obtain ⟨cause, rfl, -⟩ := usable.failsOnly mode (some expression) failure outcome
    exact .inr ⟨rfl, cause, _, rfl, rfl⟩

/-- The numbers of the rows do not show in their lines. -/
theorem rowLines_numbered (mode : AngleMode) (expressions : List String) :
    (rowsOf (outcomeOf config mode) (.numbered (expressions.map .text))).map Batch.rowLine =
      expressions.map fun expression => expression ++ " = " ++ shownOf config mode expression := by
  rw [Series.numbered_map_text]
  apply List.ext_getElem
  · simp [rowsOf]
  · intro place first second
    simp only [rowsOf, List.getElem_map, List.getElem_mapIdx]
    exact rowLine_rowOf mode (.integer place) _

def printing (lines : List String) : Run :=
  { exit := .ok 0, output := String.join (lines.map fun line => line ++ "\n") }

/-- The arguments ask for the expressions in a file that is no table, and for nothing else. -/
structure Prints (arguments : List String) (settings : Settings) (path : String) : Prop where
  understood : parse arguments = .accepted settings
  asked : settings.dataPath = some path
  noTable : isTable path = false
  unsaved : settings.saveResults = false
  unattended : settings.interactive = false

private theorem path_of_read {tree : Files.Tree} {path text : String}
    (found : Files.read tree path = .ok text) : path ≠ "" := by
  rintro rfl
  cases found

variable {world : World} {arguments : List String} {settings : Settings} {path text : String}

private theorem run_of_rows {rows : List Row} (prints : Prints arguments settings path)
    (checked : config.check = .ok ()) (found : Files.read world.tree path = .ok text)
    (answered : batchRows config (settings.mode config) settings path text = .ok rows) :
    run config world arguments = report config (printing (rows.map Batch.rowLine)) := by
  have given : (path != "") = true := bne_iff_ne.mpr (path_of_read found)
  have read : (Files.read world.tree path >>= batchRows config (settings.mode config) settings path) =
      .ok rows := by
    rw [found]
    exact answered
  simp only [run, prints.understood, checked, runSettings, prints.unattended, prints.asked,
    Option.getD_some, given, runBatch, sourcePath, prints.noTable, read, finishBatch,
    prints.unsaved, Bool.false_eq_true, if_false, if_true, printing, List.map_map, Function.comp_def]

private theorem report_printing (writable : config.cacheSize.Writable) (lines : List String) :
    report config (printing lines) = printing lines := by
  obtain ⟨capacity, written⟩ := Datum.exists_described writable
  rw [report, written]
  rfl

private theorem batchRows_lines (usable : Usable config) (whole : IsWhole config.cacheSize)
    (noTable : isTable path = false) (mode : AngleMode) (settings : Settings) (text : String) :
    batchRows config mode settings path text =
      .ok (rowsOf (outcomeOf config mode)
        (.numbered ((expressions (linesFrom [] text.toList)).map .text))) := by
  rw [batchRows, load_lines noTable]
  exact rows_eq usable (@sound_new config none (some mode) whole) none (allWritable_texts _)

/-- A batch from a text file prints a line for each expression, in their order, and behind each
what is printed for it alone, or the kind of its error. Nothing else happens, unless the capacity
cannot be written in the report that follows. -/
theorem prints_as_single {config : Config} {world : World} {arguments : List String}
    {settings : Settings} {path text : String} (checked : config.check = .ok ())
    (usable : Usable config) (whole : IsWhole config.cacheSize)
    (prints : Prints arguments settings path) (found : Files.read world.tree path = .ok text) :
    ∃ lines : List (List Char), ∃ shown : String → String,
      (∀ other, HasLines text.toList other ↔ other = lines) ∧
        (∀ expression, Shows config (settings.mode config) expression (shown expression)) ∧
        let printed := printing
          ((expressions lines).map fun expression => expression ++ " = " ++ shown expression)
        (run config world arguments).output = printed.output ∧
          (config.cacheSize.Writable → run config world arguments = printed) := by
  have answered := batchRows_lines usable whole prints.noTable (settings.mode config) settings text
  have ran := run_of_rows prints checked found answered
  rw [rowLines_numbered] at ran
  refine ⟨linesFrom [] text.toList, shownOf config (settings.mode config), fun _ => hasLines_iff,
    shows_shownOf usable whole _, ?_, fun writable => ?_⟩
  · rw [ran]
    rfl
  · rw [ran, report_printing writable]

theorem prints_as_single_mixed :
    let arguments := ["--data_path", "a", "--radians"]
    let settings : Settings := { dataPath := some "a", radians := true }
    let text := "1/0\r\n 2+2 \r\r1/0\n"
    let tree : Files.Tree := fun place => some (if place = [] then .directory else .file text)
    let world : World := ⟨tree, Files.root, [], []⟩
    Config.check {} = .ok () ∧ Usable {} ∧ IsWhole (.integer 1000) ∧
      Prints arguments settings "a" ∧ Files.read tree "a" = .ok text ∧
      run {} world arguments =
        printing ["1/0 = DivisionByZero", "2+2 = 4", "1/0 = DivisionByZero"] := by
  intro arguments settings text tree world
  have prints : Prints arguments settings "a" := ⟨by decide, rfl, by decide +kernel, rfl, rfl⟩
  have writable : (Datum.integer 1000).Writable := by decide +kernel
  have found : Files.read tree "a" = .ok text := by
    have noSlash : "a".endsWith "/" = false := by decide +kernel
    have alone : Files.names "a" = ["a"] := WrittenFile.names_of_single (by decide) (by decide)
    simp only [Files.read, alone, noSlash]
    rfl
  obtain ⟨lines, shown, has, shows, -, quiet⟩ := @prints_as_single {} world arguments settings
    "a" text Config.check_default usable_default ⟨1000, rfl⟩ prints found
  have ran := quiet writable
  change ∀ expression, Shows {} .radians expression (shown expression) at shows
  have read : lines = linesFrom [] text.toList := ((has _).mp (hasLines_iff.mpr rfl)).symm
  have three : expressions lines = ["1/0", "2+2", "1/0"] := by
    rw [read]
    decide +kernel
  have fails : shown "1/0" = "DivisionByZero" := by
    have exits : (runSingle {} .radians "1/0").exit.toOption = some 1 := by decide +kernel
    have divides : failsWith .divisionByZero (evaluate {} .radians (some "1/0")) = true := by
      decide +kernel
    rcases shows "1/0" with ⟨exit, -⟩ | ⟨-, cause, text?, failed, named⟩
    · rw [exit] at exits
      cases exits
    · rw [failed] at divides
      rw [named, eq_of_beq divides]
      rfl
  have adds : shown "2+2" = "4" := by
    have exits : (runSingle {} .radians "2+2").exit.toOption = some 0 := by decide +kernel
    have prints : (runSingle {} .radians "2+2").output = "4" ++ "\n" := by decide +kernel
    rcases shows "2+2" with ⟨-, printed⟩ | ⟨exit, -⟩
    · exact (String.append_left_inj "\n").mp (printed.symm.trans prints)
    · rw [exit] at exits
      cases exits
  rw [three] at ran
  simp only [List.map_cons, List.map_nil, fails, adds] at ran
  exact ⟨Config.check_default, usable_default, ⟨1000, rfl⟩, prints, found, ran⟩

end Reckon.Proofs.PrintedBatch
