import Mathlib.Data.List.TakeWhile
import Reckon.Table.Csv

/-! A table that is written and read again. Every field comes back as it was, and so does every
record with something on its line. Only a return that stands outside quotes would end a record
too early. -/

namespace Reckon.Proofs.WrittenTable
open Csv

/-- A return may stand in a field only where something else puts the field into quotes. -/
def Keeps (cell : List Char) : Prop :=
  needsQuotes cell = false → '\r' ∉ cell

def line (row : List String) : List Char :=
  [','].intercalate (row.map fun cell => writeCell cell.toList)

def shows (row : List String) : Bool :=
  (line row).any fun char => !isLineBlank char

variable {cell front rest : List Char} {char : Char} {row : List String} {place : Place}

section Fields

private theorem plain_of_bare (keeps : Keeps cell) (bare : needsQuotes cell = false) (member : char ∈ cell) :
    isLineEnd char = false ∧ char ≠ ',' ∧ char ≠ '"' := by
  have noReturn : char ≠ '\r' := by
    rintro rfl
    exact keeps bare member
  simp only [needsQuotes, List.any_eq_false, Bool.or_eq_true, beq_iff_eq, not_or] at bare
  obtain ⟨⟨noComma, noQuote⟩, noFeed⟩ := bare char member
  exact ⟨by simp [isLineEnd, noFeed, noReturn], noComma, noQuote⟩

private theorem readRecord_continue {next : Place} {grown : List Char}
    (goesOn : step place cell char = .continue next grown) :
    readRecord place cell row (char :: rest) = readRecord next grown row rest := by
  rw [readRecord, goesOn]

/-- Inside quotes every character is taken, a quote for two. -/
theorem readRecord_quoted (cell front rest : List Char) (row : List String) :
    readRecord .quoted front row
        (cell.flatMap (fun char => if char = '"' then ['"', '"'] else [char]) ++ rest) =
      readRecord .quoted (front ++ cell) row rest := by
  induction cell generalizing front with
  | nil => simp
  | cons char more ih =>
    rw [List.flatMap_cons, List.append_assoc, List.append_cons]
    by_cases quote : char = '"'
    · subst quote
      exact ih (front ++ ['"'])
    · rw [if_neg quote, List.singleton_append, readRecord_continue, ih]
      simp [step, quote]

private theorem readRecord_field (plain : ∀ char ∈ cell, isLineEnd char = false ∧ char ≠ ',')
    (front rest : List Char) (row : List String) :
    readRecord .field front row (cell ++ rest) = readRecord .field (front ++ cell) row rest := by
  induction cell generalizing front with
  | nil => simp
  | cons char more ih =>
    obtain ⟨⟨noEnd, noComma⟩, plain⟩ := List.forall_mem_cons.mp plain
    have goesOn : step .field front char = .continue .field (front ++ [char]) := by
      simp [step, plainStep, noEnd, noComma]
    rw [List.cons_append, readRecord_continue goesOn, ih plain, ← List.append_cons]

/-- A written field is read to its end, where no quotes are open. -/
theorem readRecord_writeCell (keeps : Keeps cell) :
    ∃ place, place ≠ .quoted ∧ ∀ row rest,
      readRecord .fieldStart [] row (writeCell cell ++ rest) = readRecord place cell row rest := by
  cases quotes : needsQuotes cell with
  | true =>
    refine ⟨.quote, nofun, fun row rest => ?_⟩
    have opens : step .fieldStart [] '"' = .continue .quoted [] := rfl
    have closes : step .quoted cell '"' = .continue .quote cell := rfl
    rw [writeCell, if_pos quotes, List.cons_append, List.cons_append, List.append_assoc,
      readRecord_continue opens, readRecord_quoted, List.nil_append, List.singleton_append,
      readRecord_continue closes]
  | false =>
    have plain (char : Char) (member : char ∈ cell) := plain_of_bare keeps quotes member
    rw [writeCell, if_neg (by simp [quotes])]
    cases cell with
    | nil => exact ⟨.fieldStart, nofun, fun row rest => rfl⟩
    | cons char more =>
      refine ⟨.field, nofun, fun row rest => ?_⟩
      obtain ⟨⟨noEnd, noComma, noQuote⟩, plain⟩ := List.forall_mem_cons.mp plain
      have begins : step .fieldStart [] char = .continue .field [char] := by
        simp [step, plainStep, noEnd, noComma, noQuote]
      rw [List.cons_append, readRecord_continue begins,
        readRecord_field fun char member => ⟨(plain char member).1, (plain char member).2.1⟩]
      rfl

private theorem readRecord_comma (outside : place ≠ .quoted) :
    readRecord place cell row (',' :: rest) =
      readRecord .fieldStart [] (row ++ [String.ofList cell]) rest := by
  cases place <;> first | rfl | exact absurd rfl outside

private theorem readRecord_feed (outside : place ≠ .quoted) :
    readRecord place cell row ('\n' :: rest) = .ok (row ++ [String.ofList cell], rest) := by
  cases place <;> first | rfl | exact absurd rfl outside

end Fields

section Lines

private theorem line_cons (first : String) (others : List String) :
    line (first :: others) =
      writeCell first.toList ++ others.flatMap fun cell => ',' :: writeCell cell.toList := by
  induction others generalizing first with
  | nil => simp [line, List.intercalate]
  | cons second others ih =>
    have apart : line (first :: second :: others) =
        writeCell first.toList ++ ',' :: line (second :: others) := by
      simp [line, List.intercalate]
    rw [apart, ih, List.flatMap_cons, List.cons_append]

/-- The line of a record that has fields is read back as the record. -/
theorem readRecord_line {first : String} {others : List String}
    (keeps : ∀ cell ∈ first :: others, Keeps cell.toList) (front : List String) (rest : List Char) :
    readRecord .fieldStart [] front (line (first :: others) ++ '\n' :: rest) =
      .ok (front ++ first :: others, rest) := by
  rw [line_cons]
  induction others generalizing first front with
  | nil =>
    obtain ⟨place, outside, read⟩ := readRecord_writeCell (keeps first List.mem_cons_self)
    rw [List.flatMap_nil, List.append_nil, read, readRecord_feed outside, String.ofList_toList]
  | cons second others ih =>
    obtain ⟨own, keeps⟩ := List.forall_mem_cons.mp keeps
    obtain ⟨place, outside, read⟩ := readRecord_writeCell own
    rw [List.flatMap_cons, List.append_assoc, read, List.cons_append, List.cons_append,
      readRecord_comma outside, String.ofList_toList, ih keeps, ← List.append_cons]

end Lines

section Records

private theorem nextRecord_blanks {blanks : List Char} (blank : ∀ char ∈ blanks, isLineBlank char = true)
    (mark text : List Char) (gap : Gap) :
    nextRecord mark gap (blanks ++ text) =
      nextRecord mark (if blanks = [] then gap else .blank) text := by
  induction blanks generalizing gap with
  | nil => rfl
  | cons char more ih =>
    obtain ⟨first, blank⟩ := List.forall_mem_cons.mp blank
    have noEnd : isLineEnd char = false := by
      rcases Bool.or_eq_true _ _ ▸ first with space | tab
      · rw [eq_of_beq space]; rfl
      · rw [eq_of_beq tab]; rfl
    rw [List.cons_append, nextRecord, noEnd, first, ih blank]
    simp

/-- A record that begins with a character on its line is read from the beginning of that line. -/
theorem nextRecord_visible {blanks : List Char} (blank : ∀ char ∈ blanks, isLineBlank char = true)
    (noBlank : isLineBlank char = false) (noEnd : isLineEnd char = false) (rest : List Char) :
    nextRecord (blanks ++ char :: rest) .lineStart (blanks ++ char :: rest) =
      blanks ++ char :: rest := by
  rw [nextRecord_blanks blank, nextRecord, noEnd, noBlank]
  by_cases none : blanks = []
  · simp [none]
  · simp [none]

private theorem nextRecord_hidden {blanks : List Char} (blank : ∀ char ∈ blanks, isLineBlank char = true)
    (rest : List Char) :
    nextRecord (blanks ++ '\n' :: rest) .lineStart (blanks ++ '\n' :: rest) =
      nextRecord rest .lineStart rest := by
  rw [nextRecord_blanks blank, nextRecord]
  rfl

/-- The first character on the line of a record that is not blank does not end the line: a line
feed stands behind a quote, and a return as well. -/
theorem noEnd_of_first (keeps : ∀ cell ∈ row, Keeps cell.toList)
    (first : ((line row).dropWhile isLineBlank).head? = some char) : isLineEnd char = false := by
  cases row with
  | nil => cases first
  | cons cell others =>
    rw [line_cons] at first
    cases quotes : needsQuotes cell.toList with
    | true =>
      rw [writeCell, if_pos quotes] at first
      cases first
      rfl
    | false =>
      have plain (char : Char) (member : char ∈ cell.toList) :=
        plain_of_bare (keeps cell List.mem_cons_self) quotes member
      rw [writeCell, if_neg (by simp [quotes]), List.dropWhile_append] at first
      cases left : cell.toList.dropWhile isLineBlank with
      | nil =>
        rw [left] at first
        cases others with
        | nil => cases first
        | cons second others =>
          cases first
          rfl
      | cons head more =>
        rw [left] at first
        cases first
        have member : char ∈ cell.toList := by
          apply (List.dropWhile_sublist isLineBlank).subset
          rw [left]
          exact List.mem_cons_self
        exact (plain char member).1

/-- The blanks in front of a line take all of it, or they end before a character of the record. -/
theorem line_cases (keeps : ∀ cell ∈ row, Keeps cell.toList) :
    (shows row = false ∧ ∀ char ∈ line row, isLineBlank char = true) ∨
      shows row = true ∧ ∃ blanks char more, line row = blanks ++ char :: more ∧
        (∀ blank ∈ blanks, isLineBlank blank = true) ∧ isLineBlank char = false ∧
        isLineEnd char = false := by
  cases left : (line row).dropWhile isLineBlank with
  | nil =>
    have blank : ∀ char ∈ line row, isLineBlank char = true := List.dropWhile_eq_nil_iff.mp left
    have hidden : shows row = false := by simpa [shows] using blank
    exact .inl ⟨hidden, blank⟩
  | cons char more =>
    have first : ((line row).dropWhile isLineBlank).head? = some char := by rw [left]; rfl
    have noBlank : isLineBlank char = false := by
      have stops := List.head?_dropWhile_not isLineBlank (line row)
      rw [left] at stops
      exact stops
    have parts : line row = (line row).takeWhile isLineBlank ++ char :: more := by
      rw [← left, List.takeWhile_append_dropWhile]
    have visible : shows row = true := by
      rw [shows, parts]
      simp [noBlank]
    exact .inr ⟨visible, _, char, more, parts, fun _ => List.mem_takeWhile_imp, noBlank,
      noEnd_of_first keeps first⟩

/-- The next record is on the line itself or, if that is blank, behind it. -/
theorem nextRecord_line (keeps : ∀ cell ∈ row, Keeps cell.toList) (rest : List Char) :
    nextRecord (line row ++ '\n' :: rest) .lineStart (line row ++ '\n' :: rest) =
      if shows row then line row ++ '\n' :: rest else nextRecord rest .lineStart rest := by
  rcases line_cases keeps with ⟨hidden, blank⟩ | ⟨visible, blanks, char, more, parts, blank, noBlank, noEnd⟩
  · rw [hidden, nextRecord_hidden blank]
    rfl
  · rw [visible, if_pos rfl, parts, List.append_assoc, List.cons_append]
    exact nextRecord_visible blank noBlank noEnd (more ++ '\n' :: rest)

/-- The records of a text without the proofs that it gets shorter. -/
theorem recordsFrom_eq (text : List Char) :
    recordsFrom text =
      match nextRecord text .lineStart text with
      | [] => .ok []
      | char :: rest =>
        match readRecord .fieldStart [] [] (char :: rest) with
        | .error failure => .error failure
        | .ok (row, left) => (row :: ·) <$> recordsFrom left := by
  rw [recordsFrom]
  split
  · next start => rw [start]
  · next char rest start =>
    split
    · next failure read => simp only [start, read]
    · next row left read => simp only [start, read]

/-- A written record is read and its line is used up. -/
theorem recordsFrom_writeRecord (keeps : ∀ cell ∈ row, Keeps cell.toList) (rest : List Char) :
    recordsFrom (writeRecord row ++ rest) =
      if shows row then (row :: ·) <$> recordsFrom rest else recordsFrom rest := by
  have written : writeRecord row ++ rest = line row ++ '\n' :: rest := by
    rw [writeRecord, List.append_assoc]
    rfl
  rw [written, recordsFrom_eq, nextRecord_line keeps]
  cases visible : shows row with
  | false => exact (recordsFrom_eq rest).symm
  | true =>
    cases row with
    | nil => cases visible
    | cons first others =>
      have read := readRecord_line keeps [] rest
      have some : line (first :: others) ++ '\n' :: rest ≠ [] := by simp
      rw [if_pos rfl, if_pos rfl]
      cases text : line (first :: others) ++ '\n' :: rest with
      | nil => exact absurd text some
      | cons char more =>
        rw [text] at read
        simp only [read, List.nil_append]

variable {rows : List (List String)}

private theorem recordsFrom_write (keeps : ∀ row ∈ rows, ∀ cell ∈ row, Keeps cell.toList) :
    recordsFrom (rows.flatMap writeRecord) = .ok (rows.filter shows) := by
  induction rows with
  | nil =>
    rw [recordsFrom_eq]
    rfl
  | cons row rows ih =>
    obtain ⟨own, keeps⟩ := List.forall_mem_cons.mp keeps
    rw [List.flatMap_cons, recordsFrom_writeRecord own, ih keeps]
    cases visible : shows row with
    | false => rw [List.filter_cons_of_neg (by simp [visible])]; rfl
    | true => rw [List.filter_cons_of_pos visible]; rfl

/-- A written table is read back as it was, but for the records on whose lines nothing shows. A
byte order mark at its start would be taken off. -/
theorem records_write (keeps : ∀ row ∈ rows, ∀ cell ∈ row, Keeps cell.toList)
    (noMark : ∀ char, (write rows).toList.head? = some char → char.toNat ≠ 0xFEFF) :
    records (write rows).toList = .ok (rows.filter shows) := by
  have read := recordsFrom_write keeps
  rw [write, String.toList_ofList] at noMark ⊢
  cases text : rows.flatMap writeRecord with
  | nil =>
    rw [text, recordsFrom_eq] at read
    exact read
  | cons char rest =>
    rw [text] at noMark read
    rw [records, if_neg (noMark char rfl), read]

/-- A comma shows, so that a record of two fields or more is never passed over. -/
theorem shows_of_two (first second : String) (others : List String) :
    shows (first :: second :: others) = true := by
  rw [shows, line_cons, List.flatMap_cons]
  simp [isLineBlank]

end Records

end Reckon.Proofs.WrittenTable
