import CatalogGraph.Source.Table

/-!
Tables as they are written: with quotes around a field or without them, with either line end and
with empty lines. Reading such a text gives back the fields, and whatever is read has rows of one
length.
-/
namespace CatalogGraph.Table

/-- A field between quotes, with each quote in it written twice. -/
def quoted (field : List Char) : List Char :=
  '"' :: (field.flatMap fun c => if c = '"' then ['"', '"'] else [c]) ++ ['"']

/-- A field as it is written: between quotes, or as it is if it has no character with a meaning. -/
inductive WritesField (delimiter : Char) (field : String) : List Char → Prop
  | quoted : WritesField delimiter field (quoted field.toList)
  | bare (plain : ∀ c ∈ field.toList, c ≠ delimiter ∧ c ≠ '"' ∧ c ≠ '\r' ∧ c ≠ '\n') :
      WritesField delimiter field field.toList

/-- The fields of a record, with delimiters between them. -/
inductive WritesRecord (delimiter : Char) : List String → List Char → Prop
  | single {field : String} {text : List Char} (written : WritesField delimiter field text) :
      WritesRecord delimiter [field] text
  | next {field : String} {fields : List String} {text more : List Char}
      (written : WritesField delimiter field text) (others : WritesRecord delimiter fields more) :
      WritesRecord delimiter (field :: fields) (text ++ delimiter :: more)

/-- A line end, with or without a carriage return. -/
def IsLineEnd (text : List Char) : Prop := text = ['\n'] ∨ text = ['\r', '\n']

/-- The records of a table on lines of their own, with any number of empty lines among them. The
last line may lack its end. -/
inductive WritesTable (delimiter : Char) : List (List String) → List Char → Prop
  | nothing : WritesTable delimiter [] []
  | emptyLine {records : List (List String)} {lineEnd text : List Char} (ends : IsLineEnd lineEnd)
      (onward : WritesTable delimiter records text) :
      WritesTable delimiter records (lineEnd ++ text)
  | line {record : List String} {records : List (List String)} {text lineEnd more : List Char}
      (written : WritesRecord delimiter record text) (ends : IsLineEnd lineEnd)
      (onward : WritesTable delimiter records more) :
      WritesTable delimiter (record :: records) (text ++ lineEnd ++ more)
  | lastLine {record : List String} {text : List Char}
      (written : WritesRecord delimiter record text) :
      WritesTable delimiter [record] text

/-- A record that reads like an empty line. -/
def IsBlankRecord (record : List String) : Prop :=
  ∃ field, record = [field] ∧ Text.isBlankText field

/-- A record filled up with empty fields to the number of the columns. -/
def padded (columns : Nat) (record : List String) : List String :=
  record ++ List.replicate (columns - record.length) ""

section Scanning
variable {delimiter : Char}

theorem scan_nil (s : Scan) : scan delimiter false s [] =
    if s.field.isEmpty && s.record.isEmpty then .ok s.records.reverse
    else .ok s.endField.endRecord.records.reverse := rfl

theorem scan_cons (s : Scan) (c : Char) (rest : List Char) : scan delimiter false s (c :: rest) =
    if c = '"' ∧ s.field.isEmpty then scan delimiter true s rest
    else if c = '\r' then scan delimiter false s rest
    else if c = '\n' then scan delimiter false s.endField.endRecord rest
    else if c = delimiter then scan delimiter false s.endField rest
    else scan delimiter false (s.put c) rest := rfl

theorem scan_twoQuotes (s : Scan) (rest : List Char) :
    scan delimiter true s ('"' :: '"' :: rest) = scan delimiter true (s.put '"') rest := rfl

/-- Between quotes a character that is not followed by a quote ends them or belongs to the field. -/
theorem scan_quoted (s : Scan) {c : Char} {rest : List Char}
    (apart : c = '"' → rest.head? ≠ some '"') : scan delimiter true s (c :: rest) =
      if c = '"' then scan delimiter false s rest else scan delimiter true (s.put c) rest := by
  refine scan.eq_4 delimiter s c rest fun more same same' => ?_
  subst same same'
  exact apart rfl rfl

theorem scan_bare {field : List Char}
    (plain : ∀ c ∈ field, c ≠ delimiter ∧ c ≠ '"' ∧ c ≠ '\r' ∧ c ≠ '\n') (s : Scan)
    (rest : List Char) : scan delimiter false s (field ++ rest) =
      scan delimiter false { s with field := field.reverse ++ s.field } rest := by
  induction field generalizing s with
  | nil => rfl
  | cons c field ih =>
    obtain ⟨other, quote, feed, line⟩ := plain c (by simp)
    rw [List.cons_append, scan_cons, if_neg (fun h => quote h.1), if_neg feed, if_neg line,
      if_neg other, ih (fun d mem => plain d (by simp [mem]))]
    simp [Scan.put]

/-- Up to the closing quote all characters belong to the field, and two quotes are one. -/
theorem scan_quotes (field : List Char) (s : Scan) {rest : List Char}
    (apart : rest.head? ≠ some '"') :
    scan delimiter true s
        ((field.flatMap fun c => if c = '"' then ['"', '"'] else [c]) ++ '"' :: rest) =
      scan delimiter false { s with field := field.reverse ++ s.field } rest := by
  induction field generalizing s with
  | nil =>
    rw [List.flatMap_nil, List.nil_append, scan_quoted s fun _ => apart, if_pos rfl]
    rfl
  | cons c field ih =>
    rw [List.flatMap_cons, List.append_assoc]
    by_cases quote : c = '"'
    · rw [if_pos quote, List.cons_append, List.singleton_append, scan_twoQuotes, ih]
      simp [Scan.put, quote]
    · rw [if_neg quote, List.singleton_append, scan_quoted s fun h => absurd h quote,
        if_neg quote, ih]
      simp [Scan.put]

/-- A written field is read from a state without a field under way, if no quote follows. -/
theorem scan_field {field : String} {text : List Char} (written : WritesField delimiter field text)
    {s : Scan} (fresh : s.field = []) {rest : List Char} (apart : rest.head? ≠ some '"') :
    scan delimiter false s (text ++ rest) =
      scan delimiter false { s with field := field.toList.reverse } rest := by
  cases written with
  | quoted =>
    rw [quoted, List.cons_append, List.cons_append, List.append_assoc, scan_cons,
      if_pos ⟨rfl, by simp [fresh]⟩, List.singleton_append, scan_quotes _ _ apart, fresh,
      List.append_nil]
  | bare plain => rw [scan_bare plain, fresh, List.append_nil]

theorem scan_lineEnd {lineEnd : List Char} (ends : IsLineEnd lineEnd) (s : Scan)
    (rest : List Char) :
    scan delimiter false s (lineEnd ++ rest) =
      scan delimiter false s.endField.endRecord rest := by
  rcases ends with rfl | rfl <;> simp [scan_cons]

theorem endRecord_present (records : List (List String)) {record : List String}
    (present : ¬ IsBlankRecord record) :
    Scan.endRecord { records, record := record.reverse, field := [] } =
      { records := record :: records } := by
  rcases same : record.reverse with _ | ⟨last, _ | ⟨previous, others⟩⟩
  · rw [List.reverse_eq_nil_iff] at same
    rw [same]
    rfl
  · have single : record = [last] := by simpa using congrArg List.reverse same
    have filled : Text.isBlankText last = false :=
      eq_false_of_ne_true fun blank => present ⟨last, single, blank⟩
    simp [Scan.endRecord, filled, single]
  · have whole := congrArg List.reverse same
    rw [List.reverse_reverse] at whole
    rw [whole]
    rfl

theorem endRecord_emptyLine (records : List (List String)) :
    Scan.endRecord (Scan.endField { records }) = { records } := rfl

section Delimited
variable (quote : delimiter ≠ '"') (feed : delimiter ≠ '\r') (line : delimiter ≠ '\n')
include quote feed line

theorem scan_delimiter (s : Scan) (rest : List Char) :
    scan delimiter false s (delimiter :: rest) = scan delimiter false s.endField rest := by
  rw [scan_cons, if_neg (fun h => quote h.1), if_neg feed, if_neg line, if_pos rfl]

/-- Behind a written record the fields before the last one have been read, and the last one is under
way. -/
theorem scan_record {record : List String} {text : List Char}
    (written : WritesRecord delimiter record text)
    (s : Scan) (fresh : s.field = []) (rest : List Char) (apart : rest.head? ≠ some '"') :
    ∃ s', scan delimiter false s (text ++ rest) = scan delimiter false s' rest ∧
      s'.endField = { s with record := record.reverse ++ s.record, field := [] } := by
  induction written generalizing s with
  | single written =>
    exact ⟨_, scan_field written fresh apart, by simp [Scan.endField]⟩
  | @next field fields text more written _ ih =>
    have behind : (delimiter :: (more ++ rest)).head? ≠ some '"' := by simpa using quote
    obtain ⟨s', scanned, ended⟩ := ih { s with record := field :: s.record, field := [] } rfl
    refine ⟨s', ?_, by simp [ended]⟩
    rw [List.append_assoc, List.cons_append, scan_field written fresh behind,
      scan_delimiter quote feed line]
    simpa [Scan.endField] using scanned

/-- A table is read record by record. -/
theorem scan_table {records : List (List String)} {text : List Char}
    (written : WritesTable delimiter records text)
    (present : ∀ record ∈ records, ¬ IsBlankRecord record) (before : List (List String)) :
    scan delimiter false { records := before } text = .ok (before.reverse ++ records) := by
  induction written generalizing before with
  | nothing => simp [scan_nil]
  | emptyLine ends _ ih => rw [scan_lineEnd ends, endRecord_emptyLine, ih present]
  | @line record records text lineEnd more written ends _ ih =>
    have apart : (lineEnd ++ more).head? ≠ some '"' := by rcases ends with rfl | rfl <;> simp
    obtain ⟨s', scanned, ended⟩ := scan_record quote feed line written { records := before } rfl
      (lineEnd ++ more) apart
    rw [List.append_assoc, scanned, scan_lineEnd ends, ended]
    simp only [List.append_nil]
    rw [endRecord_present _ (present record (by simp)), ih (fun r mem => present r (by simp [mem]))]
    simp
  | @lastLine record text written =>
    obtain ⟨s', scanned, ended⟩ := scan_record quote feed line written { records := before } rfl []
      (by simp)
    rw [List.append_nil] at scanned
    simp only [List.append_nil] at ended
    have present := present record (by simp)
    have busy : (s'.field.isEmpty && s'.record.isEmpty) = false := by
      refine eq_false_of_ne_true fun idle => ?_
      have idle : s'.field = [] ∧ s'.record = [] := by simpa using idle
      have empty : record = [""] := by
        have same := congrArg Scan.record ended
        simpa [Scan.endField, idle] using same.symm
      exact present ⟨"", empty, by decide⟩
    rw [scanned, scan_nil, if_neg (by simp [busy]), ended, endRecord_present _ present]
    simp

end Delimited
end Scanning

section Rows

theorem rowsOf_padded {header : List String} {records : List (List String)}
    (fits : ∀ record ∈ records, record.length ≤ header.length) (n : Nat) :
    rowsOf header n records =
      .ok (records.map fun record => ⟨header, padded header.length record⟩) := by
  induction records generalizing n with
  | nil => rfl
  | cons record rest ih =>
    have fit := fits record (by simp)
    rw [rowsOf, if_neg (by omega), ih fun r mem => fits r (by simp [mem])]
    rfl

/-- Rows that are read have a value for each column. -/
theorem length_of_rowsOf {header : List String} {n : Nat} {records : List (List String)}
    {rows : List Row} (read : rowsOf header n records = .ok rows) :
    ∀ row ∈ rows, row.header = header ∧ row.values.length = header.length := by
  induction records generalizing n rows with
  | nil => cases read; simp
  | cons record rest ih =>
    rw [rowsOf] at read
    split at read
    next => cases read
    next fit =>
      cases others : rowsOf header (n + 1) rest with
      | error fault => rw [others] at read; cases read
      | ok more =>
        rw [others] at read
        cases read
        intro row mem
        rcases List.mem_cons.mp mem with rfl | mem
        · refine ⟨rfl, ?_⟩
          rw [List.length_append, List.length_replicate]
          omega
        · exact ih others row mem

end Rows

/-- A table that is written in any of the ways its format leaves open is read as its records, and
what is read from any text has a value for each column in each row. -/
theorem parse_undoes_writing (delimiter : Char) :
    (∀ (header : List String) (records : List (List String)) (text : List Char),
      delimiter ≠ '"' → delimiter ≠ '\r' → delimiter ≠ '\n' →
      (∀ name ∈ header, Text.trim name = name) →
      (∀ record ∈ records, record.length ≤ header.length) →
      (∀ record ∈ header :: records, ¬ IsBlankRecord record) →
      WritesTable delimiter (header :: records) text →
      parse delimiter (String.ofList text) =
        .ok (records.map fun record => ⟨header, padded header.length record⟩)) ∧
    (∀ (text : String) (rows : List Row), parse delimiter text = .ok rows →
      ∃ header, ∀ row ∈ rows, row.header = header ∧ row.values.length = header.length) := by
  constructor
  · intro header records text quote feed line trimmed fits present written
    have scanned := scan_table quote feed line written present []
    have names : header.map Text.trim = header := List.map_congr_left trimmed |>.trans header.map_id
    have rows := rowsOf_padded fits 1
    rw [List.reverse_nil, List.nil_append] at scanned
    rw [parse, String.toList_ofList, scanned]
    show rowsOf (header.map Text.trim) 1 records = _
    rw [names, rows]
  · intro text rows read
    rw [parse] at read
    cases scanned : scan delimiter false {} text.toList with
    | error fault => rw [scanned] at read; cases read
    | ok lines =>
      rw [scanned] at read
      cases lines with
      | nil => cases read; exact ⟨[], by simp⟩
      | cons header records => exact ⟨_, length_of_rowsOf read⟩

/-- Quotes around a delimiter, a line end and quotes; both kinds of line end; an empty line; a
record that is too short, on a line without an end. -/
theorem parse_mixed_writing :
    parse ';' "id;name\r\n\"1\";\"a \"\"b\"\";\n\"\n\r\n2" =
      .ok [⟨["id", "name"], ["1", "a \"b\";\n"]⟩, ⟨["id", "name"], ["2", ""]⟩] :=
  (parse_undoes_writing ';').1 ["id", "name"] [["1", "a \"b\";\n"], ["2"]] _
    (by decide) (by decide) (by decide) (by decide +kernel) (by decide)
    (by
      rintro record mem ⟨field, rfl, blank⟩
      have single : field = "2" := by simpa using mem
      subst single
      revert blank
      decide +kernel)
    (.line (.next (.bare (by simp)) (.single (.bare (by simp)))) (.inr rfl)
      (.line (.next .quoted (.single .quoted)) (.inl rfl)
        (.emptyLine (.inr rfl) (.lastLine (.single (.bare (by simp)))))))

end CatalogGraph.Table
