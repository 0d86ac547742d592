import Inqutum.ImportColumnProofs

/-!
# Two encodings of one record

A list of logical records is written as comma separated values and as one
JSON object on each line, and both are read by the import format.  The CSV
reader trims every cell and reads an absent value as the empty text; the
NDJSON reader keeps a text as it is, and of an absent value in a column
that may hold JSON it keeps the text of `null`.  So the encodings agree on
a file exactly if its texts are trimmed and none of those columns is absent
in a record (`sameMeaning_iff`).
-/

namespace ImportFormat

open JsonText (CodeUnit Text Tree Number Writer unit ascii writeTree)
open Canonical (trim isWhiteSpace trim_cons trim_enclosed)
open Imports (Column)
open List Stringify Csv JsonText

/-! ## Lines -/

/-- The last line needs no line end. -/
theorem splitLines_end {line : Text} (h : unit '\n' ∉ line) : splitLines line = [line] := by
  induction line with
  | nil => rfl
  | cons c line ih =>
    rw [mem_cons, not_or] at h
    rw [splitLines, if_neg (Ne.symm h.1), ih h.2]

/-- A line ends at its line end. -/
theorem splitLines_line {line : Text} (h : unit '\n' ∉ line) (rest : Text) :
    splitLines (line ++ unit '\n' :: rest) = line :: splitLines rest := by
  induction line with
  | nil => rfl
  | cons c line ih =>
    rw [mem_cons, not_or] at h
    rw [cons_append, splitLines, if_neg (Ne.symm h.1), ih h.2]

/-- Lines between line ends, with or without one after the last. -/
def linesText (lines : List Text) (final : Bool) : Text :=
  joined [unit '\n'] lines ++ (if final then [unit '\n'] else [])

/-- The lines come back; a line end after the last makes one more, empty. -/
theorem splitLines_linesText {lines : List Text} (final : Bool)
    (hne : lines ≠ []) (h : ∀ line ∈ lines, unit '\n' ∉ line) :
    splitLines (linesText lines final) = lines ++ (if final then [[]] else []) := by
  induction lines with
  | nil => exact absurd rfl hne
  | cons line lines ih =>
    have hline := h line (.head _)
    cases lines with
    | nil =>
      cases final with
      | true => exact splitLines_line hline []
      | false =>
        show splitLines (line ++ []) = _
        rw [append_nil]
        exact splitLines_end hline
    | cons next lines =>
      have htext : linesText (line :: next :: lines) final
          = line ++ unit '\n' :: linesText (next :: lines) final := by
        show line ++ ([unit '\n'] ++ joined [unit '\n'] (next :: lines)) ++ _ = _
        simp only [append_assoc, cons_append, nil_append, linesText]
      rw [htext, splitLines_line hline, ih (cons_ne_nil _ _) (fun l hl => h l (.tail _ hl))]
      rfl

theorem splitLines_cons {c : CodeUnit} (hc : c ≠ unit '\n') (rest : Text) :
    ∃ tail lines, splitLines (c :: rest) = (c :: tail) :: lines := by
  rw [splitLines, if_neg hc]
  cases splitLines rest with
  | nil => exact ⟨[], [], rfl⟩
  | cons line lines => exact ⟨line, lines, rfl⟩

/-! ## JSON text has no line ends -/

/-- Hex digits are no line end. -/
theorem lf_not_mem_hexText (c : CodeUnit) : unit '\n' ∉ Canonical.hexText c := by
  have hdigit : ∀ m, m < 16 → unit (Nat.digitChar m) ≠ unit '\n' := by decide
  intro hmem
  rcases mem_append.mp hmem with hmem | hmem
  · exact absurd (eq_of_mem_replicate hmem) (by decide)
  obtain ⟨ch, hch, heq⟩ := mem_map.mp hmem
  obtain ⟨m, hm, rfl⟩ := digitChar_of_mem_toDigits hch
  exact hdigit m hm heq

theorem lf_not_mem_numbered (c : CodeUnit) :
    unit '\n' ∉ unit '\\' :: unit 'u' :: Canonical.hexText c := by
  intro hmem
  rcases mem_cons.mp hmem with heq | hmem
  · exact absurd heq (by decide)
  rcases mem_cons.mp hmem with heq | hmem
  · exact absurd heq (by decide)
  · exact lf_not_mem_hexText c hmem

/-- A line end in a text is escaped. -/
theorem lf_not_mem_quoteUnit (c : CodeUnit) : unit '\n' ∉ quoteUnit c := by
  rw [quoteUnit]
  split
  · exact lf_not_mem_numbered c
  rcases Canonical.escapeUnit_cases c with
    ⟨letter, heq, -, -, hletter⟩ | ⟨-, heq⟩ | ⟨heq, -, -, hcontrol⟩
  · rw [heq]
    intro hmem
    rcases mem_cons.mp hmem with heq | hmem
    · exact absurd heq (by decide)
    rw [← mem_singleton.mp hmem] at hletter
    cases hletter
  · rw [heq]
    exact lf_not_mem_numbered c
  rw [heq, mem_singleton]
  rintro rfl
  exact hcontrol (by decide)

/-- So a quoted text has none. -/
theorem lf_not_mem_quote (text : Text) : unit '\n' ∉ quote text := by
  have hunits : ∀ text, unit '\n' ∉ quoteUnits text := by
    intro text
    fun_induction quoteUnits text with
    | case1 => rintro ⟨⟩
    | case2 c => exact lf_not_mem_quoteUnit c
    | case3 c d rest hpair ih =>
      obtain ⟨hc, hd⟩ := Bool.and_eq_true_iff.mp hpair
      intro hmem
      rcases mem_cons.mp hmem with rfl | hmem
      · cases hc
      rcases mem_cons.mp hmem with rfl | hmem
      · cases hd
      · exact ih hmem
    | case4 c d rest hpair ih =>
      intro hmem
      rcases mem_append.mp hmem with hmem | hmem
      · exact lf_not_mem_quoteUnit c hmem
      · exact ih hmem
  intro hmem
  rcases mem_cons.mp hmem with heq | hmem
  · exact absurd heq (by decide)
  rcases mem_append.mp hmem with hmem | hmem
  · exact hunits text hmem
  · exact absurd (mem_singleton.mp hmem) (by decide)

/-- What is joined by commas is commas and the texts. -/
theorem mem_join {texts : List Text} {c : CodeUnit}
    (h : c ∈ join texts) : c = unit ',' ∨ ∃ x ∈ texts, c ∈ x := by
  fun_induction join texts with
  | case1 => cases h
  | case2 x => exact .inr ⟨x, mem_singleton_self x, h⟩
  | case3 x y rest ih =>
    rcases mem_append.mp h with hx | h
    · exact .inr ⟨x, (.head _), hx⟩
    rcases mem_cons.mp h with hcomma | h
    · exact .inl hcomma
    rcases ih h with hcomma | ⟨z, hz, hc⟩
    · exact .inl hcomma
    · exact .inr ⟨z, .tail _ hz, hc⟩

/-! ## Records as JSON objects -/

/-- A value of a record, `null` if it is absent. -/
def jsonValue : Option Text → Tree
  | none => .null
  | some text => .str text

/-- A record as the object of its columns. -/
def recordTree (columns : List Column) (record : Column → Option Text) :
    Tree := .obj (membersOf columns (fun c => jsonValue (record c)))

section Json

variable (s : Script) {columns : List Column}
  {record : Column → Option Text}

/-- So a record is written on one line. -/
theorem lf_not_mem_stringify : unit '\n' ∉ s.stringify (recordTree columns record) := by
  have hmember : ∀ columns : List Column, ∀ x ∈ writeMembers ⟨quote, s.numberJson⟩
      (membersOf columns (fun c => jsonValue (record c))),
      unit '\n' ∉ x := by
    intro columns
    induction columns with
    | nil => exact nofun
    | cons c columns ih =>
      intro x hx
      rcases mem_cons.mp hx with rfl | hx
      · intro hmem
        rcases mem_append.mp hmem with hmem | hmem
        · exact lf_not_mem_quote _ hmem
        rcases mem_cons.mp hmem with heq | hmem
        · exact absurd heq (by decide)
        cases hvalue : record c with
        | none =>
          simp only [hvalue, jsonValue, writeTree] at hmem
          exact absurd hmem (by decide)
        | some text =>
          simp only [hvalue, jsonValue, writeTree] at hmem
          exact lf_not_mem_quote text hmem
      · exact ih x hx
  intro hmem
  rcases mem_cons.mp hmem with heq | hmem
  · exact absurd heq (by decide)
  rcases mem_append.mp hmem with hmem | hmem
  · rcases mem_join hmem with heq | ⟨x, hx, hc⟩
    · exact absurd heq (by decide)
    · exact hmember columns x hx hc
  · exact absurd (mem_singleton.mp hmem) (by decide)

theorem readBy_quote : (⟨quote, s.numberJson⟩ : Writer).ReadBy s.readNumber (fun _ => False) where
  quoted text := by
    refine ⟨quoteUnits text ++ [unit '"'], rfl, ?_⟩
    intro rest
    rw [append_assoc]
    exact readString_quoteUnits text rest
  isNumber _ h := h.elim
  reads _ h := h.elim

/-- The reader gives back the record that was written. -/
theorem parseJson_record (hnodup : columns.Nodup) :
    s.parseJson (s.stringify (recordTree columns record)) = .ok (recordTree columns record) := by
  have hkeys : ((membersOf columns (fun c => jsonValue (record c))).map Prod.fst).Nodup := by
    rw [membersOf, map_map]
    exact nodup_columnNames hnodup
  have hvalue : ∀ value : Option Text, Every (Readable (fun _ => False))
        (jsonValue value) := by
    intro value
    cases value with
    | none => exact ⟨nodup_nil, by rintro _ ⟨⟩⟩
    | some text => exact ⟨nodup_nil, by rintro _ ⟨⟩⟩
  have hevery : Every (Readable (fun _ => False))
      (recordTree columns record) := by
    refine every_obj.mpr ⟨⟨hkeys, by rintro _ ⟨⟩⟩, ?_⟩
    intro m hm
    obtain ⟨c, -, rfl⟩ := mem_map.mp hm
    exact hvalue (record c)
  rw [Script.parseJson, Script.stringify, parse_writeTree (readBy_quote s) hevery]

/-- A record's line is one row with its values. -/
theorem ndjsonLine_record (hnodup : columns.Nodup) (i : Nat) :
    ndjsonLine s i (s.stringify (recordTree columns record))
      = some (.ok ⟨i + 1, valuesOf columns (fun c =>
          valueText s (columnName c) (jsonValue (record c)))⟩) := by
  have htrim : trim (s.stringify (recordTree columns record))
      = s.stringify (recordTree columns record) :=
    trim_enclosed (by decide) (by decide) _
  have hne : s.stringify (recordTree columns record) ≠ [] :=
    nofun
  rw [ndjsonLine]
  simp only [htrim, if_neg hne, parseJson_record s hnodup]
  rw [recordTree]
  simp only [ndjsonValues_columns s _ hnodup]

/-- The lines of a file are its rows, numbered from 1. -/
theorem ndjsonRows_records (hnodup : columns.Nodup)
    (records : List (Column → Option Text)) (final : Bool) (i : Nat) :
    ndjsonRows s i (records.map (fun record =>
        s.stringify (recordTree columns record)) ++ (if final then [[]] else []))
      = ((records.zipIdx i).map (fun p => ⟨p.2 + 1, valuesOf columns (fun c =>
          valueText s (columnName c) (jsonValue (p.1 c)))⟩), []) := by
  induction records generalizing i with
  | nil => cases final <;> rfl
  | cons record records ih =>
    rw [map_cons, cons_append, ndjsonRows, ih, ndjsonLine_record s hnodup]
    rfl

end Json

/-! ## The encoding that is detected -/

variable {c : CodeUnit} {fileName rest : Text}

/-- The first character that counts is the one the file starts with. -/
theorem first_line_head (hc : isWhiteSpace c = false) (rest : Text) :
    (((splitLines (c :: rest)).find? (fun line => trim line ≠ [])).map
      trim |>.getD []).head? = some c := by
  have hlf : c ≠ unit '\n' := by
    rintro rfl
    cases hc
  obtain ⟨tail, lines, hlines⟩ := splitLines_cons hlf rest
  obtain ⟨trimmed, htrim⟩ := trim_cons hc tail
  have hne : decide (trim (c :: tail) ≠ []) = true := by
    rw [htrim]
    rfl
  rw [hlines, find?_cons, hne, Option.map_some, Option.getD_some, htrim]
  rfl

/-- A file that starts with no brace is CSV, whatever its neutral name. -/
theorem detect_csv (hname : isNdjsonName fileName = false) (hc : isWhiteSpace c = false)
    (hbrace : c ≠ unit '\x7b') : detectEncoding fileName (c :: rest) = .csv := by
  rw [detectEncoding, hname, if_neg Bool.false_ne_true]
  split
  · rfl
  simp only [first_line_head hc rest]
  exact if_neg (fun h => hbrace (Option.some.inj h))

/-- A file that starts with a brace is NDJSON. -/
theorem detect_ndjson (hname : isCsvName fileName = false) :
    detectEncoding fileName (unit '\x7b' :: rest) = .ndjson := by
  rw [detectEncoding, hname]
  split
  · rfl
  have hbrace : isWhiteSpace (unit '\x7b') = false := by decide
  simp only [first_line_head hbrace rest]
  rfl

theorem trim_ne_nil (hc : isWhiteSpace c = false) (rest : Text) : trim (c :: rest) ≠ [] := by
  obtain ⟨tail, htail⟩ := trim_cons hc rest
  rw [htail]
  exact cons_ne_nil _ _

theorem joined_cons (sep : Text) (c : CodeUnit) (text : Text) (texts : List Text) :
    ∃ rest, joined sep ((c :: text) :: texts) = c :: rest := by
  cases texts with
  | nil => exact ⟨text, rfl⟩
  | cons next texts => exact ⟨_, rfl⟩

/-- Rows no longer than the header are all read. -/
theorem csvRows_fit {header : List Text} {rows : List (List Text)} {i : Nat}
    (h : ∀ cells ∈ rows, cells.length ≤ header.length) :
    (csvRows header i rows).1 = (rows.zipIdx i).map
      (fun p => ⟨p.2 + 1, csvValues header p.1 []⟩) := by
  have hnone : (csvRows header i rows).2 = [] := by
    induction rows generalizing i with
    | nil => rfl
    | cons cells rows ih =>
      have hcells := h cells (.head _)
      rw [csvRows]
      simp only [if_neg (Nat.not_lt.mpr hcells)]
      exact ih (fun c hc => h c (.tail _ hc))
  exact (csvRows_eq hnone).1

/-! ## The two encodings of a list of records -/

/-- Logical records, and the choices an encoder has: the order of the header,
    which cells are quoted without need, a line end after the last line, and
    the names of the files. -/
structure Encodings where
  header : List Column
  records : List (Column → Option Text)
  distinct : header.Nodup
  covers : ∀ record ∈ records, ∀ c, record c ≠ none → c ∈ header
  requires : ∀ c, required c = true → c ∈ header ∧ ∀ record ∈ records, record c ≠ none
  nonEmpty : ∀ record ∈ records, ∀ c, record c ≠ some []
  csvName : Text
  ndjsonName : Text
  csvNamed : isNdjsonName csvName = false
  ndjsonNamed : isCsvName ndjsonName = false
  quoteName : Column → Bool
  quoteValue : Nat → Column → Bool
  csvFinal : Bool
  ndjsonFinal : Bool

/-- A cell, quoted if it has to be or if so chosen. -/
def cell (quote : Bool) (text : Text) : Cell marks where
  text := text
  quoted := quote || text.any (isMark marks)
  bare := by
    intro h c hc
    have hany := (Bool.or_eq_false_iff.mp h).2
    rw [← Bool.not_eq_true]
    exact any_eq_false.mp hany c hc

namespace Encodings

variable (e : Encodings)

/-- The header, as cells. -/
def headerRow : List (Cell marks) :=
  e.header.map (fun c => cell (e.quoteName c) (columnName c))

/-- The cells of a record, an absent value as an empty cell. -/
def recordRow (p : (Column → Option Text) × Nat) : List (Cell marks) :=
  e.header.map (fun c => cell (e.quoteValue p.2 c) ((p.1 c).getD []))

/-- The records as a CSV file. -/
def csvText : Text :=
  fileText (e.headerRow :: e.records.zipIdx.map e.recordRow) e.csvFinal

/-- One object on each line, an absent value as `null`. -/
def ndjsonText (s : Script) : Text :=
  linesText (e.records.map (fun record => s.stringify (recordTree e.header record))) e.ndjsonFinal

/-- Both parse to one row for each record, and the rows say the same of every
    column. -/
def SameMeaning (s : Script) : Prop :=
  let csv := (parseImportFile s e.csvName e.csvText).rows
  let ndjson := (parseImportFile s e.ndjsonName (e.ndjsonText s)).rows
  csv.length = e.records.length ∧ ndjson.length = e.records.length
    ∧ csv.map reading = ndjson.map reading

/-- Every text is trimmed, and no column of the header that may hold JSON is
    absent in a record. -/
def Plain : Prop :=
  ∀ record ∈ e.records, ∀ c ∈ e.header,
    match record c with
    | some text => trim text = text
    | none => keepsJson (columnName c) = false

/-! ### The CSV file -/

/-- The two required columns are in the header. -/
theorem two_le_header : 2 ≤ e.header.length := by
  have hsub : [Column.sellerPublicKey, Column.amount] ⊆ e.header := by
    intro c hc
    rcases mem_cons.mp hc with rfl | hc
    · exact (e.requires _ rfl).1
    rw [mem_singleton.mp hc]
    exact (e.requires _ rfl).1
  exact (subperm_of_subset (by decide) hsub).length_le

/-- So no row of the file is taken for a blank line. -/
theorem kept_of_length {row : List (Cell marks)}
    (h : row.length = e.header.length) : Kept row := by
  have htwo := e.two_le_header
  constructor
  · rintro rfl
    rw [length_nil] at h
    omega
  intro htexts
  have hlength := congrArg length htexts
  rw [texts, length_map, length_singleton] at hlength
  omega

/-- The CSV parser gives back the cells that were written. -/
theorem parseCsv_csvText : parseCsv e.csvText = (e.header.map columnName
      :: e.records.map (fun record => e.header.map (fun c => (record c).getD [])), false) := by
  have hkept : ∀ row ∈ e.headerRow :: e.records.zipIdx.map e.recordRow, Kept row := by
    intro row hrow
    rcases mem_cons.mp hrow with rfl | hrow
    · exact e.kept_of_length (length_map _)
    obtain ⟨p, -, rfl⟩ := mem_map.mp hrow
    exact e.kept_of_length (length_map _)
  have hheader : texts e.headerRow = e.header.map columnName := by
    rw [texts, headerRow, map_map]
    rfl
  have hrecord : texts ∘ e.recordRow
      = (fun record => e.header.map (fun c => (record c).getD [])) ∘ Prod.fst := by
    funext p
    show texts (e.recordRow p) = _
    rw [texts, recordRow, map_map]
    rfl
  rw [csvText, parseCsv, parse_fileText e.csvFinal hkept, map_cons,
    hheader, map_map, hrecord, ← map_map, zipIdx_map_fst]

/-- The CSV file starts with no blank and no brace. -/
theorem csvText_head : ∃ c rest, e.csvText = c :: rest
    ∧ isWhiteSpace c = false ∧ c ≠ unit '\x7b' := by
  obtain ⟨first, others, hheader⟩ := exists_cons_of_length_pos
    (show 0 < e.header.length from Nat.lt_of_lt_of_le (by omega) e.two_le_header)
  obtain ⟨-, -, -, u, name, hname, hu, hbrace⟩ := columnName_plain first
  have hwrite : ∃ c text, (cell (e.quoteName first) (columnName first)).write
      = c :: text ∧ isWhiteSpace c = false ∧ c ≠ unit '\x7b' := by
    rw [Cell.write]
    split
    · exact ⟨unit '"', _, rfl, by decide, by decide⟩
    · exact ⟨u, name, hname, hu, hbrace⟩
  obtain ⟨c, text, hcell, hc, hne⟩ := hwrite
  obtain ⟨row, hrow⟩ := joined_cons [unit ','] c text
    ((others.map (fun c => cell (e.quoteName c) (columnName c))).map Cell.write)
  have hheaderText : rowText e.headerRow = c :: row := by
    rw [headerRow, hheader, map_cons, rowText, map_cons, hcell]
    exact hrow
  obtain ⟨file, hfile⟩ := joined_cons [unit '\r', unit '\n'] c row
    ((e.records.zipIdx.map e.recordRow).map rowText)
  refine ⟨c, file ++ if e.csvFinal then [marks.cr, marks.lf] else [], ?_, hc, hne⟩
  rw [csvText, fileText, map_cons, hheaderText]
  show joined [unit '\r', unit '\n'] _ ++ _ = _
  rw [hfile]
  rfl

/-- The header has every required column and no unknown one. -/
theorem columnErrors_header {seen : List Text} (h : ∀ k, k ∈ seen ↔ k ∈ e.header.map columnName) :
    columnErrors seen = [] := by
  refine columnErrors_eq_nil ?_ ?_
  · intro column hcolumn
    obtain ⟨c, -, rfl⟩ := mem_map.mp ((h column).mp hcolumn)
    exact mem_map_of_mem (mem_importColumns c)
  intro c hc
  exact (h _).mpr (mem_map_of_mem (e.requires c hc).1)

/-- The CSV reading of a record is its trimmed values. -/
theorem reading_csv (s : Script) :
    (parseImportFile s e.csvName e.csvText).rows.length = e.records.length
      ∧ (parseImportFile s e.csvName e.csvText).rows.map reading
        = e.records.map (fun record c => trim ((record c).getD [])) := by
  have htrim : (e.header.map columnName).map trim = e.header.map columnName := by
    rw [map_map]
    exact map_congr_left (fun c _ => (columnName_plain c).1)
  have hduplicate := duplicateErrors_eq_nil (nodup_columnNames e.distinct)
    (fun c _ => (not_mem_nil : c ∉ ([] : List Text)))
  have hcolumns : columnErrors ((e.header.map columnName).foldl addSeen []) = [] := by
    refine e.columnErrors_header (fun k => ?_)
    rw [mem_foldl_addSeen]
    exact or_iff_right not_mem_nil
  have hfits : ∀ cells ∈ e.records.map (fun record =>
      e.header.map (fun c => (record c).getD [])),
      cells.length ≤ (e.header.map columnName).length := by
    intro cells hcells
    obtain ⟨record, -, rfl⟩ := mem_map.mp hcells
    rw [length_map, length_map]
  have hrows : (parseImportFile s e.csvName e.csvText).rows = ((e.records.map (fun record =>
          e.header.map (fun c => (record c).getD []))).zipIdx 1).map
          (fun p => ⟨p.2 + 1, csvValues (e.header.map columnName) p.1 []⟩) := by
    obtain ⟨c, rest, htext, hc, hbrace⟩ := e.csvText_head
    have hcsv : detectEncoding e.csvName e.csvText = .csv := by
      rw [htext]
      exact detect_csv e.csvNamed hc hbrace
    have hcontent : trim e.csvText ≠ [] := by
      rw [htext]
      exact trim_ne_nil hc rest
    rw [parseImportFile, if_neg hcontent, hcsv]
    show (parseCsvText e.csvText).rows = _
    rw [parseCsvText, e.parseCsv_csvText]
    simp only [htrim, hduplicate, hcolumns, append_nil, ne_eq, not_true_eq_false, if_false]
    exact csvRows_fit hfits
  rw [hrows]
  constructor
  · simp
  rw [zipIdx_map, map_map, map_map]
  have hvalues : ∀ p ∈ e.records.zipIdx 1, reading ⟨p.2 + 1, csvValues (e.header.map columnName)
        (e.header.map (fun c => (p.1 c).getD [])) []⟩
      = fun c => trim ((p.1 c).getD []) := by
    intro p hp
    have hmem : p.1 ∈ e.records := fst_mem_of_mem_zipIdx hp
    funext c
    rw [csvValues_columns (fun c => (p.1 c).getD []) e.distinct, reading_valuesOf]
    split
    · rfl
    rename_i hc
    have hnone : p.1 c = none := by
      by_contra hsome
      exact hc (e.covers p.1 hmem c hsome)
    rw [hnone]
    rfl
  calc (e.records.zipIdx 1).map _ = (e.records.zipIdx 1).map (fun p c => trim ((p.1 c).getD [])) :=
        map_congr_left hvalues
    _ = ((e.records.zipIdx 1).map Prod.fst).map (fun record c => trim ((record c).getD [])) := by
        rw [map_map]
        rfl
    _ = _ := by rw [zipIdx_map_fst]

/-! ### The NDJSON file -/

/-- The value of a record's column as the NDJSON reader keeps it. -/
def kept (c : Column) : Option Text → Text
  | some text => text
  | none => if keepsJson (columnName c) then ascii "null" else []

/-- The reader keeps a text, and of `null` what the column says. -/
theorem valueText_jsonValue (s : Script) (c : Column) (value : Option Text) :
    valueText s (columnName c) (jsonValue value) = kept c value := by
  cases value with
  | some text =>
    show (if keepsJson (columnName c) = true then text else text) = text
    exact ite_self text
  | none => rfl

/-- The columns seen in the rows are those of the header. -/
theorem mem_seenColumns {rows : List RawImportRow} {k : Text}
    (h : ∀ row ∈ rows, keys row.values = e.header.map columnName) (hne : rows ≠ []) :
    k ∈ seenColumns rows ↔ k ∈ e.header.map columnName := by
  have hseen : ∀ (rows : List RawImportRow) (seen : List Text),
      (∀ row ∈ rows, keys row.values = e.header.map columnName) →
      (k ∈ rows.foldl (fun seen row => (keys (ownOrder row.values)).foldl addSeen seen) seen
        ↔ k ∈ seen ∨ rows ≠ [] ∧ k ∈ e.header.map columnName) := by
    intro rows
    induction rows with
    | nil =>
      intro seen _
      exact (or_iff_left (fun h => h.1 rfl)).symm
    | cons row rows ih =>
      intro seen hrows
      have hkeys := hrows row (.head _)
      have hplain : ∀ m ∈ row.values, arrayIndex m.1 = none := by
        intro m hm
        have hmem : m.1 ∈ keys row.values := mem_map_of_mem hm
        rw [hkeys] at hmem
        obtain ⟨c, -, hc⟩ := mem_map.mp hmem
        rw [← hc]
        exact (columnName_plain c).2.2.1
      rw [foldl_cons, ih _ (fun r hr => hrows r (.tail _ hr)),
        ownOrder_plain hplain, hkeys, mem_foldl_addSeen]
      have hcons : row :: rows ≠ [] := cons_ne_nil _ _
      tauto
  rw [seenColumns, hseen rows [] h]
  constructor
  · rintro (hnil | hmem)
    · exact absurd hnil not_mem_nil
    · exact hmem.2
  · exact fun hmem => .inr ⟨hne, hmem⟩

/-- The NDJSON reading of a record is its values as they are. -/
theorem reading_ndjson (s : Script) :
    (parseImportFile s e.ndjsonName (e.ndjsonText s)).rows.length = e.records.length
      ∧ (parseImportFile s e.ndjsonName (e.ndjsonText s)).rows.map reading
        = e.records.map (fun record c =>
          if c ∈ e.header then kept c (record c) else []) := by
  cases hrecords : e.records with
  | nil =>
    have hblank : trim (e.ndjsonText s) = [] := by
      rw [ndjsonText, hrecords]
      cases e.ndjsonFinal with
      | true => rfl
      | false => rfl
    rw [parseImportFile, if_pos hblank]
    exact ⟨rfl, rfl⟩
  | cons record records =>
    rw [← hrecords]
    have hne : e.records ≠ [] := by
      rw [hrecords]
      exact cons_ne_nil _ _
    have hrows : ndjsonRows s 0 (splitLines (e.ndjsonText s))
        = ((e.records.zipIdx 0).map (fun p => ⟨p.2 + 1, valuesOf e.header
          (fun c => kept c (p.1 c))⟩), []) := by
      have hlines : ∀ line ∈ e.records.map (fun record =>
          s.stringify (recordTree e.header record)), unit '\n' ∉ line := by
        intro line hline
        obtain ⟨r, -, rfl⟩ := mem_map.mp hline
        exact lf_not_mem_stringify s
      rw [ndjsonText, splitLines_linesText e.ndjsonFinal
        (fun h => hne (map_eq_nil_iff.mp h)) hlines,
        ndjsonRows_records s e.distinct]
      simp only [valueText_jsonValue]
    have hparsed : (parseImportFile s e.ndjsonName (e.ndjsonText s)).rows
        = (e.records.zipIdx 0).map (fun p => ⟨p.2 + 1, valuesOf e.header
          (fun c => kept c (p.1 c))⟩) := by
      obtain ⟨rest, htext⟩ : ∃ rest, e.ndjsonText s = unit '\x7b' :: rest := by
        rw [ndjsonText, hrecords, map_cons]
        obtain ⟨rest, hrest⟩ := joined_cons [unit '\n'] (unit '\x7b')
          (join (writeMembers ⟨quote, s.numberJson⟩ (membersOf e.header
              (fun c => jsonValue (record c)))) ++ [unit '\x7d'])
          (records.map (fun record => s.stringify (recordTree e.header record)))
        exact ⟨rest ++ (if e.ndjsonFinal then [unit '\n'] else []), congrArg (· ++ _) hrest⟩
      have hndjson : detectEncoding e.ndjsonName (e.ndjsonText s) = .ndjson := by
        rw [htext]
        exact detect_ndjson e.ndjsonNamed
      have hcontent : trim (e.ndjsonText s) ≠ [] := by
        rw [htext]
        exact trim_ne_nil (by decide) rest
      have hcolumns : columnErrors (seenColumns
          ((e.records.zipIdx 0).map (fun p => ⟨p.2 + 1, valuesOf e.header
            (fun c => kept c (p.1 c))⟩))) = [] := by
        refine e.columnErrors_header (fun k => e.mem_seenColumns ?_ ?_)
        · intro row hrow
          obtain ⟨p, -, rfl⟩ := mem_map.mp hrow
          exact keys_valuesOf _ _
        rw [hrecords]
        exact cons_ne_nil _ _
      rw [parseImportFile, if_neg hcontent, hndjson]
      show (parseNdjsonText s (e.ndjsonText s)).rows = _
      rw [parseNdjsonText, hrows]
      simp only [hcolumns, append_nil, ne_eq, not_true_eq_false, if_false]
    rw [hparsed]
    constructor
    · simp
    rw [map_map]
    calc (e.records.zipIdx 0).map _ = (e.records.zipIdx 0).map (fun p c =>
            if c ∈ e.header then kept c (p.1 c) else []) := by
          refine map_congr_left (fun p _ => funext (fun c => ?_))
          exact reading_valuesOf _ _ _
      _ = ((e.records.zipIdx 0).map Prod.fst).map (fun record c =>
            if c ∈ e.header then kept c (record c) else []) := by
          rw [map_map]
          rfl
      _ = _ := by rw [zipIdx_map_fst]

end Encodings

/-- **ONE MEANING**: the two encodings of a list of records parse to the same
    values exactly if every text is trimmed and no column that may hold JSON is
    absent in a record. -/
theorem sameMeaning_iff (s : Script) (e : Encodings) : e.SameMeaning s ↔ e.Plain := by
  obtain ⟨hcsv, hcsvReading⟩ := e.reading_csv s
  obtain ⟨hndjson, hndjsonReading⟩ := e.reading_ndjson s
  rw [Encodings.SameMeaning]
  simp only [hcsv, hndjson, true_and]
  rw [hcsvReading, hndjsonReading, map_inj_left, Encodings.Plain]
  refine forall₂_congr (fun record hrecord => ?_)
  rw [funext_iff]
  constructor
  · intro hsame c hc
    have hvalue := hsame c
    rw [if_pos hc] at hvalue
    cases htext : record c with
    | some text =>
      rw [htext] at hvalue
      exact hvalue
    | none =>
      rw [htext] at hvalue
      rw [← Bool.not_eq_true]
      intro hjson
      rw [Encodings.kept, if_pos hjson] at hvalue
      exact absurd hvalue (by decide)
  · intro hplain c
    split
    · rename_i hc
      have hvalue := hplain c hc
      cases htext : record c with
      | some text =>
        rw [htext] at hvalue
        exact hvalue
      | none =>
        rw [htext] at hvalue
        rw [Encodings.kept, if_neg (by rw [hvalue]; decide)]
        rfl
    · rename_i hc
      have hnone : record c = none := by
        by_contra hsome
        exact hc (e.covers record hrecord c hsome)
      rw [hnone]
      rfl

/-- A record of the two required columns, with a blank before a value. -/
def blankRecord : Column → Option Text
  | .sellerPublicKey => some (ascii " G")
  | .amount => some (ascii "5")
  | _ => none

/-- The record as a file of either kind. -/
def blankEncodings : Encodings where
  header := [.sellerPublicKey, .amount]
  records := [blankRecord]
  distinct := by decide
  covers := by
    intro record hrecord c hc
    rw [mem_singleton.mp hrecord] at hc
    cases c <;> first | exact absurd rfl hc | decide
  requires := by
    intro c
    cases c <;> decide
  nonEmpty := by
    intro record hrecord c
    rw [mem_singleton.mp hrecord]
    cases c <;> decide
  csvName := ascii "f.csv"
  ndjsonName := ascii "f.ndjson"
  csvNamed := by decide +kernel
  ndjsonNamed := by decide +kernel
  quoteName := fun _ => false
  quoteValue := fun _ _ => false
  csvFinal := true
  ndjsonFinal := true

/-- The CSV reader drops the blank, the NDJSON reader keeps it. -/
theorem blank_read_apart : ¬ blankEncodings.SameMeaning plainScript := by
  intro hsame
  have hreading := hsame.2.2
  rw [(blankEncodings.reading_csv plainScript).2,
    (blankEncodings.reading_ndjson plainScript).2] at hreading
  have hvalue := congrFun (cons.inj hreading).1 .sellerPublicKey
  exact absurd hvalue (by decide)

end ImportFormat
