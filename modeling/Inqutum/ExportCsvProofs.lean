import Inqutum.ImportFormatProofs

/-!
# Exported records as comma separated values

`renderCsv` writes a header and one row for each record.  A text that a
spreadsheet would take for a formula gets an apostrophe in front; a cell
with a mark of the format is put between quotes.  The reader of the import
side gives back what is shown in the cells (`parseCsv_renderCsv`).
-/

namespace Exports

open JsonText (CodeUnit Text unit ascii)
open ImportFormat (marks parseCsv)
open List Csv

inductive ExportField where
  | id
  | memo
  | status
  | amount
  | assetCode
  | assetIssuer
  | description
  | createdAt
  | expiresAt
  | paidAt
  | paymentTxHash
  deriving DecidableEq

/-- `EXPORT_FIELDS`. -/
def exportFields : List ExportField :=
  [.id, .memo, .status, .amount, .assetCode, .assetIssuer, .description,
    .createdAt, .expiresAt, .paidAt, .paymentTxHash]

def ExportField.name : ExportField → Text
  | .id => ascii "id"
  | .memo => ascii "memo"
  | .status => ascii "status"
  | .amount => ascii "amount"
  | .assetCode => ascii "assetCode"
  | .assetIssuer => ascii "assetIssuer"
  | .description => ascii "description"
  | .createdAt => ascii "createdAt"
  | .expiresAt => ascii "expiresAt"
  | .paidAt => ascii "paidAt"
  | .paymentTxHash => ascii "paymentTxHash"

inductive ExportValue where
  | null
  | text (value : Text)
  | number (value : JsNumber)

abbrev ExportRecord := ExportField → ExportValue

/-! ## Writing -/

/-- `FORMULA_TRIGGER.test(text)`. -/
def isFormula (text : Text) : Bool :=
  match text with
  | [] => false
  | c :: _ => decide (c ∈ [unit '=', unit '+', unit '-', unit '@', unit '\t', unit '\r'])

/-- The value as text, `null` as the empty text. -/
def cellText : ExportValue → Text
  | .null => []
  | .text value => value
  | .number value => ascii value.toText

/-- What the cell shows: a text that looks like a formula is guarded by an
    apostrophe. -/
def shownText : ExportValue → Text
  | .text value => if isFormula value then unit '\'' :: value else value
  | value => cellText value

/-- `/[",\r\n]/.test(text)`. -/
def needsQuotes (text : Text) : Bool := text.any (isMark marks)

def csvCell (value : ExportValue) : Text :=
  match value with
  | .null => []
  | value =>
    let text := shownText value
    if needsQuotes text then
      unit '"' :: (escape marks text ++ [unit '"'])
    else text

/-- The cells of a record, between commas. -/
def csvRow (record : ExportRecord) : Text :=
  joined [unit ','] (exportFields.map (fun f => csvCell (record f)))

/-- `ExportService.renderCsv`. -/
def renderCsv (records : List ExportRecord) : Text :=
  let header := joined [unit ','] (exportFields.map ExportField.name)
  joined [unit '\r', unit '\n'] (header :: records.map csvRow) ++ [unit '\r', unit '\n']

/-! ## Cells of the format -/

def cellOf (value : ExportValue) : Cell marks where
  text := shownText value
  quoted := needsQuotes (shownText value)
  bare := fun h c hc => by
    have hall := any_eq_false.mp h c hc
    rwa [Bool.not_eq_true] at hall

theorem write_cellOf (value : ExportValue) : (cellOf value).write = csvCell value := by
  cases value with
  | null => rfl
  | text value => rfl
  | number value => rfl

theorem mem_exportFields (f : ExportField) : f ∈ exportFields := by
  cases f <;> decide

theorem isMark_name (f : ExportField) : ∀ c ∈ f.name, isMark marks c = false := by
  have hnames : exportFields.all (fun f =>
      f.name.all (fun c => !isMark marks c)) = true := by decide +kernel
  intro c hc
  have hname := all_eq_true.mp hnames f (mem_exportFields f)
  have hunit := all_eq_true.mp hname c hc
  rwa [Bool.not_eq_true'] at hunit

def headerCell (f : ExportField) : Cell marks where
  text := f.name
  quoted := false
  bare := fun _ => isMark_name f

def headerRow : List (Cell marks) := exportFields.map headerCell

def cellsOf (record : ExportRecord) : List (Cell marks) :=
  exportFields.map (fun f => cellOf (record f))

theorem rowText_cellsOf (record : ExportRecord) : rowText (cellsOf record) = csvRow record := by
  rw [rowText, cellsOf, csvRow, map_map]
  congr 1
  exact map_congr_left (fun f _ => write_cellOf (record f))

theorem renderCsv_eq (records : List ExportRecord) : renderCsv records
      = fileText (headerRow :: records.map cellsOf) true := by
  have hrows : records.map csvRow = (records.map cellsOf).map rowText := by
    rw [map_map]
    exact map_congr_left (fun r _ => (rowText_cellsOf r).symm)
  rw [renderCsv, hrows]
  rfl

theorem kept_cellsOf (record : ExportRecord) : Kept (cellsOf record) :=
  ⟨nofun, fun h => (nomatch congrArg length h)⟩

theorem kept_headerRow : Kept headerRow :=
  ⟨nofun, fun h => (nomatch congrArg length h)⟩

/-- What a reader is to find: the value as text, behind an apostrophe if it is
    a text that starts with `=`, `+`, `-`, `@`, a tab or a CR. -/
def guardedText : ExportValue → Text
  | .null => []
  | .number value => ascii value.toText
  | .text [] => []
  | .text (first :: rest) =>
    if first ∈ ascii "=+-@\t\r" then unit '\'' :: first :: rest else first :: rest

theorem shownText_eq (v : ExportValue) : shownText v = guardedText v := by
  rcases v with _ | (_ | ⟨first, rest⟩) | x
  · rfl
  · rfl
  · exact if_congr decide_eq_true_iff rfl rfl
  · rfl

/-- The texts of a row, in the order of the fields. -/
def shownRow (record : ExportRecord) : List Text :=
  exportFields.map (fun f => guardedText (record f))

theorem texts_cellsOf (record : ExportRecord) : texts (cellsOf record) = shownRow record := by
  rw [texts, cellsOf, map_map, shownRow, ← funext shownText_eq]
  rfl

/-! ## Reading back -/

theorem csvRow_inj {r r' : ExportRecord} (h : csvRow r = csvRow r') :
    ∀ f, guardedText (r f) = guardedText (r' f) := by
  have hread : ∀ record : ExportRecord, parseCsv (csvRow record) = ([shownRow record], false) := by
    intro record
    have hparse := @Csv.parse_fileText _ _ marks [cellsOf record] false (fun row hrow => by
        rw [mem_singleton.mp hrow]
        exact kept_cellsOf record)
    rw [map_singleton, texts_cellsOf] at hparse
    rw [← hparse, parseCsv, ← rowText_cellsOf]
    congr 1
    exact (append_nil _).symm
  have hrow : shownRow r = shownRow r' := by
    have hboth := hread r
    rw [h, hread r'] at hboth
    exact (cons.inj (congrArg Prod.fst hboth)).1.symm
  intro f
  exact map_inj_left.mp hrow f (mem_exportFields f)

/-- One value is read behind an apostrophe, and the other is that text. -/
def Guards (v w : ExportValue) : Prop :=
  guardedText v = unit '\'' :: cellText v ∧ cellText w = guardedText v

theorem cellText_of_guardedText {v w : ExportValue} (h : guardedText v = guardedText w) :
    cellText v = cellText w ∨ Guards v w ∨ Guards w v := by
  have hcases : ∀ v, guardedText v = cellText v ∨ guardedText v = unit '\'' :: cellText v := by
    rintro (_ | (_ | ⟨first, rest⟩) | x)
    · exact .inl rfl
    · exact .inl rfl
    · by_cases hfirst : first ∈ ascii "=+-@\t\r"
      · exact .inr (if_pos hfirst)
      · exact .inl (if_neg hfirst)
    · exact .inl rfl
  rcases hcases v with hv | hv
  · rcases hcases w with hw | hw
    · exact .inl (by rw [← hv, h, hw])
    · exact .inr (.inr ⟨hw, by rw [← hv, h]⟩)
  rcases hcases w with hw | hw
  · exact .inr (.inl ⟨hv, by rw [← hw, h]⟩)
  rw [hv, hw] at h
  exact .inl (cons.inj h).2

/-- The reader closes every quote and gives the header and one row for each
    record. -/
theorem rows_renderCsv (records : List ExportRecord) : parseCsv (renderCsv records)
    = (exportFields.map ExportField.name :: records.map shownRow, false) := by
  have hkept : ∀ row ∈ headerRow :: records.map cellsOf, Kept row := by
    intro row hrow
    rcases mem_cons.mp hrow with rfl | hrow
    · exact kept_headerRow
    obtain ⟨record, -, rfl⟩ := mem_map.mp hrow
    exact kept_cellsOf record
  rw [renderCsv_eq, parseCsv, parse_fileText true hkept, map_cons, map_map]
  have hrows : records.map (texts ∘ cellsOf) = records.map shownRow :=
    map_congr_left (fun r _ => texts_cellsOf r)
  rw [hrows]
  rfl

/-- **THE EXPORT IS READABLE**: the reader closes every quote and gives the
    header and one row for each record, with the texts its cells show; and
    records with the same row have the same texts, up to that apostrophe. -/
theorem parseCsv_renderCsv (records : List ExportRecord) : parseCsv (renderCsv records)
        = (exportFields.map ExportField.name :: records.map shownRow, false)
      ∧ ∀ r r' : ExportRecord, csvRow r = csvRow r' → ∀ f,
        cellText (r f) = cellText (r' f) ∨ Guards (r f) (r' f) ∨ Guards (r' f) (r f) :=
  ⟨rows_renderCsv records, fun _ _ h f => cellText_of_guardedText (csvRow_inj h f)⟩

example : csvCell (.text (ascii "=a,\"b\"\n")) = ascii "\"'=a,\"\"b\"\"\n\"" := by decide +kernel

end Exports
