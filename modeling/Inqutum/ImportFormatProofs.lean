import Inqutum.CsvLineProofs
import Inqutum.JsonStringifyProofs
import Inqutum.ScriptValueProofs
import Inqutum.ImportPlanProofs

/-!
# The import format

An import file is comma separated values with a header, or one JSON object
on each line.  Both come out as rows of named texts with the line they are
reported under, or as the errors of the file.

Texts are lists of code units.  What `JSON.parse` makes of a number, how a
number is written and what a syntax error says are parameters.
-/

namespace ImportFormat

open JsonText (CodeUnit Text Tree Number unit ascii)
open Canonical (trim)
open Imports (Column)
open List

/-- What the script engine supplies. -/
structure Script where
  /-- The number a JSON token denotes. -/
  readNumber : Text → Option Number
  /-- `String(number)`. -/
  numberText : Number → Text
  /-- `JSON.stringify(number)`. -/
  numberJson : Number → Text
  /-- The message of the error `JSON.parse` throws on a text. -/
  syntaxError : Text → Text

def Script.parseJson (s : Script) (text : Text) : Except Text Tree :=
  match JsonText.parse s.readNumber text with
  | some value => .ok value
  | none => .error (s.syntaxError text)

def Script.stringify (s : Script) (value : Tree) : Text :=
  JsonText.writeTree ⟨Stringify.quote, s.numberJson⟩ value

inductive ImportEncoding where
  | csv
  | ndjson
  deriving DecidableEq

/-- The columns of `IMPORT_COLUMNS`, in its order. -/
def importColumns : List Column :=
  [.externalId, .sellerPublicKey, .amount, .assetCode, .assetIssuer,
    .sellerName, .sellerEmail, .customerName, .customerEmail, .description,
    .expiresInDays, .createdAt, .expiresAt, .memo, .metadata]

def required : Column → Bool
  | .sellerPublicKey => true
  | .amount => true
  | _ => false

def columnName (c : Column) : Text := ascii c.name

/-- `KNOWN_COLUMNS`. -/
def knownColumns : List Text := importColumns.map columnName

/-- `REJECTED_COLUMNS`. -/
def rejectedColumns : List (Text × Text) :=
  [("status", "lifecycle status is decided by the payment flow, not by a data file"),
    ("paidAt", "a payment timestamp is evidence; it cannot be asserted by an import"),
    ("paymentTxHash", "a transaction hash is evidence; it cannot be asserted by an import"),
    ("payerPublicKey", "the payer is recorded when settlement is observed"),
    ("payerName", "the payer is recorded when settlement is observed"),
    ("payerEmail", "the payer is recorded when settlement is observed"),
    ("id", "server-assigned; externalId is the identifier an import may supply"),
    ("version", "server-assigned optimistic concurrency counter")].map
    (fun entry => (ascii entry.1, ascii entry.2))

/-- The own properties of an object of texts, in the order they were made. -/
abbrev Values := List (Text × Text)

/-- `values[key] = text`.  The prototype is no property: a text assigned to it
    is dropped. -/
def setValue (key text : Text) (values : Values) : Values :=
  if key = ascii "__proto__" then values else define values
where
  define : Values → Values
    | [] => [(key, text)]
    | entry :: rest =>
      if entry.1 = key then (key, text) :: rest else entry :: define rest

def keys (values : Values) : List Text := values.map Prod.fst

structure RawImportRow where
  line : Nat
  values : Values
  deriving DecidableEq

structure ParseResult where
  rows : List RawImportRow
  errors : List Text
  header : List Text
  encoding : ImportEncoding

/-! ## Columns -/

/-- A set of texts in the order they were added. -/
def addSeen (seen : List Text) (column : Text) : List Text :=
  if column ∈ seen then seen else seen ++ [column]

def quotedColumn (column : Text) : Text :=
  ascii "column \"" ++ column ++ ascii "\""

/-- The errors of the columns that were seen: the rejected ones, the unknown
    ones, and the required ones that are missing. -/
def columnErrors (seen : List Text) : List Text :=
  (rejectedColumns.filter (fun entry => entry.1 ∈ seen)).map (fun entry =>
      quotedColumn entry.1 ++ ascii " is not importable: " ++ entry.2)
    ++ (seen.filter (fun column => column ∉ knownColumns)).map (fun column =>
      ascii "unknown " ++ quotedColumn column ++ ascii ": not part of the import format")
    ++ (importColumns.filter (fun c => required c && columnName c ∉ seen)).map (fun c =>
      ascii "missing required " ++ quotedColumn (columnName c))

/-! ## CSV -/

/-- The marks of the reader. -/
def marks : Csv.Marks CodeUnit where
  quote := unit '"'
  comma := unit ','
  cr := unit '\r'
  lf := unit '\n'
  distinct := by decide

/-- `parseCsv`: the rows, and `unterminatedQuote`. -/
def parseCsv (text : Text) : List (List Text) × Bool := Csv.parse marks text

/-- The errors of the header: its repeated columns. -/
def duplicateErrors : List Text → List Text → List Text
  | _, [] => []
  | seen, column :: rest =>
    (if column ∈ seen then
      [ascii "duplicate " ++ quotedColumn column ++ ascii " in header"]
    else []) ++ duplicateErrors (addSeen seen column) rest

/-- `values[column] = (cells[index] ?? '').trim()` for each column. -/
def csvValues : List Text → List Text → Values → Values
  | [], _, values => values
  | column :: header, cells, values =>
    csvValues header cells.tail (setValue column (trim (cells.head?.getD [])) values)

/-- The rows after the header, from row index `i`. -/
def csvRows (header : List Text) : Nat → List (List Text) → List RawImportRow × List Text
  | _, [] => ([], [])
  | i, cells :: rest =>
    let out := csvRows header (i + 1) rest
    if header.length < cells.length then
      (out.1, (ascii ("row " ++ Nat.repr (i + 1) ++ ": has "
        ++ Nat.repr cells.length ++ " fields but the header declares "
        ++ Nat.repr header.length)) :: out.2)
    else (⟨i + 1, csvValues header cells []⟩ :: out.1, out.2)

def parseCsvText (text : Text) : ParseResult :=
  match parseCsv text with
  | (_, true) => ⟨[], [ascii "malformed CSV: a quoted field is never closed"], [], .csv⟩
  | ([], false) => ⟨[], [ascii "file is empty: expected a header row"], [], .csv⟩
  | (first :: rest, false) =>
    let header := first.map trim
    let errors := duplicateErrors [] header ++ columnErrors (header.foldl addSeen [])
    if errors ≠ [] then ⟨[], errors, header, .csv⟩
    else
      let out := csvRows header 1 rest
      ⟨out.1, out.2, header, .csv⟩

/-! ## NDJSON -/

/-- `text.split('\n')`. -/
def splitLines : Text → List Text
  | [] => [[]]
  | c :: rest =>
    if c = unit '\n' then [] :: splitLines rest
    else
      match splitLines rest with
      | [] => [[c]]
      | line :: lines => (c :: line) :: lines

/-- The array index a key spells, if it does. -/
def arrayIndex (key : Text) : Option Nat :=
  if key ≠ [] ∧ key.all JsonText.isDigit ∧ (key = [unit '0'] ∨ key.head? ≠ some (unit '0')) then
    let n := key.foldl (fun n c => n * 10 + (c.val - 48)) 0
    if n < 2 ^ 32 - 1 then some n else none
  else none

/-- The order of own properties: array indices first, by size. -/
def ownOrder {V : Type} (members : List (Text × V)) : List (Text × V) :=
  ((members.filter (fun m => (arrayIndex m.1).isSome)).insertionSort
      (fun a b => (arrayIndex a.1).getD 0 ≤ (arrayIndex b.1).getD 0))
    ++ members.filter (fun m => (arrayIndex m.1).isNone)

/-- The columns an object or `null` is kept in as JSON text. -/
def keepsJson (key : Text) : Bool :=
  decide (key = columnName .metadata ∨ key = columnName .createdAt ∨ key = columnName .expiresAt)

section Ndjson

variable (s : Script)

/-- The text of a member. -/
def valueText (key : Text) (value : Tree) : Text :=
  if keepsJson key then
    match value with
    | .str text => text
    | value => s.stringify value
  else
    match value with
    | .null => []
    | .arr items => s.stringify (.arr items)
    | .obj members => s.stringify (.obj members)
    | .bool b => ascii (if b then "true" else "false")
    | .num x => s.numberText x
    | .str text => text

def ndjsonValues (members : List (Text × Tree)) : Values :=
  (ownOrder members).foldl (fun values m => setValue m.1 (valueText s m.1 m.2) values) []

/-- What one line gives: nothing if it is blank, an error, or a row. -/
def ndjsonLine (i : Nat) (line : Text) : Option (Except Text RawImportRow) :=
  let line := trim line
  let position := ascii ("row " ++ Nat.repr (i + 1) ++ ": ")
  if line = [] then none
  else
    match s.parseJson line with
    | .error message => some (.error (position ++ ascii "invalid JSON (" ++ message ++ ascii ")"))
    | .ok (.obj members) => some (.ok ⟨i + 1, ndjsonValues s members⟩)
    | .ok _ => some (.error (position ++ ascii "expected a JSON object"))

/-- The lines from index `i`: the rows, and the errors. -/
def ndjsonRows : Nat → List Text → List RawImportRow × List Text
  | _, [] => ([], [])
  | i, line :: rest =>
    let out := ndjsonRows (i + 1) rest
    match ndjsonLine s i line with
    | none => out
    | some (.ok row) => (row :: out.1, out.2)
    | some (.error message) => (out.1, message :: out.2)

def seenColumns (rows : List RawImportRow) : List Text :=
  rows.foldl (fun seen row => (keys (ownOrder row.values)).foldl addSeen seen) []

def parseNdjsonText (text : Text) : ParseResult :=
  let out := ndjsonRows s 0 (splitLines text)
  let header := seenColumns out.1
  let errors := out.2 ++ columnErrors header
  if errors ≠ [] then ⟨[], errors, header, .ndjson⟩
  else ⟨out.1, errors, header, .ndjson⟩

end Ndjson

/-! ## Files -/

def lowerUnit (c : CodeUnit) : CodeUnit :=
  if unit 'A' ≤ c ∧ c ≤ unit 'Z' then c + 32 else c

/-- `/suffix$/i.test(name)`, of a suffix in lower case. -/
def endsWith (suffix name : Text) : Bool :=
  suffix.isSuffixOf (name.map lowerUnit)

def isNdjsonName (fileName : Text) : Bool :=
  endsWith (ascii ".ndjson") fileName || endsWith (ascii ".jsonl") fileName

def isCsvName (fileName : Text) : Bool := endsWith (ascii ".csv") fileName

/-- The name decides; else whether the first line with content is an object. -/
def detectEncoding (fileName text : Text) : ImportEncoding :=
  if isNdjsonName fileName then .ndjson
  else if isCsvName fileName then .csv
  else
    let first := ((splitLines text).find? (fun line => trim line ≠ [])).map trim |>.getD []
    if first.head? = some (unit '\x7b') then .ndjson else .csv

def parseImportFile (s : Script) (fileName text : Text) : ParseResult :=
  if trim text = [] then ⟨[], [ascii "file is empty"], [], .csv⟩
  else
    match detectEncoding fileName text with
    | .ndjson => parseNdjsonText s text
    | .csv => parseCsvText text

/-! ## What the parts give -/

variable {values : Values} {text : Text} {s : Script}

theorem mem_keys_setValue {key text k : Text} :
    k ∈ keys (setValue key text values) ↔ (k = key ∧ k ≠ ascii "__proto__") ∨ k ∈ keys values := by
  have hdefine : ∀ values : Values, k ∈ keys (setValue.define key text values)
        ↔ k = key ∨ k ∈ keys values := by
    intro values
    induction values with
    | nil => simp [setValue.define, keys]
    | cons entry rest ih =>
      rw [setValue.define]
      split
      · rename_i hentry
        simp [keys, hentry]
      show k ∈ entry.1 :: keys (setValue.define key text rest) ↔ _
      rw [mem_cons, ih]
      show _ ↔ k = key ∨ k ∈ entry.1 :: keys rest
      rw [mem_cons]
      exact or_left_comm
  rw [setValue]
  split
  · rename_i hproto
    constructor
    · exact Or.inr
    rintro (⟨rfl, hne⟩ | h)
    · exact absurd hproto hne
    · exact h
  · rename_i hproto
    rw [hdefine]
    constructor
    · rintro (rfl | h)
      · exact .inl ⟨rfl, hproto⟩
      · exact .inr h
    rintro (⟨rfl, -⟩ | h)
    · exact .inl rfl
    · exact .inr h

theorem mem_keys_csvValues {header cells : List Text} {k : Text} :
    k ∈ keys (csvValues header cells values)
      ↔ (k ∈ header ∧ k ≠ ascii "__proto__") ∨ k ∈ keys values := by
  induction header generalizing cells values with
  | nil => simp [csvValues]
  | cons column header ih =>
    rw [csvValues, ih, mem_keys_setValue, mem_cons]
    tauto

theorem csvRows_eq {header : List Text} {rows : List (List Text)} {i : Nat}
    (h : (csvRows header i rows).2 = []) :
    (csvRows header i rows).1 = (rows.zipIdx i).map (fun p => ⟨p.2 + 1, csvValues header p.1 []⟩)
      ∧ ∀ cells ∈ rows, cells.length ≤ header.length := by
  induction rows generalizing i with
  | nil => exact ⟨rfl, nofun⟩
  | cons cells rest ih =>
    rw [csvRows] at h ⊢
    by_cases hlong : header.length < cells.length
    · simp only [if_pos hlong] at h
      cases h
    simp only [if_neg hlong] at h ⊢
    obtain ⟨hrows, hlengths⟩ := ih h
    rw [hrows, zipIdx_cons, map_cons]
    refine ⟨rfl, ?_⟩
    intro c hc
    rcases mem_cons.mp hc with rfl | hc
    · exact Nat.le_of_not_lt hlong
    · exact hlengths c hc

theorem parseCsvText_accepted (h : (parseCsvText text).errors = []) :
    ∃ first rest, parseCsv text = (first :: rest, false) ∧ duplicateErrors [] (first.map trim) = []
      ∧ columnErrors ((first.map trim).foldl addSeen []) = []
      ∧ (∀ cells ∈ rest, cells.length ≤ (first.map trim).length)
      ∧ parseCsvText text = ⟨(rest.zipIdx 1).map (fun p =>
          ⟨p.2 + 1, csvValues (first.map trim) p.1 []⟩), [], first.map trim, .csv⟩ := by
  rw [parseCsvText] at h ⊢
  split at h
  · cases h
  · cases h
  rename_i first rest hparse
  rw [hparse]
  simp only at h ⊢
  split at h
  · rename_i herrors
    exact absurd h herrors
  rename_i herrors
  rw [not_not, append_eq_nil_iff] at herrors
  have hnone : (csvRows (first.map trim) 1 rest).2 = [] := h
  obtain ⟨hrows, hlengths⟩ := csvRows_eq hnone
  refine ⟨first, rest, rfl, herrors.1, herrors.2, hlengths, ?_⟩
  rw [if_neg (by rw [herrors.1, herrors.2]; exact fun hne => hne rfl), hrows, hnone]

theorem parseNdjsonText_accepted (h : (parseNdjsonText s text).errors = []) :
    (ndjsonRows s 0 (splitLines text)).2 = []
      ∧ columnErrors (seenColumns (ndjsonRows s 0 (splitLines text)).1) = []
      ∧ parseNdjsonText s text = ⟨(ndjsonRows s 0 (splitLines text)).1, [],
          seenColumns (ndjsonRows s 0 (splitLines text)).1, .ndjson⟩ := by
  rw [parseNdjsonText] at h ⊢
  split at h
  · rename_i herrors
    exact absurd h herrors
  rename_i herrors
  rw [not_not, append_eq_nil_iff] at herrors
  refine ⟨herrors.1, herrors.2, ?_⟩
  rw [if_neg (by rw [herrors.1, herrors.2]; exact fun hne => hne rfl), herrors.1, herrors.2]
  rfl

theorem parseImportFile_accepted {fileName text : Text}
    (h : (parseImportFile s fileName text).errors = []) :
    (detectEncoding fileName text = .csv ∧ parseImportFile s fileName text = parseCsvText text)
      ∨ (detectEncoding fileName text = .ndjson
        ∧ parseImportFile s fileName text = parseNdjsonText s text) := by
  rw [parseImportFile] at h ⊢
  split at h
  · cases h
  rename_i hblank
  rw [if_neg hblank]
  cases detectEncoding fileName text with
  | csv => exact .inl ⟨rfl, rfl⟩
  | ndjson => exact .inr ⟨rfl, rfl⟩

end ImportFormat
