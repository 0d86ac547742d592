import Inqutum.ImportFormatProofs

/-!
# Planning what was parsed

The rows of an accepted file are handed to the planner.  It reads most
columns as absent or empty alike; of the external id it asks only whether
the cell is empty, and then for its length.  So it returns a plan, with one
row for each row of the file, exactly if every row names an external id
(`planned_iff`).  Of a CSV file that is a matter of the header, of an NDJSON
file one of each line.
-/

namespace ImportFormat

open JsonText (Text ascii)
open Canonical (trim)
open Imports (Column Platform ExistingInvoice OnError ImportPlan PlannedRow
  Claimed IdentityKey planRows planImport validateRow planValid)
open List Imports

structure AcceptedFile (s : Script) where
  fileName : Text
  text : Text
  accepted : (parseImportFile s fileName text).errors = []

namespace AcceptedFile

variable {s : Script}

def result (file : AcceptedFile s) : ParseResult :=
  parseImportFile s file.fileName file.text

/-- The columns a file names in each row: the header of a CSV file, the members
    of each line of an NDJSON file. -/
def NamesExternalId (file : AcceptedFile s) : Prop :=
  match file.result.encoding with
  | .csv => file.result.rows = [] ∨ columnName .externalId ∈ file.result.header
  | .ndjson => ∀ row ∈ file.result.rows, columnName .externalId ∈ keys row.values

end AcceptedFile

/-- A row as the planner reads it, of any reading of texts. -/
def toPlanner (decode : Text → String) (row : RawImportRow) : Imports.RawImportRow where
  line := row.line
  values := fun c => (row.values.lookup (columnName c)).map decode

/-! ## The columns of a row -/

theorem columnName_externalId : columnName .externalId ≠ ascii "__proto__" := by decide +kernel

theorem lookup_eq_none_iff {key : Text} {values : Values} :
    values.lookup key = none ↔ key ∉ keys values := by
  induction values with
  | nil => simp [keys]
  | cons entry rest ih =>
    have hkeys : keys (entry :: rest) = entry.1 :: keys rest := rfl
    rw [lookup_cons, hkeys, mem_cons, not_or]
    by_cases hkey : key = entry.1
    · simp [hkey]
    rw [beq_eq_false_iff_ne.mpr hkey]
    simp only [ih, hkey, not_false_eq_true, true_and]

theorem toPlanner_externalId {decode : Text → String} {row : RawImportRow} :
    (toPlanner decode row).values .externalId ≠ none
      ↔ columnName .externalId ∈ keys row.values := by
  rw [toPlanner, ne_eq, Option.map_eq_none_iff, lookup_eq_none_iff, not_not]

theorem names_iff {s : Script} (file : AcceptedFile s) :
    file.NamesExternalId ↔ ∀ row ∈ file.result.rows, columnName .externalId ∈ keys row.values := by
  rw [AcceptedFile.NamesExternalId]
  rcases parseImportFile_accepted file.accepted with ⟨-, hcsv⟩ | ⟨-, hnd⟩
  · have herrors : (parseCsvText file.text).errors = [] := by
      rw [← hcsv]
      exact file.accepted
    obtain ⟨first, rest, -, -, -, -, heq⟩ := parseCsvText_accepted herrors
    have hresult := hcsv.trans heq
    rw [AcceptedFile.result, hresult]
    have hcolumn : ∀ cells : List Text,
        columnName .externalId ∈ keys (csvValues (first.map trim) cells [])
          ↔ columnName .externalId ∈ first.map trim := by
      intro cells
      rw [mem_keys_csvValues, or_iff_left nofun, and_iff_left columnName_externalId]
    show ((rest.zipIdx 1).map _ = [] ∨ _) ↔ ∀ row ∈ (rest.zipIdx 1).map _, _
    rw [forall_mem_map]
    simp only [hcolumn]
    constructor
    · rintro (hnil | hnames) p hp
      · rw [map_eq_nil_iff.mp hnil] at hp
        cases hp
      · exact hnames
    intro hall
    cases hrest : rest.zipIdx 1 with
    | nil => exact .inl rfl
    | cons p tail => exact .inr (hall p (by rw [hrest]; exact (.head _)))
  · have herrors : (parseNdjsonText s file.text).errors = [] := by
      rw [← hnd]
      exact file.accepted
    obtain ⟨-, -, heq⟩ := parseNdjsonText_accepted herrors
    rw [AcceptedFile.result, hnd, heq]

/-! ## The planner -/

section Planner

variable {p : Platform}

theorem validateRow_returns {raw : Imports.RawImportRow} :
    (∃ verdict, validateRow p raw = .ok verdict) ↔ raw.values .externalId ≠ none := by
  rw [validateRow]
  cases raw.values .externalId with
  | none => exact iff_of_false (fun ⟨_, h⟩ => nomatch h) (fun h => h rfl)
  | some text =>
    refine iff_of_true ?_ nofun
    dsimp only
    split
    · split
      · exact ⟨_, rfl⟩
      · exact ⟨_, rfl⟩
    · exact ⟨_, rfl⟩

theorem planValid_line (byKey : InsertionMap IdentityKey ExistingInvoice) (claimed : Claimed)
    (row : ValidatedRow) (line : Nat) (now : Int) :
    (planValid byKey claimed row line now).1.line = line := by
  by_cases h : ∀ k ∈ identityKeys row, claimed.get k = none
  · rw [planValid_fresh h]
    exact freshRow_line
  obtain ⟨seen, hseen⟩ := planValid_duplicate h
  rw [hseen]
  rfl

theorem planRows_returns {byKey : InsertionMap IdentityKey ExistingInvoice} {clock : Nat → Int}
    {n : Nat} {claimed : Claimed} {raws : List Imports.RawImportRow} :
    ((∃ out, planRows p byKey clock n claimed raws = .ok out)
        ↔ ∀ raw ∈ raws, raw.values .externalId ≠ none)
      ∧ ∀ out, planRows p byKey clock n claimed raws = .ok out →
        out.map PlannedRow.line = raws.map Imports.RawImportRow.line := by
  induction raws generalizing n claimed with
  | nil =>
    constructor
    · exact iff_of_true ⟨[], rfl⟩ nofun
    intro out h
    cases h
    rfl
  | cons raw rest ih =>
    constructor
    · rw [forall_mem_cons, ← validateRow_returns (p := p)]
      constructor
      · rintro ⟨out, hout⟩
        rcases Imports.planRows_cons hout with
          ⟨errors, rows, hv, hrows, -⟩ | ⟨row, rows, hv, hrows, -⟩
        · exact ⟨⟨_, hv⟩, ih.1.mp ⟨rows, hrows⟩⟩
        · exact ⟨⟨_, hv⟩, ih.1.mp ⟨rows, hrows⟩⟩
      rintro ⟨⟨verdict, hv⟩, hrest⟩
      rw [planRows, hv]
      cases verdict with
      | error errors =>
        obtain ⟨rows, hrows⟩ := (@ih (n + 1) claimed).1.mpr hrest
        rw [hrows]
        exact ⟨_, rfl⟩
      | ok row =>
        obtain ⟨rows, hrows⟩ := (@ih (n + 1)
          (planValid byKey claimed row raw.line (clock n)).2).1.mpr hrest
        simp only [hrows]
        exact ⟨_, rfl⟩
    · intro out hout
      rcases Imports.planRows_cons hout with
        ⟨errors, rows, -, hrows, rfl⟩ | ⟨row, rows, -, hrows, rfl⟩
      · rw [map_cons, map_cons, ih.2 rows hrows]
      · rw [map_cons, map_cons, ih.2 rows hrows, planValid_line]

/-- **PLANNING**: of an accepted file the planner returns a plan, with one row
    for each row of the file in the same order and with the same line, exactly
    if the file names the external id in every row. -/
theorem planned_iff {s : Script} (file : AcceptedFile s) (p : Platform)
    (decode : Text → String) (existing : List ExistingInvoice)
    (onError : OnError) (clock : Nat → Int) :
    (∃ plan : ImportPlan, planImport p existing onError clock
          (file.result.rows.map (toPlanner decode)) = .ok plan
        ∧ plan.rows.map PlannedRow.line = file.result.rows.map RawImportRow.line)
      ↔ file.NamesExternalId := by
  have hreturns := @planRows_returns p (Imports.indexExisting existing) clock 0
    InsertionMap.empty (file.result.rows.map (toPlanner decode))
  have hrows : (∀ raw ∈ file.result.rows.map (toPlanner decode),
      raw.values .externalId ≠ none) ↔ file.NamesExternalId := by
    rw [names_iff, forall_mem_map]
    exact forall₂_congr (fun row _ => toPlanner_externalId)
  rw [← hrows, ← hreturns.1]
  constructor
  · rintro ⟨plan, hplan, -⟩
    exact ⟨plan.rows, Imports.planImport_rows hplan⟩
  rintro ⟨out, hout⟩
  refine ⟨_, by rw [planImport, hout]; rfl, ?_⟩
  show out.map PlannedRow.line = _
  rw [hreturns.2 out hout, map_map]
  rfl

/-- An engine that reads no numbers. -/
def plainScript : Script where
  readNumber := fun _ => none
  numberText := fun _ => []
  numberJson := fun _ => []
  syntaxError := fun _ => []

def requiredOnlyFile : AcceptedFile plainScript where
  fileName := ascii "f.csv"
  text := ascii "sellerPublicKey,amount\nG,5"
  accepted := by decide +kernel

theorem required_columns_throw (p : Platform) (decode : Text → String)
    (existing : List ExistingInvoice) (onError : OnError) (clock : Nat → Int) :
    planImport p existing onError clock (requiredOnlyFile.result.rows.map (toPlanner decode))
      = .error .readLengthOfUndefined := by
  have hrows : requiredOnlyFile.result.rows = [⟨2, [(ascii "sellerPublicKey", ascii "G"),
          (ascii "amount", ascii "5")]⟩] := by decide +kernel
  rw [hrows]
  rfl

/-- So planning is not total on accepted files. -/
theorem planning_not_total : ¬ ∀ (s : Script) (file : AcceptedFile s) (p : Platform)
      (decode : Text → String) (existing : List ExistingInvoice)
      (onError : OnError) (clock : Nat → Int), ∃ plan : ImportPlan,
        planImport p existing onError clock (file.result.rows.map (toPlanner decode)) = .ok plan
          ∧ plan.rows.map PlannedRow.line = file.result.rows.map RawImportRow.line := by
  intro h
  let p : Platform := ⟨fun _ => none, fun _ => .error "", fun _ => true, id⟩
  obtain ⟨plan, hplan, -⟩ := h plainScript requiredOnlyFile p (fun _ => "") [] .abort (fun _ => 0)
  rw [required_columns_throw] at hplan
  cases hplan

end Planner

end ImportFormat
