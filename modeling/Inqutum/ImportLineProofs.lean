import Inqutum.ImportTotalProofs

/-!
# The reported lines

A row of a CSV file is reported under its place among the rows that were
not left out.  The line it starts on counts every line end before it: those
that ended a row, those of rows left out, and those inside a quoted field.
The two agree exactly while there is none of the latter two
(`lines_true_iff`).
-/

namespace ImportFormat

open List

/-- A CSV file the parser accepts. -/
structure AcceptedCsv (s : Script) extends AcceptedFile s where
  csv : detectEncoding fileName text = .csv

namespace AcceptedCsv

variable {s : Script}

/-- Where the records after the header start. -/
def origins (file : AcceptedCsv s) : List Csv.Origin :=
  (Csv.origins marks file.text).tail

/-- Each row is reported under the line of the text its record starts on. -/
def LinesTrue (file : AcceptedCsv s) : Prop :=
  ∀ p ∈ file.result.rows.zip file.origins, p.1.line = Csv.lineAt marks file.text p.2.start

/-- No row was left out before a record, and no line end before it stands
    between quotes. -/
def PlainLines (file : AcceptedCsv s) : Prop :=
  ∀ o ∈ file.origins, o.blanks = 0 ∧ o.inner = 0

theorem rows_origins (file : AcceptedCsv s) : file.result.rows.length = file.origins.length
      ∧ ∀ k row, file.result.rows[k]? = some row → row.line = k + 2 := by
  rcases parseImportFile_accepted file.accepted with ⟨-, hcsv⟩ | ⟨hnd, -⟩
  · have herrors : (parseCsvText file.text).errors = [] := by
      rw [← hcsv]
      exact file.accepted
    obtain ⟨first, rest, hparse, -, -, -, heq⟩ := parseCsvText_accepted herrors
    have hlength := Csv.length_origins marks file.text
    rw [show Csv.parse marks file.text = _ from hparse] at hlength
    rw [AcceptedFile.result, hcsv, heq]
    constructor
    · rw [length_map, length_zipIdx, origins, length_tail, hlength]
      rfl
    intro k row hrow
    rw [getElem?_map, getElem?_zipIdx, Option.map_map] at hrow
    obtain ⟨cells, -, rfl⟩ := Option.map_eq_some_iff.mp hrow
    show 1 + k + 1 = k + 2
    omega
  · rw [file.csv] at hnd
    cases hnd

theorem lineAt_origin (file : AcceptedCsv s) {k : Nat} {o : Csv.Origin}
    (h : file.origins[k]? = some o) :
    Csv.lineAt marks file.text o.start = k + 2 + (o.blanks + o.inner) := by
  rw [origins, getElem?_tail] at h
  rw [Csv.line_origin h]

end AcceptedCsv

/-- **LINES**: every row of an accepted CSV file has an origin, and all are
    reported under the line they start on exactly if no row was left out and no
    line end quoted before any of them. -/
theorem lines_true_iff {s : Script} (file : AcceptedCsv s) :
    file.result.rows.length = file.origins.length ∧ (file.LinesTrue ↔ file.PlainLines) := by
  obtain ⟨hlength, hlines⟩ := file.rows_origins
  refine ⟨hlength, ?_⟩
  constructor
  · intro htrue o ho
    obtain ⟨k, hk⟩ := mem_iff_getElem?.mp ho
    have hbound : k < file.result.rows.length := by
      rw [hlength]
      exact (List.getElem?_eq_some_iff.mp hk).1
    have hrow := List.getElem?_eq_getElem hbound
    have hzip : (file.result.rows.zip file.origins)[k]? = some (file.result.rows[k], o) :=
      getElem?_zip_eq_some.mpr ⟨hrow, hk⟩
    have hline := htrue _ (mem_of_getElem? hzip)
    rw [hlines k _ hrow, file.lineAt_origin hk] at hline
    omega
  · intro hplain p hp
    obtain ⟨k, hk⟩ := mem_iff_getElem?.mp hp
    obtain ⟨hrow, horigin⟩ := getElem?_zip_eq_some.mp hk
    obtain ⟨hblanks, hinner⟩ := hplain p.2 (mem_of_getElem? horigin)
    rw [hlines k _ hrow, file.lineAt_origin horigin, hblanks, hinner]

/-- A file with an empty line after its header. -/
def gappedFile : AcceptedCsv plainScript where
  fileName := JsonText.ascii "f.csv"
  text := JsonText.ascii "sellerPublicKey,amount\n\nG,5"
  accepted := by decide +kernel
  csv := by decide +kernel

/-- Its row is reported under the second line and starts on the third. -/
theorem empty_line_shifts : ¬ gappedFile.LinesTrue := by
  have hrow : (gappedFile.result.rows.zip gappedFile.origins).any (fun p =>
      p.1.line ≠ Csv.lineAt marks gappedFile.text p.2.start) = true := by
    decide +kernel
  intro htrue
  obtain ⟨p, hp, hne⟩ := any_eq_true.mp hrow
  exact of_decide_eq_true hne (htrue p hp)

end ImportFormat
