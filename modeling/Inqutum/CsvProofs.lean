import Mathlib.Data.List.Basic
import Mathlib.Tactic.Common

/-!
# Comma separated values

A reader of comma separated values over any alphabet with four marks: the
quote, the comma and the two line ends.  It is one loop over the units of
the text with one unit of lookahead: a doubled quote and a pair of line
ends are taken together.  A row of one empty field is left out.

Next to it the writer: cells, each bare or between quotes, joined to rows
and these to a file.  `parse_fileText`: the reader gives back the cells of
every file that is so written.
-/

namespace Csv

open List

/-- The marks of an alphabet. -/
structure Marks (α : Type) where
  quote : α
  comma : α
  cr : α
  lf : α
  distinct : [quote, comma, cr, lf].Nodup

/-- The variables of the loop. -/
structure Scan (α : Type) where
  rows : List (List (List α)) := []
  row : List (List α) := []
  field : List α := []
  inQuotes : Bool := false
  sawContent : Bool := false

variable {α : Type} [DecidableEq α]

namespace Scan

def endField (s : Scan α) : Scan α :=
  { s with row := s.row ++ [s.field], field := [] }

/-- A row of one empty field is not a record. -/
def endRow (s : Scan α) : Scan α :=
  { s.endField with
    rows := if s.endField.row = [[]] then s.rows
      else s.rows ++ [s.endField.row]
    row := []
    sawContent := false }

def push (s : Scan α) (ch : α) : Scan α :=
  { s with field := s.field ++ [ch] }

end Scan

section Reader

variable (m : Marks α)

/-- One turn of the loop, and whether it takes the next unit as well. -/
def step (s : Scan α) (ch : α) (next : Option α) : Scan α × Bool :=
  if s.inQuotes then
    if ch = m.quote then
      if next = some m.quote then (s.push m.quote, true)
      else ({ s with inQuotes := false }, false)
    else (s.push ch, false)
  else if ch = m.quote ∧ s.field = [] then
    ({ s with inQuotes := true, sawContent := true }, false)
  else if ch = m.comma then (s.endField, false)
  else if ch = m.lf then (s.endRow, false)
  -- a bare CR ends a row too; an LF after it belongs to it
  else if ch = m.cr then (s.endRow, decide (next = some m.lf))
  else ({ s.push ch with sawContent := true }, false)

/-- The loop; `taken` says that the next unit was taken already. -/
def scan : Bool → List α → Scan α → Scan α
  | _, [], s => s
  | true, _ :: rest, s => scan false rest s
  | false, ch :: rest, s => scan (step m s ch rest.head?).2 rest (step m s ch rest.head?).1

/-- What is left at the end of the text. -/
def Scan.finish (s : Scan α) : List (List (List α)) × Bool :=
  if s.inQuotes then (s.rows, true)
  else if s.sawContent = true ∨ s.field ≠ [] ∨ 0 < s.row.length then
    (s.endRow.rows, false)
  else (s.rows, false)

/-- The rows of a text, and whether its last quote is never closed. -/
def parse (text : List α) : List (List (List α)) × Bool :=
  (scan m false text {}).finish

end Reader

/-! ## Writing -/

section Writer

variable (m : Marks α)

def isMark (c : α) : Bool :=
  decide (c = m.quote) || decide (c = m.comma) || decide (c = m.cr)
    || decide (c = m.lf)

/-- A cell, and whether it stands between quotes.  A bare one has no mark. -/
structure Cell where
  text : List α
  quoted : Bool
  bare : quoted = false → ∀ c ∈ text, isMark m c = false

variable {m}

/-- Every quote doubled. -/
def escape (m : Marks α) (text : List α) : List α :=
  text.flatMap (fun c => if c = m.quote then [m.quote, m.quote] else [c])

def Cell.write (cell : Cell m) : List α :=
  if cell.quoted then m.quote :: (escape m cell.text ++ [m.quote])
  else cell.text

/-- Texts with a separator between them. -/
def joined (sep : List α) : List (List α) → List α
  | [] => []
  | [text] => text
  | text :: rest => text ++ (sep ++ joined sep rest)

def rowText (row : List (Cell m)) : List α :=
  joined [m.comma] (row.map Cell.write)

/-- Rows between line ends, with or without one after the last. -/
def fileText (rows : List (List (Cell m))) (final : Bool) : List α :=
  joined [m.cr, m.lf] (rows.map rowText) ++ (if final then [m.cr, m.lf] else [])

def texts (row : List (Cell m)) : List (List α) := row.map Cell.text

/-- A row the reader does not leave out. -/
def Kept (row : List (Cell m)) : Prop := row ≠ [] ∧ texts row ≠ [[]]

/-! ## The reader gives back what is written -/

section RoundTrip

variable {rows : List (List (List α))} {row : List (List α)} {field : List α}
  {saw : Bool} {rest : List α}

omit [DecidableEq α] in
theorem Marks.ne (m : Marks α) : m.comma ≠ m.quote ∧ m.cr ≠ m.quote
    ∧ m.lf ≠ m.quote ∧ m.cr ≠ m.comma ∧ m.lf ≠ m.comma ∧ m.cr ≠ m.lf := by
  have h := m.distinct
  simp only [nodup_cons, mem_cons, not_mem_nil, or_false, not_or] at h
  obtain ⟨⟨hqc, hqr, hql⟩, ⟨hcr, hcl⟩, hrl, -⟩ := h
  exact ⟨Ne.symm hqc, Ne.symm hqr, Ne.symm hql, Ne.symm hcr, Ne.symm hcl, hrl⟩

theorem scan_escape (text : List α) (hrest : rest.head? ≠ some m.quote) :
    scan m false (escape m text ++ m.quote :: rest) ⟨rows, row, field, true, saw⟩
      = scan m false rest ⟨rows, row, field ++ text, false, saw⟩ := by
  induction text generalizing field with
  | nil =>
    rw [append_nil]
    show scan m (step m _ m.quote rest.head?).2 rest (step m _ m.quote rest.head?).1 = _
    rw [step, if_pos rfl, if_pos rfl, if_neg hrest]
  | cons c text ih =>
    have happend : field ++ c :: text = field ++ [c] ++ text := by simp
    rw [happend, ← ih, escape, flatMap_cons, append_assoc]
    by_cases hc : c = m.quote
    · -- a doubled quote is one unit of the field
      rw [if_pos hc, hc]
      show scan m (step m _ m.quote (some m.quote)).2 _ (step m _ m.quote (some m.quote)).1 = _
      rw [step, if_pos rfl, if_pos rfl, if_pos rfl]
      rfl
    rw [if_neg hc]
    show scan m (step m _ c _).2 _ (step m _ c _).1 = _
    rw [step, if_pos rfl, if_neg hc]
    rfl

theorem scan_bare (text : List α) (h : ∀ c ∈ text, isMark m c = false) :
    ∃ saw', scan m false (text ++ rest) ⟨rows, row, field, false, saw⟩
      = scan m false rest ⟨rows, row, field ++ text, false, saw'⟩ := by
  induction text generalizing field saw with
  | nil => exact ⟨saw, by rw [append_nil]; rfl⟩
  | cons c text ih =>
    obtain ⟨saw', hsaw⟩ := @ih (field ++ [c]) true (fun d hd => h d (.tail _ hd))
    refine ⟨saw', ?_⟩
    have hmark := h c (.head _)
    simp only [isMark, Bool.or_eq_false_iff, decide_eq_false_iff_not] at hmark
    obtain ⟨⟨⟨hquote, hcomma⟩, hcr⟩, hlf⟩ := hmark
    have happend : field ++ c :: text = field ++ [c] ++ text := by simp
    rw [happend, ← hsaw]
    show scan m (step m _ c _).2 _ (step m _ c _).1 = _
    rw [step, if_neg Bool.false_ne_true, if_neg (fun h => hquote h.1),
      if_neg hcomma, if_neg hlf, if_neg hcr]
    rfl

theorem scan_cell (cell : Cell m) (hrest : rest.head? ≠ some m.quote) :
    ∃ saw', scan m false (cell.write ++ rest) ⟨rows, row, [], false, saw⟩
      = scan m false rest ⟨rows, row, cell.text, false, saw'⟩ := by
  rw [Cell.write]
  cases hquoted : cell.quoted with
  | true =>
    refine ⟨true, ?_⟩
    rw [if_pos rfl, cons_append, append_assoc]
    show scan m (step m _ m.quote _).2 _ (step m _ m.quote _).1 = _
    rw [step, if_neg Bool.false_ne_true, if_pos ⟨rfl, rfl⟩]
    exact scan_escape cell.text hrest
  | false =>
    rw [if_neg Bool.false_ne_true]
    exact scan_bare cell.text (cell.bare hquoted)

theorem scan_row {cells : List (Cell m)} (hne : cells ≠ []) (hrest : rest.head? ≠ some m.quote) :
    ∃ front last saw', front ++ [last] = row ++ texts cells
      ∧ scan m false (rowText cells ++ rest) ⟨rows, row, [], false, saw⟩
        = scan m false rest ⟨rows, front, last, false, saw'⟩ := by
  induction cells generalizing row saw with
  | nil => exact absurd rfl hne
  | cons cell cells ih =>
    cases cells with
    | nil =>
      obtain ⟨saw', hsaw⟩ := scan_cell cell hrest
      exact ⟨row, cell.text, saw', rfl, hsaw⟩
    | cons next cells =>
      have hcomma : (m.comma :: (rowText (next :: cells) ++ rest)).head?
          ≠ some m.quote := fun h => m.ne.1 (Option.some.inj h)
      obtain ⟨saw', hsaw⟩ := @scan_cell _ _ _ rows row saw _ cell hcomma
      obtain ⟨front, last, saw'', hfront, hrow⟩ :=
        @ih (row ++ [cell.text]) saw' (cons_ne_nil _ _)
      refine ⟨front, last, saw'', ?_, ?_⟩
      · rw [hfront, append_assoc]
        rfl
      have htext : rowText (cell :: next :: cells) ++ rest = cell.write
            ++ m.comma :: (rowText (next :: cells) ++ rest) := by
        show cell.write ++ ([m.comma] ++ rowText (next :: cells)) ++ rest = _
        simp
      rw [htext, hsaw, ← hrow]
      show scan m (step m _ m.comma _).2 _ (step m _ m.comma _).1 = _
      rw [step, if_neg Bool.false_ne_true, if_neg (fun h => m.ne.1 h.1), if_pos rfl]
      rfl

theorem endRow_rows {front : List (List α)} {last : List α} (h : front ++ [last] ≠ [[]]) :
    (Scan.endRow ⟨rows, front, last, false, saw⟩)
      = ⟨rows ++ [front ++ [last]], [], [], false, false⟩ := by
  rw [Scan.endRow, Scan.endField, if_neg h]

theorem scan_line {cells : List (Cell m)} (hkept : Kept cells) :
    scan m false (rowText cells ++ m.cr :: m.lf :: rest) ⟨rows, [], [], false, saw⟩
      = scan m false rest ⟨rows ++ [texts cells], [], [], false, false⟩ := by
  have hcr : (m.cr :: m.lf :: rest).head? ≠ some m.quote :=
    fun h => m.ne.2.1 (Option.some.inj h)
  obtain ⟨front, last, saw', hfront, hrow⟩ := @scan_row _ _ _ rows [] saw _ _ hkept.1 hcr
  rw [nil_append] at hfront
  rw [hrow]
  show scan m (step m _ m.cr (some m.lf)).2 _ (step m _ m.cr (some m.lf)).1 = _
  rw [step, if_neg Bool.false_ne_true, if_neg (fun h => m.ne.2.1 h.1),
    if_neg m.ne.2.2.2.1, if_neg m.ne.2.2.2.2.2, if_pos rfl,
    endRow_rows (by rw [hfront]; exact hkept.2), hfront, decide_eq_true rfl]
  rfl

theorem finish_row {cells : List (Cell m)} (hkept : Kept cells) :
    (scan m false (rowText cells) ⟨rows, [], [], false, saw⟩).finish
      = (rows ++ [texts cells], false) := by
  obtain ⟨front, last, saw', hfront, hrow⟩ :=
    @scan_row _ _ m rows [] saw [] _ hkept.1 nofun
  rw [nil_append] at hfront
  rw [append_nil] at hrow
  have hne : front ++ [last] ≠ [[]] := by
    rw [hfront]
    exact hkept.2
  have hopen : saw' = true ∨ last ≠ [] ∨ 0 < front.length := by
    by_cases hlast : last = []
    · refine .inr (.inr (length_pos_iff.mpr ?_))
      rintro rfl
      exact hne (by rw [hlast]; rfl)
    · exact .inr (.inl hlast)
  rw [hrow]
  show Scan.finish ⟨rows, front, last, false, saw'⟩ = _
  rw [Scan.finish, if_neg Bool.false_ne_true, if_pos hopen, endRow_rows hne, hfront]

theorem finish_between (rows : List (List (List α))) :
    (Scan.finish ⟨rows, [], [], false, false⟩) = (rows, false) := by
  rw [Scan.finish, if_neg Bool.false_ne_true]
  exact if_neg (by simp)

theorem finish_file {file : List (List (Cell m))} (final : Bool)
    (hne : file ≠ []) (h : ∀ row ∈ file, Kept row) :
    (scan m false (fileText file final) ⟨rows, [], [], false, saw⟩).finish
      = (rows ++ file.map texts, false) := by
  induction file generalizing rows saw with
  | nil => exact absurd rfl hne
  | cons row file ih =>
    have hrow := h row (.head _)
    cases file with
    | nil =>
      cases final with
      | true =>
        show (scan m false (rowText row ++ [m.cr, m.lf]) _).finish = _
        rw [scan_line hrow]
        exact finish_between _
      | false =>
        show (scan m false (rowText row ++ []) _).finish = _
        rw [append_nil]
        exact finish_row hrow
    | cons next file =>
      have htext : fileText (row :: next :: file) final = rowText row
            ++ m.cr :: m.lf :: fileText (next :: file) final := by
        show rowText row ++ ([m.cr, m.lf]
          ++ joined [m.cr, m.lf] ((next :: file).map rowText)) ++ _ = _
        simp only [append_assoc, cons_append, nil_append, fileText]
      rw [htext, scan_line hrow, ih (cons_ne_nil _ _) (fun r hr => h r (.tail _ hr)), append_assoc]
      rfl

/-- **ROUND TRIP**: the reader gives back the cells of every file of rows that
    are not left out. -/
theorem parse_fileText {file : List (List (Cell m))} (final : Bool) (h : ∀ row ∈ file, Kept row) :
    parse m (fileText file final) = (file.map texts, false) := by
  cases file with
  | nil =>
    cases final with
    | true =>
      -- the line end alone ends a row that is left out
      show Scan.finish (scan m false [m.cr, m.lf] _) = _
      have hcr : step m (⟨[], [], [], false, false⟩ : Scan α) m.cr
          (some m.lf) = (⟨[], [], [], false, false⟩, true) := by
        rw [step, if_neg Bool.false_ne_true, if_neg (fun h => m.ne.2.1 h.1), if_neg m.ne.2.2.2.1,
          if_neg m.ne.2.2.2.2.2, if_pos rfl, decide_eq_true rfl]
        rfl
      show Scan.finish (scan m (step m _ m.cr (some m.lf)).2 _ (step m _ m.cr (some m.lf)).1) = _
      rw [hcr]
      exact finish_between []
    | false => exact finish_between []
  | cons row file => exact finish_file final (cons_ne_nil _ _) h

end RoundTrip

end Writer

end Csv
