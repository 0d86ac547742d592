import Inqutum.CsvProofs

/-!
# The lines of comma separated values

The traced reader is the loop of the reader with a ghost: where each row
starts, and how many rows were left out and line ends quoted before it.
The line a row starts on follows from these (`line_origin`), whatever the
line ends of the text are: every line end that is passed ended a row that is
kept or left out, or stands between quotes.
-/

namespace Csv

open List

variable {α : Type} [DecidableEq α]

/-- Where a row starts, how many rows were left out before it, and how many
    line ends stand between quotes before it. -/
structure Origin where
  start : Nat
  blanks : Nat
  inner : Nat

/-- The loop with the places it has seen. -/
structure Traced (α : Type) where
  scan : Scan α := {}
  offset : Nat := 0
  origin : Origin := ⟨0, 0, 0⟩
  blanks : Nat := 0
  inner : Nat := 0
  kept : List Origin := []

section Positions

variable (m : Marks α)

/-- A line end is an LF, a CR, or a CR and an LF; the pair counts at its LF. -/
def isBreak (ch : α) (next : Option α) : Bool :=
  decide (ch = m.lf) || decide (ch = m.cr) && decide (next ≠ some m.lf)

/-- The line ends among the first `n` units. -/
def breaks : Nat → List α → Nat
  | 0, _ => 0
  | _, [] => 0
  | n + 1, ch :: rest => (if isBreak m ch rest.head? then 1 else 0) + breaks n rest

/-- The line, from one, that a place in the text is on. -/
def lineAt (text : List α) (offset : Nat) : Nat := breaks m offset text + 1

def endsRow (s : Scan α) (ch : α) : Bool :=
  !s.inQuotes && (decide (ch = m.lf) || decide (ch = m.cr))

def Scan.isBlank (s : Scan α) : Bool := decide (s.endField.row = [[]])

def Traced.step (t : Traced α) (ch : α) (next : Option α) : Traced α × Bool :=
  let turn := Csv.step m t.scan ch next
  let offset := t.offset + if turn.2 then 2 else 1
  if endsRow m t.scan ch then
    let blanks := t.blanks + if t.scan.isBlank then 1 else 0
    ({ t with
        scan := turn.1
        offset := offset
        origin := ⟨offset, blanks, t.inner⟩
        blanks := blanks
        kept := if t.scan.isBlank then t.kept else t.kept ++ [t.origin] },
      turn.2)
  else
    ({ t with
        scan := turn.1
        offset := offset
        inner := t.inner + if t.scan.inQuotes && isBreak m ch next then 1 else 0 },
      turn.2)

def tracedScan : Bool → List α → Traced α → Traced α
  | _, [], t => t
  | true, _ :: rest, t => tracedScan false rest t
  | false, ch :: rest, t => tracedScan (t.step m ch rest.head?).2 rest (t.step m ch rest.head?).1

def Traced.finish (t : Traced α) : List Origin :=
  if t.scan.inQuotes then t.kept
  else if t.scan.sawContent = true ∨ t.scan.field ≠ [] ∨ 0 < t.scan.row.length then
    if t.scan.isBlank then t.kept else t.kept ++ [t.origin]
  else t.kept

/-- The origins of the rows of a text. -/
def origins (text : List α) : List Origin :=
  (tracedScan m false text {}).finish

variable {m}

/-! ### The traced loop is the loop -/

theorem Traced.step_scan (t : Traced α) (ch : α) (next : Option α) :
    (t.step m ch next).1.scan = (Csv.step m t.scan ch next).1
      ∧ (t.step m ch next).2 = (Csv.step m t.scan ch next).2 := by
  rw [Traced.step]
  split <;> exact ⟨rfl, rfl⟩

theorem tracedScan_scan (taken : Bool) (text : List α) (t : Traced α) :
    (tracedScan m taken text t).scan = scan m taken text t.scan := by
  induction text generalizing taken t with
  | nil => rw [tracedScan, scan]
  | cons ch rest ih =>
    cases taken with
    | true => exact ih false t
    | false =>
      obtain ⟨hscan, htaken⟩ := t.step_scan (m := m) ch rest.head?
      rw [tracedScan, scan, ih, hscan, htaken]

/-! ### One turn -/

variable {text rest : List α} {ch : α} {s : Scan α} {n : Nat}

/-- When a turn takes the next unit as well. -/
theorem step_taken {next : Option α} (h : (step m s ch next).2 = true) :
    (s.inQuotes = true ∧ ch = m.quote ∧ next = some m.quote)
      ∨ (s.inQuotes = false ∧ ch = m.cr ∧ next = some m.lf) := by
  rw [step] at h
  split at h
  · rename_i hquotes
    split at h
    · rename_i hch
      split at h
      · rename_i hnext
        exact .inl ⟨hquotes, hch, hnext⟩
      · cases h
    · cases h
  · rename_i hquotes
    rw [Bool.not_eq_true] at hquotes
    split at h
    · cases h
    split at h
    · cases h
    split at h
    · cases h
    split at h
    · rename_i hch
      exact .inr ⟨hquotes, hch, of_decide_eq_true h⟩
    · cases h

theorem step_cr (hquotes : s.inQuotes = false) : (step m s m.cr (some m.lf)).2 = true := by
  rw [step, if_neg (by rw [hquotes]; exact Bool.false_ne_true),
    if_neg (fun h => m.ne.2.1 h.1), if_neg m.ne.2.2.2.1,
    if_neg m.ne.2.2.2.2.2, if_pos rfl]
  exact decide_eq_true rfl

theorem step_rows (s : Scan α) (ch : α) (next : Option α) : (step m s ch next).1.rows.length
      = s.rows.length + if endsRow m s ch = true ∧ s.isBlank = false then 1 else 0 := by
  have hend : s.endRow.rows.length = s.rows.length + if s.isBlank = false then 1 else 0 := by
    rw [Scan.endRow, Scan.isBlank]
    by_cases hblank : s.endField.row = [[]]
    · simp [hblank]
    · simp [hblank]
  rw [step, endsRow]
  split
  · rename_i hquotes
    rw [hquotes]
    split
    · split <;> rfl
    · rfl
  rename_i hquotes
  rw [Bool.not_eq_true] at hquotes
  rw [hquotes]
  split
  · rename_i hch
    rw [hch.1]
    simp [m.ne.2.1.symm, m.ne.2.2.1.symm]
  split
  · rename_i hch
    rw [hch]
    simp [m.ne.2.2.2.1.symm, m.ne.2.2.2.2.1.symm, Scan.endField]
  split
  · rename_i hch
    simp [hch, hend]
  split
  · rename_i hch
    simp [hch, hend]
  rename_i hlf hcr
  simp [hlf, hcr, Scan.push]

/-! ### Counting line ends -/

theorem breaks_succ (h : text.drop n = ch :: rest) :
    breaks m (n + 1) text = breaks m n text + if isBreak m ch rest.head? then 1 else 0 := by
  induction n generalizing text with
  | zero =>
    rw [drop_zero] at h
    rw [h, breaks, breaks, breaks, Nat.add_comm]
  | succ n ih =>
    cases text with
    | nil => cases h
    | cons c text => rw [breaks, breaks, ih h, Nat.add_assoc]

theorem breaks_turn (h : text.drop n = ch :: rest) (s : Scan α) :
    breaks m (n + if (step m s ch rest.head?).2 then 2 else 1) text = breaks m n text
        + if endsRow m s ch || s.inQuotes && isBreak m ch rest.head? then 1 else 0 := by
  have hquote : ∀ next, isBreak m m.quote next = false := by
    intro next
    rw [isBreak, decide_eq_false m.ne.2.2.1.symm, decide_eq_false m.ne.2.1.symm]
    rfl
  cases htaken : (step m s ch rest.head?).2 with
  | true =>
    cases rest with
    | nil =>
      rcases step_taken htaken with ⟨-, -, hnext⟩ | ⟨-, -, hnext⟩ <;> cases hnext
    | cons d rest =>
      have hdrop : text.drop (n + 1) = d :: rest := by
        rw [← drop_drop, h]
        rfl
      rw [if_pos rfl, breaks_succ hdrop, breaks_succ h, Nat.add_assoc]
      congr 1
      rcases step_taken htaken with ⟨hq, hch, hnext⟩ | ⟨hq, hch, hnext⟩
      · rw [hch, Option.some.inj hnext, endsRow, hq, hquote, hquote]
        rfl
      rw [hch, Option.some.inj hnext, endsRow, hq]
      simp [isBreak, m.ne.2.2.2.2.2]
  | false =>
    rw [if_neg Bool.false_ne_true, breaks_succ h]
    congr 2
    cases hq : s.inQuotes with
    | true =>
      rw [endsRow, hq]
      rfl
    | false =>
      rw [endsRow, hq, isBreak]
      by_cases hcr : ch = m.cr
      · have hnext : rest.head? ≠ some m.lf := by
          intro hnext
          rw [hcr, hnext, step_cr hq] at htaken
          cases htaken
        simp [hcr, hnext]
      · simp [hcr]

/-! ### The invariant of the traced loop -/

/-- Each line end passed so far ended a row that is kept or left out, or stands
    between quotes. -/
structure Inv (m : Marks α) (text rest : List α) (t : Traced α) : Prop where
  left : text.drop t.offset = rest
  passed : breaks m t.offset text = t.kept.length + t.blanks + t.inner
  rows : t.kept.length = t.scan.rows.length
  origin : breaks m t.origin.start text = t.kept.length + t.origin.blanks + t.origin.inner
  kept : ∀ k o, t.kept[k]? = some o → breaks m o.start text = k + o.blanks + o.inner

theorem kept_append {text : List α} {kept : List Origin} {origin : Origin}
    (hkept : ∀ k o, kept[k]? = some o → breaks m o.start text = k + o.blanks + o.inner)
    (horigin : breaks m origin.start text = kept.length + origin.blanks + origin.inner) :
    ∀ k o, (kept ++ [origin])[k]? = some o → breaks m o.start text = k + o.blanks + o.inner := by
  intro k o hk
  rcases Nat.lt_trichotomy k kept.length with hlt | rfl | hgt
  · rw [getElem?_append_left hlt] at hk
    exact hkept k o hk
  · rw [getElem?_concat_length] at hk
    cases hk
    exact horigin
  rw [getElem?_eq_none (by simp; omega)] at hk
  cases hk

theorem Inv.step {t : Traced α} (h : Inv m text (ch :: rest) t) :
    Inv m text (if (t.step m ch rest.head?).2 then rest.tail else rest)
      (t.step m ch rest.head?).1 := by
  have hbreaks := breaks_turn (m := m) h.left t.scan
  have hrows := step_rows (m := m) t.scan ch rest.head?
  have hleft : text.drop (t.offset + if (Csv.step m t.scan ch rest.head?).2 then 2 else 1)
      = if (Csv.step m t.scan ch rest.head?).2 then rest.tail else rest := by
    rw [← drop_drop, h.left]
    split
    · rw [drop_succ_cons, drop_one]
    · rfl
  rw [h.passed] at hbreaks
  rw [Traced.step]
  split
  · rename_i hends
    rw [hends] at hbreaks hrows
    rw [Bool.true_or, if_pos rfl] at hbreaks
    cases hblank : t.scan.isBlank with
    | true =>
      rw [hblank, if_neg (fun h => nomatch h.2)] at hrows
      refine ⟨hleft, ?_, h.rows.trans hrows.symm, ?_, h.kept⟩
      · simp only [hbreaks, if_pos]
        omega
      simp only [hbreaks, if_pos]
      omega
    | false =>
      rw [hblank, if_pos ⟨rfl, rfl⟩] at hrows
      refine ⟨hleft, ?_, ?_, ?_, ?_⟩
      · simp [hbreaks]
        omega
      · simp [hrows, h.rows]
      · simp [hbreaks]
        omega
      · exact kept_append h.kept h.origin
  · rename_i hends
    rw [Bool.not_eq_true] at hends
    rw [hends] at hbreaks hrows
    rw [if_neg (fun h => nomatch h.1)] at hrows
    refine ⟨hleft, ?_, h.rows.trans hrows.symm, h.origin, h.kept⟩
    simp only [Bool.false_or] at hbreaks
    simp only [hbreaks]
    omega

theorem Inv.run {text rest : List α} {taken : Bool} {t : Traced α}
    (h : Inv m text (if taken then rest.tail else rest) t) :
    Inv m text [] (tracedScan m taken rest t) := by
  induction rest generalizing taken t with
  | nil =>
    cases taken with
    | true => exact h
    | false => exact h
  | cons ch rest ih =>
    cases taken with
    | true =>
      rw [tracedScan]
      exact ih h
    | false =>
      rw [tracedScan]
      exact ih (Inv.step h)

theorem Inv.init (m : Marks α) (text : List α) : Inv m text text {} where
  left := rfl
  passed := by rw [breaks]; rfl
  rows := rfl
  origin := by rw [breaks]; rfl
  kept := nofun

theorem Inv.final (m : Marks α) (text : List α) : Inv m text [] (tracedScan m false text {}) :=
  @Inv.run _ _ m text text false {} (Inv.init m text)

theorem length_origins (m : Marks α) (text : List α) :
    (origins m text).length = (parse m text).1.length := by
  have hinv := Inv.final m text
  have hscan := tracedScan_scan (m := m) false text {}
  rw [origins, parse, Traced.finish, Scan.finish, ← hscan]
  split
  · exact hinv.rows
  split
  · rw [Scan.isBlank, Scan.endRow]
    split
    · rename_i hblank
      simp only [if_pos (of_decide_eq_true hblank)]
      exact hinv.rows
    rename_i hblank
    rw [decide_eq_true_eq] at hblank
    simp only [if_neg hblank, length_append, hinv.rows]
    rfl
  · exact hinv.rows

/-- **LINES**: the line a row starts on is its place among the rows, and what
    was left out or quoted before it. -/
theorem line_origin {text : List α} {k : Nat} {o : Origin} (h : (origins m text)[k]? = some o) :
    lineAt m text o.start = k + 1 + (o.blanks + o.inner) := by
  have hinv := Inv.final m text
  have hbreaks : breaks m o.start text = k + o.blanks + o.inner := by
    rw [origins, Traced.finish] at h
    split at h
    · exact hinv.kept k o h
    split at h
    · split at h
      · exact hinv.kept k o h
      · exact kept_append hinv.kept hinv.origin k o h
    · exact hinv.kept k o h
  rw [lineAt, hbreaks]
  omega

end Positions

end Csv
