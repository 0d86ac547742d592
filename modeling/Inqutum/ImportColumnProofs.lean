import Inqutum.ImportTotalProofs

/-!
# Rows of known columns

The names of the columns are plain: trimming keeps them, none is the
prototype or an array index, and none is refused.  So a header of distinct
columns, the required ones among them, has no errors, and a row under it
has exactly one value for each column, whichever reader made it.
-/

namespace ImportFormat

open JsonText (CodeUnit Text Tree Number Writer unit ascii writeTree)
open Canonical (trim isWhiteSpace)
open Imports (Column)
open List

/-! ## The columns -/

/-- What the readers need to know of a column name. -/
def isPlainName (name : Text) : Bool :=
  decide (trim name = name) && decide (name ≠ ascii "__proto__") && (arrayIndex name).isNone
    && name.head?.any (fun c => !isWhiteSpace c && decide (c ≠ unit '\x7b'))

theorem mem_importColumns (c : Column) : c ∈ importColumns := by
  cases c <;> decide

theorem plain_columns : importColumns.all (fun c => isPlainName (columnName c))
    = true := by decide +kernel

theorem nodup_knownColumns : knownColumns.Nodup := by decide +kernel

theorem rejected_unknown : rejectedColumns.all (fun entry =>
    decide (entry.1 ∉ knownColumns)) = true := by decide +kernel

theorem columnName_inj {c d : Column} (h : columnName c = columnName d) : c = d :=
  inj_on_of_nodup_map nodup_knownColumns (mem_importColumns c) (mem_importColumns d) h

theorem columnName_plain (c : Column) :
    trim (columnName c) = columnName c ∧ columnName c ≠ ascii "__proto__"
      ∧ arrayIndex (columnName c) = none
      ∧ ∃ u rest, columnName c = u :: rest ∧ isWhiteSpace u = false ∧ u ≠ unit '\x7b' := by
  have hplain := all_eq_true.mp plain_columns c (mem_importColumns c)
  simp only [isPlainName, Bool.and_eq_true, decide_eq_true_eq, Option.isNone_iff_eq_none] at hplain
  obtain ⟨⟨⟨htrim, hproto⟩, hindex⟩, hhead⟩ := hplain
  refine ⟨htrim, hproto, hindex, ?_⟩
  cases hname : columnName c with
  | nil => rw [hname] at hhead; cases hhead
  | cons u rest =>
    rw [hname] at hhead
    have hu : isWhiteSpace u = false ∧ u ≠ unit '\x7b' := by simpa using hhead
    exact ⟨u, rest, rfl, hu.1, hu.2⟩

theorem columnErrors_eq_nil {seen : List Text} (hknown : ∀ column ∈ seen, column ∈ knownColumns)
    (hrequired : ∀ c, required c = true → columnName c ∈ seen) : columnErrors seen = [] := by
  have hrejected : rejectedColumns.filter (fun entry => entry.1 ∈ seen) = [] := by
    rw [filter_eq_nil_iff]
    intro entry hentry
    have hunknown := of_decide_eq_true (all_eq_true.mp rejected_unknown entry hentry)
    rw [decide_eq_true_eq]
    exact fun hseen => hunknown (hknown _ hseen)
  have hunknown : seen.filter (fun column => column ∉ knownColumns) = [] := by
    rw [filter_eq_nil_iff]
    intro column hcolumn
    rw [decide_eq_true_eq, not_not]
    exact hknown column hcolumn
  have hmissing : importColumns.filter (fun c => required c && columnName c ∉ seen) = [] := by
    rw [filter_eq_nil_iff]
    intro c _
    rw [Bool.and_eq_true, decide_eq_true_eq]
    exact fun h => h.2 (hrequired c h.1)
  rw [columnErrors, hrejected, hunknown, hmissing]
  rfl

theorem mem_addSeen {seen : List Text} {column k : Text} :
    k ∈ addSeen seen column ↔ k ∈ seen ∨ k = column := by
  rw [addSeen]
  split
  · rename_i hseen
    constructor
    · exact Or.inl
    rintro (h | rfl)
    · exact h
    · exact hseen
  · rw [mem_append, mem_singleton]

variable {columns seen : List Text}

theorem mem_foldl_addSeen {k : Text} : k ∈ columns.foldl addSeen seen ↔ k ∈ seen ∨ k ∈ columns := by
  induction columns generalizing seen with
  | nil => simp
  | cons column columns ih => rw [foldl_cons, ih, mem_addSeen, mem_cons, or_assoc]

theorem duplicateErrors_eq_nil (hnodup : columns.Nodup) (hfresh : ∀ c ∈ columns, c ∉ seen) :
    duplicateErrors seen columns = [] := by
  induction columns generalizing seen with
  | nil => rfl
  | cons column columns ih =>
    obtain ⟨hcolumn, hnodup⟩ := nodup_cons.mp hnodup
    rw [duplicateErrors, if_neg (hfresh column (.head _)), nil_append]
    refine ih hnodup ?_
    intro c hc hseen
    rcases mem_addSeen.mp hseen with hseen | rfl
    · exact hfresh c (.tail _ hc) hseen
    · exact hcolumn hc

/-! ## Rows of known columns -/

/-- The values of a row that has these columns. -/
def valuesOf (columns : List Column) (value : Column → Text) : Values :=
  columns.map (fun c => (columnName c, value c))

theorem keys_valuesOf (columns : List Column) (value : Column → Text) :
    keys (valuesOf columns value) = columns.map columnName := by
  rw [keys, valuesOf, map_map]
  rfl

variable {columns : List Column}

theorem nodup_columnNames (h : columns.Nodup) : (columns.map columnName).Nodup :=
  h.map (fun _ _ => columnName_inj)

theorem setValue_fresh {key text : Text} {values : Values}
    (hproto : key ≠ ascii "__proto__") (hfresh : key ∉ keys values) :
    setValue key text values = values ++ [(key, text)] := by
  have hdefine : ∀ values : Values, key ∉ keys values →
      setValue.define key text values = values ++ [(key, text)] := by
    intro values hvalues
    induction values with
    | nil => rfl
    | cons entry rest ih =>
      have hkeys : key ∉ entry.1 :: keys rest := hvalues
      rw [mem_cons, not_or] at hkeys
      rw [setValue.define, if_neg (Ne.symm hkeys.1), ih hkeys.2]
      rfl
  rw [setValue, if_neg hproto, hdefine values hfresh]

theorem foldl_setValue {columns : List Column} (value : Column → Text)
    {values : Values} (hnodup : columns.Nodup)
    (hfresh : ∀ c ∈ columns, columnName c ∉ keys values) :
    (valuesOf columns value).foldl (fun values entry => setValue entry.1 entry.2 values) values
      = values ++ valuesOf columns value := by
  induction columns generalizing values with
  | nil => exact (append_nil _).symm
  | cons c columns ih =>
    obtain ⟨hc, hnodup⟩ := nodup_cons.mp hnodup
    show (valuesOf columns value).foldl _ (setValue (columnName c) (value c) values) = _
    rw [setValue_fresh (columnName_plain c).2.1 (hfresh c (.head _)), ih hnodup, append_assoc]
    · rfl
    intro d hd hmem
    rw [keys, map_append, mem_append] at hmem
    rcases hmem with hmem | hmem
    · exact hfresh d (.tail _ hd) hmem
    rw [map_singleton, mem_singleton] at hmem
    exact hc (columnName_inj hmem ▸ hd)

/-- Cells under the header they were written for, trimmed. -/
theorem csvValues_columns (value : Column → Text) (hnodup : columns.Nodup) :
    csvValues (columns.map columnName) (columns.map value) []
      = valuesOf columns (fun c => trim (value c)) := by
  have hfold : ∀ (columns : List Column) (values : Values),
      csvValues (columns.map columnName) (columns.map value) values
        = (valuesOf columns (fun c => trim (value c))).foldl
            (fun values entry => setValue entry.1 entry.2 values) values := by
    intro columns
    induction columns with
    | nil => exact fun values => rfl
    | cons c columns ih => exact fun values => ih _
  rw [hfold, foldl_setValue _ hnodup (fun _ _ => not_mem_nil), nil_append]

theorem ownOrder_plain {V : Type} {members : List (Text × V)}
    (h : ∀ m ∈ members, arrayIndex m.1 = none) : ownOrder members = members := by
  have hnone : members.filter (fun m => (arrayIndex m.1).isSome) = [] := by
    rw [filter_eq_nil_iff]
    intro m hm
    rw [h m hm]
    exact Bool.false_ne_true
  have hall : members.filter (fun m => (arrayIndex m.1).isNone) = members := by
    rw [filter_eq_self]
    intro m hm
    rw [h m hm]
    rfl
  rw [ownOrder, hnone, hall, insertionSort_nil, nil_append]

/-- The members of an object, one for each column. -/
def membersOf (columns : List Column) (value : Column → Tree) :
    List (Text × Tree) := columns.map (fun c => (columnName c, value c))

theorem ndjsonValues_columns (s : Script) (value : Column → Tree) (hnodup : columns.Nodup) :
    ndjsonValues s (membersOf columns value)
      = valuesOf columns (fun c => valueText s (columnName c) (value c)) := by
  have hplain : ∀ m ∈ membersOf columns value, arrayIndex m.1 = none := by
    intro m hm
    obtain ⟨c, -, rfl⟩ := mem_map.mp hm
    exact (columnName_plain c).2.2.1
  rw [ndjsonValues, ownOrder_plain hplain, membersOf, foldl_map]
  have hfold := @foldl_setValue columns (fun c => valueText s (columnName c) (value c)) [] hnodup
    (fun _ _ => not_mem_nil)
  rw [valuesOf, foldl_map] at hfold
  exact hfold

/-- What a row says of a column, nothing being the empty text. -/
def reading (row : RawImportRow) (c : Column) : Text :=
  (row.values.lookup (columnName c)).getD []

theorem reading_valuesOf (line : Nat) (value : Column → Text) (c : Column) :
    reading ⟨line, valuesOf columns value⟩ c = if c ∈ columns then value c else [] := by
  rw [reading]
  induction columns with
  | nil => rfl
  | cons d columns ih =>
    show (lookup (columnName c) ((columnName d, value d) :: valuesOf columns value)).getD [] = _
    rw [lookup_cons]
    by_cases hcd : c = d
    · rw [hcd, beq_self_eq_true, if_pos (.head _)]
      rfl
    have hname : (columnName c == columnName d) = false :=
      beq_eq_false_iff_ne.mpr (fun h => hcd (columnName_inj h))
    rw [hname]
    show (lookup (columnName c) (valuesOf columns value)).getD [] = _
    rw [ih]
    simp [hcd]

end ImportFormat
