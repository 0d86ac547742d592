import Mathlib.Data.List.Nodup

/-!
# Tables with a primary key

A table is a list of rows with distinct primary keys; its order carries no
meaning, so a table is known by what `find` returns for every key.  The
statements are an insert, an update of the rows that match a condition and
a delete by key, each described by what it does to `find`.

`UniqueOn key` is a unique index that ignores nulls: two rows that share a
non-null key are the same row.
-/

namespace Table

open List

variable {α κ β : Type} {pk : α → κ}

/-- The row with a given primary key. -/
def find [DecidableEq κ] (pk : α → κ) (rows : List α) (k : κ) : Option α :=
  rows.find? (fun r => decide (pk r = k))

/-- `UPDATE … SET f WHERE p`. -/
def modify (p : α → Bool) (f : α → α) (rows : List α) : List α :=
  rows.map (fun r => if p r then f r else r)

/-- `DELETE … WHERE pk = k`. -/
def remove [DecidableEq κ] (pk : α → κ) (k : κ) (rows : List α) : List α :=
  rows.filter (fun r => decide (pk r ≠ k))

/-- A unique index over the non-null values of `key`. -/
def UniqueOn (pk : α → κ) (key : α → Option β) (rows : List α) : Prop :=
  ∀ r ∈ rows, ∀ r' ∈ rows, key r ≠ none → key r = key r' → pk r = pk r'

instance [DecidableEq κ] [DecidableEq β] (key : α → Option β)
    (rows : List α) : Decidable (UniqueOn pk key rows) :=
  inferInstanceAs (Decidable (∀ r ∈ rows, ∀ r' ∈ rows, _))

section Find

variable [DecidableEq κ]

private theorem find_cons (r : α) (rows : List α) (k : κ) :
    find pk (r :: rows) k = if pk r = k then some r else find pk rows k := by
  by_cases h : pk r = k
  · rw [if_pos h]
    exact find?_cons_of_pos (decide_eq_true h)
  rw [if_neg h]
  exact find?_cons_of_neg (fun hd => h (of_decide_eq_true hd))

variable {rows : List α} {k : κ} {r : α}

theorem mem_of_find (h : find pk rows k = some r) : r ∈ rows :=
  mem_of_find?_eq_some h

theorem key_of_find (h : find pk rows k = some r) : pk r = k := by
  have hp := find?_some h
  exact of_decide_eq_true hp

theorem find_eq_none : find pk rows k = none ↔ ∀ r ∈ rows, pk r ≠ k := by
  rw [find, find?_eq_none]
  simp only [decide_eq_true_eq]

/-- Keys are distinct, so a row is found under its own key. -/
theorem find_of_mem (hnd : (rows.map pk).Nodup) (h : r ∈ rows) : find pk rows (pk r) = some r := by
  induction rows with
  | nil => cases h
  | cons hd rest ih =>
    rw [map_cons, nodup_cons] at hnd
    rw [find_cons]
    rcases mem_cons.mp h with rfl | hmem
    · rw [if_pos rfl]
    have hne : pk hd ≠ pk r := by
      intro heq
      exact hnd.1 (heq ▸ mem_map_of_mem hmem)
    rw [if_neg hne]
    exact ih hnd.2 hmem

theorem find_iff (hnd : (rows.map pk).Nodup) : find pk rows k = some r ↔ r ∈ rows ∧ pk r = k := by
  constructor
  · intro h
    exact ⟨mem_of_find h, key_of_find h⟩
  rintro ⟨hmem, rfl⟩
  exact find_of_mem hnd hmem

/-! ## Statements -/

theorem find_append (rows : List α) (r : α) (k : κ) : find pk (rows ++ [r]) k
      = (find pk rows k).or (if pk r = k then some r else none) := by
  induction rows with
  | nil =>
    rw [nil_append, find_cons]
    rfl
  | cons hd rest ih =>
    rw [cons_append, find_cons, find_cons, ih]
    by_cases h : pk hd = k
    · rw [if_pos h, if_pos h]
      rfl
    · rw [if_neg h, if_neg h]

variable {p : α → Bool} {rows : List α} {f : α → α}

theorem find_insert {r : α} (hfresh : find pk rows (pk r) = none) (k : κ) :
    find pk (rows ++ [r]) k = if pk r = k then some r else find pk rows k := by
  rw [find_append]
  by_cases h : pk r = k
  · rw [if_pos h, if_pos h, ← h, hfresh]
    rfl
  · rw [if_neg h, if_neg h, Option.or_none]

theorem map_modify {γ : Type} (g : α → γ) (hg : ∀ r, p r = true → g (f r) = g r) (rows : List α) :
    (modify p f rows).map g = rows.map g := by
  rw [modify, map_map]
  refine map_congr_left ?_
  intro r _
  show g (if p r then f r else r) = g r
  by_cases h : p r = true
  · rw [if_pos h]
    exact hg r h
  · rw [if_neg h]

/-- An update that keeps keys acts on every row on its own. -/
theorem find_modify (hf : ∀ r, p r = true → pk (f r) = pk r) (rows : List α) (k : κ) :
    find pk (modify p f rows) k = (find pk rows k).map (fun r => if p r then f r else r) := by
  induction rows with
  | nil => rfl
  | cons hd rest ih =>
    have hkey : pk (if p hd then f hd else hd) = pk hd := by
      by_cases h : p hd = true
      · rw [if_pos h]
        exact hf hd h
      · rw [if_neg h]
    show find pk ((if p hd then f hd else hd) :: modify p f rest) k = _
    rw [find_cons, find_cons, hkey, ih]
    by_cases h : pk hd = k
    · rw [if_pos h, if_pos h]
      rfl
    · rw [if_neg h, if_neg h]

theorem find_remove (rows : List α) (k₀ k : κ) : find pk (remove pk k₀ rows) k
      = if k₀ = k then none else find pk rows k := by
  induction rows with
  | nil =>
    show none = _
    split <;> rfl
  | cons hd rest ih =>
    by_cases hhd : pk hd = k₀
    · have hdrop : remove pk k₀ (hd :: rest) = remove pk k₀ rest := by simp [remove, hhd]
      rw [hdrop, ih, find_cons, hhd]
      by_cases hk : k₀ = k
      · rw [if_pos hk, if_pos hk]
      · rw [if_neg hk, if_neg hk, if_neg hk]
    have hkeep : remove pk k₀ (hd :: rest) = hd :: remove pk k₀ rest := by simp [remove, hhd]
    rw [hkeep, find_cons, find_cons, ih]
    by_cases hk : pk hd = k
    · have hne : k₀ ≠ k := fun h => hhd (hk.trans h.symm)
      rw [if_pos hk, if_neg hne, if_pos hk]
    · rw [if_neg hk, if_neg hk]

/-- A condition that names the key selects the row of that key, if it meets
    the condition. -/
theorem find?_guard (hnd : (rows.map pk).Nodup) {k : κ} (hp : ∀ r, p r = true → pk r = k) :
    rows.find? p = (find pk rows k).filter p := by
  cases hfind : find pk rows k with
  | none =>
    refine find?_eq_none.mpr ?_
    intro r hr hpr
    exact find_eq_none.mp hfind r hr (hp r hpr)
  | some r =>
    obtain ⟨hmem, hkey⟩ := (find_iff hnd).mp hfind
    by_cases hpr : p r = true
    · rw [Option.filter_some, if_pos hpr]
      cases hsel : rows.find? p with
      | none => exact absurd hpr (find?_eq_none.mp hsel r hmem)
      | some r' =>
        have hr' := (find_iff hnd).mpr ⟨mem_of_find?_eq_some hsel, hp r' (find?_some hsel)⟩
        rw [← hfind, ← hr']
    · rw [Option.filter_some, if_neg hpr]
      refine find?_eq_none.mpr ?_
      intro r' hr' hpr'
      have hfind' := (find_iff hnd).mpr ⟨hr', hp r' hpr'⟩
      rw [hfind] at hfind'
      rw [← Option.some.inj hfind'] at hpr'
      exact hpr hpr'

end Find

/-! ## Unique indexes under statements -/

theorem UniqueOn.modify {key : α → Option β} {p : α → Bool} {f : α → α}
    {rows : List α} (h : UniqueOn pk key rows) (hpk : ∀ r, p r = true → pk (f r) = pk r)
    (hkey : ∀ r, p r = true → key (f r) = key r) : UniqueOn pk key (modify p f rows) := by
  have hsame : ∀ r, pk (if p r then f r else r) = pk r ∧ key (if p r then f r else r) = key r := by
    intro r
    by_cases hp : p r = true
    · rw [if_pos hp]
      exact ⟨hpk r hp, hkey r hp⟩
    rw [if_neg hp]
    exact ⟨rfl, rfl⟩
  intro r hr r' hr' hne heq
  obtain ⟨r₀, hr₀, rfl⟩ := mem_map.mp hr
  obtain ⟨r₁, hr₁, rfl⟩ := mem_map.mp hr'
  rw [(hsame r₀).2] at hne
  rw [(hsame r₀).2, (hsame r₁).2] at heq
  rw [(hsame r₀).1, (hsame r₁).1]
  exact h r₀ hr₀ r₁ hr₁ hne heq

theorem UniqueOn.remove [DecidableEq κ] {key : α → Option β} {rows : List α}
    (h : UniqueOn pk key rows) (k : κ) : UniqueOn pk key (remove pk k rows) := by
  intro r hr r' hr'
  exact h r (mem_filter.mp hr).1 r' (mem_filter.mp hr').1

variable {rows : List α} {r : α}

theorem nodup_remove [DecidableEq κ] (h : (rows.map pk).Nodup) (k : κ) :
    ((remove pk k rows).map pk).Nodup :=
  h.sublist (filter_sublist.map pk)

theorem uniqueOn_insert {key : α → Option β}
    (h : UniqueOn pk key rows) (hfresh : ∀ r' ∈ rows, pk r' ≠ pk r) :
    UniqueOn pk key (rows ++ [r]) ↔ ∀ r' ∈ rows, key r ≠ none → key r' ≠ key r := by
  constructor
  · intro hall r' hr' hne heq
    refine hfresh r' hr' ?_
    exact hall r' (mem_append_left _ hr') r (mem_append_right _ (.head _)) (heq ▸ hne) heq
  intro hfree x hx y hy hne heq
  rcases mem_append.mp hx with hx | hx
  · rcases mem_append.mp hy with hy | hy
    · exact h x hx y hy hne heq
    rw [mem_singleton.mp hy] at heq
    exact absurd heq (hfree x hx (heq ▸ hne))
  rw [mem_singleton.mp hx] at hne heq ⊢
  rcases mem_append.mp hy with hy | hy
  · exact absurd heq.symm (hfree y hy hne)
  · rw [mem_singleton.mp hy]

theorem nodup_insert (h : (rows.map pk).Nodup) :
    ((rows ++ [r]).map pk).Nodup ↔ ∀ r' ∈ rows, pk r' ≠ pk r := by
  rw [map_append, map_singleton, nodup_append]
  constructor
  · rintro ⟨-, -, hne⟩ r' hr'
    exact hne (pk r') (mem_map_of_mem hr') (pk r) (.head _)
  intro hfree
  refine ⟨h, nodup_singleton _, ?_⟩
  intro a ha b hb
  obtain ⟨r', hr', rfl⟩ := mem_map.mp ha
  rw [mem_singleton.mp hb]
  exact hfree r' hr'

end Table
