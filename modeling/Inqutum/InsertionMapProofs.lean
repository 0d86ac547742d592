import Mathlib.Data.List.Nodup

/-!
# Insertion-ordered maps

A finite map that remembers the order in which its keys were first
written: writing a present key replaces the value in place, writing an
absent key appends it, and deleting a key forgets its position.  The
oldest key is the head of the entry list, which is what a bounded store
evicts first.

The entry list carries the proof that its keys are distinct, so a lookup
and a membership fact about the entries are the same thing
(`mem_entries_iff`).
-/

namespace InsertionMap

open List Option Prod

variable {K V : Type}

/-- The value stored at the first occurrence of a key. -/
def lookup [DecidableEq K] (k : K) : List (K × V) → Option V
  | [] => none
  | (k', v) :: rest => if k' = k then some v else lookup k rest

/-- Replace the value of a present key, append an absent one. -/
def write [DecidableEq K] (k : K) (v : V) : List (K × V) → List (K × V)
  | [] => [(k, v)]
  | (k', v') :: rest =>
    if k' = k then (k, v) :: rest else (k', v') :: write k v rest

/-- Forget a key. -/
def erase [DecidableEq K] (k : K) (l : List (K × V)) : List (K × V) :=
  l.filter (fun e => decide (e.1 ≠ k))

section Lists

variable [DecidableEq K]

private theorem lookup_cons (k k' : K) (v : V) (rest : List (K × V)) :
    lookup k ((k', v) :: rest) = if k' = k then some v else lookup k rest := rfl

private theorem write_cons (k k' : K) (v v' : V) (rest : List (K × V)) :
    write k v ((k', v') :: rest)
      = if k' = k then (k, v) :: rest else (k', v') :: write k v rest := rfl

variable {l : List (K × V)} {k : K} {v : V}

theorem lookup_eq_none : lookup k l = none ↔ k ∉ l.map fst := by
  induction l with
  | nil => simp [lookup]
  | cons hd rest ih =>
    obtain ⟨k', v⟩ := hd
    rw [lookup_cons]
    by_cases hk : k' = k
    · rw [if_pos hk]
      simp [hk]
    rw [if_neg hk, ih]
    simp [Ne.symm hk]

theorem mem_of_lookup (h : lookup k l = some v) : (k, v) ∈ l := by
  induction l with
  | nil => cases h
  | cons hd rest ih =>
    obtain ⟨k', v'⟩ := hd
    rw [lookup_cons] at h
    by_cases hk : k' = k
    · rw [if_pos hk] at h
      rw [some.inj h, hk]
      exact (.head _)
    rw [if_neg hk] at h
    exact .tail _ (ih h)

theorem lookup_of_mem (hnd : (l.map fst).Nodup) (h : (k, v) ∈ l) : lookup k l = some v := by
  induction l with
  | nil => cases h
  | cons hd rest ih =>
    obtain ⟨k', v'⟩ := hd
    have hnd' := nodup_cons.mp hnd
    rw [lookup_cons]
    rcases mem_cons.mp h with heq | hmem
    · have hk : k' = k := (congrArg fst heq).symm
      have hv : v' = v := (congrArg snd heq).symm
      rw [if_pos hk, hv]
    have hk : k' ≠ k := by
      intro hkk
      exact hnd'.1 (mem_map.mpr ⟨(k, v), hmem, hkk.symm⟩)
    rw [if_neg hk]
    exact ih hnd'.2 hmem

theorem lookup_write (k k₀ : K) (v : V) (l : List (K × V)) :
    lookup k (write k₀ v l) = if k₀ = k then some v else lookup k l := by
  induction l with
  | nil => rfl
  | cons hd rest ih =>
    obtain ⟨k', v'⟩ := hd
    rw [write_cons]
    by_cases hw : k' = k₀
    · rw [if_pos hw, lookup_cons, lookup_cons, hw]
      by_cases hk : k₀ = k
      · rw [if_pos hk, if_pos hk]
      · rw [if_neg hk, if_neg hk, if_neg hk]
    rw [if_neg hw, lookup_cons, lookup_cons, ih]
    by_cases hk : k' = k
    · have hk₀ : k₀ ≠ k := fun h => hw (hk.trans h.symm)
      rw [if_pos hk, if_neg hk₀, if_pos hk]
    · rw [if_neg hk, if_neg hk]

theorem lookup_erase (k k₀ : K) (l : List (K × V)) :
    lookup k (erase k₀ l) = if k₀ = k then none else lookup k l := by
  induction l with
  | nil => simp [erase, lookup]
  | cons hd rest ih =>
    obtain ⟨k', v'⟩ := hd
    by_cases hd : k' = k₀
    · have herase : erase k₀ ((k', v') :: rest) = erase k₀ rest := by simp [erase, hd]
      rw [herase, ih, lookup_cons, hd]
      by_cases hk : k₀ = k
      · rw [if_pos hk, if_pos hk]
      · rw [if_neg hk, if_neg hk, if_neg hk]
    have herase : erase k₀ ((k', v') :: rest) = (k', v') :: erase k₀ rest := by simp [erase, hd]
    rw [herase, lookup_cons, lookup_cons, ih]
    by_cases hk : k' = k
    · have hk₀ : k₀ ≠ k := fun h => hd (hk.trans h.symm)
      rw [if_pos hk, if_neg hk₀, if_pos hk]
    · rw [if_neg hk, if_neg hk]

theorem keys_write (k : K) (v : V) (l : List (K × V)) : (write k v l).map fst
      = if k ∈ l.map fst then l.map fst else l.map fst ++ [k] := by
  induction l with
  | nil => rfl
  | cons hd rest ih =>
    obtain ⟨k', v'⟩ := hd
    rw [write_cons]
    by_cases hk : k' = k
    · rw [if_pos hk, if_pos (by simp [hk])]
      simp [hk]
    rw [if_neg hk]
    have hmem : k ∈ ((k', v') :: rest).map fst ↔ k ∈ rest.map fst := by
      simp [Ne.symm hk]
    rw [map_cons, ih]
    by_cases hin : k ∈ rest.map fst
    · rw [if_pos hin, if_pos (hmem.mpr hin)]
      rfl
    rw [if_neg hin, if_neg (fun h => hin (hmem.mp h))]
    rfl

theorem nodup_write (k : K) (v : V) (hnd : (l.map fst).Nodup) :
    ((write k v l).map fst).Nodup := by
  rw [keys_write]
  by_cases hin : k ∈ l.map fst
  · rw [if_pos hin]
    exact hnd
  rw [if_neg hin]
  refine Nodup.append hnd (nodup_singleton k) ?_
  intro x hx hxk
  exact hin (mem_singleton.mp hxk ▸ hx)

theorem write_of_not_mem (h : k ∉ l.map fst) : write k v l = l ++ [(k, v)] := by
  induction l with
  | nil => rfl
  | cons hd rest ih =>
    obtain ⟨k', v'⟩ := hd
    rw [map_cons, mem_cons, not_or] at h
    rw [write_cons, if_neg (Ne.symm h.1), ih h.2]
    rfl

theorem write_of_mem (hnd : (l.map fst).Nodup) (h : k ∈ l.map fst) :
    write k v l = l.map (fun e => if e.1 = k then (k, v) else e) := by
  induction l with
  | nil => cases h
  | cons hd rest ih =>
    obtain ⟨k', v'⟩ := hd
    rw [map_cons, nodup_cons] at hnd
    rw [write_cons, map_cons]
    by_cases hk : k' = k
    · have hrest : rest.map (fun e => if e.1 = k then (k, v) else e) = rest := by
        refine (map_congr_left ?_).trans (map_id rest)
        intro e he
        have hin : e.1 ∈ rest.map fst := mem_map_of_mem he
        refine if_neg (fun hek => hnd.1 ?_)
        rw [hek, ← hk] at hin
        exact hin
      rw [if_pos hk, if_pos hk, hrest]
    · rw [map_cons, mem_cons] at h
      rw [if_neg hk, if_neg hk, ih hnd.2 (h.resolve_left (Ne.symm hk))]

theorem countP_write (k : K) (v : V) (l : List (K × V)) (p : V → Bool) :
    ((write k v l).map snd).countP p + (if (lookup k l).any p = true then 1 else 0)
      = (l.map snd).countP p + (if p v = true then 1 else 0) := by
  induction l with
  | nil =>
    rw [write, lookup, any_none]
    simp only [map_cons, map_nil, countP_cons]
    rfl
  | cons hd rest ih =>
    obtain ⟨k', v'⟩ := hd
    rw [write_cons, lookup_cons]
    by_cases hk : k' = k
    · rw [if_pos hk, if_pos hk, any_some]
      simp only [map_cons, countP_cons]
      omega
    rw [if_neg hk, if_neg hk]
    simp only [map_cons, countP_cons]
    omega

theorem erase_of_not_mem (h : k ∉ l.map fst) : erase k l = l := by
  refine filter_eq_self.mpr ?_
  intro e he
  refine decide_eq_true ?_
  intro hek
  exact h (mem_map.mpr ⟨e, he, hek⟩)

theorem nodup_erase (k : K) (hnd : (l.map fst).Nodup) : ((erase k l).map fst).Nodup :=
  hnd.sublist (filter_sublist.map fst)

end Lists

end InsertionMap

/-! ## The map and its operations -/

/-- An insertion-ordered map: distinct keys, oldest first. -/
structure InsertionMap (K V : Type) where
  entries : List (K × V)
  nodup : (entries.map Prod.fst).Nodup

namespace InsertionMap

variable {K V : Type}

@[ext] theorem ext_entries {m m' : InsertionMap K V} (h : m.entries = m'.entries) : m = m' := by
  cases m
  cases m'
  cases h
  rfl

def empty : InsertionMap K V := ⟨[], List.nodup_nil⟩

def size (m : InsertionMap K V) : Nat := m.entries.length

def keys (m : InsertionMap K V) : List K := m.entries.map Prod.fst

def values (m : InsertionMap K V) : List V := m.entries.map Prod.snd

/-- The key written first among those present. -/
def oldest (m : InsertionMap K V) : Option K := m.keys.head?

theorem oldest_eq_none {m : InsertionMap K V} : m.oldest = none ↔ m.size = 0 := by
  rw [oldest, List.head?_eq_none_iff, keys, List.map_eq_nil_iff, size, List.length_eq_zero_iff]

section Ops

variable [DecidableEq K]

def get (m : InsertionMap K V) (k : K) : Option V := lookup k m.entries

def has (m : InsertionMap K V) (k : K) : Bool := (m.get k).isSome

def set (m : InsertionMap K V) (k : K) (v : V) : InsertionMap K V :=
  ⟨write k v m.entries, nodup_write k v m.nodup⟩

def delete (m : InsertionMap K V) (k : K) : InsertionMap K V :=
  ⟨erase k m.entries, nodup_erase k m.nodup⟩

@[simp] theorem get_empty (k : K) : (empty : InsertionMap K V).get k = none := rfl

theorem get_set (m : InsertionMap K V) (k₀ : K) (v : V) (k : K) :
    (m.set k₀ v).get k = if k₀ = k then some v else m.get k :=
  lookup_write k k₀ v m.entries

theorem get_delete (m : InsertionMap K V) (k₀ k : K) :
    (m.delete k₀).get k = if k₀ = k then none else m.get k :=
  lookup_erase k k₀ m.entries

@[simp] theorem get_set_self (m : InsertionMap K V) (k : K) (v : V) :
    (m.set k v).get k = some v := by
  rw [get_set, if_pos rfl]

@[simp] theorem get_delete_self (m : InsertionMap K V) (k : K) : (m.delete k).get k = none := by
  rw [get_delete, if_pos rfl]

theorem get_set_of_ne (m : InsertionMap K V) {k₀ k : K} (v : V)
    (h : k₀ ≠ k) : (m.set k₀ v).get k = m.get k := by
  rw [get_set, if_neg h]

theorem get_delete_of_ne (m : InsertionMap K V) {k₀ k : K}
    (h : k₀ ≠ k) : (m.delete k₀).get k = m.get k := by
  rw [get_delete, if_neg h]

/-- **LOOKUP IS MEMBERSHIP**: keys are distinct, so the entries of a map are
    exactly its lookups. -/
theorem mem_entries_iff (m : InsertionMap K V) (k : K) (v : V) :
    (k, v) ∈ m.entries ↔ m.get k = some v :=
  ⟨lookup_of_mem m.nodup, mem_of_lookup⟩

theorem mem_values_iff (m : InsertionMap K V) (v : V) : v ∈ m.values ↔ ∃ k, m.get k = some v := by
  constructor
  · intro h
    obtain ⟨⟨k, v'⟩, hmem, heq⟩ := List.mem_map.mp h
    have hv : v' = v := heq
    subst hv
    exact ⟨k, (m.mem_entries_iff k v').mp hmem⟩
  rintro ⟨k, hk⟩
  exact List.mem_map.mpr ⟨(k, v), (m.mem_entries_iff k v).mpr hk, rfl⟩

variable {m : InsertionMap K V} {k : K} {v : V} {keep : V → Bool} {id : V → K}

/-- An absent key is appended. -/
theorem values_set_of_none (h : m.get k = none) : (m.set k v).values = m.values ++ [v] := by
  show (write k v m.entries).map Prod.snd = _
  rw [write_of_not_mem (lookup_eq_none.mp h), List.map_append]
  rfl

/-- A present key keeps its place. -/
theorem values_set_of_some {v old : V} (h : m.get k = some old) :
    (m.set k v).values = m.entries.map (fun e => if e.1 = k then v else e.2) := by
  have hmem : k ∈ m.entries.map Prod.fst := by
    by_contra hno
    rw [get, lookup_eq_none.mpr hno] at h
    cases h
  show (write k v m.entries).map Prod.snd = _
  rw [write_of_mem m.nodup hmem, List.map_map]
  refine List.map_congr_left ?_
  intro e _
  by_cases hk : e.1 = k
  · simp only [Function.comp_apply, if_pos hk]
  · simp only [Function.comp_apply, if_neg hk]

theorem countP_set (m : InsertionMap K V) (k : K) (v : V) (p : V → Bool) :
    (m.set k v).values.countP p + (if (m.get k).any p = true then 1 else 0)
      = m.values.countP p + (if p v = true then 1 else 0) :=
  countP_write k v m.entries p

theorem has_iff (m : InsertionMap K V) (k : K) : m.has k = true ↔ ∃ v, m.get k = some v :=
  Option.isSome_iff_exists

theorem has_eq_false (m : InsertionMap K V) (k : K) : m.has k = false ↔ m.get k = none := by
  rw [has, Option.isSome_eq_false_iff, Option.isNone_iff_eq_none]

theorem mem_keys_iff (m : InsertionMap K V) (k : K) : k ∈ m.keys ↔ m.has k = true := by
  have h := lookup_eq_none (k := k) (l := m.entries)
  rw [has, Option.isSome_iff_ne_none]
  constructor
  · intro hk hnone
    exact h.mp hnone hk
  intro hne
  by_contra hk
  exact hne (h.mpr hk)

/-- The oldest key is present unless the map is empty. -/
theorem oldest_has (h : m.oldest = some k) : m.has k = true := by
  rw [← mem_keys_iff]
  exact List.mem_of_mem_head? (Option.mem_def.mpr h)

/-- Deleting a present key removes exactly one entry. -/
theorem size_delete_of_has (h : m.has k = true) : (m.delete k).size + 1 = m.size := by
  obtain ⟨l, hnd⟩ := m
  have hmem : k ∈ l.map Prod.fst := (mem_keys_iff ⟨l, hnd⟩ k).mpr h
  show (erase k l).length + 1 = l.length
  clear h
  induction l with
  | nil => cases hmem
  | cons hd rest ih =>
    obtain ⟨k', v⟩ := hd
    have hnd' := List.nodup_cons.mp hnd
    by_cases hk : k' = k
    · have hrest : erase k rest = rest := erase_of_not_mem (hk ▸ hnd'.1)
      have : erase k ((k', v) :: rest) = erase k rest := by simp [erase, hk]
      rw [this, hrest]
      rfl
    have : erase k ((k', v) :: rest) = (k', v) :: erase k rest := by simp [erase, hk]
    rw [this]
    have hmem' : k ∈ rest.map Prod.fst := by
      rcases List.mem_cons.mp hmem with heq | hm
      · exact absurd heq.symm hk
      · exact hm
    have := ih hnd'.2 hmem'
    simp only [List.length_cons]
    omega

theorem entries_delete_oldest (h : m.oldest = some k) : (m.delete k).entries = m.entries.tail := by
  obtain ⟨l, hnd⟩ := m
  cases l with
  | nil => cases h
  | cons hd rest =>
    obtain rfl : hd.1 = k := Option.some.inj h
    show erase hd.1 (hd :: rest) = rest
    have hfirst : erase hd.1 (hd :: rest) = erase hd.1 rest := List.filter_cons_of_neg (by simp)
    rw [hfirst, erase_of_not_mem (List.nodup_cons.mp hnd).1]

theorem size_set (m : InsertionMap K V) (k : K) (v : V) :
    (m.set k v).size = if m.has k = true then m.size else m.size + 1 := by
  have hlen := congrArg List.length (keys_write k v m.entries)
  rw [List.length_map] at hlen
  show (write k v m.entries).length = _
  rw [hlen]
  by_cases hk : m.has k = true
  · have hin : k ∈ m.entries.map Prod.fst := (m.mem_keys_iff k).mpr hk
    rw [if_pos hk, if_pos hin, List.length_map]
    rfl
  have hout : k ∉ m.entries.map Prod.fst :=
    fun hin => hk ((m.mem_keys_iff k).mp hin)
  rw [if_neg hk, if_neg hout, List.length_append, List.length_map]
  rfl

theorem has_set (m : InsertionMap K V) (k₀ : K) (v : V) (k : K) :
    (m.set k₀ v).has k = (decide (k₀ = k) || m.has k) := by
  rw [has, get_set]
  by_cases hk : k₀ = k
  · rw [if_pos hk, decide_eq_true hk]
    rfl
  rw [if_neg hk, decide_eq_false hk, Bool.false_or]
  rfl

theorem has_delete (m : InsertionMap K V) (k₀ k : K) :
    (m.delete k₀).has k = (!decide (k₀ = k) && m.has k) := by
  rw [has, get_delete]
  by_cases hk : k₀ = k
  · rw [if_pos hk, decide_eq_true hk]
    rfl
  rw [if_neg hk, decide_eq_false hk, Bool.not_false, Bool.true_and]
  rfl

theorem map_values_eq_keys (h : ∀ k v, m.get k = some v → id v = k) : m.values.map id = m.keys := by
  rw [values, List.map_map]
  refine List.map_congr_left ?_
  rintro ⟨k, v⟩ hmem
  exact h k v ((m.mem_entries_iff k v).mp hmem)

theorem get_of_mem_values (h : ∀ k v, m.get k = some v → id v = k) (hv : v ∈ m.values) :
    m.get (id v) = some v := by
  obtain ⟨k, hk⟩ := (m.mem_values_iff v).mp hv
  rw [h k v hk]
  exact hk

theorem get_deletes (ks : List K) (m : InsertionMap K V) (k : K) :
    (ks.foldl (fun m k => m.delete k) m).get k = if k ∈ ks then none else m.get k := by
  induction ks generalizing m with
  | nil => rw [List.foldl_nil, if_neg (List.not_mem_nil)]
  | cons k₀ rest ih =>
    rw [List.foldl_cons, ih, get_delete]
    by_cases hrest : k ∈ rest
    · rw [if_pos hrest, if_pos (.tail _ hrest)]
    rw [if_neg hrest]
    by_cases hk : k₀ = k
    · rw [if_pos hk, if_pos (List.mem_cons.mpr (.inl hk.symm))]
    rw [if_neg hk, if_neg]
    intro hmem
    rcases List.mem_cons.mp hmem with heq | hin
    · exact hk heq.symm
    · exact hrest hin

/-- The entries whose value passes, in their order: what deleting the others
    one by one leaves. -/
def filter (m : InsertionMap K V) (keep : V → Bool) : InsertionMap K V :=
  ⟨m.entries.filter (fun e => keep e.2), m.nodup.sublist (List.filter_sublist.map Prod.fst)⟩

theorem get_filter (m : InsertionMap K V) (keep : V → Bool) (k : K) :
    (m.filter keep).get k = (m.get k).filter keep := by
  ext v
  rw [← mem_entries_iff, Option.filter_eq_some_iff, ← mem_entries_iff, filter, List.mem_filter]

/-- What passes stays. -/
theorem get_filter_of_keep (h : m.get k = some v) (hkeep : keep v = true) :
    (m.filter keep).get k = some v := by
  rw [get_filter, h, Option.filter_some, if_pos hkeep]

theorem get_of_get_filter (h : (m.filter keep).get k = some v) :
    m.get k = some v ∧ keep v = true := by
  rw [get_filter] at h
  exact Option.filter_eq_some_iff.mp h

/-! ### Values that name their keys -/

/-- `new Map(vs.map(v => [key v, v]))`. -/
def collect (key : V → K) (vs : List V) : InsertionMap K V :=
  vs.foldl (fun m v => m.set (key v) v) empty

theorem get_foldl_set (key : V → K) (vs : List V) (m : InsertionMap K V) (k : K) :
    (vs.foldl (fun m v => m.set (key v) v) m).get k
      = (vs.reverse.find? (fun v => key v = k)).or (m.get k) := by
  induction vs generalizing m with
  | nil => rfl
  | cons v rest ih =>
    rw [List.foldl_cons, ih, get_set, List.reverse_cons, List.find?_append,
      Option.or_assoc, List.find?_singleton]
    by_cases hk : key v = k
    · simp only [hk, if_true, decide_true, Option.some_or]
    · simp only [hk, if_false, decide_false, Option.none_or, Bool.false_eq_true]

theorem get_collect (key : V → K) (vs : List V) (k : K) :
    (collect key vs).get k = vs.reverse.find? (fun v => key v = k) := by
  rw [collect, get_foldl_set, get_empty, Option.or_none]

variable {m : InsertionMap K V} {key : V → K} {vs : List V}

theorem entries_foldl_set (h : (m.entries.map Prod.fst ++ vs.map key).Nodup) :
    (vs.foldl (fun m v => m.set (key v) v) m).entries
      = m.entries ++ vs.map (fun v => (key v, v)) := by
  induction vs generalizing m with
  | nil => rw [List.foldl_nil, List.map_nil, List.append_nil]
  | cons v rest ih =>
    have hnew : key v ∉ m.entries.map Prod.fst := by
      intro hmem
      exact (List.nodup_append.mp h).2.2 _ hmem _ (.head _) rfl
    have hentries : (m.set (key v) v).entries = m.entries ++ [(key v, v)] := write_of_not_mem hnew
    have hnodup : ((m.set (key v) v).entries.map Prod.fst ++ rest.map key).Nodup := by
      rw [hentries, List.map_append, List.append_assoc]
      exact h
    rw [List.foldl_cons, ih hnodup, hentries, List.append_assoc]
    rfl

/-- **A MAP IS COLLECTED FROM ITS VALUES**, where a value knows its key. -/
theorem collect_values (h : ∀ k v, m.get k = some v → key v = k) : collect key m.values = m := by
  have hkeys : m.values.map key = m.entries.map Prod.fst := map_values_eq_keys h
  have hnodup : ((empty : InsertionMap K V).entries.map Prod.fst ++ m.values.map key).Nodup := by
    rw [hkeys]
    exact m.nodup
  apply ext_entries
  rw [collect, entries_foldl_set hnodup, values, List.map_map]
  show List.map _ m.entries = m.entries
  conv_rhs => rw [← List.map_id m.entries]
  refine List.map_congr_left ?_
  rintro ⟨k, v⟩ hmem
  exact congrArg (fun k => (k, v)) (h k v ((m.mem_entries_iff k v).mp hmem))

omit [DecidableEq K] in
theorem values_filter (m : InsertionMap K V) (keep : V → Bool) :
    (m.filter keep).values = m.values.filter keep := by
  rw [values, values, List.filter_map]
  rfl

theorem get_collect_filter (h : ∀ k v, m.get k = some v → key v = k) (keep : V → Bool) (k : K) :
    (collect key (m.values.filter keep)).get k = (m.get k).filter keep := by
  have hkeyed : ∀ k v, (m.filter keep).get k = some v → key v = k :=
    fun k v hget => h k v (get_of_get_filter hget).1
  rw [← values_filter, collect_values hkeyed, get_filter]

theorem get_collect_of_nodup (h : (vs.map key).Nodup) {k : K} {v : V} :
    (collect key vs).get k = some v ↔ v ∈ vs ∧ key v = k := by
  have hentries : (collect key vs).entries = vs.map (fun v => (key v, v)) :=
    entries_foldl_set (m := empty) h
  rw [← mem_entries_iff, hentries, List.mem_map]
  constructor
  · rintro ⟨v', hmem, heq⟩
    cases heq
    exact ⟨hmem, rfl⟩
  rintro ⟨hmem, rfl⟩
  exact ⟨v, hmem, rfl⟩

end Ops

end InsertionMap
