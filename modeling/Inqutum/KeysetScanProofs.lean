import Inqutum.KeysetPagingProofs
import Mathlib.Data.List.Forall2
import Mathlib.Data.List.Nodup

/-!
# Keyset scans that repair what they find

A scan walks the records of a table in key order, page by page.  It picks
the records that match a condition and repairs each row it has picked,
which changes the state the next page is selected from.  A repair is
local: it changes at most the record of its row, and what the condition
reads elsewhere stays.

So the pages of a scan come to one sweep over the rows that were selected
at its start, whatever the page sizes (`finish_full`).
-/

/-- A table, listed by ascending primary key. -/
structure KeyTable {ρ κ : Type} [LinearOrder κ] (id : ρ → κ) where
  rows : List ρ
  ascending : rows.Pairwise (fun x y => id x < id y)

namespace KeyTable

open List

variable {ρ κ : Type} [LinearOrder κ] {id : ρ → κ}

theorem eq_of_rows {a b : KeyTable id} (h : a.rows = b.rows) : a = b := by
  cases a
  cases b
  cases h
  rfl

/-- `UPDATE … WHERE id = k AND p`. -/
def update (table : KeyTable id) (k : κ) (p : ρ → Bool) (f : ρ → ρ)
    (hf : ∀ x, id (f x) = id x) : KeyTable id where
  rows := table.rows.map (fun x =>
    if decide (id x = k) && p x then f x else x)
  ascending := by
    refine pairwise_map.mpr (table.ascending.imp ?_)
    intro x y hlt
    have hid : ∀ z, id (if decide (id z = k) && p z then f z else z) = id z := by
      intro z
      split
      · exact hf z
      · rfl
    rw [hid, hid]
    exact hlt

/-- A change of at most the row under one key. -/
def ChangesAt (k : κ) (table table' : KeyTable id) : Prop :=
  ∃ f : ρ → ρ, table'.rows = table.rows.map f ∧ (∀ x, id (f x) = id x) ∧ ∀ x, id x ≠ k → f x = x

theorem changesAt_refl (k : κ) (table : KeyTable id) : ChangesAt k table table :=
  ⟨fun x => x, (map_id _).symm, fun _ => rfl, fun _ _ => rfl⟩

theorem ChangesAt.trans {k : κ} {a b c : KeyTable id}
    (hab : ChangesAt k a b) (hbc : ChangesAt k b c) : ChangesAt k a c := by
  obtain ⟨f, hf, hid, hother⟩ := hab
  obtain ⟨g, hg, hid', hother'⟩ := hbc
  refine ⟨fun x => g (f x), ?_, fun x => (hid' _).trans (hid x), ?_⟩
  · rw [hg, hf, map_map]
    rfl
  intro x hx
  show g (f x) = x
  rw [hother x hx, hother' x hx]

theorem changesAt_update (table : KeyTable id) (k : κ) (p : ρ → Bool)
    (f : ρ → ρ) (hf : ∀ x, id (f x) = id x) : ChangesAt k table (table.update k p f hf) := by
  refine ⟨_, rfl, ?_, ?_⟩
  · intro x
    split
    · exact hf x
    · rfl
  intro x hx
  rw [decide_eq_false hx]
  rfl

theorem update_rows (table : KeyTable id) (k : κ) (p : ρ → Bool) (f : ρ → ρ)
    (hf : ∀ x, id (f x) = id x) : ∃ g : ρ → ρ, (table.update k p f hf).rows = table.rows.map g
      ∧ ∀ x, (g x = x ∧ ¬ (id x = k ∧ p x = true)) ∨ (id x = k ∧ p x = true ∧ g x = f x) := by
  refine ⟨_, rfl, ?_⟩
  intro x
  by_cases h : id x = k ∧ p x = true
  · right
    refine ⟨h.1, h.2, if_pos ?_⟩
    rw [decide_eq_true h.1, h.2]
    rfl
  left
  refine ⟨if_neg ?_, h⟩
  rw [Bool.and_eq_true, decide_eq_true_eq]
  exact h

theorem mem_update {table : KeyTable id} {k : κ} {p : ρ → Bool} {f : ρ → ρ}
    {hf : ∀ x, id (f x) = id x} {x' : ρ} (h : x' ∈ (table.update k p f hf).rows) (hid : id x' = k) :
    ∃ x ∈ table.rows, id x = k ∧ x' = if p x = true then f x else x := by
  obtain ⟨x, hx, rfl⟩ := mem_map.mp h
  have hkey : id x = k := by
    rw [← hid]
    split
    · exact (hf x).symm
    · rfl
  refine ⟨x, hx, hkey, ?_⟩
  rw [decide_eq_true hkey, Bool.true_and]

end KeyTable

/-- A scan over the records of a state. -/
structure KeysetScan (σ ρ α κ β : Type) [LinearOrder κ] where
  records : σ → List ρ
  id : ρ → κ
  ascending : ∀ s, (records s).Pairwise (fun x y => id x < id y)
  /-- The row of a record that matches the condition. -/
  pick : σ → ρ → Option α
  key : α → κ
  key_pick : ∀ {s x r}, pick s x = some r → key r = id x
  repair : σ → α → σ × β
  /-- A repair changes at most the record of its row. -/
  changes_one : ∀ s r, ∃ f : ρ → ρ,
    records (repair s r).1 = (records s).map f ∧ (∀ x, id (f x) = id x)
      ∧ (∀ x, id x ≠ key r → f x = x)
      ∧ ∀ x, pick (repair s r).1 x = pick s x

namespace KeysetScan

open Paging (After rowsAfter)

variable {σ ρ α κ β : Type} [LinearOrder κ] (S : KeysetScan σ ρ α κ β)

/-- The rows that match, in key order. -/
def select (s : σ) : List α := (S.records s).filterMap (S.pick s)

/-- The rows after a position. -/
def ahead (c : Option κ) (s : σ) : List α := rowsAfter S.key c (S.select s)

def page (c : Option κ) (n : Nat) (s : σ) : List α := (S.ahead c s).take n

/-- The position after a page. -/
def next (c : Option κ) (n : Nat) (s : σ) : Option κ :=
  Paging.next S.key (S.page c n s)

/-- A page that is full may be followed by another. -/
def isFull (c : Option κ) (n : Nat) (s : σ) : Bool :=
  decide ((S.page c n s).length = n)

/-- Repair some rows, one after the other. -/
def sweep (s : σ) : List α → σ × List (κ × β)
  | [] => (s, [])
  | r :: rest =>
    let after := sweep (S.repair s r).1 rest
    (after.1, (S.key r, (S.repair s r).2) :: after.2)

def batch (c : Option κ) (n : Nat) (s : σ) : σ × List (κ × β) :=
  S.sweep s (S.page c n s)

def finish (c : Option κ) (s : σ) : σ × List (κ × β) :=
  S.sweep s (S.ahead c s)

/-! ## Selections -/

variable {S} {s : σ} {c : Option κ} {n : Nat}

theorem mem_select {r : α} : r ∈ S.select s ↔ ∃ x ∈ S.records s, S.pick s x = some r :=
  List.mem_filterMap

theorem eq_of_id {x y : ρ} (hx : x ∈ S.records s) (hy : y ∈ S.records s)
    (h : S.id x = S.id y) : x = y := by
  have hnodup : ((S.records s).map S.id).Nodup :=
    List.pairwise_map.mpr ((S.ascending s).imp (fun hlt => ne_of_lt hlt))
  exact List.inj_on_of_nodup_map hnodup hx hy h

theorem mem_ahead {r : α} : r ∈ S.ahead c s ↔ r ∈ S.select s ∧ After c (S.key r) :=
  Paging.mem_rowsAfter

theorem ahead_none (s : σ) : S.ahead none s = S.select s := by
  rw [ahead, rowsAfter, List.filter_eq_self]
  intro r _
  rw [decide_eq_true_eq]
  rintro _ ⟨⟩

theorem select_ascending : (S.select s).Pairwise (fun a b => S.key a < S.key b) := by
  refine List.Pairwise.filterMap _ ?_ (S.ascending s)
  intro x y hlt r hr r' hr'
  rw [S.key_pick hr, S.key_pick hr']
  exact hlt

theorem ahead_ascending : (S.ahead c s).Pairwise (fun a b => S.key a < S.key b) :=
  select_ascending.filter _

theorem mem_page {r : α} (h : r ∈ S.page c n s) : r ∈ S.select s ∧ After c (S.key r) :=
  mem_ahead.mp (List.mem_of_mem_take h)

theorem page_ascending : (S.page c n s).Pairwise (fun a b => S.key a < S.key b) :=
  ahead_ascending.sublist (List.take_sublist _ _)

/-- A later position cuts a selection further. -/
theorem ahead_ahead {k : κ} (h : After c k) (s : σ) :
    S.ahead (some k) s = rowsAfter S.key (some k) (S.ahead c s) := by
  rw [ahead, ahead, rowsAfter, rowsAfter, rowsAfter, List.filter_filter]
  refine List.filter_congr ?_
  intro r _
  rw [← Bool.decide_and]
  refine decide_eq_decide.mpr ⟨fun hk => ⟨hk, ?_⟩, fun hk => hk.1⟩
  intro b hb
  exact (h b hb).trans (hk k rfl)

/-! ## What a repair leaves -/

theorem ids_repair (s : σ) (r : α) :
    (S.records (S.repair s r).1).map S.id = (S.records s).map S.id := by
  obtain ⟨f, hrecords, hid, -, -⟩ := S.changes_one s r
  rw [hrecords, List.map_map]
  exact List.map_congr_left (fun x _ => hid x)

theorem pick_repair (s : σ) (r : α) (x : ρ) : S.pick (S.repair s r).1 x = S.pick s x := by
  obtain ⟨-, -, -, -, hpick⟩ := S.changes_one s r
  exact hpick x

theorem mem_repair {r : α} {x : ρ} (h : S.id x ≠ S.key r) :
    x ∈ S.records (S.repair s r).1 ↔ x ∈ S.records s := by
  obtain ⟨f, hrecords, hid, hother, -⟩ := S.changes_one s r
  rw [hrecords, List.mem_map]
  constructor
  · rintro ⟨y, hy, rfl⟩
    rw [hid] at h
    rw [hother y h]
    exact hy
  intro hx
  exact ⟨x, hx, hother x h⟩

/-- **A REPAIR LEAVES THE ROWS AFTER IT**. -/
theorem ahead_repair (s : σ) (r : α) : S.ahead (some (S.key r)) (S.repair s r).1
      = S.ahead (some (S.key r)) s := by
  obtain ⟨f, hrecords, hid, hother, hpick⟩ := S.changes_one s r
  have hselect : S.select (S.repair s r).1 = (S.records s).filterMap (fun x => S.pick s (f x)) := by
    rw [select, hrecords, List.filterMap_map]
    exact List.filterMap_congr (fun x _ => hpick (f x))
  rw [ahead, ahead, hselect, select, rowsAfter, rowsAfter,
    List.filter_filterMap, List.filter_filterMap]
  refine List.filterMap_congr ?_
  intro x _
  by_cases hx : S.id x = S.key r
  · -- the row of the record itself is not after its own key
    have hnone : ∀ y, S.id y = S.id x →
        Option.filter (fun a => decide (After (some (S.key r)) (S.key a))) (S.pick s y) = none := by
      intro y hy
      rw [Option.filter_eq_none_iff]
      intro a ha
      rw [decide_eq_true_eq]
      intro hafter
      refine absurd (hafter (S.key r) rfl) ?_
      rw [S.key_pick ha, hy, hx]
      exact lt_irrefl _
    rw [hnone x rfl, hnone (f x) (hid x)]
  · rw [hother x hx]

/-! ## Sweeps -/

theorem sweep_append (s : σ) (rows rows' : List α) : S.sweep s (rows ++ rows')
      = ((S.sweep (S.sweep s rows).1 rows').1,
        (S.sweep s rows).2 ++ (S.sweep (S.sweep s rows).1 rows').2) := by
  induction rows generalizing s with
  | nil => rfl
  | cons r rest ih => simp only [List.cons_append, sweep, ih]

theorem keys_sweep (s : σ) (rows : List α) : (S.sweep s rows).2.map Prod.fst = rows.map S.key := by
  induction rows generalizing s with
  | nil => rfl
  | cons r rest ih => simp only [sweep, List.map_cons, ih]

theorem ids_sweep (s : σ) (rows : List α) :
    (S.records (S.sweep s rows).1).map S.id = (S.records s).map S.id := by
  induction rows generalizing s with
  | nil => rfl
  | cons r rest ih => exact (ih _).trans (ids_repair s r)

variable {rows : List α} {g : α → ρ → ρ} {x : ρ}

theorem mem_sweep (h : S.id x ∉ rows.map S.key) :
    x ∈ S.records (S.sweep s rows).1 ↔ x ∈ S.records s := by
  induction rows generalizing s with
  | nil => exact Iff.rfl
  | cons r rest ih =>
    rw [List.map_cons, List.mem_cons, not_or] at h
    exact (ih h.2).trans (mem_repair h.1)

theorem sweep_keeps {P : σ → Prop} (ok : β → Prop)
    (h : ∀ s, P s → ∀ r ∈ rows, ok (S.repair s r).2 → P (S.repair s r).1)
    (hok : ∀ v ∈ (S.sweep s rows).2, ok v.2) (hs : P s) : P (S.sweep s rows).1 := by
  induction rows generalizing s with
  | nil => exact hs
  | cons r rest ih =>
    have hfirst := h s hs r (.head _) (hok _ (.head _))
    refine ih (fun s hs r hr => h s hs r (.tail _ hr)) ?_ hfirst
    exact fun v hv => hok v (.tail _ hv)

theorem visit_of_mem {r : α} (hr : r ∈ rows) :
    ∃ s', (S.key r, (S.repair s' r).2) ∈ (S.sweep s rows).2 := by
  induction rows generalizing s with
  | nil => cases hr
  | cons r' rest ih =>
    rcases List.mem_cons.mp hr with rfl | hr
    · exact ⟨s, (.head _)⟩
    obtain ⟨s', hmem⟩ := ih hr
    exact ⟨s', .tail _ hmem⟩

theorem sweep_still (h : ∀ r ∈ rows, (S.repair s r).1 = s) : S.sweep s rows
      = (s, rows.map (fun r => (S.key r, (S.repair s r).2))) := by
  induction rows with
  | nil => rfl
  | cons r rest ih =>
    have hrest := ih (fun r hr => h r (.tail _ hr))
    rw [sweep, h r (.head _), hrest]
    rfl

/-- The same, if each comes to the same. -/
theorem sweep_idle {b : β} (h : ∀ r ∈ rows, S.repair s r = (s, b)) :
    (S.sweep s rows).1 = s ∧ ∀ v ∈ (S.sweep s rows).2, v.2 = b := by
  have hstill : ∀ r ∈ rows, (S.repair s r).1 = s := by
    intro r hr
    rw [h r hr]
  rw [sweep_still hstill]
  refine ⟨rfl, ?_⟩
  intro v hv
  obtain ⟨r, hr, rfl⟩ := List.mem_map.mp hv
  exact congrArg Prod.snd (h r hr)

theorem visits_sweep (ok : β → Prop) {f : α → β}
    (h : ∀ s, ∀ r ∈ rows, ok (S.repair s r).2 → (S.repair s r).2 = f r)
    (hok : ∀ v ∈ (S.sweep s rows).2, ok v.2) :
    (S.sweep s rows).2 = rows.map (fun r => (S.key r, f r)) := by
  induction rows generalizing s with
  | nil => rfl
  | cons r rest ih =>
    have hfirst := h s r (.head _) (hok _ (.head _))
    have hrest := ih (s := (S.repair s r).1) (fun s r hr => h s r (.tail _ hr))
      (fun v hv => hok v (.tail _ hv))
    rw [sweep, List.map_cons, ← hfirst, ← hrest]

/-- A repair that ends well makes `g` of the record of its row, if it makes
    anything of it: so does a sweep, of each record that has a row. -/
theorem records_sweep (ok : β → Prop) (hid : ∀ r x, S.id (g r x) = S.id x)
    (h : ∀ s, ∀ r ∈ rows, ok (S.repair s r).2 →
      S.records (S.repair s r).1 = (S.records s).map (fun x =>
        if S.id x = S.key r then g r x else x))
    (hasc : rows.Pairwise (fun a b => S.key a < S.key b)) (hok : ∀ v ∈ (S.sweep s rows).2, ok v.2) :
    S.records (S.sweep s rows).1 = (S.records s).map (fun x =>
      ((rows.find? (fun r => decide (S.key r = S.id x))).map (fun r => g r x)).getD x) := by
  induction rows generalizing s with
  | nil => exact (List.map_id _).symm
  | cons r rest ih =>
    obtain ⟨hlater, hasc⟩ := List.pairwise_cons.mp hasc
    have hfirst := h s r (.head _) (hok _ (.head _))
    have hrest := ih (s := (S.repair s r).1) (fun s r hr => h s r (.tail _ hr)) hasc
      (fun v hv => hok v (.tail _ hv))
    show S.records (S.sweep (S.repair s r).1 rest).1 = _
    rw [hrest, hfirst, List.map_map]
    refine List.map_congr_left ?_
    intro x _
    rw [Function.comp_apply]
    by_cases hx : S.id x = S.key r
    · -- no later row has the key of this one
      have hnone : rest.find? (fun r' => decide (S.key r' = S.id x)) = none := by
        rw [List.find?_eq_none]
        intro r' hr' heq
        have hlt := hlater r' hr'
        rw [of_decide_eq_true heq, hx] at hlt
        exact lt_irrefl _ hlt
      rw [if_pos hx, hid, hnone, List.find?_cons_of_pos]
      · rfl
      · exact decide_eq_true hx.symm
    · rw [if_neg hx, List.find?_cons_of_neg]
      exact fun heq => hx (of_decide_eq_true heq).symm

theorem find_select (hx : x ∈ S.records s) :
    (S.select s).find? (fun r => decide (S.key r = S.id x)) = S.pick s x := by
  have hpick : ∀ r ∈ S.select s, S.key r = S.id x → S.pick s x = some r := by
    intro r hr hkey
    obtain ⟨y, hy, hrow⟩ := mem_select.mp hr
    have hsame : S.id y = S.id x := (S.key_pick hrow).symm.trans hkey
    rw [← eq_of_id hy hx hsame]
    exact hrow
  cases hfind : (S.select s).find? (fun r => decide (S.key r = S.id x)) with
  | some r =>
    have hkey := List.find?_some hfind
    exact (hpick r (List.mem_of_find?_eq_some hfind) (of_decide_eq_true hkey)).symm
  | none =>
    cases hrow : S.pick s x with
    | none => rfl
    | some r =>
      have hno := List.find?_eq_none.mp hfind r (mem_select.mpr ⟨x, hx, hrow⟩)
      exact absurd (decide_eq_true (S.key_pick hrow)) hno

/-- **A SWEEP OVER ALL ROWS, RECORD BY RECORD**. -/
theorem records_finish (ok : β → Prop) (hid : ∀ r x, S.id (g r x) = S.id x)
    (h : ∀ s, ∀ r, ok (S.repair s r).2 → S.records (S.repair s r).1 = (S.records s).map (fun x =>
        if S.id x = S.key r then g r x else x)) (hok : ∀ v ∈ (S.finish none s).2, ok v.2) :
    S.records (S.finish none s).1 = (S.records s).map (fun x =>
      ((S.pick s x).map (fun r => g r x)).getD x) := by
  rw [finish, ahead_none] at hok ⊢
  rw [records_sweep ok hid (fun s r _ => h s r) select_ascending hok]
  refine List.map_congr_left ?_
  intro x hx
  rw [find_select hx]

theorem ahead_sweep {k : κ} (hle : ∀ r ∈ rows, S.key r ≤ k)
    (s : σ) : S.ahead (some k) (S.sweep s rows).1 = S.ahead (some k) s := by
  induction rows generalizing s with
  | nil => rfl
  | cons r rest ih =>
    have hrepair : S.ahead (some k) (S.repair s r).1 = S.ahead (some k) s := by
      rcases (hle r (.head _)).eq_or_lt with heq | hlt
      · rw [← heq]
        exact ahead_repair s r
      have hafter : After (some (S.key r)) k := by
        intro b hb
        rw [← Option.mem_some_iff.mp hb]
        exact hlt
      rw [ahead_ahead hafter, ahead_repair, ← ahead_ahead hafter]
    exact (ih (fun r' hr' => hle r' (.tail _ hr')) _).trans hrepair

/-! ## Pages -/

theorem last_of_full (hn : 0 < n) (hfull : S.isFull c n s = true) :
    ∃ last ∈ S.page c n s, S.next c n s = some (S.key last)
      ∧ ∀ r ∈ S.page c n s, S.key r ≤ S.key last := by
  have hlen : (S.page c n s).length = n := of_decide_eq_true hfull
  have hne : S.page c n s ≠ [] := by
    rintro hnil
    rw [hnil, List.length_nil] at hlen
    omega
  refine ⟨(S.page c n s).getLast hne, List.getLast_mem hne, ?_, ?_⟩
  · rw [next, Paging.next, List.getLast?_eq_some_getLast hne]
    rfl
  intro r hr
  have hsplit := List.dropLast_concat_getLast hne
  rw [← hsplit] at hr
  rcases List.mem_append.mp hr with hr | hr
  · have hpair : (S.page c n s).Pairwise (fun a b => S.key a < S.key b) := page_ascending
    rw [← hsplit, List.pairwise_append] at hpair
    exact (hpair.2.2 r hr _ (List.mem_singleton_self _)).le
  · rw [List.mem_singleton.mp hr]

theorem ahead_next (hn : 0 < n) (hfull : S.isFull c n s = true) :
    S.ahead (S.next c n s) s = (S.ahead c s).drop n := by
  obtain ⟨last, hlast, hnext, hmax⟩ := last_of_full hn hfull
  have hpair : (S.ahead c s).Pairwise (fun a b => S.key a < S.key b) := ahead_ascending
  have hsplit := List.take_append_drop n (S.ahead c s)
  rw [← hsplit, List.pairwise_append] at hpair
  rw [hnext, ahead_ahead (mem_page hlast).2]
  nth_rewrite 1 [← hsplit]
  rw [rowsAfter, List.filter_append]
  have hpage : ((S.ahead c s).take n).filter
      (fun r => decide (After (some (S.key last)) (S.key r))) = [] := by
    rw [List.filter_eq_nil_iff]
    intro r hr hafter
    rw [decide_eq_true_eq] at hafter
    exact absurd (hafter _ rfl) (not_lt.mpr (hmax r hr))
  have hrest : ((S.ahead c s).drop n).filter (fun r => decide (After (some (S.key last)) (S.key r)))
      = (S.ahead c s).drop n := by
    rw [List.filter_eq_self]
    intro r hr
    rw [decide_eq_true_eq]
    intro b hb
    rw [← Option.mem_some_iff.mp hb]
    exact hpair.2.2 last hlast r hr
  rw [hpage, hrest, List.nil_append]

/-- The repairs of a page leave what it left out. -/
theorem ahead_batch (hn : 0 < n) (hfull : S.isFull c n s = true) :
    S.ahead (S.next c n s) (S.batch c n s).1 = (S.ahead c s).drop n := by
  obtain ⟨last, -, hnext, hmax⟩ := last_of_full hn hfull
  rw [← ahead_next hn hfull, hnext]
  exact ahead_sweep hmax s

theorem page_short (hshort : S.isFull c n s = false) : S.page c n s = S.ahead c s := by
  have hlen : (S.page c n s).length ≠ n := of_decide_eq_false hshort
  refine List.take_of_length_le ?_
  rw [page, List.length_take] at hlen
  omega

theorem keys_batch (s : σ) : (S.batch c n s).2.map Prod.fst = (S.page c n s).map S.key :=
  keys_sweep s _

/-- **A FULL PAGE**: what is to be done before it is the page and what is to
    be done after it. -/
theorem finish_full (hn : 0 < n) (hfull : S.isFull c n s = true) : S.finish c s
      = ((S.finish (S.next c n s) (S.batch c n s).1).1, (S.batch c n s).2
          ++ (S.finish (S.next c n s) (S.batch c n s).1).2) := by
  rw [finish, finish, ahead_batch hn hfull]
  nth_rewrite 1 [← List.take_append_drop n (S.ahead c s)]
  exact sweep_append s _ _

/-- **THE LAST PAGE**: a page that is not full does all that is to be done. -/
theorem finish_short (hshort : S.isFull c n s = false) : S.finish c s = S.batch c n s := by
  rw [finish, batch, page_short hshort]

/-! ## Progress -/

variable (S) in
/-- How many records lie ahead of a position. -/
def remaining (c : Option κ) (s : σ) : Nat :=
  (((S.records s).map S.id).filter (fun k => decide (After c k))).length

/-- **A FULL PAGE MOVES FORWARD**. -/
theorem remaining_next (hn : 0 < n) (hfull : S.isFull c n s = true) :
    S.remaining (S.next c n s) (S.batch c n s).1 < S.remaining c s := by
  obtain ⟨last, hlast, hnext, -⟩ := last_of_full hn hfull
  obtain ⟨hselected, hafter⟩ := mem_page hlast
  obtain ⟨x, hx, hpick⟩ := mem_select.mp hselected
  have hmem : S.key last ∈ ((S.records s).map S.id).filter (fun k => decide (After c k)) := by
    rw [List.mem_filter, decide_eq_true_eq]
    refine ⟨?_, hafter⟩
    rw [S.key_pick hpick]
    exact List.mem_map_of_mem hx
  have hsub : ((S.records s).map S.id).filter (fun k => decide (After (some (S.key last)) k))
      = (((S.records s).map S.id).filter (fun k => decide (After c k))).filter
          (fun k => decide (S.key last < k)) := by
    rw [List.filter_filter]
    refine List.filter_congr ?_
    intro k _
    rw [← Bool.decide_and]
    refine decide_eq_decide.mpr ⟨?_, ?_⟩
    · intro hk
      exact ⟨hk _ rfl, fun b hb => (hafter b hb).trans (hk _ rfl)⟩
    rintro ⟨hlt, -⟩ b hb
    rw [← Option.mem_some_iff.mp hb]
    exact hlt
  rw [remaining, remaining, batch, ids_sweep, hnext, hsub]
  refine List.length_filter_lt_length_iff_exists.mpr ⟨S.key last, hmem, ?_⟩
  rw [decide_eq_true_eq]
  exact lt_irrefl _

/-! ## What a scan establishes -/

section Covers

variable {Done : σ → ρ → Prop}

variable (S) in
/-- Every record that the position has passed is done. -/
def Covers (Done : σ → ρ → Prop) (c : Option κ) (s : σ) : Prop :=
  ∀ x ∈ S.records s, ¬ After c (S.id x) → Done s x

variable (S) in
/-- Nothing is to be repaired in a record that is done: a record that is not
    picked is done, a repair that ends well makes its record done, and the
    repair of another record keeps it done. -/
structure Establishes (Done : σ → ρ → Prop) (ok : β → Prop) : Prop where
  unpicked : ∀ s x, S.pick s x = none → Done s x
  settles : ∀ s r x, x ∈ S.records s → S.pick s x = some r →
    ok (S.repair s r).2 → ∀ x' ∈ S.records (S.repair s r).1,
    S.id x' = S.id x → Done (S.repair s r).1 x'
  keeps : ∀ s r x, Done s x → Done (S.repair s r).1 x

variable {ok : β → Prop}

theorem establishes_unpicked (h : ∀ s r x, x ∈ S.records s → S.pick s x = some r →
      ok (S.repair s r).2 → ∀ x' ∈ S.records (S.repair s r).1,
      S.id x' = S.id x → S.pick s x' = none) : S.Establishes (fun s x => S.pick s x = none) ok where
  unpicked := fun _ _ hnone => hnone
  settles := by
    intro s r x hx hpick hok x' hx' hid
    exact (pick_repair s r x').trans (h s r x hx hpick hok x' hx' hid)
  keeps := fun s r x hnone => (pick_repair s r x).trans hnone

variable (hS : S.Establishes Done ok)

include hS

theorem Establishes.keeps_sweep {x : ρ} (rows : List α) (h : Done s x) :
    Done (S.sweep s rows).1 x := by
  induction rows generalizing s with
  | nil => exact h
  | cons r rest ih => exact ih (hS.keeps s r x h)

theorem Establishes.done_sweep {rows : List α} (hasc : rows.Pairwise (fun a b => S.key a < S.key b))
    (hok : ∀ v ∈ (S.sweep s rows).2, ok v.2) {r : α} (hr : r ∈ rows) {x : ρ}
    (hx : x ∈ S.records s) (hpick : S.pick s x = some r) :
    ∀ x' ∈ S.records (S.sweep s rows).1, S.id x' = S.id x → Done (S.sweep s rows).1 x' := by
  induction rows generalizing s with
  | nil => cases hr
  | cons r' rest ih =>
    rw [List.pairwise_cons] at hasc
    rcases List.mem_cons.mp hr with rfl | hr
    · intro x' hx' hid
      have hother : S.id x' ∉ rest.map S.key := by
        intro hmem
        obtain ⟨r', hr', hkey⟩ := List.mem_map.mp hmem
        have hlt := hasc.1 r' hr'
        rw [hkey, hid, ← S.key_pick hpick] at hlt
        exact lt_irrefl _ hlt
      refine hS.keeps_sweep rest (hS.settles s r x hx hpick ?_ x' ?_ hid)
      · exact hok _ (.head _)
      · exact (mem_sweep hother).mp hx'
    · refine ih hasc.2 (fun v hv => hok v (.tail _ hv)) hr ?_ ((pick_repair s r' x).trans hpick)
      refine (mem_repair ?_).mpr hx
      rw [← S.key_pick hpick]
      exact (hasc.1 r hr).ne'

/-- A record of the state after a batch is done, if the position had passed it
    before, if it was not picked or if its row was on the page. -/
theorem Establishes.done_batch (hcov : S.Covers Done c s)
    (hok : ∀ v ∈ (S.batch c n s).2, ok v.2) {x' : ρ} (hx' : x' ∈ S.records (S.batch c n s).1)
    (hpage : ∀ x ∈ S.records s, ∀ r, S.id x = S.id x' →
      S.pick s x = some r → After c (S.key r) → r ∈ S.page c n s) : Done (S.batch c n s).1 x' := by
  have hids : S.id x' ∈ (S.records s).map S.id := by
    rw [← ids_sweep s (S.page c n s)]
    exact List.mem_map_of_mem hx'
  obtain ⟨x, hx, hid⟩ := List.mem_map.mp hids
  by_cases hrow : ∃ r ∈ S.page c n s, S.pick s x = some r
  · obtain ⟨r, hr, hpick⟩ := hrow
    exact hS.done_sweep page_ascending hok hr hx hpick x' hx' hid.symm
  -- no row of the page is this record's, so the record is as it was
  have hother : S.id x' ∉ (S.page c n s).map S.key := by
    intro hmem
    obtain ⟨r, hr, hkey⟩ := List.mem_map.mp hmem
    obtain ⟨y, hy, hpick⟩ := mem_select.mp (mem_page hr).1
    have hids' : S.id y = S.id x := by rw [← S.key_pick hpick, hkey, hid]
    rw [eq_of_id hy hx hids'] at hpick
    exact hrow ⟨r, hr, hpick⟩
  have hsame : x' ∈ S.records s := (mem_sweep hother).mp hx'
  refine hS.keeps_sweep _ ?_
  cases hpick : S.pick s x' with
  | none => exact hS.unpicked s x' hpick
  | some r =>
    by_cases hafter : After c (S.id x')
    · rw [← S.key_pick hpick] at hafter
      have hr := hpage x' hsame r rfl hpick hafter
      have hmem : S.key r ∈ (S.page c n s).map S.key := List.mem_map_of_mem hr
      rw [S.key_pick hpick] at hmem
      exact absurd hmem hother
    · exact hcov x' hsame hafter

/-- **A FULL PAGE COVERS ITS PART**. -/
theorem Establishes.covers_next (hn : 0 < n) (hcov : S.Covers Done c s)
    (hok : ∀ v ∈ (S.batch c n s).2, ok v.2) (hfull : S.isFull c n s = true) :
    S.Covers Done (S.next c n s) (S.batch c n s).1 := by
  intro x' hx' hpassed
  refine hS.done_batch hcov hok hx' ?_
  intro x hx r hid hpick hafter
  have hahead : r ∈ S.ahead c s := mem_ahead.mpr ⟨mem_select.mpr ⟨x, hx, hpick⟩, hafter⟩
  rw [← List.take_append_drop n (S.ahead c s)] at hahead
  rcases List.mem_append.mp hahead with hon | hlater
  · exact hon
  rw [← ahead_next hn hfull] at hlater
  have hbeyond := (mem_ahead.mp hlater).2
  rw [S.key_pick hpick, hid] at hbeyond
  exact absurd hbeyond hpassed

/-- **THE LAST PAGE COVERS THE REST**. -/
theorem Establishes.done_short (hcov : S.Covers Done c s) (hok : ∀ v ∈ (S.batch c n s).2, ok v.2)
    (hshort : S.isFull c n s = false) {x' : ρ} (hx' : x' ∈ S.records (S.batch c n s).1) :
    Done (S.batch c n s).1 x' := by
  refine hS.done_batch hcov hok hx' ?_
  intro x hx r _ hpick hafter
  rw [page_short hshort]
  exact mem_ahead.mpr ⟨mem_select.mpr ⟨x, hx, hpick⟩, hafter⟩

end Covers

/-! ## Scans that run alike -/

section Simulation

variable {σ' ρ' α' : Type} {T : KeysetScan σ' ρ' α' κ β}
  {R : σ → σ' → Prop} {Q : α → α' → Prop}

variable (S T) in
/-- Of related states the scans select related rows, under the same keys, and
    the repairs of related rows come to the same and keep the states related. -/
structure Simulates (R : σ → σ' → Prop) (Q : α → α' → Prop) : Prop where
  select : ∀ s s', R s s' → List.Forall₂ Q (S.select s) (T.select s')
  key : ∀ r r', Q r r' → S.key r = T.key r'
  repair : ∀ s s' r r', R s s' → Q r r' → R (S.repair s r).1 (T.repair s' r').1
      ∧ (S.repair s r).2 = (T.repair s' r').2

variable {s' : σ'} (hsim : Simulates S T R Q)

include hsim

theorem Simulates.ahead (h : R s s') (c : Option κ) :
    List.Forall₂ Q (S.ahead c s) (T.ahead c s') := by
  refine List.rel_filter ?_ (hsim.select s s' h)
  intro r r' hr
  show decide _ = true ↔ decide _ = true
  rw [hsim.key r r' hr]

theorem Simulates.page (h : R s s') (c : Option κ) (n : Nat) :
    List.Forall₂ Q (S.page c n s) (T.page c n s') :=
  List.forall₂_take n (hsim.ahead h c)

theorem Simulates.keys {rows : List α} {rows' : List α'}
    (h : List.Forall₂ Q rows rows') : rows.map S.key = rows'.map T.key := by
  induction h with
  | nil => rfl
  | cons hr _ ih => rw [List.map_cons, List.map_cons, hsim.key _ _ hr, ih]

theorem Simulates.next (h : R s s') (c : Option κ) (n : Nat) : S.next c n s = T.next c n s' := by
  rw [KeysetScan.next, KeysetScan.next, Paging.next, Paging.next,
    ← List.getLast?_map, ← List.getLast?_map, hsim.keys (hsim.page h c n)]

theorem Simulates.isFull (h : R s s') (c : Option κ) (n : Nat) :
    S.isFull c n s = T.isFull c n s' := by
  rw [KeysetScan.isFull, KeysetScan.isFull, (hsim.page h c n).length_eq]

theorem Simulates.sweep {rows : List α} {rows' : List α'}
    (hrows : List.Forall₂ Q rows rows') (h : R s s') :
    R (S.sweep s rows).1 (T.sweep s' rows').1 ∧ (S.sweep s rows).2 = (T.sweep s' rows').2 := by
  induction hrows generalizing s s' with
  | nil => exact ⟨h, rfl⟩
  | @cons r r' rest rest' hr _ ih =>
    obtain ⟨hstate, hout⟩ := hsim.repair s s' r r' h hr
    obtain ⟨hlast, hvisits⟩ := ih hstate
    refine ⟨hlast, ?_⟩
    simp only [KeysetScan.sweep, hsim.key r r' hr, hout, hvisits]

/-- **SCANS THAT RUN ALIKE**: a batch of one is that of the other. -/
theorem Simulates.batch (h : R s s') (c : Option κ) (n : Nat) :
    R (S.batch c n s).1 (T.batch c n s').1 ∧ (S.batch c n s).2 = (T.batch c n s').2 :=
  hsim.sweep (hsim.page h c n) h

end Simulation

end KeysetScan
