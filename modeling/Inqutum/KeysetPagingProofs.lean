import Mathlib.Order.Lattice
import Mathlib.Data.List.Basic
import Mathlib.Data.List.Pairwise

/-!
# Keyset paging over a changing table

A client walks a table page by page.  Each page shows the first rows after
a position, in key order, and the key of its last row is the position of
the next page; the walk ends with the first page that is not followed by
another row.  Between two pages the table may change, so every page has a
snapshot of its own.

Three facts, whatever the snapshots are:

* `walk_ascending` — the rows come in strictly ascending key order;
* `walk_complete` — a key that is in every snapshot of the walk is shown;
* `walk_finishes` — if all snapshots have their keys from one list, the
  walk ends after at most one page more than there are keys ahead.
-/

namespace Paging

open List

/-- What one page request sees: the rows of the table and the page size. -/
structure Snapshot (α : Type) where
  rows : List α
  limit : Nat

variable {α κ : Type} [LinearOrder κ]

/-- The key lies after the position; every key lies after the start. -/
def After (after : Option κ) (k : κ) : Prop := ∀ c ∈ after, c < k

instance (after : Option κ) (k : κ) : Decidable (After after k) :=
  inferInstanceAs (Decidable (∀ c ∈ after, c < k))

def rowsAfter (key : α → κ) (after : Option κ) (rows : List α) : List α :=
  rows.filter (fun r => decide (After after (key r)))

def page (key : α → κ) (after : Option κ) (s : Snapshot α) : List α :=
  (rowsAfter key after s.rows).take s.limit

/-- Another row follows the page. -/
def hasMore (key : α → κ) (after : Option κ) (s : Snapshot α) : Bool :=
  decide (s.limit < (rowsAfter key after s.rows).length)

/-- The position after a page. -/
def next (key : α → κ) (rows : List α) : Option κ := rows.getLast?.map key

/-- The pages of a walk. -/
def walk (key : α → κ) : Option κ → List (Snapshot α) → List (List α)
  | _, [] => []
  | after, s :: rest =>
    if hasMore key after s then
      page key after s :: walk key (next key (page key after s)) rest
    else [page key after s]

/-- The walk reached a page that nothing follows. -/
def finishes (key : α → κ) : Option κ → List (Snapshot α) → Bool
  | _, [] => false
  | after, s :: rest =>
    if hasMore key after s then
      finishes key (next key (page key after s)) rest
    else true

/-- A table in strictly ascending key order, and a page size that shows at
    least one row. -/
structure Snapshot.Ordered (key : α → κ) (s : Snapshot α) : Prop where
  ascending : s.rows.Pairwise (fun a b => key a < key b)
  limit_pos : 1 ≤ s.limit

section Page

variable {key : α → κ} {after : Option κ} {s : Snapshot α}

theorem mem_rowsAfter {rows : List α} {r : α} :
    r ∈ rowsAfter key after rows ↔ r ∈ rows ∧ After after (key r) := by
  simp [rowsAfter]

theorem rowsAfter_none (rows : List α) : rowsAfter key none rows = rows := by
  refine filter_eq_self.mpr ?_
  intro r _
  refine decide_eq_true ?_
  intro c hc
  cases hc

theorem rowsAfter_ascending (h : s.Ordered key) :
    (rowsAfter key after s.rows).Pairwise (fun a b => key a < key b) :=
  h.ascending.filter _

theorem mem_page {r : α} (h : r ∈ page key after s) : r ∈ s.rows ∧ After after (key r) :=
  mem_rowsAfter.mp (mem_of_mem_take h)

theorem rowsAfter_next {shown rest : List α}
    (h : (shown ++ rest).Pairwise (fun a b => key a < key b)) :
    rowsAfter key (next key shown) (shown ++ rest) = rest := by
  rcases eq_nil_or_concat shown with rfl | ⟨front, last, rfl⟩
  · exact rowsAfter_none rest
  rw [concat_eq_append] at h ⊢
  have hnext : next key (front ++ [last]) = some (key last) := by
    rw [next, getLast?_concat]
    rfl
  have hafter : ∀ r, After (some (key last)) (key r) ↔ key last < key r := by
    intro r
    exact ⟨fun hr => hr _ rfl, fun hlt c hc => by rwa [← Option.mem_some_iff.mp hc]⟩
  obtain ⟨hshown, -, hcross⟩ := pairwise_append.mp h
  rw [hnext, rowsAfter, filter_append, filter_eq_nil_iff.mpr, nil_append, filter_eq_self]
  · intro r hr
    rw [decide_eq_true_eq, hafter]
    exact hcross last (by simp) r hr
  intro r hr
  rw [decide_eq_true_eq, hafter, not_lt]
  rcases mem_append.mp hr with hr | hr
  · exact ((pairwise_append.mp hshown).2.2 r hr last (mem_singleton_self _)).le
  · exact (congrArg key (mem_singleton.mp hr)).le

theorem page_ascending (h : s.Ordered key) :
    (page key after s).Pairwise (fun a b => key a < key b) :=
  (rowsAfter_ascending h).sublist (take_sublist _ _)

/-- A page that is followed by a row is not empty, and ends at a position no
    row of it lies after. -/
theorem next_of_hasMore (h : s.Ordered key) (hmore : hasMore key after s = true) :
    ∃ last ∈ page key after s, next key (page key after s) = some (key last)
      ∧ ∀ r ∈ page key after s, key r ≤ key last := by
  have hlimit := h.limit_pos
  have hlen : s.limit < (rowsAfter key after s.rows).length := of_decide_eq_true hmore
  have hne : page key after s ≠ [] := by
    intro hnil
    have hzero := congrArg length hnil
    rw [page, length_take, length_nil] at hzero
    omega
  refine ⟨(page key after s).getLast hne, getLast_mem hne, ?_, ?_⟩
  · rw [next, getLast?_eq_some_getLast hne]
    rfl
  intro r hr
  have hsplit := dropLast_concat_getLast hne
  rw [← hsplit] at hr
  rcases mem_append.mp hr with hr | hr
  · have hpair : (page key after s).Pairwise (fun a b => key a < key b) := page_ascending h
    rw [← hsplit, pairwise_append] at hpair
    exact (hpair.2.2 r hr _ (mem_singleton_self _)).le
  · rw [mem_singleton.mp hr]

theorem on_page_or_after (h : s.Ordered key) {r : α} (hr : r ∈ s.rows)
    (hafter : After after (key r)) : r ∈ page key after s ∨ (hasMore key after s = true
        ∧ After (next key (page key after s)) (key r)) := by
  have hmem : r ∈ rowsAfter key after s.rows := mem_rowsAfter.mpr ⟨hr, hafter⟩
  rw [← take_append_drop s.limit (rowsAfter key after s.rows)] at hmem
  rcases mem_append.mp hmem with hmem | hmem
  · exact .inl hmem
  have hmore : hasMore key after s = true := by
    refine decide_eq_true ?_
    by_contra hle
    rw [drop_eq_nil_of_le (Nat.le_of_not_lt hle)] at hmem
    cases hmem
  refine .inr ⟨hmore, ?_⟩
  obtain ⟨last, hlast, hnext, -⟩ := next_of_hasMore h hmore
  rw [hnext]
  intro c hc
  obtain rfl := Option.mem_some_iff.mp hc
  have hpair : (rowsAfter key after s.rows).Pairwise
      (fun a b => key a < key b) := rowsAfter_ascending h
  rw [← take_append_drop s.limit (rowsAfter key after s.rows), pairwise_append] at hpair
  exact hpair.2.2 last hlast r hmem

end Page

section Walk

variable {key : α → κ} {snaps : List (Snapshot α)} {after : Option κ}

theorem mem_of_mem_walk {r : α}
    (h : r ∈ (walk key after snaps).flatten) : ∃ s ∈ snaps, r ∈ s.rows := by
  induction snaps generalizing after with
  | nil => cases h
  | cons s rest ih =>
    rw [walk] at h
    split at h
    · rw [flatten_cons] at h
      rcases mem_append.mp h with h | h
      · exact ⟨s, (.head _), (mem_page h).1⟩
      obtain ⟨s', hs', hr⟩ := ih h
      exact ⟨s', .tail _ hs', hr⟩
    rw [flatten_cons, flatten_nil, append_nil] at h
    exact ⟨s, (.head _), (mem_page h).1⟩

/-- **IN ORDER**: the rows of a walk come in strictly ascending key order,
    and all lie after its start. -/
theorem walk_ascending (h : ∀ s ∈ snaps, s.Ordered key) (after : Option κ) :
    (walk key after snaps).flatten.Pairwise (fun a b => key a < key b)
    ∧ ∀ r ∈ (walk key after snaps).flatten, After after (key r) := by
  induction snaps generalizing after with
  | nil => exact ⟨Pairwise.nil, nofun⟩
  | cons s rest ih =>
    have hs := h s (.head _)
    rw [walk]
    split
    · rename_i hmore
      obtain ⟨last, hlast, hnext, hmax⟩ := next_of_hasMore hs hmore
      obtain ⟨hpair, hafter⟩ := ih (fun s' hs' => h s' (.tail _ hs')) (next key (page key after s))
      have hlater : ∀ r ∈ (walk key (next key (page key after s))
          rest).flatten, key last < key r := by
        intro r hr
        have hr' := hafter r hr
        rw [hnext] at hr'
        exact hr' (key last) rfl
      rw [flatten_cons]
      constructor
      · refine pairwise_append.mpr ⟨page_ascending hs, hpair, ?_⟩
        intro a ha b hb
        exact lt_of_le_of_lt (hmax a ha) (hlater b hb)
      intro r hr
      rcases mem_append.mp hr with hr | hr
      · exact (mem_page hr).2
      intro c hc
      exact lt_trans ((mem_page hlast).2 c hc) (hlater r hr)
    · rw [flatten_cons, flatten_nil, append_nil]
      exact ⟨page_ascending hs, fun r hr => (mem_page hr).2⟩

/-- **NOTHING IS LEFT OUT**: a finished walk shows every key that lies after
    its start and is in every snapshot it looked at. -/
theorem walk_complete (h : ∀ s ∈ snaps, s.Ordered key)
    (hfin : finishes key after snaps = true) {k : κ} (hk : After after k)
    (hin : ∀ s ∈ snaps.take (walk key after snaps).length, ∃ r ∈ s.rows, key r = k) :
    ∃ r ∈ (walk key after snaps).flatten, key r = k := by
  induction snaps generalizing after with
  | nil => cases hfin
  | cons s rest ih =>
    have hpos : (walk key after (s :: rest)).length ≠ 0 := by
      rw [walk]
      split <;> exact Nat.succ_ne_zero _
    obtain ⟨n, hn⟩ := Nat.exists_eq_succ_of_ne_zero hpos
    rw [hn, take_succ_cons] at hin
    obtain ⟨r, hr, rfl⟩ := hin s (.head _)
    rw [finishes] at hfin
    rw [walk] at hn ⊢
    rcases on_page_or_after (h s (.head _)) hr hk with
      hpage | ⟨hmore, hlater⟩
    · refine ⟨r, ?_, rfl⟩
      split
      · exact mem_append_left _ hpage
      rw [flatten_cons, flatten_nil, append_nil]
      exact hpage
    rw [if_pos hmore] at hfin hn ⊢
    rw [length_cons, Nat.succ_inj] at hn
    rw [← hn] at hin
    obtain ⟨r', hr', hkey⟩ := ih (fun s' hs' => h s' (.tail _ hs')) hfin hlater
      (fun s' hs' => hin s' (.tail _ hs'))
    exact ⟨r', mem_append_right _ hr', hkey⟩

/-- A walk that would end from any position ends. -/
theorem finishes_append {snaps snaps' : List (Snapshot α)}
    (h : ∀ after, finishes key after snaps' = true) (after : Option κ) :
    finishes key after (snaps ++ snaps') = true := by
  induction snaps generalizing after with
  | nil => exact h after
  | cons s rest ih =>
    rw [cons_append, finishes]
    split
    · exact ih _
    · rfl

/-- **THE WALK ENDS**: if the keys of all snapshots are from `ks`, a page more
    than there are keys of `ks` ahead is enough. -/
theorem walk_finishes (h : ∀ s ∈ snaps, s.Ordered key) {ks : List κ}
    (hks : ∀ s ∈ snaps, ∀ r ∈ s.rows, key r ∈ ks)
    (hlen : (ks.filter (fun k => decide (After after k))).length
      < snaps.length) : finishes key after snaps = true := by
  induction snaps generalizing after with
  | nil => exact absurd hlen (Nat.not_lt_zero _)
  | cons s rest ih =>
    rw [finishes]
    split
    · rename_i hmore
      obtain ⟨last, hlast, hnext, -⟩ := next_of_hasMore (h s (.head _)) hmore
      refine ih (fun s' hs' => h s' (.tail _ hs')) (fun s' hs' => hks s' (.tail _ hs')) ?_
      -- the last row's key is no longer ahead
      have hahead := (mem_page hlast).2
      have hmem : key last ∈ ks.filter (fun k => decide (After after k)) :=
        mem_filter.mpr ⟨hks s (.head _) last
          (mem_page hlast).1, decide_eq_true hahead⟩
      have hfewer : (ks.filter (fun k => decide (After (next key (page key after s)) k))).length
          < (ks.filter (fun k => decide (After after k))).length := by
        have hsub : ks.filter (fun k => decide (After (next key (page key after s)) k))
            = (ks.filter (fun k => decide (After after k))).filter
              (fun k => decide (key last < k)) := by
          rw [filter_filter, hnext]
          refine filter_congr ?_
          intro k _
          have hiff : After (some (key last)) k ↔ key last < k ∧ After after k := by
            constructor
            · intro hlt
              exact ⟨hlt _ rfl, fun c hc => lt_trans (hahead c hc) (hlt _ rfl)⟩
            rintro ⟨hlt, -⟩ c hc
            rw [← Option.mem_some_iff.mp hc]
            exact hlt
          simp only [hiff, Bool.decide_and]
        rw [hsub]
        refine length_filter_lt_length_iff_exists.mpr ⟨key last, hmem, ?_⟩
        rw [decide_eq_true_eq]
        exact lt_irrefl _
      rw [length_cons] at hlen
      omega
    · rfl

end Walk

end Paging
