import Mathlib.Data.Prod.Lex
import Mathlib.Order.Lex
import Inqutum.KeysetPagingProofs
import Inqutum.StableCursorProofs

/-!
# Stable pages

`paginateStable` shows the rows that come after a cursor and that the
viewer may see now, and hands out a signed cursor for the next page.
Between two pages rows come, go and change visibility.

A page is a page of the keyset walk over the visible rows in order
(`pageAfter_eq`), and a cursor reads back as the position of the last row
shown.  So following the cursors is that walk (`follow_eq`), and what holds
of any keyset walk holds of the pages (`stable_walk`).

This rests on what a cursor can carry: an id that is empty or too long
makes a cursor that is refused, and one with a lone surrogate comes back
as another id.
-/

namespace StableCursor

open JsonText (Text ascii unit)
open Paging (Snapshot After rowsAfter)
open List Option JsNumber
open Paging hiding next

/-! ## Pages -/

/-- What is read of a row. -/
structure Pageable (ρ : Type) where
  id : ρ → Text
  sortKey : ρ → SortKey

structure StableCursorOptions (ρ : Type) where
  cursor : Option Text
  limit : Option JsNumber
  maxLimit : Option JsNumber
  /-- Nothing for a check that throws. -/
  canView : ρ → Option Bool
  scope : Text
  secret : Text

structure StablePage (ρ : Type) where
  items : List ρ
  nextCursor : Option Text
  hasMore : Bool
  limit : JsNumber

/-- `Math.floor(limit ?? 50) || 50`. -/
def askedLimit (limit : Option JsNumber) : JsNumber :=
  let floored := floor (limit.getD (.ofNat 50))
  if floored = .nan ∨ floored = .finite 0 then .ofNat 50 else floored

def pageLimit (limit maxLimit : Option JsNumber) : JsNumber :=
  mathMin (mathMax (.ofNat 1) (askedLimit limit)) (maxLimit.getD (.ofNat 200))

/-- Each id once, at its first row. -/
def dropRepeats {ρ : Type} (id : ρ → Text) : List Text → List ρ → List ρ
  | _, [] => []
  | seen, row :: rest =>
    if id row ∈ seen then dropRepeats id seen rest
    else row :: dropRepeats id (id row :: seen) rest

section Paginate

variable {ρ : Type} (host : Host) (view : Pageable ρ)

def position (row : ρ) : Position :=
  ⟨toMs host (view.sortKey row), view.id row⟩

/-- The rows the check lets through; one that throws lets nothing through. -/
def visibleRows (canView : ρ → Option Bool) (rows : List ρ) : List ρ :=
  rows.filter (fun row => decide (canView row = some true))

def isAfter (after : Option Position) (p : Position) : Bool :=
  match after with
  | none => true
  | some cursor => decide (compareStable cursor p < 0)

/-- The rows behind the cursor, in order. -/
def rowsBehind (after : Option Position) (rows : List ρ) : List ρ :=
  (rows.filter (fun row => isAfter after (position host view row))).insertionSort
    (fun a b => compareStable (position host view a) (position host view b) ≤ 0)

def pageAfter (options : StableCursorOptions ρ) (after : Option Position)
    (visible : List ρ) : StablePage ρ :=
  let limit := pageLimit options.limit options.maxLimit
  let unique := dropRepeats view.id [] (rowsBehind host view after visible)
  let page := unique.take (sliceEnd limit unique.length)
  let hasMore := lt limit (.ofNat unique.length)
  { items := page
    nextCursor := if hasMore then
        page.getLast?.map (fun last => encodeStableCursor host options.scope
          options.secret (position host view last))
      else none
    hasMore := hasMore
    limit := limit }

/-- `options.cursor ? decodeStableCursor(...) : null`. -/
def readCursor (options : StableCursorOptions ρ) :
    Except InvalidStableCursor (Option Position) :=
  match options.cursor with
  | none => .ok none
  | some cursor =>
    if cursor = [] then .ok none
    else (decodeStableCursor host options.scope options.secret cursor).map some

def paginateStable (rows : List ρ) (options : StableCursorOptions ρ) :
    Except InvalidStableCursor (StablePage ρ) :=
  (readCursor host options).map (fun after =>
    pageAfter host view options after (visibleRows options.canView rows))

/-! ## Following the cursors -/

/-- What one request brings, apart from the cursor. -/
structure Request (ρ : Type) where
  rows : List ρ
  canView : ρ → Option Bool
  limit : Option JsNumber
  maxLimit : Option JsNumber

def Request.options (r : Request ρ) (scope secret : Text)
    (cursor : Option Text) : StableCursorOptions ρ :=
  ⟨cursor, r.limit, r.maxLimit, r.canView, scope, secret⟩

def Request.visible (r : Request ρ) : List ρ := visibleRows r.canView r.rows

/-- Ask for page after page, up to one without a next cursor or one that is
    refused. -/
def follow (scope secret : Text) : Option Text → List (Request ρ) →
    List (Except InvalidStableCursor (StablePage ρ))
  | _, [] => []
  | cursor, r :: rest =>
    match paginateStable host view r.rows (r.options scope secret cursor) with
    | .error reason => [.error reason]
    | .ok page =>
      .ok page :: match page.nextCursor with
        | none => []
        | some next => follow scope secret (some next) rest

/-- The rows of the pages. -/
def delivered (results : List (Except InvalidStableCursor (StablePage ρ))) :
    List ρ :=
  results.flatMap (fun result =>
    match result with
    | .ok page => page.items
    | .error _ => [])

/-- There is no further cursor to follow. -/
def ended (results : List (Except InvalidStableCursor (StablePage ρ))) :
    Bool :=
  match results.getLast? with
  | some (.ok page) => page.nextCursor.isNone
  | some (.error _) => true
  | none => false

/-- The tables: distinct ids without `|`, and times that are natural safe
    integers and never change. -/
structure Tables (requests : List (Request ρ)) : Prop where
  distinct : ∀ r ∈ requests, (r.rows.map view.id).Nodup
  safe : ∀ r ∈ requests, ∀ row ∈ r.rows,
    0 ≤ toMs host (view.sortKey row) ∧ toMs host (view.sortKey row) < 2 ^ 53
  steady : ∀ r ∈ requests, ∀ r' ∈ requests, ∀ row ∈ r.rows, ∀ row' ∈ r'.rows,
    view.id row = view.id row' → toMs host (view.sortKey row) = toMs host (view.sortKey row')
  no_bar : ∀ r ∈ requests, ∀ row ∈ r.rows, bar ∉ view.id row

/-- The ids that are shown can be carried by a cursor, and a page may show a
    row. -/
structure Carriable (requests : List (Request ρ)) : Prop where
  room : ∀ r ∈ requests, le (.ofNat 1) (r.maxLimit.getD (.ofNat 200)) = true
  named : ∀ r ∈ requests, ∀ row ∈ r.visible, view.id row ≠ []
  wellFormed : ∀ r ∈ requests, ∀ row ∈ r.visible, Utf8.wellFormed (view.id row) = true
  short : ∀ r ∈ requests, ∀ row ∈ r.visible,
    (Stringify.wholeDigits (toMs host (view.sortKey row))).length
      + (Utf8.encode (view.id row)).length ≤ 327

/-- What following the cursors promises. -/
structure StableWalk (scope secret : Text) (requests : List (Request ρ)) : Prop where
  /-- A page shows rows that the viewer may see at that request. -/
  permitted : ∀ (i : Nat) page,
    (follow host view scope secret none requests)[i]? = some (.ok page) →
    ∃ r, requests[i]? = some r ∧ ∀ row ∈ page.items, row ∈ r.rows ∧ r.canView row = some true
  /-- No id is shown twice. -/
  once : ((delivered (follow host view scope secret none requests)).map view.id).Nodup
  /-- At the end, an id that every request could see was shown once. -/
  complete : ended (follow host view scope secret none requests) = true →
    ∀ id, (∀ r ∈ requests.take (follow host view scope secret none requests).length,
      ∃ row ∈ r.rows, view.id row = id ∧ r.canView row = some true) →
    ((delivered (follow host view scope secret none requests)).map view.id).count id = 1
  /-- The rows come in order. -/
  ordered : (delivered (follow host view scope secret none requests)).Pairwise
    (fun a b => compareStable (position host view a) (position host view b) < 0)
  /-- Hidden rows do not show in `hasMore` or the cursor. -/
  blind : ∀ r ∈ requests, ∀ r' : Request ρ, r'.visible.Perm r.visible →
    r'.limit = r.limit → r'.maxLimit = r.maxLimit → ∀ cursor,
    (paginateStable host view r'.rows (r'.options scope secret cursor)).map
        (fun page => (page.hasMore, page.nextCursor))
      = (paginateStable host view r.rows (r.options scope secret cursor)).map
        (fun page => (page.hasMore, page.nextCursor))

end Paginate

/-! ## The order -/

/-- Positions by time and id, the greater first. -/
def Position.key (p : Position) : (Lex (Int × Text))ᵒᵈ :=
  OrderDual.toDual (toLex (p.ms, p.id))

variable {a b : Position}

theorem key_lt_iff : a.key < b.key ↔ b.ms < a.ms ∨ b.ms = a.ms ∧ b.id < a.id := by
  show toLex (b.ms, b.id) < toLex (a.ms, a.id) ↔ _
  rw [Prod.Lex.toLex_lt_toLex]

theorem key_inj (h : a.key = b.key) : a = b := by
  obtain ⟨ms, id⟩ := a
  obtain ⟨ms', id'⟩ := b
  have hpair : (ms, id) = (ms', id') := toLex.injective (OrderDual.toDual.injective h)
  cases hpair
  rfl

/-- **THE COMPARISON** is the order of the keys. -/
theorem compareStable_lt : compareStable a b < 0 ↔ a.key < b.key := by
  rw [key_lt_iff, compareStable]
  split
  · rename_i hne
    constructor
    · intro h
      left
      omega
    rintro (h | ⟨heq, -⟩)
    · omega
    · exact absurd heq.symm hne
  · rename_i heq
    rw [not_not] at heq
    -- equal times: the greater id comes first
    rcases lt_trichotomy a.id b.id with h | h | h
    · rw [if_pos h]
      simp [heq, h.le]
    · simp [heq, h]
    rw [if_neg h.not_gt, if_pos h]
    simp [heq, h]

theorem compareStable_neg (a b : Position) : compareStable b a = -compareStable a b := by
  rw [compareStable, compareStable]
  by_cases hms : a.ms = b.ms
  · rw [if_neg (not_not.mpr hms), if_neg (not_not.mpr hms.symm)]
    rcases lt_trichotomy a.id b.id with h | h | h
    · rw [if_pos h, if_neg h.not_gt, if_pos h]
    · simp [h]
    rw [if_pos h, if_neg h.not_gt, if_pos h]
    rfl
  · rw [if_pos hms, if_pos (Ne.symm hms)]
    omega

theorem compareStable_le : compareStable a b ≤ 0 ↔ a.key ≤ b.key := by
  rw [← not_lt (a := b.key), ← compareStable_lt, compareStable_neg a b]
  omega

/-! ## A page is a page of the walk -/

section Page

variable {ρ : Type} (host : Host) (view : Pageable ρ)

def rowKey (row : ρ) : (Lex (Int × Text))ᵒᵈ := (position host view row).key

variable {host view} {r : Request ρ} {rows : List ρ} {row : ρ} {limit : JsNumber}
  {after : Option Position} {visible : List ρ} {seen : List Text}

theorem isAfter_iff : isAfter after (position host view row) = true
      ↔ After (after.map Position.key) (rowKey host view row) := by
  cases after with
  | none => exact iff_of_true rfl nofun
  | some cursor =>
    rw [isAfter, decide_eq_true_eq, compareStable_lt]
    exact ⟨fun h c hc => mem_some_iff.mp hc ▸ h, fun h => h _ rfl⟩

theorem eq_of_rowKey (hnd : (rows.map view.id).Nodup) {a b : ρ} (ha : a ∈ rows) (hb : b ∈ rows)
    (h : rowKey host view a = rowKey host view b) : a = b := by
  have hid : view.id a = view.id b := congrArg Position.id (key_inj h)
  exact inj_on_of_nodup_map hnd ha hb hid

theorem sorted_rows (rows : List ρ) :
    (rows.insertionSort (fun a b => compareStable (position host view a)
      (position host view b) ≤ 0)).Pairwise
      (fun a b => rowKey host view a ≤ rowKey host view b) := by
  have htotal : Std.Total (fun a b : ρ => compareStable (position host view a)
      (position host view b) ≤ 0) := by
    refine ⟨fun a b => ?_⟩
    rw [compareStable_le, compareStable_le]
    exact le_total _ _
  have htrans : IsTrans ρ (fun a b : ρ => compareStable
      (position host view a) (position host view b) ≤ 0) := by
    refine ⟨fun a b c hab hbc => ?_⟩
    rw [compareStable_le] at hab hbc ⊢
    exact hab.trans hbc
  exact (pairwise_insertionSort _ rows).imp (fun h => compareStable_le.mp h)

theorem eq_of_sorted {rows l l' : List ρ} (hnd : (rows.map view.id).Nodup) (hin : ∀ a ∈ l, a ∈ rows)
    (hl : l.Pairwise (fun a b => rowKey host view a ≤ rowKey host view b))
    (hl' : l'.Pairwise (fun a b => rowKey host view a ≤ rowKey host view b))
    (hperm : l.Perm l') : l = l' := by
  refine Perm.eq_of_pairwise ?_ hl hl' hperm
  intro a b ha hb hab hba
  exact eq_of_rowKey hnd (hin a ha) (hin b (hperm.mem_iff.mpr hb)) (le_antisymm hab hba)

/-- The rows of a page request, as the walk sees them. -/
def sorted (host : Host) (view : Pageable ρ) (visible : List ρ) : List ρ :=
  visible.insertionSort (fun a b => compareStable (position host view a) (position host view b) ≤ 0)

theorem rowsBehind_perm {visible visible' : List ρ}
    (hnd : (visible.map view.id).Nodup) (hperm : visible'.Perm visible) (after : Option Position) :
    rowsBehind host view after visible' = rowsBehind host view after visible := by
  refine eq_of_sorted hnd ?_ (sorted_rows _) (sorted_rows _) ?_
  · intro a ha
    have hmem := (mem_filter.mp ((mem_insertionSort _).mp ha)).1
    exact hperm.mem_iff.mp hmem
  exact (perm_insertionSort _ _).trans ((hperm.filter _).trans (perm_insertionSort _ _).symm)

theorem rowsBehind_eq (hnd : (visible.map view.id).Nodup) (after : Option Position) :
    rowsBehind host view after visible = rowsAfter (rowKey host view) (after.map Position.key)
        (sorted host view visible) := by
  have hcongr : (fun row => isAfter after (position host view row))
      = fun row => decide (After (after.map Position.key) (rowKey host view row)) := by
    funext row
    rw [Bool.eq_iff_iff, isAfter_iff, decide_eq_true_iff]
  rw [rowsBehind, rowsAfter, hcongr]
  -- sorted then filtered or filtered then sorted: one list by order
  refine eq_of_sorted hnd ?_ (sorted_rows _) ((sorted_rows visible).filter _) ?_
  · intro a ha
    exact (mem_filter.mp ((mem_insertionSort _).mp ha)).1
  · exact (perm_insertionSort _ _).trans ((perm_insertionSort _ _).symm.filter _)

theorem dropRepeats_eq (hnd : (rows.map view.id).Nodup) (hnew : ∀ row ∈ rows, view.id row ∉ seen) :
    dropRepeats view.id seen rows = rows := by
  induction rows generalizing seen with
  | nil => rfl
  | cons row rest ih =>
    rw [map_cons, nodup_cons] at hnd
    rw [dropRepeats, if_neg (hnew row (.head _)), ih hnd.2]
    intro other hmem
    rw [mem_cons, not_or]
    refine ⟨fun heq => hnd.1 ?_, hnew other (.tail _ hmem)⟩
    rw [← heq]
    exact mem_map_of_mem hmem

/-- The number of rows a limit allows, of at most `n`. -/
def capacity (limit : JsNumber) (n : Nat) : Nat :=
  match limit with
  | .finite q => ⌊q⌋.toNat
  | _ => n + 1

theorem take_sliceEnd (h : le (.ofNat 1) limit = true) {n : Nat} (hlen : rows.length ≤ n) :
    rows.take (sliceEnd limit rows.length) = rows.take (capacity limit n) := by
  cases limit with
  | finite q =>
    have hq : ((1 : Nat) : ℚ) ≤ q := of_decide_eq_true h
    have hpos : ¬ q < 0 := by
      rw [Nat.cast_one] at hq
      linarith
    have htrunc : trunc q = ⌊q⌋ := if_neg hpos
    have hfloor : ¬ ⌊q⌋ < 0 := by
      rw [Int.floor_lt, Int.cast_zero]
      exact hpos
    simp only [sliceEnd, capacity, htrunc, if_neg hfloor]
  | posInf =>
    show rows.take rows.length = rows.take (n + 1)
    rw [take_length, take_of_length_le (by omega)]
  | negInf => cases h
  | nan => cases h

theorem lt_capacity (h : le (.ofNat 1) limit = true) {n m : Nat} (hlen : m ≤ n) :
    lt limit (.ofNat m) = decide (capacity limit n < m) := by
  rw [Bool.eq_iff_iff, decide_eq_true_iff]
  cases limit with
  | finite q =>
    have hq : ((1 : Nat) : ℚ) ≤ q := of_decide_eq_true h
    have hfloor : (1 : Int) ≤ ⌊q⌋ := by
      rw [Int.le_floor]
      exact_mod_cast hq
    have hlt : lt (.finite q) (.ofNat m) = true ↔ q < ((m : Nat) : ℚ) := by
      rw [lt, Bool.and_eq_true, Bool.not_eq_true']
      show decide (q ≤ ((m : Nat) : ℚ)) = true ∧ decide (((m : Nat) : ℚ) ≤ q) = false ↔ _
      rw [decide_eq_true_iff, decide_eq_false_iff_not, not_le]
      exact ⟨fun h => h.2, fun h => ⟨h.le, h⟩⟩
    have hcast : q < ((m : Nat) : ℚ) ↔ ⌊q⌋ < (m : Int) := by
      rw [Int.floor_lt]
      exact_mod_cast Iff.rfl
    rw [hlt, hcast, capacity]
    omega
  | posInf =>
    refine iff_of_false (by rintro ⟨⟩) ?_
    show ¬ n + 1 < m
    omega
  | negInf => cases h
  | nan => cases h

theorem capacity_pos (h : le (.ofNat 1) limit = true) (n : Nat) : 1 ≤ capacity limit n := by
  cases limit with
  | finite q =>
    have hq : ((1 : Nat) : ℚ) ≤ q := of_decide_eq_true h
    have hfloor : (1 : Int) ≤ ⌊q⌋ := by
      rw [Int.le_floor]
      exact_mod_cast hq
    rw [capacity]
    omega
  | posInf => exact Nat.succ_le_succ (Nat.zero_le n)
  | negInf => cases h
  | nan => cases h

theorem clamp_pos {x bound : JsNumber} (hx : x ≠ .nan) (h : le (.ofNat 1) bound = true) :
    le (.ofNat 1) (mathMin (mathMax (.ofNat 1) x) bound) = true := by
  have hmax : le (.ofNat 1) (mathMax (.ofNat 1) x) = true ∧ mathMax (.ofNat 1) x ≠ .nan := by
    rw [mathMax, if_neg (not_or.mpr ⟨nofun, hx⟩)]
    split
    · rename_i hle
      exact ⟨hle, hx⟩
    · exact ⟨by decide +kernel, nofun⟩
  have hbound : bound ≠ .nan := by
    rintro rfl
    cases h
  rw [mathMin, if_neg (not_or.mpr ⟨hmax.2, hbound⟩)]
  split
  · exact hmax.1
  · exact h

theorem pageLimit_pos {maxLimit : Option JsNumber}
    (h : le (.ofNat 1) (maxLimit.getD (.ofNat 200)) = true) (limit : Option JsNumber) :
    le (.ofNat 1) (pageLimit limit maxLimit) = true := by
  refine clamp_pos ?_ h
  rw [askedLimit]
  split
  · exact nofun
  rename_i hno
  exact fun hnan => hno (.inl hnan)

/-- A request as a snapshot of the walk. -/
def Request.snapshot (host : Host) (view : Pageable ρ) (r : Request ρ) : Snapshot ρ where
  rows := sorted host view r.visible
  limit := capacity (pageLimit r.limit r.maxLimit) r.visible.length

theorem visible_nodup (hnd : (r.rows.map view.id).Nodup) : (r.visible.map view.id).Nodup :=
  hnd.sublist (filter_sublist.map view.id)

theorem mem_visible : row ∈ r.visible ↔ row ∈ r.rows ∧ r.canView row = some true := by
  rw [Request.visible, visibleRows, mem_filter, decide_eq_true_iff]

theorem snapshot_ordered (hnd : (r.rows.map view.id).Nodup)
    (hroom : le (.ofNat 1) (r.maxLimit.getD (.ofNat 200)) = true) :
    (r.snapshot host view).Ordered (rowKey host view) where
  ascending := by
    have hids : ((sorted host view r.visible).map view.id).Nodup :=
      ((perm_insertionSort _ r.visible).map view.id).nodup_iff.mpr (visible_nodup hnd)
    refine Pairwise.imp₂ ?_ (sorted_rows r.visible) (pairwise_map.mp hids)
    intro a b hle hne
    refine lt_of_le_of_ne hle (fun heq => hne ?_)
    exact congrArg Position.id (key_inj heq)
  limit_pos := capacity_pos (pageLimit_pos hroom r.limit) _

theorem mem_snapshot : row ∈ (r.snapshot host view).rows
      ↔ row ∈ r.rows ∧ r.canView row = some true :=
  (mem_insertionSort _).trans mem_visible

/-- **A PAGE** is a page of the keyset walk over the visible rows. -/
theorem pageAfter_eq (host : Host) (view : Pageable ρ) (hnd : (r.rows.map view.id).Nodup)
    (hroom : le (.ofNat 1) (r.maxLimit.getD (.ofNat 200)) = true)
    (scope secret : Text) (cursor : Option Text) (after : Option Position) :
    (pageAfter host view (r.options scope secret cursor) after r.visible).items
      = page (rowKey host view) (after.map Position.key) (r.snapshot host view)
    ∧ (pageAfter host view (r.options scope secret cursor) after r.visible).hasMore
      = hasMore (rowKey host view) (after.map Position.key) (r.snapshot host view) := by
  have hlimit := pageLimit_pos hroom r.limit
  have hbehind : rowsBehind host view after r.visible
      = rowsAfter (rowKey host view) (after.map Position.key)
        (sorted host view r.visible) := rowsBehind_eq (visible_nodup hnd) after
  have hlen : (rowsAfter (rowKey host view) (after.map Position.key)
      (sorted host view r.visible)).length ≤ r.visible.length := by
    refine (length_filter_le _ _).trans ?_
    rw [sorted, length_insertionSort]
  -- ids are distinct, so no row is dropped as a repeat
  have hunique : dropRepeats view.id [] (rowsBehind host view after r.visible)
      = rowsAfter (rowKey host view) (after.map Position.key) (sorted host view r.visible) := by
    rw [dropRepeats_eq ?_ (fun _ _ => not_mem_nil), hbehind]
    rw [rowsBehind]
    refine ((perm_insertionSort _ _).map view.id).nodup_iff.mpr ?_
    exact (visible_nodup hnd).sublist (filter_sublist.map view.id)
  constructor
  · show (dropRepeats view.id [] (rowsBehind host view after r.visible)).take (sliceEnd _ _) = _
    rw [hunique]
    exact take_sliceEnd hlimit hlen
  show lt _ (.ofNat (dropRepeats view.id [] (rowsBehind host view after r.visible)).length) = _
  rw [hunique]
  exact lt_capacity hlimit hlen

theorem mem_of_mem_dropRepeats {id : ρ → Text} (h : row ∈ dropRepeats id seen rows) :
    row ∈ rows := by
  induction rows generalizing seen with
  | nil => cases h
  | cons first rest ih =>
    rw [dropRepeats] at h
    split at h
    · exact .tail _ (ih h)
    rcases mem_cons.mp h with rfl | h
    · exact (.head _)
    · exact .tail _ (ih h)

theorem mem_pageAfter {options : StableCursorOptions ρ}
    (h : row ∈ (pageAfter host view options after visible).items) : row ∈ visible := by
  have hunique := mem_of_mem_dropRepeats (mem_of_mem_take h)
  exact (mem_filter.mp ((mem_insertionSort _).mp hunique)).1

end Page

/-! ## Following the cursors is the walk -/

section Walk

variable {ρ : Type} {host : Host} {view : Pageable ρ} {scope secret : Text}
  {requests : List (Request ρ)} {r : Request ρ} {rest : List (Request ρ)}

theorem carried_position (htables : Tables host view requests)
    (hids : Carriable host view requests) (hr : r ∈ requests) {row : ρ} (hrow : row ∈ r.visible) :
    Carried (position host view row) where
  nonneg := (htables.safe r hr row (mem_visible.mp hrow).1).1
  safe := (htables.safe r hr row (mem_visible.mp hrow).1).2
  named := hids.named r hr row hrow
  no_bar := htables.no_bar r hr row (mem_visible.mp hrow).1
  wellFormed := hids.wellFormed r hr row hrow
  short := hids.short r hr row hrow

theorem Tables.tail (h : Tables host view (r :: rest)) : Tables host view rest where
  distinct r' hr := h.distinct r' (.tail _ hr)
  safe r' hr := h.safe r' (.tail _ hr)
  steady r' hr r'' hr' := h.steady r' (.tail _ hr) r'' (.tail _ hr')
  no_bar r' hr := h.no_bar r' (.tail _ hr)

theorem Carriable.tail (h : Carriable host view (r :: rest)) : Carriable host view rest where
  room r' hr := h.room r' (.tail _ hr)
  named r' hr := h.named r' (.tail _ hr)
  wellFormed r' hr := h.wellFormed r' (.tail _ hr)
  short r' hr := h.short r' (.tail _ hr)

theorem readCursor_eq (r : Request ρ) {after : Option Position} (hafter : ∀ p ∈ after, Carried p) :
    readCursor host (r.options scope secret
      (after.map (encodeStableCursor host scope secret))) = .ok after := by
  cases after with
  | none => rfl
  | some p =>
    have hdecode := decode_encode host scope secret (hafter p rfl)
    have hne : encodeStableCursor host scope secret p ≠ [] := by
      intro hnil
      rw [hnil, decodeStableCursor, if_pos (.inl rfl)] at hdecode
      cases hdecode
    show (if encodeStableCursor host scope secret p = [] then _ else
      (decodeStableCursor host scope secret (encodeStableCursor host scope secret p)).map some) = _
    rw [if_neg hne, hdecode]
    rfl

theorem nextCursor_eq (host : Host) (view : Pageable ρ) (scope secret : Text)
    (r : Request ρ) (cursor : Option Text) (after : Option Position) :
    (pageAfter host view (r.options scope secret cursor) after r.visible).nextCursor
      = if (pageAfter host view (r.options scope secret cursor) after r.visible).hasMore = true then
          (((pageAfter host view (r.options scope secret cursor) after
            r.visible).items.getLast?.map (position host view)).map
              (encodeStableCursor host scope secret)) else none := by
  rw [Option.map_map]
  rfl

/-- **FOLLOWING THE CURSORS** is the keyset walk over what is visible. -/
theorem follow_eq (scope secret : Text) (after : Option Position)
    (htables : Tables host view requests)
    (hids : Carriable host view requests) (hafter : ∀ p ∈ after, Carried p) :
    ∃ pages : List (StablePage ρ), follow host view scope secret
          (after.map (encodeStableCursor host scope secret)) requests = pages.map .ok
      ∧ pages.map (·.items) = walk (rowKey host view)
        (after.map Position.key) (requests.map (Request.snapshot host view))
      ∧ ended (pages.map .ok) = finishes (rowKey host view) (after.map Position.key)
        (requests.map (Request.snapshot host view)) := by
  -- by induction on the requests, from any position a cursor carries
  induction requests generalizing after with
  | nil => exact ⟨[], rfl, rfl, rfl⟩
  | cons r rest ih =>
    have hr : r ∈ r :: rest := (.head _)
    have hnd := htables.distinct r hr
    have hroom := hids.room r hr
    obtain ⟨hitems, hmore⟩ := pageAfter_eq host view hnd hroom scope secret
      (after.map (encodeStableCursor host scope secret)) after
    have hnext := nextCursor_eq host view scope secret r
      (after.map (encodeStableCursor host scope secret)) after
    generalize hpage : pageAfter host view (r.options scope secret
      (after.map (encodeStableCursor host scope secret))) after r.visible
      = page at hitems hmore hnext
    have hfirst : paginateStable host view r.rows (r.options scope secret
        (after.map (encodeStableCursor host scope secret))) = .ok page := by
      rw [paginateStable, readCursor_eq r hafter]
      exact congrArg Except.ok hpage
    rw [follow, hfirst, map_cons, walk, finishes]
    by_cases hfollowed : hasMore (rowKey host view)
        (after.map Position.key) (r.snapshot host view) = true
    · -- the last row shown is the position of the next page
      obtain ⟨last, hlast, -, -⟩ := next_of_hasMore (snapshot_ordered hnd hroom) hfollowed
      rw [← hitems] at hlast
      obtain ⟨row, hrow⟩ := isSome_iff_exists.mp (getLast?_isSome.mpr (ne_nil_of_mem hlast))
      have hvisible : row ∈ r.visible := by
        rw [← hpage] at hrow
        exact mem_pageAfter (mem_of_getLast? hrow)
      rw [hmore, if_pos hfollowed, hrow, map_some] at hnext
      have hkey : Paging.next (rowKey host view)
          (Paging.page (rowKey host view) (after.map Position.key) (r.snapshot host view))
          = (some (position host view row)).map Position.key := by
        rw [Paging.next, ← hitems, hrow]
        rfl
      have hcarried : ∀ p ∈ some (position host view row), Carried p :=
        fun p hp => mem_some_iff.mp hp ▸ carried_position htables hids hr hvisible
      obtain ⟨pages, hpages, hwalk, hend⟩ := ih
        (some (position host view row)) htables.tail hids.tail hcarried
      refine ⟨page :: pages, ?_, ?_, ?_⟩
      · show Except.ok page :: (match page.nextCursor with
          | none => []
          | some next => follow host view scope secret (some next) rest) = _
        rw [hnext]
        exact congrArg (Except.ok page :: ·) hpages
      · rw [if_pos hfollowed, hkey, map_cons, hitems, hwalk]
      rw [if_pos hfollowed, hkey, ← hend, map_cons]
      cases pages with
      | nil =>
        show page.nextCursor.isNone = false
        rw [hnext]
        rfl
      | cons page' rest' => rfl
    · rw [hmore, if_neg hfollowed] at hnext
      refine ⟨[page], ?_, ?_, ?_⟩
      · show Except.ok page :: (match page.nextCursor with
          | none => []
          | some next => follow host view scope secret (some next) rest) = _
        rw [hnext]
        rfl
      · rw [if_neg hfollowed]
        exact congrArg (fun items => [items]) hitems
      rw [if_neg hfollowed]
      show page.nextCursor.isNone = true
      rw [hnext]
      rfl

theorem delivered_ok (pages : List (StablePage ρ)) :
    delivered (pages.map .ok) = (pages.map (·.items)).flatten := by
  induction pages with
  | nil => rfl
  | cons page rest ih =>
    rw [map_cons, map_cons, flatten_cons, ← ih]
    rfl

theorem follow_permitted {requests : List (Request ρ)}
    (cursor : Option Text) (i : Nat) {page : StablePage ρ}
    (h : (follow host view scope secret cursor requests)[i]? = some (.ok page)) :
    ∃ r, requests[i]? = some r ∧ ∀ row ∈ page.items, row ∈ r.rows ∧ r.canView row = some true := by
  induction requests generalizing cursor i with
  | nil => cases h
  | cons r rest ih =>
    rw [follow] at h
    split at h
    · cases i with
      | zero => cases some.inj h
      | succ n => cases h
    rename_i first hfirst
    cases i with
    | zero =>
      refine ⟨r, rfl, fun row hrow => ?_⟩
      obtain rfl := Except.ok.inj (some.inj h)
      rw [paginateStable] at hfirst
      cases hread : readCursor host (r.options scope secret cursor) with
      | error reason =>
        rw [hread] at hfirst
        cases hfirst
      | ok after =>
        rw [hread] at hfirst
        rw [← Except.ok.inj hfirst] at hrow
        exact mem_visible.mp (mem_pageAfter hrow)
    -- a later page is one of the rest of the walk
    | succ n =>
      have htail : (match first.nextCursor with
          | none => []
          | some next => follow host view scope secret (some next) rest)[n]?
          = some (.ok page) := h
      split at htail
      · cases htail
      · exact ih _ n htail

/-- Hidden rows and the order of the rows leave a page as it is. -/
theorem paginateStable_perm {r r' : Request ρ}
    (hnd : (r.rows.map view.id).Nodup) (hperm : r'.visible.Perm r.visible)
    (hlimit : r'.limit = r.limit) (hmax : r'.maxLimit = r.maxLimit) (cursor : Option Text) :
    paginateStable host view r'.rows (r'.options scope secret cursor)
      = paginateStable host view r.rows (r.options scope secret cursor) := by
  have hpage : ∀ after : Option Position,
      pageAfter host view (r'.options scope secret cursor) after r'.visible
        = pageAfter host view (r.options scope secret cursor) after
          r.visible := by
    intro after
    have hbehind : rowsBehind host view after r'.visible = rowsBehind host view after r.visible :=
      rowsBehind_perm (visible_nodup hnd) hperm after
    simp only [pageAfter, Request.options, hbehind, hlimit, hmax]
    rfl
  show (readCursor host (r.options scope secret cursor)).map (fun after =>
    pageAfter host view (r'.options scope secret cursor) after r'.visible)
    = _
  simp only [hpage]
  rfl

theorem rowKey_eq (htables : Tables host view requests) {r r' : Request ρ}
    (hr : r ∈ requests) (hr' : r' ∈ requests) {row row' : ρ}
    (hrow : row ∈ r.rows) (hrow' : row' ∈ r'.rows) (hid : view.id row = view.id row') :
    rowKey host view row = rowKey host view row' := by
  have hms := htables.steady r hr r' hr' row hrow row' hrow' hid
  rw [rowKey, rowKey, position, position, hms, hid]

/-- **STABLE PAGES**: where a cursor can carry every row that is shown,
    following the cursors shows only what may be seen, each row once and in
    order, and leaves out no row that could be seen all the way. -/
theorem stable_walk (host : Host) (view : Pageable ρ) (scope secret : Text)
    (requests : List (Request ρ)) (htables : Tables host view requests)
    (hids : Carriable host view requests) :
    StableWalk host view scope secret requests := by
  obtain ⟨pages, hpages, hwalk, hend⟩ := follow_eq scope secret none htables hids
    (by rintro _ ⟨⟩)
  rw [map_none] at hpages hwalk hend
  have hsnaps : ∀ s ∈ requests.map (Request.snapshot host view),
      s.Ordered (rowKey host view) := by
    intro s hs
    obtain ⟨r, hr, rfl⟩ := mem_map.mp hs
    exact snapshot_ordered (htables.distinct r hr) (hids.room r hr)
  obtain ⟨hascending, -⟩ := walk_ascending hsnaps none
  have hdelivered : delivered (follow host view scope secret none requests)
      = (walk (rowKey host view) none
        (requests.map (Request.snapshot host view))).flatten := by
    rw [hpages, delivered_ok, hwalk]
  have hfrom : ∀ row ∈ delivered (follow host view scope secret none
      requests), ∃ r ∈ requests, row ∈ r.rows := by
    intro row hrow
    rw [hdelivered] at hrow
    obtain ⟨s, hs, hmem⟩ := mem_of_mem_walk hrow
    obtain ⟨r, hr, rfl⟩ := mem_map.mp hs
    exact ⟨r, hr, (mem_snapshot.mp hmem).1⟩
  have honce : ((delivered (follow host view scope secret none requests)).map view.id).Nodup := by
    refine pairwise_map.mpr ?_
    rw [← hdelivered] at hascending
    refine hascending.imp_of_mem ?_
    intro a b ha hb hlt hid
    obtain ⟨r, hr, ha⟩ := hfrom a ha
    obtain ⟨r', hr', hb⟩ := hfrom b hb
    exact hlt.ne (rowKey_eq htables hr hr' ha hb hid)
  constructor
  · exact fun i page => follow_permitted none i
  · exact honce
  · intro hended id hseen
    refine count_eq_one_of_mem honce ?_
    rw [hpages, hend] at hended
    have hlength : (follow host view scope secret none requests).length
        = (walk (rowKey host view) none
          (requests.map (Request.snapshot host view))).length := by
      rw [hpages, length_map, ← hwalk, length_map]
    rw [hlength] at hseen
    -- the first request has the id, and its key is the one to look for
    cases requests with
    | nil => cases hended
    | cons first rest =>
      have hpos : (walk (rowKey host view) none
          ((first :: rest).map (Request.snapshot host view))).length
          ≠ 0 := by
        rw [map_cons, walk]
        split <;> exact Nat.succ_ne_zero _
      have hfirst : first ∈ (first :: rest).take (walk (rowKey host view) none
          ((first :: rest).map (Request.snapshot host view))).length := by
        obtain ⟨n, hn⟩ := Nat.exists_eq_succ_of_ne_zero hpos
        rw [hn, take_succ_cons]
        exact (.head _)
      obtain ⟨row, hrow, hid, -⟩ := hseen first hfirst
      obtain ⟨shown, hshown, hkey⟩ := walk_complete hsnaps hended
        (k := rowKey host view row) (by rintro _ ⟨⟩) (by
          intro s hs
          rw [← map_take] at hs
          obtain ⟨r, hr, rfl⟩ := mem_map.mp hs
          obtain ⟨row', hrow', hid', hsees⟩ := hseen r hr
          exact ⟨row', mem_snapshot.mpr ⟨hrow', hsees⟩,
            rowKey_eq htables (mem_of_mem_take hr) (mem_of_mem_take hfirst) hrow' hrow
              (hid'.trans hid.symm)⟩)
      rw [← hdelivered] at hshown
      refine mem_map.mpr ⟨shown, hshown, ?_⟩
      exact (congrArg Position.id (key_inj hkey)).trans hid
  · rw [hdelivered]
    exact hascending.imp (fun h => compareStable_lt.mpr h)
  intro r hr r' hperm hlimit hmax cursor
  rw [paginateStable_perm (htables.distinct r hr) hperm hlimit hmax cursor]

end Walk

/-! ## Two walks -/

/-- Rows of an id and a time. -/
def datedRows : Pageable (Text × Nat) :=
  ⟨Prod.fst, fun row => .number (.ofNat row.2)⟩

def blankHost : Host :=
  ⟨fun _ => Vector.replicate 32 0, fun _ _ => Vector.replicate 32 0, fun _ => none⟩

/-- Three rows by twos; the first row goes and the second is hidden between
    the pages. -/
def shortRequests : List (Request (Text × Nat)) :=
  [⟨[(ascii "a", 1), (ascii "b", 3), (ascii "c", 2)], fun _ => some true, some (.ofNat 2), none⟩,
    ⟨[(ascii "a", 1), (ascii "c", 2)], fun row => if row.2 = 2 then none else some true,
      some (.ofNat 2), none⟩]

theorem stable_walk_sample :
    StableWalk blankHost datedRows (ascii "\x7b\x7d") (ascii "s") shortRequests :=
  stable_walk blankHost datedRows (ascii "\x7b\x7d") (ascii "s") shortRequests
    ⟨by decide +kernel, by decide +kernel, by decide +kernel, by decide +kernel⟩
    ⟨by decide +kernel, by decide +kernel, by decide +kernel, by decide +kernel⟩

/-- An id of 400 letters, and a row behind it. -/
def longRequests : List (Request (Text × Nat)) :=
  replicate 2 ⟨[(replicate 400 (unit 'a'), 2), (ascii "b", 1)],
      fun _ => some true, some (.ofNat 1), none⟩

/-- The cursor behind a long id is refused, and the next row is never
    shown. -/
theorem long_id_stops : Tables blankHost datedRows longRequests
    ∧ ¬ StableWalk blankHost datedRows (ascii "\x7b\x7d") (ascii "s")
      longRequests := by
  refine ⟨⟨by decide +kernel, by decide +kernel, by decide +kernel, by decide +kernel⟩, ?_⟩
  intro hwalk
  have hcount := hwalk.complete (by decide +kernel) (ascii "b") (by decide +kernel)
  exact absurd hcount (by decide +kernel)

end StableCursor
