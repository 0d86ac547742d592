import Inqutum.OperationQueueProofs
import Inqutum.TransitionProofs

/-!
# Which operations reach storage and stay there

A write replaces the stored list by the map of one tab.  An operation that
another tab enqueued is in that map only if its message has arrived.

`stays_stored_iff` gives the runs in which every enqueued operation is
stored until it is cleared: whenever a tab writes, its map holds what
storage holds, and whenever it enqueues, its list can be written.
-/

namespace OperationQueue

open Transition (Along)
open List InsertionMap

/-! ## The property and its condition -/

def Browser.stores (b : Browser) (id : String) : Bool :=
  (b.storage.getD []).any (fun item => decide (item.id = id))

/-- Every enqueued operation is stored, unless it was cleared. -/
def NoneLost (b : Browser) : Prop :=
  ∀ id ∈ b.history.enqueued, id ∉ b.history.cleared → b.stores id = true

def Move.enqueues : Move → Option String
  | .enqueue _ request now => some (request.operation now).id
  | _ => none

/-- A tab that writes holds what is stored, apart from what was cleared and
    what it enqueues. -/
def WritesAll (b : Browser) (move : Move) : Prop :=
  ∀ t ∈ b.turn move, t.written.isSome = true →
    ∀ item ∈ b.storage.getD [], item.id ∉ b.history.cleared →
      t.before.operations.has item.id = true ∨ move.enqueues = some item.id

/-- What is enqueued can be written, or its id is stored already. -/
def CanWrite (b : Browser) (move : Move) : Prop :=
  ∀ t ∈ b.turn move, ∀ id ∈ move.enqueues, t.written.isSome = true ∨ b.stores id = true

/-! ## One move -/

section Move

variable {b : Browser} {move : Move} {t : Turn} {id : String}

theorem stores_iff : b.stores id = true
      ↔ ∃ items, b.storage = some items ∧ id ∈ items.map Operation.id := by
  rw [Browser.stores, any_eq_true]
  cases b.storage with
  | none => simp
  | some items => simp [mem_map]

def cleared (t : Turn) : Move → List String
  | .clearCompleted _ => t.before.completedIds
  | _ => []

theorem enqueued_turn (h : Turns b move t) (id : String) : id ∈ t.history.enqueued
      ↔ id ∈ b.history.enqueued ∨ move.enqueues = some id := by
  cases h with
  | enqueue htab =>
    refine mem_append.trans (or_congr_right ?_)
    rw [mem_singleton]
    exact ⟨fun heq => congrArg some heq.symm, fun heq => (Option.some.inj heq).symm⟩
  | _ => exact ⟨Or.inl, fun h => h.resolve_right nofun⟩

theorem cleared_turn (h : Turns b move t) (id : String) : id ∈ t.history.cleared
      ↔ (id ∈ b.history.cleared ∨ id ∈ cleared t move) ∧ move.enqueues ≠ some id := by
  cases h with
  | enqueue htab =>
    refine mem_filter.trans (and_congr ?_ ?_)
    · exact ⟨Or.inl, fun h => h.resolve_right nofun⟩
    rw [decide_eq_true_eq]
    exact ⟨fun hne heq => hne (Option.some.inj heq).symm,
      fun hne heq => hne (congrArg some heq.symm)⟩
  | clearCompleted htab =>
    exact mem_append.trans ⟨fun h => ⟨h, nofun⟩, fun h => h.1⟩
  | _ => exact ⟨fun h => ⟨.inl h, nofun⟩,
      fun h => h.1.resolve_right nofun⟩

theorem cleared_held (h : Turns b move t)
    (hid : id ∈ cleared t move) : t.before.operations.has id = true := by
  cases h with
  | clearCompleted htab => exact (Tab.mem_completedIds.mp hid).1
  | _ => cases hid

theorem has_turn (h : Turns b move t) (hwrites : t.writes = true) (id : String) :
    t.after.operations.has id = true ↔ (t.before.operations.has id = true ∧ id ∉ cleared t move)
        ∨ move.enqueues = some id := by
  have hsame : ∀ has : Bool, has = true
      ↔ (has = true ∧ id ∉ ([] : List String)) ∨ none = some id := by
    intro has
    simp
  cases h with
  | @enqueue i tab request now htab =>
    show (tab.operations.set _ _).has id = true ↔ _
    rw [has_set, Bool.or_eq_true, decide_eq_true_eq]
    constructor
    · rintro (heq | hold)
      · exact .inr (congrArg some heq)
      · exact .inl ⟨hold, by rintro ⟨⟩⟩
    rintro (⟨hold, -⟩ | heq)
    · exact .inr hold
    · exact .inl (Option.some.inj heq)
  | deliver htab => cases hwrites
  | @clearCompleted i tab htab =>
    show tab.clearCompleted.operations.has id = true
      ↔ (tab.operations.has id = true ∧ id ∉ tab.completedIds) ∨ none = some id
    rw [has, Tab.get_clearCompleted, has]
    by_cases hid : id ∈ tab.completedIds
    · rw [if_pos hid]
      constructor
      · rintro ⟨⟩
      rintro (⟨-, hout⟩ | h)
      · exact absurd hid hout
      · cases h
    · rw [if_neg hid]
      constructor
      · exact fun h => .inl ⟨h, hid⟩
      rintro (⟨hhas, -⟩ | h)
      · exact hhas
      · cases h
  | _ => exact hsame _

theorem enqueued_new (h : Turns b move t) (hid : move.enqueues = some id) :
    id ∈ t.history.enqueued ∧ id ∉ t.history.cleared := by
  refine ⟨(enqueued_turn h id).mpr (.inr hid), fun hcl => ?_⟩
  exact ((cleared_turn h id).mp hcl).2 hid

theorem enqueued_of_listed (hs : Sound b) {item : Operation}
    (hitem : item ∈ b.storage.getD []) : item.id ∈ b.history.enqueued := by
  cases hst : b.storage with
  | none =>
    rw [hst] at hitem
    cases hitem
  | some items =>
    rw [hst] at hitem
    exact hs.listed items hst item hitem

theorem noneLost_unwritten (hkept : NoneLost b)
    (hturn : b.turn move = some t) (hw : t.written = none) :
    NoneLost (b.take t) ↔ WritesAll b move ∧ CanWrite b move := by
  have h := turns_of_turn hturn
  have hstores : ∀ id, (b.take t).stores id = b.stores id := by
    intro id
    rw [Browser.stores, storage_take, hw]
    rfl
  constructor
  · intro hlost
    refine ⟨?_, ?_⟩
    · intro t' ht' hwrites
      rw [← Option.some.inj (hturn.symm.trans ht'), hw] at hwrites
      cases hwrites
    intro t' ht' id hid
    refine Or.inr ?_
    rw [← hstores]
    exact hlost id (enqueued_new h hid).1 (enqueued_new h hid).2
  · rintro ⟨-, hcan⟩ id hmem hcleared
    rw [hstores]
    rcases (enqueued_turn h id).mp hmem with hold | hid
    · by_cases hid : move.enqueues = some id
      · rcases hcan t hturn id hid with hwrites | hstored
        · rw [hw] at hwrites
          cases hwrites
        · exact hstored
      refine hkept id hold (fun hcl => hcleared ?_)
      exact (cleared_turn h id).mpr ⟨.inl hcl, hid⟩
    · rcases hcan t hturn id hid with hwrites | hstored
      · rw [hw] at hwrites
        cases hwrites
      · exact hstored

theorem noneLost_written (hs : Sound b) (hkept : NoneLost b)
    (hturn : b.turn move = some t) {items : List Operation} (hw : t.written = some items) :
    NoneLost (b.take t) ↔ WritesAll b move ∧ CanWrite b move := by
  have h := turns_of_turn hturn
  obtain ⟨hwrites, -⟩ := written_serialized hw
  have hstores : ∀ id, (b.take t).stores id = true ↔ t.after.operations.has id = true := by
    intro id
    rw [stores_iff, storage_take, hw, ← mem_keys_iff, ← written_ids (h.sound hs).2.1 hw]
    exact ⟨fun ⟨items', heq, hmem⟩ => Option.some.inj heq ▸ hmem, fun hmem => ⟨items, rfl, hmem⟩⟩
  constructor
  · intro hlost
    refine ⟨?_, fun t' ht' id hid => ?_⟩
    · intro t' ht' _ item hitem hcl
      rw [← Option.some.inj (hturn.symm.trans ht')]
      by_cases hid : move.enqueues = some item.id
      · exact .inr hid
      refine Or.inl ?_
      have hold := enqueued_of_listed hs hitem
      by_cases hcleared : item.id ∈ cleared t move
      · exact cleared_held h hcleared
      -- neither cleared nor lost, so the tab holds it
      have hkeep : item.id ∉ t.history.cleared := by
        intro hmem
        rcases ((cleared_turn h _).mp hmem).1 with hc | hc
        · exact hcl hc
        · exact hcleared hc
      have hafter := (hstores _).mp (hlost item.id ((enqueued_turn h _).mpr (.inl hold)) hkeep)
      rcases (has_turn h hwrites _).mp hafter with hhas | hnew'
      · exact hhas.1
      · exact absurd hnew' hid
    · rw [← Option.some.inj (hturn.symm.trans ht'), hw]
      exact .inl rfl
  · rintro ⟨hall, -⟩ id hmem hcl
    rw [hstores, has_turn h hwrites]
    by_cases hid : move.enqueues = some id
    · exact .inr hid
    have hold := ((enqueued_turn h id).mp hmem).resolve_right hid
    have hkeep : id ∉ b.history.cleared ∧ id ∉ cleared t move := by
      rw [← not_or]
      exact fun hc => hcl ((cleared_turn h id).mpr ⟨hc, hid⟩)
    obtain ⟨items', hst, hin⟩ := stores_iff.mp (hkept id hold hkeep.1)
    obtain ⟨item, hitem, rfl⟩ := mem_map.mp hin
    refine .inl ⟨?_, hkeep.2⟩
    refine (hall t hturn (by rw [hw]; rfl) item ?_ hkeep.1).resolve_right hid
    rw [hst]
    exact hitem

/-- **ONE MOVE**: it loses nothing exactly if its tab writes all. -/
theorem noneLost_step_iff (hs : Sound b) (hkept : NoneLost b) (move : Move) :
    NoneLost (b.step move) ↔ WritesAll b move ∧ CanWrite b move := by
  rw [Browser.step]
  cases hturn : b.turn move with
  | none =>
    refine ⟨fun _ => ⟨?_, ?_⟩, fun _ => hkept⟩
    · intro t ht
      rw [hturn] at ht
      cases ht
    intro t ht
    rw [hturn] at ht
    cases ht
  | some t =>
    show NoneLost (b.take t) ↔ _
    cases hw : t.written with
    | none => exact noneLost_unwritten hkept hturn hw
    | some items => exact noneLost_written hs hkept hturn hw

end Move

/-- **WHEN NOTHING IS LOST**: exactly if each tab that writes holds what is
    stored, and what is enqueued can be written. -/
theorem stays_stored_iff (refuses : Nat → Bool) (moves : List Move) :
    Along Browser.step (fun b move => NoneLost (b.step move)) (.empty refuses) moves
      ↔ Along Browser.step (fun b move => WritesAll b move ∧ CanWrite b move)
        (.empty refuses) moves := by
  have hstart : Sound (.empty refuses) ∧ NoneLost (.empty refuses) :=
    ⟨sound_empty refuses, nofun⟩
  constructor
  · refine Along.imp (I := fun b => Sound b ∧ NoneLost b) ?_ hstart
    intro b move ⟨hs, hkept⟩ hlost
    exact ⟨(noneLost_step_iff hs hkept move).mp hlost, hs.step move, hlost⟩
  refine Along.imp (I := fun b => Sound b ∧ NoneLost b) ?_ hstart
  intro b move ⟨hs, hkept⟩ hc
  have hlost := (noneLost_step_iff hs hkept move).mpr hc
  exact ⟨hlost, hs.step move, hlost⟩

/-! ## Samples -/

instance (b : Browser) : Decidable (NoneLost b) :=
  inferInstanceAs (Decidable (∀ id ∈ b.history.enqueued,
    id ∉ b.history.cleared → b.stores id = true))

def sampleRequest (id : String) : Request where
  id := some id
  type := "CANCEL_INVOICE"
  entityId := "inv-1"
  payload := none
  baseVersion := none
  baseStatus := none
  generated := ""

/-- **AN OPERATION IS LOST**: a second tab enqueues before it has heard of the
    first one's write. -/
theorem stored_is_lost : ¬ Along Browser.step (fun b move => NoneLost (b.step move)) .empty
      [.openTab 0 3, .openTab 1 3, .enqueue 0 (sampleRequest "a") 0,
        .enqueue 1 (sampleRequest "b") 0] := by
  decide +kernel

end OperationQueue
