import Inqutum.AuditTrailProofs
import Mathlib.Data.List.Dedup

/-!
# The indexes of the audit trail

`recordEvent` keeps a list of event ids for every entity and every actor
next to the buffer, and takes an evicted event off its two lists by hand.
As long as the ids drawn are distinct, the lists and the buffer agree
(`Agree.record`), so a lookup by entity is a scan.  `queryEvents` scans
too, but takes the empty entity id for no filter (`index_eq_scan_iff`).

A list that has become empty stays in its index.  The buffer is bounded by
the capacity, and the indexes by the history only (`bounded_iff`).
-/

namespace AuditTrail

open JsonText (Text ascii)
open JsText (slice)
open List MemoryAuditStore InsertionMap

/-! ## Reading -/

structure AuditFilter where
  action : Option AuditAction
  entityId : Option Text
  actorId : Option Text
  actorType : Option AuditActorType
  fromTimestamp : Option Text
  toTimestamp : Option Text
  limit : Option Int
  offset : Option Int

structure AuditQueryResult where
  events : List AuditEvent
  total : Nat
  limit : Int
  offset : Int

/-- `if (filter.field) result = result.filter(…)`, of an enumeration. -/
def narrow {α : Type} (field : Option α) (keep : α → AuditEvent → Bool)
    (result : List AuditEvent) : List AuditEvent :=
  match field with
  | none => result
  | some value => result.filter (keep value)

/-- The same of a text: an empty one is no filter. -/
def narrowText (field : Option Text) (keep : Text → AuditEvent → Bool)
    (result : List AuditEvent) : List AuditEvent :=
  narrow (field.filter (fun text => decide (text ≠ []))) keep result

/-- `value || fallback`. -/
def orNumber (value : Option Int) (fallback : Int) : Int :=
  if value.getD 0 = 0 then fallback else value.getD 0

namespace MemoryAuditStore

def ids (store : MemoryAuditStore) : List Text := store.events.map (fun event => event.id)

def getEventsByEntity (store : MemoryAuditStore) (entityId : Text) : List AuditEvent :=
  let ids := (store.eventsByEntity.get entityId).getD []
  (ids.filterMap store.eventsById.get).reverse

/-- `getTime` is `new Date(text).getTime()`. -/
def queryEvents (getTime : Text → JsNumber) (store : MemoryAuditStore) (filter : AuditFilter) :
    AuditQueryResult :=
  let result := store.events.reverse
  let result := narrow filter.action (fun action e => e.action = action) result
  let result := narrowText filter.entityId (fun id e => e.scope.entityId = id) result
  let result := narrowText filter.actorId (fun id e => e.actor.id = id) result
  let result := narrow filter.actorType (fun type e => e.actor.type = type) result
  let result := narrowText filter.fromTimestamp
    (fun start e => JsNumber.le (getTime start) (getTime e.timestamp)) result
  let result := narrowText filter.toTimestamp
    (fun stop e => JsNumber.le (getTime e.timestamp) (getTime stop)) result
  let limit := max 1 (min (orNumber filter.limit 50) 500)
  let offset := max 0 (orNumber filter.offset 0)
  { events := slice result offset (offset + limit)
    total := result.length
    limit
    offset }

/-- `queryEvents({ entityId, limit, offset })`. -/
def entityPage (getTime : Text → JsNumber) (store : MemoryAuditStore) (entityId : Text)
    (limit offset : Int) : AuditQueryResult :=
  store.queryEvents getTime
    ⟨none, some entityId, none, none, none, none, some limit, some offset⟩

/-- The first `n` pages, each at the offset where the last one ended. -/
def entityPages (getTime : Text → JsNumber) (store : MemoryAuditStore) (entityId : Text)
    (limit : Int) (n : Nat) : List AuditEvent :=
  (range n).flatMap (fun (k : Nat) =>
    (store.entityPage getTime entityId limit
      ((k : Int) * (store.entityPage getTime entityId limit 0).limit)).events)

end MemoryAuditStore

/-! ## Pages -/

theorem flatMap_slice {α : Type} (items : List α) (step n : Nat) :
    (range n).flatMap (fun k => slice items (k * step : Nat) ((k * step : Nat) + (step : Nat)))
      = items.take (n * step) := by
  induction n with
  | zero => simp
  | succ n ih =>
    have hslice : slice items (n * step : Nat) ((n * step : Nat) + (step : Nat))
        = (items.drop (n * step)).take step := by
      have hstart : JsText.clampIndex items.length (n * step : Nat)
          = min (n * step) items.length := by
        rw [JsText.clampIndex, if_neg (by omega), Int.toNat_natCast]
      have hstop : JsText.clampIndex items.length ((n * step : Nat) + (step : Nat))
          = min (n * step + step) items.length := by
        rw [JsText.clampIndex, if_neg (by omega), ← Nat.cast_add, Int.toNat_natCast]
      rw [slice, hstart, hstop]
      rcases Nat.le_total (n * step) items.length with hle | hle
      · rw [min_eq_left hle]
        apply take_eq_take_iff.mpr
        rw [length_drop]
        omega
      · rw [drop_of_length_le (by omega), drop_of_length_le hle, take_nil, take_nil]
    rw [range_succ, flatMap_append, ih, flatMap_singleton, hslice, Nat.succ_mul, take_add]

section Pages

variable (getTime : Text → JsNumber) (store : MemoryAuditStore) (entityId : Text) (limit : Int)

/-- What the pages of an entity are cut from. -/
def scanned : List AuditEvent :=
  narrowText (some entityId) (fun id e => e.scope.entityId = id) store.events.reverse

theorem entityPages_eq {n : Nat} (hn : (store.entityPage getTime entityId limit 0).total
      ≤ n * (store.entityPage getTime entityId limit 0).limit) :
    store.entityPages getTime entityId limit n = scanned store entityId := by
  obtain ⟨step, hstep⟩ : ∃ step : Nat, max 1 (min (orNumber (some limit) 50) 500) = (step : Int) :=
    ⟨_, (Int.toNat_of_nonneg (by omega)).symm⟩
  have hlimit : (store.entityPage getTime entityId limit 0).limit = (step : Int) := hstep
  have hpage (k : Nat) : (store.entityPage getTime entityId limit ((k : Int) * step)).events
      = slice (scanned store entityId) (k * step : Nat) ((k * step : Nat) + (step : Nat)) := by
    have hoffset : max 0 (orNumber (some ((k : Int) * step)) 0) = ((k * step : Nat) : Int) := by
      rw [orNumber, Option.getD_some, ← Nat.cast_mul]
      split <;> omega
    rw [← hoffset, ← hstep]
    rfl
  have hlength : (scanned store entityId).length ≤ n * step := by
    rw [hlimit] at hn
    exact_mod_cast hn
  rw [entityPages, hlimit, funext hpage, flatMap_slice, take_of_length_le hlength]

theorem scanned_eq (hne : entityId ≠ []) : scanned store entityId
    = (store.events.filter (fun event => event.scope.entityId = entityId)).reverse := by
  rw [scanned, narrowText, Option.filter_some, if_pos (decide_eq_true hne)]
  exact filter_reverse

theorem scanned_nil : scanned store [] = store.events.reverse := rfl

end Pages

/-! ## The index is a scan -/

section Index

variable {index : InsertionMap Text (List Text)} {key id other : Text}

theorem getD_unindex : ((unindex index key id).get other).getD []
    = if key = other then ((index.get key).getD []).erase id else (index.get other).getD [] := by
  unfold unindex
  cases hget : index.get key with
  | none =>
    by_cases heq : key = other
    · rw [if_pos heq, ← heq, hget]
      rfl
    · rw [if_neg heq]
  | some ids =>
    show ((index.set key (ids.erase id)).get other).getD [] = _
    rw [get_set]
    split <;> rfl

theorem getD_enlist : ((enlist index key id).get other).getD []
    = if key = other then (index.get key).getD [] ++ [id] else (index.get other).getD [] := by
  rw [enlist, get_set]
  split <;> rfl

end Index

/-- The retained events have distinct ids, by which the two maps find them. -/
structure Agree (store : MemoryAuditStore) : Prop where
  distinct : store.ids.Nodup
  byId : ∀ event ∈ store.events, store.eventsById.get event.id = some event
  byEntity : ∀ entityId, (store.eventsByEntity.get entityId).getD []
    = (store.events.filter (fun event => event.scope.entityId = entityId)).map
        (fun event => event.id)

section Agreement

variable {store : MemoryAuditStore} {event : AuditEvent}

theorem Agree.evict (h : Agree store) : Agree store.evict := by
  cases hevents : store.events with
  | nil =>
    rw [MemoryAuditStore.evict, hevents]
    exact h
  | cons oldest rest =>
    have hdistinct := h.distinct
    rw [ids, hevents, map_cons, nodup_cons] at hdistinct
    rw [MemoryAuditStore.evict, hevents]
    refine ⟨hdistinct.2, fun event hevent => ?_, fun entityId => ?_⟩
    · have hne : oldest.id ≠ event.id := fun heq =>
        hdistinct.1 (heq ▸ mem_map_of_mem (f := fun event : AuditEvent => event.id) hevent)
      exact (get_delete_of_ne _ hne).trans
        (h.byId event (by rw [hevents]; exact .tail _ hevent))
    · have hold := h.byEntity entityId
      rw [hevents, filter_cons] at hold
      show ((unindex _ _ _).get entityId).getD [] = _
      rw [getD_unindex]
      split
      · next heq =>
        rw [if_pos (decide_eq_true heq), ← heq] at hold
        rw [hold, map_cons, erase_cons_head, ← heq]
      · next hne =>
        rw [if_neg (by rw [decide_eq_true_eq]; exact hne)] at hold
        exact hold

theorem Agree.push (h : Agree store)
    (hfresh : event.id ∉ store.ids) : Agree (store.push event) where
  distinct := by
    show ((store.events ++ [event]).map _).Nodup
    rw [map_append]
    exact h.distinct.append (nodup_singleton _) (disjoint_singleton.mpr hfresh)
  byId e he := by
    rcases mem_append.mp he with hold | hnew
    · have hne : event.id ≠ e.id := fun heq => hfresh (heq ▸ mem_map_of_mem hold)
      exact (get_set_of_ne _ _ hne).trans (h.byId e hold)
    · rw [mem_singleton.mp hnew]
      exact get_set_self _ _ _
  byEntity entityId := by
    show ((enlist _ _ _).get entityId).getD [] = ((store.events ++ [event]).filter _).map _
    rw [getD_enlist, filter_append, map_append]
    split
    · next heq =>
      rw [← heq, h.byEntity, filter_singleton, decide_eq_true rfl]
      rfl
    · next hne =>
      rw [h.byEntity, filter_singleton, decide_eq_false hne]
      exact (append_nil _).symm

theorem Agree.getEventsByEntity_eq (h : Agree store) (entityId : Text) :
    store.getEventsByEntity entityId
      = (store.events.filter (fun event => event.scope.entityId = entityId)).reverse := by
  have hfound : ∀ l : List AuditEvent, (∀ event ∈ l, event ∈ store.events) →
      (l.map (fun event => event.id)).filterMap store.eventsById.get = l := by
    intro l hl
    rw [filterMap_map, filterMap_congr (g := some), filterMap_some]
    exact fun event hevent => h.byId event (hl event hevent)
  rw [getEventsByEntity, h.byEntity, hfound _ (fun _ he => mem_of_mem_filter he)]

end Agreement

/-! ## Runs -/

/-- The events that calls record, one after the other. -/
def MemoryAuditStore.returned (host : Host) : MemoryAuditStore → List Call → List AuditEvent
  | _, [] => []
  | store, call :: rest =>
    match store.recordEvent host call with
    | .ok (event, store') => event :: returned host store' rest
    | .error _ => returned host store rest

section Run

variable {host : Host} {store store' : MemoryAuditStore} {event : AuditEvent} {call : Call}
  {capacity : Nat}

theorem recordEvent_event (hok : store.recordEvent host call = .ok (event, store')) :
    event.id = call.uuid ∧ event.scope = call.input.scope ∧ event.actor = call.input.actor := by
  rw [recordEvent] at hok
  cases hhash : hashEvent host (call.event host store.previousHash) with
  | error thrown =>
    rw [hhash] at hok
    cases hok
  | ok hash =>
    rw [hhash] at hok
    cases hok
    exact ⟨rfl, rfl, rfl⟩

/-- The store that is pushed to. -/
def MemoryAuditStore.room (store : MemoryAuditStore) : MemoryAuditStore :=
  if store.full then store.evict else store

theorem events_room : store.room.events = if store.full then store.events.tail
    else store.events := by
  rw [room]
  split
  · rw [evict]
    cases hevents : store.events with
    | nil => exact hevents
    | cons oldest rest => rfl
  · rfl

theorem Agree.room (h : Agree store) : Agree store.room := by
  rw [MemoryAuditStore.room]
  split
  · exact h.evict
  · exact h

theorem Agree.recordAll (h : Agree store) (calls : List Call)
    (hdistinct : (store.ids ++ calls.map Call.uuid).Nodup) :
    Agree (store.recordAll host calls) := by
  induction calls generalizing store with
  | nil => exact h
  | cons call rest ih =>
    show Agree ((store.record host call).recordAll host rest)
    cases hcall : store.recordEvent host call with
    | error thrown =>
      have hrecord : store.record host call = store := by rw [record, hcall]
      rw [hrecord]
      exact ih h (hdistinct.sublist ((Sublist.refl _).append (sublist_cons_self _ _)))
    | ok result =>
      obtain ⟨event, store'⟩ := result
      obtain ⟨-, -, hstore⟩ := recordEvent_ok hcall
      have hrecord : store.record host call = store.room.push event := by
        rw [record, hcall]
        exact hstore
      have hsub : store.room.ids.Sublist store.ids := by
        rw [ids, events_room]
        split
        · exact (tail_sublist _).map _
        · exact .refl _
      have hids : (store.room.ids ++ (call.uuid :: rest.map _)).Nodup :=
        hdistinct.sublist (hsub.append (.refl _))
      have hid := (recordEvent_event hcall).1
      rw [hrecord]
      refine ih (h.room.push fun hin => ?_) ?_
      · exact (nodup_append.mp hids).2.2 _ hin _ (.head _) hid
      · show ((store.room.events ++ [event]).map _ ++ _).Nodup
        rw [map_append, append_assoc, map_singleton, hid]
        exact hids

theorem full_ofNat (hmax : store.maxCapacity = .ofNat capacity) :
    store.full = decide (capacity ≤ store.events.length) := by
  rw [full, hmax]
  exact decide_eq_decide.mpr Nat.cast_le

theorem events_recordAll (hcap : 1 ≤ capacity) (hmax : store.maxCapacity = .ofNat capacity)
    (calls : List Call) {past : List AuditEvent}
    (hpast : store.events = past.drop (past.length - capacity)) :
    (store.recordAll host calls).events = (past ++ store.returned host calls).drop
        ((past ++ store.returned host calls).length - capacity) := by
  induction calls generalizing store past with
  | nil =>
    rw [returned, append_nil]
    exact hpast
  | cons call rest ih =>
    have hmax' := (@maxCapacity_record host store call).trans hmax
    show ((store.record host call).recordAll host rest).events = _
    rw [returned]
    cases hcall : store.recordEvent host call with
    | error thrown =>
      have hrecord : store.record host call = store := by rw [record, hcall]
      rw [hrecord]
      exact ih hmax hpast
    | ok result =>
      obtain ⟨event, store'⟩ := result
      obtain ⟨-, -, hstore⟩ := recordEvent_ok hcall
      have hrecord : store.record host call = store' := by rw [record, hcall]
      have hevents : store'.events
          = (past ++ [event]).drop ((past ++ [event]).length - capacity) := by
        have hroom : store.room.events = past.drop (past.length + 1 - capacity) := by
          rw [events_room, full_ofNat hmax, hpast, length_drop, tail_drop]
          split
          · next hfull =>
            rw [decide_eq_true_eq] at hfull
            congr 1
            omega
          · next hfull =>
            rw [decide_eq_true_eq] at hfull
            congr 1
            omega
        have hpush : store'.events = store.room.events ++ [event] := by
          rw [hstore]
          rfl
        rw [hpush, hroom, length_append, length_singleton, drop_append_of_le_length (by omega)]
      rw [hrecord] at hmax' ⊢
      have := ih hmax' hevents
      rw [append_assoc] at this
      exact this

end Run

theorem agree_new {capacity : JsNumber} : Agree (.new capacity) :=
  ⟨.nil, (fun _ hevent => absurd hevent not_mem_nil), fun _ => rfl⟩

theorem events_new (host : Host) {capacity : Nat} (hcap : 1 ≤ capacity) (calls : List Call) :
    (recordAll host (.new (.ofNat capacity)) calls).events
      = (returned host (.new (.ofNat capacity)) calls).drop
          ((returned host (.new (.ofNat capacity)) calls).length - capacity) :=
  @events_recordAll host (.new (.ofNat capacity)) capacity hcap rfl calls [] drop_nil.symm

section Lookup

variable {capacity : Nat}

def MemoryAuditStore.listChronological (store : MemoryAuditStore) : List AuditEvent := store.events

/-- What a lookup by entity finds, given the events that were recorded. -/
structure IsScan (getTime : Text → JsNumber) (capacity : Nat) (history : List AuditEvent)
    (store : MemoryAuditStore) (entityId : Text) (limit : Int) : Prop where
  lookup : store.getEventsByEntity entityId = (store.listChronological.filter
    (fun event => event.scope.entityId = entityId)).reverse
  pages : ∀ n : Nat, (store.entityPage getTime entityId limit 0).total
      ≤ n * (store.entityPage getTime entityId limit 0).limit →
    store.entityPages getTime entityId limit n = store.getEventsByEntity entityId
  retained : store.listChronological
    = history.drop (history.length - min history.length capacity)

/-- **THE INDEX IS A SCAN**, after any calls that draw distinct ids, and the
    pages of an entity are its lookup unless the empty id stands for all. -/
theorem index_eq_scan_iff (host : Host) (getTime : Text → JsNumber) (hcap : 1 ≤ capacity)
    (calls : List Call) (huuid : (calls.map Call.uuid).Nodup) (entityId : Text) (limit : Int) :
    IsScan getTime capacity (returned host (.new (.ofNat capacity)) calls)
        (.recordAll host (.new (.ofNat capacity)) calls) entityId limit
      ↔ (entityId = [] → ∀ event ∈ (recordAll host
          (.new (.ofNat capacity)) calls).events, event.scope.entityId = []) := by
  have hagree : Agree (recordAll host (.new (.ofNat capacity)) calls) :=
    Agree.recordAll agree_new calls huuid
  have hretained := events_new host hcap calls
  generalize recordAll host (.new (.ofNat capacity)) calls = store at *
  have hlookup := hagree.getEventsByEntity_eq entityId
  have hlimit : 1 ≤ (store.entityPage getTime entityId limit 0).limit := le_max_left _ _
  constructor
  · rintro h rfl
    -- As many pages as there are events reach the end.
    have hall := (entityPages_eq getTime store [] limit (le_mul_of_one_le_right (by omega) hlimit)).symm.trans
      (h.pages _ (le_mul_of_one_le_right (by omega) hlimit))
    rw [scanned_nil, hlookup, reverse_inj] at hall
    exact fun event hevent => of_decide_eq_true (filter_eq_self.mp hall.symm event hevent)
  intro hempty
  have hscanned : scanned store entityId = store.getEventsByEntity entityId := by
    rw [hlookup]
    by_cases hid : entityId = []
    · subst hid
      rw [scanned_nil, filter_eq_self.mpr]
      exact fun event hevent => decide_eq_true (hempty rfl event hevent)
    · exact scanned_eq store entityId hid
  refine ⟨hlookup, fun n hn => (entityPages_eq getTime store entityId limit hn).trans hscanned, ?_⟩
  show store.events = _
  rw [hretained]
  congr 1
  omega

/-- Three events of an entity in a store that holds two. -/
theorem index_eq_scan_thrice :
    let calls := [creation "e1", creation "e2", creation "e3"]
    IsScan (fun _ => 0) 2 (returned sampleHost (.new 2) calls)
      (.recordAll sampleHost (.new 2) calls) (ascii "i1") 500 :=
  (@index_eq_scan_iff 2 sampleHost (fun _ => 0) (by decide) _ (by decide +kernel) _ _).mpr
    (fun hempty => absurd hempty (by decide))

/-- The empty entity id finds no event in the index, and every event in a query. -/
theorem empty_entity_finds_all : ¬ IsScan (fun _ => 0) 1
    (returned sampleHost (.new 1) [creation "e1"])
    (.recordAll sampleHost (.new 1) [creation "e1"]) [] 500 := by
  intro h
  have hlength := congrArg length (h.pages 1 (by decide +kernel))
  revert hlength
  decide +kernel

end Lookup

/-! ## The size of the indexes -/

/-- The entities of the events that calls record. -/
def entities (host : Host) (calls : List Call) : List Text :=
  (calls.filter (Call.recordable host)).map (fun call => call.input.scope.entityId)

def actors (host : Host) (calls : List Call) : List Text :=
  (calls.filter (Call.recordable host)).map (fun call => call.input.actor.id)

/-- The buffer and the two indexes are no larger than the capacity. -/
structure Bounded (capacity : Nat) (store : MemoryAuditStore) : Prop where
  events : store.events.length ≤ capacity
  entities : store.eventsByEntity.size ≤ capacity
  actors : store.eventsByActor.size ≤ capacity

section Size

variable {host : Host} {store : MemoryAuditStore} {capacity : Nat}
  {index : InsertionMap Text (List Text)}

theorem has_unindex (key id other : Text) : (unindex index key id).has other = index.has other := by
  rw [unindex]
  cases hget : index.get key with
  | none => rfl
  | some ids =>
    show (index.set key (ids.erase id)).has other = _
    rw [has_set]
    by_cases heq : key = other
    · rw [← heq, has, hget, decide_eq_true rfl]
      rfl
    · rw [decide_eq_false heq, Bool.false_or]

theorem has_evict (key : Text) : store.evict.eventsByEntity.has key = store.eventsByEntity.has key
    ∧ store.evict.eventsByActor.has key = store.eventsByActor.has key := by
  rw [evict]
  split
  · exact ⟨rfl, rfl⟩
  · exact ⟨has_unindex _ _ _, has_unindex _ _ _⟩

theorem has_room (key : Text) : store.room.eventsByEntity.has key = store.eventsByEntity.has key
    ∧ store.room.eventsByActor.has key = store.eventsByActor.has key := by
  rw [room]
  split
  · exact has_evict key
  · exact ⟨rfl, rfl⟩

theorem has_recordAll (calls : List Call) (key : Text) :
    ((store.recordAll host calls).eventsByEntity.has key = true
        ↔ store.eventsByEntity.has key = true ∨ key ∈ entities host calls)
      ∧ ((store.recordAll host calls).eventsByActor.has key = true
        ↔ store.eventsByActor.has key = true ∨ key ∈ actors host calls) := by
  induction calls generalizing store with
  | nil => simp [recordAll, entities, actors]
  | cons call rest ih =>
    have hisOk := @recordEvent_isOk host store call
    obtain ⟨hentity, hactor⟩ := @ih (store.record host call)
    show ((recordAll host (store.record host call) rest).eventsByEntity.has key
        = true ↔ _) ∧ ((recordAll host (store.record host call)
          rest).eventsByActor.has key = true ↔ _)
    rw [hentity, hactor]
    unfold entities actors
    rw [filter_cons, ← hisOk, record]
    cases hcall : store.recordEvent host call with
    | error thrown => exact ⟨.rfl, .rfl⟩
    | ok result =>
      obtain ⟨event, store'⟩ := result
      obtain ⟨-, -, hstore⟩ := recordEvent_ok hcall
      obtain ⟨-, hscope, hof⟩ := recordEvent_event hcall
      have hroom := @has_room store key
      have hentity' : store'.eventsByEntity.has key
          = (decide (call.input.scope.entityId = key) || store.eventsByEntity.has key) := by
        rw [hstore, ← hscope, ← hroom.1]
        exact has_set _ _ _ _
      have hactor' : store'.eventsByActor.has key
          = (decide (call.input.actor.id = key) || store.eventsByActor.has key) := by
        rw [hstore, ← hof, ← hroom.2]
        exact has_set _ _ _ _
      show (store'.eventsByEntity.has key = true ∨ _ ↔ _ ∨ key ∈ map _ (call :: _))
        ∧ (store'.eventsByActor.has key = true ∨ _ ↔ _ ∨ key ∈ map _ (call :: _))
      rw [hentity', hactor', map_cons, map_cons, mem_cons, mem_cons, Bool.or_eq_true,
        Bool.or_eq_true, decide_eq_true_eq, decide_eq_true_eq, or_assoc, or_assoc,
        @eq_comm _ key, @eq_comm _ key]
      exact ⟨or_left_comm, or_left_comm⟩

theorem size_eq {keys : List Text} (h : ∀ key, index.has key = true ↔ key ∈ keys) :
    index.size = keys.dedup.length := by
  have hperm : index.keys.Perm keys.dedup :=
    (perm_ext_iff_of_nodup index.nodup (List.nodup_dedup keys)).mpr fun key => by
      rw [mem_dedup, ← h, ← InsertionMap.mem_keys_iff]
      rfl
  rw [← hperm.length_eq, InsertionMap.keys, length_map]
  rfl

/-- **THE INDEXES ARE NOT BOUNDED**: they have a key for every entity and every
    actor of the history, evicted or not. -/
theorem bounded_iff (host : Host) (hcap : 1 ≤ capacity) (calls : List Call) :
    Bounded capacity (.recordAll host (.new (.ofNat capacity)) calls)
      ↔ (entities host calls).dedup.length ≤ capacity
        ∧ (actors host calls).dedup.length ≤ capacity := by
  have hkeys := @has_recordAll host (.new (.ofNat capacity)) calls
  have hnew (key : Text) : ¬ (empty : InsertionMap Text (List Text)).has key = true :=
    Bool.false_ne_true
  have hentities := size_eq fun key => (hkeys key).1.trans (or_iff_right (hnew key))
  have hactors := size_eq fun key => (hkeys key).2.trans (or_iff_right (hnew key))
  rw [← hentities, ← hactors]
  refine ⟨fun h => ⟨h.entities, h.actors⟩, fun h => ⟨?_, h.1, h.2⟩⟩
  rw [events_new host hcap calls, length_drop]
  omega

/-- Two events of one entity and one actor. -/
theorem bounded_twice :
    Bounded 1 (.recordAll sampleHost (.new 1) [creation "e1", creation "e2"]) :=
  (@bounded_iff 1 sampleHost le_rfl _).mpr (by decide +kernel)

/-- One event is retained, of two entities. -/
theorem index_outgrows : ¬ Bounded 1 (.recordAll sampleHost (.new 1) [creation "e1",
    { creation "e2" with input := { (creation "e2").input with scope := ⟨.invoice, ascii "i2"⟩ } }]) :=
  fun h => absurd h.entities (by decide +kernel)

end Size

end AuditTrail
