import Inqutum.JobStoreProofs

/-!
# The offline operation queue

Every browser tab keeps its own map of operations.  The tabs share one
stored list, which each writes as a whole and reads as a whole, and a
channel that tells the other tabs of a write.  What a tab does in one go is
one move; the moves of all tabs, the answers to the calls in flight and the
deliveries of messages come in any order.

A map leads to objects: a call holds the object it began with, while a
reload puts new ones into the map.  Stored operations are kept as
`JSON.parse` yields them.  `History` is no part of the program.
-/

namespace OperationQueue

open Jobs (Unknown)
open List Option InsertionMap

/-! ## Operations -/

inductive Status where
  | queued
  | inFlight
  | committed
  | conflict
  | discarded
  | failed
  deriving DecidableEq

/-- A version and a status; `none` is null, undefined, or no number. -/
structure EntityState where
  version : Option JsNumber
  status : Option String

structure Conflict where
  reason : String
  message : String
  expected : EntityState
  actual : Option EntityState

structure Operation where
  id : String
  type : String
  entityId : String
  payload : Unknown
  baseVersion : Option JsNumber
  baseStatus : String
  status : Status
  attempts : Nat
  createdAt : Int
  updatedAt : Int
  conflict : Option Conflict
  error : Option String
  result : Unknown

/-- What `JSON.parse(JSON.stringify(v))` makes of a member, if it has a
    text. -/
def storedValue : Unknown → Option Unknown
  | .undefined => some .undefined
  | .value image => some (.value image)
  | .omitted => some .undefined
  | .refused _ => none

/-- A number that is not finite is written as null. -/
def storedVersion : Option JsNumber → Option JsNumber
  | some (.finite q) => some (.finite q)
  | _ => none

def EntityState.stored (state : EntityState) : EntityState :=
  { state with version := storedVersion state.version }

def Conflict.stored (conflict : Conflict) : Conflict :=
  { conflict with
    expected := conflict.expected.stored
    actual := conflict.actual.map EntityState.stored }

def Operation.stored (op : Operation) : Option Operation :=
  (storedValue op.payload).bind (fun payload =>
    (storedValue op.result).map (fun result =>
      { op with
        payload := payload
        baseVersion := storedVersion op.baseVersion
        conflict := op.conflict.map Conflict.stored
        result := result }))

/-- `===` on numbers. -/
def sameVersion (a : JsNumber) (b : Option JsNumber) : Bool :=
  decide (b = some a) && decide (a ≠ .nan)

def versionText : Option JsNumber → String
  | some version => version.toText
  | none => "null"

def isTerminalStatus (status : String) : Bool :=
  decide (status = "PAID") || decide (status = "CANCELLED")
    || decide (status = "EXPIRED")

/-- The status of the entity moved from the expected one. -/
def statusMoved (op : Operation) (actual : EntityState) : Option String :=
  if op.baseStatus = "" then none
  else (JsText.nonEmpty actual.status).bind (fun status =>
    if status = op.baseStatus then none else some status)

def versionConflict (op : Operation) (actual : EntityState) :
    Option Conflict :=
  actual.version.bind (fun version =>
    if sameVersion version op.baseVersion = true then none
    else some {
      reason := "VERSION_MISMATCH"
      message := "Version conflict: client expected version "
        ++ versionText op.baseVersion ++ ", but storage truth is at version "
        ++ version.toText ++ "."
      expected := ⟨op.baseVersion, some op.baseStatus⟩
      actual := some ⟨some version, actual.status⟩ })

def evaluateConflict (op : Operation) : Option EntityState → Option Conflict
  | none => some {
      reason := "ENTITY_NOT_FOUND"
      message := "Target entity " ++ op.entityId ++ " does not exist in authoritative storage."
      expected := ⟨op.baseVersion, some op.baseStatus⟩
      actual := none }
  | some actual =>
    match (statusMoved op actual).filter (fun status =>
      isTerminalStatus status && decide (op.type ≠ "GET")) with
    | some status => some {
        reason := "TERMINAL_STATUS_CONFLICT"
        message := "Status divergence: entity transitioned to terminal state ["
          ++ status ++ "], invalidating pending mutation from ["
          ++ op.baseStatus ++ "]."
        expected := ⟨op.baseVersion, some op.baseStatus⟩
        actual := some actual }
    | none => versionConflict op actual

/-! ## One tab -/

structure Tab where
  maxRetries : JsNumber
  /-- The objects that were made in this tab. -/
  heap : List Operation
  operations : InsertionMap String Nat
  /-- The messages that were sent to this tab and did not arrive yet. -/
  pending : Nat

namespace Tab

def fresh (maxRetries : JsNumber) : Tab := ⟨maxRetries, [], .empty, 0⟩

def getOperation (tab : Tab) (id : String) : Option Operation :=
  (tab.operations.get id).bind (fun ref => tab.heap[ref]?)

def status (tab : Tab) (id : String) : Option Status :=
  (tab.getOperation id).map Operation.status

/-- `Array.from(this.operations.values())`. -/
def items (tab : Tab) : List Operation :=
  tab.operations.values.filterMap (fun ref => tab.heap[ref]?)

/-- The list that is written, unless `JSON.stringify` throws. -/
def serialized (tab : Tab) : Option (List Operation) :=
  tab.items.mapM Operation.stored

/-- A new object under its id. -/
def add (tab : Tab) (op : Operation) : Tab :=
  { tab with
    heap := tab.heap ++ [op]
    operations := tab.operations.set op.id tab.heap.length }

/-- An object is changed in place. -/
def assign (tab : Tab) (ref : Nat) (op : Operation) : Tab :=
  { tab with heap := tab.heap.set ref op }

/-- An operation in flight is queued again when it is loaded. -/
def resumed (item : Operation) : Operation :=
  if item.status = .inFlight then { item with status := .queued } else item

def load (tab : Tab) (stored : Option (List Operation)) : Tab :=
  match stored with
  | none => tab
  | some items => items.foldl (fun tab item => tab.add (resumed item))
      { tab with operations := .empty }

end Tab

/-- The argument of `enqueue`; `none` is a falsy payload. -/
structure Request where
  id : Option String
  type : String
  entityId : String
  payload : Option Unknown
  baseVersion : Option JsNumber
  baseStatus : Option String
  /-- The id that is made up if none is given. -/
  generated : String

def Request.operation (request : Request) (now : Int) : Operation where
  id := (JsText.nonEmpty request.id).getD request.generated
  type := request.type
  entityId := request.entityId
  payload := request.payload.getD (.value (.obj []))
  baseVersion := some (request.baseVersion.getD 1)
  baseStatus := request.baseStatus.getD "PENDING"
  status := .queued
  attempts := 0
  createdAt := now
  updatedAt := now
  conflict := none
  error := none
  result := .undefined

inductive ResolutionAction where
  | discard
  | retryWithLatest
  | forceApply
  | unsupported (action : String)

namespace Tab

def enqueue (tab : Tab) (request : Request) (now : Int) : Except String (Tab × Operation) :=
  if request.type = "" ∨ request.entityId = "" then
    .error "Operation must specify type and entityId"
  else .ok (tab.add (request.operation now), request.operation now)

def begun (op : Operation) (now : Int) : Operation :=
  { op with
    status := .inFlight, attempts := op.attempts + 1, updatedAt := now }

/-- `processOperation` up to its first await: `none` if it returns the
    operation as it is, else the object that is now in flight. -/
def begin (tab : Tab) (id : String) (now : Int) : Except String (Option (Tab × Nat)) :=
  match tab.operations.get id with
  | none => .error ("Operation " ++ id ++ " not found")
  | some ref =>
    match tab.heap[ref]? with
    | none => .error ("Operation " ++ id ++ " not found")
    | some op =>
      if op.status ≠ .queued ∧ op.status ≠ .failed then .ok none
      else .ok (some (tab.assign ref (begun op now), ref))

def conflicted (op : Operation) (conflict : Conflict) (now : Int) :
    Operation :=
  { op with status := .conflict, conflict := some conflict, updatedAt := now }

def succeeded (op : Operation) (result : Unknown) (now : Int) : Operation :=
  { op with status := .committed, result := result, updatedAt := now }

/-- The catch block; an error that cannot be printed leaves it by the second
    assignment. -/
def thrown (maxRetries : JsNumber) (op : Operation) (error : Option String)
    (now : Int) : Operation :=
  let status := if JsNumber.le maxRetries (.ofNat op.attempts) = true then
    Status.failed else .queued
  match error with
  | some message => { op with status := status, error := some message, updatedAt := now }
  | none => { op with status := status }

def resolution (op : Operation) (action : ResolutionAction)
    (latest : Option EntityState) (now : Int) : Except String Operation :=
  match action with
  | .discard => .ok { op with
      status := .discarded, conflict := none, updatedAt := now }
  | .retryWithLatest =>
    match latest with
    | none => .error "RETRY_WITH_LATEST requires latest authoritative state"
    | some state => .ok { op with
        baseVersion := state.version.or op.baseVersion
        baseStatus := state.status.getD op.baseStatus
        status := .queued
        conflict := none
        error := none
        updatedAt := now }
  | .forceApply => .ok { op with
      status := .queued
      conflict := none
      baseVersion := ((latest.bind EntityState.version).filter
        (fun version => decide (version ≠ 0) && decide (version ≠ .nan))).or op.baseVersion
      updatedAt := now }
  | .unsupported action => .error ("Unsupported conflict resolution action: " ++ action)

def statusText : Status → String
  | .queued => "QUEUED"
  | .inFlight => "IN_FLIGHT"
  | .committed => "COMMITTED"
  | .conflict => "CONFLICT"
  | .discarded => "DISCARDED"
  | .failed => "FAILED"

def resolveConflict (tab : Tab) (id : String) (action : ResolutionAction)
    (latest : Option EntityState) (now : Int) : Except String Tab :=
  match tab.operations.get id with
  | none => .error ("Operation " ++ id ++ " not found")
  | some ref =>
    match tab.heap[ref]? with
    | none => .error ("Operation " ++ id ++ " not found")
    | some op =>
      if op.status ≠ .conflict then
        .error ("Operation " ++ id ++ " is not in CONFLICT status "
          ++ "(current: " ++ statusText op.status ++ ")")
      else (resolution op action latest now).map (tab.assign ref)

/-- The ids that `clearCompleted` deletes. -/
def completedIds (tab : Tab) : List String :=
  tab.operations.keys.filter (fun id =>
    decide (tab.status id = some .committed)
      || decide (tab.status id = some .discarded))

def clearCompleted (tab : Tab) : Tab :=
  { tab with
    operations := tab.completedIds.foldl (fun operations id =>
      operations.delete id) tab.operations }

end Tab

/-! ## All tabs -/

/-- A call of `processOperation` that awaits an answer. -/
structure Call where
  tab : Nat
  ref : Nat
  /-- The fetcher has answered, the executor is running. -/
  executing : Bool

structure History where
  /-- The ids that `enqueue` returned. -/
  enqueued : List String
  /-- The id of each executor that resolved. -/
  completed : List String
  /-- The ids that were cleared and not enqueued again. -/
  cleared : List String

structure Browser where
  storage : Option (List Operation)
  /-- Whether `localStorage.setItem` throws in the turns to come. -/
  refuses : Nat → Bool
  tabs : Nat → Option Tab
  calls : Nat → Option Call
  history : History

inductive Move where
  /-- A tab constructs its queue. -/
  | openTab (tab : Nat) (maxRetries : JsNumber)
  | enqueue (tab : Nat) (request : Request) (now : Int)
  | begin (call tab : Nat) (id : String) (now : Int)
  | fetched (call : Nat) (currentState : Option EntityState) (now : Int)
  | resolved (call : Nat) (result : Unknown) (now : Int)
  /-- The fetcher or the executor throws. -/
  | threw (call : Nat) (error : Option String) (now : Int)
  | deliver (tab : Nat)
  | resolveConflict (tab : Nat) (id : String) (action : ResolutionAction)
      (latest : Option EntityState) (now : Int)
  | clearCompleted (tab : Nat)

/-- What a move comes to: how it changes one tab, and if the tab then writes
    its list. -/
structure Turn where
  tab : Nat
  before : Tab
  after : Tab
  writes : Bool
  refused : Bool
  calls : Nat → Option Call
  history : History

/-- The list that a turn puts into storage: none if nothing is written, or
    `JSON.stringify` or `setItem` throws, which `persistToStorage` ignores. -/
def Turn.written (t : Turn) : Option (List Operation) :=
  if (t.writes && !t.refused) = true then t.after.serialized else none

namespace Browser

def empty (refuses : Nat → Bool := fun _ => false) : Browser where
  storage := none
  refuses := refuses
  tabs := fun _ => none
  calls := fun _ => none
  history := ⟨[], [], []⟩

/-- A call in flight, with its tab and the object it holds. -/
def held (b : Browser) (k : Nat) : Option (Call × Tab × Operation) :=
  (b.calls k).bind (fun call => (b.tabs call.tab).bind (fun tab =>
    (tab.heap[call.ref]?).map (fun op => (call, tab, op))))

/-- A call goes on, or ends. -/
def putCall (b : Browser) (k : Nat) (call : Option Call) : Nat → Option Call :=
  fun k' => if k' = k then call else b.calls k'

/-- What a call does with the object it holds. -/
def answer (b : Browser) (k : Nat) (held : Call × Tab × Operation)
    (op : Operation) (writes : Bool) (history : History) : Turn where
  tab := held.1.tab
  before := held.2.1
  after := held.2.1.assign held.1.ref op
  writes := writes
  refused := b.refuses 0
  calls := b.putCall k none
  history := history

/-- What a method of a tab does. -/
def local_ (b : Browser) (i : Nat) (before after : Tab) (writes : Bool)
    (history : History) : Turn where
  tab := i
  before := before
  after := after
  writes := writes
  refused := b.refuses 0
  calls := b.calls
  history := history

def turn (b : Browser) : Move → Option Turn
  | .openTab i maxRetries =>
    match b.tabs i with
    | some _ => none
    | none =>
      let tab := (Tab.fresh maxRetries).load b.storage
      some (b.local_ i tab tab b.storage.isSome b.history)
  | .enqueue i request now =>
    (b.tabs i).bind (fun tab =>
      match tab.enqueue request now with
      | .error _ => none
      | .ok (after, op) => some (b.local_ i tab after true
          { b.history with
            enqueued := b.history.enqueued ++ [op.id]
            cleared := b.history.cleared.filter (fun id => decide (id ≠ op.id)) }))
  | .begin k i id now =>
    if (b.calls k).isSome then none
    else (b.tabs i).bind (fun tab =>
      match tab.begin id now with
      | .ok (some (after, ref)) => some
          { b.local_ i tab after true b.history with
            calls := b.putCall k (some ⟨i, ref, false⟩) }
      | _ => none)
  | .fetched k currentState now =>
    (b.held k).bind (fun held =>
      if held.1.executing = true then none
      else match evaluateConflict held.2.2 currentState with
      | some conflict => some (b.answer k held
          (Tab.conflicted held.2.2 conflict now) true b.history)
      | none => some
          { b.answer k held held.2.2 false b.history with
            calls := b.putCall k (some { held.1 with executing := true }) })
  | .resolved k result now =>
    (b.held k).bind (fun held =>
      if held.1.executing = true then
        some (b.answer k held (Tab.succeeded held.2.2 result now) true
          { b.history with
            completed := b.history.completed ++ [held.2.2.id] })
      else none)
  | .threw k error now =>
    (b.held k).map (fun held => b.answer k held
      (Tab.thrown held.2.1.maxRetries held.2.2 error now) error.isSome
      b.history)
  | .deliver i =>
    (b.tabs i).bind (fun tab =>
      if tab.pending = 0 then none
      else some (b.local_ i tab
        ({ tab with pending := tab.pending - 1 }.load b.storage) false
        b.history))
  | .resolveConflict i id action latest now =>
    (b.tabs i).bind (fun tab =>
      match tab.resolveConflict id action latest now with
      | .error _ => none
      | .ok after => some (b.local_ i tab after true b.history))
  | .clearCompleted i =>
    (b.tabs i).map (fun tab => b.local_ i tab tab.clearCompleted (decide (tab.completedIds ≠ []))
      { b.history with cleared := b.history.cleared ++ tab.completedIds })

/-- A tab changes; if its list was written, the others are told. -/
def take (b : Browser) (t : Turn) : Browser where
  storage := t.written.or b.storage
  refuses n := b.refuses (n + 1)
  tabs j :=
    if j = t.tab then some t.after
    else if t.written.isSome then
      (b.tabs j).map (fun tab => { tab with pending := tab.pending + 1 })
    else b.tabs j
  calls := t.calls
  history := t.history

def step (b : Browser) (move : Move) : Browser :=
  match b.turn move with
  | none => b
  | some t => b.take t

end Browser

/-! ## What a map leads to -/

/-- Every key leads to an object with that id. -/
def Tab.Wf (tab : Tab) : Prop :=
  ∀ id ref, tab.operations.get id = some ref → ∃ op, tab.heap[ref]? = some op ∧ op.id = id

namespace Tab

variable {tab : Tab} {op op' : Operation} {id : String} {ref : Nat}

theorem Wf.getOperation (h : tab.Wf) {op : Operation}
    (hop : tab.getOperation id = some op) : op.id = id := by
  obtain ⟨ref, hget, hheap⟩ := bind_eq_some_iff.mp hop
  obtain ⟨op', hop', hid⟩ := h id ref hget
  rw [some.inj (hheap.symm.trans hop'), hid]

theorem wf_fresh (maxRetries : JsNumber) : (fresh maxRetries).Wf :=
  nofun

theorem Wf.add (h : tab.Wf) (op : Operation) : (tab.add op).Wf := by
  intro id ref hget
  rw [show (tab.add op).operations = tab.operations.set op.id tab.heap.length
    from rfl, get_set] at hget
  show ∃ op', (tab.heap ++ [op])[ref]? = some op' ∧ op'.id = id
  split at hget
  · rename_i hid
    cases hget
    exact ⟨op, List.getElem?_concat_length, hid⟩
  obtain ⟨op', hop', hid⟩ := h id ref hget
  obtain ⟨hlt, -⟩ := List.getElem?_eq_some_iff.mp hop'
  exact ⟨op', by rw [List.getElem?_append_left hlt, hop'], hid⟩

theorem Wf.getOperation_add (h : tab.Wf) (op : Operation) (id : String) :
    (tab.add op).getOperation id = if op.id = id then some op else tab.getOperation id := by
  rw [Tab.getOperation, show (tab.add op).operations
    = tab.operations.set op.id tab.heap.length from rfl, get_set]
  by_cases hid : op.id = id
  · rw [if_pos hid, if_pos hid, bind_some]
    exact getElem?_concat_length
  rw [if_neg hid, if_neg hid, Tab.getOperation]
  cases hget : tab.operations.get id with
  | none => rfl
  | some ref =>
    obtain ⟨op', hop', -⟩ := h id ref hget
    obtain ⟨hlt, -⟩ := List.getElem?_eq_some_iff.mp hop'
    exact List.getElem?_append_left hlt

theorem Wf.assign (h : tab.Wf) (hop : tab.heap[ref]? = some op) (hid : op'.id = op.id) :
    (tab.assign ref op').Wf := by
  intro id ref' hget
  obtain ⟨old, hold, holdid⟩ := h id ref' hget
  show ∃ x, (tab.heap.set ref op')[ref']? = some x ∧ x.id = id
  by_cases href : ref = ref'
  · rw [← href] at hold ⊢
    obtain ⟨hlt, -⟩ := List.getElem?_eq_some_iff.mp hop
    refine ⟨op', List.getElem?_set_self hlt, ?_⟩
    rw [hid, some.inj (hop.symm.trans hold), holdid]
  · exact ⟨old, by rw [getElem?_set_ne href, hold], holdid⟩

theorem getOperation_assign (hop : tab.heap[ref]? = some op) (id : String) :
    (tab.assign ref op').getOperation id = if tab.operations.get id = some ref then some op'
        else tab.getOperation id := by
  rw [Tab.getOperation, Tab.getOperation,
    show (tab.assign ref op').operations = tab.operations from rfl]
  cases hget : tab.operations.get id with
  | none => rfl
  | some ref' =>
    show (tab.heap.set ref op')[ref']? = if some ref' = some ref then some op' else tab.heap[ref']?
    by_cases href : ref' = ref
    · rw [if_pos (congrArg some href), href]
      obtain ⟨hlt, -⟩ := List.getElem?_eq_some_iff.mp hop
      exact List.getElem?_set_self hlt
    · rw [if_neg (fun heq => href (some.inj heq)), List.getElem?_set_ne (Ne.symm href)]

theorem mem_completedIds : id ∈ tab.completedIds ↔ tab.operations.has id = true
      ∧ (tab.status id = some .committed ∨ tab.status id = some .discarded) := by
  rw [completedIds, mem_filter, mem_keys_iff, Bool.or_eq_true, decide_eq_true_eq, decide_eq_true_eq]

theorem get_clearCompleted (id : String) : tab.clearCompleted.operations.get id
      = if id ∈ tab.completedIds then none else tab.operations.get id :=
  get_deletes tab.completedIds tab.operations id

theorem getOperation_clearCompleted (id : String) : tab.clearCompleted.getOperation id
      = if id ∈ tab.completedIds then none else tab.getOperation id := by
  rw [Tab.getOperation, get_clearCompleted]
  split
  · rfl
  · rfl

theorem Wf.clearCompleted (h : tab.Wf) : tab.clearCompleted.Wf := by
  intro id ref hget
  rw [get_clearCompleted] at hget
  split at hget
  · cases hget
  · exact h id ref hget

/-! ### Loading -/

@[simp] theorem resumed_id (item : Operation) : (resumed item).id = item.id := by
  rw [resumed]
  split
  · rfl
  · rfl

theorem resumed_status (item : Operation) : (resumed item).status
      = if item.status = .inFlight then .queued else item.status := by
  rw [resumed]
  split
  · rfl
  · rfl

private theorem adds_spec (items : List Operation) (h : tab.Wf) :
    (items.foldl (fun tab item => tab.add (resumed item)) tab).Wf := by
  induction items generalizing tab with
  | nil => exact h
  | cons item rest ih => exact ih (h.add _)

private theorem getOperation_adds {items : List Operation}
    (hnd : (items.map Operation.id).Nodup) (h : tab.Wf) (id : String) :
    (items.foldl (fun tab item => tab.add (resumed item)) tab).getOperation id
      = ((items.find? (fun item => decide (item.id = id))).map resumed).or
        (tab.getOperation id) := by
  induction items generalizing tab with
  | nil => rfl
  | cons item rest ih =>
    rw [map_cons, nodup_cons] at hnd
    rw [foldl_cons, ih hnd.2 (h.add _), h.getOperation_add, resumed_id]
    by_cases hid : item.id = id
    · have hnone : rest.find? (fun item => decide (item.id = id)) = none := by
        rw [find?_eq_none]
        intro other hother heq
        refine hnd.1 (mem_map.mpr ⟨other, hother, ?_⟩)
        rw [of_decide_eq_true heq, hid]
      have hfind : (item :: rest).find? (fun item => decide (item.id = id))
          = some item := find?_cons_of_pos (decide_eq_true hid)
      rw [hfind, hnone, if_pos hid]
      rfl
    · have hfind : (item :: rest).find? (fun item => decide (item.id = id))
          = rest.find? (fun item => decide (item.id = id)) :=
        find?_cons_of_neg (fun hd => hid (of_decide_eq_true hd))
      rw [hfind, if_neg hid]

theorem Wf.load (h : tab.Wf) (stored : Option (List Operation)) : (tab.load stored).Wf := by
  cases stored with
  | none => exact h
  | some items => exact adds_spec items nofun

/-- **A RELOAD**: the map is what storage holds, with what was in flight
    queued again. -/
theorem getOperation_load {items : List Operation}
    (hnd : (items.map Operation.id).Nodup) (tab : Tab) (id : String) :
    (tab.load (some items)).getOperation id
      = (items.find? (fun item => decide (item.id = id))).map resumed := by
  have hempty : Tab.Wf { tab with operations := .empty } :=
    nofun
  rw [Tab.load, getOperation_adds hnd hempty]
  exact or_none

/-! ### Writing -/

theorem stored_id {op item : Operation} (h : op.stored = some item) :
    item.id = op.id ∧ item.status = op.status := by
  obtain ⟨payload, -, h⟩ := bind_eq_some_iff.mp h
  obtain ⟨result, -, rfl⟩ := map_eq_some_iff.mp h
  exact ⟨rfl, rfl⟩

theorem Wf.items_ids (h : tab.Wf) : tab.items.map Operation.id = tab.operations.keys := by
  have hentries : ∀ e ∈ tab.operations.entries, ∃ op, tab.heap[e.2]? = some op ∧ op.id = e.1 := by
    rintro ⟨id, ref⟩ hmem
    exact h id ref ((tab.operations.mem_entries_iff id ref).mp hmem)
  rw [items, values, InsertionMap.keys, filterMap_map]
  generalize tab.operations.entries = entries at hentries
  induction entries with
  | nil => rfl
  | cons e rest ih =>
    obtain ⟨op, hop, hid⟩ := hentries e (.head _)
    have hrest := ih (fun e' he' => hentries e' (.tail _ he'))
    have hhead : ((fun ref => tab.heap[ref]?) ∘ Prod.snd) e = some op := hop
    rw [filterMap_cons_some hhead, map_cons, map_cons, hid, hrest]

theorem Wf.mem_items (h : tab.Wf) {op : Operation} :
    op ∈ tab.items ↔ tab.getOperation op.id = some op := by
  rw [items, mem_filterMap]
  constructor
  · rintro ⟨ref, hmem, hop⟩
    obtain ⟨id, hget⟩ := (tab.operations.mem_values_iff ref).mp hmem
    obtain ⟨op', hop', hid⟩ := h id ref hget
    rw [show op.id = id by rw [← hid, some.inj (hop.symm.trans hop')],
      Tab.getOperation, hget, bind_some, hop]
  intro hget
  obtain ⟨ref, href, hop⟩ := bind_eq_some_iff.mp hget
  exact ⟨ref, (tab.operations.mem_values_iff ref).mpr ⟨_, href⟩, hop⟩

variable {items : List Operation}

theorem map_stored (h : tab.serialized = some items) :
    tab.items.map Operation.stored = items.map some := by
  rw [serialized] at h
  generalize tab.items = ops at h
  induction ops generalizing items with
  | nil =>
    rw [mapM_nil] at h
    cases h
    rfl
  | cons op rest ih =>
    rw [mapM_cons] at h
    obtain ⟨item, hitem, h⟩ := bind_eq_some_iff.mp h
    obtain ⟨items', hrest, h⟩ := bind_eq_some_iff.mp h
    rw [← some.inj h, map_cons, map_cons, hitem, ih hrest]

private theorem ids_of_stored {ops items : List Operation}
    (h : ops.map Operation.stored = items.map some) :
    items.map Operation.id = ops.map Operation.id := by
  induction ops generalizing items with
  | nil => rw [map_eq_nil_iff.mp h.symm]
  | cons op rest ih =>
    cases items with
    | nil => cases h
    | cons item items =>
      obtain ⟨hhead, hrest⟩ := cons.inj h
      rw [map_cons, map_cons, (stored_id hhead).1, ih hrest]

theorem Wf.serialized_ids (h : tab.Wf) (hser : tab.serialized = some items) :
    items.map Operation.id = tab.operations.keys := by
  rw [← h.items_ids]
  exact ids_of_stored (map_stored hser)

/-- **WHAT IS WRITTEN**: each operation of the map with its status. -/
theorem Wf.mem_serialized (h : tab.Wf)
    (hser : tab.serialized = some items) (id : String) (status : Status) :
    (∃ item ∈ items, item.id = id ∧ item.status = status) ↔ tab.status id = some status := by
  have hmap := map_stored hser
  constructor
  · rintro ⟨item, hitem, rfl, rfl⟩
    have hmem : some item ∈ tab.items.map Operation.stored := by
      rw [hmap]
      exact mem_map_of_mem hitem
    obtain ⟨op, hop, hstored⟩ := mem_map.mp hmem
    obtain ⟨hid, hstatus⟩ := stored_id hstored
    rw [Tab.status, hid, h.mem_items.mp hop, hstatus]
    rfl
  · intro hstatus
    obtain ⟨op, hop, rfl⟩ := map_eq_some_iff.mp hstatus
    have hid := h.getOperation hop
    rw [← hid] at hop
    have hmem : op.stored ∈ items.map some := by
      rw [← hmap]
      exact mem_map_of_mem (h.mem_items.mpr hop)
    obtain ⟨item, hitem, hstored⟩ := mem_map.mp hmem
    obtain ⟨hiid, histatus⟩ := stored_id hstored.symm
    exact ⟨item, hitem, hiid.trans hid, histatus⟩

end Tab

open Tab

/-! ## What a move does -/

/-- The turns of each move, with what the tab checks before it. -/
inductive Turns (b : Browser) : Move → Turn → Prop where
  | openTab {i : Nat} {maxRetries : JsNumber} (hnew : b.tabs i = none) :
      Turns b (.openTab i maxRetries) (b.local_ i ((fresh maxRetries).load b.storage)
          ((fresh maxRetries).load b.storage) b.storage.isSome b.history)
  | enqueue {i : Nat} {tab : Tab} {request : Request} {now : Int} (htab : b.tabs i = some tab) :
      Turns b (.enqueue i request now) (b.local_ i tab (tab.add (request.operation now)) true
          { b.history with
            enqueued := b.history.enqueued ++ [(request.operation now).id]
            cleared := b.history.cleared.filter (fun id =>
              decide (id ≠ (request.operation now).id)) })
  | begin {k i ref : Nat} {tab : Tab} {id : String} {now : Int}
      {op : Operation} (hfree : b.calls k = none) (htab : b.tabs i = some tab)
      (hget : tab.operations.get id = some ref)
      (hop : tab.heap[ref]? = some op)
      (hstatus : op.status = .queued ∨ op.status = .failed) :
      Turns b (.begin k i id now)
        { b.local_ i tab (tab.assign ref (begun op now)) true b.history with
          calls := b.putCall k (some ⟨i, ref, false⟩) }
  | conflicted {k : Nat} {state : Option EntityState} {now : Int}
      {held : Call × Tab × Operation} {conflict : Conflict}
      (hheld : b.held k = some held) :
      Turns b (.fetched k state now) (b.answer k held
        (conflicted held.2.2 conflict now) true b.history)
  | executing {k : Nat} {state : Option EntityState} {now : Int}
      {held : Call × Tab × Operation} (hheld : b.held k = some held) :
      Turns b (.fetched k state now)
        { b.answer k held held.2.2 false b.history with
          calls := b.putCall k (some { held.1 with executing := true }) }
  | resolved {k : Nat} {result : Unknown} {now : Int}
      {held : Call × Tab × Operation} (hheld : b.held k = some held) :
      Turns b (.resolved k result now) (b.answer k held (succeeded held.2.2 result now) true
        { b.history with
          completed := b.history.completed ++ [held.2.2.id] })
  | threw {k : Nat} {error : Option String} {now : Int}
      {held : Call × Tab × Operation} (hheld : b.held k = some held) :
      Turns b (.threw k error now) (b.answer k held
        (thrown held.2.1.maxRetries held.2.2 error now) error.isSome
        b.history)
  | deliver {i : Nat} {tab : Tab} (htab : b.tabs i = some tab) :
      Turns b (.deliver i) (b.local_ i tab
        ({ tab with pending := tab.pending - 1 }.load b.storage) false
        b.history)
  | resolveConflict {i ref : Nat} {tab : Tab} {id : String}
      {action : ResolutionAction} {latest : Option EntityState} {now : Int}
      {op op' : Operation} (htab : b.tabs i = some tab)
      (hget : tab.operations.get id = some ref)
      (hop : tab.heap[ref]? = some op) (hstatus : op.status = .conflict)
      (hid : op'.id = op.id)
      (hnew : op'.status = .discarded ∨ op'.status = .queued) :
      Turns b (.resolveConflict i id action latest now)
        (b.local_ i tab (tab.assign ref op') true b.history)
  | clearCompleted {i : Nat} {tab : Tab} (htab : b.tabs i = some tab) : Turns b (.clearCompleted i)
        (b.local_ i tab tab.clearCompleted (decide (tab.completedIds ≠ []))
          { b.history with
            cleared := b.history.cleared ++ tab.completedIds })

variable {latest : Option EntityState} {action : ResolutionAction} {now : Int} {id : String}

theorem begin_cases {tab after : Tab} {ref : Nat} (h : tab.begin id now = .ok (some (after, ref))) :
    ∃ op, tab.operations.get id = some ref ∧ tab.heap[ref]? = some op
      ∧ (op.status = .queued ∨ op.status = .failed)
      ∧ after = tab.assign ref (begun op now) := by
  rw [begin] at h
  split at h
  · cases h
  rename_i r hget
  split at h
  · cases h
  rename_i op hop
  split at h
  · cases h
  rename_i hstatus
  obtain ⟨rfl, rfl⟩ := Prod.mk.inj (some.inj (Except.ok.inj h))
  refine ⟨op, hget, hop, ?_, rfl⟩
  by_contra hno
  exact hstatus (not_or.mp hno)

theorem resolution_cases {op op' : Operation} (h : resolution op action latest now = .ok op') :
    op'.id = op.id ∧ (op'.status = .discarded ∨ op'.status = .queued) := by
  cases action with
  | discard =>
    cases h
    exact ⟨rfl, .inl rfl⟩
  | retryWithLatest =>
    cases latest with
    | none => cases h
    | some state =>
      cases h
      exact ⟨rfl, .inr rfl⟩
  | forceApply =>
    cases h
    exact ⟨rfl, .inr rfl⟩
  | unsupported action => cases h

theorem resolveConflict_cases {tab after : Tab}
    (h : tab.resolveConflict id action latest now = .ok after) :
    ∃ ref op op', tab.operations.get id = some ref
      ∧ tab.heap[ref]? = some op ∧ op.status = .conflict ∧ op'.id = op.id
      ∧ (op'.status = .discarded ∨ op'.status = .queued) ∧ after = tab.assign ref op' := by
  rw [resolveConflict] at h
  split at h
  · cases h
  rename_i ref hget
  split at h
  · cases h
  rename_i op hop
  split at h
  · cases h
  rename_i hstatus
  cases hres : resolution op action latest now with
  | error message =>
    rw [hres] at h
    cases h
  | ok op' =>
    rw [hres] at h
    obtain ⟨hid, hnew⟩ := resolution_cases hres
    exact ⟨ref, op, op', hget, hop, not_not.mp hstatus, hid, hnew, (Except.ok.inj h).symm⟩

/-- **A TURN BY ITS MOVE**. -/
theorem turns_of_turn {b : Browser} {move : Move} {t : Turn}
    (h : b.turn move = some t) : Turns b move t := by
  cases move with
  | openTab i maxRetries =>
    rw [Browser.turn] at h
    split at h
    · cases h
    rename_i hnew
    cases h
    exact .openTab hnew
  | enqueue i request now =>
    obtain ⟨tab, htab, h⟩ := bind_eq_some_iff.mp h
    rw [enqueue] at h
    split at h
    · cases h
    rename_i heq
    split at heq
    · cases heq
    cases heq
    cases h
    exact .enqueue htab
  | begin k i id now =>
    rw [Browser.turn] at h
    split at h
    · cases h
    rename_i hfree
    obtain ⟨tab, htab, h⟩ := bind_eq_some_iff.mp h
    split at h
    · rename_i after ref hbegin
      obtain ⟨op, hget, hop, hstatus, rfl⟩ := begin_cases hbegin
      cases h
      exact .begin (not_isSome_iff_eq_none.mp hfree) htab hget hop hstatus
    · cases h
  | fetched k state now =>
    obtain ⟨held, hheld, h⟩ := bind_eq_some_iff.mp h
    split at h
    · cases h
    split at h
    · cases h
      exact .conflicted hheld
    cases h
    exact .executing hheld
  | resolved k result now =>
    obtain ⟨held, hheld, h⟩ := bind_eq_some_iff.mp h
    split at h
    · cases h
      exact .resolved hheld
    · cases h
  | threw k error now =>
    obtain ⟨held, hheld, rfl⟩ := map_eq_some_iff.mp h
    exact .threw hheld
  | deliver i =>
    obtain ⟨tab, htab, h⟩ := bind_eq_some_iff.mp h
    split at h
    · cases h
    cases h
    exact .deliver htab
  | resolveConflict i id action latest now =>
    obtain ⟨tab, htab, h⟩ := bind_eq_some_iff.mp h
    split at h
    · cases h
    rename_i after hres
    obtain ⟨ref, op, op', hget, hop, hstatus, hid, hnew, rfl⟩ := resolveConflict_cases hres
    cases h
    exact .resolveConflict htab hget hop hstatus hid hnew
  | clearCompleted i =>
    obtain ⟨tab, htab, rfl⟩ := map_eq_some_iff.mp h
    exact .clearCompleted htab

/-! ## Ids -/

theorem held_eq_some {b : Browser} {k : Nat} {held : Call × Tab × Operation} :
    b.held k = some held ↔ b.calls k = some held.1 ∧ b.tabs held.1.tab = some held.2.1
      ∧ held.2.1.heap[held.1.ref]? = some held.2.2 := by
  obtain ⟨call, tab, op⟩ := held
  rw [Browser.held, bind_eq_some_iff]
  constructor
  · rintro ⟨call', hcall, h⟩
    obtain ⟨tab', htab, h⟩ := bind_eq_some_iff.mp h
    obtain ⟨op', hop, heq⟩ := map_eq_some_iff.mp h
    obtain ⟨rfl, hrest⟩ := Prod.mk.inj heq
    cases hrest
    exact ⟨hcall, htab, hop⟩
  · rintro ⟨hcall, htab, hop⟩
    refine ⟨call, hcall, bind_eq_some_iff.mpr ⟨tab, htab, ?_⟩⟩
    exact map_eq_some_iff.mpr ⟨op, hop, rfl⟩

/-- Keys lead to their operations, and every id was given out by `enqueue`. -/
structure Sound (b : Browser) : Prop where
  wf : ∀ i tab, b.tabs i = some tab → tab.Wf
  objects : ∀ i tab, b.tabs i = some tab → ∀ op ∈ tab.heap, op.id ∈ b.history.enqueued
  nodup : ∀ items, b.storage = some items → (items.map Operation.id).Nodup
  listed : ∀ items, b.storage = some items → ∀ item ∈ items, item.id ∈ b.history.enqueued

theorem sound_empty (refuses : Nat → Bool) : Sound (.empty refuses) where
  wf := nofun
  objects := nofun
  nodup := nofun
  listed := nofun

theorem mem_heap_load {tab : Tab} {stored : Option (List Operation)}
    {op : Operation} (h : op ∈ (tab.load stored).heap) :
    op ∈ tab.heap ∨ ∃ items, stored = some items ∧ ∃ item ∈ items, op.id = item.id := by
  cases stored with
  | none => exact .inl h
  | some items =>
    have hadds : ∀ (items : List Operation) (tab : Tab),
        op ∈ (items.foldl (fun tab item => tab.add (resumed item))
          tab).heap → op ∈ tab.heap ∨ ∃ item ∈ items, op.id = item.id := by
      intro items
      induction items with
      | nil => intro tab h; exact .inl h
      | cons item rest ih =>
        intro tab h
        rcases ih (tab.add (resumed item)) h with hadd | hrest
        · rcases mem_append.mp hadd with hold | hnew
          · exact .inl hold
          refine .inr ⟨item, (.head _), ?_⟩
          rw [mem_singleton.mp hnew, resumed_id]
        obtain ⟨other, hother, hid⟩ := hrest
        exact .inr ⟨other, .tail _ hother, hid⟩
    rcases hadds items _ h with hold | hnew
    · exact .inl hold
    · exact .inr ⟨items, rfl, hnew⟩

theorem thrown_id (maxRetries : JsNumber) (op : Operation) (error : Option String) (now : Int) :
    (thrown maxRetries op error now).id = op.id := by
  cases error with
  | none => rfl
  | some message => rfl

section Sound

variable {b : Browser} {move : Move} {t : Turn} {items : List Operation} {tab : Tab}

theorem Sound.load (h : Sound b) (htab : ∀ op ∈ tab.heap, op.id ∈ b.history.enqueued) :
    ∀ op ∈ (tab.load b.storage).heap, op.id ∈ b.history.enqueued := by
  intro op hop
  rcases mem_heap_load hop with hold | ⟨items, hstored, item, hitem, hid⟩
  · exact htab op hold
  rw [hid]
  exact h.listed items hstored item hitem

theorem Sound.assign (h : Sound b) {i ref : Nat} (htab : b.tabs i = some tab) {op : Operation}
    (hop : tab.heap[ref]? = some op) (op' : Operation) (hid : op'.id = op.id) :
    (tab.assign ref op').Wf ∧ ∀ x ∈ (tab.assign ref op').heap, x.id ∈ b.history.enqueued := by
  refine ⟨(h.wf i tab htab).assign hop hid, ?_⟩
  intro x hx
  rcases mem_or_eq_of_mem_set hx with hold | rfl
  · exact h.objects i tab htab x hold
  rw [hid]
  exact h.objects i tab htab op (mem_of_getElem? hop)

theorem Turns.sound (hs : Sound b) (h : Turns b move t) : t.before.Wf ∧ t.after.Wf
      ∧ (∀ op ∈ t.after.heap, op.id ∈ t.history.enqueued)
      ∧ ∀ id ∈ b.history.enqueued, id ∈ t.history.enqueued := by
  cases h with
  | @openTab i maxRetries hnew =>
    have hwf := (wf_fresh maxRetries).load b.storage
    exact ⟨hwf, hwf, hs.load (fun _ hop => nomatch hop), fun _ hid => hid⟩
  | @enqueue i tab request now htab =>
    have hwf := hs.wf _ _ htab
    refine ⟨hwf, hwf.add _, ?_, fun _ => mem_append_left _⟩
    intro op hop
    rcases mem_append.mp hop with hold | hnew
    · exact mem_append_left _ (hs.objects _ _ htab op hold)
    rw [mem_singleton.mp hnew]
    exact mem_append_right _ (mem_singleton.mpr rfl)
  | @begin k i ref tab id now op hfree htab hget hop hstatus =>
    obtain ⟨hwf, hids⟩ := hs.assign htab hop (begun op now) rfl
    exact ⟨hs.wf _ _ htab, hwf, hids, fun _ hid => hid⟩
  | @conflicted k state now held conflict hheld =>
    obtain ⟨-, htab, hop⟩ := held_eq_some.mp hheld
    obtain ⟨hwf, hids⟩ := hs.assign htab hop (Tab.conflicted held.2.2 conflict now) rfl
    exact ⟨hs.wf _ _ htab, hwf, hids, fun _ hid => hid⟩
  | @executing k state now held hheld =>
    obtain ⟨-, htab, hop⟩ := held_eq_some.mp hheld
    obtain ⟨hwf, hids⟩ := hs.assign htab hop held.2.2 rfl
    exact ⟨hs.wf _ _ htab, hwf, hids, fun _ hid => hid⟩
  | @resolved k result now held hheld =>
    obtain ⟨-, htab, hop⟩ := held_eq_some.mp hheld
    obtain ⟨hwf, hids⟩ := hs.assign htab hop (succeeded held.2.2 result now) rfl
    exact ⟨hs.wf _ _ htab, hwf, hids, fun _ hid => hid⟩
  | @threw k error now held hheld =>
    obtain ⟨-, htab, hop⟩ := held_eq_some.mp hheld
    obtain ⟨hwf, hids⟩ := hs.assign htab hop _ (thrown_id held.2.1.maxRetries held.2.2 error now)
    exact ⟨hs.wf _ _ htab, hwf, hids, fun _ hid => hid⟩
  | @deliver i tab htab =>
    have hwf : tab.Wf := hs.wf _ _ htab
    have hread : Wf { tab with pending := tab.pending - 1 } := hwf
    have hobjects := hs.objects _ _ htab
    exact ⟨hwf, hread.load _, hs.load hobjects, fun _ hid => hid⟩
  | resolveConflict htab hget hop hstatus hid hnew =>
    obtain ⟨hwf, hids⟩ := hs.assign htab hop _ hid
    exact ⟨hs.wf _ _ htab, hwf, hids, fun _ hid => hid⟩
  | clearCompleted htab =>
    have hwf := hs.wf _ _ htab
    have hobjects := hs.objects _ _ htab
    exact ⟨hwf, hwf.clearCompleted, hobjects, fun _ hid => hid⟩

theorem written_ids (h : t.after.Wf) (hw : t.written = some items) :
    items.map Operation.id = t.after.operations.keys := by
  rw [Turn.written] at hw
  split at hw
  · exact h.serialized_ids hw
  · cases hw

theorem written_serialized (hw : t.written = some items) :
    t.writes = true ∧ t.after.serialized = some items := by
  rw [Turn.written] at hw
  split at hw
  · rename_i hwrites
    exact ⟨(Bool.and_eq_true_iff.mp hwrites).1, hw⟩
  · cases hw

theorem storage_take : (b.take t).storage = t.written.or b.storage := rfl

theorem tabs_take {i : Nat} (h : (b.take t).tabs i = some tab) :
    (i = t.tab ∧ tab = t.after) ∨ ∃ old, b.tabs i = some old
      ∧ tab.heap = old.heap ∧ tab.operations = old.operations := by
  rw [Browser.take] at h
  dsimp only at h
  split at h
  · rename_i hi
    exact .inl ⟨hi, (some.inj h).symm⟩
  split at h
  · obtain ⟨old, hold, rfl⟩ := map_eq_some_iff.mp h
    exact .inr ⟨old, hold, rfl, rfl⟩
  · exact .inr ⟨tab, h, rfl, rfl⟩

theorem Sound.take (hs : Sound b) (h : Turns b move t) : Sound (b.take t) := by
  obtain ⟨-, hwf, hobjects, hmono⟩ := h.sound hs
  have hkeys : ∀ id ∈ t.after.operations.keys, id ∈ t.history.enqueued := by
    intro id hid
    obtain ⟨ref, hget⟩ := (has_iff _ _).mp ((mem_keys_iff _ _).mp hid)
    obtain ⟨op, hop, rfl⟩ := hwf id ref hget
    exact hobjects op (mem_of_getElem? hop)
  refine ⟨?_, ?_, ?_, ?_⟩
  · intro i tab htab
    rcases tabs_take htab with ⟨-, rfl⟩ | ⟨old, hold, hheap, hops⟩
    · exact hwf
    intro id ref hget
    rw [hops] at hget
    rw [hheap]
    exact hs.wf i old hold id ref hget
  · intro i tab htab op hop
    rcases tabs_take htab with ⟨-, rfl⟩ | ⟨old, hold, hheap, hops⟩
    · exact hobjects op hop
    rw [hheap] at hop
    exact hmono _ (hs.objects i old hold op hop)
  · intro items hitems
    rw [storage_take] at hitems
    rcases or_eq_some_iff.mp hitems with hw | ⟨-, hold⟩
    · rw [written_ids hwf hw]
      exact t.after.operations.nodup
    · exact hs.nodup items hold
  · intro items hitems item hitem
    rw [storage_take] at hitems
    rcases or_eq_some_iff.mp hitems with hw | ⟨-, hold⟩
    · refine hkeys item.id ?_
      rw [← written_ids hwf hw]
      exact mem_map_of_mem hitem
    · exact hmono _ (hs.listed items hold item hitem)

end Sound

/-- **IDS ARE KEPT**: a move keeps the keys, the objects and the stored list
    in step. -/
theorem Sound.step {b : Browser} (h : Sound b) (move : Move) : Sound (b.step move) := by
  rw [Browser.step]
  split
  · exact h
  rename_i t ht
  exact h.take (turns_of_turn ht)

end OperationQueue
