import Inqutum.RepairTablesProofs

/-!
# The resumable repair job

A job works through a list of phases, page by page, and saves a checkpoint
after every page: the phase, the cursor in it, the counts and the log.
The loop finds its place by looking the name of the phase up in the list,
so it comes to the end of the list exactly if no name occurs twice and
each is the name of a phase.

The loop is `while (true)`: `loop` has a fuel argument, and a job ends if
some fuel is enough.  `matched` and `visits` are kept for the statements
only: the rows that matched as their phase started, and the rows that were
scanned, with what came of each.
-/

namespace Repair

open List Nat RepairPhase

/-- The readings of the clocks around one batch. -/
structure BatchClock where
  /-- `NOW()` of the selection. -/
  now : Int
  /-- `Date.now()`, as the row of an id is repaired. -/
  dateNow : String → Int
  /-- `NOW()` of the update of an id. -/
  updateNow : String → Int
  /-- `new Date()` of the log entry of an id. -/
  stamp : String → Int
  /-- `new Date()` where an error is caught. -/
  caught : Int

/-- All clocks show one instant. -/
def BatchClock.still (ms : Int) : BatchClock where
  now := ms
  dateNow _ := ms
  updateNow _ := ms
  stamp _ := ms
  caught := ms

def BatchClock.readings (clock : BatchClock) : Readings where
  lapsed until_ := decide (until_ < clock.now)
  stale id until_ := decide (until_ < clock.dateNow id)
  now := clock.updateNow
  stamp := clock.stamp

structure RepairActionLogEntry where
  timestamp : Int
  phase : String
  recordId : String
  action : String
  details : Json

structure RepairError where
  timestamp : Int
  phase : String
  recordId : Option String
  error : String

/-! ## Batches -/

/-- The rows of a batch with what came of them, and where it ended. -/
structure BatchResult where
  visits : List (String × Outcome)
  /-- All rows that match, if this is the first batch of its phase. -/
  matched : List String
  nextCursor : Option String
  hasMore : Bool

namespace BatchResult

def isRepaired (visit : String × Outcome) : Bool :=
  match visit.2 with
  | .repaired _ _ => true
  | _ => false

def isSkipped (visit : String × Outcome) : Bool :=
  match visit.2 with
  | .skipped => true
  | _ => false

def isFailed (visit : String × Outcome) : Bool :=
  match visit.2 with
  | .failed _ => true
  | _ => false

/-- The log entry of a repaired row. -/
def actionOf (stamp : String → Int) (phase : String)
    (visit : String × Outcome) : Option RepairActionLogEntry :=
  match visit.2 with
  | .repaired action details => some ⟨stamp visit.1, phase, visit.1, action, details⟩
  | _ => none

def errorOf (stamp : String → Int) (phase : String)
    (visit : String × Outcome) : Option RepairError :=
  match visit.2 with
  | .failed error => some ⟨stamp visit.1, phase, some visit.1, error⟩
  | _ => none

end BatchResult

open BatchResult

/-- The case of a phase in `processBatch`. -/
def processPhase (first : List Transaction → Option Transaction)
    (readings : Readings) (phase : RepairPhase) (cursor : Option String)
    (batchSize : Nat) (dry : Bool) (d : Tables) : Tables × BatchResult :=
  let S := scanOf first readings dry phase
  let batch := S.batch cursor batchSize d
  (batch.1,
    { visits := batch.2
      matched := if cursor = none then (S.select d).map S.key else []
      nextCursor := S.next cursor batchSize d
      hasMore := S.isFull cursor batchSize d })

/-- `processBatch`: a name that is none of the cases gives no result. -/
def processBatch (first : List Transaction → Option Transaction)
    (readings : Readings) (phase : String) (cursor : Option String)
    (batchSize : Nat) (dry : Bool) (d : Tables) :
    Option (Tables × BatchResult) :=
  (ofName phase).map (fun phase =>
    processPhase first readings phase cursor batchSize dry d)

/-! ## Checkpoints and the loop -/

inductive RepairJobStatus where
  | pending
  | running
  | paused
  | completed
  | failed
  deriving DecidableEq

structure RepairCheckpoint where
  status : RepairJobStatus
  phase : String
  cursor : Option String
  dryRun : Bool
  batchSize : Nat
  phases : List String
  scannedCount : Nat := 0
  repairedCount : Nat := 0
  skippedCount : Nat := 0
  failedCount : Nat := 0
  errors : List RepairError := []
  actionLog : List RepairActionLogEntry := []

def RepairCheckpoint.record (cp : RepairCheckpoint) (stamp : String → Int)
    (result : BatchResult) : RepairCheckpoint :=
  { cp with
    scannedCount := cp.scannedCount + result.visits.length
    repairedCount := cp.repairedCount + result.visits.countP isRepaired
    skippedCount := cp.skippedCount + result.visits.countP isSkipped
    failedCount := cp.failedCount + result.visits.countP isFailed
    errors := cp.errors ++ result.visits.filterMap (errorOf stamp cp.phase)
    actionLog := cp.actionLog ++ result.visits.filterMap (actionOf stamp cp.phase) }

/-- The tables and the saved checkpoint of one job. -/
structure RepairState where
  tables : Tables
  checkpoint : RepairCheckpoint
  /-- The batches so far; each has its own readings of the clocks. -/
  batches : Nat := 0
  /-- The rows that matched as their phase started. -/
  matched : List (String × String) := []
  /-- The rows scanned so far, with what came of each. -/
  visits : List (String × String × Outcome) := []

section Loop

variable (first : List Transaction → Option Transaction) (env : Nat → BatchClock)

/-- The state after a batch, before the position moves. -/
def RepairState.afterBatch (st : RepairState) (tables : Tables)
    (result : BatchResult) : RepairState where
  tables := tables
  checkpoint := st.checkpoint.record (env st.batches).stamp result
  batches := st.batches + 1
  matched := st.matched ++ result.matched.map (fun id => (st.checkpoint.phase, id))
  visits := st.visits ++ result.visits.map (fun visit => (st.checkpoint.phase, visit))

def RepairState.withStatus (st : RepairState) (status : RepairJobStatus) :
    RepairState :=
  { st with checkpoint := { st.checkpoint with status } }

def RepairState.moveTo (st : RepairState) (phase : String) (cursor : Option String) : RepairState :=
  { st with checkpoint := { st.checkpoint with phase, cursor } }

/-- The error of reading a result that is undefined. -/
def RepairState.fail (st : RepairState) : RepairState :=
  { st with
    batches := st.batches + 1
    checkpoint := { st.checkpoint with
      status := .failed
      errors := st.checkpoint.errors ++ [⟨(env st.batches).caught, st.checkpoint.phase, none,
        "Cannot read properties of undefined (reading 'scanned')"⟩] } }

/-- One turn of the loop, and whether it goes on. -/
def RepairState.turn (st : RepairState) : RepairState × Bool :=
  let cp := st.checkpoint
  if cp.phase ∉ cp.phases then (st.withStatus .completed, false)
  else
    match processBatch first (env st.batches).readings cp.phase cp.cursor
        cp.batchSize cp.dryRun st.tables with
    | none => (st.fail env, false)
    | some (tables, result) =>
      let after := st.afterBatch env tables result
      if result.hasMore = true ∧ result.nextCursor ≠ none then
        (after.moveTo cp.phase result.nextCursor, true)
      else
        match cp.phases[cp.phases.idxOf cp.phase + 1]? with
        | some next => (after.moveTo next none, true)
        | none => (after.withStatus .completed, false)

/-- `maxBatches !== undefined && maxBatches > 0 && executed >= maxBatches`. -/
def reached (maxBatches : Option Nat) (executed : Nat) : Bool :=
  maxBatches.any (fun n => decide (0 < n) && decide (n ≤ executed))

def loop (maxBatches : Option Nat) : Nat → Nat → RepairState → Option RepairState
  | 0, _, _ => none
  | fuel + 1, executed, st =>
    match st.turn first env with
    | (st', false) => some st'
    | (st', true) =>
      if reached maxBatches (executed + 1) = true then
        some (st'.withStatus .paused)
      else loop maxBatches fuel (executed + 1) st'

def executeJob (fuel : Nat) (maxBatches : Option Nat) (st : RepairState) :
    Option RepairState :=
  loop first env maxBatches fuel 0 (st.withStatus .running)

structure RepairJobOptions where
  batchSize : Option Nat := none
  dryRun : Bool := false
  phases : Option (List String) := none
  maxBatches : Option Nat := none

/-- The list of phases of a job: all, unless some are given. -/
def RepairJobOptions.phaseList (options : RepairJobOptions) : List String :=
  match options.phases with
  | some (phase :: rest) => phase :: rest
  | _ => order.map name

/-- A batch size that is given and positive, or the other one. -/
def batchSizeOr (given : Option Nat) (other : Nat) : Nat :=
  match given with
  | some (n + 1) => n + 1
  | _ => other

theorem batchSizeOr_pos {given : Option Nat} {other : Nat}
    (h : 0 < other) : 0 < batchSizeOr given other := by
  unfold batchSizeOr
  split
  · exact succ_pos _
  · exact h

/-- The first checkpoint of a job. -/
def RepairState.new (defaultBatchSize : Nat) (options : RepairJobOptions)
    (d : Tables) : RepairState where
  tables := d
  checkpoint :=
    { status := .pending
      phase := options.phaseList.headD ""
      cursor := none
      dryRun := options.dryRun
      batchSize := batchSizeOr options.batchSize defaultBatchSize
      phases := options.phaseList }

def startRepairJob (fuel : Nat) (defaultBatchSize : Nat)
    (options : RepairJobOptions) (d : Tables) : Option RepairState :=
  executeJob first env fuel options.maxBatches (RepairState.new defaultBatchSize options d)

structure ResumeOptions where
  maxBatches : Option Nat := none
  batchSize : Option Nat := none

def RepairState.withBatchSize (st : RepairState) (given : Option Nat) :
    RepairState :=
  { st with checkpoint := { st.checkpoint with
    batchSize := batchSizeOr given st.checkpoint.batchSize } }

def resumeRepairJob (fuel : Nat) (options : ResumeOptions)
    (st : RepairState) : Option RepairState :=
  if st.checkpoint.status = .completed then some st
  else executeJob first env fuel options.maxBatches (st.withBatchSize options.batchSize)

end Loop

/-! ## The turns of the loop -/

section Turns

variable {first : List Transaction → Option Transaction}
  {env : Nat → BatchClock} {st : RepairState}

/-- The scan that the next batch of a job belongs to. -/
def RepairState.scan (first : List Transaction → Option Transaction)
    (env : Nat → BatchClock) (st : RepairState) (phase : RepairPhase) :
    KeysetScan Tables (RecordOf phase) (RowOf phase) String Outcome :=
  scanOf first (env st.batches).readings st.checkpoint.dryRun phase

/-- The state after the next batch, before the position moves. -/
def RepairState.afterPage (first : List Transaction → Option Transaction)
    (env : Nat → BatchClock) (st : RepairState) (phase : RepairPhase) :
    RepairState :=
  let batch := processPhase first (env st.batches).readings phase
    st.checkpoint.cursor st.checkpoint.batchSize st.checkpoint.dryRun st.tables
  st.afterBatch env batch.1 batch.2

variable {phase : RepairPhase}

theorem turn_unknown (hmem : st.checkpoint.phase ∈ st.checkpoint.phases)
    (hname : ofName st.checkpoint.phase = none) :
    st.turn first env = (st.fail env, false) := by
  rw [RepairState.turn, if_neg (not_not.mpr hmem), processBatch, hname]
  rfl

/-- **A FULL PAGE**: the cursor moves within the phase. -/
theorem turn_full (hmem : st.checkpoint.phase ∈ st.checkpoint.phases)
    (hname : ofName st.checkpoint.phase = some phase)
    (hpos : 0 < st.checkpoint.batchSize)
    (hfull : (st.scan first env phase).isFull st.checkpoint.cursor
      st.checkpoint.batchSize st.tables = true) :
    st.turn first env = ((st.afterPage first env phase).moveTo
      st.checkpoint.phase ((st.scan first env phase).next
        st.checkpoint.cursor st.checkpoint.batchSize st.tables), true) := by
  obtain ⟨last, -, hnext, -⟩ := KeysetScan.last_of_full hpos hfull
  have hmore : (processPhase first (env st.batches).readings phase
      st.checkpoint.cursor st.checkpoint.batchSize st.checkpoint.dryRun
      st.tables).2.hasMore = true
      ∧ (processPhase first (env st.batches).readings phase
        st.checkpoint.cursor st.checkpoint.batchSize st.checkpoint.dryRun
        st.tables).2.nextCursor ≠ none := by
    refine ⟨hfull, ?_⟩
    show (st.scan first env phase).next _ _ _ ≠ none
    rw [hnext]
    exact Option.some_ne_none _
  rw [RepairState.turn, if_neg (not_not.mpr hmem), processBatch, hname]
  simp only [Option.map_some]
  rw [if_pos hmore]
  rfl

/-- **THE LAST PAGE OF A PHASE**: the job goes on with the phase that follows
    the first place of this one's name in the list, or is done. -/
theorem turn_short (hmem : st.checkpoint.phase ∈ st.checkpoint.phases)
    (hname : ofName st.checkpoint.phase = some phase)
    (hshort : (st.scan first env phase).isFull st.checkpoint.cursor
      st.checkpoint.batchSize st.tables = false) : st.turn first env = match st.checkpoint.phases[
          st.checkpoint.phases.idxOf st.checkpoint.phase + 1]? with
        | some next => ((st.afterPage first env phase).moveTo next none, true)
        | none => ((st.afterPage first env phase).withStatus .completed, false) := by
  have hmore : ¬ ((processPhase first (env st.batches).readings phase
      st.checkpoint.cursor st.checkpoint.batchSize st.checkpoint.dryRun
      st.tables).2.hasMore = true
      ∧ (processPhase first (env st.batches).readings phase
        st.checkpoint.cursor st.checkpoint.batchSize st.checkpoint.dryRun
        st.tables).2.nextCursor ≠ none) := by
    rintro ⟨hfull, -⟩
    cases hshort.symm.trans hfull
  rw [RepairState.turn, if_neg (not_not.mpr hmem), processBatch, hname]
  simp only [Option.map_some]
  rw [if_neg hmore]
  rfl

/-- A job in the phase at a place of its list. -/
structure At (phases : List RepairPhase) (dry : Bool) (i : Nat)
    (phase : RepairPhase) (st : RepairState) : Prop where
  place : phases[i]? = some phase
  name : st.checkpoint.phase = phase.name
  list : st.checkpoint.phases = phases.map RepairPhase.name
  live : st.checkpoint.dryRun = dry
  positive : 0 < st.checkpoint.batchSize

variable {phases : List RepairPhase} {dry : Bool} {i : Nat}

theorem At.mem (h : At phases dry i phase st) : st.checkpoint.phase ∈ st.checkpoint.phases := by
  rw [h.list, h.name]
  exact mem_map_of_mem (mem_of_getElem? h.place)

theorem At.ofName (h : At phases dry i phase st) :
    RepairPhase.ofName st.checkpoint.phase = some phase := by
  rw [h.name, RepairPhase.ofName_name]

theorem At.next (h : At phases dry i phase st) (hnodup : phases.Nodup) :
    st.checkpoint.phases[st.checkpoint.phases.idxOf st.checkpoint.phase + 1]?
      = phases[i + 1]?.map RepairPhase.name := by
  obtain ⟨hlt, hget⟩ := List.getElem?_eq_some_iff.mp h.place
  have hnames : (phases.map RepairPhase.name).Nodup := hnodup.map RepairPhase.name_injective
  have hlt' : i < (phases.map RepairPhase.name).length := by
    rw [length_map]
    exact hlt
  have hplace := hnames.idxOf_getElem i hlt'
  rw [getElem_map, hget] at hplace
  rw [h.list, h.name, hplace, getElem?_map]

theorem At.turn_full (h : At phases dry i phase st)
    (hfull : (st.scan first env phase).isFull st.checkpoint.cursor
      st.checkpoint.batchSize st.tables = true) :
    st.turn first env = ((st.afterPage first env phase).moveTo phase.name
      ((st.scan first env phase).next st.checkpoint.cursor
        st.checkpoint.batchSize st.tables), true) := by
  rw [Repair.turn_full h.mem h.ofName h.positive hfull, h.name]

theorem At.turn_next (h : At phases dry i phase st) (hnodup : phases.Nodup)
    (hshort : (st.scan first env phase).isFull st.checkpoint.cursor
      st.checkpoint.batchSize st.tables = false) {next : RepairPhase}
    (hnext : phases[i + 1]? = some next) :
    st.turn first env = ((st.afterPage first env phase).moveTo next.name none, true) := by
  rw [turn_short h.mem h.ofName hshort, h.next hnodup, hnext]
  rfl

theorem At.turn_last (h : At phases dry i phase st) (hnodup : phases.Nodup)
    (hshort : (st.scan first env phase).isFull st.checkpoint.cursor
      st.checkpoint.batchSize st.tables = false) (hlast : phases[i + 1]? = none) :
    st.turn first env = ((st.afterPage first env phase).withStatus .completed, false) := by
  rw [turn_short h.mem h.ofName hshort, h.next hnodup, hlast]
  rfl

theorem At.moveTo (h : At phases dry i phase st) {j : Nat}
    {next : RepairPhase} (hnext : phases[j]? = some next) (cursor : Option String) :
    At phases dry j next ((st.afterPage first env phase).moveTo next.name cursor) where
  place := hnext
  name := rfl
  list := h.list
  live := h.live
  positive := h.positive

theorem loop_of_turn {maxBatches : Option Nat} {fuel executed : Nat}
    {st' : RepairState} (h : st.turn first env = (st', true))
    (hmore : reached maxBatches (executed + 1) = false) :
    loop first env maxBatches (fuel + 1) executed st
      = loop first env maxBatches fuel (executed + 1) st' := by
  rw [loop, h]
  simp only [hmore, Bool.false_eq_true, if_false]

end Turns

/-! ## Coming to the end -/

section Completion

variable {first : List Transaction → Option Transaction}
  {env : Nat → BatchClock}

/-- The loop, without a bound on the batches, ends and completes the job. -/
def Completes (first : List Transaction → Option Transaction)
    (env : Nat → BatchClock) (st : RepairState) : Prop :=
  ∀ executed, ∃ fuel st', loop first env none fuel executed st = some st'
    ∧ st'.checkpoint.status = .completed

variable {phases : List String} {st st' : RepairState} {i : Nat}

theorem completes_of_turn (h : st.turn first env = (st', true))
    (hrest : Completes first env st') : Completes first env st := by
  intro executed
  obtain ⟨fuel, last, hlast, hstatus⟩ := hrest (executed + 1)
  exact ⟨fuel + 1, last, (loop_of_turn h rfl).trans hlast, hstatus⟩

theorem completes_of_last (h : st.turn first env = (st', false))
    (hstatus : st'.checkpoint.status = .completed) : Completes first env st := by
  intro executed
  refine ⟨1, st', ?_, hstatus⟩
  rw [loop, h]

/-- The ids of the records of a phase. -/
def idsOf (d : Tables) : RepairPhase → List String
  | .detachedTransactions => d.transactions.rows.map Transaction.id
  | .orphanedTransactions => d.transactions.rows.map Transaction.id
  | .orphanedPaymentEvents => d.paymentEvents.rows.map PaymentEvent.id
  | .inconsistentInvoices => d.invoices.rows.map Invoice.id
  | .inconsistentJobs => d.jobs.rows.map JobRow.id

/-- How many records lie ahead does not depend on the clocks. -/
theorem remaining_eq (first : List Transaction → Option Transaction)
    (readings : Readings) (dry : Bool) (phase : RepairPhase) (c : Option String) (d : Tables) :
    (scanOf first readings dry phase).remaining c d = ((idsOf d phase).filter
        (fun k => decide (Paging.After c k))).length := by
  cases phase <;> rfl

/-- In a list of distinct names, each of a phase, the job completes from every
    position: the pages of a phase move forward, and the phases too. -/
theorem completes_of_nodup (hnodup : phases.Nodup)
    (hknown : ∀ name ∈ phases, ∃ phase, ofName name = some phase) {st : RepairState}
    (hphases : st.checkpoint.phases = phases) (hi : phases[i]? = some st.checkpoint.phase)
    (hpos : 0 < st.checkpoint.batchSize) : Completes first env st := by
  -- on the phases still to come, and on the records still ahead in this one
  induction hleft : phases.length - i using Nat.strong_induction_on generalizing i st with
  | _ left ihPhase =>
  obtain ⟨phase, hname⟩ := hknown _ (List.mem_of_getElem? hi)
  induction hahead : ((idsOf st.tables phase).filter (fun k =>
      decide (Paging.After st.checkpoint.cursor k))).length
    using Nat.strong_induction_on generalizing st with
  | _ ahead ihPage =>
  have hmem : st.checkpoint.phase ∈ st.checkpoint.phases := by
    rw [hphases]
    exact List.mem_of_getElem? hi
  cases hfull : (st.scan first env phase).isFull st.checkpoint.cursor
      st.checkpoint.batchSize st.tables with
  | true =>
    refine completes_of_turn (turn_full hmem hname hpos hfull) ?_
    refine ihPage _ ?_ hphases hi hpos hname rfl
    have hfewer := KeysetScan.remaining_next hpos hfull
    rw [RepairState.scan, remaining_eq, remaining_eq, hahead] at hfewer
    exact hfewer
  | false =>
    obtain ⟨hlt, hget⟩ := List.getElem?_eq_some_iff.mp hi
    have hidx : st.checkpoint.phases.idxOf st.checkpoint.phase = i := by
      rw [hphases, ← hget]
      exact hnodup.idxOf_getElem i hlt
    have hturn : st.turn first env = _ := turn_short hmem hname hfull
    rw [hidx, hphases] at hturn
    cases hnext : phases[i + 1]? with
    | some next =>
      rw [hnext] at hturn
      have hlt' := (List.getElem?_eq_some_iff.mp hnext).1
      refine completes_of_turn hturn ?_
      exact ihPhase _ (by omega) hphases hnext hpos rfl
    | none =>
      rw [hnext] at hturn
      exact completes_of_last hturn rfl

/-- Places of the list that the loop does not get out of: at each the name is
    not that of a phase, or another name follows, whose first place is again
    one of them. -/
def Closed (phases : List String) (B : Nat → Prop) : Prop :=
  ∀ i name, B i → phases[i]? = some name → ofName name = none
      ∨ ∃ next, phases[i + 1]? = some next ∧ B (phases.idxOf next)

variable {name : String}

theorem idxOf_le_of_getElem? (h : phases[i]? = some name) : phases.idxOf name ≤ i := by
  obtain ⟨hlt, hget⟩ := List.getElem?_eq_some_iff.mp h
  by_contra hno
  have hfirst := List.not_of_lt_findIdx (Nat.lt_of_not_le hno)
  rw [hget, beq_self_eq_true] at hfirst
  cases hfirst

theorem getElem?_idxOf (h : name ∈ phases) : phases[phases.idxOf name]? = some name := by
  have hlt := idxOf_lt_length_of_mem h
  rw [getElem?_eq_getElem hlt, getElem_idxOf hlt]

/-- **NO WAY OUT**: from such a place the job never completes, however long
    it runs. -/
theorem not_completed_of_closed {B : Nat → Prop}
    (hclosed : Closed phases B) {fuel executed : Nat} (hphases : st.checkpoint.phases = phases)
    (hmem : st.checkpoint.phase ∈ phases) (hB : B (phases.idxOf st.checkpoint.phase))
    (hpos : 0 < st.checkpoint.batchSize) (h : loop first env none fuel executed st = some st') :
    st'.checkpoint.status ≠ .completed := by
  induction fuel generalizing executed st with
  | zero => cases h
  | succ fuel ih =>
    have hmem' : st.checkpoint.phase ∈ st.checkpoint.phases := by
      rw [hphases]
      exact hmem
    have hplace := hclosed _ _ hB (getElem?_idxOf hmem)
    cases hname : ofName st.checkpoint.phase with
    | none =>
      rw [loop, turn_unknown hmem' hname] at h
      cases h
      exact nofun
    | some phase =>
      cases hfull : (st.scan first env phase).isFull st.checkpoint.cursor
          st.checkpoint.batchSize st.tables with
      | true =>
        rw [loop_of_turn (turn_full hmem' hname hpos hfull) rfl] at h
        refine ih ?_ ?_ ?_ ?_ h
        · exact hphases
        · exact hmem
        · exact hB
        · exact hpos
      | false =>
        obtain ⟨next, hnext, hB'⟩ := hplace.resolve_left (fun hno => nomatch hno.symm.trans hname)
        have hturn : st.turn first env = _ := turn_short hmem' hname hfull
        rw [hphases, hnext] at hturn
        rw [loop_of_turn hturn rfl] at h
        refine ih ?_ ?_ ?_ ?_ h
        · exact hphases
        · exact mem_of_getElem? hnext
        · exact hB'
        · exact hpos

/-- A name that occurs twice: the loop does not get past its second place. -/
theorem closed_of_repeated {i j : Nat} (hi : phases[i]? = some name)
    (hj : phases[j]? = some name) (hlt : i < j) : Closed phases (fun k => k < j) := by
  intro k _ hk _
  right
  have hlen := (List.getElem?_eq_some_iff.mp hj).1
  have hk' : k + 1 < phases.length := by omega
  refine ⟨phases[k + 1], List.getElem?_eq_getElem hk', ?_⟩
  rcases Nat.lt_or_ge (k + 1) j with hbefore | hat
  · have hle := idxOf_le_of_getElem? (List.getElem?_eq_getElem hk')
    omega
  have heq : k + 1 = j := by omega
  have hname : phases[k + 1] = name := by
    rw [← Option.some.injEq, ← List.getElem?_eq_getElem hk', heq, hj]
  rw [hname]
  have hle := idxOf_le_of_getElem? hi
  omega

theorem closed_of_unknown {j : Nat}
    (hj : phases[j]? = some name) (hname : ofName name = none) :
    Closed phases (fun k => k ≤ j) := by
  intro k other hk hother
  rcases Nat.lt_or_ge k j with hbefore | hat
  · right
    have hlen := (List.getElem?_eq_some_iff.mp hj).1
    have hk' : k + 1 < phases.length := by omega
    refine ⟨phases[k + 1], List.getElem?_eq_getElem hk', ?_⟩
    have hle := idxOf_le_of_getElem? (getElem?_eq_getElem hk')
    omega
  · left
    have heq : k = j := by omega
    rw [heq, hj] at hother
    cases hother
    exact hname

/-- The names of the phases are those the switch has a case for. -/
theorem ofName_eq_none : RepairPhase.ofName name = none
      ↔ name ∉ RepairPhase.order.map RepairPhase.name := by
  rw [RepairPhase.ofName, find?_eq_none, mem_map]
  simp only [decide_eq_true_eq, not_exists, not_and]

end Completion

/-- **WHEN A REPAIR JOB COMPLETES**: exactly when the names in its list are
    distinct and each is that of a phase. -/
theorem repair_completes_iff (first : List Transaction → Option Transaction)
    (env : Nat → BatchClock) (d : Tables) (dryRun : Bool)
    (defaultBatchSize batchSize : Nat) (hpos : 0 < batchSize)
    (phases : List String) (hne : phases ≠ []) :
    (∃ fuel st, startRepairJob first env fuel defaultBatchSize
        { phases := some phases, batchSize := some batchSize, dryRun } d
          = some st ∧ st.checkpoint.status = .completed)
      ↔ phases.Nodup ∧ ∀ name ∈ phases, name ∈ RepairPhase.order.map RepairPhase.name := by
  obtain ⟨name, rest, rfl⟩ := exists_cons_of_ne_nil hne
  obtain ⟨n, rfl⟩ := exists_eq_succ_of_ne_zero hpos.ne'
  have hfirst : (name :: rest).idxOf name = 0 := by
    have hle := idxOf_le_of_getElem? (show (name :: rest)[0]? = some name from rfl)
    omega
  constructor
  · rintro ⟨fuel, st, hrun, hstatus⟩
    have hno : ∀ B : Nat → Prop, Closed (name :: rest) B → B 0 → False := by
      intro B hclosed hB
      refine not_completed_of_closed hclosed rfl (.head _) ?_ (succ_pos n) hrun hstatus
      show B ((name :: rest).idxOf name)
      rw [hfirst]
      exact hB
    constructor
    · refine pairwise_iff_getElem.mpr ?_
      intro i j hi hj hlt heq
      refine hno _ (closed_of_repeated (getElem?_eq_getElem hi) ?_ hlt) (by omega)
      rw [getElem?_eq_getElem hj, heq]
    intro other hmem
    by_contra hunknown
    obtain ⟨j, hj, rfl⟩ := getElem_of_mem hmem
    exact hno _ (closed_of_unknown (getElem?_eq_getElem hj)
      (ofName_eq_none.mpr hunknown)) (zero_le j)
  · rintro ⟨hnodup, hknown⟩
    have hphase : ∀ other ∈ name :: rest, ∃ phase, ofName other = some phase := by
      intro other hmem
      refine Option.ne_none_iff_exists'.mp fun hnone => ?_
      exact ofName_eq_none.mp hnone (hknown other hmem)
    exact completes_of_nodup hnodup hphase (i := 0) rfl rfl (succ_pos n) 0

def emptyTables : Tables where
  transactions := ⟨[], .nil⟩
  invoices := ⟨⟨[], .nil⟩, .nil⟩
  paymentEvents := ⟨[], .nil⟩
  jobs := ⟨[], .nil⟩

/-- An invoice, and a transaction with its memo. -/
def linkTables (invoiceId : Option String) : Tables :=
  { emptyTables with
    transactions := ⟨[⟨"t", invoiceId, "h", some "m", none, none⟩], pairwise_singleton _ _⟩
    invoices := ⟨⟨[⟨"i", "m", some .pending, none, none, some 1, 0⟩],
      pairwise_singleton _ _⟩, nodup_singleton _⟩ }

/-- The default order has each phase once. -/
theorem repair_completes_default : ∃ fuel st, startRepairJob head? (fun _ => .still 0) fuel 100
      { phases := some (RepairPhase.order.map RepairPhase.name)
        batchSize := some 1 } (linkTables none) = some st
      ∧ st.checkpoint.status = .completed :=
  (repair_completes_iff head? _ _ false 100 1 (by decide) _
    (by decide)).mpr ⟨by decide, fun _ h => h⟩

/-- A job whose list has one phase twice goes round for ever. -/
theorem repeated_phase_never_completes :
    ¬ ∃ fuel st, startRepairJob head? (fun _ => .still 0) fuel 100
      { phases := some ["inconsistent_jobs", "inconsistent_jobs"]
        batchSize := some 1 } emptyTables = some st
      ∧ st.checkpoint.status = .completed := by
  rintro ⟨fuel, st, hrun, hstatus⟩
  refine not_completed_of_closed (closed_of_repeated (i := 0) (j := 1)
    rfl rfl (by decide)) rfl (.head _) ?_ (by decide) hrun hstatus
  decide

end Repair
