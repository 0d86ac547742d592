import Inqutum.RepairServiceProofs

/-!
# Pausing a repair job

A job may be cut into calls: a start and any number of resumes, each with
its own bound on the batches and its own batch size.  What it comes to is
what one run without a pause and with batches of one row comes to.

One thing of a job the pauses do touch: the leases of the running jobs are
compared with the clocks, and a requeued job is stamped with the time.
The result is for clocks that tell of each lease the same throughout
(`Agrees`), and leaves out the time of a requeue (`Tables.untimed`).

The proof runs the job beside `course`, which does the rest of the phases
in one sweep each: what is done and what is to be done stay the same in
sum, from turn to turn (`Follows`).
-/

namespace Repair

open Jobs (JobStatus)
open List KeysetScan RepairPhase BatchResult

/-! ## The leases of the running jobs -/

def Tables.runs (d : Tables) (id : String) : Bool :=
  d.jobs.rows.any (fun j => decide (j.id = id) && decide (j.status = .running))

/-- The job ran at the start, under the same lease. -/
def RunsFrom (start : Tables) (j : JobRow) : Prop :=
  ∃ j₀ ∈ start.jobs.rows, j₀.id = j.id ∧ j₀.status = .running ∧ j₀.lockedUntil = j.lockedUntil

variable {start : Tables} {j : JobRow}

theorem RunsFrom.runs (h : RunsFrom start j) : start.runs j.id = true := by
  obtain ⟨j₀, hmem, hid, hstatus, -⟩ := h
  rw [Tables.runs, any_eq_true]
  exact ⟨j₀, hmem, by rw [decide_eq_true hid, decide_eq_true hstatus]; rfl⟩

/-- The clocks tell the same of the leases of the jobs that run: those of the
    selection, and those read with a row. -/
def Agrees (start : Tables) (readings readings' : Readings) : Prop :=
  ∀ j ∈ start.jobs.rows, j.status = .running → ∀ until_ ∈ j.lockedUntil,
    readings.lapsed until_ = readings'.lapsed until_
      ∧ readings.stale j.id until_ = readings'.stale j.id until_

theorem Agrees.all {readings readings' : Readings} (h : Agrees start readings readings')
    (hj : RunsFrom start j) : j.lockedUntil.all readings.lapsed = j.lockedUntil.all readings'.lapsed
      ∧ j.lockedUntil.all (readings.stale j.id) = j.lockedUntil.all (readings'.stale j.id) := by
  obtain ⟨j₀, hmem, hid, hstatus, hlease⟩ := hj
  cases hlocked : j.lockedUntil with
  | none => exact ⟨rfl, rfl⟩
  | some until_ =>
    have hsame := h j₀ hmem hstatus until_ (hlease.trans hlocked)
    rw [hid] at hsame
    exact hsame

/-- A job without the time of its requeue, if it ran at the start. -/
def JobRow.untimed (start : Tables) (j : JobRow) : JobRow :=
  if start.runs j.id = true ∧ j.status = .queued then
    { j with updatedAt := 0 }
  else j

section Untimed

variable {start : Tables}

theorem JobRow.untimed_cases (start : Tables) (j : JobRow) : j.untimed start = j
      ∨ (j.status = .queued ∧ j.untimed start = { j with updatedAt := 0 }) := by
  rw [JobRow.untimed]
  split
  · rename_i h
    exact .inr ⟨h.2, rfl⟩
  · exact .inl rfl

theorem JobRow.untimed_complete (j : JobRow) (completedAt : Option Int) :
    ({ j with completedAt } : JobRow).untimed start = { j.untimed start with completedAt } := by
  by_cases h : start.runs j.id = true ∧ j.status = .queued
  · rw [JobRow.untimed, JobRow.untimed, if_pos h, if_pos h]
  · rw [JobRow.untimed, JobRow.untimed, if_neg h, if_neg h]

theorem JobRow.untimed_id (j : JobRow) : (j.untimed start).id = j.id := by
  rcases j.untimed_cases start with heq | ⟨-, heq⟩ <;> rw [heq]

def untimedJobs (start : Tables) (table : KeyTable JobRow.id) : KeyTable JobRow.id where
  rows := table.rows.map (JobRow.untimed start)
  ascending := by
    refine pairwise_map.mpr (table.ascending.imp ?_)
    intro j j' hlt
    rw [JobRow.untimed_id, JobRow.untimed_id]
    exact hlt

end Untimed

/-- Tables without the times of the requeues. -/
def Tables.untimed (d start : Tables) : Tables :=
  { d with jobs := untimedJobs start d.jobs }

/-! ## A repair beside one with other clocks -/

section Tracks

variable {start : Tables}

/-- A table of jobs beside the same without the times; the jobs that run were
    running at the start. -/
def Tracks (start : Tables) (table table' : KeyTable JobRow.id) : Prop :=
  table' = untimedJobs start table ∧ ∀ j ∈ table.rows, j.status = .running → RunsFrom start j

variable {table table' : KeyTable JobRow.id} {p : JobRow → Bool}

theorem Tracks.update (h : Tracks start table table') (k : String)
    {f f' : JobRow → JobRow} (hf : ∀ j, (f j).id = j.id)
    (hf' : ∀ j, (f' j).id = j.id) (hp : ∀ j, p (j.untimed start) = p j)
    (hsame : ∀ j ∈ table.rows, p j = true → (f j).untimed start = f' (j.untimed start))
    (hrun : ∀ j, (f j).status = .running →
      j.status = .running ∧ (f j).lockedUntil = j.lockedUntil) :
    Tracks start (table.update k p f hf) (table'.update k p f' hf') := by
  obtain ⟨rfl, horigin⟩ := h
  refine ⟨KeyTable.eq_of_rows ?_, ?_⟩
  · show map _ (map _ _) = map _ (map _ _)
    rw [map_map, map_map]
    refine map_congr_left ?_
    intro j hj
    rw [Function.comp_apply, Function.comp_apply, hp, JobRow.untimed_id]
    split
    · rename_i hcond
      rw [Bool.and_eq_true] at hcond
      exact (hsame j hj hcond.2).symm
    · rfl
  · intro j hj hstatus
    obtain ⟨j', hj', rfl⟩ := mem_map.mp hj
    split at hstatus
    · rename_i hcond
      rw [if_pos hcond]
      obtain ⟨hbefore, hlease⟩ := hrun j' hstatus
      obtain ⟨j₀, hmem, hid, hran, hlease₀⟩ := horigin j' hj' hbefore
      exact ⟨j₀, hmem, hid.trans (hf j').symm, hran, hlease₀.trans hlease.symm⟩
    rename_i hcond
    rw [if_neg hcond]
    exact horigin j' hj' hstatus

theorem Tracks.complete (h : Tracks start table table') (k : String)
    (hp : ∀ j, p (j.untimed start) = p j) (completedAt : Option Int) :
    Tracks start (table.update k p (fun j => { j with completedAt }) (fun _ => rfl))
      (table'.update k p (fun j => { j with completedAt }) (fun _ => rfl)) := by
  refine h.update k _ _ hp ?_ ?_
  · intro j _ _
    exact j.untimed_complete completedAt
  intro j hstatus
  exact ⟨hstatus, rfl⟩

/-- Statements of one name that keep the tables beside each other. -/
def Alike (start : Tables) (s s' : String × Statement (KeyTable JobRow.id)) : Prop :=
  s.1 = s'.1 ∧ ∀ table table', Tracks start table table' →
    ∃ after after', s.2 table = .ok after ∧ s'.2 table' = .ok after' ∧ Tracks start after after'

theorem alike_requeue (id : String) (now now' : Int) (hnow : now' = 0) :
    Alike start ("requeue_stale_lease", requeueStaleLease id now)
      ("requeue_stale_lease", requeueStaleLease id now') := by
  refine ⟨rfl, ?_⟩
  intro table table' h
  refine ⟨_, _, rfl, rfl, h.update id _ _ ?_ ?_ ?_⟩
  · intro j
    rcases j.untimed_cases start with heq | ⟨-, heq⟩ <;> rw [heq]
  · intro j hj hrunning
    have hruns := (h.2 j hj (of_decide_eq_true hrunning)).runs
    rw [JobRow.untimed, if_pos ⟨hruns, rfl⟩, hnow]
    rcases j.untimed_cases start with heq | ⟨-, heq⟩ <;> rw [heq]
  intro j hstatus
  cases hstatus

theorem alike_backfill (id : String) (time : Int) :
    Alike start ("backfill_completed_at", backfillCompletedAt id time)
      ("backfill_completed_at", backfillCompletedAt id time) := by
  refine ⟨rfl, ?_⟩
  intro table table' h
  refine ⟨_, _, rfl, rfl, h.complete id ?_ _⟩
  intro j
  rcases j.untimed_cases start with heq | ⟨-, heq⟩ <;> rw [heq]

theorem alike_clear (id : String) : Alike start ("clear_completed_at", clearCompletedAt id)
      ("clear_completed_at", clearCompletedAt id) := by
  refine ⟨rfl, ?_⟩
  intro table table' h
  refine ⟨_, _, rfl, rfl, h.complete id ?_ _⟩
  intro j
  rcases j.untimed_cases start with heq | ⟨-, heq⟩
  · rw [heq]
  rw [heq]
  rfl

theorem alike_if {c c' : Prop} [Decidable c] [Decidable c']
    {s s' : String × Statement (KeyTable JobRow.id)} (hc : c ↔ c') (hs : c → Alike start s s') :
    Forall₂ (Alike start) (if c then [s] else []) (if c' then [s'] else []) := by
  by_cases h : c
  · rw [if_pos h, if_pos (hc.mp h)]
    exact .cons (hs h) .nil
  rw [if_neg h, if_neg (fun h' => h (hc.mpr h'))]
  exact .nil

/-- A row of a job beside the same without the time. -/
def AlikeJob (start : Tables) (j j' : JobRow) : Prop :=
  j' = j.untimed start ∧ (j.status = .running → RunsFrom start j)

variable {readings readings' : Readings}

/-- **THE STATEMENTS OF A JOB ARE ALIKE**. -/
theorem statements_alike (hagree : Agrees start readings readings')
    (hnow : ∀ id, readings'.now id = 0) {j j' : JobRow} (h : AlikeJob start j j') :
    Forall₂ (Alike start) (j.statements readings) (j'.statements readings') := by
  obtain ⟨rfl, horigin⟩ := h
  have hid : (j.untimed start).id = j.id := JobRow.untimed_id j
  rw [JobRow.statements, JobRow.statements, hid]
  rcases j.untimed_cases start with heq | ⟨hqueued, heq⟩
  · rw [heq]
    refine rel_append (rel_append (alike_if ?_ ?_) (alike_if Iff.rfl ?_)) (alike_if Iff.rfl ?_)
    · refine and_congr_right fun hrunning => ?_
      rw [(hagree.all (horigin hrunning)).2]
    · exact fun _ => alike_requeue _ _ _ (hnow _)
    · exact fun _ => alike_backfill _ _
    · exact fun _ => alike_clear _
  · -- a queued job is only ever cleared of its completion
    rw [heq]
    refine rel_append (rel_append (alike_if ?_ ?_) (alike_if Iff.rfl ?_)) (alike_if Iff.rfl ?_)
    · rw [hqueued]
      exact ⟨(fun h => by cases h.1), (fun h => by cases h.1)⟩
    · exact fun _ => alike_requeue _ _ _ (hnow _)
    · intro hterminal
      rw [JobRow.isTerminal, hqueued] at hterminal
      cases hterminal.1
    · exact fun _ => alike_clear _

theorem execute_alike (dry : Bool)
    {statements statements' : List (String × Statement (KeyTable JobRow.id))}
    (hs : Forall₂ (Alike start) statements statements') (h : Tracks start table table') :
    Tracks start (execute dry table statements).1 (execute dry table' statements').1
      ∧ (execute dry table statements).2 = (execute dry table' statements').2 := by
  cases dry with
  | true =>
    have hnames : statements.map Prod.fst = statements'.map Prod.fst := by
      induction hs with
      | nil => rfl
      | cons hpair _ ih => rw [map_cons, map_cons, hpair.1, ih]
    rw [(execute_dry table _).1, (execute_dry table' _).1,
      (execute_dry table _).2, (execute_dry table' _).2, hnames]
    exact ⟨h, rfl⟩
  | false =>
    induction hs generalizing table table' with
    | nil => exact ⟨h, rfl⟩
    | @cons s s' rest rest' hpair _ ih =>
      obtain ⟨action, statement⟩ := s
      obtain ⟨action', statement'⟩ := s'
      obtain ⟨rfl, hstep⟩ := hpair
      obtain ⟨after, after', hok, hok', hafter⟩ := hstep table table' h
      obtain ⟨hlast, hactions⟩ := ih hafter
      rw [execute_ok hok, execute_ok hok', hactions]
      exact ⟨hlast, rfl⟩

end Tracks

/-- Tables beside the same without the times. -/
def TracksTables (start d d' : Tables) : Prop :=
  d' = d.untimed start ∧ ∀ j ∈ d.jobs.rows, j.status = .running → RunsFrom start j

/-- Only the rows of the jobs have a time. -/
def AlikeRow (start : Tables) : (phase : RepairPhase) → RowOf phase → RowOf phase → Prop
  | .detachedTransactions => fun row row' => row = row'
  | .orphanedTransactions => fun row row' => row = row'
  | .orphanedPaymentEvents => fun row row' => row = row'
  | .inconsistentInvoices => fun row row' => row = row'
  | .inconsistentJobs => AlikeJob start

section Scans

variable {start : Tables} {readings readings' : Readings}

theorem jobRow_alike (hagree : Agrees start readings readings')
    {j j' : JobRow} (h : AlikeJob start j j') :
    Option.Rel (AlikeJob start) (jobRow readings.lapsed j) (jobRow readings'.lapsed j') := by
  have hsame : jobRow readings'.lapsed j' = if (decide (j.status = .running)
            && j.lockedUntil.all readings.lapsed)
          || (j.isTerminal && j.completedAt.isNone)
          || (j.isPending && j.completedAt.isSome) then some j'
        else none := by
    obtain ⟨rfl, horigin⟩ := h
    by_cases hrunning : j.status = .running
    · rw [(hagree.all (horigin hrunning)).1]
      rcases j.untimed_cases start with heq | ⟨-, heq⟩ <;> rw [heq] <;> rfl
    rcases j.untimed_cases start with heq | ⟨-, heq⟩ <;>
      rw [heq, jobRow, decide_eq_false hrunning] <;> rfl
  rw [hsame, jobRow]
  split
  · exact .some h
  · exact .none

theorem jobScan_alike (dry : Bool) (hagree : Agrees start readings readings')
    (hnow : ∀ id, readings'.now id = 0) : (jobScan dry readings).Simulates (jobScan dry readings')
      (TracksTables start) (AlikeJob start) where
  select := by
    rintro d d' ⟨rfl, horigin⟩
    refine rel_filterMap (R := AlikeJob start) ?_ ?_
    · exact fun j j' h => jobRow_alike hagree h
    show Forall₂ _ d.jobs.rows (d.jobs.rows.map (JobRow.untimed start))
    rw [forall₂_map_right_iff, forall₂_same]
    exact fun j hj => ⟨rfl, horigin j hj⟩
  key := by
    rintro j j' ⟨rfl, -⟩
    exact (JobRow.untimed_id j).symm
  repair := by
    rintro d d' j j' ⟨rfl, horigin⟩ h
    have htracks : Tracks start d.jobs (untimedJobs start d.jobs) := ⟨rfl, horigin⟩
    obtain ⟨⟨htable, horigin'⟩, hactions⟩ := execute_alike dry
      (statements_alike hagree hnow h) htracks
    have hstatus : j'.status = j.status := by
      obtain ⟨rfl, -⟩ := h
      rcases j.untimed_cases start with heq | ⟨-, heq⟩ <;> rw [heq]
    refine ⟨⟨?_, horigin'⟩, ?_⟩
    · exact congrArg (fun jobs => { d with jobs }) htable
    show rowOutcome _ _ = rowOutcome _ _
    rw [hactions, hstatus]
    rfl

/-- **THE PHASES RUN ALIKE**, whatever else the clocks show. -/
theorem scan_alike (first : List Transaction → Option Transaction)
    (dry : Bool) (hagree : Agrees start readings readings')
    (hnow : ∀ id, readings'.now id = 0) (phase : RepairPhase) :
    (scanOf first readings dry phase).Simulates
      (scanOf first readings' dry phase) (TracksTables start) (AlikeRow start phase) := by
  cases phase with
  | inconsistentJobs => exact jobScan_alike dry hagree hnow
  | _ =>
    -- the other phases read no clock and no job
    constructor
    · rintro d d' ⟨rfl, -⟩
      exact forall₂_same.mpr (fun _ _ => rfl)
    · rintro row row' rfl
      rfl
    rintro d d' row row' ⟨rfl, horigin⟩ rfl
    exact ⟨⟨rfl, horigin⟩, rfl⟩

end Scans

/-! ## Counts and logs -/

def RepairActionLogEntry.untimed (entry : RepairActionLogEntry) :
    RepairActionLogEntry :=
  { entry with timestamp := 0 }

def RepairError.untimed (error : RepairError) : RepairError :=
  { error with timestamp := 0 }

/-- The counts and logs of a job, the times aside. -/
structure Totals where
  scanned : Nat
  repaired : Nat
  skipped : Nat
  failed : Nat
  actions : List RepairActionLogEntry
  errors : List RepairError

def RepairCheckpoint.totals (cp : RepairCheckpoint) : Totals where
  scanned := cp.scannedCount
  repaired := cp.repairedCount
  skipped := cp.skippedCount
  failed := cp.failedCount
  actions := cp.actionLog.map RepairActionLogEntry.untimed
  errors := cp.errors.map RepairError.untimed

/-- What rows come to, each with the name of its phase. -/
def totalsOf (visits : List (String × String × Outcome)) : Totals where
  scanned := visits.length
  repaired := visits.countP (fun visit => isRepaired visit.2)
  skipped := visits.countP (fun visit => isSkipped visit.2)
  failed := visits.countP (fun visit => isFailed visit.2)
  actions := visits.filterMap (fun visit => actionOf (fun _ => 0) visit.1 visit.2)
  errors := visits.filterMap (fun visit => errorOf (fun _ => 0) visit.1 visit.2)

theorem actionOf_untimed (stamp : String → Int) (phase : String) (visit : String × Outcome) :
    (actionOf stamp phase visit).map RepairActionLogEntry.untimed
      = actionOf (fun _ => 0) phase visit := by
  rcases visit with ⟨id, ⟨action, details⟩ | - | error⟩ <;> rfl

theorem errorOf_untimed (stamp : String → Int) (phase : String) (visit : String × Outcome) :
    (errorOf stamp phase visit).map RepairError.untimed
      = errorOf (fun _ => 0) phase visit := by
  rcases visit with ⟨id, ⟨action, details⟩ | - | error⟩ <;> rfl

/-- **THE COUNTS ARE THOSE OF THE ROWS**. -/
theorem record_totals {cp : RepairCheckpoint} {visits : List (String × String × Outcome)}
    (h : cp.totals = totalsOf visits) (stamp : String → Int) (result : BatchResult) :
    (cp.record stamp result).totals = totalsOf (visits
        ++ result.visits.map (fun visit => (cp.phase, visit))) := by
  rw [RepairCheckpoint.totals, totalsOf, Totals.mk.injEq] at h
  obtain ⟨hscanned, hrepaired, hskipped, hfailed, hactions, herrors⟩ := h
  rw [RepairCheckpoint.totals, totalsOf, RepairCheckpoint.record]
  simp only [length_append, length_map, countP_append, countP_map, filterMap_append, filterMap_map,
    map_append, map_filterMap, actionOf_untimed, errorOf_untimed,
    hscanned, hrepaired, hskipped, hfailed, hactions, herrors]
  rfl

/-! ## The course of a job -/

/-- What a job is to do: its phases over the tables at its start. -/
structure Plan where
  first : List Transaction → Option Transaction
  /-- The clocks that all others agree with on the leases. -/
  clock : BatchClock
  start : Tables
  phases : List RepairPhase
  dry : Bool

namespace Plan

variable (plan : Plan)

/-- A phase, with no time for the requeues. -/
def scan (phase : RepairPhase) :
    KeysetScan Tables (RecordOf phase) (RowOf phase) String Outcome :=
  scanOf plan.first { plan.clock.readings with now := fun _ => 0 } plan.dry phase

/-- Some phases from a position on, in one sweep each. -/
def course : List RepairPhase → Option String → Tables → Tables × List (String × String × Outcome)
  | [], _, d => (d, [])
  | phase :: rest, cursor, d =>
    let swept := (plan.scan phase).finish cursor d
    let after := course rest none swept.1
    (after.1, swept.2.map (fun visit => (phase.name, visit)) ++ after.2)

def total : Tables × List (String × String × Outcome) :=
  plan.course plan.phases none (plan.start.untimed plan.start)

/-- The clocks of a run agree with those of the plan. -/
def Agreed (env : Nat → BatchClock) : Prop :=
  ∀ n, Agrees plan.start (env n).readings plan.clock.readings

end Plan

/-- The phase and the id of each row. -/
def keysOf (visits : List (String × String × Outcome)) : List (String × String) :=
  visits.map (fun visit => (visit.1, visit.2.1))

theorem keysOf_append (visits visits' : List (String × String × Outcome)) :
    keysOf (visits ++ visits') = keysOf visits ++ keysOf visits' :=
  map_append

/-- The rows ahead of the position of a job. -/
def Plan.ahead (plan : Plan) (phase : RepairPhase) (st : RepairState) : List (String × String) :=
  ((plan.scan phase).ahead st.checkpoint.cursor (st.tables.untimed plan.start)).map (fun row =>
      (phase.name, (plan.scan phase).key row))

/-- A job on its way, in the phase of a place of the list: what is done and
    what is to be done come to the total, the counts are those of the rows
    scanned, and a row that matched was scanned or lies ahead. -/
structure Follows (plan : Plan) (i : Nat) (phase : RepairPhase)
    (st : RepairState) : Prop extends At plan.phases plan.dry i phase st where
  origin : ∀ j ∈ st.tables.jobs.rows, j.status = .running → RunsFrom plan.start j
  rest : plan.total = ((plan.course (plan.phases.drop i) st.checkpoint.cursor
        (st.tables.untimed plan.start)).1,
      st.visits ++ (plan.course (plan.phases.drop i) st.checkpoint.cursor
        (st.tables.untimed plan.start)).2)
  totals : st.checkpoint.totals = totalsOf st.visits
  matched : st.matched ++ (if st.checkpoint.cursor = none then plan.ahead phase st else [])
    = keysOf st.visits ++ plan.ahead phase st

/-- A job at its end. -/
structure Finished (plan : Plan) (st : RepairState) : Prop where
  status : st.checkpoint.status = .completed
  tables : st.tables.untimed plan.start = plan.total.1
  visits : st.visits = plan.total.2
  totals : st.checkpoint.totals = totalsOf st.visits
  matched : st.matched = keysOf st.visits

/-! ## Turns on the way -/

section Turns

variable {plan : Plan} {env : Nat → BatchClock} {st : RepairState} {i : Nat}
  {phase : RepairPhase}

theorem Follows.alike (h : Follows plan i phase st) (hagree : plan.Agreed env) :
    (st.scan plan.first env phase).Simulates (plan.scan phase)
      (TracksTables plan.start) (AlikeRow plan.start phase) := by
  have hsame : Agrees plan.start (env st.batches).readings
      { plan.clock.readings with now := fun _ => 0 } := hagree st.batches
  rw [RepairState.scan, h.live]
  exact scan_alike plan.first plan.dry hsame (fun _ => rfl) phase

theorem Follows.tracks (h : Follows plan i phase st) :
    TracksTables plan.start st.tables (st.tables.untimed plan.start) :=
  ⟨rfl, h.origin⟩

/-- The batch that is next, as in the plan. -/
def Plan.batch (plan : Plan) (phase : RepairPhase) (st : RepairState) :
    Tables × List (String × Outcome) :=
  (plan.scan phase).batch st.checkpoint.cursor st.checkpoint.batchSize
    (st.tables.untimed plan.start)

theorem Follows.tables_afterPage (h : Follows plan i phase st) (hagree : plan.Agreed env) :
    TracksTables plan.start (st.afterPage plan.first env phase).tables (plan.batch phase st).1 :=
  ((h.alike hagree).batch h.tracks _ _).1

theorem Follows.visits_afterPage (h : Follows plan i phase st) (hagree : plan.Agreed env) :
    (st.afterPage plan.first env phase).visits
      = st.visits ++ (plan.batch phase st).2.map (fun visit => (phase.name, visit)) := by
  have hvisits := ((h.alike hagree).batch h.tracks st.checkpoint.cursor st.checkpoint.batchSize).2
  show st.visits ++ ((st.scan plan.first env phase).batch _ _ _).2.map
    (fun visit => (st.checkpoint.phase, visit)) = _
  rw [hvisits, h.name]
  rfl

theorem Follows.totals_afterPage (h : Follows plan i phase st) :
    (st.afterPage plan.first env phase).checkpoint.totals
      = totalsOf (st.afterPage plan.first env phase).visits :=
  record_totals h.totals _ _

theorem Follows.matched_afterPage (h : Follows plan i phase st) (hagree : plan.Agreed env) :
    (st.afterPage plan.first env phase).matched = keysOf st.visits ++ plan.ahead phase st := by
  have hkeys := (h.alike hagree).keys ((h.alike hagree).select _ _ h.tracks)
  rw [← h.matched]
  show st.matched ++ (if st.checkpoint.cursor = none then
      ((st.scan plan.first env phase).select st.tables).map (st.scan plan.first env phase).key
    else []).map (fun id => (st.checkpoint.phase, id)) = _
  rw [hkeys, h.name, Plan.ahead]
  cases hcursor : st.checkpoint.cursor with
  | none =>
    rw [if_pos rfl, if_pos rfl, ahead_none, map_map]
    rfl
  | some cursor =>
    rw [if_neg (Option.some_ne_none _), if_neg (Option.some_ne_none _)]
    rfl

theorem keysOf_batch (plan : Plan) (phase : RepairPhase) (st : RepairState) :
    keysOf ((plan.batch phase st).2.map (fun visit => (phase.name, visit)))
      = ((plan.scan phase).page st.checkpoint.cursor st.checkpoint.batchSize
        (st.tables.untimed plan.start)).map (fun row =>
          (phase.name, (plan.scan phase).key row)) := by
  have hkeys : (plan.batch phase st).2.map Prod.fst = _ :=
    keys_batch (st.tables.untimed plan.start)
  have hnamed := congrArg (map (fun id => (phase.name, id))) hkeys
  rw [map_map, map_map] at hnamed
  rw [keysOf, map_map]
  exact hnamed

theorem Follows.course_eq (h : Follows plan i phase st) (c : Option String) (d : Tables) :
    plan.course (plan.phases.drop i) c d = ((plan.course (plan.phases.drop (i + 1)) none
          ((plan.scan phase).finish c d).1).1,
        ((plan.scan phase).finish c d).2.map (fun visit => (phase.name, visit))
          ++ (plan.course (plan.phases.drop (i + 1)) none ((plan.scan phase).finish c d).1).2) := by
  obtain ⟨hlt, hget⟩ := List.getElem?_eq_some_iff.mp h.place
  rw [List.drop_eq_getElem_cons hlt, hget]
  rfl

/-- **A FULL PAGE ON THE WAY**. -/
theorem Follows.turn_full (h : Follows plan i phase st) (hagree : plan.Agreed env)
    (hfull : (plan.scan phase).isFull st.checkpoint.cursor
      st.checkpoint.batchSize (st.tables.untimed plan.start) = true) :
    ∃ st', st.turn plan.first env = (st', true) ∧ Follows plan i phase st'
      ∧ st.visits.length < st'.visits.length := by
  have hfull' := ((h.alike hagree).isFull h.tracks st.checkpoint.cursor
    st.checkpoint.batchSize).trans hfull
  obtain ⟨htables, horigin⟩ := h.tables_afterPage hagree
  have hvisits := h.visits_afterPage hagree
  have hahead : plan.ahead phase st = keysOf ((plan.batch phase st).2.map (fun visit =>
          (phase.name, visit)))
        ++ ((plan.scan phase).ahead ((plan.scan phase).next st.checkpoint.cursor
            st.checkpoint.batchSize (st.tables.untimed plan.start))
          (plan.batch phase st).1).map (fun row => (phase.name, (plan.scan phase).key row)) := by
    rw [keysOf_batch, Plan.batch, ahead_batch h.positive hfull,
      page, ← map_append, take_append_drop, Plan.ahead]
  have hnext := (h.alike hagree).next h.tracks st.checkpoint.cursor st.checkpoint.batchSize
  obtain ⟨last, -, hlast, -⟩ := last_of_full h.positive hfull
  refine ⟨_, h.toAt.turn_full hfull', ?_, ?_⟩
  · rw [hnext]
    refine
      { h.toAt.moveTo h.place _ with
        origin := horigin
        rest := ?_
        totals := h.totals_afterPage
        matched := ?_ }
    · show plan.total = ((plan.course _ _
        ((st.afterPage plan.first env phase).tables.untimed plan.start)).1,
        (st.afterPage plan.first env phase).visits ++ (plan.course _ _
          ((st.afterPage plan.first env phase).tables.untimed plan.start)).2)
      rw [← htables, hvisits, h.rest, h.course_eq, h.course_eq,
        finish_full h.positive hfull, map_append,
        append_assoc, append_assoc]
      rfl
    · show (st.afterPage plan.first env phase).matched
        ++ (if (plan.scan phase).next _ _ _ = none then _ else [])
        = keysOf (st.afterPage plan.first env phase).visits ++ map _ ((plan.scan phase).ahead _
            ((st.afterPage plan.first env phase).tables.untimed plan.start))
      rw [hlast, if_neg (Option.some_ne_none _), append_nil, ← hlast,
        h.matched_afterPage hagree, ← htables, hvisits, keysOf_append,
        append_assoc, hahead]
      rfl
  · show st.visits.length < (st.afterPage plan.first env phase).visits.length
    have hlen : ((plan.batch phase st).2.map Prod.fst).length = st.checkpoint.batchSize := by
      rw [Plan.batch, keys_batch, length_map]
      exact of_decide_eq_true hfull
    have hpos := h.positive
    rw [length_map] at hlen
    rw [hvisits, length_append, length_map, hlen]
    omega

/-- **THE LAST PAGE OF A PHASE ON THE WAY**: the job comes to the next phase
    of the list, or to its end. -/
theorem Follows.turn_short (h : Follows plan i phase st)
    (hagree : plan.Agreed env) (hnodup : plan.phases.Nodup)
    (hshort : (plan.scan phase).isFull st.checkpoint.cursor
      st.checkpoint.batchSize (st.tables.untimed plan.start) = false) :
    ∃ st' more, st.turn plan.first env = (st', more) ∧ st.visits.length ≤ st'.visits.length
      ∧ ((more = false ∧ Finished plan st')
        ∨ (more = true ∧ ∃ next, Follows plan (i + 1) next st')) := by
  have hshort' := ((h.alike hagree).isFull h.tracks st.checkpoint.cursor
    st.checkpoint.batchSize).trans hshort
  obtain ⟨htables, horigin⟩ := h.tables_afterPage hagree
  have hvisits := h.visits_afterPage hagree
  have hmatched : (st.afterPage plan.first env phase).matched
      = keysOf (st.afterPage plan.first env phase).visits := by
    rw [h.matched_afterPage hagree, hvisits, keysOf_append, keysOf_batch,
      page_short hshort]
    rfl
  have hrest : plan.total = ((plan.course (plan.phases.drop (i + 1)) none
          ((st.afterPage plan.first env phase).tables.untimed plan.start)).1,
        (st.afterPage plan.first env phase).visits ++ (plan.course (plan.phases.drop (i + 1)) none
            ((st.afterPage plan.first env phase).tables.untimed plan.start)).2) := by
    rw [← htables, hvisits, h.rest, h.course_eq, finish_short hshort, append_assoc]
    rfl
  have hgrows : st.visits.length ≤ (st.afterPage plan.first env phase).visits.length := by
    rw [hvisits, length_append]
    exact Nat.le_add_right _ _
  cases hnext : plan.phases[i + 1]? with
  | some next =>
    refine ⟨_, true, h.toAt.turn_next hnodup hshort' hnext, hgrows, .inr ⟨rfl, next, ?_⟩⟩
    exact
      { h.toAt.moveTo hnext none with
        origin := horigin
        rest := hrest
        totals := h.totals_afterPage
        matched := congrArg (fun keys => keys ++ _) hmatched }
  | none =>
    have hend : plan.phases.drop (i + 1) = [] :=
      drop_eq_nil_of_le (getElem?_eq_none_iff.mp hnext)
    rw [hend, Plan.course, append_nil] at hrest
    refine ⟨_, false, h.toAt.turn_last hnodup hshort' hnext, hgrows, .inl ⟨rfl, ?_⟩⟩
    exact
      { status := rfl
        tables := (congrArg Prod.fst hrest).symm
        visits := (congrArg Prod.snd hrest).symm
        totals := h.totals_afterPage
        matched := hmatched }

/-- A job that has at most some turns left. -/
def Within (plan : Plan) (n : Nat) (st : RepairState) : Prop :=
  ∃ i phase, Follows plan i phase st
    ∧ plan.total.2.length + plan.phases.length ≤ n + (st.visits.length + i)

/-- **EVERY TURN BRINGS A JOB NEARER TO ITS END**. -/
theorem Within.turn {n : Nat} (h : Within plan n st)
    (hagree : plan.Agreed env) (hnodup : plan.phases.Nodup) :
    ∃ m, n = m + 1 ∧ ∃ st' more, st.turn plan.first env = (st', more)
      ∧ ((more = false ∧ Finished plan st') ∨ (more = true ∧ Within plan m st')) := by
  obtain ⟨i, phase, hfollows, hleft⟩ := h
  have hplace := (List.getElem?_eq_some_iff.mp hfollows.place).1
  have hvisits := congrArg (fun total => total.2.length) hfollows.rest
  dsimp only at hvisits
  rw [length_append] at hvisits
  obtain ⟨m, rfl⟩ : ∃ m, n = m + 1 := ⟨n - 1, by omega⟩
  refine ⟨m, rfl, ?_⟩
  cases hfull : (plan.scan phase).isFull st.checkpoint.cursor
      st.checkpoint.batchSize (st.tables.untimed plan.start) with
  | true =>
    obtain ⟨st', hturn, hnext, hgrows⟩ := hfollows.turn_full hagree hfull
    exact ⟨st', true, hturn, .inr ⟨rfl, i, phase, hnext, by omega⟩⟩
  | false =>
    obtain ⟨st', more, hturn, hgrows, hend | ⟨hmore, next, hnext⟩⟩ :=
      hfollows.turn_short hagree hnodup hfull
    · exact ⟨st', more, hturn, .inl hend⟩
    · exact ⟨st', more, hturn, .inr ⟨hmore, i + 1, next, hnext, by omega⟩⟩

theorem Within.withStatus {n : Nat} (h : Within plan n st)
    (status : RepairJobStatus) : Within plan n (st.withStatus status) := by
  obtain ⟨i, phase, hfollows, hleft⟩ := h
  exact ⟨i, phase, { hfollows with }, hleft⟩

theorem Within.withBatchSize {n : Nat} (h : Within plan n st)
    (given : Option Nat) : Within plan n (st.withBatchSize given) := by
  obtain ⟨i, phase, hfollows, hleft⟩ := h
  exact ⟨i, phase, { hfollows with
    positive := batchSizeOr_pos hfollows.positive }, hleft⟩

/-- A job at its end, or with at most some turns left. -/
def Reaches (plan : Plan) (n : Nat) (st : RepairState) : Prop :=
  Finished plan st ∨ (st.checkpoint.status ≠ .completed ∧ Within plan n st)

theorem Reaches.mono {n m : Nat} (h : Reaches plan n st) (hle : n ≤ m) : Reaches plan m st := by
  rcases h with hend | ⟨hstatus, i, phase, hfollows, hleft⟩
  · exact .inl hend
  · exact .inr ⟨hstatus, i, phase, hfollows, by omega⟩

/-- **A CALL**: it returns, at the end of the job or after a turn at least. -/
theorem Within.loop {n fuel executed : Nat} {maxBatches : Option Nat}
    (h : Within plan n st) (hagree : plan.Agreed env)
    (hnodup : plan.phases.Nodup) (hfuel : n ≤ fuel) :
    ∃ st' m, loop plan.first env maxBatches fuel executed st = some st'
      ∧ n = m + 1 ∧ Reaches plan m st' ∧ (maxBatches = none → Finished plan st') := by
  induction fuel generalizing n executed st with
  | zero =>
    obtain ⟨m, rfl, -⟩ := h.turn hagree hnodup
    omega
  | succ fuel ih =>
    obtain ⟨m, rfl, st', more, hturn, ⟨rfl, hend⟩ | ⟨rfl, hnext⟩⟩ := h.turn hagree hnodup
    · refine ⟨st', m, ?_, rfl, .inl hend, fun _ => hend⟩
      rw [Repair.loop, hturn]
    cases hreached : reached maxBatches (executed + 1) with
    | true =>
      refine ⟨st'.withStatus .paused, m, ?_, rfl, .inr ⟨by rintro ⟨⟩, hnext.withStatus _⟩, ?_⟩
      · rw [Repair.loop, hturn]
        simp only [hreached, if_true]
      rintro rfl
      cases hreached
    | false =>
      obtain ⟨last, k, hlast, rfl, hreaches, hend⟩ :
          ∃ last k, Repair.loop plan.first env maxBatches fuel (executed + 1) st' = some last
            ∧ m = k + 1 ∧ Reaches plan k last
            ∧ (maxBatches = none → Finished plan last) :=
        ih hnext (by omega)
      refine ⟨last, k + 1, ?_, rfl, ?_, hend⟩
      · rw [loop_of_turn hturn hreached, hlast]
      · exact hreaches.mono (Nat.le_succ k)

theorem Reaches.resume {n fuel : Nat} (h : Reaches plan n st)
    (hagree : plan.Agreed env) (hnodup : plan.phases.Nodup) (hfuel : n ≤ fuel)
    (call : ResumeOptions) :
    ∃ st', resumeRepairJob plan.first env fuel call st = some st' ∧ Reaches plan (n - 1) st' := by
  rcases h with hend | ⟨hstatus, hwithin⟩
  · refine ⟨st, ?_, .inl hend⟩
    rw [resumeRepairJob, if_pos hend.status]
  obtain ⟨st', m, hloop, rfl, hreaches, -⟩ :=
    ((hwithin.withBatchSize call.batchSize).withStatus .running).loop hagree hnodup hfuel
  refine ⟨st', ?_, hreaches⟩
  rw [resumeRepairJob, if_neg hstatus]
  exact hloop

end Turns

/-! ## Calls -/

/-- A start and resumes, one after the other. -/
def runCalls (first : List Transaction → Option Transaction)
    (env : Nat → BatchClock) (fuel defaultBatchSize : Nat)
    (options : RepairJobOptions) (calls : List ResumeOptions) (d : Tables) :
    Option RepairState :=
  (startRepairJob first env fuel defaultBatchSize options d).bind (fun st =>
    calls.foldlM (fun st call => resumeRepairJob first env fuel call st) st)

section Calls

variable {plan : Plan} {env : Nat → BatchClock} {st : RepairState}

/-- **EVERY CALL BRINGS A JOB NEARER TO ITS END**. -/
theorem Reaches.resumes {n fuel : Nat} (h : Reaches plan n st)
    (hagree : plan.Agreed env) (hnodup : plan.phases.Nodup) (hfuel : n ≤ fuel)
    (calls : List ResumeOptions) :
    ∃ st', calls.foldlM (fun st call => resumeRepairJob plan.first env fuel call st) st = some st'
      ∧ Reaches plan (n - calls.length) st' := by
  induction calls generalizing n st with
  | nil => exact ⟨st, rfl, h⟩
  | cons call rest ih =>
    obtain ⟨st', hcall, hnext⟩ := h.resume hagree hnodup hfuel call
    obtain ⟨last, hlast, hend⟩ := ih hnext (by omega)
    refine ⟨last, ?_, ?_⟩
    · rw [foldlM_cons, hcall]
      exact hlast
    rw [length_cons, Nat.add_comm, ← Nat.sub_sub]
    exact hend

/-- No turn is left: the job is at its end. -/
theorem Reaches.finished (h : Reaches plan 0 st) : Finished plan st := by
  rcases h with hend | ⟨-, i, phase, hfollows, hleft⟩
  · exact hend
  have hplace := (List.getElem?_eq_some_iff.mp hfollows.place).1
  have hvisits := congrArg (fun total => total.2.length) hfollows.rest
  dsimp only at hvisits
  rw [List.length_append] at hvisits
  omega

/-- The turns a job takes at most. -/
def Plan.turns (plan : Plan) : Nat :=
  plan.total.2.length + plan.phases.length

theorem within_new (hne : plan.phases ≠ []) {defaultBatchSize : Nat}
    {options : RepairJobOptions} (hdry : options.dryRun = plan.dry)
    (hphases : options.phases = some (plan.phases.map name))
    (hpos : 0 < batchSizeOr options.batchSize defaultBatchSize) :
    Within plan plan.turns (RepairState.new defaultBatchSize options plan.start) := by
  obtain ⟨phase, rest, hcons⟩ := exists_cons_of_ne_nil hne
  have hlist : options.phaseList = plan.phases.map name := by
    rw [RepairJobOptions.phaseList, hphases, hcons]
    rfl
  refine ⟨0, phase, ?_, Nat.le_add_right _ _⟩
  exact
    { place := by rw [hcons]; rfl
      name := by
        show options.phaseList.headD "" = phase.name
        rw [hlist, hcons]
        rfl
      list := hlist
      live := hdry
      positive := hpos
      origin := fun j hj hstatus => ⟨j, hj, rfl, hstatus, rfl⟩
      rest := rfl
      totals := rfl
      matched := rfl }

theorem start_reaches (hne : plan.phases ≠ []) (hnodup : plan.phases.Nodup)
    (hagree : plan.Agreed env) {fuel : Nat} (hfuel : plan.turns ≤ fuel)
    (defaultBatchSize : Nat) (options : RepairJobOptions) (hdry : options.dryRun = plan.dry)
    (hphases : options.phases = some (plan.phases.map name))
    (hpos : 0 < batchSizeOr options.batchSize defaultBatchSize) :
    ∃ st, startRepairJob plan.first env fuel defaultBatchSize options plan.start = some st
      ∧ Reaches plan plan.turns st ∧ (options.maxBatches = none → Finished plan st) := by
  have hnew := within_new hne hdry hphases hpos
  obtain ⟨st, m, hloop, hturns, hreaches, hend⟩ :=
    (hnew.withStatus .running).loop hagree hnodup hfuel
  exact ⟨st, hloop, hreaches.mono (by omega), hend⟩

variable {phases : List RepairPhase}

theorem course_names {c : Option String}
    {d : Tables} : ∀ visit ∈ (plan.course phases c d).2, visit.1 ∈ phases.map name := by
  induction phases generalizing c d with
  | nil =>
    intro visit hmem
    cases hmem
  | cons phase rest ih =>
    intro visit hmem
    rw [map_cons, mem_cons]
    rcases mem_append.mp hmem with hmem | hmem
    · obtain ⟨_, -, rfl⟩ := mem_map.mp hmem
      exact .inl rfl
    · exact .inr (ih visit hmem)

theorem course_nodup (hnodup : phases.Nodup) (c : Option String) (d : Tables) :
    (keysOf (plan.course phases c d).2).Nodup := by
  induction phases generalizing c d with
  | nil => exact nodup_nil
  | cons phase rest ih =>
    rw [nodup_cons] at hnodup
    rw [Plan.course, keysOf_append, nodup_append]
    refine ⟨?_, ih hnodup.2 _ _, ?_⟩
    · have hkeys := keys_sweep (S := plan.scan phase) d ((plan.scan phase).ahead c d)
      have hdistinct : (((plan.scan phase).finish c d).2.map Prod.fst).Nodup := by
        rw [finish, hkeys]
        refine pairwise_map.mpr ?_
        exact ahead_ascending.imp (fun hlt => ne_of_lt hlt)
      have hnamed := hdistinct.map (Prod.mk_right_injective phase.name)
      rw [map_map] at hnamed
      rw [keysOf, map_map]
      exact hnamed
    · intro key hkey key' hkey' heq
      obtain ⟨visit, hvisit, rfl⟩ := mem_map.mp hkey
      obtain ⟨visit', hvisit', rfl⟩ := mem_map.mp hkey'
      obtain ⟨_, -, rfl⟩ := mem_map.mp hvisit
      have hname := course_names visit' hvisit'
      rw [← congrArg Prod.fst heq] at hname
      obtain ⟨other, hother, hsame⟩ := mem_map.mp hname
      rw [name_injective hsame] at hother
      exact hnodup.1 hother

end Calls

/-- What two runs have in common, the time of a requeue aside: the tables, the
    counts and the logs. -/
def SameReport (start : Tables) (st st' : RepairState) : Prop :=
  st.tables.untimed start = st'.tables.untimed start ∧ st.checkpoint.totals = st'.checkpoint.totals

/-- Every row that matched as its phase started was scanned once in it, and no
    other row was. -/
def ScannedOnce (st : RepairState) : Prop :=
  st.matched = keysOf st.visits ∧ ∀ row ∈ st.matched, (keysOf st.visits).count row = 1

theorem Finished.scannedOnce {plan : Plan} {st : RepairState}
    (h : Finished plan st) (hnodup : plan.phases.Nodup) : ScannedOnce st := by
  refine ⟨h.matched, ?_⟩
  intro row hrow
  rw [h.matched] at hrow
  refine count_eq_one_of_mem ?_ hrow
  rw [h.visits]
  exact course_nodup hnodup _ _

theorem Finished.sameReport {plan : Plan} {st st' : RepairState}
    (h : Finished plan st) (h' : Finished plan st') : SameReport plan.start st st' := by
  refine ⟨h.tables.trans h'.tables.symm, ?_⟩
  rw [h.totals, h'.totals, h.visits, h'.visits]

/-- **PAUSING IS INVISIBLE**: if the clocks tell of the lease of each job that
    runs the same throughout, every start with resumes returns, enough of them
    complete the job, and then it has come to what the run without a pause
    comes to. -/
theorem pausing_invisible (first : List Transaction → Option Transaction)
    (clock : BatchClock) (d : Tables) (phases : List RepairPhase)
    (hne : phases ≠ []) (hnodup : phases.Nodup) (dryRun : Bool)
    (defaultBatchSize : Nat) :
    ∃ N, ∀ env env' : Nat → BatchClock, (∀ n, Agrees d (env n).readings clock.readings) →
      (∀ n, Agrees d (env' n).readings clock.readings) →
      ∃ whole, startRepairJob first env N defaultBatchSize
          { phases := some (phases.map name)
            batchSize := some 1, dryRun } d = some whole
        ∧ whole.checkpoint.status = .completed ∧ ScannedOnce whole
        ∧ ∀ fuel ≥ N, ∀ batchSize maxBatches calls, 0 < batchSize →
          ∃ st, runCalls first env' fuel defaultBatchSize
              { phases := some (phases.map name)
                batchSize := some batchSize, dryRun, maxBatches } calls d
              = some st
            ∧ (N ≤ calls.length → st.checkpoint.status = .completed)
            ∧ (st.checkpoint.status = .completed → SameReport d st whole ∧ ScannedOnce st) := by
  let plan : Plan := ⟨first, clock, d, phases, dryRun⟩
  refine ⟨plan.turns, ?_⟩
  intro env env' hagree hagree'
  have hagreed : plan.Agreed env := hagree
  have hagreed' : plan.Agreed env' := hagree'
  obtain ⟨whole, hwhole, -, hend⟩ := start_reaches hne hnodup hagreed le_rfl
    defaultBatchSize { phases := some (phases.map name)
                       batchSize := some 1, dryRun } rfl rfl Nat.one_pos
  have hfinished := hend rfl
  refine ⟨whole, hwhole, hfinished.status, hfinished.scannedOnce hnodup, ?_⟩
  intro fuel hfuel batchSize maxBatches calls hpos
  obtain ⟨n, rfl⟩ := Nat.exists_eq_succ_of_ne_zero hpos.ne'
  obtain ⟨st, hstart, hreaches, -⟩ := start_reaches hne hnodup hagreed' hfuel
    defaultBatchSize { phases := some (phases.map name)
                       batchSize := some (n + 1), dryRun, maxBatches } rfl rfl
    (Nat.succ_pos n)
  obtain ⟨st', hcalls, hleft⟩ := hreaches.resumes hagreed' hnodup hfuel calls
  refine ⟨st', ?_, ?_, ?_⟩
  · rw [runCalls, hstart]
    exact hcalls
  · intro hmany
    rw [Nat.sub_eq_zero_of_le hmany] at hleft
    exact hleft.finished.status
  intro hstatus
  have hdone : Finished plan st' := hleft.resolve_right (fun hway => hway.1 hstatus)
  exact ⟨hdone.sameReport hfinished, hdone.scannedOnce hnodup⟩

/-- A succeeded job without its completion, and one that runs until 100. -/
def leasedTables : Tables :=
  { emptyTables with
    jobs := ⟨[⟨"a", .succeeded, none, none, none, 0⟩,
      ⟨"b", .running, some 100, some "w", none, 0⟩], by decide⟩ }

theorem agrees_before_lapse (ms : Int) (h : ms ≤ 100) :
    Agrees leasedTables (BatchClock.still ms).readings (BatchClock.still 50).readings := by
  intro j hj hstatus until_ huntil
  have hlease : until_ = 100 := by
    rcases mem_cons.mp hj with rfl | hj
    · cases hstatus
    rw [mem_singleton.mp hj] at huntil
    exact (Option.mem_some_iff.mp huntil).symm
  have hlater : ¬ until_ < ms := by omega
  have hlater' : ¬ until_ < 50 := by omega
  show decide (until_ < ms) = decide (until_ < 50) ∧ decide (until_ < ms) = decide (until_ < 50)
  rw [decide_eq_false hlater, decide_eq_false hlater']
  exact ⟨rfl, rfl⟩

/-- One batch a call, all of them before the end of the lease. -/
theorem pausing_invisible_before_lapse : ∃ N whole,
    startRepairJob head? (fun _ => .still 50) N 100
        { phases := some ["inconsistent_jobs"]
          batchSize := some 1, dryRun := false } leasedTables = some whole
      ∧ ∀ calls : List ResumeOptions, N ≤ calls.length →
        ∃ st, runCalls head? (fun _ => .still 60) N 100
            { phases := some ["inconsistent_jobs"], batchSize := some 2
              dryRun := false, maxBatches := some 1 } calls leasedTables
            = some st
          ∧ SameReport leasedTables st whole ∧ ScannedOnce st := by
  obtain ⟨N, hall⟩ := pausing_invisible head? (.still 50) leasedTables
    [.inconsistentJobs] (cons_ne_nil _ _) (nodup_singleton _) false
    100
  obtain ⟨whole, hwhole, -, -, hsplit⟩ := hall (fun _ => .still 50)
    (fun _ => .still 60) (fun _ => agrees_before_lapse 50 (by decide))
    (fun _ => agrees_before_lapse 60 (by decide))
  refine ⟨N, whole, hwhole, ?_⟩
  intro calls hmany
  obtain ⟨st, hst, hdone, hsame⟩ := hsplit N le_rfl 2 (some 1) calls (by decide)
  exact ⟨st, hst, hsame (hdone hmany)⟩

/-- **A LEASE ENDS IN THE PAUSE**: without a pause one job is repaired, with a
    pause from 50 to 200 two are. -/
theorem pause_past_lease_repairs_more : (startRepairJob head? (fun _ => .still 50) 5 100
        { phases := some ["inconsistent_jobs"], batchSize := some 1 }
        leasedTables).map (fun st => (st.checkpoint.status, st.checkpoint.repairedCount))
      = some (.completed, 1)
    ∧ (runCalls head? (fun n => .still (if n = 0 then 50 else 200)) 5 100
        { phases := some ["inconsistent_jobs"], batchSize := some 1
          maxBatches := some 1 } [{}] leasedTables).map (fun st =>
          (st.checkpoint.status, st.checkpoint.repairedCount))
      = some (.completed, 2) := by
  constructor
  · decide +kernel
  · decide +kernel

end Repair
