import Inqutum.JobParityRunProofs
import Inqutum.RepairTablesProofs
import Inqutum.TableProofs

/-!
# The repair of jobs beside the workers

The last phase of the repair job works on the table that the workers claim
from.  It selects a batch, judges each row by what the selection read, and
repairs it with one `UPDATE` for each thing that is wrong.  Between any two
of these statements a worker may claim, complete or fail a job.

All parties read one clock, in microseconds; JavaScript reads it in
milliseconds.  `held` and `reclaimed` are no part of the program: they note
the claims that no completion ended, and which of them were made since the
batch was selected.

The requeue looks at the status alone, where `claimNext` compares
`locked_until` as well.  `requeue_spares_live_iff` gives the runs in which
no live lease is lost to it.
-/

namespace Repair

open Jobs (Database JobTable JobError Scan Unknown Date rowToJob)
open Transition (Along)
open List

/-! ## The updates of a row -/

/-- What the phase reads of a row. -/
def columns (row : Jobs.JobRow) : JobRow where
  id := row.id
  status := row.status
  lockedUntil := row.lockedUntil
  lockedBy := row.lockedBy
  completedAt := row.completedAt
  updatedAt := row.updatedAt

inductive Fix where
  | requeueStaleLease
  | backfillCompletedAt
  | clearCompletedAt
  deriving DecidableEq

namespace Fix

/-- The `WHERE` clause, apart from the id. -/
def applies (row : Jobs.JobRow) : Fix → Bool
  | requeueStaleLease => decide (row.status = .running)
  | backfillCompletedAt => row.completedAt.isNone
  | clearCompletedAt => decide (row.status = .queued) || decide (row.status = .running)

/-- The `SET` clause; `now` is `NOW()`, cut to milliseconds. -/
def set (snap : JobRow) (now : Int) (row : Jobs.JobRow) : Fix → Jobs.JobRow
  | requeueStaleLease => { row with
      status := .queued
      lockedUntil := none
      lockedBy := none
      updatedAt := now }
  | backfillCompletedAt => { row with completedAt := some snap.updatedAt }
  | clearCompletedAt => { row with completedAt := none }

def run (t : JobTable) (snap : JobRow) (now : Int) (fix : Fix) : JobTable :=
  t.update snap.id (fun row =>
    if fix.applies row = true then fix.set snap now row else row)

end Fix

/-- `new Date(row.locked_until).getTime() < Date.now()`. -/
def isStale (dateNow : Int) (micros : Int) : Bool :=
  decide (micros / 1000 < dateNow)

/-- What is wrong with a row, as it was selected. -/
def JobRow.fixes (dateNow : Int) (snap : JobRow) : List Fix :=
  (if snap.status = .running ∧ snap.lockedUntil.all (isStale dateNow) = true then
    [.requeueStaleLease]
  else [])
  ++ (if snap.isTerminal = true ∧ snap.completedAt = none then
    [.backfillCompletedAt]
  else [])
  ++ (if snap.isPending = true ∧ snap.completedAt ≠ none then
    [.clearCompletedAt]
  else [])

/-! ## The parties -/

/-- A job that a worker holds, up to an instant in microseconds. -/
structure Lease where
  id : String
  workerId : String
  leaseEnd : Int
  deriving DecidableEq

def leaseOf (row : Jobs.JobRow) : Option Lease :=
  if row.status = .running then
    row.lockedBy.bind (fun workerId =>
      row.lockedUntil.map (fun leaseEnd => ⟨row.id, workerId, leaseEnd⟩))
  else none

/-- The lease that the job of an id runs under. -/
def leaseIn (table : JobTable) (id : String) : Option Lease :=
  (table.rows.find? (fun row => decide (row.id = id))).bind leaseOf

structure Shared where
  clock : Int
  table : JobTable
  /-- The rows of the batch that are still to be judged. -/
  todo : List JobRow
  /-- The row in hand and the updates it still asks for. -/
  inHand : Option (JobRow × List Fix)
  dryRun : Bool
  held : List Lease
  reclaimed : List Lease

inductive Move where
  | selectBatch (cursor : Option String) (batchSize : Nat) (dryRun : Bool)
  | judge
  | update
  | updateThrows
  | claimNext (scan : Scan) (workerId : String) (leaseMs : JsNumber) (types : Option (List String))
  | markSucceeded (id workerId : String) (result : Unknown)
  | markFailed (id workerId : String) (error : JobError) (retryAt : Option Date)

namespace Shared

/-- `new Date()`. -/
def dateNow (s : Shared) : Int := s.clock / 1000

/-- Time passes between the moves. -/
def wait (s : Shared) (micros : Nat) : Shared :=
  { s with clock := s.clock + micros }

/-- The rows that the phase selects, in the order of their ids. -/
def select (s : Shared) (cursor : Option String) (batchSize : Nat) :
    List JobRow :=
  (Paging.rowsAfter JobRow.id cursor (((s.table.rows.map columns).filterMap
      (jobRow (fun micros => decide (micros < s.clock)))).insertionSort
        (fun a b => a.id ≤ b.id))).take batchSize

/-- `isStaleLease` and its siblings are computed once, before the updates. -/
def judge (s : Shared) : Shared :=
  match s.inHand, s.todo with
  | some (_, _ :: _), _ => s
  | _, [] => { s with inHand := none }
  | _, snap :: rest => { s with
      todo := rest
      inHand := some (snap,
        if s.dryRun = true then [] else snap.fixes s.dateNow) }

def update (s : Shared) : Shared :=
  match s.inHand with
  | some (snap, fix :: rest) => { s with
      table := fix.run s.table snap s.dateNow
      inHand := some (snap, rest) }
  | _ => s

/-- The claim that went through is noted. -/
def claimed (s : Shared) : JobTable × Except String (Option Jobs.Job) → Shared
  | (table, .ok (some job)) => { s with
      table := table
      held := s.held ++ (leaseIn table job.id).toList
      reclaimed := s.reclaimed ++ (leaseIn table job.id).toList }
  | (table, _) => { s with table := table }

/-- A worker that completed a job no longer holds it. -/
def completed (s : Shared) (workerId : String) : JobTable × Except String (Option Jobs.Job) → Shared
  | (table, .ok (some job)) =>
    let kept := fun lease : Lease =>
      !(decide (lease.id = job.id) && decide (lease.workerId = workerId))
    { s with
      table := table
      held := s.held.filter kept
      reclaimed := s.reclaimed.filter kept }
  | (table, _) => { s with table := table }

def act (db : Database) (s : Shared) : Move → Shared
  | .selectBatch cursor batchSize dryRun => { s with
      todo := s.select cursor batchSize
      inHand := none
      dryRun := dryRun
      reclaimed := [] }
  | .judge => s.judge
  | .update => s.update
  | .updateThrows => { s with inHand := none }
  | .claimNext scan workerId leaseMs types => s.claimed
      (s.table.claimNext db scan.read workerId (some s.dateNow) leaseMs types)
  | .markSucceeded id workerId result => s.completed workerId
      (s.table.markSucceeded db id workerId result (some s.dateNow))
  | .markFailed id workerId error retryAt => s.completed workerId
      (s.table.markFailed db id workerId error retryAt (some s.dateNow))

/-- Some microseconds pass, then one party moves. -/
def step (db : Database) (s : Shared) (e : Nat × Move) : Shared :=
  (s.wait e.1).act db e.2

/-- The rows that run are held; no batch is selected yet. -/
def start (clock : Int) (table : JobTable) : Shared where
  clock := clock
  table := table
  todo := []
  inHand := none
  dryRun := false
  held := table.rows.filterMap leaseOf
  reclaimed := []

/-! ## The property and its condition -/

/-- The row whose job a move requeues. -/
def requeues (s : Shared) : Move → Option JobRow
  | .update =>
    match s.inHand with
    | some (snap, .requeueStaleLease :: _) => some snap
    | _ => none
  | _ => none

/-- No job is requeued while its lease is in the future. -/
def SparesLive (s : Shared) (e : Nat × Move) : Prop :=
  ∀ snap ∈ s.requeues e.2, ∀ row ∈ s.table.rows, row.id = snap.id →
    row.status = .running → ∀ leaseEnd ∈ row.lockedUntil, leaseEnd ≤ (s.wait e.1).clock

/-- No two workers hold a job with unexpired leases. -/
def Exclusive (s : Shared) : Prop :=
  ∀ c ∈ s.held, ∀ c' ∈ s.held, c.id = c'.id → s.clock < c.leaseEnd →
    s.clock < c'.leaseEnd → c.workerId = c'.workerId

/-- When a job is requeued, every lease on it that was taken since the batch
    was selected, and not completed, has ended. -/
def ReclaimsLapsed (s : Shared) (e : Nat × Move) : Prop :=
  ∀ snap ∈ s.requeues e.2, ∀ c ∈ s.reclaimed, c.id = snap.id → c.leaseEnd ≤ (s.wait e.1).clock

end Shared

/-! ## What the statements do -/

section Rows

variable {t : JobTable} {id : String} {f : Jobs.JobRow → Jobs.JobRow}

theorem update_cases {row' : Jobs.JobRow} (h : row' ∈ (t.update id f).rows) :
    (row' ∈ t.rows ∧ row'.id ≠ id) ∨ ∃ row ∈ t.rows, row.id = id ∧ row' = f row := by
  obtain ⟨row, hrow, rfl⟩ := mem_map.mp h
  by_cases hid : row.id = id
  · rw [if_pos hid]
    exact .inr ⟨row, hrow, hid, rfl⟩
  rw [if_neg hid]
  exact .inl ⟨hrow, hid⟩

theorem mem_update_other {row : Jobs.JobRow} (h : row ∈ t.rows)
    (hid : row.id ≠ id) : row ∈ (t.update id f).rows :=
  mem_map.mpr ⟨row, h, if_neg hid⟩

theorem mem_update_self {row : Jobs.JobRow} (h : row ∈ t.rows)
    (hid : row.id = id) : f row ∈ (t.update id f).rows :=
  mem_map.mpr ⟨row, h, if_pos hid⟩

theorem keys_update (hf : ∀ row, row.id = id → (f row).id = id) :
    (t.update id f).rows.map Jobs.JobRow.id = t.rows.map Jobs.JobRow.id := by
  rw [JobTable.update, map_map]
  refine map_congr_left ?_
  intro row _
  show (if row.id = id then f row else row).id = row.id
  by_cases hid : row.id = id
  · rw [if_pos hid, hf row hid, hid]
  · rw [if_neg hid]

theorem eq_of_key (hkeys : (t.rows.map Jobs.JobRow.id).Nodup)
    {row row' : Jobs.JobRow} (h : row ∈ t.rows) (h' : row' ∈ t.rows)
    (hid : row.id = row'.id) : row = row' :=
  inj_on_of_nodup_map hkeys h h' hid

end Rows

theorem leaseOf_eq_some {row : Jobs.JobRow} {c : Lease} :
    leaseOf row = some c ↔ row.status = .running ∧ row.id = c.id ∧ row.lockedBy = some c.workerId
      ∧ row.lockedUntil = some c.leaseEnd := by
  obtain ⟨cid, cworker, cend⟩ := c
  rw [leaseOf]
  by_cases hrun : row.status = .running
  · rw [if_pos hrun, Option.bind_eq_some_iff]
    constructor
    · rintro ⟨workerId, hby, h⟩
      obtain ⟨leaseEnd, huntil, heq⟩ := Option.map_eq_some_iff.mp h
      obtain ⟨rfl, rfl, rfl⟩ := Lease.mk.inj heq
      exact ⟨hrun, rfl, hby, huntil⟩
    rintro ⟨-, rfl, hby, huntil⟩
    exact ⟨cworker, hby, Option.map_eq_some_iff.mpr ⟨cend, huntil, rfl⟩⟩
  · rw [if_neg hrun]
    exact ⟨nofun, fun h => absurd h.1 hrun⟩

/-- A call that answers with no job leaves the table. -/
def AnswersNone (t : JobTable) (answer : JobTable × Except String (Option Jobs.Job)) :
    Prop :=
  answer.1 = t ∧ ∀ job, answer.2 ≠ .ok (some job)

theorem claimNext_cases (db : Database) (t : JobTable) (scan : Scan)
    (workerId : String) (ms : Int) (leaseMs : JsNumber) (types : Option (List String)) :
    AnswersNone t (t.claimNext db scan.read workerId (some ms) leaseMs types)
      ∨ ∃ row ∈ t.rows, ∃ leaseEnd, Jobs.rowDue ms types row = true
        ∧ t.claimNext db scan.read workerId (some ms) leaseMs types = (t.update row.id
              (fun _ => Jobs.claimedRow workerId ms leaseEnd row),
            .ok (some (rowToJob db (Jobs.claimedRow workerId ms leaseEnd row)))) := by
  rw [JobTable.claimNext]
  split
  · exact Or.inl ⟨rfl, fun _ h => by cases h⟩
  rename_i date hdate
  have hms : date = ms := by
    rw [Jobs.validDate] at hdate
    split at hdate
    · exact (Except.ok.inj hdate).symm
    · cases hdate
  rw [hms]
  split
  · exact Or.inl ⟨rfl, fun _ h => by cases h⟩
  split
  · exact Or.inl ⟨rfl, fun _ h => by cases h⟩
  rename_i row hnext
  split
  · exact Or.inl ⟨rfl, fun _ h => by cases h⟩
  rename_i micros _
  split
  · exact Or.inl ⟨rfl, fun _ h => by cases h⟩
  have hmem := mem_of_mem_head? hnext
  rw [mem_insertionSort, mem_filter] at hmem
  exact Or.inr ⟨row, (scan.perm t.rows).mem_iff.mp hmem.1, 1000 * ms + micros, hmem.2, rfl⟩

/-- A completion that goes through: the worker held the row, and it no longer
    runs. -/
def EndsJob (db : Database) (t : JobTable) (workerId : String)
    (answer : JobTable × Except String (Option Jobs.Job)) : Prop :=
  ∃ row ∈ t.rows, ∃ done : Jobs.JobRow, row.status = .running
    ∧ row.lockedBy = some workerId ∧ done.id = row.id
    ∧ done.status ≠ .running
    ∧ answer = (t.update row.id (fun _ => done), .ok (some (rowToJob db done)))

theorem heldRow_some {t : JobTable} {id workerId : String} {row : Jobs.JobRow}
    (h : t.heldRow id workerId = some row) :
    row ∈ t.rows ∧ row.status = .running ∧ row.lockedBy = some workerId := by
  have hp := find?_some h
  rw [Bool.and_eq_true, Bool.and_eq_true, decide_eq_true_eq,
    decide_eq_true_eq, decide_eq_true_eq] at hp
  exact ⟨mem_of_find?_eq_some h, hp.1.2, hp.2⟩

theorem markSucceeded_cases (db : Database) (t : JobTable)
    (id workerId : String) (result : Unknown) (now : Date) :
    AnswersNone t (t.markSucceeded db id workerId result now) ∨ EndsJob db t workerId
        (t.markSucceeded db id workerId result now) := by
  rw [JobTable.markSucceeded]
  split
  · split
    · exact Or.inl ⟨rfl, fun _ h => by cases h⟩
    split
    · exact Or.inl ⟨rfl, fun _ h => by cases h⟩
    rename_i row hheld
    obtain ⟨hmem, hrun, hby⟩ := heldRow_some hheld
    refine Or.inr ⟨row, hmem, Jobs.succeededRow row _ _, hrun, hby, rfl, ?_, rfl⟩
    rintro ⟨⟩
  · exact Or.inl ⟨rfl, fun _ h => by cases h⟩

theorem markFailed_cases (db : Database) (t : JobTable)
    (id workerId : String) (error : JobError) (retryAt : Option Date) (now : Date) :
    AnswersNone t (t.markFailed db id workerId error retryAt now) ∨ EndsJob db t workerId
        (t.markFailed db id workerId error retryAt now) := by
  rw [JobTable.markFailed]
  split
  · rename_i at_ ms uuid _ _ _
    split
    · exact Or.inl ⟨rfl, fun _ h => by cases h⟩
    split
    · exact Or.inl ⟨rfl, fun _ h => by cases h⟩
    rename_i row hheld
    obtain ⟨hmem, hrun, hby⟩ := heldRow_some hheld
    refine Or.inr ⟨row, hmem, Jobs.failedRow row error at_ ms, hrun, hby, rfl, ?_, rfl⟩
    show (if at_ = none then Jobs.JobStatus.dead else .queued) ≠ .running
    split
    · rintro ⟨⟩
    · rintro ⟨⟩
  · exact Or.inl ⟨rfl, fun _ h => by cases h⟩

/-! ## The invariant -/

namespace Shared

/-- A lease that a row with the id runs under is of a kind, or was taken since
    the batch was selected. -/
def Explained (s : Shared) (id : String) (P : Int → Prop) : Prop :=
  ∀ row ∈ s.table.rows, row.id = id → row.status = .running → ∀ leaseEnd ∈ row.lockedUntil,
      P leaseEnd ∨ ∃ c ∈ s.reclaimed, c.id = id ∧ c.leaseEnd = leaseEnd

/-- Live claims are in the table; the leases that run are those the selection
    read, or were taken since. -/
structure Coherent (s : Shared) : Prop where
  keys : (s.table.rows.map Jobs.JobRow.id).Nodup
  held : ∀ c ∈ s.held, s.clock < c.leaseEnd → ∃ row ∈ s.table.rows, leaseOf row = some c
  reclaimed : ∀ c ∈ s.reclaimed, c ∈ s.held
  todo : ∀ snap ∈ s.todo, s.Explained snap.id (fun leaseEnd =>
    snap.status = .running ∧ snap.lockedUntil = some leaseEnd)
  inHand : ∀ snap fixes, s.inHand = some (snap, fixes) →
    .requeueStaleLease ∈ fixes → s.Explained snap.id (· ≤ s.clock)

variable {s s' : Shared}

theorem coherent_start (clock : Int) {table : JobTable}
    (hkeys : (table.rows.map Jobs.JobRow.id).Nodup) : Coherent (start clock table) where
  keys := hkeys
  held := by
    intro c hc _
    exact mem_filterMap.mp hc
  reclaimed := nofun
  todo := nofun
  inHand := nofun

theorem Coherent.wait (h : Coherent s) (micros : Nat) : Coherent (s.wait micros) where
  keys := h.keys
  held := by
    intro c hc hlive
    have hclock : (s.wait micros).clock = s.clock + micros := rfl
    exact h.held c hc (by omega)
  reclaimed := h.reclaimed
  todo := h.todo
  inHand := by
    intro snap fixes hin hmem row hrow hid hrun leaseEnd hend
    have hclock : (s.wait micros).clock = s.clock + micros := rfl
    rcases h.inHand snap fixes hin hmem row hrow hid hrun leaseEnd hend with
      hle | hnew
    · exact .inl (by omega)
    · exact .inr hnew

theorem Coherent.moved (h : Coherent s) (hkeys : s'.table.rows.map Jobs.JobRow.id
      = s.table.rows.map Jobs.JobRow.id)
    (hheld : ∀ c ∈ s'.held, s'.clock < c.leaseEnd → ∃ row ∈ s'.table.rows, leaseOf row = some c)
    (hreclaimed : ∀ c ∈ s'.reclaimed, c ∈ s'.held)
    (hexp : ∀ id P, s.Explained id P → s'.Explained id P)
    (htodo : s'.todo = s.todo) (hclock : s'.clock = s.clock)
    (hin : ∀ snap fixes', s'.inHand = some (snap, fixes') →
      ∃ fixes, s.inHand = some (snap, fixes) ∧ ∀ fix ∈ fixes', fix ∈ fixes) : Coherent s' where
  keys := by
    rw [hkeys]
    exact h.keys
  held := hheld
  reclaimed := hreclaimed
  todo := by
    intro snap hsnap
    rw [htodo] at hsnap
    exact hexp _ _ (h.todo snap hsnap)
  inHand := by
    intro snap fixes' hin' hmem
    obtain ⟨fixes, heq, hsub⟩ := hin snap fixes' hin'
    rw [hclock]
    exact hexp _ _ (h.inHand snap fixes heq (hsub _ hmem))

/-! ## The moves of the workers -/

variable {answer : JobTable × Except String (Option Jobs.Job)} {workerId : String} {db : Database}

theorem claimed_quiet (h : AnswersNone s.table answer) : s.claimed answer = s := by
  obtain ⟨table, message | _ | job⟩ := answer
  · rw [claimed, show table = s.table from h.1]
    exact fun job => h.2 job
  · rw [claimed, show table = s.table from h.1]
    exact fun job => h.2 job
  · exact absurd rfl (h.2 job)

theorem completed_quiet (h : AnswersNone s.table answer) : s.completed workerId answer = s := by
  obtain ⟨table, message | _ | job⟩ := answer
  · rw [completed, show table = s.table from h.1]
    exact fun job => h.2 job
  · rw [completed, show table = s.table from h.1]
    exact fun job => h.2 job
  · exact absurd rfl (h.2 job)

variable {t : JobTable} {row : Jobs.JobRow}

theorem leaseIn_claimed (hkeys : (t.rows.map Jobs.JobRow.id).Nodup)
    (hrow : row ∈ t.rows) (workerId : String) (ms leaseEnd : Int) :
    leaseIn (t.update row.id (fun _ => Jobs.claimedRow workerId ms leaseEnd row)) row.id
        = some ⟨row.id, workerId, leaseEnd⟩ := by
  let claim := Jobs.claimedRow workerId ms leaseEnd row
  have hsame : (t.update row.id (fun _ => claim)).rows.map Jobs.JobRow.id
      = t.rows.map Jobs.JobRow.id := keys_update (fun _ _ => rfl)
  have hfound : Table.find Jobs.JobRow.id
      (t.update row.id (fun _ => claim)).rows claim.id = some claim :=
    Table.find_of_mem (by rw [hsame]; exact hkeys) (mem_update_self hrow rfl)
  show (Table.find Jobs.JobRow.id (t.update row.id (fun _ => claim)).rows claim.id).bind leaseOf = _
  rw [hfound]
  exact leaseOf_eq_some.mpr ⟨rfl, rfl, rfl, rfl⟩

theorem Coherent.claimed (h : Coherent s) {types : Option (List String)}
    (hanswer : AnswersNone s.table answer ∨ ∃ row ∈ s.table.rows, ∃ leaseEnd,
      Jobs.rowDue s.dateNow types row = true ∧ answer = (s.table.update row.id
            (fun _ => Jobs.claimedRow workerId s.dateNow leaseEnd row),
          .ok (some (rowToJob db (Jobs.claimedRow workerId s.dateNow leaseEnd row))))) :
    Coherent (s.claimed answer) := by
  rcases hanswer with hquiet | ⟨row, hrow, leaseEnd, hdue, rfl⟩
  · rw [claimed_quiet hquiet]
    exact h
  let claim := Jobs.claimedRow workerId s.dateNow leaseEnd row
  let lease : Lease := ⟨row.id, workerId, leaseEnd⟩
  have hstate : s.claimed (s.table.update row.id (fun _ => claim), .ok (some (rowToJob db claim)))
      = { s with
          table := s.table.update row.id (fun _ => claim)
          held := s.held ++ [lease]
          reclaimed := s.reclaimed ++ [lease] } := by
    rw [Shared.claimed, show (rowToJob db claim).id = row.id from rfl, leaseIn_claimed h.keys hrow]
    rfl
  rw [hstate]
  refine h.moved (keys_update (fun _ _ => rfl)) ?_ ?_ ?_ rfl rfl
    (fun snap fixes hin => ⟨fixes, hin, fun _ hfix => hfix⟩)
  · -- a row that is due runs under no live lease
    intro c hc hlive
    rcases mem_append.mp hc with hold | hnew
    · obtain ⟨row', hrow', hc'⟩ := h.held c hold hlive
      by_cases hid : row'.id = row.id
      · rw [eq_of_key h.keys hrow' hrow hid] at hc'
        obtain ⟨hrun, -, -, huntil⟩ := leaseOf_eq_some.mp hc'
        have hlapsed : c.leaseEnd ≤ 1000 * s.dateNow := by
          rw [Jobs.rowDue, hrun, huntil] at hdue
          have hdue' := (Bool.and_eq_true _ _).mp hdue
          exact of_decide_eq_true hdue'.1
        have hnow : s.dateNow = s.clock / 1000 := rfl
        have hlive' : s.clock < c.leaseEnd := hlive
        omega
      · exact ⟨row', mem_update_other hrow' hid, hc'⟩
    · rw [mem_singleton.mp hnew]
      exact ⟨claim, mem_update_self hrow rfl, leaseOf_eq_some.mpr ⟨rfl, rfl, rfl, rfl⟩⟩
  · intro c hc
    rcases mem_append.mp hc with hold | hnew
    · exact mem_append_left _ (h.reclaimed c hold)
    · exact mem_append_right _ hnew
  intro id P hexp row' hrow' hid hrun leaseEnd' hend
  rcases update_cases hrow' with ⟨hold, -⟩ | ⟨-, -, -, rfl⟩
  · rcases hexp row' hold hid hrun leaseEnd' hend with hP | ⟨c, hc, hcid⟩
    · exact .inl hP
    · exact .inr ⟨c, mem_append_left _ hc, hcid⟩
  refine .inr ⟨lease, mem_append_right _ (by simp), hid, ?_⟩
  exact Option.some.inj hend

theorem Coherent.completed (h : Coherent s)
    (hanswer : AnswersNone s.table answer ∨ EndsJob db s.table workerId answer) :
    Coherent (s.completed workerId answer) := by
  rcases hanswer with
    hquiet | ⟨row, hrow, done, hrun, hby, hid, hdone, rfl⟩
  · rw [completed_quiet hquiet]
    exact h
  have hkept : ∀ c : Lease, (!(decide (c.id = (rowToJob db done).id)
      && decide (c.workerId = workerId))) = true ↔ ¬ (c.id = row.id ∧ c.workerId = workerId) := by
    intro c
    rw [show (rowToJob db done).id = row.id from hid, Bool.not_eq_true',
      ← Bool.not_eq_true, Bool.and_eq_true, decide_eq_true_eq,
      decide_eq_true_eq]
  refine h.moved (keys_update (fun _ hrowid => hid)) ?_ ?_ ?_ rfl rfl
    (fun snap fixes hin => ⟨fixes, hin, fun _ hfix => hfix⟩)
  · intro c hc hlive
    obtain ⟨hold, hkeep⟩ := mem_filter.mp hc
    obtain ⟨row', hrow', hc'⟩ := h.held c hold hlive
    obtain ⟨-, hcid, hcby, -⟩ := leaseOf_eq_some.mp hc'
    by_cases hsame : row'.id = row.id
    · -- the worker that completes is the one that held the row
      have heq := eq_of_key h.keys hrow' hrow hsame
      rw [heq] at hcid hcby
      refine absurd ⟨hcid.symm, ?_⟩ ((hkept c).mp hkeep)
      exact Option.some.inj (hcby.symm.trans hby)
    · exact ⟨row', mem_update_other hrow' hsame, hc'⟩
  · intro c hc
    obtain ⟨hold, hkeep⟩ := mem_filter.mp hc
    exact mem_filter.mpr ⟨h.reclaimed c hold, hkeep⟩
  intro id P hexp row' hrow' hid' hrun' leaseEnd hend
  rcases update_cases hrow' with ⟨hold, hne⟩ | ⟨-, -, -, rfl⟩
  · rcases hexp row' hold hid' hrun' leaseEnd hend with
      hP | ⟨c, hc, hcid, hcend⟩
    · exact .inl hP
    refine .inr ⟨c, mem_filter.mpr ⟨hc, ?_⟩, hcid, hcend⟩
    refine (hkept c).mpr (fun hboth => hne ?_)
    rw [hid', ← hcid]
    exact hboth.1
  · exact absurd hrun' hdone

/-! ## The moves of the repair job -/

theorem Coherent.select (h : Coherent s) (cursor : Option String)
    (batchSize : Nat) (dryRun : Bool) (db : Database) :
    Coherent (s.act db (.selectBatch cursor batchSize dryRun)) where
  keys := h.keys
  held := h.held
  reclaimed := nofun
  todo := by
    -- the batch is read from the table as it is
    intro snap hsnap row hrow hid hrun leaseEnd hend
    obtain ⟨hmem, -⟩ := Paging.mem_rowsAfter.mp (mem_of_mem_take hsnap)
    rw [mem_insertionSort, mem_filterMap] at hmem
    obtain ⟨column, hcolumn, hpick⟩ := hmem
    obtain ⟨row', hrow', rfl⟩ := mem_map.mp hcolumn
    rw [jobRow] at hpick
    split at hpick
    · rw [← Option.some.inj hpick] at hid ⊢
      rw [eq_of_key h.keys hrow hrow' hid] at hrun hend
      exact .inl ⟨hrun, hend⟩
    · cases hpick
  inHand := nofun

variable {snap : JobRow} {fix : Fix} {now : Int}

theorem requeue_mem_fixes {dateNow : Int} (h : .requeueStaleLease ∈ snap.fixes dateNow) :
    ∀ leaseEnd, snap.lockedUntil = some leaseEnd → leaseEnd / 1000 < dateNow := by
  rw [JobRow.fixes, mem_append, mem_append] at h
  rcases h with (h | h) | h
  · split at h
    · rename_i hstale
      intro leaseEnd hend
      rw [hend] at hstale
      exact of_decide_eq_true hstale.2
    · cases h
  · split at h
    · cases mem_singleton.mp h
    · cases h
  split at h
  · cases mem_singleton.mp h
  · cases h

theorem Coherent.judge (h : Coherent s) : Coherent s.judge := by
  rw [Shared.judge]
  split
  · exact h
  · exact ⟨h.keys, h.held, h.reclaimed, h.todo, nofun⟩
  rename_i snap rest htodo _
  refine ⟨h.keys, h.held, h.reclaimed, ?_, ?_⟩
  · intro other hother
    exact h.todo other (by rw [htodo]; exact .tail _ hother)
  intro snap' fixes hin hmem row hrow hid hrun leaseEnd hend
  cases hin
  split at hmem
  · cases hmem
  -- a row is judged stale by the lease it was selected with
  have hsnap : snap ∈ s.todo := by
    rw [htodo]
    exact (.head _)
  rcases h.todo snap hsnap row hrow hid hrun leaseEnd hend with
    ⟨-, hread⟩ | hnew
  · have hlapsed := requeue_mem_fixes hmem leaseEnd hread
    have hnow : s.dateNow = s.clock / 1000 := rfl
    refine Or.inl ?_
    show leaseEnd ≤ s.clock
    omega
  · exact .inr hnew

theorem set_lock (hfix : fix ≠ .requeueStaleLease) (snap : JobRow) (now : Int) (row : Jobs.JobRow) :
    leaseOf (fix.set snap now row) = leaseOf row ∧ (fix.set snap now row).status = row.status
      ∧ (fix.set snap now row).lockedUntil = row.lockedUntil := by
  cases fix with
  | requeueStaleLease => exact absurd rfl hfix
  | backfillCompletedAt => exact ⟨rfl, rfl, rfl⟩
  | clearCompletedAt => exact ⟨rfl, rfl, rfl⟩

theorem set_id (fix : Fix) (snap : JobRow) (now : Int) (row : Jobs.JobRow) :
    (fix.set snap now row).id = row.id := by
  cases fix with
  | requeueStaleLease => rfl
  | backfillCompletedAt => rfl
  | clearCompletedAt => rfl

theorem run_running {row' : Jobs.JobRow} (h : row' ∈ (fix.run t snap now).rows)
    (hrun : row'.status = .running) : ∃ row ∈ t.rows, row.id = row'.id ∧ row.status = .running
      ∧ row.lockedUntil = row'.lockedUntil := by
  rcases update_cases h with ⟨hold, -⟩ | ⟨row, hrow, -, rfl⟩
  · exact ⟨row', hold, rfl, hrun, rfl⟩
  by_cases happ : fix.applies row = true
  · rw [if_pos happ] at hrun ⊢
    by_cases hfix : fix = .requeueStaleLease
    · rw [hfix] at hrun
      cases hrun
    obtain ⟨-, hstatus, huntil⟩ := set_lock hfix snap now row
    rw [hstatus] at hrun
    exact ⟨row, hrow, (set_id fix snap now row).symm, hrun, huntil.symm⟩
  · rw [if_neg happ] at hrun ⊢
    exact ⟨row, hrow, rfl, hrun, rfl⟩

theorem run_lease {c : Lease} (hrow : row ∈ t.rows) (hlease : leaseOf row = some c)
    (hspared : fix = .requeueStaleLease → row.id ≠ snap.id) :
    ∃ row' ∈ (fix.run t snap now).rows, leaseOf row' = some c := by
  by_cases hid : row.id = snap.id
  · have hfix : fix ≠ .requeueStaleLease := fun heq => hspared heq hid
    refine ⟨_, mem_update_self hrow hid, ?_⟩
    split
    · rw [(set_lock hfix snap now row).1]
      exact hlease
    · exact hlease
  · exact ⟨row, mem_update_other hrow hid, hlease⟩

theorem requeues_eq_some {move : Move} : s.requeues move = some snap ↔ move = .update
      ∧ ∃ rest, s.inHand = some (snap, .requeueStaleLease :: rest) := by
  constructor
  · intro h
    cases move with
    | update =>
      refine ⟨rfl, ?_⟩
      rw [requeues] at h
      split at h
      · rename_i heq
        cases h
        exact ⟨_, heq⟩
      · cases h
    | _ => cases h
  · rintro ⟨rfl, rest, hin⟩
    rw [requeues, hin]

theorem Coherent.update (h : Coherent s)
    (hspares : ∀ snap ∈ s.requeues .update, ∀ row ∈ s.table.rows,
      row.id = snap.id → row.status = .running → ∀ leaseEnd ∈ row.lockedUntil, leaseEnd ≤ s.clock) :
    Coherent s.update := by
  rw [Shared.update]
  split
  · rename_i snap fix rest hin
    refine h.moved (keys_update ?_) ?_ h.reclaimed ?_ rfl rfl ?_
    · intro row hid
      split
      · rw [set_id, hid]
      · exact hid
    · intro c hc hlive
      obtain ⟨row, hrow, hlease⟩ := h.held c hc hlive
      obtain ⟨hrun, -, -, huntil⟩ := leaseOf_eq_some.mp hlease
      refine run_lease hrow hlease ?_
      intro hfix hid
      rw [hfix] at hin
      have hended := hspares snap (requeues_eq_some.mpr ⟨rfl, rest, hin⟩)
        row hrow hid hrun c.leaseEnd huntil
      exact absurd hlive (not_lt.mpr hended)
    · intro id P hexp row' hrow' hid hrun leaseEnd hend
      obtain ⟨row, hrow, hid', hrun', huntil⟩ := run_running hrow' hrun
      exact hexp row hrow (hid'.trans hid) hrun' leaseEnd (huntil.trans hend)
    intro snap' fixes' hin'
    obtain ⟨hsnap, hrest⟩ := Prod.mk.inj (Option.some.inj hin')
    rw [← hsnap, ← hrest]
    exact ⟨fix :: rest, hin, fun _ hmem => .tail _ hmem⟩
  · exact h

/-! ## Runs -/

/-- **ONE MOVE**: what spares the live leases keeps the invariant. -/
theorem Coherent.step (h : Coherent s) (db : Database) {e : Nat × Move}
    (hspares : s.SparesLive e) : Coherent (s.step db e) := by
  obtain ⟨micros, move⟩ := e
  have hw := h.wait micros
  cases move with
  | selectBatch cursor batchSize dryRun => exact hw.select cursor batchSize dryRun db
  | judge => exact hw.judge
  | update => exact hw.update hspares
  | updateThrows => exact ⟨hw.keys, hw.held, hw.reclaimed, hw.todo, fun _ _ hin => nomatch hin⟩
  | claimNext scan workerId leaseMs types =>
    exact hw.claimed (claimNext_cases db _ scan workerId _ leaseMs types)
  | markSucceeded id workerId result =>
    exact hw.completed (markSucceeded_cases db _ id workerId result _)
  | markFailed id workerId error retryAt =>
    exact hw.completed (markFailed_cases db _ id workerId error retryAt _)

theorem Coherent.exclusive (h : Coherent s) : Exclusive s := by
  intro c hc c' hc' hid hlive hlive'
  obtain ⟨row, hrow, hlease⟩ := h.held c hc hlive
  obtain ⟨row', hrow', hlease'⟩ := h.held c' hc' hlive'
  obtain ⟨-, hrid, hby, -⟩ := leaseOf_eq_some.mp hlease
  obtain ⟨-, hrid', hby', -⟩ := leaseOf_eq_some.mp hlease'
  have hsame : row.id = row'.id := hrid.trans (hid.trans hrid'.symm)
  rw [eq_of_key h.keys hrow hrow' hsame] at hby
  exact Option.some.inj (hby.symm.trans hby')

/-- A requeue hits a live lease exactly if that lease is a new one. -/
theorem Coherent.sparesLive_iff (h : Coherent s) (e : Nat × Move) :
    s.SparesLive e ↔ s.ReclaimsLapsed e := by
  have hw := h.wait e.1
  constructor
  · intro hspares snap hsnap c hc hid
    by_contra hlive
    obtain ⟨row, hrow, hlease⟩ := hw.held c (hw.reclaimed c hc) (not_le.mp hlive)
    obtain ⟨hrun, hrid, -, huntil⟩ := leaseOf_eq_some.mp hlease
    exact hlive (hspares snap hsnap row hrow (hrid.trans hid) hrun c.leaseEnd huntil)
  intro hlapsed snap hsnap row hrow hid hrun leaseEnd hend
  obtain ⟨-, rest, hin⟩ := requeues_eq_some.mp hsnap
  rcases hw.inHand snap _ hin (.head _) row hrow hid hrun leaseEnd
    hend with hle | ⟨c, hc, hcid, rfl⟩
  · exact hle
  · exact hlapsed snap hsnap c hc hcid

end Shared

open Shared in
/-- **WHEN A REQUEUE SPARES THE LIVE LEASES**: exactly if no job is requeued
    that was claimed again since its batch was selected, under a lease that
    has neither ended nor been completed. -/
theorem requeue_spares_live_iff (db : Database) (clock : Int)
    (table : JobTable) (hkeys : (table.rows.map Jobs.JobRow.id).Nodup)
    (moves : List (Nat × Move)) :
    Along (Shared.step db) (fun s e => s.SparesLive e ∧ (s.step db e).Exclusive)
        (start clock table) moves
      ↔ Along (Shared.step db) ReclaimsLapsed (start clock table) moves := by
  constructor
  · refine Along.imp (I := Shared.Coherent) ?_ (coherent_start clock hkeys)
    intro s e hs hspares
    exact ⟨(hs.sparesLive_iff e).mp hspares.1, hs.step db hspares.1⟩
  refine Along.imp (I := Shared.Coherent) ?_ (coherent_start clock hkeys)
  intro s e hs hlapsed
  have hspares := (hs.sparesLive_iff e).mpr hlapsed
  have hs' := hs.step db hspares
  exact ⟨⟨hspares, hs'.exclusive⟩, hs'⟩

/-! ## Samples -/

section Samples

open Shared

instance (s : Shared) (e : Nat × Move) : Decidable (s.SparesLive e) :=
  inferInstanceAs (Decidable (∀ snap ∈ s.requeues e.2,
    ∀ row ∈ s.table.rows, row.id = snap.id → row.status = .running →
      ∀ leaseEnd ∈ row.lockedUntil, leaseEnd ≤ (s.wait e.1).clock))

instance (s : Shared) (e : Nat × Move) : Decidable (s.ReclaimsLapsed e) :=
  inferInstanceAs (Decidable (∀ snap ∈ s.requeues e.2,
    ∀ c ∈ s.reclaimed, c.id = snap.id → c.leaseEnd ≤ (s.wait e.1).clock))

instance (s : Shared) : Decidable s.Exclusive :=
  inferInstanceAs (Decidable (∀ c ∈ s.held, ∀ c' ∈ s.held, c.id = c'.id →
    s.clock < c.leaseEnd → s.clock < c'.leaseEnd → c.workerId = c'.workerId))

/-- One job, whose lease ended after a second. -/
def staleTable : JobTable where
  rows := [{
    id := "00000000-0000-4000-8000-000000000001"
    type := "mail"
    payloadVersion := 1
    payloadData := .obj []
    status := .running
    attempts := 1
    retryPolicy := Jobs.defaultRetryPolicy
    runAt := 0
    lockedUntil := some 1000000
    lockedBy := some "a"
    idempotencyKey := none
    correlationId := none
    errors := []
    result := .null
    createdAt := 0
    updatedAt := 0
    completedAt := none }]

def claimBy (workerId : String) : Nat × Move :=
  (0, .claimNext Jobs.plainScan workerId 60000 none)

/-- Select, let `between` happen, requeue, and let a worker claim. -/
def requeueAround (between : List (Nat × Move)) : List (Nat × Move) :=
  (0, .selectBatch none 10 false) :: between ++ [(0, .judge), (0, .update), claimBy "c"]

/-- The reclaim fails, and the job is requeued. -/
theorem requeue_spares_live_failed : Along (Shared.step Jobs.sampleDatabase)
      (fun s e => s.SparesLive e ∧ (s.step Jobs.sampleDatabase e).Exclusive)
      (start 2000000 staleTable) (requeueAround [claimBy "b", (0,
        .markFailed "00000000-0000-4000-8000-000000000001" "b"
          ⟨2, 2000, "timeout", none⟩ (some (some 9000)))]) :=
  (requeue_spares_live_iff Jobs.sampleDatabase 2000000 staleTable
    (by decide) _).mpr (by decide +kernel)

/-- **A LIVE LEASE IS STOLEN**: the job is claimed again between the selection
    and the requeue, and then a third time. -/
theorem requeue_steals_live : ¬ Along (Shared.step Jobs.sampleDatabase) SparesLive
        (start 2000000 staleTable) (requeueAround [claimBy "b"])
      ∧ ¬ Along (Shared.step Jobs.sampleDatabase)
        (fun s e => (s.step Jobs.sampleDatabase e).Exclusive)
        (start 2000000 staleTable) (requeueAround [claimBy "b"]) := by
  decide +kernel

end Samples

end Repair
