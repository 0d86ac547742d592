import Inqutum.PostgresJobStoreProofs

/-!
# The two job stores agree

A call goes to the in-memory store and to the SQL store with the same
arguments.  `Matches` relates a store and a table: the rows are the jobs,
in order, as `toRow` writes them.  The in-memory store checks arguments
that the table takes, the table refuses values that the store keeps, and
an empty idempotency key is no key for the one and a key for the other.

`stores_agree` says that in every sequence of calls that are comparable in
this sense both stores give the same answers and keep the same jobs, one
for each idempotency key.
-/

namespace Jobs

open MemoryJobStore
open Transition (Along)
open List JsText

/-! ## Calls and answers -/

inductive Call where
  | enqueue (call : EnqueueCall)
  | claimNext (workerId : String) (now : Date) (leaseMs : JsNumber) (types : Option (List String))
  | markSucceeded (id workerId : String) (result : Unknown) (now : Date)
  | markFailed (id workerId : String) (error : JobError) (retryAt : Option Date) (now : Date)
  | requeueDead (id : String) (now : Date)
  | list (filter : JobFilter)
  | counts

inductive Reply where
  | enqueued (outcome : Except String (Job × Bool))
  | job (outcome : Except String (Option Job))
  | page (outcome : Except String (List Job × Nat))
  | counts (n : JobStatus → Nat)

/-- The order in which the database reads rows. -/
structure Scan where
  read : List JobRow → List JobRow
  perm : ∀ rows, (read rows).Perm rows

def memoryCall (m : MemoryJobStore) : Call → MemoryJobStore × Reply
  | .enqueue call => ((call.enqueue m).1, .enqueued (call.enqueue m).2)
  | .claimNext workerId now leaseMs types =>
    ((m.claimNext workerId now leaseMs types).1, .job (m.claimNext workerId now leaseMs types).2)
  | .markSucceeded id workerId result now =>
    ((m.markSucceeded id workerId result now).1, .job (m.markSucceeded id workerId result now).2)
  | .markFailed id workerId error retryAt now =>
    ((m.markFailed id workerId error retryAt now).1,
      .job (m.markFailed id workerId error retryAt now).2)
  | .requeueDead id now => ((m.requeueDead id now).1, .job (m.requeueDead id now).2)
  | .list filter => (m, .page (m.list filter))
  | .counts => (m, .counts m.counts)

/-- `JobQueue.enqueue` over the table. -/
def EnqueueCall.enqueueRow (call : EnqueueCall) (db : Database)
    (t : JobTable) : JobTable × Except String (Job × Bool) :=
  match call.job with
  | .error message => (t, .error message)
  | .ok job => t.enqueue db job call.refusal

def tableCall (db : Database) (t : JobTable) (scan : Scan) : Call → JobTable × Reply
  | .enqueue call => ((call.enqueueRow db t).1, .enqueued (call.enqueueRow db t).2)
  | .claimNext workerId now leaseMs types =>
    ((t.claimNext db scan.read workerId now leaseMs types).1,
      .job (t.claimNext db scan.read workerId now leaseMs types).2)
  | .markSucceeded id workerId result now =>
    ((t.markSucceeded db id workerId result now).1,
      .job (t.markSucceeded db id workerId result now).2)
  | .markFailed id workerId error retryAt now =>
    ((t.markFailed db id workerId error retryAt now).1,
      .job (t.markFailed db id workerId error retryAt now).2)
  | .requeueDead id now => ((t.requeueDead db id now).1, .job (t.requeueDead db id now).2)
  | .list filter => (t, .page (t.list db scan.read filter))
  | .counts => (t, .counts t.counts)

/-- The fields of two jobs are the same, JSON values up to the order of
    members. -/
structure SameFields (a b : Job) : Prop where
  plain : { a with payloadData := .null, result := .null }
    = { b with payloadData := .null, result := .null }
  payloadData : SameJson a.payloadData b.payloadData
  result : SameJson a.result b.result

/-- Both fail, or both succeed with related values. -/
inductive BothOk {α : Type} (R : α → α → Prop) : Except String α → Except String α → Prop where
  | failed (message message' : String) : BothOk R (.error message) (.error message')
  | ok {a b : α} (h : R a b) : BothOk R (.ok a) (.ok b)

/-- The same answer. -/
inductive SameReply : Reply → Reply → Prop where
  | enqueued {a b : Except String (Job × Bool)}
      (h : BothOk (fun x y => SameFields x.1 y.1 ∧ x.2 = y.2) a b) :
      SameReply (.enqueued a) (.enqueued b)
  | job {a b : Except String (Option Job)}
      (h : BothOk (Option.Rel SameFields) a b) : SameReply (.job a) (.job b)
  | page {a b : Except String (List Job × Nat)}
      (h : BothOk (fun x y => Forall₂ SameFields x.1 y.1 ∧ x.2 = y.2)
        a b) : SameReply (.page a) (.page b)
  | counts (n : JobStatus → Nat) : SameReply (.counts n) (.counts n)

/-! ## Rows of jobs -/

/-- The row that stands for a job. -/
def toRow (job : Job) : JobRow where
  id := job.id
  type := job.type
  payloadVersion := job.payloadVersion
  payloadData := job.payloadData
  status := job.status
  attempts := job.attempts
  retryPolicy := job.retryPolicy
  runAt := job.runAt
  lockedUntil := job.lockedUntil.map (1000 * ·)
  lockedBy := job.lockedBy
  idempotencyKey := job.idempotencyKey
  correlationId := job.correlationId
  errors := job.errors
  result := job.result
  createdAt := job.createdAt
  updatedAt := job.updatedAt
  completedAt := job.completedAt

theorem sameJson_readBack (db : Database) (v : Json) : SameJson ((db.jsonb v).getD v) v := by
  cases h : db.jsonb v with
  | none => rfl
  | some v' => exact db.jsonb_same v v' h

theorem sameFields_toRow (db : Database) (job : Job) :
    SameFields (rowToJob db (toRow job)) job where
  plain := by
    have hlocked : (job.lockedUntil.map (1000 * ·)).map (· / 1000) = job.lockedUntil := by
      cases job.lockedUntil with
      | none => rfl
      | some ms =>
        show some (1000 * ms / 1000) = some ms
        rw [Int.mul_ediv_cancel_left ms (by decide)]
    simp only [rowToJob, toRow, hlocked]
  payloadData := sameJson_readBack db job.payloadData
  result := sameJson_readBack db job.result

/-- The table holds the rows of the jobs of the store. -/
def Matches (m : MemoryJobStore) (t : JobTable) : Prop :=
  t.rows = m.jobs.values.map toRow

section Rows

variable {m : MemoryJobStore} {t : JobTable} {job old : Job}

theorem Matches.put (h : Matches m t) (hold : m.jobs.get job.id = some old) :
    Matches (m.put job) (t.update job.id (fun _ => toRow job)) := by
  rw [Matches, values_put_of_some hold, JobTable.update, h, map_map, map_map]
  refine map_congr_left ?_
  intro j _
  by_cases hid : j.id = job.id
  · simp only [Function.comp_apply, if_pos hid]
    exact if_pos hid
  simp only [Function.comp_apply, if_neg hid]
  exact if_neg hid

theorem Matches.add (h : Matches m t) (hnone : m.jobs.get job.id = none) :
    Matches (m.put job) ⟨t.rows ++ [toRow job]⟩ := by
  rw [Matches, values_put_of_none hnone, map_append, ← h]
  rfl

theorem find_unique {l : List Job} {p : Job → Bool} {found : Option Job}
    (hiff : ∀ job, found = some job ↔ job ∈ l ∧ p job = true) : l.find? p = found := by
  cases hfind : l.find? p with
  | none =>
    cases found with
    | none => rfl
    | some job =>
      obtain ⟨hmem, hp⟩ := (hiff job).mp rfl
      exact absurd hp (find?_eq_none.mp hfind job hmem)
  | some job => exact ((hiff job).mpr ⟨mem_of_find?_eq_some hfind, find?_some hfind⟩).symm

theorem Matches.find (h : Matches m t) (id : String) (p : JobRow → Bool) :
    t.rows.find? (fun row => decide (row.id = id) && p row)
      = ((m.jobs.get id).filter (fun job => p (toRow job))).map toRow := by
  rw [h, find?_map]
  congr 1
  refine find_unique ?_
  intro job
  rw [Option.filter_eq_some_iff, Function.comp_apply, Bool.and_eq_true,
    decide_eq_true_eq, mem_values_iff]
  constructor
  · rintro ⟨hget, hp⟩
    have hid := m.keyed id job hget
    exact ⟨hid ▸ hget, hid, hp⟩
  rintro ⟨hget, hid, hp⟩
  have hid : job.id = id := hid
  exact ⟨hid ▸ hget, hp⟩

theorem Matches.heldRow (h : Matches m t) (id workerId : String) :
    t.heldRow id workerId = (m.heldJob id workerId).map toRow := by
  rw [JobTable.heldRow, heldJob]
  have hfind := h.find id (fun row => decide (row.status = .running)
    && decide (row.lockedBy = some workerId))
  simp only [← Bool.and_assoc] at hfind
  exact hfind

end Rows

/-! ## The conditions -/

/-- `uuidv4` has not returned the id before. -/
def FreshUuid (m : MemoryJobStore) : Call → Prop
  | .enqueue call => m.jobs.get call.uuid = none
      ∧ ∀ key, m.byIdempotencyKey.get key ≠ some call.uuid
  | _ => True

/-- No two jobs are due in the same place of the order of `claimNext`. -/
def NoTies (m : MemoryJobStore) : Call → Prop
  | .claimNext _ _ _ _ => ∀ a ∈ m.jobs.values, ∀ b ∈ m.jobs.values,
      a.runAt = b.runAt → a.createdAt = b.createdAt → a.id = b.id
  | _ => True

/-- The arguments mean the same to both stores. -/
def Comparable (db : Database) (m : MemoryJobStore) : Call → Prop
  | .enqueue call => ∀ job, call.job = .ok job → validateJob job = .ok () ∧ insertable db job = true
      ∧ job.idempotencyKey ≠ some ""
      ∧ (call.refusal = none ∨ ∀ key, job.idempotencyKey = some key → m.findByKey key = none)
  | .claimNext workerId now leaseMs types =>
    trim workerId ≠ "" ∧ fits 100 workerId = true
    ∧ types.all (·.all nulFree) = true
    ∧ (∀ ms, now = some ms → validDate now = .ok ms)
    ∧ ∃ n : Nat, 0 < n ∧ leaseMs = .ofNat n ∧ ∀ taken ∈ m.takes workerId now leaseMs types,
        taken.1 + n ≤ 8640000000000000 ∧ taken.2.attempts < 2147483647
  | .markSucceeded id workerId result now =>
    db.uuid id = some id ∧ trim id ≠ "" ∧ trim workerId ≠ ""
    ∧ nulFree workerId = true ∧ (∀ ms, now = some ms → validDate now = .ok ms)
    ∧ match result with
      | .undefined => True
      | .value image => (db.jsonb image).isSome = true
      | .omitted => m.heldJob id workerId = none
      | .refused _ => False
  | .markFailed id workerId error retryAt now =>
    db.uuid id = some id ∧ trim id ≠ "" ∧ trim workerId ≠ ""
    ∧ nulFree workerId = true ∧ errorFits error = true
    ∧ (∃ ms, validDate now = .ok ms)
    ∧ (∀ date, retryAt = some date → ∃ ms, date = some ms
      ∧ inYears ms = true ∧ validDate date = .ok ms)
    ∧ (m.heldJob id workerId ≠ none → 1 ≤ error.attempt ∧ trim error.message ≠ "")
  | .requeueDead id now => db.uuid id = some id ∧ trim id ≠ ""
      ∧ ∀ ms, now = some ms → inYears ms = true ∧ validDate now = .ok ms
  | .list filter => filter.type ≠ some "" ∧ filter.type.all nulFree = true
      ∧ (∀ n, requireCount filter.limit "limit" 50 = .ok n → n < 2 ^ 63)
      ∧ (∀ n, requireCount filter.offset "offset" 0 = .ok n → n < 2 ^ 63)
      ∧ ∀ a ∈ m.jobs.values, ∀ b ∈ m.jobs.values,
        filter.selects a = true → filter.selects b = true →
        a.createdAt = b.createdAt → a.id = b.id
  | .counts => True

/-! ## The invariant of the in-memory store -/

structure Sound (m : MemoryJobStore) : Prop where
  years : ∀ id job, m.jobs.get id = some job →
    inYears job.runAt = true ∧ inYears job.createdAt = true
  unfinished : ∀ id job, m.jobs.get id = some job →
    job.status = .queued ∨ job.status = .running → job.completedAt = none
  keyed : ∀ id job key, m.jobs.get id = some job → job.idempotencyKey = some key →
    key ≠ "" ∧ m.byIdempotencyKey.get key = some id
  indexed : ∀ key id job, m.byIdempotencyKey.get key = some id →
    m.jobs.get id = some job → job.idempotencyKey = some key

section Invariant

variable {m : MemoryJobStore} {job old : Job}

theorem sound_empty : Sound MemoryJobStore.empty where
  years _ _ h := nomatch h
  unfinished _ _ h := nomatch h
  keyed _ _ _ h := nomatch h
  indexed _ _ _ _ h := nomatch h

theorem get_put_cases {id : String} {other : Job} (h : (m.put job).jobs.get id = some other) :
    (job.id = id ∧ job = other) ∨ m.jobs.get id = some other := by
  rw [get_put] at h
  by_cases hid : job.id = id
  · rw [if_pos hid] at h
    exact .inl ⟨hid, Option.some.inj h⟩
  · rw [if_neg hid] at h
    exact .inr h

theorem Sound.put (h : Sound m) (hold : m.jobs.get job.id = some old)
    (hkey : job.idempotencyKey = old.idempotencyKey) (hcreated : job.createdAt = old.createdAt)
    (hrun : inYears job.runAt = true) (hopen : job.status = .queued ∨ job.status = .running →
      job.completedAt = none) : Sound (m.put job) where
  years id other hget := by
    rcases get_put_cases hget with ⟨-, rfl⟩ | hget
    · rw [hcreated]
      exact ⟨hrun, (h.years _ old hold).2⟩
    · exact h.years id other hget
  unfinished id other hget := by
    rcases get_put_cases hget with ⟨-, rfl⟩ | hget
    · exact hopen
    · exact h.unfinished id other hget
  keyed id other key hget := by
    rcases get_put_cases hget with ⟨rfl, rfl⟩ | hget
    · rw [hkey]
      exact h.keyed _ old key hold
    · exact h.keyed id other key hget
  indexed key id other hindex hget := by
    rcases get_put_cases hget with ⟨rfl, rfl⟩ | hget
    · rw [hkey]
      exact h.indexed key _ old hindex hold
    · exact h.indexed key id other hindex hget

theorem Sound.findByKey_iff (h : Sound m) (key : String) (job : Job) :
    m.findByKey key = some job ↔ job ∈ m.jobs.values ∧ job.idempotencyKey = some key := by
  rw [findByKey, Option.bind_eq_some_iff, mem_values_iff]
  constructor
  · rintro ⟨id, hindex, hget⟩
    have hid := m.keyed id job hget
    exact ⟨hid ▸ hget, h.indexed key id job hindex hget⟩
  rintro ⟨hget, hkey⟩
  exact ⟨job.id, (h.keyed job.id job key hget hkey).2, hget⟩

/-- **ONE JOB PER KEY**. -/
theorem Sound.unique (h : Sound m) {a b : Job} (ha : a ∈ m.jobs.values)
    (hb : b ∈ m.jobs.values) {key : String}
    (hka : a.idempotencyKey = some key) (hkb : b.idempotencyKey = some key) : a = b := by
  have hfa := (h.findByKey_iff key a).mpr ⟨ha, hka⟩
  have hfb := (h.findByKey_iff key b).mpr ⟨hb, hkb⟩
  exact Option.some.inj (hfa.symm.trans hfb)

theorem Sound.add (h : Sound m) {index : InsertionMap String String}
    (hnever : ∀ key, m.byIdempotencyKey.get key ≠ some job.id)
    (hindex : ∀ key, index.get key = if job.idempotencyKey = some key then some job.id
        else m.byIdempotencyKey.get key)
    (hkey : ∀ key, job.idempotencyKey = some key → key ≠ "" ∧ m.findByKey key = none)
    (hrun : inYears job.runAt = true) (hcreated : inYears job.createdAt = true)
    (hdone : job.completedAt = none) : Sound ({ m with byIdempotencyKey := index }.put job) where
  years id other hget := by
    rcases get_put_cases hget with ⟨-, rfl⟩ | hget
    · exact ⟨hrun, hcreated⟩
    · exact h.years id other hget
  unfinished id other hget := by
    rcases get_put_cases hget with ⟨-, rfl⟩ | hget
    · exact fun _ => hdone
    · exact h.unfinished id other hget
  keyed id other key hget hother := by
    show key ≠ "" ∧ index.get key = some id
    rw [get_put] at hget
    rw [hindex]
    by_cases hid : job.id = id
    · rw [if_pos hid] at hget
      rw [← Option.some.inj hget] at hother
      rw [if_pos hother, hid]
      exact ⟨(hkey key hother).1, rfl⟩
    rw [if_neg hid] at hget
    have hold := h.keyed id other key hget hother
    by_cases hsame : job.idempotencyKey = some key
    · -- the key would have found the other job
      have hnone := (hkey key hsame).2
      have hid' := m.keyed id other hget
      rw [(h.findByKey_iff key other).mpr ⟨mem_values_iff.mpr (hid' ▸ hget), hother⟩] at hnone
      cases hnone
    rw [if_neg hsame]
    exact hold
  indexed key id other hget' hget := by
    have hget' : index.get key = some id := hget'
    rw [hindex] at hget'
    rw [get_put] at hget
    by_cases hid : job.id = id
    · rw [if_pos hid] at hget
      cases hget
      by_contra hne
      rw [if_neg hne, ← hid] at hget'
      exact hnever key hget'
    rw [if_neg hid] at hget
    by_cases hsame : job.idempotencyKey = some key
    · rw [if_pos hsame] at hget'
      exact absurd (Option.some.inj hget') hid
    rw [if_neg hsame] at hget'
    exact h.indexed key id other hget' hget

end Invariant

/-! ## The order of jobs -/

/-- Texts of years with four digits sort as the instants do. -/
theorem isoLe_of_inYears {a b : Int} (ha : inYears a = true)
    (hb : inYears b = true) : isoLe a b = decide (a ≤ b) := by
  rw [inYears, Bool.and_eq_true, decide_eq_true_eq, decide_eq_true_eq] at ha hb
  have hlead : ∀ {ms : Int}, 1 ≤ isoYear ms ∧ isoYear ms ≤ 9999 → isoLead ms = 2 := by
    intro ms h
    rw [isoLead, if_neg (by omega), if_neg (by omega)]
  rw [isoLe, hlead ha, hlead hb, if_neg (by decide), if_neg (fun h => absurd h.1 (by decide))]

theorem rowLe_iff (a b : JobRow) : rowLe a b = true ↔ a.runAt < b.runAt
      ∨ a.runAt = b.runAt ∧ a.createdAt ≤ b.createdAt := by
  rw [rowLe, Bool.or_eq_true, Bool.and_eq_true, decide_eq_true_eq,
    decide_eq_true_eq, decide_eq_true_eq]

theorem dueLe_iff_rowLe {a b : Job} (ha : inYears a.runAt = true ∧ inYears a.createdAt = true)
    (hb : inYears b.runAt = true ∧ inYears b.createdAt = true) :
    dueLe a b = true ↔ rowLe (toRow a) (toRow b) = true := by
  rw [rowLe_iff, dueLe, isoLe_of_inYears ha.1 hb.1, isoLe_of_inYears ha.2 hb.2]
  show _ ↔ a.runAt < b.runAt ∨ a.runAt = b.runAt ∧ a.createdAt ≤ b.createdAt
  split
  · rw [decide_eq_true_eq]
    omega
  rw [decide_eq_true_eq]
  omega

instance : Std.Total (fun a b : JobRow => rowLe a b = true) where
  total a b := by
    rw [rowLe_iff, rowLe_iff]
    omega

instance : IsTrans JobRow (fun a b => rowLe a b = true) where
  trans a b c := by
    rw [rowLe_iff, rowLe_iff, rowLe_iff]
    omega

instance : Std.Total (fun a b : JobRow => b.createdAt ≤ a.createdAt) where
  total a b := le_total b.createdAt a.createdAt

instance : IsTrans JobRow (fun a b => b.createdAt ≤ a.createdAt) where
  trans _ _ _ hab hbc := hbc.trans hab

/-- Without ties, the order in which rows are read does not matter. -/
theorem insertionSort_read {α : Type} {r : α → α → Prop} [DecidableRel r]
    [Std.Total r] [IsTrans α r] {l l' : List α} (hperm : l'.Perm l)
    (hties : ∀ a ∈ l, ∀ b ∈ l, r a b → r b a → a = b) : l'.insertionSort r = l.insertionSort r := by
  refine Perm.eq_of_pairwise ?_ (pairwise_insertionSort r l') (pairwise_insertionSort r l) ?_
  · intro a b ha hb hab hba
    refine hties a ?_ b ((mem_insertionSort r).mp hb) hab hba
    exact hperm.mem_iff.mp ((mem_insertionSort r).mp ha)
  · exact (perm_insertionSort r l').trans (hperm.trans (perm_insertionSort r l).symm)

section Order

variable {m : MemoryJobStore} {t : JobTable}

theorem eq_of_id {a b : Job} (ha : a ∈ m.jobs.values) (hb : b ∈ m.jobs.values)
    (h : a.id = b.id) : a = b := by
  have hga := mem_values_iff.mp ha
  rw [h, mem_values_iff.mp hb] at hga
  exact (Option.some.inj hga).symm

theorem rowDue_toRow (now : Int) (types : Option (List String)) (job : Job) :
    rowDue now types (toRow job) = isDue now types job := by
  simp only [rowDue, isDue, toRow]
  rw [Bool.and_comm]
  congr 1
  cases job.status with
  | queued => rfl
  | running =>
    simp only
    cases job.lockedUntil with
    | none => rfl
    | some ms =>
      simp only [Option.map_some, Option.any_some]
      rw [decide_eq_decide]
      omega
  | succeeded => rfl
  | dead => rfl

/-- **THE NEXT JOB**: both stores take the same one. -/
theorem nextDue_toRow (hm : Matches m t) (hs : Sound m) (scan : Scan)
    (hties : ∀ a ∈ m.jobs.values, ∀ b ∈ m.jobs.values,
      a.runAt = b.runAt → a.createdAt = b.createdAt → a.id = b.id)
    (now : Int) (types : Option (List String)) :
    t.nextDue scan.read now types = (m.nextDue now types).map toRow := by
  have hyears : ∀ job ∈ m.jobs.values, inYears job.runAt = true ∧ inYears job.createdAt = true :=
    fun job hmem => hs.years job.id job (mem_values_iff.mp hmem)
  have hrows : t.rows.filter (rowDue now types)
      = (m.jobs.values.filter (isDue now types)).map toRow := by
    rw [hm, filter_map]
    congr 1
    refine filter_congr ?_
    intro job _
    exact rowDue_toRow now types job
  have hsort : ((scan.read t.rows).filter (rowDue now types)).insertionSort
        (fun a b => rowLe a b = true)
      = (t.rows.filter (rowDue now types)).insertionSort (fun a b => rowLe a b = true) := by
    refine insertionSort_read ((scan.perm t.rows).filter _) ?_
    rw [hrows]
    intro a ha b hb hab hba
    obtain ⟨ja, hja, rfl⟩ := mem_map.mp ha
    obtain ⟨jb, hjb, rfl⟩ := mem_map.mp hb
    have hma := (mem_filter.mp hja).1
    have hmb := (mem_filter.mp hjb).1
    rw [rowLe_iff] at hab hba
    simp only [toRow] at hab hba
    rw [eq_of_id hma hmb (hties ja hma jb hmb (by omega) (by omega))]
  rw [JobTable.nextDue, nextDue, hsort, hrows, ← head?_map,
    map_insertionSort (fun a b : Job => dueLe a b = true)
      (fun a b : JobRow => rowLe a b = true)]
  intro a ha b hb
  exact dueLe_iff_rowLe (hyears a (mem_filter.mp ha).1) (hyears b (mem_filter.mp hb).1)

end Order

end Jobs
