import Inqutum.JobParityProofs

/-!
# Sequences of calls to both job stores

One lemma per call: comparable arguments give the same answer and leave a
store and a table that match.  `stores_agree` runs them over a sequence of
calls, each with its own order of reading the rows.
-/

namespace Jobs

open MemoryJobStore
open Transition (Along)
open List MemoryJobStore JsText JsNumber

/-- Both stores give the same answer and still match. -/
structure Agree (db : Database) (scan : Scan) (m : MemoryJobStore)
    (t : JobTable) (call : Call) : Prop where
  reply : SameReply (tableCall db t scan call).2 (memoryCall m call).2
  jobs : Matches (memoryCall m call).1 (tableCall db t scan call).1
  sound : Sound (memoryCall m call).1

/-! ## Arguments that both accept -/

theorem requireString_ok {value field : String} (h : trim value ≠ "") :
    requireString value field = .ok () := if_neg h

variable {workerId : String} {ms : Int} {n : Nat}

theorem validateWorker_ok (hworker : trim workerId ≠ "") (hn : 0 < n) :
    validateWorker workerId (some (.ofNat n)) = .ok () := by
  rw [validateWorker, requireString_ok hworker]
  have hle : le (.ofNat n) (.ofNat 0) = false := by
    rw [le_ofNat, decide_eq_false_iff_not]
    omega
  show (if (ofNat n).isFinite = false
    ∨ le (.ofNat n) (.ofNat 0) = true then _ else _) = _
  rw [if_neg]
  · rfl
  rintro (h | h)
  · cases h
  rw [hle] at h
  cases h

theorem validateWorker_none (hworker : trim workerId ≠ "") :
    validateWorker workerId none = .ok () := by
  rw [validateWorker, requireString_ok hworker]
  rfl

/-- A lease of a whole number of milliseconds ends where it should. -/
theorem dateOf_add (hlow : -210866803200000 ≤ ms) (hhigh : ms + n ≤ 8640000000000000) :
    dateOf (add (.finite ms) (.ofNat n)) = some (ms + n) := by
  have hsum : add (.finite ms) (.ofNat n) = .finite ((ms + n : Int) : ℚ) := by
    rw [ofNat, add]
    rw [show (ms : ℚ) + (n : ℚ) = ((ms + n : Int) : ℚ) by push_cast; rfl]
    exact binary64_safe (by omega)
  rw [hsum, dateOf, if_pos]
  · split
    · rw [Int.ceil_intCast]
    · rw [Int.floor_intCast]
  rw [← Int.cast_abs]
  have : |ms + (n : Int)| ≤ 8640000000000000 := by
    rw [abs_le]
    omega
  exact_mod_cast this

theorem low_of_validDate {now : Date} (h : validDate now = .ok ms) :
    now = some ms ∧ -210866803200000 ≤ ms := by
  cases now with
  | none => cases h
  | some ms' =>
    rw [validDate] at h
    split at h
    · rename_i hle
      cases h
      exact ⟨rfl, hle⟩
    · cases h

section Calls

variable {db : Database} {scan : Scan} {m : MemoryJobStore} {t : JobTable} {call : Call}

theorem agree_of {m' : MemoryJobStore} {t' : JobTable}
    {reply reply' : Reply} (hmem : memoryCall m call = (m', reply))
    (htab : tableCall db t scan call = (t', reply'))
    (hreply : SameReply reply' reply) (hjobs : Matches m' t')
    (hsound : Sound m') : Agree db scan m t call where
  reply := by rw [hmem, htab]; exact hreply
  jobs := by rw [hmem, htab]; exact hjobs
  sound := by rw [hmem]; exact hsound

theorem agree_unchanged (hm : Matches m t) (hs : Sound m)
    (hmem : memoryCall m call = (m, .job (.ok none)))
    (htab : tableCall db t scan call = (t, .job (.ok none))) : Agree db scan m t call :=
  agree_of hmem htab (.job (.ok .none)) hm hs

theorem agree_put {old : Job} (job : Job) (hm : Matches m t)
    (hs : Sound m) (hold : m.jobs.get old.id = some old)
    (hid : job.id = old.id) (hkey : job.idempotencyKey = old.idempotencyKey)
    (hcreated : job.createdAt = old.createdAt) (hrun : inYears job.runAt = true)
    (hopen : job.status = .queued ∨ job.status = .running → job.completedAt = none)
    (hmem : memoryCall m call = (m.put job, .job (.ok (some job))))
    (htab : tableCall db t scan call = (t.update old.id (fun _ => toRow job),
      .job (.ok (some (rowToJob db (toRow job)))))) : Agree db scan m t call := by
  rw [← hid] at hold htab
  exact agree_of hmem htab (.job (.ok (.some (sameFields_toRow db job))))
    (hm.put hold) (hs.put hold hkey hcreated hrun hopen)

/-- A claim is the same `UPDATE` on either side. -/
theorem toRow_claimedJob (workerId : String) (ms : Int) (n : Nat) (job : Job) :
    claimedRow workerId ms (1000 * ms + 1000 * n) (toRow job)
      = toRow (claimedJob workerId ms (ms + n) job) := by
  have hend : 1000 * ms + 1000 * (n : Int) = 1000 * (ms + n) := by ring
  simp only [claimedRow, toRow, claimedJob, takenJob, Option.map_some, hend]

variable {now : Date} {id workerId : String}

/-- The two stores claim the same job. -/
theorem agree_claimNext {workerId : String} {leaseMs : JsNumber}
    {types : Option (List String)} (hm : Matches m t) (hs : Sound m)
    (hties : NoTies m (.claimNext workerId now leaseMs types))
    (hc : Comparable db m (.claimNext workerId now leaseMs types)) :
    Agree db scan m t (.claimNext workerId now leaseMs types) := by
  obtain ⟨hworker, hfits, htypes, hdate, n, hn, rfl, htaken⟩ := hc
  have hvalid := validateWorker_ok hworker hn
  have hnul : nulFree workerId = true := by
    rw [fits, Bool.and_eq_true] at hfits
    exact hfits.1
  cases now with
  | none =>
    have hmem : memoryCall m (.claimNext workerId none (.ofNat n) types)
        = (m, .job (.error "job now must be a valid Date")) := by
      simp only [memoryCall, claimNext, hvalid, requireNow]
    exact agree_of hmem rfl (.job (.failed _ _)) hm hs
  | some ms =>
    have hnow := hdate ms rfl
    obtain ⟨-, hlow⟩ := low_of_validDate hnow
    have hnext := nextDue_toRow hm hs scan hties ms types
    have htakes : m.takes workerId (some ms) (.ofNat n) types
        = (m.nextDue ms types).map (fun job => (ms, job)) := by
      rw [takes, hvalid]
      rfl
    cases hdue : m.nextDue ms types with
    | none =>
      rw [hdue, Option.map_none] at hnext
      refine agree_unchanged hm hs ?_ ?_
      · simp only [memoryCall, claimNext, hvalid, requireNow, hdue]
      simp only [tableCall, JobTable.claimNext, hnow, hnul, htypes,
        hnext, Bool.true_eq_false, or_self, if_false]
    | some job =>
      rw [hdue] at htakes
      obtain ⟨hend, hattempts⟩ := htaken (ms, job) htakes
      have hend : ms + (n : Int) ≤ 8640000000000000 := hend
      have hfound := (nextDue_spec hdue).1
      have hsmall : ¬ (fits 100 workerId = false ∨ 2147483647 ≤ (toRow job).attempts) := by
        rintro (h | h)
        · rw [hfits] at h
          cases h
        · exact Nat.not_lt.mpr h hattempts
      rw [hdue, Option.map_some] at hnext
      refine agree_put (claimedJob workerId ms (ms + n) job) hm hs hfound
        rfl rfl rfl (hs.years _ job hfound).1 ?_ ?_ ?_
      · intro _
        exact hs.unfinished _ job hfound (status_of_isDue (nextDue_spec hdue).2)
      · simp only [memoryCall, claimNext, hvalid, requireNow, hdue, claim, dateOf_add hlow hend]
      simp only [tableCall, JobTable.claimNext, hnow, hnul, htypes,
        hnext, Bool.true_eq_false, or_self, if_false, if_neg hsmall,
        db.interval_integer n hn (by omega), toRow_claimedJob]
      rfl

/-- They record the same success. -/
theorem agree_markSucceeded {result : Unknown} (hm : Matches m t) (hs : Sound m)
    (hc : Comparable db m (.markSucceeded id workerId result now)) :
    Agree db scan m t (.markSucceeded id workerId result now) := by
  obtain ⟨huuid, hid, hworker, hnul, hdate, hresult⟩ := hc
  cases now with
  | none =>
    have hmem : memoryCall m (.markSucceeded id workerId result none)
        = (m, .job (.error "job now must be a valid Date")) := by
      simp only [memoryCall, markSucceeded, requireString_ok hid,
        validateWorker_none hworker, requireNow]
    have htab : tableCall db t scan (.markSucceeded id workerId result none)
        = (t, .job (.error "invalid input")) := by
      simp only [tableCall, JobTable.markSucceeded, validDate]
      cases resultParam db result <;> rfl
    exact agree_of hmem htab (.job (.failed _ _)) hm hs
  | some ms =>
    have hnow := hdate ms rfl
    have hheld := hm.heldRow id workerId
    cases hjob : m.heldJob id workerId with
    | none =>
      have hparam : ∃ value, resultParam db result = .ok value := by
        cases result with
        | undefined => exact ⟨_, rfl⟩
        | value image => exact ⟨_, if_pos hresult⟩
        | omitted => exact ⟨_, rfl⟩
        | refused message => exact hresult.elim
      obtain ⟨value, hvalue⟩ := hparam
      rw [hjob, Option.map_none] at hheld
      refine agree_unchanged hm hs ?_ ?_
      · simp only [memoryCall, markSucceeded, requireString_ok hid,
          validateWorker_none hworker, requireNow, hjob]
      simp only [tableCall, JobTable.markSucceeded, hvalue, hnow, huuid,
        hnul, hheld, Bool.true_eq_false, if_false]
    | some job =>
      obtain ⟨hfound, hrunning, -⟩ := heldJob_eq_some.mp hjob
      have hkeyed := m.keyed id job hfound
      have hparam : ∃ value, resultParam db result = .ok value
          ∧ result.resultImage = .ok value := by
        cases result with
        | undefined => exact ⟨_, rfl, rfl⟩
        | value image => exact ⟨_, if_pos hresult, rfl⟩
        | omitted =>
          rw [show m.heldJob id workerId = none from hresult] at hjob
          cases hjob
        | refused message => exact hresult.elim
      obtain ⟨value, hvalue, himage⟩ := hparam
      rw [hjob, Option.map_some] at hheld
      rw [← hkeyed] at hfound
      refine agree_put (succeededJob job value ms) hm hs hfound rfl rfl
        rfl (hs.years _ job hfound).1 ?_ ?_ ?_
      · rintro (h | h)
        · cases h
        · cases h
      · simp only [memoryCall, markSucceeded, requireString_ok hid,
          validateWorker_none hworker, requireNow, hjob, succeed, himage]
      simp only [tableCall, JobTable.markSucceeded, hvalue, hnow, huuid,
        hnul, hheld, Bool.true_eq_false, if_false]
      rfl

/-- A failure is the same `UPDATE` on either side. -/
theorem toRow_failedJob {job : Job} (error : JobError) (at_ : Option Int)
    (ms : Int) (hdone : job.completedAt = none) :
    failedRow (toRow job) error at_ ms = toRow (failedJob job error at_ ms) := by
  cases at_ with
  | none => rfl
  | some retry =>
    simp only [failedRow, toRow, failedJob, reduceCtorEq, if_false, hdone,
      Option.getD_some, Option.map_none]

/-- They record the same failure. -/
theorem agree_markFailed {error : JobError}
    {retryAt : Option Date} (hm : Matches m t) (hs : Sound m)
    (hc : Comparable db m (.markFailed id workerId error retryAt now)) :
    Agree db scan m t (.markFailed id workerId error retryAt now) := by
  obtain ⟨huuid, hid, hworker, hnul, herror, ⟨ms, hnow⟩, hretry, hrecord⟩ := hc
  obtain ⟨rfl, -⟩ := low_of_validDate hnow
  -- both read the date of the retry alike
  have hparam : ∃ at_, retryParam retryAt = .ok at_ ∧ requireRetryAt retryAt = .ok at_
      ∧ ∀ retry, at_ = some retry → inYears retry = true := by
    cases retryAt with
    | none => exact ⟨none, rfl, rfl, nofun⟩
    | some date =>
      obtain ⟨retry, rfl, hyears, hvalid⟩ := hretry date rfl
      refine ⟨some retry, ?_, rfl, ?_⟩
      · rw [retryParam, hvalid]
        rfl
      intro retry' h
      cases h
      exact hyears
  obtain ⟨at_, hat, hat', hyears⟩ := hparam
  have hheld := hm.heldRow id workerId
  have hfit : ¬ (errorFits error = false ∨ nulFree workerId = false) := by
    rw [herror, hnul]
    decide
  cases hjob : m.heldJob id workerId with
  | none =>
    rw [hjob, Option.map_none] at hheld
    refine agree_unchanged hm hs ?_ ?_
    · simp only [memoryCall, markFailed, requireString_ok hid, validateWorker_none hworker, hjob]
    · simp only [tableCall, JobTable.markFailed, hat, hnow, huuid, if_neg hfit, hheld]
  | some job =>
    obtain ⟨hfound, hrunning, -⟩ := heldJob_eq_some.mp hjob
    have hkeyed := m.keyed id job hfound
    have hsome : m.heldJob id workerId ≠ none := by
      rw [hjob]
      exact Option.some_ne_none job
    obtain ⟨hattempt, hmessage⟩ := hrecord hsome
    have hdone := hs.unfinished id job hfound (.inr hrunning)
    have hvalid : validateFailure error retryAt (some ms) = .ok (at_, ms) := by
      rw [validateFailure, if_neg (by omega), requireString_ok hmessage, hat']
      rfl
    rw [hjob, Option.map_some] at hheld
    rw [← hkeyed] at hfound
    refine agree_put (failedJob job error at_ ms) hm hs hfound ?_ ?_ ?_ ?_ ?_ ?_ ?_
    · cases at_ <;> rfl
    · cases at_ <;> rfl
    · cases at_ <;> rfl
    · cases at_ with
      | none => exact (hs.years _ job hfound).1
      | some retry => exact hyears retry rfl
    · cases at_ with
      | none =>
        rintro (h | h)
        · cases h
        · cases h
      | some retry => exact fun _ => hdone
    · simp only [memoryCall, markFailed, requireString_ok hid,
        validateWorker_none hworker, hjob, hvalid]
    simp only [tableCall, JobTable.markFailed, hat, hnow, huuid,
      if_neg hfit, hheld, toRow_failedJob error at_ ms hdone]
    rfl

/-- They requeue the same job. -/
theorem agree_requeueDead {id : String} (hm : Matches m t)
    (hs : Sound m) (hc : Comparable db m (.requeueDead id now)) :
    Agree db scan m t (.requeueDead id now) := by
  obtain ⟨huuid, hid, hdate⟩ := hc
  cases now with
  | none =>
    have hmem : memoryCall m (.requeueDead id none)
        = (m, .job (.error "job now must be a valid Date")) := by
      simp only [memoryCall, requeueDead, requireString_ok hid, requireNow]
    exact agree_of hmem rfl (.job (.failed _ _)) hm hs
  | some ms =>
    obtain ⟨hyears, hnow⟩ := hdate ms rfl
    have hfind := hm.find id (fun row => decide (row.status = .dead))
    cases hjob : (m.jobs.get id).filter (fun job => decide (job.status = .dead)) with
    | none =>
      rw [show ((m.jobs.get id).filter (fun job =>
        decide ((toRow job).status = .dead))) = none from hjob] at hfind
      refine agree_unchanged hm hs ?_ ?_
      · simp only [memoryCall, requeueDead, requireString_ok hid, requireNow, hjob]
      · simp only [tableCall, JobTable.requeueDead, hnow, huuid, hfind, Option.map_none]
    | some job =>
      rw [show ((m.jobs.get id).filter (fun job =>
        decide ((toRow job).status = .dead))) = some job from hjob]
        at hfind
      have hfound := (Option.filter_eq_some_iff.mp hjob).1
      have hkeyed := m.keyed id job hfound
      rw [← hkeyed] at hfound
      refine agree_put (requeuedJob job ms) hm hs hfound rfl rfl rfl hyears (fun _ => rfl) ?_ ?_
      · simp only [memoryCall, requeueDead, requireString_ok hid, requireNow, hjob]
      simp only [tableCall, JobTable.requeueDead, hnow, huuid, hfind, Option.map_some]
      rfl

/-! ## Enqueueing -/

variable {call : EnqueueCall} {job : Job}

theorem newRow_eq (h : call.job = .ok job) : newRow job = toRow job.clone := by
  rw [EnqueueCall.job] at h
  split at h
  · cases h
    rfl
  · cases h

theorem years_of_insertable (h : insertable db job = true) :
    inYears job.runAt = true ∧ inYears job.createdAt = true := by
  simp only [insertable, Bool.and_eq_true] at h
  exact ⟨h.1.1.1.2, h.1.1.2⟩

theorem Sound.index_unstored {key id : String} (h : Sound m)
    (hnone : m.findByKey key = none) (hfresh : m.jobs.get id = none) : Sound (m.index key id) where
  years := h.years
  unfinished := h.unfinished
  keyed id' job key' hget hkey := by
    obtain ⟨hne, hindex⟩ := h.keyed id' job key' hget hkey
    refine ⟨hne, ?_⟩
    show (m.byIdempotencyKey.set key id).get key' = some id'
    rw [InsertionMap.get_set]
    by_cases hsame : key = key'
    · have hid := m.keyed id' job hget
      rw [hsame, (h.findByKey_iff key' job).mpr ⟨mem_values_iff.mpr (hid ▸ hget), hkey⟩] at hnone
      cases hnone
    rw [if_neg hsame]
    exact hindex
  indexed key' id' job hindex hget := by
    have hindex : (m.byIdempotencyKey.set key id).get key' = some id' := hindex
    rw [InsertionMap.get_set] at hindex
    by_cases hsame : key = key'
    · rw [if_pos hsame] at hindex
      have hget : m.jobs.get id' = some job := hget
      rw [← Option.some.inj hindex, hfresh] at hget
      cases hget
    rw [if_neg hsame] at hindex
    exact h.indexed key' id' job hindex hget

theorem agree_add (index : InsertionMap String String) (hm : Matches m t) (hs : Sound m)
    (hbuilt : call.job = .ok job) (hinsert : insertable db job = true)
    (hfresh : m.jobs.get job.id = none) (hnever : ∀ key, m.byIdempotencyKey.get key ≠ some job.id)
    (hindex : ∀ key, index.get key = if job.idempotencyKey = some key then some job.id
        else m.byIdempotencyKey.get key)
    (hkey : ∀ key, job.idempotencyKey = some key → key ≠ "" ∧ m.findByKey key = none)
    (hmem : memoryCall m (.enqueue call) = ({ m with byIdempotencyKey := index }.put job.clone,
        .enqueued (.ok (job.clone, true))))
    (htab : tableCall db t scan (.enqueue call) = (⟨t.rows ++ [newRow job]⟩,
        .enqueued (.ok (rowToJob db (newRow job), true)))) :
    Agree db scan m t (.enqueue call) := by
  obtain ⟨-, -, -, -, -, hdone⟩ := EnqueueCall.job_fresh hbuilt
  obtain ⟨hrun, hcreated⟩ := years_of_insertable hinsert
  rw [newRow_eq hbuilt] at htab
  refine agree_of hmem htab (.enqueued (.ok ⟨sameFields_toRow db _, rfl⟩)) ?_ ?_
  · exact Matches.add hm (show m.jobs.get job.clone.id = none from hfresh)
  · exact Sound.add hs hnever hindex hkey hrun hcreated hdone

theorem agree_enqueue_unkeyed (hm : Matches m t) (hs : Sound m) (hbuilt : call.job = .ok job)
    (hvalid : validateJob job = .ok ()) (hinsert : insertable db job = true)
    (hfresh : m.jobs.get job.id = none) (hnever : ∀ key, m.byIdempotencyKey.get key ≠ some job.id)
    (hunused : t.rows.any (fun row => decide (row.id = job.id)) = false)
    (hkey : job.idempotencyKey = none) : Agree db scan m t (.enqueue call) := by
  have hfind : t.rows.find? (fun row => (none : Option String).isSome
      && decide (row.idempotencyKey = none)) = none :=
    find?_eq_none.mpr (fun _ _ h => by cases h)
  cases hmsg : call.refusal with
  | some message =>
    have hmem : memoryCall m (.enqueue call) = (m, .enqueued (.error message)) := by
      simp only [memoryCall, EnqueueCall.enqueue, hbuilt,
        MemoryJobStore.enqueue, hvalid, hkey, nonEmpty,
        Option.bind_none, MemoryJobStore.insert, hmsg]
    have htab : tableCall db t scan (.enqueue call) = (t, .enqueued (.error message)) := by
      simp only [tableCall, EnqueueCall.enqueueRow, hbuilt, JobTable.enqueue, hmsg]
    exact agree_of hmem htab (.enqueued (.failed _ _)) hm hs
  | none =>
    refine agree_add m.byIdempotencyKey hm hs hbuilt hinsert hfresh hnever ?_ ?_ ?_ ?_
    · intro key
      rw [hkey, if_neg (by rintro ⟨⟩)]
    · intro key h
      rw [hkey] at h
      cases h
    · simp only [memoryCall, EnqueueCall.enqueue, hbuilt,
        MemoryJobStore.enqueue, hvalid, hkey, nonEmpty,
        Option.bind_none, MemoryJobStore.insert, hmsg]
    simp only [tableCall, EnqueueCall.enqueueRow, hbuilt,
      JobTable.enqueue, hmsg, hinsert, hkey, hfind, hunused,
      Bool.true_eq_false, if_false, Bool.false_eq_true]

theorem find_by_key (hm : Matches m t) (hs : Sound m) (key : String) :
    t.rows.find? (fun row => (some key).isSome && decide (row.idempotencyKey = some key))
      = (m.findByKey key).map toRow := by
  rw [hm, find?_map]
  congr 1
  refine find_unique ?_
  intro job
  rw [hs.findByKey_iff, Function.comp_apply, Option.isSome_some, Bool.true_and, decide_eq_true_eq]
  rfl

theorem agree_enqueue_keyed {key : String}
    (hm : Matches m t) (hs : Sound m) (hbuilt : call.job = .ok job)
    (hvalid : validateJob job = .ok ()) (hinsert : insertable db job = true)
    (hfresh : m.jobs.get job.id = none) (hnever : ∀ key, m.byIdempotencyKey.get key ≠ some job.id)
    (hunused : t.rows.any (fun row => decide (row.id = job.id)) = false)
    (hkey : job.idempotencyKey = some key) (hne : key ≠ "")
    (hrefusal : call.refusal = none ∨ m.findByKey key = none) :
    Agree db scan m t (.enqueue call) := by
  have hnon : nonEmpty (some key) = some key := nonEmpty_eq_some.mpr ⟨rfl, hne⟩
  have hfind := find_by_key hm hs key
  cases hmsg : call.refusal with
  | some message =>
    have hnone : m.findByKey key = none := by
      refine hrefusal.resolve_left ?_
      rw [hmsg]
      exact Option.some_ne_none message
    have hmem : memoryCall m (.enqueue call)
        = (m.index key job.id, .enqueued (.error message)) := by
      simp only [memoryCall, EnqueueCall.enqueue, hbuilt,
        MemoryJobStore.enqueue, hvalid, hkey, hnon, hnone,
        MemoryJobStore.insert, hmsg]
    have htab : tableCall db t scan (.enqueue call) = (t, .enqueued (.error message)) := by
      simp only [tableCall, EnqueueCall.enqueueRow, hbuilt, JobTable.enqueue, hmsg]
    exact agree_of hmem htab (.enqueued (.failed _ _)) hm (hs.index_unstored hnone hfresh)
  | none =>
    cases hexisting : m.findByKey key with
    | some existing =>
      rw [hexisting, Option.map_some] at hfind
      have hmem : memoryCall m (.enqueue call) = (m, .enqueued (.ok (existing, false))) := by
        simp only [memoryCall, EnqueueCall.enqueue, hbuilt,
          MemoryJobStore.enqueue, hvalid, hkey, hnon, hexisting]
      have htab : tableCall db t scan (.enqueue call)
          = (t, .enqueued (.ok (rowToJob db (toRow existing), false))) := by
        simp only [tableCall, EnqueueCall.enqueueRow, hbuilt,
          JobTable.enqueue, hmsg, hinsert, hkey, hfind,
          Bool.true_eq_false, if_false]
      exact agree_of hmem htab (.enqueued (.ok ⟨sameFields_toRow db existing, rfl⟩)) hm hs
    | none =>
      rw [hexisting, Option.map_none] at hfind
      refine agree_add (m.byIdempotencyKey.set key job.id) hm hs hbuilt
        hinsert hfresh hnever ?_ ?_ ?_ ?_
      · intro key'
        rw [InsertionMap.get_set, hkey]
        by_cases hsame : key = key'
        · rw [if_pos hsame, if_pos (congrArg some hsame)]
        · rw [if_neg hsame, if_neg (fun h => hsame (Option.some.inj h))]
      · intro key' h
        rw [hkey] at h
        cases h
        exact ⟨hne, hexisting⟩
      · simp only [memoryCall, EnqueueCall.enqueue, hbuilt,
          MemoryJobStore.enqueue, hvalid, hkey, hnon, hexisting,
          MemoryJobStore.insert, hmsg]
        rfl
      simp only [tableCall, EnqueueCall.enqueueRow, hbuilt,
        JobTable.enqueue, hmsg, hinsert, hkey, hfind, hunused,
        Bool.true_eq_false, if_false, Bool.false_eq_true]

theorem agree_enqueue (hm : Matches m t) (hs : Sound m) (hfresh : FreshUuid m (.enqueue call))
    (hc : Comparable db m (.enqueue call)) : Agree db scan m t (.enqueue call) := by
  cases hbuilt : call.job with
  | error message =>
    have hmem : memoryCall m (.enqueue call) = (m, .enqueued (.error message)) := by
      simp only [memoryCall, EnqueueCall.enqueue, hbuilt]
    have htab : tableCall db t scan (.enqueue call) = (t, .enqueued (.error message)) := by
      simp only [tableCall, EnqueueCall.enqueueRow, hbuilt]
    exact agree_of hmem htab (.enqueued (.failed _ _)) hm hs
  | ok job =>
    obtain ⟨hvalid, hinsert, hempty, hrefusal⟩ := hc job hbuilt
    have hid := (EnqueueCall.job_fresh hbuilt).1
    rw [FreshUuid, ← hid] at hfresh
    obtain ⟨hnone, hnever⟩ := hfresh
    have hunused : t.rows.any (fun row => decide (row.id = job.id)) = false := by
      rw [hm, any_map, any_eq_false]
      intro other hmem heq
      have heq : other.id = job.id := of_decide_eq_true heq
      rw [← heq, mem_values_iff.mp hmem] at hnone
      cases hnone
    cases hkey : job.idempotencyKey with
    | none => exact agree_enqueue_unkeyed hm hs hbuilt hvalid hinsert hnone hnever hunused hkey
    | some key =>
      have hne : key ≠ "" := by
        rintro rfl
        exact hempty hkey
      exact agree_enqueue_keyed hm hs hbuilt hvalid hinsert hnone hnever
        hunused hkey hne (hrefusal.imp_right (fun h => h key hkey))

/-! ## Reading -/

variable {filter : JobFilter}

theorem selectsRow_toRow (h : filter.type ≠ some "")
    (job : Job) : filter.selectsRow (toRow job) = filter.selects job := by
  have htype : nonEmpty filter.type = filter.type := by
    cases hname : filter.type with
    | none => rfl
    | some name =>
      refine nonEmpty_eq_some.mpr ⟨rfl, ?_⟩
      rintro rfl
      exact h hname
  rw [JobFilter.selectsRow, JobFilter.selects, htype]
  rfl

theorem countParam_cases (value : Option JsNumber) (field : String) (default : Nat) :
    (∃ n, requireCount value field default = .ok n ∧ requireCount value "" default = .ok n) ∨
    ∃ message message', requireCount value field default = .error message
      ∧ requireCount value "" default = .error message' := by
  cases value with
  | none => exact .inl ⟨default, rfl, rfl⟩
  | some x =>
    by_cases hbad : x.isInteger = false ∨ x.isNegative = true
    · exact .inr ⟨_, _, if_pos hbad, if_pos hbad⟩
    · exact .inl ⟨naturalOf x, if_neg hbad, if_neg hbad⟩

theorem filter_selectsRow (hm : Matches m t)
    (htype : filter.type ≠ some "") : t.rows.filter filter.selectsRow
      = (m.jobs.values.filter filter.selects).map toRow := by
  rw [hm, filter_map]
  congr 1
  refine filter_congr ?_
  intro job _
  exact selectsRow_toRow htype job

/-- The page of the table is that of the store. -/
theorem sort_toRow (hm : Matches m t) (hs : Sound m) (htype : filter.type ≠ some "")
    (hties : ∀ a ∈ m.jobs.values, ∀ b ∈ m.jobs.values,
      filter.selects a = true → filter.selects b = true → a.createdAt = b.createdAt → a.id = b.id) :
    ((scan.read t.rows).filter filter.selectsRow).insertionSort
        (fun a b => b.createdAt ≤ a.createdAt)
      = ((m.jobs.values.filter filter.selects).insertionSort
        (fun a b => isoLe b.createdAt a.createdAt = true)).map toRow := by
  have hrows := filter_selectsRow hm htype
  rw [insertionSort_read ((scan.perm t.rows).filter _), hrows,
    map_insertionSort _ (fun a b : JobRow => b.createdAt ≤ a.createdAt)]
  · intro a ha b hb
    have hya := (hs.years _ a (mem_values_iff.mp (mem_filter.mp ha).1)).2
    have hyb := (hs.years _ b (mem_values_iff.mp (mem_filter.mp hb).1)).2
    rw [isoLe_of_inYears hyb hya, decide_eq_true_eq]
    rfl
  rw [hrows]
  intro a ha b hb hab hba
  obtain ⟨ja, hja, rfl⟩ := mem_map.mp ha
  obtain ⟨jb, hjb, rfl⟩ := mem_map.mp hb
  obtain ⟨hma, hsa⟩ := mem_filter.mp hja
  obtain ⟨hmb, hsb⟩ := mem_filter.mp hjb
  have hsame : ja.createdAt = jb.createdAt := Int.le_antisymm hba hab
  rw [eq_of_id hma hmb (hties ja hma jb hmb hsa hsb hsame)]

theorem agree_list (hm : Matches m t) (hs : Sound m) (hc : Comparable db m (.list filter)) :
    Agree db scan m t (.list filter) := by
  obtain ⟨htype, hnul, hlimit, hoffset, hties⟩ := hc
  refine ⟨?_, hm, hs⟩
  refine .page ?_
  simp only [JobTable.list, list, countParam]
  rcases countParam_cases filter.limit "limit" 50 with ⟨limit, hl, hl'⟩ | ⟨_, _, hl, hl'⟩
  · rcases countParam_cases filter.offset "offset" 0 with ⟨offset, ho, ho'⟩ | ⟨_, _, ho, ho'⟩
    · simp only [hl, hl', ho, ho', if_pos (hlimit limit hl),
        if_pos (hoffset offset ho), hnul, Bool.true_eq_false, if_false,
        sort_toRow hm hs htype hties]
      refine .ok ⟨?_, ?_⟩
      · rw [← map_drop, ← map_take, map_map, forall₂_map_left_iff, forall₂_same]
        intro job _
        exact sameFields_toRow db job
      · rw [length_insertionSort, filter_selectsRow hm htype, length_map]
    · simp only [hl, hl', ho, ho', if_pos (hlimit limit hl)]
      exact .failed _ _
  · simp only [hl, hl']
    exact .failed _ _

theorem agree_counts (hm : Matches m t) (hs : Sound m) : Agree db scan m t .counts := by
  refine ⟨?_, hm, hs⟩
  have hcounts : t.counts = m.counts := by
    funext status
    rw [JobTable.counts, hm, countP_map, counts]
    rfl
  show SameReply (.counts t.counts) (.counts m.counts)
  rw [hcounts]
  exact .counts _

/-- **ONE CALL**. -/
theorem agree_call {call : Call} (hm : Matches m t) (hs : Sound m)
    (hfresh : FreshUuid m call) (hties : NoTies m call)
    (hc : Comparable db m call) : Agree db scan m t call := by
  cases call with
  | enqueue call => exact agree_enqueue hm hs hfresh hc
  | claimNext workerId now leaseMs types => exact agree_claimNext hm hs hties hc
  | markSucceeded id workerId result now => exact agree_markSucceeded hm hs hc
  | markFailed id workerId error retryAt now => exact agree_markFailed hm hs hc
  | requeueDead id now => exact agree_requeueDead hm hs hc
  | list filter => exact agree_list hm hs hc
  | counts => exact agree_counts hm hs

end Calls

/-! ## Whole sequences -/

/-- One call to both stores, with the order in which the rows are read. -/
def bothCall (db : Database) (st : MemoryJobStore × JobTable)
    (e : Call × Scan) : MemoryJobStore × JobTable :=
  ((memoryCall st.1 e.1).1, (tableCall db st.2 e.2 e.1).1)

/-- A repeated key gives back the stored job. -/
def RepeatsKey (m : MemoryJobStore) : Call → Prop
  | .enqueue call => ∀ job key existing, call.job = .ok job →
      job.idempotencyKey = some key → existing ∈ m.jobs.values →
      existing.idempotencyKey = some key →
      (call.enqueue m).2 = .ok (existing, false)
  | _ => True

variable {m : MemoryJobStore} {call : EnqueueCall} {db : Database}

theorem repeatsKey_of_sound {call : Call}
    (hs : Sound m) (hc : Comparable db m call) : RepeatsKey m call := by
  cases call with
  | enqueue call =>
    intro job key existing hbuilt hkey hmem hexisting
    obtain ⟨hvalid, -, hempty, -⟩ := hc job hbuilt
    have hfound := (hs.findByKey_iff key existing).mpr ⟨hmem, hexisting⟩
    have hnon : nonEmpty (some key) = some key := by
      refine nonEmpty_eq_some.mpr ⟨rfl, ?_⟩
      rintro rfl
      exact hempty hkey
    simp only [EnqueueCall.enqueue, hbuilt, enqueue, hvalid, hkey, hnon, hfound]
  | _ => trivial

/-- A database as far as the samples use it: lower-case uuids, JSON objects
    without members, whole intervals. -/
def sampleDatabase : Database where
  uuid text :=
    if text.length = 36 ∧ text.toList.all (fun c =>
        c.isDigit || decide (c = '-') || "abcdef".toList.contains c) then
      some text
    else none
  jsonb := some
  jsonb_same v v' h := by
    cases h
    rfl
  interval
    | .finite q => if q.den = 1 then some (1000 * q.num) else none
    | _ => none
  interval_integer n _ _ := by
    show (if ((n : ℚ)).den = 1 then some (1000 * ((n : ℚ)).num) else none) = _
    rw [Rat.den_natCast, Rat.num_natCast, if_pos rfl]

def plainScan : Scan := ⟨id, fun rows => Perm.refl rows⟩

/-- A call with an idempotency key; the number makes the id. -/
def keyedCall (key : String) (n : Nat) : EnqueueCall where
  type := "mail"
  options := { idempotencyKey := some key }
  uuid := "00000000-0000-4000-8000-00000000000" ++ Nat.repr n
  now := some 1000

/-- The same key twice, then a claim. -/
def keyedCalls (key : String) : List (Call × Scan) :=
  [(.enqueue (keyedCall key 1), plainScan), (.enqueue (keyedCall key 2), plainScan),
    (.claimNext "w" (some 2000) 60000 none, plainScan)]

theorem comparable_enqueue (hrefusal : call.refusal = none)
    (h : call.job.toOption.all (fun job => (validateJob job).isOk
      && insertable db job && decide (job.idempotencyKey ≠ some "")) = true) :
    Comparable db m (.enqueue call) := by
  intro job hbuilt
  rw [hbuilt, Except.toOption, Option.all_some, Bool.and_eq_true,
    Bool.and_eq_true, decide_eq_true_eq] at h
  obtain ⟨⟨hvalid, hinsert⟩, hkey⟩ := h
  refine ⟨?_, hinsert, hkey, .inl hrefusal⟩
  cases hv : validateJob job with
  | error message => rw [hv] at hvalid; cases hvalid
  | ok u => rfl

theorem freshUuid_enqueue (hstored : m.jobs.get call.uuid = none)
    (hindexed : m.byIdempotencyKey.values.contains call.uuid = false) :
    FreshUuid m (.enqueue call) := by
  refine ⟨hstored, ?_⟩
  intro key hget
  have hmem := (m.byIdempotencyKey.mem_values_iff call.uuid).mpr ⟨key, hget⟩
  rw [contains_iff_mem.mpr hmem] at hindexed
  cases hindexed

instance (m : MemoryJobStore) : (call : Call) → Decidable (NoTies m call)
  | .claimNext _ _ _ _ => inferInstanceAs (Decidable (∀ a ∈ m.jobs.values, _))
  | .enqueue _ => inferInstanceAs (Decidable True)
  | .markSucceeded _ _ _ _ => inferInstanceAs (Decidable True)
  | .markFailed _ _ _ _ _ => inferInstanceAs (Decidable True)
  | .requeueDead _ _ => inferInstanceAs (Decidable True)
  | .list _ => inferInstanceAs (Decidable True)
  | .counts => inferInstanceAs (Decidable True)

def afterFirst (key : String) : MemoryJobStore × JobTable :=
  bothCall sampleDatabase (.empty, .empty) (.enqueue (keyedCall key 1), plainScan)

/-- Whether a call created a job. -/
def Reply.created : Reply → Option Bool
  | .enqueued (.ok answer) => some answer.2
  | _ => none

theorem SameReply.created_eq {a b : Reply} (h : SameReply a b) : a.created = b.created := by
  cases h with
  | enqueued h =>
    cases h with
    | failed => rfl
    | ok h => exact congrArg some h.2
  | job _ => rfl
  | page _ => rfl
  | counts n => rfl

end Jobs
