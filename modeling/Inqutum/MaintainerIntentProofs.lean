import Inqutum.ReceiptChainProofs

/-!
# What a maintainer intent leaves behind

An intent's executor runs once at most, and only with a second approver
where one is needed; both hold in every run (`Coherent`).  An intent that
has ended has one receipt, of its own outcome, and the outcome is
`succeeded` exactly if the executor's promise was resolved: this holds as
long as every receipt can be issued (`kept_iff`).

The receipt of a success is issued inside the `try` that decides between
success and failure.  A promise resolved with a value JSON cannot write is
therefore recorded as a failure (`resolved_recorded_failed`).

`Turns` says once what a step can do; the invariants are derived from
it.
-/

namespace Approval

open Canonical
open JsonText (Text ascii)
open List Service World

/-! ## The statement -/

/-- The outcome an intent has ended with. -/
def IntentStatus.outcome : IntentStatus → Option ReceiptOutcome
  | succeeded => some .succeeded
  | failed => some .failed
  | rejected => some .rejected
  | expired => some .expired
  | _ => none

def outcomesOf (receipts : List IntentReceipt) (id : Text) :
    List ReceiptOutcome :=
  (receipts.filter (fun r => decide (r.intentId = id))).map (fun r => r.outcome)

def Gated (host : Host) (approvals : List (Text × Text)) (intent : MaintainerIntent) : Prop :=
  ∃ spec, host.spec intent.action = some spec ∧ (needsSecondApprover spec intent = true →
        ∃ approver, approver ≠ intent.requestedBy ∧ (intent.id, approver) ∈ approvals)

/-- What is claimed of every state. -/
structure Kept (host : Host) (w : World) : Prop where
  once : (w.ran.map MaintainerIntent.id).Nodup
  gated : ∀ intent ∈ w.ran, Gated host w.approvals intent
  receipts : ∀ id intent outcome, w.service.intents.get id = some intent →
    intent.status.outcome = some outcome →
    outcomesOf w.service.receipts id = [outcome]
  resolved : ∀ id, .succeeded ∈ outcomesOf w.service.receipts id ↔ id ∈ w.resolved

/-- The identifiers drawn for intents are new. -/
def Fresh (w : World) : Event → Prop
  | .requestIntent _ draw => w.service.intents.get draw.uuid = none
  | _ => True

/-- A method finds the intent open. -/
def Finds (host : Host) (w : World) (id : Text) (intent : MaintainerIntent) :
    Prop :=
  w.service.intents.get id = some intent
    ∧ host.verifyIntent intent = .ok true ∧ intent.status.isOpen = true

/-- A promise is settled with a value that JSON can write, or with an error
    that has a text. -/
def Writable : Except Fault Resolved → Prop
  | .ok result => result.copy.isOk = true
  | .error fault => fault.message.isSome = true

/-- The receipt a step has to issue can be issued. -/
def Issuable (host : Host) (w : World) : Event → Prop
  | .registerExecutor _ => True
  | .requestIntent input draw => ∀ intent, declare host input draw = .ok intent →
      intent.blockedBy.isSome = true → draw.stamp.now.isSome = true
  | .approve id _ now stamp => ∀ intent, Finds host w id intent →
      lapsed intent now = true → stamp.now.isSome = true
  | .execute id _ now stamp => ∀ intent, Finds host w id intent →
      lapsed intent now = true → stamp.now.isSome = true
  | .reject id _ _ _ stamp => ∀ intent, Finds host w id intent → stamp.now.isSome = true
  | .settle k outcome first _ => (w.waiting[k]?).isSome = true →
      Writable outcome ∧ first.now.isSome = true

/-! ## Ending an intent -/

section Ending

variable {host : Host} {s : Service}

/-- One intent is stored, and receipts are issued. -/
structure Updated (s s' : Service) (intent : MaintainerIntent)
    (issued : List IntentReceipt) : Prop where
  get : ∀ id, s'.intents.get id = if intent.id = id then some intent else s.intents.get id
  receipts : s'.receipts = s.receipts ++ issued

theorem updated_store (intent : MaintainerIntent) : Updated s (s.store intent) intent [] where
  get id := InsertionMap.get_set s.intents intent.id intent id
  receipts := (append_nil s.receipts).symm

/-- The receipts an end leaves: one if it can be issued. -/
def Issues (due : Prop) (id : Text) (outcome : ReceiptOutcome)
    (issued : List IntentReceipt) : Prop :=
  (due ∧ ∃ r, issued = [r] ∧ r.intentId = id ∧ r.outcome = outcome) ∨ (¬ due ∧ issued = [])

theorem bind_isOk {ε α β : Type} (x : Except ε α) (f : α → Except ε β)
    (h : ∀ a, x = .ok a → (f a).isOk = true) : (x >>= f).isOk = x.isOk := by
  cases x with
  | error fault => rfl
  | ok a => exact h a rfl

theorem validDate_isOk (now : Option Int) : (validDate now).isOk = now.isSome := by
  cases now <;> rfl

theorem prevReceiptHash_isOk (h : Genuine host s.receipts) :
    (s.prevReceiptHash host).isOk = true := by
  rw [prevReceiptHash]
  cases hlast : s.receipts.getLast? with
  | none => rfl
  | some last =>
    obtain ⟨text, htext⟩ := (h.chained.2 last (mem_of_getLast? hlast)).hashable
    show ((host.receiptHash last).map some).isOk = true
    rw [receiptHash_eq htext]
    rfl

/-- **WHEN A RECEIPT CAN BE ISSUED**: its result must go through JSON and its
    date must be valid. -/
theorem issueReceipt_isOk (hgenuine : Genuine host s.receipts) {intent : MaintainerIntent}
    (hrisk : writable host.engine (riskValue intent.risk) = true)
    (outcome : ReceiptOutcome) (executedBy : Option Text) (result : Resolved)
    (error : Option Text) (stamp : Stamp) :
    (s.issueReceipt host intent outcome executedBy result error stamp).isOk
      = (result.copy.isOk && stamp.now.isSome) := by
  have hpayload : ∀ copy issuedAt prev, (host.receiptPayload
        { id := stamp.uuid, intentId := intent.id, action := intent.action
          target := intent.target, reason := intent.reason
          requestedBy := intent.requestedBy, approvedBy := intent.approvedBy
          executedBy := executedBy, paramsHash := intent.paramsHash
          outcome := outcome, result := copy, error := error
          intentSignature := intent.signature, risk := intent.risk
          issuedAt := issuedAt, prevReceiptHash := prev }).isOk = true := by
    intro copy issuedAt prev
    rw [Host.receiptPayload, canonicalJson_isOk, serialize_obj_isOk]
    simp only [ReceiptBody.members, all_cons, all_nil,
      writable_nullable, writable_copy, hrisk, Bool.and_true]
    rfl
  rw [← validDate_isOk, issueReceipt]
  cases result.copy with
  | error fault => rfl
  | ok copy =>
    cases validDate stamp.now with
    | error fault => rfl
    | ok issuedAt =>
      show (s.prevReceiptHash host >>= _).isOk = true
      rw [bind_isOk _ _ ?_, prevReceiptHash_isOk hgenuine]
      intro prev _
      rw [bind_isOk _ _ (fun _ _ => rfl)]
      exact hpayload copy issuedAt prev

variable {issued : List IntentReceipt} {intent : MaintainerIntent} {outcome : ReceiptOutcome}
  {id : Text}

/-- **AN INTENT ENDS**: its status is set, and its receipt is issued if that
    can be done. -/
theorem updated_close (hgenuine : Genuine host s.receipts)
    (hrisk : writable host.engine (riskValue intent.risk) = true)
    (outcome : ReceiptOutcome) (executedBy : Option Text) (result : Resolved)
    (error : Option Text) (stamp : Stamp) :
    ∃ issued, Updated s (s.close host intent outcome executedBy result error stamp).2
        (intent.withStatus outcome.status) issued
      ∧ Issues (result.copy.isOk = true ∧ stamp.now.isSome = true) intent.id outcome issued
      ∧ ((s.close host intent outcome executedBy result error stamp).1.isOk
          = (result.copy.isOk && stamp.now.isSome)) := by
  have hisOk := @issueReceipt_isOk host (s.store (intent.withStatus outcome.status)) hgenuine
    (intent.withStatus outcome.status) hrisk outcome executedBy result error
    stamp
  rw [close]
  cases hissue : (s.store (intent.withStatus outcome.status)).issueReceipt
      host (intent.withStatus outcome.status) outcome executedBy result error
      stamp with
  | error fault =>
    rw [hissue] at hisOk
    refine ⟨[], updated_store _, .inr ⟨?_, rfl⟩, hisOk⟩
    rintro ⟨hcopy, hnow⟩
    rw [hcopy, hnow] at hisOk
    cases hisOk
  | ok pair =>
    obtain ⟨r, s'⟩ := pair
    rw [hissue] at hisOk
    obtain ⟨-, hid, houtcome, rfl⟩ := issueReceipt_ok hissue
    refine ⟨[r], ⟨(updated_store _).get, rfl⟩, .inl ⟨?_, r, rfl, hid, houtcome⟩, hisOk⟩
    have hboth : (result.copy.isOk && stamp.now.isSome) = true := hisOk.symm
    exact Bool.and_eq_true_iff.mp hboth

theorem Issues.congr {due due' : Prop} (h : Issues due id outcome issued)
    (hiff : due ↔ due') : Issues due' id outcome issued :=
  h.imp (And.imp_left hiff.mp) (And.imp_left (mt hiff.mpr))

def OneReceipt (id : Text) (outcome : ReceiptOutcome) (issued : List IntentReceipt) : Prop :=
  ∃ r, issued = [r] ∧ r.intentId = id ∧ r.outcome = outcome

/-- The outcome a settled promise should leave. -/
def dueOutcome : Except Fault Resolved → ReceiptOutcome
  | .ok _ => .succeeded
  | .error _ => .failed

/-- What a settled promise leaves: its own outcome and a receipt, if that can
    be issued; else a failure, with a receipt at most where the promise was
    resolved. -/
def Leaves (settlement : Except Fault Resolved) (first : Stamp) (id : Text)
    (outcome : ReceiptOutcome) (issued : List IntentReceipt) : Prop :=
  ((Writable settlement ∧ first.now.isSome = true)
      ∧ outcome = dueOutcome settlement ∧ OneReceipt id outcome issued)
    ∨ (¬ (Writable settlement ∧ first.now.isSome = true) ∧ outcome = .failed
      ∧ (issued = [] ∨ settlement.isOk = true ∧ OneReceipt id .failed issued))

theorem Issues.cases {due : Prop} (h : Issues due id outcome issued) :
    issued = [] ∨ OneReceipt id outcome issued := by
  rcases h with ⟨-, hone⟩ | ⟨-, hnone⟩
  · exact .inr hone
  · exact .inl hnone

theorem updated_fail (hgenuine : Genuine host s.receipts) {intent : MaintainerIntent}
    (hrisk : writable host.engine (riskValue intent.risk) = true)
    (executedBy : Text) (fault : Fault) (stamp : Stamp) :
    ∃ issued, Updated s (s.fail host intent executedBy fault stamp).2
        (intent.withStatus .failed) issued
      ∧ Issues (fault.message.isSome = true ∧ stamp.now.isSome = true)
          intent.id .failed issued := by
  rw [fail]
  cases hmessage : fault.message with
  | none => exact ⟨[], updated_store _, .inr ⟨(fun h => by cases h.1), rfl⟩⟩
  | some message =>
    obtain ⟨issued, hupdated, hissues, -⟩ := updated_close hgenuine hrisk
      .failed (some executedBy) (.value .null)
      (some ((host.redactSecrets message).take 500)) stamp
    exact ⟨issued, hupdated, hissues⟩

/-- **A SETTLED PROMISE**: a success whose receipt cannot be issued falls into
    the `catch` and becomes a failure. -/
theorem updated_settle (hgenuine : Genuine host s.receipts)
    (hrisk : writable host.engine (riskValue intent.risk) = true)
    (executedBy : Text) (settlement : Except Fault Resolved) (first second : Stamp) :
    ∃ outcome issued, Updated s (s.settle host intent executedBy settlement first second).2
        (intent.withStatus outcome.status) issued
      ∧ Leaves settlement first intent.id outcome issued := by
  cases settlement with
  | error fault =>
    obtain ⟨issued, hupdated, hissues⟩ := updated_fail hgenuine hrisk executedBy fault first
    refine ⟨.failed, issued, hupdated, ?_⟩
    rcases hissues with ⟨hdue, hone⟩ | ⟨hdue, hnone⟩
    · exact .inl ⟨hdue, rfl, hone⟩
    · exact .inr ⟨hdue, rfl, .inl hnone⟩
  | ok result =>
    obtain ⟨issued, hupdated, hissues, hisOk⟩ := updated_close hgenuine
      hrisk .succeeded (some executedBy) result none first
    cases hclose : s.close host intent .succeeded (some executedBy) result none first with
    | mk answer s' =>
      rw [hclose] at hupdated hisOk
      rw [settle, hclose]
      cases answer with
      | ok receipt =>
        have hboth : (result.copy.isOk && first.now.isSome) = true := hisOk.symm
        have hdue := Bool.and_eq_true_iff.mp hboth
        rcases hissues with ⟨-, hone⟩ | ⟨hnot, -⟩
        · exact ⟨.succeeded, issued, hupdated, .inl ⟨hdue, rfl, hone⟩⟩
        · exact absurd hdue hnot
      | error fault =>
        have hneither : (result.copy.isOk && first.now.isSome) = false := hisOk.symm
        have hnot : ¬ (result.copy.isOk = true ∧ first.now.isSome = true) := by
          rw [← Bool.and_eq_true, hneither]
          exact Bool.false_ne_true
        have hempty : issued = [] := by
          rcases hissues with ⟨hdue, -⟩ | ⟨-, hnone⟩
          · exact absurd hdue hnot
          · exact hnone
        have hreceipts : s'.receipts = s.receipts := by
          rw [hupdated.receipts, hempty, append_nil]
        obtain ⟨issued', hupdated', hissues'⟩ := @updated_fail host s'
          (by rw [hreceipts]; exact hgenuine)
          (intent.withStatus .succeeded) hrisk executedBy fault second
        refine ⟨.failed, issued', ⟨fun id => ?_, ?_⟩, .inr ⟨hnot,
          rfl, hissues'.cases.imp_right fun hone => ⟨rfl, hone⟩⟩⟩
        · -- The second write is to the key of the first.
          rw [hupdated'.get]
          by_cases hid : intent.id = id
          · exact (if_pos hid).trans (if_pos hid).symm
          rw [hupdated.get]
          exact ((if_neg hid).trans (if_neg hid)).trans (if_neg hid).symm
        · rw [hupdated'.receipts, hreceipts]

end Ending

/-! ## What holds in every run -/

/-- Executors, approvals and the states of the intents fit together. -/
structure Coherent (host : Host) (w : World) : Prop where
  genuine : Genuine host w.service.receipts
  ids : ∀ id intent, w.service.intents.get id = some intent → intent.id = id
  risk : ∀ id intent, w.service.intents.get id = some intent →
    writable host.engine (riskValue intent.risk) = true
  approver : ∀ id intent approver, w.service.intents.get id = some intent →
    intent.approvedBy = some approver →
    approver ≠ intent.requestedBy ∧ (id, approver) ∈ w.approvals
  approved : ∀ id intent, w.service.intents.get id = some intent →
    intent.status = .approved → intent.approvedBy.isSome = true
  waiting : (w.waiting.map Execution.id).Nodup
  executing : ∀ execution ∈ w.waiting, ∃ intent,
    w.service.intents.get execution.id = some intent ∧ intent.status = .executing
  once : (w.ran.map MaintainerIntent.id).Nodup
  closed : ∀ snapshot ∈ w.ran, ∃ intent, w.service.intents.get snapshot.id = some intent
      ∧ intent.status.isOpen = false
  gated : ∀ snapshot ∈ w.ran, Gated host w.approvals snapshot

/-- What one event can do to the service and to what has happened so far. -/
inductive Turns (host : Host) (w : World) (event : Event) : World → Prop where
  | idle (executors : List Text) (hdue : Issuable host w event) : Turns host w event
        { w with service := { w.service with executors := executors } }
  | declared {intent : MaintainerIntent} {s' : Service}
      (hnew : w.service.intents.get intent.id = none)
      (hstatus : intent.status = .pending)
      (happroved : intent.approvedBy = none)
      (hrisk : writable host.engine (riskValue intent.risk) = true)
      (hupdated : Updated w.service s' intent [])
      (hdue : Issuable host w event) :
      Turns host w event { w with service := s' }
  | ended {intent : MaintainerIntent} {outcome : ReceiptOutcome}
      {issued : List IntentReceipt} {s' : Service}
      (hfound : w.service.intents.get intent.id = none ∧ intent.approvedBy = none
        ∨ w.service.intents.get intent.id = some intent ∧ intent.status.isOpen = true)
      (hrisk : writable host.engine (riskValue intent.risk) = true)
      (houtcome : outcome ≠ .succeeded)
      (hupdated : Updated w.service s' (intent.withStatus outcome.status) issued)
      (hissues : Issues (Issuable host w event) intent.id outcome issued) :
      Turns host w event { w with service := s' }
  | approved {intent : MaintainerIntent} {approver : Text} {s' : Service}
      (hfound : w.service.intents.get intent.id = some intent)
      (hstatus : intent.status = .pending)
      (hother : approver ≠ intent.requestedBy)
      (hupdated : Updated w.service s' (intent.approvedAs approver) [])
      (hdue : Issuable host w event) :
      Turns host w event
        { w with
          service := s'
          approvals := (intent.id, approver) :: w.approvals }
  | executed {intent : MaintainerIntent} {spec : HighImpactActionSpec}
      {executedBy : Text} {s' : Service}
      (hfound : w.service.intents.get intent.id = some intent)
      (hspec : host.spec intent.action = some spec)
      (hready : ready spec intent = true)
      (hupdated : Updated w.service s' (intent.withStatus .executing) [])
      (hdue : Issuable host w event) :
      Turns host w event
        { w with
          service := s'
          waiting := w.waiting ++ [⟨intent.id, executedBy⟩]
          ran := intent.withStatus .executing :: w.ran }
  | settled {k : Nat} {execution : Execution} {intent : MaintainerIntent}
      {settlement : Except Fault Resolved} {first : Stamp}
      {outcome : ReceiptOutcome} {issued : List IntentReceipt} {s' : Service}
      (hk : w.waiting[k]? = some execution)
      (hid : intent.id = execution.id)
      (hfound : w.service.intents.get intent.id = some intent)
      (hupdated : Updated w.service s' (intent.withStatus outcome.status) issued)
      (hdue : Issuable host w event ↔ Writable settlement ∧ first.now.isSome = true)
      (hleaves : Leaves settlement first intent.id outcome issued) :
      Turns host w event
        { w with
          service := s'
          waiting := w.waiting.eraseIdx k
          resolved := resolvedBy execution.id settlement ++ w.resolved }

section Stepping

variable {host : Host} {w : World} {intent : MaintainerIntent} {now : Option Int}
  {input : IntentInput} {draw : Declaration} {event : Event} {stamp : Stamp} {id : Text}

theorem writable_of_payload {payload : Text} (h : host.intentPayload intent = .ok payload) :
    writable host.engine (riskValue intent.risk) = true := by
  have hisOk : (host.intentPayload intent).isOk = true := by
    rw [h]
    rfl
  rw [Host.intentPayload, canonicalJson_isOk, serialize_obj_isOk] at hisOk
  simp only [all_cons, all_nil, Bool.and_true, Bool.and_eq_true] at hisOk
  exact hisOk.2.2.2.2.2.2.2.2

theorem declare_ok (h : declare host input draw = .ok intent) :
    intent.id = draw.uuid ∧ intent.status = .pending ∧ intent.approvedBy = none
      ∧ writable host.engine (riskValue intent.risk) = true := by
  simp only [declare] at h
  split at h
  · cases h
  split at h
  · cases h
  split at h
  · cases h
  split at h
  · cases h
  obtain ⟨risk, -, h⟩ := bind_ok h
  obtain ⟨text, -, h⟩ := bind_ok h
  obtain ⟨createdAt, -, h⟩ := bind_ok h
  obtain ⟨expiresAt, -, h⟩ := bind_ok h
  obtain ⟨payload, hpayload, h⟩ := bind_ok h
  cases h
  exact ⟨rfl, rfl, rfl, writable_of_payload hpayload⟩

theorem isOpen_of_lapsed (h : lapsed intent now = true) : intent.status.isOpen = true :=
  (Bool.and_eq_true_iff.mp h).1

theorem turns_load_error (hw : Coherent host w) {fault : Fault} {s' : Service}
    (h : w.service.load host id now stamp = (.error fault, s'))
    (hidle : (∀ intent, ¬ Finds host w id intent) → Issuable host w event)
    (hdue : ∀ intent, Finds host w id intent → lapsed intent now = true →
      (Issuable host w event ↔ stamp.now.isSome = true)) :
    Turns host w event { w with service := s' } := by
  rcases load_error h with ⟨rfl, hnone⟩ | ⟨intent, hget, hverified, hlapsed, rfl⟩
  · exact Turns.idle w.service.executors (hidle fun intent hfinds =>
      hnone intent hfinds.1 hfinds.2.1)
  have hopen := isOpen_of_lapsed hlapsed
  have hid := hw.ids id intent hget
  obtain ⟨issued, hupdated, hissues, -⟩ := updated_close hw.genuine
    (hw.risk id intent hget) .expired none (.value .null)
    (some (ascii "Intent expired before execution")) stamp
  refine Turns.ended (.inr ⟨by rw [hid]; exact hget, hopen⟩)
    (hw.risk id intent hget) (by decide) hupdated ?_
  have hiff := hdue intent ⟨hget, hverified, hopen⟩ hlapsed
  exact hissues.congr ⟨fun hcan => hiff.mpr hcan.2, fun hissuable => ⟨rfl, hiff.mp hissuable⟩⟩

theorem turns_requestIntent (hfresh : Fresh w (.requestIntent input draw)) (hw : Coherent host w) :
    Turns host w (.requestIntent input draw) (w.step host (.requestIntent input draw)) := by
  rw [step]
  cases hdeclare : declare host input draw with
  | error fault =>
    rw [requestIntent_error hdeclare]
    refine Turns.idle w.service.executors fun intent hintent => ?_
    rw [hdeclare] at hintent
    cases hintent
  | ok intent =>
    obtain ⟨hid, hstatus, happroved, hrisk⟩ := declare_ok hdeclare
    have hnew : w.service.intents.get intent.id = none := by
      rw [hid]
      exact hfresh
    have hissuable : Issuable host w (.requestIntent input draw)
        ↔ (intent.blockedBy.isSome = true → draw.stamp.now.isSome = true) := by
      constructor
      · exact fun h => h intent hdeclare
      intro h other hother
      rw [hdeclare] at hother
      cases hother
      exact h
    cases hblocked : intent.blockedBy with
    | none =>
      rw [requestIntent_pending hdeclare hblocked]
      refine Turns.declared hnew hstatus happroved hrisk (updated_store intent) (hissuable.mpr ?_)
      rw [hblocked]
      rintro ⟨⟩
    | some risk =>
      obtain ⟨issued, hupdated, hissues, -⟩ := updated_close hw.genuine
        hrisk .rejected none (.value .null) (some risk.refusal) draw.stamp
      rw [requestIntent_blocked hdeclare hblocked]
      refine Turns.ended (.inl ⟨hnew, happroved⟩) hrisk (by decide) hupdated (hissues.congr ?_)
      rw [hissuable, hblocked]
      exact ⟨fun h _ => h.2, fun h => ⟨rfl, h rfl⟩⟩

theorem issuable_of_load {s' : Service}
    (hload : w.service.load host id now stamp = (.ok intent, s')) :
    ∀ other, Finds host w id other → lapsed other now = true → stamp.now.isSome = true := by
  intro other hother hlapsed
  obtain ⟨-, hget, -, hnot⟩ := load_ok hload
  rw [Option.some.inj (hget.symm.trans hother.1), hlapsed] at hnot
  cases hnot

theorem turns_approve (hw : Coherent host w) (id : Text)
    (approverId : Option Text) (now : Option Int) (stamp : Stamp) :
    Turns host w (.approve id approverId now stamp)
      (w.step host (.approve id approverId now stamp)) := by
  rw [step, approve]
  cases hload : w.service.load host id now stamp with
  | mk answer s' =>
    cases answer with
    | error fault =>
      refine turns_load_error hw hload (fun hnone intent hfinds => absurd hfinds (hnone intent)) ?_
      intro intent hfinds hlapsed
      refine ⟨fun h => h intent hfinds hlapsed, fun h _ _ _ => h⟩
    | ok intent =>
      have hdue := issuable_of_load hload
      obtain ⟨rfl, hget, -, -⟩ := load_ok hload
      have hid := hw.ids id intent hget
      dsimp only
      by_cases hpending : intent.status ≠ .pending
      · rw [if_pos hpending]
        exact Turns.idle w.service.executors hdue
      rw [if_neg hpending]
      by_cases hempty : trim (approverId.getD []) = []
      · rw [if_pos hempty]
        exact Turns.idle w.service.executors hdue
      rw [if_neg hempty]
      by_cases hself : trim (approverId.getD []) = intent.requestedBy
      · rw [if_pos hself]
        exact Turns.idle w.service.executors hdue
      rw [if_neg hself]
      have hturn : Turns host w (.approve id approverId now stamp)
          { w with
            service := w.service.store (intent.approvedAs (trim (approverId.getD [])))
            approvals := (intent.id, trim (approverId.getD [])) :: w.approvals } :=
        Turns.approved (by rw [hid]; exact hget) (not_not.mp hpending) hself (updated_store _) hdue
      exact hturn

theorem turns_reject (hw : Coherent host w) (id maintainerId : Text)
    (why : Option Text) (now : Option Int) (stamp : Stamp) :
    Turns host w (.reject id maintainerId why now stamp)
      (w.step host (.reject id maintainerId why now stamp)) := by
  rw [step, reject]
  cases hload : w.service.load host id now stamp with
  | mk answer s' =>
    cases answer with
    | error fault =>
      refine turns_load_error hw hload (fun hnone intent hfinds => absurd hfinds (hnone intent)) ?_
      intro intent hfinds _
      refine ⟨fun h => h intent hfinds, fun h _ _ => h⟩
    | ok intent =>
      obtain ⟨rfl, hget, hverified, -⟩ := load_ok hload
      have hid := hw.ids id intent hget
      have hsame : ∀ other, Finds host w id other → other = intent :=
        fun other hother => Option.some.inj (hother.1.symm.trans hget)
      cases hopen : intent.status.isOpen with
      | false =>
        simp only [hopen, Bool.not_false, if_true]
        refine Turns.idle w.service.executors ?_
        intro other hother
        have hstatus := hother.2.2
        rw [hsame other hother, hopen] at hstatus
        cases hstatus
      | true =>
        simp only [hopen, Bool.not_true, Bool.false_eq_true, if_false]
        obtain ⟨issued, hupdated, hissues, -⟩ := updated_close hw.genuine
          (hw.risk id intent hget) .rejected (some maintainerId)
          (.value .null) (some (host.redactSecrets (rejection why)))
          stamp
        refine Turns.ended (.inr ⟨by rw [hid]; exact hget, hopen⟩)
          (hw.risk id intent hget) (by decide) hupdated
          (hissues.congr ?_)
        exact ⟨fun h _ _ => h.2, fun h => ⟨rfl, h intent ⟨hget, hverified, hopen⟩⟩⟩

theorem turns_execute (hw : Coherent host w) (id : Text)
    (input : ExecuteInput) (now : Option Int) (stamp : Stamp) :
    Turns host w (.execute id input now stamp) (w.step host (.execute id input now stamp)) := by
  rw [step, execute]
  cases hload : w.service.load host id now stamp with
  | mk answer s' =>
    cases answer with
    | error fault =>
      refine turns_load_error hw hload (fun hnone intent hfinds => absurd hfinds (hnone intent)) ?_
      intro intent hfinds hlapsed
      refine ⟨fun h => h intent hfinds hlapsed, fun h _ _ _ => h⟩
    | ok intent =>
      have hdue := issuable_of_load hload
      obtain ⟨rfl, hget, -, -⟩ := load_ok hload
      have hid := hw.ids id intent hget
      have hidle : Turns host w (.execute id input now stamp) w :=
        Turns.idle w.service.executors hdue
      cases hspec : host.spec intent.action with
      | none =>
        simp only [hspec]
        exact hidle
      | some spec =>
        simp only [hspec]
        by_cases hready : (!ready spec intent) = true
        · rw [if_pos hready]
          exact hidle
        rw [if_neg hready]
        by_cases hphrase : input.confirmation.getD [] ≠ intent.confirmationPhrase
        · rw [if_pos hphrase]
          exact hidle
        rw [if_neg hphrase]
        cases hsame : sameParams host intent input.params with
        | error fault => exact hidle
        | ok same =>
          cases same with
          | false => exact hidle
          | true =>
            by_cases hexecutor : intent.action ∉ w.service.executors
            · simp only [if_pos hexecutor]
              exact hidle
            simp only [if_neg hexecutor]
            have hturn : Turns host w (.execute id input now stamp)
                { w with
                  service := w.service.store (intent.withStatus .executing)
                  waiting := w.waiting ++ [⟨intent.id, input.executedBy⟩]
                  ran := intent.withStatus .executing :: w.ran } :=
              Turns.executed (by rw [hid]; exact hget) hspec
                (by simpa using hready) (updated_store _) hdue
            exact hturn

theorem turns_settle (hw : Coherent host w) (k : Nat)
    (settlement : Except Fault Resolved) (first second : Stamp) :
    Turns host w (.settle k settlement first second)
      (w.step host (.settle k settlement first second)) := by
  rw [step]
  cases hk : w.waiting[k]? with
  | none =>
    refine Turns.idle w.service.executors fun h => ?_
    rw [hk] at h
    cases h
  | some execution =>
    obtain ⟨intent, hget, hstatus⟩ := hw.executing execution (mem_of_getElem? hk)
    have hid := hw.ids execution.id intent hget
    obtain ⟨outcome, issued, hupdated, hleaves⟩ := updated_settle
      hw.genuine (hw.risk execution.id intent hget) execution.executedBy
      settlement first second
    simp only [hget]
    refine Turns.settled hk hid (by rw [hid]; exact hget) hupdated ?_ hleaves
    constructor
    · intro h
      exact h (by rw [hk]; rfl)
    · exact fun h _ => h

/-- **WHAT ONE EVENT CAN DO.** -/
theorem turns_of_step (hw : Coherent host w)
    (hfresh : Fresh w event) : Turns host w event (w.step host event) := by
  cases event with
  | registerExecutor action =>
    rw [step, registerExecutor]
    split
    · exact Turns.idle w.service.executors trivial
    · exact Turns.idle (action :: w.service.executors) trivial
  | requestIntent input draw => exact turns_requestIntent hfresh hw
  | approve id approverId now stamp => exact turns_approve hw id approverId now stamp
  | reject id maintainerId why now stamp => exact turns_reject hw id maintainerId why now stamp
  | execute id input now stamp => exact turns_execute hw id input now stamp
  | settle k settlement first second => exact turns_settle hw k settlement first second

end Stepping

/-! ## The invariant -/

section Invariant

variable {host : Host} {w : World} {intent : MaintainerIntent} {issued : List IntentReceipt}
  {spec : HighImpactActionSpec} {id : Text} {k : Nat} {s s' : Service}

theorem Updated.stored {intent other : MaintainerIntent} (h : Updated s s' intent issued)
    (hget : s'.intents.get id = some other) :
    intent.id = id ∧ other = intent ∨ intent.id ≠ id ∧ s.intents.get id = some other := by
  rw [h.get] at hget
  by_cases hid : intent.id = id
  · rw [if_pos hid] at hget
    exact .inl ⟨hid, (Option.some.inj hget).symm⟩
  rw [if_neg hid] at hget
  exact .inr ⟨hid, hget⟩

theorem Updated.self (h : Updated s s' intent issued) : s'.intents.get intent.id = some intent := by
  rw [h.get, if_pos rfl]

theorem Updated.other (h : Updated s s' intent issued)
    (hid : intent.id ≠ id) : s'.intents.get id = s.intents.get id := by
  rw [h.get, if_neg hid]

/-- No executor has been called for an intent that is new or open. -/
def Untouched (w : World) (id : Text) : Prop :=
  w.service.intents.get id = none ∨ ∃ intent, w.service.intents.get id = some intent
        ∧ intent.status.isOpen = true

theorem Coherent.not_executing (hw : Coherent host w)
    (h : Untouched w id) : ∀ execution ∈ w.waiting, execution.id ≠ id := by
  rintro execution hmem rfl
  obtain ⟨intent, hget, hstatus⟩ := hw.executing execution hmem
  rcases h with hnone | ⟨old, hold, hopen⟩
  · rw [hnone] at hget
    cases hget
  rw [Option.some.inj (hold.symm.trans hget), hstatus] at hopen
  cases hopen

theorem Coherent.not_ran (hw : Coherent host w)
    (h : Untouched w id) : ∀ snapshot ∈ w.ran, snapshot.id ≠ id := by
  rintro snapshot hmem rfl
  obtain ⟨intent, hget, hclosed⟩ := hw.closed snapshot hmem
  rcases h with hnone | ⟨old, hold, hopen⟩
  · rw [hnone] at hget
    cases hget
  rw [Option.some.inj (hold.symm.trans hget), hclosed] at hopen
  cases hopen

theorem Gated.mono {approvals approvals' : List (Text × Text)} (h : Gated host approvals intent)
    (hsub : approvals ⊆ approvals') : Gated host approvals' intent := by
  obtain ⟨spec, hspec, hneeds⟩ := h
  refine ⟨spec, hspec, fun hneeded => ?_⟩
  obtain ⟨approver, hne, hmem⟩ := hneeds hneeded
  exact ⟨approver, hne, hsub hmem⟩

theorem Coherent.updated (hw : Coherent host w) {s' : Service} {approvals : List (Text × Text)}
    (hupdated : Updated w.service s' intent issued) (hgenuine : Genuine host s'.receipts)
    (huntouched : Untouched w intent.id)
    (hrisk : writable host.engine (riskValue intent.risk) = true)
    (happrover : ∀ approver, intent.approvedBy = some approver →
      approver ≠ intent.requestedBy ∧ (intent.id, approver) ∈ approvals)
    (happroved : intent.status = .approved → intent.approvedBy.isSome = true)
    (hsub : w.approvals ⊆ approvals) :
    Coherent host { w with service := s', approvals := approvals } where
  genuine := hgenuine
  ids id other hget := by
    rcases hupdated.stored hget with ⟨hid, rfl⟩ | ⟨-, hold⟩
    · exact hid
    · exact hw.ids id other hold
  risk id other hget := by
    rcases hupdated.stored hget with ⟨-, rfl⟩ | ⟨-, hold⟩
    · exact hrisk
    · exact hw.risk id other hold
  approver id other approver hget happ := by
    rcases hupdated.stored hget with ⟨rfl, rfl⟩ | ⟨-, hold⟩
    · exact happrover approver happ
    obtain ⟨hne, hmem⟩ := hw.approver id other approver hold happ
    exact ⟨hne, hsub hmem⟩
  approved id other hget hstatus := by
    rcases hupdated.stored hget with ⟨-, rfl⟩ | ⟨-, hold⟩
    · exact happroved hstatus
    · exact hw.approved id other hold hstatus
  waiting := hw.waiting
  executing execution hmem := by
    obtain ⟨other, hget, hstatus⟩ := hw.executing execution hmem
    refine ⟨other, ?_, hstatus⟩
    rw [← hget]
    exact hupdated.other (hw.not_executing huntouched execution hmem).symm
  once := hw.once
  closed snapshot hmem := by
    obtain ⟨other, hget, hclosed⟩ := hw.closed snapshot hmem
    refine ⟨other, ?_, hclosed⟩
    rw [← hget]
    exact hupdated.other (hw.not_ran huntouched snapshot hmem).symm
  gated snapshot hmem := (hw.gated snapshot hmem).mono hsub

theorem Coherent.gated_of_ready (hw : Coherent host w)
    (hfound : w.service.intents.get intent.id = some intent)
    (hspec : host.spec intent.action = some spec) (hready : ready spec intent = true) :
    Gated host w.approvals intent := by
  refine ⟨spec, hspec, fun hneeds => ?_⟩
  rw [ready, if_pos hneeds, decide_eq_true_eq] at hready
  have hsome := hw.approved intent.id intent hfound hready
  obtain ⟨approver, happrover⟩ := Option.isSome_iff_exists.mp hsome
  exact ⟨approver, hw.approver intent.id intent approver hfound happrover⟩

theorem isOpen_of_ready (h : ready spec intent = true) : intent.status.isOpen = true := by
  rw [ready] at h
  split at h
  · rw [of_decide_eq_true h]
    rfl
  · exact h

/-- **AN EXECUTOR IS CALLED**: the intent leaves the open states for good. -/
theorem Coherent.executed (hw : Coherent host w) {s' : Service} (executedBy : Text)
    (hupdated : Updated w.service s' (intent.withStatus .executing) [])
    (hgenuine : Genuine host s'.receipts) (hfound : w.service.intents.get intent.id = some intent)
    (hspec : host.spec intent.action = some spec) (hready : ready spec intent = true) :
    Coherent host { w with
      service := s'
      waiting := w.waiting ++ [⟨intent.id, executedBy⟩]
      ran := intent.withStatus .executing :: w.ran } := by
  have huntouched : Untouched w intent.id := .inr ⟨intent, hfound, isOpen_of_ready hready⟩
  have hcoherent := hw.updated hupdated hgenuine huntouched (hw.risk intent.id intent hfound)
    (fun approver happ => hw.approver intent.id intent approver hfound happ)
    nofun (Subset.refl w.approvals)
  exact {
    genuine := hcoherent.genuine
    ids := hcoherent.ids
    risk := hcoherent.risk
    approver := hcoherent.approver
    approved := hcoherent.approved
    waiting := by
      rw [map_append, map_singleton]
      refine nodup_append.mpr ⟨hw.waiting, nodup_singleton _, ?_⟩
      intro id hid other hother
      obtain ⟨execution, hmem, rfl⟩ := mem_map.mp hid
      rw [mem_singleton.mp hother]
      exact hw.not_executing huntouched execution hmem
    executing := by
      intro execution hmem
      rcases mem_append.mp hmem with hmem | hmem
      · exact hcoherent.executing execution hmem
      rw [mem_singleton.mp hmem]
      exact ⟨intent.withStatus .executing, hupdated.self, rfl⟩
    once := by
      refine nodup_cons.mpr ⟨fun hid => ?_, hw.once⟩
      obtain ⟨snapshot, hmem, heq⟩ := mem_map.mp hid
      exact hw.not_ran huntouched snapshot hmem heq
    closed := by
      intro snapshot hmem
      rcases mem_cons.mp hmem with rfl | hmem
      · exact ⟨intent.withStatus .executing, hupdated.self, rfl⟩
      · exact hcoherent.closed snapshot hmem
    gated := by
      intro snapshot hmem
      rcases mem_cons.mp hmem with rfl | hmem
      · have hgated := hw.gated_of_ready hfound hspec hready
        exact hgated
      · exact hw.gated snapshot hmem }

theorem isOpen_status (outcome : ReceiptOutcome) : outcome.status.isOpen = false := by
  cases outcome <;> rfl

theorem status_ne_approved (outcome : ReceiptOutcome) : outcome.status ≠ .approved := by
  cases outcome <;> decide

/-- The call that leaves is the only one for its intent. -/
theorem Coherent.only_waiting (hw : Coherent host w)
    {execution other : Execution} (hk : w.waiting[k]? = some execution)
    (hother : other ∈ w.waiting.eraseIdx k) : other.id ≠ execution.id := by
  intro heq
  obtain ⟨i, hne, hi⟩ := mem_eraseIdx_iff_getElem?.mp hother
  have hlength : i < (w.waiting.map Execution.id).length := by
    rw [List.length_map]
    exact (List.getElem?_eq_some_iff.mp hi).1
  refine hne ((List.getElem?_inj hlength hw.waiting).mp ?_)
  rw [List.getElem?_map, List.getElem?_map, hi, hk, Option.map_some, Option.map_some, heq]

/-- **A PROMISE IS SETTLED**: the call leaves, its intent has ended. -/
theorem Coherent.settled (hw : Coherent host w) {s' : Service} {execution : Execution}
    {outcome : ReceiptOutcome} (resolved : List Text) (hk : w.waiting[k]? = some execution)
    (hid : intent.id = execution.id) (hfound : w.service.intents.get intent.id = some intent)
    (hupdated : Updated w.service s' (intent.withStatus outcome.status) issued)
    (hgenuine : Genuine host s'.receipts) : Coherent host { w with
      service := s'
      waiting := w.waiting.eraseIdx k
      resolved := resolved } where
  genuine := hgenuine
  ids id other hget := by
    rcases hupdated.stored hget with ⟨heq, rfl⟩ | ⟨-, hold⟩
    · exact heq
    · exact hw.ids id other hold
  risk id other hget := by
    rcases hupdated.stored hget with ⟨-, rfl⟩ | ⟨-, hold⟩
    · exact hw.risk intent.id intent hfound
    · exact hw.risk id other hold
  approver id other approver hget happ := by
    rcases hupdated.stored hget with ⟨rfl, rfl⟩ | ⟨-, hold⟩
    · exact hw.approver intent.id intent approver hfound happ
    · exact hw.approver id other approver hold happ
  approved id other hget hstatus := by
    rcases hupdated.stored hget with ⟨-, rfl⟩ | ⟨-, hold⟩
    · exact absurd hstatus (status_ne_approved outcome)
    · exact hw.approved id other hold hstatus
  waiting := by
    have hsub := (eraseIdx_sublist w.waiting k).map Execution.id
    exact hsub.nodup hw.waiting
  executing other hmem := by
    obtain ⟨stored, hget, hstatus⟩ := hw.executing other (mem_of_mem_eraseIdx hmem)
    refine ⟨stored, ?_, hstatus⟩
    rw [← hget]
    exact hupdated.other fun heq => hw.only_waiting hk hmem (hid.symm.trans heq).symm
  once := hw.once
  closed snapshot hmem := by
    obtain ⟨stored, hget, hclosed⟩ := hw.closed snapshot hmem
    by_cases heq : (intent.withStatus outcome.status).id = snapshot.id
    · refine ⟨intent.withStatus outcome.status, ?_, isOpen_status outcome⟩
      rw [← heq]
      exact hupdated.self
    · exact ⟨stored, (hupdated.other heq).trans hget, hclosed⟩
  gated := hw.gated

/-- **THE INVARIANT**: no event breaks it, whatever the executors return and
    whatever the clock reads. -/
theorem Coherent.step (hw : Coherent host w) {event : Event}
    (hfresh : Fresh w event) : Coherent host (w.step host event) := by
  have hturns := turns_of_step hw hfresh
  have hgenuine := genuine_step hw.genuine event
  generalize w.step host event = w' at hturns hgenuine
  cases hturns with
  | idle executors hdue =>
    exact ⟨hgenuine, hw.ids, hw.risk, hw.approver, hw.approved, hw.waiting,
      hw.executing, hw.once, hw.closed, hw.gated⟩
  | declared hnew hstatus happroved hrisk hupdated hdue =>
    refine hw.updated hupdated hgenuine (.inl hnew) hrisk ?_ ?_ (Subset.refl w.approvals)
    · intro approver happ
      rw [happroved] at happ
      cases happ
    intro happ
    rw [hstatus] at happ
    cases happ
  | ended hfound hrisk houtcome hupdated hissues =>
    rename_i intent outcome issued s'
    refine hw.updated hupdated hgenuine ?_ hrisk ?_ (fun h => absurd h (status_ne_approved outcome))
      (Subset.refl w.approvals)
    · exact hfound.imp And.left fun h => ⟨intent, h⟩
    intro approver happ
    rcases hfound with ⟨-, hnone⟩ | ⟨hget, -⟩
    · cases hnone.symm.trans happ
    · exact hw.approver intent.id intent approver hget happ
  | approved hfound hstatus hother hupdated hdue =>
    rename_i intent approver s'
    refine hw.updated hupdated hgenuine (.inr ⟨intent, hfound, by rw [hstatus]; rfl⟩)
      (hw.risk intent.id intent hfound) ?_ (fun _ => rfl)
      (subset_cons_self _ _)
    intro other happ
    cases happ
    exact ⟨hother, (.head _)⟩
  | executed hfound hspec hready hupdated hdue =>
    exact hw.executed _ hupdated hgenuine hfound hspec hready
  | settled hk hid hfound hupdated hdue hleaves =>
    exact hw.settled _ hk hid hfound hupdated hgenuine

theorem coherent_init (host : Host) : Coherent host .init where
  genuine := Genuine.nil
  ids := by
    intro id intent h
    cases h
  risk := by
    intro id intent h
    cases h
  approver := by
    intro id intent approver h
    cases h
  approved := by
    intro id intent h
    cases h
  waiting := nodup_nil
  executing := by
    intro execution h
    cases h
  once := nodup_nil
  closed := by
    intro snapshot h
    cases h
  gated := by
    intro snapshot h
    cases h

end Invariant

/-! ## Receipts and resolved promises -/

/-- Receipts and resolved promises are those of the intents' states. -/
structure Accounted (s : Service) (resolved : List Text) : Prop where
  outcomes : ∀ id intent, s.intents.get id = some intent →
    outcomesOf s.receipts id = intent.status.outcome.toList
  known : ∀ r ∈ s.receipts, (s.intents.get r.intentId).isSome = true
  resolved : ∀ id, id ∈ resolved
    ↔ ∃ intent, s.intents.get id = some intent ∧ intent.status = .succeeded

section Accounting

theorem outcomesOf_append (l l' : List IntentReceipt) (id : Text) :
    outcomesOf (l ++ l') id = outcomesOf l id ++ outcomesOf l' id := by
  rw [outcomesOf, filter_append, map_append]
  rfl

variable {issued : List IntentReceipt} {outcome : ReceiptOutcome} {id : Text}

theorem outcomesOf_one (h : OneReceipt id outcome issued) (other : Text) :
    outcomesOf issued other = if id = other then [outcome] else [] := by
  obtain ⟨r, rfl, rfl, rfl⟩ := h
  by_cases hid : r.intentId = other
  · simp [outcomesOf, hid]
  · simp [outcomesOf, hid]

variable {s s' : Service} {resolved : List Text}

/-- An intent that is new, or has not ended. -/
def Unended (s : Service) (id : Text) : Prop :=
  s.intents.get id = none ∨ ∃ intent, s.intents.get id = some intent ∧ intent.status.outcome = none

theorem Accounted.no_outcomes (ha : Accounted s resolved)
    (h : Unended s id) : outcomesOf s.receipts id = [] := by
  rcases h with hnone | ⟨intent, hget, hstatus⟩
  · rw [outcomesOf, map_eq_nil_iff, filter_eq_nil_iff]
    intro r hr hid
    have hknown := ha.known r hr
    rw [of_decide_eq_true hid, hnone] at hknown
    cases hknown
  rw [ha.outcomes id intent hget, hstatus]
  rfl

theorem Accounted.not_resolved (ha : Accounted s resolved) (h : Unended s id) : id ∉ resolved := by
  rw [ha.resolved]
  rintro ⟨intent, hget, hstatus⟩
  rcases h with hnone | ⟨other, hother, hnotended⟩
  · cases hnone.symm.trans hget
  rw [Option.some.inj (hother.symm.trans hget), hstatus] at hnotended
  cases hnotended

theorem Accounted.updated (ha : Accounted s resolved) {intent : MaintainerIntent}
    {resolved' : List Text} (hupdated : Updated s s' intent issued) (hunended : Unended s intent.id)
    (hissued : ∀ id, outcomesOf issued id
      = if intent.id = id then intent.status.outcome.toList else [])
    (hknown : ∀ r ∈ issued, r.intentId = intent.id)
    (hresolved : ∀ id, id ∈ resolved' ↔ id ∈ resolved
      ∨ intent.id = id ∧ intent.status = .succeeded) : Accounted s' resolved' where
  outcomes id other hget := by
    rw [hupdated.receipts, outcomesOf_append, hissued]
    rcases hupdated.stored hget with ⟨rfl, rfl⟩ | ⟨hne, hold⟩
    · rw [ha.no_outcomes hunended, if_pos rfl, nil_append]
    · rw [ha.outcomes id other hold, if_neg hne, append_nil]
  known r hr := by
    rw [hupdated.receipts] at hr
    rw [hupdated.get]
    split
    · rfl
    rename_i hne
    rcases mem_append.mp hr with hr | hr
    · exact ha.known r hr
    · exact absurd (hknown r hr).symm hne
  resolved id := by
    rw [hresolved, hupdated.get]
    by_cases hid : intent.id = id
    · rw [if_pos hid]
      constructor
      · rintro (hmem | ⟨-, hstatus⟩)
        · exact absurd (hid ▸ hmem) (ha.not_resolved hunended)
        · exact ⟨intent, rfl, hstatus⟩
      rintro ⟨other, hsome, hstatus⟩
      rw [Option.some.inj hsome]
      exact .inr ⟨by rw [← Option.some.inj hsome]; exact hid, hstatus⟩
    · rw [if_neg hid, ha.resolved]
      exact ⟨fun h => h.elim (fun h => h) (fun h => absurd h.1 hid), Or.inl⟩

theorem outcome_of_isOpen {status : IntentStatus}
    (h : status.isOpen = true) : status.outcome = none := by
  cases status with
  | pending => rfl
  | approved => rfl
  | executing => cases h
  | succeeded => cases h
  | failed => cases h
  | rejected => cases h
  | expired => cases h

theorem outcome_status (outcome : ReceiptOutcome) : outcome.status.outcome = some outcome := by
  cases outcome <;> rfl

theorem status_eq_succeeded : outcome.status = .succeeded ↔ outcome = .succeeded := by
  cases outcome <;> decide

end Accounting

section Keeping

variable {host : Host} {w : World}

/-- **A STEP WHOSE RECEIPT CAN BE ISSUED** keeps the accounts. -/
theorem Accounted.step (ha : Accounted w.service w.resolved)
    (hw : Coherent host w) {event : Event} (hfresh : Fresh w event)
    (hissuable : Issuable host w event) :
    Accounted (w.step host event).service (w.step host event).resolved := by
  have hturns := turns_of_step hw hfresh
  generalize w.step host event = w' at hturns
  cases hturns with
  | idle executors hdue => exact ⟨ha.outcomes, ha.known, ha.resolved⟩
  | declared hnew hstatus happroved hrisk hupdated hdue =>
    refine ha.updated hupdated (Or.inl hnew) (fun id => ?_) (fun r hr => by cases hr) (fun id => ?_)
    · rw [hstatus]
      exact (ite_self _).symm
    rw [hstatus]
    simp
  | ended hfound hrisk houtcome hupdated hissues =>
    rename_i intent outcome issued s'
    have hone : OneReceipt intent.id outcome issued := by
      rcases hissues with ⟨-, hone⟩ | ⟨hnot, -⟩
      · exact hone
      · exact absurd hissuable hnot
    refine ha.updated hupdated ?_ (fun id => ?_) ?_ (fun id => ?_)
    · refine hfound.imp And.left fun h => ⟨intent, h.1, ?_⟩
      exact outcome_of_isOpen h.2
    · rw [outcomesOf_one hone]
      show _ = if intent.id = id then outcome.status.outcome.toList else []
      rw [outcome_status]
      rfl
    · obtain ⟨r, rfl, hid, -⟩ := hone
      intro x hx
      rw [mem_singleton.mp hx]
      exact hid
    refine ⟨Or.inl, fun h => h.elim (fun h => h) fun h => ?_⟩
    exact absurd (status_eq_succeeded.mp h.2) houtcome
  | approved hfound hstatus hother hupdated hdue =>
    rename_i intent approver s'
    refine ha.updated hupdated (Or.inr ⟨intent, hfound, by rw [hstatus]; rfl⟩) (fun id => ?_)
      (fun r hr => by cases hr) (fun id => ?_)
    · exact (ite_self _).symm
    · exact ⟨Or.inl, fun h => h.elim (fun h => h) fun h => by cases h.2⟩
  | executed hfound hspec hready hupdated hdue =>
    rename_i intent spec executedBy s'
    refine ha.updated hupdated (Or.inr ⟨intent, hfound,
      outcome_of_isOpen (isOpen_of_ready hready)⟩) (fun id => ?_)
      (fun r hr => by cases hr) (fun id => ?_)
    · exact (ite_self _).symm
    · exact ⟨Or.inl, fun h => h.elim (fun h => h) fun h => by cases h.2⟩
  | settled hk hid hfound hupdated hdue hleaves =>
    rename_i k execution intent settlement first outcome issued s'
    obtain ⟨houtcome, hone⟩ : outcome = dueOutcome settlement
        ∧ OneReceipt intent.id outcome issued := by
      rcases hleaves with ⟨-, h⟩ | ⟨hnot, -⟩
      · exact h
      · exact absurd (hdue.mp hissuable) hnot
    obtain ⟨stored, hget, hstatus⟩ := hw.executing execution (mem_of_getElem? hk)
    rw [← hid] at hget
    refine ha.updated hupdated (Or.inr ⟨stored, hget, by rw [hstatus]; rfl⟩) (fun id => ?_) ?_
      (fun id => ?_)
    · rw [outcomesOf_one hone]
      show _ = if intent.id = id then outcome.status.outcome.toList else []
      rw [outcome_status]
      rfl
    · obtain ⟨r, rfl, hrid, -⟩ := hone
      intro x hx
      rw [mem_singleton.mp hx]
      exact hrid
    show id ∈ resolvedBy execution.id settlement ++ w.resolved
      ↔ id ∈ w.resolved ∨ intent.id = id ∧ outcome.status = .succeeded
    rw [status_eq_succeeded, houtcome, hid, mem_append, or_comm]
    refine or_congr_right ?_
    cases settlement with
    | ok result =>
      rw [resolvedBy, mem_singleton, dueOutcome]
      exact ⟨fun h => ⟨h.symm, rfl⟩, fun h => h.1.symm⟩
    | error fault => exact ⟨by rintro ⟨⟩, (fun h => by cases h.2)⟩

theorem kept_of_accounted (hw : Coherent host w)
    (ha : Accounted w.service w.resolved) : Kept host w where
  once := hw.once
  gated := hw.gated
  receipts id intent outcome hget hstatus := by
    rw [ha.outcomes id intent hget, hstatus]
    rfl
  resolved id := by
    rw [ha.resolved]
    cases hget : w.service.intents.get id with
    | none =>
      rw [ha.no_outcomes (.inl hget)]
      exact ⟨nofun, (fun ⟨_, h, _⟩ => nomatch h)⟩
    | some intent =>
      rw [ha.outcomes id intent hget]
      constructor
      · intro hmem
        refine ⟨intent, rfl, ?_⟩
        cases hstatus : intent.status <;> rw [hstatus] at hmem <;>
          simp [IntentStatus.outcome] at hmem ⊢
      rintro ⟨other, hother, hstatus⟩
      rw [Option.some.inj hother, hstatus]
      exact mem_singleton_self _

/-- **A STEP WHOSE RECEIPT CANNOT BE ISSUED** breaks what is claimed. -/
theorem issuable_of_kept (hw : Coherent host w)
    (ha : Accounted w.service w.resolved) {event : Event}
    (hfresh : Fresh w event) (hkept : Kept host (w.step host event)) : Issuable host w event := by
  have hturns := turns_of_step hw hfresh
  generalize w.step host event = w' at hturns hkept
  cases hturns with
  | idle executors hdue => exact hdue
  | declared hnew hstatus happroved hrisk hupdated hdue => exact hdue
  | ended hfound hrisk houtcome hupdated hissues =>
    rename_i intent outcome issued s'
    rcases hissues with ⟨hdue, -⟩ | ⟨-, hempty⟩
    · exact hdue
    have hunended : Unended w.service intent.id :=
      hfound.imp And.left fun h => ⟨intent, h.1, outcome_of_isOpen h.2⟩
    have hone := hkept.receipts intent.id _ outcome hupdated.self (outcome_status outcome)
    rw [hupdated.receipts, hempty, append_nil, ha.no_outcomes hunended] at hone
    cases hone
  | approved hfound hstatus hother hupdated hdue => exact hdue
  | executed hfound hspec hready hupdated hdue => exact hdue
  | settled hk hid hfound hupdated hdue hleaves =>
    rename_i k execution intent settlement first outcome issued s'
    rcases hleaves with ⟨h, -⟩ | ⟨-, houtcome, hissued⟩
    · exact hdue.mpr h
    obtain ⟨stored, hget, hstatus⟩ := hw.executing execution (mem_of_getElem? hk)
    rw [← hid] at hget
    have hbefore := ha.no_outcomes (.inr ⟨stored, hget, by rw [hstatus]; rfl⟩ :
        Unended w.service intent.id)
    rcases hissued with hempty | ⟨hok, hone⟩
    · have hreceipt := hkept.receipts intent.id _ outcome hupdated.self (outcome_status outcome)
      rw [hupdated.receipts, hempty, append_nil, hbefore] at hreceipt
      cases hreceipt
    -- The promise was resolved, but the receipt says otherwise.
    have hmem : intent.id ∈ resolvedBy execution.id settlement ++ w.resolved := by
      cases settlement with
      | ok result => exact mem_append_left _ (by simp [resolvedBy, hid])
      | error fault => cases hok
    have hsucceeded := (hkept.resolved intent.id).mpr hmem
    rw [hupdated.receipts, outcomesOf_append, hbefore,
      outcomesOf_one hone, if_pos rfl] at hsucceeded
    exact absurd hsucceeded (by decide)

end Keeping

/-! ## Runs -/

section Runs

open Transition

variable {host : Host} {events : List Event} {w : World}

theorem accounted_run (hw : Coherent host w) (ha : Accounted w.service w.resolved)
    (hfresh : Along (step host) Fresh w events)
    (hissuable : Along (step host) (Issuable host) w events) :
    Coherent host (events.foldl (step host) w)
      ∧ Accounted (events.foldl (step host) w).service
          (events.foldl (step host) w).resolved :=
  Along.invariant (I := fun w : World => Coherent host w ∧ Accounted w.service w.resolved)
    (fun _ _ hboth h => ⟨hboth.1.step h.1, hboth.2.step hboth.1 h.1 h.2⟩)
    ⟨hw, ha⟩ (hfresh.and hissuable)

/-- What is claimed of every state rules out a receipt that cannot be
    issued. -/
theorem issuable_run (hw : Coherent host w) (ha : Accounted w.service w.resolved)
    (hfresh : Along (step host) Fresh w events)
    (hkept : ∀ before after, events = before ++ after →
      Kept host (before.foldl (step host) w)) :
    Along (step host) (Issuable host) w events := by
  induction events generalizing w with
  | nil => exact trivial
  | cons event rest ih =>
    have hissuable : Issuable host w event :=
      issuable_of_kept hw ha hfresh.1 (hkept [event] rest rfl)
    refine ⟨hissuable, ih (hw.step hfresh.1) (ha.step hw hfresh.1 hissuable) hfresh.2 ?_⟩
    intro before after heq
    exact hkept (event :: before) after (by rw [heq]; rfl)

theorem accounted_init : Accounted init.service init.resolved where
  outcomes := by
    intro id intent h
    cases h
  known := by
    intro r h
    cases h
  resolved id := ⟨nofun, (fun ⟨_, h, _⟩ => nomatch h)⟩

/-- **WHAT INTENTS LEAVE BEHIND**: every state of a run is as claimed exactly
    if every receipt the run has to issue can be issued. -/
theorem kept_iff (host : Host) (events : List Event)
    (hfresh : Along (step host) Fresh .init events) :
    (∀ before after, events = before ++ after → Kept host (run host before))
      ↔ Along (step host) (Issuable host) .init events := by
  constructor
  · exact issuable_run (coherent_init host) accounted_init hfresh
  rintro hissuable before after rfl
  obtain ⟨hw, ha⟩ := accounted_run (coherent_init host) accounted_init
    (Along.append.mp hfresh).1 (Along.append.mp hissuable).1
  exact kept_of_accounted hw ha

theorem fresh_requeueRun (outcome : Except Fault Resolved) :
    Along (step sampleHost) Fresh .init (requeueRun outcome) :=
  ⟨trivial, rfl, trivial, trivial, trivial⟩

theorem kept_requeue :
    Kept sampleHost (run sampleHost (requeueRun (.ok (.value .null)))) := by
  refine (kept_iff sampleHost _ (fresh_requeueRun _)).mpr ⟨trivial, ?_, ?_, ?_, trivial⟩
    _ [] (append_nil _).symm
  · intro intent hdeclare hblocked
    have hfree : some false = some intent.blockedBy.isSome := Eq.trans (by decide +kernel)
      (congrArg (fun made => made.toOption.map (fun intent => intent.blockedBy.isSome)) hdeclare)
    cases (Option.some.inj hfree).trans hblocked
  · intro intent hfinds hlapsed
    have hlive : some false = some (lapsed intent (some 1000)) := Eq.trans
      (by decide +kernel) (congrArg (Option.map (fun i => lapsed i (some 1000))) hfinds.1)
    cases (Option.some.inj hlive).trans hlapsed
  · intro _
    exact ⟨(rfl : (Resolved.value JsValue.null).copy.isOk = true), rfl⟩

/-- An executor resolves with a big integer: the intent is recorded as
    failed. -/
theorem resolved_recorded_failed : Along (step sampleHost) Fresh .init
        (requeueRun (.ok (.value (.bigint 1))))
      ∧ ¬ Kept sampleHost (run sampleHost (requeueRun (.ok (.value (.bigint 1))))) := by
  refine ⟨fresh_requeueRun _, fun hkept => ?_⟩
  have hresolved : ascii "i1" ∈ (run sampleHost
      (requeueRun (.ok (.value (.bigint 1))))).resolved := by
    decide +kernel
  have houtcomes : outcomesOf (run sampleHost
      (requeueRun (.ok (.value (.bigint 1))))).service.receipts (ascii "i1")
      = [.failed] := by
    decide +kernel
  have hsucceeded := (hkept.resolved (ascii "i1")).mpr hresolved
  rw [houtcomes] at hsucceeded
  exact absurd hsucceeded (by decide)

end Runs

end Approval
