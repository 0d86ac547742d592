import Inqutum.HashChainProofs
import Inqutum.MaintainerApprovalProofs

/-!
# The receipt chain

Receipts are hash chained so that deletions and edits are detectable.  A
receipt is `Issued` behind a list if it is signed and carries the hash of
the list's last receipt; whatever the service does, its receipts are
issued one behind the other (`genuine_run`).

The hash of a receipt is taken over its canonical text, in which
`prevReceiptHash` stands behind texts and nulls only, so the text
determines it (`prevReceiptHash_of_text`).  The general result on hash
chains then says that the last link commits to the whole list.
-/

namespace Approval

open Canonical HashChain
open JsonText (Text ascii unit Tree sortMembers sortMembers_map)
open List Service World Except JsonText

/-! ## What a method does to the receipts -/

/-- A receipt as it is issued behind others. -/
structure Issued (host : Host) (receipts : List IntentReceipt) (r : IntentReceipt) : Prop where
  signed : ∃ payload, host.receiptPayload r.toReceiptBody = .ok payload
    ∧ r.signature = host.sign payload
  linked : ∀ last, receipts.getLast? = some last →
    ∃ hash, host.receiptHash last = .ok hash ∧ r.prevReceiptHash = some hash
  first : receipts = [] → r.prevReceiptHash = none

/-- At most one receipt is issued. -/
inductive Grows (host : Host) : List IntentReceipt → List IntentReceipt → Prop where
  | same (l : List IntentReceipt) : Grows host l l
  | issued (l : List IntentReceipt) (r : IntentReceipt)
      (h : Issued host l r) : Grows host l (l ++ [r])

/-- Receipts issued one behind the other. -/
inductive Genuine (host : Host) : List IntentReceipt → Prop where
  | nil : Genuine host []
  | issued {l : List IntentReceipt} {r : IntentReceipt} (h : Genuine host l)
      (hr : Issued host l r) : Genuine host (l ++ [r])

theorem Genuine.grows {host : Host} {l l' : List IntentReceipt}
    (h : Genuine host l) (hgrows : Grows host l l') : Genuine host l' := by
  cases hgrows with
  | same => exact h
  | issued r hr => exact h.issued hr

theorem map_some_ok {ε α : Type} {x : Except ε α} {b : Option α}
    (h : x.map some = .ok b) : ∃ a, x = .ok a ∧ b = some a := by
  cases x with
  | error fault => cases h
  | ok a => exact ⟨a, rfl, (ok.inj h).symm⟩

section Methods

variable {host : Host} {s s' : Service} {intent : MaintainerIntent} {stamp : Stamp}
  {input : IntentInput} {draw : Declaration} {now : Option Int} {fault : Fault} {id : Text}

theorem issueReceipt_ok {outcome : ReceiptOutcome} {executedBy : Option Text} {result : Resolved}
    {error : Option Text} {r : IntentReceipt}
    (h : s.issueReceipt host intent outcome executedBy result error stamp = .ok (r, s')) :
    Issued host s.receipts r ∧ r.intentId = intent.id ∧ r.outcome = outcome
      ∧ s' = { s with receipts := s.receipts ++ [r] } := by
  rw [issueReceipt] at h
  obtain ⟨copy, -, h⟩ := bind_ok h
  obtain ⟨issuedAt, -, h⟩ := bind_ok h
  obtain ⟨prev, hprev, h⟩ := bind_ok h
  obtain ⟨payload, hpayload, h⟩ := bind_ok h
  cases h
  refine ⟨⟨⟨payload, hpayload, rfl⟩, ?_, ?_⟩, rfl, rfl, rfl⟩
  · intro last hlast
    rw [prevReceiptHash, hlast] at hprev
    exact map_some_ok hprev
  intro hempty
  rw [prevReceiptHash, hempty] at hprev
  exact (ok.inj hprev).symm

theorem close_cases (intent : MaintainerIntent) (outcome : ReceiptOutcome)
    (executedBy : Option Text) (result : Resolved) (error : Option Text) (stamp : Stamp) :
    (∃ fault, s.close host intent outcome executedBy result error stamp
      = (.error fault, s.store (intent.withStatus outcome.status)))
    ∨ ∃ r, s.close host intent outcome executedBy result error stamp
        = (.ok r, { s.store (intent.withStatus outcome.status) with
            receipts := s.receipts ++ [r] })
      ∧ Issued host s.receipts r ∧ r.intentId = intent.id
      ∧ r.outcome = outcome := by
  rw [close]
  cases hissue : (s.store (intent.withStatus outcome.status)).issueReceipt
      host (intent.withStatus outcome.status) outcome executedBy result error
      stamp with
  | error fault => exact .inl ⟨fault, rfl⟩
  | ok result =>
    obtain ⟨r, s'⟩ := result
    obtain ⟨hissued, hid, houtcome, rfl⟩ := issueReceipt_ok hissue
    exact .inr ⟨r, rfl, hissued, hid, houtcome⟩

theorem load_ok (h : s.load host id now stamp = (.ok intent, s')) :
    s' = s ∧ s.intents.get id = some intent ∧ host.verifyIntent intent = .ok true
      ∧ lapsed intent now = false := by
  rw [load] at h
  split at h
  · cases h
  rename_i stored hstored
  split at h
  · cases h
  · cases h
  rename_i hverified
  split at h
  · split at h
    · cases h
    · cases h
  rename_i hlapsed
  obtain ⟨hintent, rfl⟩ := Prod.mk.inj h
  cases hintent
  exact ⟨rfl, hstored, hverified, Bool.eq_false_iff.mpr hlapsed⟩

/-- A call that fails to load finds no intent and leaves the service as it is,
    or closes an intent that has lapsed. -/
theorem load_error (h : s.load host id now stamp = (.error fault, s')) :
    (s' = s ∧ ∀ intent, s.intents.get id = some intent → host.verifyIntent intent ≠ .ok true)
      ∨ ∃ intent, s.intents.get id = some intent ∧ host.verifyIntent intent = .ok true
        ∧ lapsed intent now = true ∧ s' = (s.close host intent .expired none (.value .null)
            (some (ascii "Intent expired before execution")) stamp).2 := by
  rw [load] at h
  split at h
  · rename_i hnone
    refine .inl ⟨(Prod.mk.inj h).2.symm, fun intent hget => ?_⟩
    rw [hnone] at hget
    cases hget
  rename_i intent hstored
  have hunverified : host.verifyIntent intent ≠ .ok true →
      ∀ other, s.intents.get id = some other → host.verifyIntent other ≠ .ok true := by
    intro hnot other hget
    rw [hstored] at hget
    cases hget
    exact hnot
  split at h
  · rename_i hverify
    refine .inl ⟨(Prod.mk.inj h).2.symm, hunverified ?_⟩
    rw [hverify]
    exact nofun
  · rename_i hverify
    refine .inl ⟨(Prod.mk.inj h).2.symm, hunverified ?_⟩
    rw [hverify]
    exact nofun
  rename_i hverified
  split at h
  · rename_i hlapsed
    refine .inr ⟨intent, hstored, hverified, hlapsed, ?_⟩
    split at h
    · rename_i hclose
      rw [hclose]
      exact (Prod.mk.inj h).2.symm
    rename_i hclose
    rw [hclose]
    exact (Prod.mk.inj h).2.symm
  · cases h

theorem grows_close (intent : MaintainerIntent) (outcome : ReceiptOutcome)
    (executedBy : Option Text) (result : Resolved) (error : Option Text) (stamp : Stamp) :
    Grows host s.receipts (s.close host intent outcome executedBy result
      error stamp).2.receipts := by
  rcases @close_cases host s intent outcome executedBy result error
    stamp with ⟨fault, hclose⟩ | ⟨r, hclose, hissued, -, -⟩
  · rw [hclose]
    exact Grows.same s.receipts
  rw [hclose]
  exact Grows.issued s.receipts r hissued

theorem requestIntent_error (h : declare host input draw = .error fault) :
    s.requestIntent host input draw = (.error fault, s) := by
  rw [requestIntent, h]

theorem requestIntent_pending (h : declare host input draw = .ok intent)
    (hblocked : intent.blockedBy = none) :
    s.requestIntent host input draw = (.ok intent, s.store intent) := by
  simp only [requestIntent, h, hblocked]

theorem requestIntent_blocked {risk : RiskAssessment} (h : declare host input draw = .ok intent)
    (hblocked : intent.blockedBy = some risk) :
    (s.requestIntent host input draw).2 = (s.close host intent .rejected none (.value .null)
          (some risk.refusal) draw.stamp).2 := by
  simp only [requestIntent, h, hblocked]
  split
  · rename_i heq
    rw [heq]
  rename_i heq
  rw [heq]

theorem grows_requestIntent (input : IntentInput) (draw : Declaration) :
    Grows host s.receipts (s.requestIntent host input draw).2.receipts := by
  cases hdeclare : declare host input draw with
  | error fault =>
    rw [requestIntent_error hdeclare]
    exact Grows.same s.receipts
  | ok intent =>
    cases hblocked : intent.blockedBy with
    | none =>
      rw [requestIntent_pending hdeclare hblocked]
      exact Grows.same s.receipts
    | some risk =>
      rw [requestIntent_blocked hdeclare hblocked]
      exact grows_close _ _ _ _ _ _

theorem grows_load_error (h : s.load host id now stamp = (.error fault, s')) :
    Grows host s.receipts s'.receipts := by
  rcases load_error h with ⟨rfl, -⟩ | ⟨intent, -, -, -, rfl⟩
  · exact Grows.same _
  · exact grows_close _ _ _ _ _ _

theorem grows_approve (id : Text) (approverId : Option Text) (now : Option Int) (stamp : Stamp) :
    Grows host s.receipts (s.approve host id approverId now stamp).2.receipts := by
  rw [approve]
  split
  · rename_i hload
    exact grows_load_error hload
  rename_i hload
  obtain ⟨rfl, -⟩ := load_ok hload
  split
  · exact Grows.same _
  split
  · exact Grows.same _
  split
  · exact Grows.same _
  · exact Grows.same _

theorem grows_reject (id maintainerId : Text) (why : Option Text)
    (now : Option Int) (stamp : Stamp) :
    Grows host s.receipts (s.reject host id maintainerId why now stamp).2.receipts := by
  rw [reject]
  split
  · rename_i hload
    exact grows_load_error hload
  rename_i hload
  obtain ⟨rfl, -⟩ := load_ok hload
  split
  · exact Grows.same _
  · exact grows_close _ _ _ _ _ _

theorem grows_execute (id : Text) (input : ExecuteInput)
    (now : Option Int) (stamp : Stamp) :
    Grows host s.receipts (s.execute host id input now stamp).2.receipts := by
  rw [execute]
  split
  · rename_i hload
    exact grows_load_error hload
  rename_i hload
  obtain ⟨rfl, -⟩ := load_ok hload
  split
  · exact Grows.same _
  split
  · exact Grows.same _
  split
  · exact Grows.same _
  split
  · exact Grows.same _
  · exact Grows.same _
  split
  · exact Grows.same _
  · exact Grows.same _

theorem grows_fail (intent : MaintainerIntent) (executedBy : Text) (fault : Fault) (stamp : Stamp) :
    Grows host s.receipts (s.fail host intent executedBy fault stamp).2.receipts := by
  rw [fail]
  split
  · exact Grows.same _
  · exact grows_close _ _ _ _ _ _

/-- A success whose receipt cannot be issued leaves room for the receipt of
    a failure. -/
theorem grows_settle (intent : MaintainerIntent) (executedBy : Text)
    (outcome : Except Fault Resolved) (first second : Stamp) :
    Grows host s.receipts (s.settle host intent executedBy outcome first second).2.receipts := by
  cases outcome with
  | error fault => exact grows_fail intent executedBy fault first
  | ok result =>
    rcases @close_cases host s intent .succeeded (some executedBy) result none first with
      ⟨fault, hclose⟩ | ⟨r, hclose, hissued, -, -⟩
    · rw [settle, hclose]
      exact @grows_fail host (s.store _) _ executedBy fault second
    rw [settle, hclose]
    exact Grows.issued s.receipts r hissued

end Methods

theorem genuine_step {host : Host} {w : World}
    (h : Genuine host w.service.receipts) (event : Event) :
    Genuine host (w.step host event).service.receipts := by
  cases event with
  | registerExecutor action =>
    show Genuine host (w.service.registerExecutor host action).receipts
    rw [registerExecutor]
    split <;> exact h
  | requestIntent input draw => exact h.grows (grows_requestIntent input draw)
  | approve id approverId now stamp =>
    have hgrows := h.grows (grows_approve id approverId now stamp)
    rw [step]
    split
    · rename_i heq
      rw [heq] at hgrows
      exact hgrows
    rename_i heq
    rw [heq] at hgrows
    exact hgrows
  | reject id maintainerId why now stamp =>
    exact h.grows (grows_reject id maintainerId why now stamp)
  | execute id input now stamp =>
    have hgrows := h.grows (grows_execute id input now stamp)
    rw [step]
    split
    · rename_i heq
      rw [heq] at hgrows
      exact hgrows
    rename_i heq
    rw [heq] at hgrows
    exact hgrows
  | settle k outcome first second =>
    rw [step]
    split
    · exact h
    split
    · exact h
    · exact h.grows (grows_settle _ _ outcome first second)

/-- **WHATEVER HAPPENS**, the receipts are issued one behind the other. -/
theorem genuine_run (host : Host) (events : List Event) :
    Genuine host (run host events).service.receipts := by
  suffices h : ∀ w : World, Genuine host w.service.receipts →
      Genuine host (events.foldl (step host) w).service.receipts from
    h init Genuine.nil
  induction events with
  | nil => exact fun w h => h
  | cons event rest ih => exact fun w h => ih (w.step host event) (genuine_step h event)

/-! ## The chain of the receipts -/

section Chain

variable {host : Host}

/-- A receipt's hash, as the next receipt carries it. -/
def digest (host : Host) (r : IntentReceipt) : Text :=
  (host.receiptHash r).toOption.getD []

/-- Each receipt carries the hash of the one before it. -/
abbrev ReceiptChain (host : Host) (before : Option Text) (l : List IntentReceipt) : Prop :=
  Chained (fun r : IntentReceipt => r.prevReceiptHash) (digest host) before l

theorem canonicalJson_isOk (value : JsValue) :
    (host.canonicalJson value).isOk = (serialize host.engine value).isOk := by
  show (Except.mapError _ (serialize host.engine value)).isOk = _
  cases serialize host.engine value <;> rfl

variable {l : List IntentReceipt} {r : IntentReceipt} {text : Text}

theorem Issued.hashable (h : Issued host l r) : ∃ text, host.canonicalJson r.value = .ok text := by
  obtain ⟨payload, hpayload, -⟩ := h.signed
  have hmembers : r.members.all (fun m => writable host.engine m.2) = true := by
    rw [← serialize_obj_isOk, ← canonicalJson_isOk]
    show (host.receiptPayload r.toReceiptBody).isOk = true
    rw [hpayload]
    rfl
  have hvalue : (host.canonicalJson r.value).isOk = true := by
    rw [canonicalJson_isOk, IntentReceipt.value, serialize_obj_isOk, all_append, hmembers]
    rfl
  cases htext : host.canonicalJson r.value with
  | error fault =>
    rw [htext] at hvalue
    cases hvalue
  | ok text => exact ⟨text, rfl⟩

theorem receiptHash_eq (h : host.canonicalJson r.value = .ok text) :
    host.receiptHash r = .ok (host.sha256 text) := by
  rw [Host.receiptHash, h]
  rfl

theorem digest_eq (h : host.canonicalJson r.value = .ok text) :
    digest host r = host.sha256 text := by
  rw [digest, receiptHash_eq h]
  rfl

theorem Issued.verified (h : Issued host l r) : host.verifyReceipt r = .ok true := by
  obtain ⟨payload, hpayload, hsigned⟩ := h.signed
  rw [Host.verifyReceipt, hpayload, hsigned]
  show ok (Host.safeEqual _ _) = _
  rw [Host.safeEqual, decide_eq_true rfl]

/-- What every receipt of the service is like, alone. -/
structure Sealed (host : Host) (r : IntentReceipt) : Prop where
  verified : host.verifyReceipt r = .ok true
  hashable : ∃ text, host.canonicalJson r.value = .ok text

theorem Genuine.chained (h : Genuine host l) :
    ReceiptChain host none l ∧ ∀ r ∈ l, Sealed host r := by
  induction h with
  | nil => exact ⟨trivial, fun r hr => nomatch hr⟩
  | issued h hr ih =>
    rename_i l r
    obtain ⟨hchain, hsealed⟩ := ih
    refine ⟨chained_concat.mpr ⟨hchain, ?_⟩, ?_⟩
    · show r.prevReceiptHash = _
      rcases eq_nil_or_concat l with rfl | ⟨rest, last, rfl⟩
      · exact hr.first rfl
      rw [concat_eq_append] at hr ⊢
      obtain ⟨hash, hhash, hprev⟩ := hr.linked last (by simp)
      rw [hprev, tip_concat, digest, hhash]
      rfl
    · intro x hx
      rcases mem_append.mp hx with hx | hx
      · exact hsealed x hx
      rw [mem_singleton.mp hx]
      exact ⟨hr.verified, hr.hashable⟩

theorem verifyFrom_iff (hsealed : ∀ r ∈ l, Sealed host r) (before : Option Text) (i : Nat) :
    host.verifyFrom before i l = .ok (-1) ↔ ReceiptChain host before l := by
  induction l generalizing before i with
  | nil => exact ⟨fun _ => trivial, fun _ => rfl⟩
  | cons r rest ih =>
    obtain ⟨hverified, text, htext⟩ := hsealed r (.head _)
    have hrest := ih (fun x hx => hsealed x (.tail _ hx)) (some (host.sha256 text)) (i + 1)
    rw [Host.verifyFrom, hverified]
    by_cases hprev : r.prevReceiptHash = before
    · simp only [hprev, Bool.not_true, ne_eq, not_true_eq_false,
        decide_false, Bool.or_false, Bool.false_eq_true, if_false,
        receiptHash_eq htext]
      refine (Iff.trans hrest ?_)
      rw [← digest_eq htext]
      exact ⟨fun h => ⟨hprev, h⟩, fun h => h.2⟩
    · simp only [hprev, ne_eq, not_false_eq_true, decide_true, Bool.or_true, if_true]
      refine ⟨fun h => ?_, fun h => absurd h.1 hprev⟩
      have hneg : (i : Int) = -1 := ok.inj h
      omega

end Chain

/-! ## The text of a receipt -/

section ReceiptText

variable {e : Engine}

/-- The text of a string or `null`. -/
def scalarText (e : Engine) : Option Text → Text
  | none => ascii "null"
  | some s => escapeString (e.normalize s)

/-- A member of an object, with the comma behind it. -/
def fieldText (e : Engine) (field : Text × Option Text) : Text :=
  escapeString (e.normalize field.1) ++ (unit ':' :: scalarText e field.2 ++ [unit ','])

theorem serialize_nullable (text : Option Text) :
    serialize e (nullable text) = .ok (scalarText e text) := by
  cases text <;> rfl

theorem escapeString_append {a b x y : Text}
    (h : escapeString a ++ x = escapeString b ++ y) : a = b ∧ x = y := by
  have hbody : a.flatMap escapeUnit ++ unit '"' :: x = b.flatMap escapeUnit ++ unit '"' :: y := by
    simpa [escapeString] using h
  have hread := congrArg readString hbody
  rw [readString_escape, readString_escape] at hread
  exact Prod.mk.inj (Option.some.inj hread)

theorem scalarText_append {a b : Option Text} {x y : Text}
    (h : scalarText e a ++ x = scalarText e b ++ y) :
    a.map e.normalize = b.map e.normalize ∧ x = y := by
  cases a with
  | none =>
    cases b with
    | none => exact ⟨rfl, append_cancel_left h⟩
    | some b => exact absurd (cons.inj h).1 (by decide)
  | some a =>
    cases b with
    | none => exact absurd (cons.inj h).1 (by decide)
    | some b =>
      obtain ⟨hab, hxy⟩ := escapeString_append h
      exact ⟨congrArg some hab, hxy⟩

/-- Members with the same keys are told apart by their texts. -/
theorem flatMap_fieldText {ms ns : List (Text × Option Text)} {x y : Text}
    (hkeys : ms.map Prod.fst = ns.map Prod.fst)
    (h : ms.flatMap (fieldText e) ++ x = ns.flatMap (fieldText e) ++ y) :
    ms.map (fun m => m.2.map e.normalize) = ns.map (fun m => m.2.map e.normalize) := by
  induction ms generalizing ns with
  | nil =>
    rw [map_nil, nil_eq, map_eq_nil_iff] at hkeys
    rw [hkeys]
  | cons m ms ih =>
    cases ns with
    | nil => cases hkeys
    | cons n ns =>
      obtain ⟨hkey, hkeys⟩ := cons.inj hkeys
      have htext : escapeString (e.normalize m.1) ++ (unit ':' :: (scalarText e m.2 ++ (unit ','
              :: (ms.flatMap (fieldText e) ++ x))))
          = escapeString (e.normalize n.1) ++ (unit ':' :: (scalarText e n.2 ++ (unit ','
              :: (ns.flatMap (fieldText e) ++ y)))) := by
        simpa [fieldText] using h
      obtain ⟨-, hvalue⟩ := escapeString_append htext
      obtain ⟨hvalue, hrest⟩ := scalarText_append (cons.inj hvalue).2
      rw [map_cons, map_cons, hvalue, ih hkeys (cons.inj hrest).2]

theorem serializeMembers_kept {members : List (Text × JsValue)}
    (h : ∀ m ∈ members, m.2.omitted = false) :
    serializeMembers e members = members.map (fun m => (m.1, serialize e m.2)) := by
  induction members with
  | nil => rfl
  | cons m rest ih =>
    obtain ⟨key, value⟩ := m
    rw [serializeMembers, h (key, value) (.head _), if_neg Bool.false_ne_true,
      ih (fun m hm => h m (.tail _ hm)), map_cons]

theorem memberTexts_fields (fields : List (Text × Option Text))
    (rest : List (Text × Except Thrown Text)) :
    memberTexts e (fields.map (fun m => (m.1, .ok (scalarText e m.2))) ++ rest)
      = (memberTexts e rest).map (fun texts =>
          fields.map (fun m => escapeString (e.normalize m.1)
            ++ unit ':' :: scalarText e m.2) ++ texts) := by
  induction fields with
  | nil =>
    show memberTexts e rest = (memberTexts e rest).map (fun texts => texts)
    cases memberTexts e rest <;> rfl
  | cons m fields ih =>
    rw [map_cons, cons_append, memberTexts, ih]
    cases memberTexts e rest <;> rfl

theorem join_append {a b : List Text} (hb : b ≠ []) : join (a ++ b)
      = a.flatMap (fun x => x ++ [unit ',']) ++ join b := by
  induction a with
  | nil => rfl
  | cons x a ih =>
    obtain ⟨y, rest, hrest⟩ := exists_cons_of_ne_nil (append_ne_nil_of_right_ne_nil a hb)
    rw [cons_append, hrest, join, ← hrest, ih, flatMap_cons]
    simp

/-- The members of a receipt that come first in its canonical text. -/
def leadingFields (r : IntentReceipt) : List (Text × Option Text) :=
  [ (ascii "action", some r.action), (ascii "approvedBy", r.approvedBy), (ascii "error", r.error),
    (ascii "executedBy", r.executedBy),
    (ascii "id", some r.id),
    (ascii "intentId", some r.intentId),
    (ascii "intentSignature", some r.intentSignature),
    (ascii "issuedAt", some (isoText r.issuedAt)),
    (ascii "outcome", some (ascii r.outcome.text)),
    (ascii "paramsHash", some r.paramsHash),
    (ascii "prevReceiptHash", r.prevReceiptHash)]

/-- The members behind them. -/
def trailingMembers (r : IntentReceipt) : List (Text × JsValue) :=
  [ (ascii "reason", .str r.reason), (ascii "requestedBy", .str r.requestedBy),
    (ascii "result", toValue r.result),
    (ascii "risk", riskValue r.risk),
    (ascii "signature", .str r.signature),
    (ascii "target", .str r.target)]

/-- The keys of a receipt, as its code lists them. -/
def receiptKeys : List String :=
  ["id", "intentId", "action", "target", "reason", "requestedBy",
    "approvedBy", "executedBy", "paramsHash", "outcome", "result", "error",
    "intentSignature", "risk", "issuedAt", "prevReceiptHash", "signature"]

/-- The same keys in canonical order, each with its place in the list. -/
def sortedReceiptKeys : List (String × Nat) :=
  [("action", 2), ("approvedBy", 6), ("error", 11), ("executedBy", 7),
    ("id", 0), ("intentId", 1), ("intentSignature", 12), ("issuedAt", 14),
    ("outcome", 9), ("paramsHash", 8), ("prevReceiptHash", 15),
    ("reason", 4), ("requestedBy", 5), ("result", 10), ("risk", 13),
    ("signature", 16), ("target", 3)]

theorem sortMembers_receiptKeys : sortMembers (receiptKeys.zipIdx.map (fun k => (ascii k.1, k.2)))
      = sortedReceiptKeys.map (fun k => (ascii k.1, k.2)) := by
  decide +kernel

theorem sortMembers_receipt (r : IntentReceipt) :
    sortMembers (r.members ++ [(ascii "signature", .str r.signature)])
      = (leadingFields r).map (fun m => (m.1, nullable m.2)) ++ trailingMembers r := by
  have hsort := sortMembers_map
    (fun i => ((r.members.map Prod.snd ++ [JsValue.str r.signature])[i]?).getD JsValue.null)
    (receiptKeys.zipIdx.map (fun k => (ascii k.1, k.2)))
  rw [sortMembers_receiptKeys] at hsort
  exact hsort

theorem omitted_nullable (text : Option Text) : (nullable text).omitted = false := by
  cases text <;> rfl

theorem omitted_riskValue (risk : Option RiskAssessment) : (riskValue risk).omitted = false := by
  cases risk <;> rfl

theorem kept_receipt (r : IntentReceipt) :
    ∀ m ∈ r.members ++ [(ascii "signature", JsValue.str r.signature)], m.2.omitted = false := by
  intro m hm
  simp only [ReceiptBody.members, cons_append, nil_append, mem_cons, not_mem_nil, or_false] at hm
  rcases hm with rfl | rfl | rfl | rfl | rfl | rfl | rfl | rfl | rfl | rfl
    | rfl | rfl | rfl | rfl | rfl | rfl | rfl
  all_goals first
    | rfl
    | exact omitted_nullable _
    | exact omitted_toValue _
    | exact omitted_riskValue _

theorem length_memberTexts {members : List (Text × Except Thrown Text)}
    {texts : List Text} (h : memberTexts e members = .ok texts) :
    texts.length = members.length := by
  induction members generalizing texts with
  | nil => rw [← ok.inj h, length_nil, length_nil]
  | cons m rest ih =>
    obtain ⟨key, text⟩ := m
    cases text with
    | error thrown => cases h
    | ok text =>
      rw [memberTexts] at h
      cases hrest : memberTexts e rest with
      | error thrown =>
        rw [hrest] at h
        cases h
      | ok rest' =>
        rw [hrest] at h
        rw [← ok.inj h, length_cons, length_cons, ih hrest]

/-- **A RECEIPT'S TEXT STARTS WITH ITS LEADING MEMBERS.** -/
theorem receipt_text {r : IntentReceipt} {text : Text} (h : serialize e r.value = .ok text) :
    ∃ tail, text = unit '\x7b' :: ((leadingFields r).flatMap (fieldText e) ++ tail) := by
  have hfields : ((leadingFields r).map (fun m => (m.1, nullable m.2))).map
        (fun m => (m.1, serialize e m.2))
      = (leadingFields r).map (fun m => (m.1, .ok (scalarText e m.2))) := by
    rw [map_map]
    refine map_congr_left fun m _ => ?_
    exact congrArg (Prod.mk m.1) (serialize_nullable m.2)
  rw [IntentReceipt.value, serialize, serializeMembers_kept (kept_receipt r),
    sortMembers_map, sortMembers_receipt, map_append, hfields,
    memberTexts_fields] at h
  cases hrest : memberTexts e ((trailingMembers r).map (fun m => (m.1, serialize e m.2))) with
  | error thrown =>
    rw [hrest] at h
    cases h
  | ok texts =>
    rw [hrest] at h
    have hne : texts ≠ [] := ne_nil_of_length_eq_add_one (length_memberTexts hrest)
    have htext : braced (join ((leadingFields r).map
        (fun m => escapeString (e.normalize m.1)
          ++ unit ':' :: scalarText e m.2) ++ texts)) = text :=
      ok.inj h
    have hfield : (fun m : Text × Option Text =>
        escapeString (e.normalize m.1) ++ unit ':' :: scalarText e m.2
          ++ [unit ',']) = fieldText e := by
      funext m
      rw [fieldText, append_assoc]
    rw [join_append hne, flatMap_map, hfield] at htext
    refine ⟨join texts ++ [unit '\x7d'], ?_⟩
    rw [← htext, braced, append_assoc]

end ReceiptText

/-! ## The last link commits to the list -/

/-- What is documented of the digest and of NFC: a digest is written in ASCII,
    and ASCII text is in NFC. -/
structure Host.Standard (host : Host) : Prop where
  digest_ascii : ∀ text, ∀ c ∈ host.sha256 text, c.val < 128
  normalize_ascii : ∀ text : Text, (∀ c ∈ text, c.val < 128) → host.engine.normalize text = text

/-- No two canonical texts of these receipts have one digest. -/
def NoCollision (host : Host) (l : List IntentReceipt) : Prop :=
  ∀ r ∈ l, ∀ r' ∈ l, ∀ text text', host.canonicalJson r.value = .ok text →
    host.canonicalJson r'.value = .ok text' →
    host.sha256 text = host.sha256 text' → text = text'

section Commitment

variable {host : Host} {l : List IntentReceipt} {text : Text}

theorem canonicalJson_ok {value : JsValue} (h : host.canonicalJson value = .ok text) :
    serialize host.engine value = .ok text := by
  rw [Host.canonicalJson, canonicalize] at h
  cases hcase : serialize host.engine value with
  | error thrown =>
    rw [hcase] at h
    cases h
  | ok text' =>
    rw [hcase] at h
    have heq : text' = text := ok.inj h
    rw [heq]

theorem prevReceiptHash_of_text {r r' : IntentReceipt} (h : host.canonicalJson r.value = .ok text)
    (h' : host.canonicalJson r'.value = .ok text) :
    r.prevReceiptHash.map host.engine.normalize = r'.prevReceiptHash.map host.engine.normalize := by
  obtain ⟨tail, htext⟩ := receipt_text (canonicalJson_ok h)
  obtain ⟨tail', htext'⟩ := receipt_text (canonicalJson_ok h')
  have hkeys : (leadingFields r).map Prod.fst = (leadingFields r').map Prod.fst := rfl
  have hfields := flatMap_fieldText hkeys (cons.inj (htext.symm.trans htext')).2
  exact congrArg (fun l => (l[10]?).getD none) hfields

/-- The link of a receipt of the service is a digest, which is in NFC. -/
theorem Genuine.normalized (hstd : host.Standard) (h : Genuine host l) : ∀ r ∈ l,
      r.prevReceiptHash.map host.engine.normalize = r.prevReceiptHash := by
  induction h with
  | nil => exact fun r hr => nomatch hr
  | issued h hr ih =>
    rename_i l r
    intro x hx
    rcases mem_append.mp hx with hx | hx
    · exact ih x hx
    rw [mem_singleton.mp hx]
    rcases eq_nil_or_concat l with rfl | ⟨rest, last, rfl⟩
    · rw [hr.first rfl]
      rfl
    obtain ⟨hash, hhash, hprev⟩ := hr.linked last (by simp)
    obtain ⟨text, htext⟩ := (h.chained.2 last (by simp)).hashable
    rw [receiptHash_eq htext] at hhash
    rw [hprev, ← ok.inj hhash, Option.map_some,
      hstd.normalize_ascii _ (hstd.digest_ascii text)]

theorem Genuine.commits (hstd : host.Standard) (h : Genuine host l) (hcoll : NoCollision host l) :
    Commits (fun r : IntentReceipt => r.prevReceiptHash) (digest host) l := by
  intro r hr r' hr' hdigest
  obtain ⟨text, htext⟩ := (h.chained.2 r hr).hashable
  obtain ⟨text', htext'⟩ := (h.chained.2 r' hr').hashable
  rw [digest_eq htext, digest_eq htext'] at hdigest
  obtain rfl := hcoll r hr r' hr' text text' htext htext' hdigest
  have hlink := prevReceiptHash_of_text htext htext'
  rw [h.normalized hstd r hr, h.normalized hstd r' hr'] at hlink
  exact hlink

/-- **THE RECEIPT CHAIN**: the service's own receipts verify, and receipts of
    the service that verify in some order, with some left out or repeated,
    are the first ones in the order they were issued. -/
theorem receipts_intact (host : Host) (events : List Event) :
    host.verifyReceiptChain (run host events).service.receipts = .ok (-1)
      ∧ (host.Standard → NoCollision host (run host events).service.receipts →
        ∀ l, (∀ r ∈ l, r ∈ (run host events).service.receipts) →
          host.verifyReceiptChain l = .ok (-1) →
          l <+: (run host events).service.receipts) := by
  have hgenuine := genuine_run host events
  obtain ⟨hchain, hsealed⟩ := hgenuine.chained
  refine ⟨(verifyFrom_iff hsealed none 0).mpr hchain, ?_⟩
  intro hstd hcoll l hl hverified
  have hlsealed : ∀ r ∈ l, Sealed host r := fun r hr => hsealed r (hl r hr)
  have hlchain := (verifyFrom_iff hlsealed none 0).mp hverified
  exact prefix_of_chained hchain (hgenuine.commits hstd hcoll) hlchain hl

end Commitment

/-! ## A run -/

/-- The end of a text, in ASCII: enough of a digest for one receipt. -/
def sampleDigest (text : Text) : Text :=
  (text.reverse.take 8).map (fun c => Fin.ofNat 65536 (c.val % 128))

def sampleHost : Host where
  engine := sampleEngine
  sha256 := sampleDigest
  sign := sampleDigest
  redactSecrets := id
  actions := highImpactActions

theorem standard_sampleHost : sampleHost.Standard where
  digest_ascii text c hc := by
    obtain ⟨d, -, rfl⟩ := mem_map.mp hc
    show d.val % 128 % 65536 < 128
    omega
  normalize_ascii _ _ := rfl

/-- `job.requeue_dead` on a job, declared by alice. -/
def requeue (uuid : String) : Event :=
  .requestIntent
    { action := ascii "job.requeue_dead"
      target := some (ascii "job-1")
      reason := some (ascii "stuck since Monday")
      requestedBy := some (ascii "alice")
      params := none }
    { created := some 0
      risk := .ok none
      uuid := ascii uuid
      stamp := ⟨[], none⟩ }

def executeRequeue (uuid : String) : Event :=
  .execute (ascii uuid)
    { executedBy := ascii "alice"
      confirmation := some (ascii "job.requeue_dead job-1")
      params := none }
    (some 1000) ⟨[], none⟩

/-- A job is requeued and its executor resolves with `outcome`. -/
def requeueRun (outcome : Except Fault Resolved) : List Event :=
  [.registerExecutor (ascii "job.requeue_dead"), requeue "i1", executeRequeue "i1",
    .settle 0 outcome ⟨ascii "r1", some 2000⟩ ⟨ascii "r2", some 3000⟩]

theorem receipts_intact_once : sampleHost.Standard ∧ NoCollision sampleHost
          (run sampleHost (requeueRun (.ok (.value .null)))).service.receipts
      ∧ ∃ r, [r] <+: (run sampleHost (requeueRun (.ok (.value .null)))).service.receipts := by
  have hlength : (run sampleHost
      (requeueRun (.ok (.value .null)))).service.receipts.length = 1 := by
    decide +kernel
  obtain ⟨r, hr⟩ := length_eq_one_iff.mp hlength
  have hcoll : NoCollision sampleHost (run sampleHost
      (requeueRun (.ok (.value .null)))).service.receipts := by
    intro x hx y hy text text' htext htext' _
    rw [hr] at hx hy
    rw [mem_singleton.mp hx] at htext
    rw [mem_singleton.mp hy] at htext'
    exact ok.inj (htext.symm.trans htext')
  obtain ⟨hverified, hprefix⟩ := receipts_intact sampleHost (requeueRun (.ok (.value .null)))
  rw [hr] at hverified
  exact ⟨standard_sampleHost, hcoll, r,
    hprefix standard_sampleHost hcoll [r] (by rw [hr]; exact fun x hx => hx) hverified⟩

end Approval
