import Inqutum.JsNumberProofs
import Inqutum.TransitionProofs

/-!
# The states of the pay page

The page is a reducer over events.  Some of them are the answers to
requests: an invoice as the backend had it when the request was served,
which may be older than what the page has seen since.

Each reading of the clock is handed to the event that makes it, and
`parse` is what `new Date(text)` yields.

The branches of the local events let a settled page be.  Those of the
answers do not look at the state: `never_unsettled_iff` gives the events
that leave a settled page settled.
-/

namespace PaymentPage

open Transition (Along)

/-! ## The life of an invoice, as the client sees it -/

/-- An expiry as it comes. -/
inductive Expiry where
  /-- null, undefined, the empty string. -/
  | missing
  | boolean (value : Bool)
  | number (value : JsNumber)
  | text (value : String)
  | date (time : Option Int)
  /-- An array, or an object that is no date. -/
  | other

structure PayInvoice where
  status : String
  expiresAt : Expiry
  paymentTxHash : Option String

/-- The time a caller passes on. -/
inductive Now where
  /-- Undefined, null or a boolean. -/
  | missing
  | number (value : JsNumber)
  | text (value : String)
  | date (time : Option Int)
  | other

section Clock

variable (parse : String → Option Int)

def positive (time : Option Int) : Option ℚ :=
  time.bind (fun ms => if 0 < ms then some (ms : ℚ) else none)

/-- Seconds below `1e11`, milliseconds from there. -/
def numberTimestamp : JsNumber → Option ℚ
  | .finite q =>
    if q ≤ 0 then none
    else if q < 100000000000 then
      match JsNumber.floor (JsNumber.mul (.finite q) 1000) with
      | .finite ms => some ms
      | _ => none
    else some ⌊q⌋
  | _ => none

def expiryTimestamp : Expiry → Option ℚ
  | .missing => none
  | .boolean _ => none
  | .number value => numberTimestamp value
  | .text value => positive (parse value)
  | .date time => positive time
  | .other => none

/-- `dateNow` is what `Date.now()` reads, if it is read. -/
def normalizeNow (now : Now) (dateNow : Int) : ℚ :=
  match now with
  | .number (.finite q) => q
  | .text value => ((parse value).getD dateNow : Int)
  | .date time => (time.getD dateNow : Int)
  | _ => (dateNow : ℚ)

def hasInvoiceExpired (invoice : PayInvoice) (now : Now) (dateNow : Int) :
    Bool :=
  if invoice.status = "EXPIRED" then true
  else if invoice.status ≠ "PENDING" then false
  else match expiryTimestamp parse invoice.expiresAt with
  | none => false
  | some expiresAt => decide (expiresAt ≤ normalizeNow parse now dateNow)

def effectiveInvoiceStatus (invoice : PayInvoice) (now : Now) (dateNow : Int) : String :=
  if hasInvoiceExpired parse invoice now dateNow = true then "EXPIRED"
  else invoice.status

/-! ## The state machine -/

inductive PayStatus where
  | idle
  | paying
  | verifying
  | paid
  | error
  | expired
  deriving DecidableEq

/-- `TERMINAL_STATES`. -/
def PayStatus.isTerminal : PayStatus → Bool
  | .paid => true
  | .expired => true
  | _ => false

structure PaymentState where
  status : PayStatus
  invoice : Option PayInvoice
  txHash : Option String
  error : Option String

/-- What the two looks at an invoice read from the clock. -/
structure Readings where
  first : Int
  second : Int

/-- The state an invoice forces, if it forces one. -/
def stateForStatus (invoice : PayInvoice) (now : Now) (clock : Readings) :
    Option PayStatus :=
  let status := effectiveInvoiceStatus parse invoice now clock.first
  if status = "PAID" then some .paid
  else if status = "EXPIRED" ∨ hasInvoiceExpired parse invoice now clock.second = true then
    some .expired
  else none

def initialPaymentState (invoice : Option PayInvoice) (now : Now)
    (clock : Readings) : PaymentState where
  status := (invoice.bind (fun invoice => stateForStatus parse invoice now clock)).getD .idle
  invoice := invoice
  txHash := invoice.bind PayInvoice.paymentTxHash
  error := none

inductive PaymentEvent where
  | invoiceLoaded (invoice : Option PayInvoice)
  | pollResult (invoice : Option PayInvoice)
  | payStarted
  | paySent (txHash : Option String)
  | payFailed (error : Option String)
  | verifyStarted
  | verifySucceeded (invoice : Option PayInvoice) (txHash : Option String)
  | verifyFailed (error : Option String)
  | reset
  /-- No event, or one of no known type. -/
  | unknown

/-- What a response brings: the branch of `INVOICE_LOADED` and
    `POLL_RESULT`. -/
def receive (state : PaymentState) (invoice : Option PayInvoice)
    (clock : Readings) : PaymentState :=
  match invoice.bind (fun invoice => stateForStatus parse invoice .missing clock) with
  | some forced =>
    { status := forced
      invoice := invoice
      txHash := (invoice.bind PayInvoice.paymentTxHash).or state.txHash
      error := none }
  | none =>
    -- a pending invoice does not interrupt an attempt
    if state.status = .paying ∨ state.status = .verifying then
      { state with invoice := invoice }
    else { state with status := .idle, invoice := invoice, error := none }

/-- A local event leaves a settled page as it is. -/
def unlessTerminal (state after : PaymentState) : PaymentState :=
  if state.status.isTerminal = true then state else after

def paymentReducer (state : PaymentState) (e : PaymentEvent × Readings) :
    PaymentState :=
  match e.1 with
  | .invoiceLoaded invoice => receive parse state invoice e.2
  | .pollResult invoice => receive parse state invoice e.2
  | .payStarted => unlessTerminal state { state with status := .paying, error := none }
  | .paySent txHash => unlessTerminal state { state with
      status := .verifying
      txHash := txHash.or state.txHash
      error := none }
  | .payFailed error => unlessTerminal state { state with
      status := .error
      error := some (error.getD "Payment failed") }
  | .verifyStarted => unlessTerminal state { state with status := .verifying, error := none }
  | .verifySucceeded invoice txHash =>
    { status := .paid
      invoice := invoice.or state.invoice
      txHash := ((invoice.bind PayInvoice.paymentTxHash).or txHash).or state.txHash
      error := none }
  | .verifyFailed error => unlessTerminal state { state with
      status := .error
      error := some (error.getD "Verification failed") }
  | .reset => unlessTerminal state { state with status := .idle, error := none }
  | .unknown => state

end Clock

/-! ## The property and its condition -/

/-- What a settled page keeps in a later state. -/
def Kept (state later : PaymentState) : Prop :=
  (state.status = .paid → later.status = .paid
    ∧ ∀ hash ∈ state.txHash, ∀ hash' ∈ later.txHash, hash' = hash)
  ∧ (state.status = .expired → later.status ∉ [.idle, .paying, .verifying, .error])

/-- No other hash than the page has. -/
def SameHash (state : PaymentState) (offered : Option String) : Prop :=
  ∀ hash ∈ state.txHash, ∀ hash' ∈ offered, hash' = hash

/-- A response forces a settled page to stay so. -/
def AgreesWith (state : PaymentState) (invoice : Option PayInvoice)
    (forced : Option PayStatus) : Prop :=
  (state.status = .paid → forced = some .paid
    ∧ SameHash state (invoice.bind PayInvoice.paymentTxHash))
  ∧ (state.status = .expired → forced.isSome = true)

/-- An answer that comes to a settled page agrees with it. -/
def Settles (parse : String → Option Int) (state : PaymentState)
    (e : PaymentEvent × Readings) : Prop :=
  let forced := fun invoice : Option PayInvoice => invoice.bind (fun invoice =>
    stateForStatus parse invoice .missing e.2)
  match e.1 with
  | .invoiceLoaded invoice => AgreesWith state invoice (forced invoice)
  | .pollResult invoice => AgreesWith state invoice (forced invoice)
  | .verifySucceeded invoice txHash => state.status = .paid →
      SameHash state ((invoice.bind PayInvoice.paymentTxHash).or txHash)
  | _ => True

/-! ## One event -/

/-- A settled page as it stays: it keeps the hash it has. -/
structure Stays (state later : PaymentState) : Prop where
  paid : state.status = .paid → later.status = .paid
  expired : state.status = .expired → later.status = .paid ∨ later.status = .expired
  hash : state.status = .paid → ∀ hash ∈ state.txHash, later.txHash = some hash

theorem Stays.refl (state : PaymentState) : Stays state state :=
  ⟨fun h => h, Or.inr, fun _ _ h => h⟩

theorem Stays.trans {a b c : PaymentState} (hab : Stays a b) (hbc : Stays b c) : Stays a c where
  paid h := hbc.paid (hab.paid h)
  expired h := by
    rcases hab.expired h with hp | he
    · exact .inl (hbc.paid hp)
    · exact hbc.expired he
  hash h hash hh := hbc.hash (hab.paid h) hash (hab.hash h hash hh)

theorem Stays.kept {state later : PaymentState} (h : Stays state later) : Kept state later := by
  constructor
  · intro hpaid
    refine ⟨h.paid hpaid, ?_⟩
    intro hash hh hash' hh'
    exact Option.some.inj (hh'.symm.trans (h.hash hpaid hash hh))
  intro hexpired
  rcases h.expired hexpired with heq | heq
  · rw [heq]
    decide
  rw [heq]
  decide

theorem stays_unlessTerminal {state after : PaymentState} :
    Stays state (unlessTerminal state after) := by
  rw [unlessTerminal]
  split
  · exact Stays.refl state
  rename_i hterminal
  have hno : ∀ status, state.status = status → status.isTerminal = true →
      False := by
    rintro status rfl h
    exact hterminal h
  exact ⟨fun h => (hno _ h rfl).elim, fun h => (hno _ h rfl).elim, fun h => (hno _ h rfl).elim⟩

theorem hash_iff {state : PaymentState} {offered : Option String} : SameHash state offered
      ↔ ∀ hash ∈ state.txHash, offered.or state.txHash = some hash := by
  refine forall₂_congr (fun hash hh => ?_)
  cases offered with
  | none => exact ⟨fun _ => hh, nofun⟩
  | some hash' =>
    refine ⟨fun h => congrArg some (h hash' rfl), fun h x hx => ?_⟩
    exact Option.some.inj (hx.symm.trans h)

section Step

variable {parse : String → Option Int} {state : PaymentState} {clock : Readings}
  {invoice : Option PayInvoice} {e : PaymentEvent × Readings}

theorem stateForStatus_cases {invoice : PayInvoice} {now : Now} {forced : PayStatus}
    (h : stateForStatus parse invoice now clock = some forced) :
    forced = .paid ∨ forced = .expired := by
  rw [stateForStatus] at h
  split at h
  · exact .inl (Option.some.inj h).symm
  split at h
  · exact .inr (Option.some.inj h).symm
  · cases h

/-- **A RESPONSE**: it leaves a settled page settled exactly if it agrees with
    it. -/
theorem receive_agrees (h : AgreesWith state invoice (invoice.bind (fun invoice =>
      stateForStatus parse invoice .missing clock))) :
    Stays state (receive parse state invoice clock) := by
  rw [receive]
  cases hforced : invoice.bind (fun invoice => stateForStatus parse invoice .missing clock) with
  | none =>
    rw [hforced] at h
    have hpaid : state.status ≠ .paid := fun hp => nomatch (h.1 hp).1
    have hexpired : state.status ≠ .expired := fun he => nomatch h.2 he
    exact ⟨fun hp => absurd hp hpaid, fun he => absurd he hexpired, fun hp => absurd hp hpaid⟩
  | some forced =>
    rw [hforced] at h
    obtain ⟨_, -, hstate⟩ := Option.bind_eq_some_iff.mp hforced
    exact ⟨fun hp => Option.some.inj (h.1 hp).1, fun _ => stateForStatus_cases hstate,
      fun hp => hash_iff.mp (h.1 hp).2⟩

theorem agrees_of_kept (h : Kept state (receive parse state invoice clock)) :
    AgreesWith state invoice (invoice.bind (fun invoice =>
      stateForStatus parse invoice .missing clock)) := by
  rw [receive] at h
  cases hforced : invoice.bind (fun invoice => stateForStatus parse invoice .missing clock) with
  | none =>
    rw [hforced] at h
    dsimp only at h
    -- without a forced state a settled page becomes idle
    have hidle : state.status.isTerminal = true →
        ¬ (state.status = .paying ∨ state.status = .verifying) := by
      rintro hterminal (heq | heq)
      · rw [heq] at hterminal
        cases hterminal
      rw [heq] at hterminal
      cases hterminal
    constructor
    · intro hp
      rw [if_neg (hidle (by rw [hp]; rfl))] at h
      cases (h.1 hp).1
    intro he
    rw [if_neg (hidle (by rw [he]; rfl))] at h
    exact absurd (.head _) (h.2 he)
  | some forced =>
    rw [hforced] at h
    dsimp only at h
    refine ⟨fun hp => ⟨congrArg some (h.1 hp).1, ?_⟩, fun _ => rfl⟩
    intro hash hh hash' hh'
    refine (h.1 hp).2 hash hh hash' ?_
    show _ = some hash'
    rw [show invoice.bind PayInvoice.paymentTxHash = some hash' from hh']
    rfl

/-- **ONE EVENT**. -/
theorem stays_of_settles
    (h : Settles parse state e) : Stays state (paymentReducer parse state e) := by
  obtain ⟨event, clock⟩ := e
  cases event with
  | invoiceLoaded invoice => exact receive_agrees h
  | pollResult invoice => exact receive_agrees h
  | verifySucceeded invoice txHash =>
    exact ⟨fun _ => rfl, fun _ => .inl rfl, fun hp => hash_iff.mp (h hp)⟩
  | unknown => exact Stays.refl state
  | _ => exact stays_unlessTerminal

theorem settles_of_kept (h : Kept state (paymentReducer parse state e)) :
    Settles parse state e := by
  obtain ⟨event, clock⟩ := e
  cases event with
  | invoiceLoaded invoice => exact agrees_of_kept h
  | pollResult invoice => exact agrees_of_kept h
  | verifySucceeded invoice txHash =>
    intro hp hash hh hash' hh'
    refine (h.1 hp).2 hash hh hash' ?_
    show ((invoice.bind PayInvoice.paymentTxHash).or txHash).or state.txHash = some hash'
    rw [show (invoice.bind PayInvoice.paymentTxHash).or txHash = some hash' from hh']
    rfl
  | _ => exact trivial

end Step

/-- **WHEN THE PAGE STAYS SETTLED**: in every later state, exactly if each
    answer that comes to the settled page agrees with it. -/
theorem never_unsettled_iff (parse : String → Option Int)
    (invoice : Option PayInvoice) (now : Now) (clock : Readings)
    (events : List (PaymentEvent × Readings)) :
    (∀ before between after, events = before ++ between ++ after →
      Kept (before.foldl (paymentReducer parse) (initialPaymentState parse invoice now clock))
        ((before ++ between).foldl (paymentReducer parse)
          (initialPaymentState parse invoice now clock)))
      ↔ Along (paymentReducer parse) (Settles parse)
          (initialPaymentState parse invoice now clock) events := by
  constructor
  · intro h
    rw [Along.iff_splits]
    intro before e after heq
    have hkept := h before [e] after (by rw [heq]; simp)
    rw [List.foldl_append] at hkept
    exact settles_of_kept hkept
  · rintro h before between after rfl
    obtain ⟨-, hbetween⟩ := Along.append.mp (Along.append.mp h).1
    rw [List.foldl_append]
    refine Stays.kept (Along.invariant ?_ (Stays.refl _) hbetween)
    intro state e hstays hsettles
    exact hstays.trans (stays_of_settles hsettles)

/-- **A PAID PAGE IS LEFT**: a response that was served before the payment
    arrives after it. -/
theorem paid_page_unsettled : ¬ ∀ before between after : List (PaymentEvent × Readings),
      [(.verifySucceeded (some ⟨"PAID", .missing, some "aa"⟩) none, ⟨0, 0⟩),
        (.pollResult (some ⟨"PENDING", .missing, none⟩), ⟨0, 0⟩)]
        = before ++ between ++ after →
      Kept (before.foldl (paymentReducer (fun _ => none)) (initialPaymentState (fun _ => none)
            (some ⟨"PENDING", .missing, none⟩) .missing ⟨0, 0⟩))
        ((before ++ between).foldl (paymentReducer (fun _ => none))
          (initialPaymentState (fun _ => none)
            (some ⟨"PENDING", .missing, none⟩) .missing ⟨0, 0⟩)) := by
  intro h
  have hkept := h [_] [_] [] rfl
  have hstatus := (hkept.1 (by decide +kernel)).1
  exact absurd hstatus (by decide +kernel)

end PaymentPage
