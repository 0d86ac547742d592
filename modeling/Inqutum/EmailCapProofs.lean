import Inqutum.EmailEnqueueProofs

/-!
# The e-mail cap of an invoice

A call lists the deliveries of its invoice, refuses where there are as
many as `maxEmailsPerInvoice`, and inserts in a later step.  The check is
as good as the list: a whole cap holds in every run in which nothing is
inserted for the invoice between a call's `listDeliveries` and its own
insert (`within_cap_of_apart`).

Two calls that list before either of them inserts may both take the last
place (`cap_overrun`).
-/

namespace EmailQueue

open Transition (Along)
open JsNumber JsText List MemoryEmailDeliveryStorage

/-! ## The property and its condition -/

/-- No invoice has deliveries beyond the cap. -/
def WithinCap (cfg : Config) (s : State) : Prop :=
  ∀ invoiceId, s.store.countFor invoiceId ≠ 0 →
    cfg.maxEmailsPerInvoice.lt (.ofNat (s.store.countFor invoiceId)) = false

/-- The request of a step that is about to insert a delivery, with what its
    call saw of the invoice's deliveries. -/
def inserting (cfg : Config) (s : State) : Event → Option (Request × List EmailDelivery)
  | .advance call env =>
    match s.phase call with
    | .listed req seen =>
      if cfg.maxEmailsPerInvoice.le (.ofNat seen.length) then none
      else if (nonEmpty req.input.dedupeKey).isSome then none
      else if env.quota.allowed then some (req, seen) else none
    | .lookedAgain req seen none =>
      if env.quota.allowed && (s.store.existing (req.stored cfg)).isNone
      then some (req, seen) else none
    | _ => none
  | _ => none

/-- The deliveries for an invoice among those that a call saw. -/
def listedFor (seen : List EmailDelivery) (invoiceId : String) : Nat :=
  seen.countP (fun d => decide (d.invoiceId = invoiceId))

/-- The deliveries for an invoice that were inserted since a call saw some. -/
def insertedSince (s : State) (seen : List EmailDelivery) (invoiceId : String) : Nat :=
  s.store.countFor invoiceId - listedFor seen invoiceId

/-- No delivery for the invoice was inserted between the `listDeliveries` of
    the call and its own insert. -/
def Apart (cfg : Config) (s : State) (e : Event) : Prop :=
  ∀ r ∈ inserting cfg s e, insertedSince s r.2 r.1.input.invoiceId = 0

instance (cfg : Config) (s : State) (e : Event) : Decidable (Apart cfg s e) :=
  inferInstanceAs (Decidable (∀ r ∈ inserting cfg s e, _ = 0))

/-! ## What a step does to the count -/

section Count

variable {h : Host} {cfg : Config} {inputs : Nat → EnqueueEmailInput}
  {s : State}

theorem slice_all {α : Type} (items : List α) :
    slice items 0 (0 + (items.length : Int)) = items := by
  have hstop : clampIndex items.length (0 + (items.length : Int)) = items.length := by
    rw [clampIndex, if_neg (by omega)]
    omega
  rw [slice, hstop]
  exact take_length

/-- A listing holds every delivery for its invoice. -/
theorem listedFor_listDeliveries (store : MemoryEmailDeliveryStorage) (invoiceId : String) :
    listedFor (store.listDeliveries { invoiceId := some invoiceId }) invoiceId
      = store.countFor invoiceId := by
  rw [listedFor, listDeliveries, countFor]
  refine (congrArg (countP _) (slice_all _)).trans ?_
  rw [(perm_insertionSort _ _).countP_eq, countP_filter]
  refine countP_congr fun d _ => ?_
  rw [Bool.and_eq_true]
  refine and_iff_left_of_imp fun hid => ?_
  -- an empty id selects every delivery
  rw [EmailDeliveryFilter.selects]
  dsimp only
  cases hgiven : nonEmpty (some invoiceId) with
  | none => rfl
  | some i =>
    cases (nonEmpty_eq_some.mp hgiven).1
    rw [Option.all_some, hid]
    rfl

/-- Right after a listing, nothing was inserted since. -/
theorem insertedSince_listDeliveries (invoiceId : String) :
    insertedSince s (s.store.listDeliveries { invoiceId := some invoiceId }) invoiceId = 0 := by
  rw [insertedSince, listedFor_listDeliveries, Nat.sub_self]

/-- What a phase remembers of the deliveries that its call saw. -/
def SeenOk (cfg : Config) (store : MemoryEmailDeliveryStorage) : Phase → Prop
  | .listed req seen => listedFor seen req.input.invoiceId ≤ store.countFor req.input.invoiceId
  | .lookedAgain req seen _ =>
    listedFor seen req.input.invoiceId ≤ store.countFor req.input.invoiceId
      ∧ cfg.maxEmailsPerInvoice.le (.ofNat seen.length) = false
  | _ => True

variable {e : Event} {seen : List EmailDelivery} {call : Nat} {phase : Phase} {req : Request}
  {env : Env}

theorem SeenOk.mono {store store' : MemoryEmailDeliveryStorage} (hok : SeenOk cfg store phase)
    (hcount : ∀ i, store.countFor i ≤ store'.countFor i) : SeenOk cfg store' phase := by
  cases phase with
  | listed req seen => exact hok.trans (hcount _)
  | lookedAgain req seen existing => exact ⟨hok.1.trans (hcount _), hok.2⟩
  | _ => trivial

/-- A step of a call: its next phase, and what it inserts. -/
structure Advanced (cfg : Config) (s s' : State) (call : Nat) (e : Event) : Prop where
  phase : ∃ phase, s'.phase = (s.set call phase).phase ∧ SeenOk cfg s'.store phase
  count : ∀ i, s'.store.countFor i = s.store.countFor i + (if (inserting cfg s e).any
        (fun r => decide (r.1.input.invoiceId = i)) then 1 else 0)

theorem advanced_set (hphase : SeenOk cfg s.store phase) (hnone : inserting cfg s e = none) :
    Advanced cfg s (s.set call phase) call e where
  phase := ⟨phase, rfl, hphase⟩
  count i := by
    rw [hnone]
    rfl

theorem rateChecked_seen (env : Env) (req : Request) :
    SeenOk cfg s.store (rateChecked env req s) := by
  rw [rateChecked]
  cases env.rate.allowed with
  | false => trivial
  | true => exact (listedFor_listDeliveries s.store _).le

theorem settled_seen (d : EmailDelivery) (input : EnqueueEmailInput) (recipient : Option String) :
    SeenOk cfg s.store (settled h d input recipient) := by
  rw [settled]
  cases sameNotification h d input recipient with
  | error thrown => trivial
  | ok same => cases same <;> trivial

theorem begun_seen (input : EnqueueEmailInput) (env : Env) :
    SeenOk cfg s.store (begun h input env s) := by
  rw [begun]
  dsimp only
  cases (h.validateRecipient input.recipientEmail).valid with
  | false => trivial
  | true =>
    cases (h.validateContent (contentText h input)).valid with
    | false => trivial
    | true =>
      cases input.dedupeKey with
      | none => exact rateChecked_seen env _
      | some raw =>
        dsimp only
        cases validKey (trim raw) <;> trivial

/-- The quota and the insert: one more delivery for the invoice, unless the
    quota refuses or a delivery has the key. -/
theorem reserved_advanced (hfresh : s.store.get env.uuid = none) (hinserting : inserting cfg s e
      = if env.quota.allowed && (s.store.existing (req.stored cfg)).isNone
        then some (req, seen) else none) : Advanced cfg s (reserved cfg env req s call) call e := by
  rw [reserved]
  cases hquota : env.quota.allowed with
  | false =>
    rw [hquota] at hinserting
    exact advanced_set trivial hinserting
  | true =>
    rw [if_neg (by decide : ¬ ((!true) = true))]
    rw [hquota, Bool.true_and] at hinserting
    dsimp only
    have hnew : ∀ (status : EmailDeliveryStatus), inserting cfg s e = some (req, seen) →
        ∀ i, (⟨s.store.deliveries.set env.uuid
            (fresh (req.stored cfg) status
              env.uuid env.now)⟩ : MemoryEmailDeliveryStorage).countFor i
          = s.store.countFor i + (if (inserting cfg s e).any
            (fun r => decide (r.1.input.invoiceId = i)) then 1 else 0) := by
      intro status hsome i
      rw [countFor_new hfresh, hsome, Option.any_some]
      by_cases hi : req.input.invoiceId = i
      · rw [if_pos (show (fresh (req.stored cfg)
          status env.uuid env.now).invoiceId = i from hi),
          if_pos (decide_eq_true hi)]
      rw [if_neg (show ¬ (fresh (req.stored cfg)
        status env.uuid env.now).invoiceId = i from hi), if_neg]
      exact fun hany => hi (of_decide_eq_true hany)
    cases hexisting : s.store.existing (req.stored cfg) with
    | none =>
      rw [hexisting] at hinserting
      rw [createDelivery_new hexisting,
        createDeliveryWithDedupe_new hexisting]
      split
      · exact ⟨⟨_, rfl, trivial⟩, hnew _ hinserting⟩
      · exact ⟨⟨_, rfl, trivial⟩, hnew _ hinserting⟩
    | some found =>
      rw [hexisting] at hinserting
      have hkey : (nonEmpty (req.stored cfg).dedupeKey).isSome = true := by
        cases hkey : nonEmpty (req.stored cfg).dedupeKey with
        | none =>
          rw [existing_of_no_key hkey] at hexisting
          cases hexisting
        | some key => rfl
      rw [if_pos hkey, createDeliveryWithDedupe_old hexisting]
      refine ⟨⟨_, rfl, trivial⟩, ?_⟩
      intro i
      rw [hinserting]
      rfl

/-- **ONE STEP OF A CALL** inserts what `inserting` says. -/
theorem advance_advanced (hseen : SeenOk cfg s.store (s.phase call))
    (hfresh : s.store.get env.uuid = none) :
    Advanced cfg s (advance h cfg (inputs call) env s call) call (.advance call env) := by
  rw [advance]
  cases hphase : s.phase call with
  | ready =>
    exact advanced_set (begun_seen _ env) (by rw [inserting, hphase])
  | lookedUp normalized key existing =>
    have hno : inserting cfg s (.advance call env) = none := by rw [inserting, hphase]
    cases existing with
    | none => exact advanced_set (rateChecked_seen env _) hno
    | some d => exact advanced_set (settled_seen d _ _) hno
  | listed req seen =>
    rw [hphase] at hseen
    dsimp only
    rw [counted]
    cases hcap : cfg.maxEmailsPerInvoice.le (.ofNat seen.length) with
    | true =>
      refine advanced_set trivial ?_
      rw [inserting, hphase]
      dsimp only
      rw [hcap, if_pos rfl]
    | false =>
      rw [if_neg Bool.false_ne_true]
      cases hkey : nonEmpty req.input.dedupeKey with
      | some key =>
        refine advanced_set ⟨hseen, hcap⟩ ?_
        rw [inserting, hphase]
        dsimp only
        rw [hcap, hkey, if_neg Bool.false_ne_true]
        rfl
      | none =>
        have hstored : nonEmpty (req.stored cfg).dedupeKey = none := hkey
        have hins : inserting cfg s (.advance call env) = if env.quota.allowed
                && (s.store.existing (req.stored cfg)).isNone
              then some (req, seen) else none := by
          rw [existing_of_no_key hstored, inserting, hphase]
          dsimp only
          rw [hcap, hkey, if_neg Bool.false_ne_true]
          cases env.quota.allowed <;> rfl
        exact reserved_advanced hfresh hins
  | lookedAgain req seen existing =>
    cases existing with
    | none =>
      have hins : inserting cfg s (.advance call env) = if env.quota.allowed
              && (s.store.existing (req.stored cfg)).isNone
            then some (req, seen) else none := by
        rw [inserting, hphase]
      exact reserved_advanced hfresh hins
    | some d =>
      exact advanced_set (settled_seen d _ _) (by rw [inserting, hphase])
  | inserted req d created =>
    have hno : inserting cfg s (.advance call env) = none := by rw [inserting, hphase]
    dsimp only
    rw [compared]
    split
    · exact ⟨⟨_, rfl, trivial⟩, fun i => by rw [hno]; rfl⟩
    split
    · exact advanced_set trivial hno
    · exact advanced_set trivial hno
    split
    · exact ⟨⟨_, rfl, trivial⟩, fun i => by rw [hno]; rfl⟩
    · exact advanced_set trivial hno
  | recovering req error existing =>
    have hno : inserting cfg s (.advance call env) = none := by rw [inserting, hphase]
    cases existing with
    | none => exact advanced_set trivial hno
    | some d => exact advanced_set (settled_seen d _ _) hno
  | done outcome =>
    have hno : inserting cfg s (.advance call env) = none := by rw [inserting, hphase]
    refine ⟨⟨.done outcome, ?_, trivial⟩, fun i => by rw [hno]; rfl⟩
    exact (Function.update_eq_self_iff.mpr hphase.symm).symm

/-- Every call remembers what was there. -/
def AllSeen (cfg : Config) (s : State) : Prop :=
  ∀ call, SeenOk cfg s.store (s.phase call)

variable (h inputs) in
/-- **THE STEP**: it inserts what `inserting` says, and every call still
    remembers what was there. -/
theorem step_count (hseen : AllSeen cfg s) (hfresh : Fresh s e) :
    AllSeen cfg (step h cfg inputs s e)
      ∧ ∀ i, (step h cfg inputs s e).store.countFor i = s.store.countFor i
        + (if (inserting cfg s e).any
            (fun r => decide (r.1.input.invoiceId = i)) then 1 else 0) := by
  cases e with
  | advance call env =>
    have hstep : Advanced cfg s (step h cfg inputs s (.advance call env))
        call (.advance call env) := advance_advanced (hseen call) hfresh
    refine ⟨fun call' => ?_, hstep.count⟩
    obtain ⟨phase, hphase, hok⟩ := hstep.phase
    rw [hphase]
    by_cases heq : call' = call
    · subst heq
      rw [phase_set_self]
      exact hok
    rw [phase_set_of_ne s phase heq]
    exact (hseen call').mono (fun i => by
      rw [hstep.count i]
      exact Nat.le_add_right _ _)
  | update id update now =>
    have hcount := s.store.countFor_updateDeliveryStatus id update now
    exact ⟨fun call => (hseen call).mono (fun i => (hcount i).ge), hcount⟩
  | resume limit now =>
    have hcount := s.store.countFor_resumePausedDeliveries limit now
    exact ⟨fun call => (hseen call).mono (fun i => (hcount i).ge), hcount⟩

/-- A call that inserts saw no more than is there, and less than the cap. -/
theorem seen_of_inserting (hseen : AllSeen cfg s)
    (hinserting : inserting cfg s e = some (req, seen)) :
    listedFor seen req.input.invoiceId ≤ s.store.countFor req.input.invoiceId
      ∧ cfg.maxEmailsPerInvoice.le (.ofNat seen.length) = false := by
  cases e with
  | advance call env =>
    have hcall := hseen call
    rw [inserting] at hinserting
    split at hinserting
    · rename_i req' seen' hphase
      rw [hphase] at hcall
      split at hinserting
      · cases hinserting
      rename_i hcap
      split at hinserting
      · cases hinserting
      split at hinserting
      · cases hinserting
        exact ⟨hcall, Bool.eq_false_of_not_eq_true hcap⟩
      · cases hinserting
    · rename_i req' seen' hphase
      rw [hphase] at hcall
      split at hinserting
      · cases hinserting
        exact hcall
      · cases hinserting
    · cases hinserting
  | update id update now => cases hinserting
  | resume limit now => cases hinserting

variable (h inputs) in
/-- **ONE STEP KEEPS THE CAP**: what the call saw is all there is, and the
    check left room for one more. -/
theorem step_within_cap (hwhole : cfg.maxEmailsPerInvoice.IsWhole) (hseen : AllSeen cfg s)
    (hcap : WithinCap cfg s) (hfresh : Fresh s e) (hapart : Apart cfg s e) :
    WithinCap cfg (step h cfg inputs s e) := by
  intro i hne
  have hcount := (step_count h inputs hseen hfresh).2 i
  cases hinserting : inserting cfg s e with
  | none =>
    rw [hinserting] at hcount
    rw [hcount] at hne ⊢
    exact hcap i hne
  | some r =>
    obtain ⟨req, seen⟩ := r
    rw [hinserting, Option.any_some] at hcount
    by_cases hi : req.input.invoiceId = i
    · subst hi
      rw [decide_eq_true rfl, if_pos rfl] at hcount
      obtain ⟨-, hroom⟩ := seen_of_inserting hseen hinserting
      have hall : s.store.countFor req.input.invoiceId ≤ listedFor seen req.input.invoiceId :=
        Nat.sub_eq_zero_iff_le.mp (hapart (req, seen) hinserting)
      have hlen : listedFor seen req.input.invoiceId ≤ seen.length := countP_le_length
      have hfits : le (.ofNat (seen.length + 1)) cfg.maxEmailsPerInvoice = true :=
        succ_le_of_whole hwhole hroom
      have hle : le (.ofNat (s.store.countFor req.input.invoiceId + 1))
          (.ofNat (seen.length + 1)) = true := by
        refine decide_eq_true (Nat.cast_le.mpr ?_)
        exact Nat.succ_le_succ (hall.trans hlen)
      rw [hcount, lt, le_trans hle hfits]
      exact Bool.and_false _
    rw [decide_eq_false hi, if_neg Bool.false_ne_true, Nat.add_zero] at hcount
    rw [hcount] at hne ⊢
    exact hcap i hne

end Count

theorem withinCap_new (cfg : Config) : WithinCap cfg .new :=
  fun _ hne => absurd rfl hne

/-- **THE CAP HOLDS** in every state of a run in which each call that inserts
    for an invoice is the first to do so since it listed the deliveries. -/
theorem within_cap_of_apart (h : Host) (cfg : Config)
    (inputs : Nat → EnqueueEmailInput) (events : List Event)
    (hwhole : cfg.maxEmailsPerInvoice.IsWhole)
    (hfresh : Along (step h cfg inputs) Fresh .new events)
    (hapart : Along (step h cfg inputs) (Apart cfg) .new events) :
    Along (step h cfg inputs) (fun s e => WithinCap cfg (step h cfg inputs s e)) .new events := by
  refine (hfresh.and hapart).imp (I := fun s => AllSeen cfg s ∧ WithinCap cfg s) ?_
    ⟨fun _ => trivial, withinCap_new cfg⟩
  rintro s e ⟨hseen, hcap⟩ ⟨hnew, hapart⟩
  have hafter := step_within_cap h inputs hwhole hseen hcap hnew hapart
  exact ⟨hafter, (step_count h inputs hseen hnew).1, hafter⟩

/-! ## Two calls for the last place -/

section Sample

def capConfig : Config := ⟨1, 3⟩

/-- Notifications without a key, all for one invoice. -/
def capInputs : Nat → EnqueueEmailInput := fun _ =>
  { sampleInput "GA" "client@x" "Invoice" [] with dedupeKey := none }

/-- One call after the other: the second one is refused. -/
def turnEvents : List Event :=
  [.advance 0 (sampleEnv "a"), .advance 0 (sampleEnv "a"),
    .advance 1 (sampleEnv "b"), .advance 1 (sampleEnv "b")]

theorem within_cap_of_apart_turn : Along (step sampleHost capConfig capInputs)
      (fun s e => WithinCap capConfig (step sampleHost capConfig capInputs s e)) .new turnEvents
    ∧ (turnEvents.foldl (step sampleHost capConfig capInputs) .new).store.countFor "inv" = 1 :=
  ⟨within_cap_of_apart sampleHost capConfig capInputs turnEvents (.inl (by decide))
    (by decide +kernel) (by decide +kernel), by decide +kernel⟩

/-- Both calls look before either inserts. -/
def overlapEvents : List Event :=
  [.advance 0 (sampleEnv "a"), .advance 1 (sampleEnv "b"),
    .advance 0 (sampleEnv "a"), .advance 1 (sampleEnv "b")]

/-- **TWO CALLS FOR THE LAST PLACE** both take it. -/
theorem cap_overrun : ¬ Along (step sampleHost capConfig capInputs) (fun s e => WithinCap capConfig
        (step sampleHost capConfig capInputs s e)) .new overlapEvents := by
  rintro ⟨-, -, -, hlast, -⟩
  have htwo : (overlapEvents.foldl (step sampleHost capConfig capInputs)
      .new).store.countFor "inv" = 2 := by decide +kernel
  have hcap : (overlapEvents.foldl (step sampleHost capConfig capInputs)
        .new).store.countFor "inv" ≠ 0 →
      capConfig.maxEmailsPerInvoice.lt (.ofNat
        ((overlapEvents.foldl (step sampleHost capConfig capInputs)
          .new).store.countFor "inv")) = false := hlast "inv"
  rw [htwo] at hcap
  exact absurd (hcap (by decide)) (by decide +kernel)

end Sample

end EmailQueue
