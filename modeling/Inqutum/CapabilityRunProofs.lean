import Inqutum.CapabilityTokenProofs

/-!
# One capability, one effect

The calls of one capability service in any order.  A call of `use` is one
event up to the start of its action, and the end of the action is another,
so that any calls may come between them.

What the service relies on is stated for each event: the clock never runs
backwards (`Clocked`), an id is never handed out twice (`Fresh`), nobody
else can sign (`Unforged`), and only claims that were authenticated are
revoked (`Authenticated`).

`Barred` carries the first result.  While the action of a capability runs
and after it has completed, the capability is expired, revoked or in the
ledger; deleting a ledger entry never takes away the last of the three.
-/

namespace Capability

open JsonText Transition
open Canonical (JsValue)
open List InsertionMap Canonical

/-! ## Runs -/

inductive Outcome where
  | running
  | completed
  | failed
  deriving DecidableEq

/-- A call of `use` whose action was started. -/
structure Call where
  claims : Claims
  outcome : Outcome

/-- The service, the last reading of its clock, the claims it has issued and
    the actions it has started. -/
structure World where
  service : Service
  clock : Int
  issued : List Claims
  calls : List Call

inductive Event where
  | issue (input : IssueInput) (reading : Int) (uuid : Text)
  | verify (token : JsValue) (scope : Scope) (now : Int)
  | use (token : JsValue) (scope : Scope) (now sweepAt : Int)
  /-- The action of a call completes or throws. -/
  | settle (call : Nat) (completes : Bool)
  | revokeCapability (claims : Claims) (first second : Int)
  | revokeSubject (subject : Text) (cutoff : Int)

/-- The readings of the clock, in their order. -/
def Event.readings : Event → List Int
  | issue _ reading _ => [reading]
  | verify _ _ now => [now]
  | use _ _ now sweepAt => [now, sweepAt]
  | settle _ _ => []
  | revokeCapability _ first second => [first, second]
  | revokeSubject _ cutoff => [cutoff]

def World.settle (w : World) (k : Nat) (completes : Bool) : World :=
  match w.calls[k]? with
  | some ⟨claims, .running⟩ =>
    if completes then
      { w with
        service := w.service.commit claims
        calls := w.calls.set k ⟨claims, .completed⟩ }
    else
      { w with
        service := w.service.release claims
        calls := w.calls.set k ⟨claims, .failed⟩ }
  | _ => w

/-- A call, apart from the time it takes. -/
def act (host : Host) (w : World) : Event → World
  | .issue input reading uuid =>
    match issue host w.service input reading uuid with
    | .error _ => w
    | .ok (_, claims) => { w with issued := w.issued ++ [claims] }
  | .verify token scope now => { w with service := (verify host w.service token scope now).1 }
  | .use token scope now sweepAt =>
    match beginUse host w.service token scope now sweepAt with
    | (s', .error _) => { w with service := s' }
    | (s', .ok claims) => { w with service := s', calls := w.calls ++ [⟨claims, .running⟩] }
  | .settle k completes => w.settle k completes
  | .revokeCapability claims first second =>
    { w with service := (revokeCapability w.service claims first second).1 }
  | .revokeSubject subject cutoff =>
    { w with service := (revokeSubject w.service subject cutoff).1 }

def step (host : Host) (w : World) (e : Event) : World :=
  { act host w e with clock := e.readings.getLast?.getD w.clock }

def start (s : Service) (clock : Int) : World := ⟨s, clock, [], []⟩

/-- The end of an action reads no clock. -/
theorem step_settle (host : Host) (w : World) (k : Nat) (completes : Bool) :
    step host w (.settle k completes) = w.settle k completes := by
  show ({ w.settle k completes with clock := w.clock } : World) = _
  rw [World.settle]
  split
  · split <;> rfl
  · rfl

theorem step_use (host : Host) (w : World) (token : JsValue) (scope : Scope) (now sweepAt : Int) :
    (step host w (.use token scope now sweepAt)).service
      = (beginUse host w.service token scope now sweepAt).1 := by
  rw [step, act]
  split
  · rename_i hbegin
    exact (congrArg Prod.fst hbegin).symm
  rename_i hbegin
  exact (congrArg Prod.fst hbegin).symm

/-! ## What the service relies on -/

/-- The clock reads dates and never runs backwards. -/
def Clocked (w : World) (e : Event) : Prop :=
  (w.clock :: e.readings).Pairwise (· ≤ ·) ∧ ∀ r ∈ e.readings, |r| ≤ maxTime

/-- `randomUUID()` is never empty and never repeats itself. -/
def Fresh (w : World) : Event → Prop
  | .issue _ _ uuid => uuid ≠ [] ∧ ∀ c ∈ w.issued, c.id ≠ uuid
  | _ => True

/-- If the signature of a token is right, `issue` has made it. -/
def Genuine (host : Host) (w : World) (token : JsValue) : Prop :=
  ∀ part ∈ (authenticate host w.service token).toOption, bodyOf part ∈ w.issued.map Claims.body

/-- Nobody else can sign. -/
def Unforged (host : Host) (w : World) : Event → Prop
  | .verify token _ _ => Genuine host w token
  | .use token _ _ _ => Genuine host w token
  | _ => True

/-- Claims are revoked once they have been authenticated. -/
def Authenticated (w : World) : Event → Prop
  | .revokeCapability claims _ _ => claims ∈ w.issued
  | _ => True

/-- What the service relies on at one event. -/
structure Assumed (host : Host) (w : World) (e : Event) : Prop where
  clocked : Clocked w e
  fresh : Fresh w e
  unforged : Unforged host w e
  authenticated : Authenticated w e

section Decidable

variable {host : Host} {w : World} {e : Event}

instance : Decidable (Clocked w e) := inferInstanceAs (Decidable (_ ∧ _))

instance : Decidable (Fresh w e) :=
  match e with
  | .issue _ _ uuid => inferInstanceAs (Decidable (uuid ≠ [] ∧ ∀ c ∈ w.issued, c.id ≠ uuid))
  | .verify _ _ _ => instDecidableTrue
  | .use _ _ _ _ => instDecidableTrue
  | .settle _ _ => instDecidableTrue
  | .revokeCapability _ _ _ => instDecidableTrue
  | .revokeSubject _ _ => instDecidableTrue

instance (token : JsValue) : Decidable (Genuine host w token) :=
  inferInstanceAs (Decidable (∀ part ∈ (authenticate host w.service
    token).toOption, bodyOf part ∈ w.issued.map Claims.body))

instance : Decidable (Unforged host w e) :=
  match e with
  | .verify token _ _ => inferInstanceAs (Decidable (Genuine host w token))
  | .use token _ _ _ => inferInstanceAs (Decidable (Genuine host w token))
  | .issue _ _ _ => instDecidableTrue
  | .settle _ _ => instDecidableTrue
  | .revokeCapability _ _ _ => instDecidableTrue
  | .revokeSubject _ _ => instDecidableTrue

instance : Decidable (Authenticated w e) :=
  match e with
  | .revokeCapability claims _ _ => inferInstanceAs (Decidable (claims ∈ w.issued))
  | .issue _ _ _ => instDecidableTrue
  | .verify _ _ _ => instDecidableTrue
  | .use _ _ _ _ => instDecidableTrue
  | .settle _ _ => instDecidableTrue
  | .revokeSubject _ _ => instDecidableTrue

instance : Decidable (Assumed host w e) :=
  decidable_of_iff (Clocked w e ∧ Fresh w e ∧ Unforged host w e ∧ Authenticated w e)
    ⟨fun ⟨h₁, h₂, h₃, h₄⟩ => ⟨h₁, h₂, h₃, h₄⟩, fun ⟨h₁, h₂, h₃, h₄⟩ => ⟨h₁, h₂, h₃, h₄⟩⟩

end Decidable

section Time

variable {w : World} {e : Event}

/-- No call reads a time before the clock of the state, -/
theorem Clocked.le_reading (h : Clocked w e) :
    ∀ r ∈ e.readings, w.clock ≤ r := (pairwise_cons.mp h.1).1

/-- and none past that of the next state, -/
theorem Clocked.reading_le (host : Host) (h : Clocked w e) :
    ∀ r ∈ e.readings, r ≤ (step host w e).clock := by
  have hpair := (pairwise_cons.mp h.1).2
  intro r hr
  show r ≤ e.readings.getLast?.getD w.clock
  cases e with
  | issue input reading uuid => exact (mem_singleton.mp hr).le
  | verify token scope now => exact (mem_singleton.mp hr).le
  | use token scope now sweepAt =>
    rcases mem_cons.mp hr with rfl | hr
    · exact (pairwise_cons.mp hpair).1 sweepAt (.head _)
    · exact (mem_singleton.mp hr).le
  | settle k completes => cases hr
  | revokeCapability claims first second =>
    rcases mem_cons.mp hr with rfl | hr
    · exact (pairwise_cons.mp hpair).1 second (.head _)
    · exact (mem_singleton.mp hr).le
  | revokeSubject subject cutoff => exact (mem_singleton.mp hr).le

/-- so the clock never runs backwards. -/
theorem Clocked.le_clock (host : Host) (h : Clocked w e) : w.clock ≤ (step host w e).clock := by
  cases e with
  | settle k completes => exact le_refl _
  | issue input reading uuid => exact h.le_reading reading (.head _)
  | verify token scope now => exact h.le_reading now (.head _)
  | use token scope now sweepAt =>
    exact h.le_reading sweepAt (.tail _ (.head _))
  | revokeCapability claims first second =>
    exact h.le_reading second (.tail _ (.head _))
  | revokeSubject subject cutoff => exact h.le_reading cutoff (.head _)

end Time

/-! ## Capabilities that cannot pass -/

section Barring

variable {host : Host} {s s' : Service} {clock now : Int} {c : Claims}

/-- The capability has expired or is revoked. -/
def Revoked (s : Service) (clock : Int) (c : Claims) : Prop :=
  c.exp ≤ clock ∨ s.revokedIds.get c.id = some c.exp

/-- The capability has expired, is revoked, or has a ledger entry. -/
def Barred (s : Service) (clock : Int) (c : Claims) : Prop :=
  Revoked s clock c ∨ ∃ state, s.ledger.get c.id = some ⟨state, c.exp⟩

variable {token : JsValue} {scope : Scope} {later : Int}

theorem Revoked.keeps (h : Revoked s clock c)
    (hkeeps : Keeps s s' now) (hclock : clock ≤ later) (hnow : now ≤ later) :
    Revoked s' later c := by
  rcases h with hexp | hid
  · exact .inl (hexp.trans hclock)
  rcases hkeeps.revokedIds c.id c.exp hid with hexp | hid
  · exact .inl (hexp.trans hnow)
  · exact .inr hid

theorem Barred.keeps (h : Barred s clock c)
    (hkeeps : Keeps s s' now) (hclock : clock ≤ later) (hnow : now ≤ later) :
    Barred s' later c := by
  rcases h with hrev | ⟨state, hentry⟩
  · exact .inl (hrev.keeps hkeeps hclock hnow)
  rcases hkeeps.ledger c.id _ hentry with hexp | hentry
  · exact .inl (.inl (hexp.trans hnow))
  · exact .inr ⟨state, hentry⟩

/-- **WHAT PASSES IS NOT REVOKED.** -/
theorem not_revoked_of_verify (hclock : clock ≤ now)
    (h : (verify host s token scope now).2 = .ok c) : ¬ Revoked s clock c := by
  obtain ⟨part, -, -, hlive, hs, hnone, -⟩ := verify_ok (Prod.ext rfl h)
  rintro (hexp | hid)
  · omega
  rw [hs] at hnone
  rcases (keeps_pruneRevocations s now).revokedIds c.id c.exp hid with
    hexp | hkept
  · omega
  · cases hnone.symm.trans hkept

/-- **WHAT IS RUN WAS NOT BARRED.** -/
theorem not_barred_of_beginUse {sweepAt : Int} (hclock : clock ≤ now)
    (h : beginUse host s token scope now sweepAt = (s', .ok c)) : ¬ Barred s clock c := by
  obtain ⟨hverify, hnone, -⟩ := beginUse_ok h
  rintro (hrev | ⟨state, hentry⟩)
  · exact not_revoked_of_verify hclock hverify hrev
  have hledger : (verify host s token scope now).1.ledger = s.ledger := by
    rcases verify_state host s token scope now with hs | hs <;> rw [hs]
    rfl
  rw [hledger, hentry] at hnone
  cases hnone

end Barring

/-! ## The invariant -/

/-- The actions for an id that run or have completed. -/
def World.live (w : World) (id : Text) : Nat :=
  w.calls.countP (fun call => decide (call.claims.id = id ∧ call.outcome ≠ .failed))

/-- What `issue` makes sure of. -/
structure Issuable (c : Claims) : Prop where
  valid : c.Valid
  named : c.id ≠ []
  subject : c.subject ≠ [] ∧ c.subject.length ≤ maxFieldLength

structure Sound (w : World) : Prop where
  issuable : ∀ c ∈ w.issued, Issuable c
  unique : ∀ a ∈ w.issued, ∀ b ∈ w.issued, a.id = b.id → a = b
  revoked : ∀ id exp, w.service.revokedIds.get id = some exp →
    ∃ c ∈ w.issued, c.id = id ∧ c.exp = exp
  barred : ∀ call ∈ w.calls, call.outcome ≠ .failed →
    call.claims ∈ w.issued ∧ Barred w.service w.clock call.claims
  single : ∀ id, w.live id ≤ 1

theorem sound_start {options : Options} {s : Service}
    (h : create options = .ok s) (clock : Int) : Sound (start s clock) where
  issuable _ hc := nomatch hc
  unique _ ha := nomatch ha
  revoked id exp hget := by
    rw [create] at h
    split at h
    · cases h
    rw [← Except.ok.inj h] at hget
    cases hget
  barred _ hcall := nomatch hcall
  single _ := Nat.zero_le 1

section Invariant

variable {host : Host} {w : World} {c : Claims} {e : Event}

/-- **WHAT PASSES WAS ISSUED**, with the claims it was issued with. -/
theorem Sound.issued_of_verify (hw : Sound w) {token : JsValue} {scope : Scope}
    {now : Int} (hgenuine : Genuine host w token)
    (h : (verify host w.service token scope now).2 = .ok c) : c ∈ w.issued := by
  obtain ⟨part, hpart, hparse, -⟩ := verify_ok (Prod.ext rfl h)
  have hbody := hgenuine part (by rw [hpart]; rfl)
  obtain ⟨c', hc', heq⟩ := mem_map.mp hbody
  have hpart' : encodeClaims c' = part := (cons.inj (append_cancel_left heq)).2
  rw [← hpart', parseClaims_encodeClaims (hw.issuable c' hc').valid] at hparse
  exact Option.some.inj hparse ▸ hc'

theorem exists_live {id : Text} (h : w.live id ≠ 0) :
    ∃ call ∈ w.calls, call.claims.id = id ∧ call.outcome ≠ .failed := by
  obtain ⟨call, hcall, hlive⟩ := countP_pos_iff.mp (Nat.pos_of_ne_zero h)
  exact ⟨call, hcall, of_decide_eq_true hlive⟩

/-- **A CAPABILITY WHOSE ACTION MAY START HAS NO LIVE CALL.** -/
theorem Sound.no_live (hw : Sound w) (hc : c ∈ w.issued)
    (hopen : ¬ Barred w.service w.clock c) : w.live c.id = 0 := by
  by_contra hne
  obtain ⟨call, hcall, hid, hlive⟩ := exists_live hne
  obtain ⟨hissued, hbarred⟩ := hw.barred call hcall hlive
  rw [hw.unique _ hissued c hc hid] at hbarred
  exact hopen hbarred

/-- Time passes, and the service forgets what has expired. -/
theorem Sound.kept (hw : Sound w) {s' : Service} {now later : Int}
    (hkeeps : Keeps w.service s' now) (hclock : w.clock ≤ later) (hnow : now ≤ later) :
    Sound { w with service := s', clock := later } where
  issuable := hw.issuable
  unique := hw.unique
  revoked id exp hget := hw.revoked id exp (hkeeps.noneRevoked id exp hget)
  barred call hcall hlive := by
    obtain ⟨hissued, hbarred⟩ := hw.barred call hcall hlive
    exact ⟨hissued, hbarred.keeps hkeeps hclock hnow⟩
  single := hw.single

theorem Sound.issued (hw : Sound w) (hc : Issuable c) (hnew : ∀ a ∈ w.issued, a.id ≠ c.id) :
    Sound { w with issued := w.issued ++ [c] } where
  issuable a ha := by
    rcases mem_append.mp ha with ha | ha
    · exact hw.issuable a ha
    rw [mem_singleton.mp ha]
    exact hc
  unique a ha b hb hid := by
    rcases mem_append.mp ha with ha | ha
    · rcases mem_append.mp hb with hb | hb
      · exact hw.unique a ha b hb hid
      rw [mem_singleton.mp hb] at hid
      exact absurd hid (hnew a ha)
    rw [mem_singleton.mp ha] at hid ⊢
    rcases mem_append.mp hb with hb | hb
    · exact absurd hid.symm (hnew b hb)
    · exact (mem_singleton.mp hb).symm
  revoked id exp hget := by
    obtain ⟨a, ha, hid, hexp⟩ := hw.revoked id exp hget
    exact ⟨a, mem_append_left _ ha, hid, hexp⟩
  barred call hcall hlive := by
    obtain ⟨hissued, hbarred⟩ := hw.barred call hcall hlive
    exact ⟨mem_append_left _ hissued, hbarred⟩
  single := hw.single

theorem Sound.started (hw : Sound w) (hc : c ∈ w.issued)
    (hbarred : Barred w.service w.clock c) (hnone : w.live c.id = 0) :
    Sound { w with calls := w.calls ++ [⟨c, .running⟩] } where
  issuable := hw.issuable
  unique := hw.unique
  revoked := hw.revoked
  barred call hcall hlive := by
    rcases mem_append.mp hcall with hcall | hcall
    · exact hw.barred call hcall hlive
    rw [mem_singleton.mp hcall]
    exact ⟨hc, hbarred⟩
  single id := by
    have hold := hw.single id
    show (w.calls ++ [_]).countP _ ≤ 1
    rw [countP_append, countP_singleton]
    show w.live id + _ ≤ 1
    by_cases hid : c.id = id
    · rw [← hid, hnone]
      split <;> omega
    rw [if_neg (by simp [hid])]
    exact hold

theorem live_settled {k : Nat} (hk : w.calls[k]? = some ⟨c, .running⟩)
    (s' : Service) (outcome : Outcome) (id : Text) :
    ({ w with service := s', calls := w.calls.set k ⟨c, outcome⟩ } : World).live id
      = w.live id - (if c.id = id then 1 else 0)
        + (if c.id = id ∧ outcome ≠ .failed then 1 else 0) := by
  obtain ⟨hlt, hget⟩ := List.getElem?_eq_some_iff.mp hk
  show (w.calls.set k _).countP _ = _
  rw [List.countP_set hlt, hget]
  simp [World.live]

/-- **AN ACTION COMPLETES**: its capability is in the ledger from then on. -/
theorem Sound.committed (hw : Sound w) {k : Nat} (hk : w.calls[k]? = some ⟨c, .running⟩) :
    Sound { w with
      service := w.service.commit c
      calls := w.calls.set k ⟨c, .completed⟩ } := by
  obtain ⟨hissued, -⟩ := hw.barred _ (mem_of_getElem? hk) nofun
  have hentry : Barred (w.service.commit c) w.clock c :=
    .inr ⟨.used, get_set_self _ _ _⟩
  refine ⟨hw.issuable, hw.unique, hw.revoked, ?_, ?_⟩
  · intro call hcall hlive
    rcases mem_or_eq_of_mem_set hcall with hcall | rfl
    · obtain ⟨hother, hbarred⟩ := hw.barred call hcall hlive
      refine ⟨hother, ?_⟩
      by_cases hid : c.id = call.claims.id
      · rw [← hw.unique c hissued _ hother hid]
        exact hentry
      rcases hbarred with hrev | ⟨state, hget⟩
      · exact .inl hrev
      · exact .inr ⟨state, (get_set_of_ne _ _ hid).trans hget⟩
    · exact ⟨hissued, hentry⟩
  · intro id
    have hold := hw.single id
    rw [live_settled hk]
    by_cases hid : c.id = id
    · rw [if_pos hid, if_pos ⟨hid, nofun⟩]
      omega
    rw [if_neg hid, if_neg (fun h => hid h.1)]
    exact hold

/-- **AN ACTION THROWS**: its entry goes, and it was the only live call. -/
theorem Sound.released (hw : Sound w) {k : Nat} (hk : w.calls[k]? = some ⟨c, .running⟩) :
    Sound { w with
      service := w.service.release c
      calls := w.calls.set k ⟨c, .failed⟩ } := by
  have hcount := live_settled hk (w.service.release c) .failed
  refine ⟨hw.issuable, hw.unique, hw.revoked, ?_, ?_⟩
  · intro call hcall hlive
    have hne : c.id ≠ call.claims.id := by
      intro hid
      have hpos : 0 < (w.calls.set k ⟨c, .failed⟩).countP (fun other =>
          decide (other.claims.id = c.id ∧ other.outcome ≠ .failed)) :=
        countP_pos_iff.mpr ⟨call, hcall, decide_eq_true ⟨hid.symm, hlive⟩⟩
      have hzero := hcount c.id
      rw [if_pos rfl, if_neg (fun h => h.2 rfl)] at hzero
      have hold := hw.single c.id
      have hpos' : 0 < w.live c.id - 1 + 0 := hzero ▸ hpos
      omega
    rcases mem_or_eq_of_mem_set hcall with hcall | rfl
    · obtain ⟨hother, hbarred⟩ := hw.barred call hcall hlive
      refine ⟨hother, ?_⟩
      rcases hbarred with hrev | ⟨state, hget⟩
      · exact .inl hrev
      · exact .inr ⟨state, (get_delete_of_ne _ hne).trans hget⟩
    · exact absurd rfl hlive
  · intro id
    have hold := hw.single id
    have hlost : ¬ (c.id = id ∧ Outcome.failed ≠ .failed) :=
      fun h => h.2 rfl
    rw [hcount, if_neg hlost]
    omega

/-- **A CAPABILITY IS REVOKED**: it stays barred without its entry. -/
theorem Sound.revoke (hw : Sound w) (hc : c ∈ w.issued) :
    Sound { w with service := w.service.revoke c } where
  issuable := hw.issuable
  unique := hw.unique
  revoked id exp hget := by
    have hset := (get_set _ _ _ _).symm.trans hget
    split at hset
    · rename_i hid
      exact ⟨c, hc, hid, Option.some.inj hset⟩
    · exact hw.revoked id exp hset
  barred call hcall hlive := by
    obtain ⟨hother, hbarred⟩ := hw.barred call hcall hlive
    refine ⟨hother, ?_⟩
    by_cases hid : c.id = call.claims.id
    · rw [← hw.unique c hc _ hother hid]
      exact .inl (.inr (get_set_self _ _ _))
    rcases hbarred with (hexp | hrev) | ⟨state, hget⟩
    · exact .inl (.inl hexp)
    · exact .inl (.inr ((get_set_of_ne _ _ hid).trans hrev))
    · exact .inr ⟨state, (get_delete_of_ne _ hid).trans hget⟩
  single := hw.single

theorem revokeCapability_state (s : Service) (c : Claims) (first second : Int) :
    (revokeCapability s c first second).1 = s ∨ (revokeCapability s c first second).1
        = (s.pruneRevocations second).revoke c := by
  rw [revokeCapability]
  split
  · exact .inl rfl
  · exact .inr rfl

theorem Sound.settle (hw : Sound w) (k : Nat) (completes : Bool) :
    Sound (w.settle k completes) := by
  rw [World.settle]
  split
  · rename_i claims hk
    split
    · exact hw.committed hk
    · exact hw.released hk
  · exact hw

/-- **ONE CALL KEEPS THE INVARIANT.** -/
theorem sound_step (hw : Sound w) (he : Assumed host w e) : Sound (step host w e) := by
  have hclock := he.clocked.le_clock host
  have hreadings := he.clocked.reading_le host
  have hlater := hw.kept (Keeps.refl w.service w.clock) hclock hclock
  cases e with
  | issue input reading uuid =>
    obtain ⟨hnamed, hnew⟩ := he.fresh
    rw [step, act]
    split
    · exact hlater
    rename_i token claims hissue
    obtain ⟨hid, hsubject, hlength, hvalid⟩ :=
      issue_ok hissue (he.clocked.2 reading (.head _))
    exact hlater.issued ⟨hvalid, hid ▸ hnamed, hsubject, hlength⟩ (fun a ha => hid ▸ hnew a ha)
  | verify token scope now =>
    exact hw.kept (keeps_verify host w.service token scope now) hclock (hreadings now (.head _))
  | use token scope now sweepAt =>
    have hnow := he.clocked.le_reading now (.head _)
    have hsweep : now ≤ sweepAt := hreadings now (.head _)
    have hkept := hw.kept (keeps_beginUse host w.service token scope hsweep)
      hclock (hreadings sweepAt (.tail _ (.head _)))
    rw [step, act]
    split
    · rename_i s' error hbegin
      rw [hbegin] at hkept
      exact hkept
    rename_i s' claims hbegin
    rw [hbegin] at hkept
    obtain ⟨hverify, -, hentry⟩ := beginUse_ok hbegin
    have hissued := hw.issued_of_verify he.unforged hverify
    exact hkept.started hissued (.inr ⟨.reserved, hentry⟩)
      (hw.no_live hissued (not_barred_of_beginUse hnow hbegin))
  | settle k completes =>
    rw [step_settle]
    exact hw.settle k completes
  | revokeCapability claims first second =>
    have hsecond := hreadings second (.tail _ (.head _))
    rw [step, act]
    rcases revokeCapability_state w.service claims first second with hs | hs
    · rw [hs]
      exact hlater
    rw [hs]
    exact (hw.kept (keeps_pruneRevocations w.service second) hclock hsecond).revoke he.authenticated
  | revokeSubject subject cutoff =>
    exact hw.kept (keeps_revokeSubject w.service subject cutoff) hclock (hreadings cutoff (.head _))

end Invariant

/-! ## Single use -/

/-- The actions of an id that are running. -/
def World.inFlight (w : World) (id : Text) : Nat :=
  w.calls.countP (fun call => decide (call.claims.id = id ∧ call.outcome = .running))

/-- The actions of an id that have completed. -/
def World.completed (w : World) (id : Text) : Nat :=
  w.calls.countP (fun call => decide (call.claims.id = id ∧ call.outcome = .completed))

theorem sound_run {host : Host} {options : Options} {s : Service}
    (hcreate : create options = .ok s) (clock : Int) {events : List Event}
    (h : Along (step host) (Assumed host) (start s clock) events) :
    Sound (events.foldl (step host) (start s clock)) :=
  h.invariant (fun _ _ hw he => sound_step hw he) (sound_start hcreate clock)

theorem inFlight_le_live (w : World) (id : Text) : w.inFlight id ≤ w.live id := by
  refine countP_mono_left (fun call _ h => ?_)
  obtain ⟨hid, hrun⟩ := of_decide_eq_true h
  refine decide_eq_true ⟨hid, ?_⟩
  rw [hrun]
  exact nofun

theorem completed_le_live (w : World) (id : Text) : w.completed id ≤ w.live id := by
  refine countP_mono_left (fun call _ h => ?_)
  obtain ⟨hid, hdone⟩ := of_decide_eq_true h
  refine decide_eq_true ⟨hid, ?_⟩
  rw [hdone]
  exact nofun

/-- **SINGLE USE**: whatever calls come in whatever order, no two actions for
    one capability run at once, and at most one of them ever completes. -/
theorem single_use {host : Host} {options : Options} {s : Service}
    (hcreate : create options = .ok s) (clock : Int) (events : List Event)
    (h : Along (step host) (Assumed host) (start s clock) events)
    (id : Text) :
    (events.foldl (step host) (start s clock)).inFlight id ≤ 1
      ∧ (events.foldl (step host) (start s clock)).completed id ≤ 1 := by
  have hlive := (sound_run hcreate clock h).single id
  exact ⟨(inFlight_le_live _ id).trans hlive, (completed_le_live _ id).trans hlive⟩

/-! A capability that is used, and shown again. -/

def sampleInput : IssueInput where
  action := ascii "config.feature_flag.set"
  target := ascii "paymentAmountTolerance"
  subject := ascii "alice"
  ttlMs := none

def sampleId : Text := ascii "0b7f1c52-6a5e-4c0e-9d53-5f0a8d6e2b11"

/-- What `sampleInput` is issued with at 1000. -/
def sampleClaims : Claims :=
  ⟨sampleId, .configFeatureFlagSet, sampleInput.target, sampleInput.subject, 1000, 301000⟩

/-- The digest of the one body that is signed below. -/
def sampleHost : Host where
  hmac _ _ := ascii "DLHQ5kFY7uRxmnUXU-GYkKoYkLtltn-0zfRzxm0So3s"

def sampleOptions : Options :=
  ⟨ascii "an-example-secret-of-32-chars-or-more", none⟩

def sampleService : Service :=
  ⟨sampleOptions.secret, .ofNat 10000, .empty, .empty, .empty⟩

def sampleToken : JsValue :=
  .str (sampleClaims.body ++ unit '.' :: sign sampleHost sampleService sampleClaims.body)

def sampleScope : Scope :=
  ⟨.configFeatureFlagSet, ascii "paymentAmountTolerance"⟩

def sampleRun : List Event :=
  [.issue sampleInput 1000 sampleId, .use sampleToken sampleScope 2000 2000,
    .settle 0 true, .use sampleToken sampleScope 3000 3000]

theorem single_use_replayed :
    (sampleRun.foldl (step sampleHost) (start sampleService 0)).completed sampleId = 1
      ∧ (sampleRun.foldl (step sampleHost) (start sampleService 0)).inFlight sampleId ≤ 1
      ∧ (sampleRun.foldl (step sampleHost) (start sampleService 0)).completed sampleId ≤ 1 := by
  -- one evaluation of the run serves both facts
  have hrun : Along (step sampleHost) (Assumed sampleHost) (start sampleService 0) sampleRun
      ∧ (sampleRun.foldl (step sampleHost) (start sampleService 0)).completed sampleId = 1 := by
    decide +kernel
  exact ⟨hrun.2, @single_use sampleHost sampleOptions sampleService rfl 0 sampleRun hrun.1 sampleId⟩

/-! ## Revocation -/

section Revocation

variable {host : Host} {w : World} {c : Claims} {e : Event}

/-- Claims of the subject up to the cutoff have expired or are cut off. -/
def CutOff (s : Service) (clock : Int) (subject : Text) (cutoff : Int) : Prop :=
  cutoff + maxTtlMs ≤ clock ∨ ∃ r, s.revokedSubjects.get subject = some r ∧ cutoff ≤ r.cutoff

variable {subject : Text} {cutoff : Int}

theorem CutOff.keeps {s s' : Service} {clock later : Int} (h : CutOff s clock subject cutoff)
    (hkeeps : Keeps s s' later) (hclock : clock ≤ later) : CutOff s' later subject cutoff := by
  rcases h with hexp | ⟨r, hr, hle⟩
  · exact .inl (hexp.trans hclock)
  rcases hkeeps.revokedSubjects subject r hr with hexp | ⟨r', hr', hcut⟩
  · left
    have hhorizon := r.horizon
    rw [clockSkewMs] at hhorizon
    omega
  · exact .inr ⟨r', hr', hle.trans hcut⟩

/-- **WHAT PASSES IS NOT CUT OFF**: a cutoff is kept until the last capability
    it invalidates has expired. -/
theorem lt_of_cutOff {s : Service} {clock now cutoff : Int} {token : JsValue}
    {scope : Scope} (hclock : clock ≤ now) (h : (verify host s token scope now).2 = .ok c)
    (hcut : CutOff s clock c.subject cutoff) : cutoff < c.iat := by
  obtain ⟨part, -, hparse, hlive, hs, -, hcutOff⟩ := verify_ok (Prod.ext rfl h)
  have hlife := lifetime_of_parseClaims hparse
  by_contra hle
  rcases hcut.keeps (keeps_pruneRevocations s now) hclock with
    hexp | ⟨r, hr, hle'⟩
  · omega
  rw [hs, Service.cutOff, hr] at hcutOff
  have hlt : r.cutoff < c.iat := not_le.mp (of_decide_eq_false hcutOff)
  omega

/-- What a call does to the service: it forgets what has expired, and then an
    action ends or a capability is revoked. -/
theorem step_service (host : Host) (he : Clocked w e) :
    ∃ mid, Keeps w.service mid (step host w e).clock ∧ ((step host w e).service = mid
        ∨ (∃ claims, (step host w e).service = mid.commit claims
          ∨ (step host w e).service = mid.release claims)
        ∨ ∃ claims first second, e = .revokeCapability claims first second
          ∧ (step host w e).service = mid.revoke claims) := by
  have hreadings := he.reading_le host
  cases e with
  | issue input reading uuid =>
    refine ⟨w.service, Keeps.refl _ _, Or.inl ?_⟩
    rw [step, act]
    split <;> rfl
  | verify token scope now =>
    exact ⟨_, (keeps_verify host w.service token scope now).trans
      (Keeps.refl _ _) (hreadings now (.head _)), .inl rfl⟩
  | use token scope now sweepAt =>
    exact ⟨_, keeps_beginUse host w.service token scope
      (hreadings now (.head _)), .inl (step_use _ _ _ _ _ _)⟩
  | settle k completes =>
    refine ⟨w.service, Keeps.refl _ _, ?_⟩
    rw [step_settle, World.settle]
    split
    · rename_i claims _
      split
      · exact .inr (.inl ⟨claims, .inl rfl⟩)
      · exact .inr (.inl ⟨claims, .inr rfl⟩)
    · exact .inl rfl
  | revokeCapability claims first second =>
    rcases revokeCapability_state w.service claims first second with hs | hs
    · exact ⟨w.service, Keeps.refl _ _, .inl hs⟩
    exact ⟨_, keeps_pruneRevocations w.service second, .inr (.inr ⟨claims, first, second, rfl, hs⟩)⟩
  | revokeSubject subject cutoff =>
    exact ⟨_, keeps_revokeSubject w.service subject cutoff, .inl rfl⟩

/-- **A REVOKED CAPABILITY STAYS REVOKED.** -/
theorem Sound.revoked_step (hw : Sound w) (he : Assumed host w e)
    (hc : c ∈ w.issued) (h : Revoked w.service w.clock c) :
    Revoked (step host w e).service (step host w e).clock c := by
  obtain ⟨mid, hkeeps, hservice⟩ := step_service host he.clocked
  have hmid := h.keeps hkeeps (he.clocked.le_clock host) (le_refl _)
  rcases hservice with hs | ⟨claims, hs | hs⟩ | ⟨claims, first, second, rfl, hs⟩
  · rw [hs]
    exact hmid
  · rw [hs]
    exact hmid
  · rw [hs]
    exact hmid
  rw [hs]
  by_cases hid : claims.id = c.id
  · rw [hw.unique claims he.authenticated c hc hid]
    exact .inr (get_set_self _ _ _)
  rcases hmid with hexp | hrev
  · exact .inl hexp
  · exact .inr ((get_set_of_ne _ _ hid).trans hrev)

/-- **A CUTOFF HOLDS ON.** -/
theorem cutOff_step (he : Clocked w e) (h : CutOff w.service w.clock subject cutoff) :
    CutOff (step host w e).service (step host w e).clock subject cutoff := by
  obtain ⟨mid, hkeeps, hservice⟩ := step_service host he
  have hmid := h.keeps hkeeps (he.le_clock host)
  rcases hservice with hs | ⟨claims, hs | hs⟩ | ⟨claims, _, _, -, hs⟩ <;> rw [hs] <;> exact hmid

theorem issued_step (host : Host) (w : World) (e : Event)
    (hc : c ∈ w.issued) : c ∈ (step host w e).issued := by
  cases e with
  | issue input reading uuid =>
    rw [step, act]
    split
    · exact hc
    · exact mem_append_left _ hc
  | use token scope now sweepAt =>
    rw [step, act]
    split <;> exact hc
  | settle k completes =>
    rw [step_settle, World.settle]
    split
    · split <;> exact hc
    · exact hc
  | verify token scope now => exact hc
  | revokeCapability claims first second => exact hc
  | revokeSubject subject cutoff => exact hc

theorem Sound.revoked_of_revokeCapability (hw : Sound w) {first second : Int}
    (he : Assumed host w (.revokeCapability c first second)) :
    Revoked (step host w (.revokeCapability c first second)).service
      (step host w (.revokeCapability c first second)).clock c := by
  have hissuable := hw.issuable c he.authenticated
  have hfirst := he.clocked.reading_le host first (.head _)
  show Revoked (revokeCapability w.service c first second).1 _ c
  rw [revokeCapability]
  split
  · rename_i hrefused
    rcases hrefused with hid | hsize | hexp
    · exact absurd hid hissuable.named
    · have hsafe := hissuable.valid.exp_safe
      rw [Int.abs_eq_natAbs, JsNumber.maxSafeInteger] at hsize
      omega
    · exact .inl (hexp.trans hfirst)
  · exact .inr (get_set_self _ _ _)

theorem cutOff_of_revokeSubject (host : Host) (w : World) (subject : Text)
    (cutoff : Int) (hnamed : trim subject ≠ [])
    (hlength : (trim subject).length ≤ maxFieldLength) :
    CutOff (step host w (.revokeSubject subject cutoff)).service
      (step host w (.revokeSubject subject cutoff)).clock (trim subject) cutoff := by
  show CutOff (revokeSubject w.service subject cutoff).1 _ _ cutoff
  have hvalid : ¬ (trim subject = []
      ∨ maxFieldLength < (trim subject).length) :=
    not_or.mpr ⟨hnamed, not_lt.mpr hlength⟩
  rw [revokeSubject, revokeTrimmed, if_neg hvalid]
  split
  · rename_i hcovers
    obtain ⟨r, hr, hle⟩ := (Option.any_eq_true _ _).mp hcovers
    exact .inr ⟨r, hr, of_decide_eq_true hle⟩
  · exact .inr ⟨_, get_set_self _ _ _, le_refl _⟩

/-- The event checks a token, and the token passes with these claims. -/
def Accepts (host : Host) (w : World) (e : Event) (c : Claims) : Prop :=
  match e with
  | .verify token scope now => (verify host w.service token scope now).2 = .ok c
  | .use token scope now _ => (verify host w.service token scope now).2 = .ok c
  | _ => False

theorem Accepts.verified (h : Accepts host w e c) (he : Assumed host w e) :
    ∃ token scope now, (verify host w.service token scope now).2 = .ok c
      ∧ w.clock ≤ now ∧ Genuine host w token := by
  have hclock := he.clocked.le_reading
  cases e with
  | verify token scope now =>
    exact ⟨token, scope, now, h, hclock now (.head _), he.unforged⟩
  | use token scope now sweepAt =>
    exact ⟨token, scope, now, h, hclock now (.head _), he.unforged⟩
  | issue input reading uuid => cases h
  | settle k completes => cases h
  | revokeCapability claims first second => cases h
  | revokeSubject subject cutoff => cases h

end Revocation

/-- **REVOCATION IS PERMANENT**: after `revokeSubject` no capability of the
    subject that was issued up to then passes again, and after
    `revokeCapability` the capability does not, whatever calls come between
    and however late. -/
theorem revocation_permanent {host : Host} {options : Options} {s : Service}
    (hcreate : create options = .ok s) (clock : Int)
    (before after : List Event) (e last : Event)
    (h : Along (step host) (Assumed host) (start s clock) (before ++ e :: (after ++ [last])))
    (c : Claims)
    (haccepts : Accepts host ((before ++ e :: after).foldl (step host) (start s clock)) last c) :
    (∀ subject cutoff, e = .revokeSubject subject cutoff →
        c.subject = trim subject → cutoff < c.iat)
      ∧ ∀ claims first second, e = .revokeCapability claims first second → c.id ≠ claims.id := by
  obtain ⟨hbefore, he, hrest⟩ := Along.append.mp h
  obtain ⟨hafter, hlast, -⟩ := Along.append.mp hrest
  rw [foldl_append] at haccepts
  have hw := sound_run hcreate clock hbefore
  have hnext := sound_step hw he
  have hsound := hafter.invariant (fun _ _ hw he => sound_step hw he) hnext
  obtain ⟨token, scope, now, hverify, hnow, hgenuine⟩ := haccepts.verified hlast
  have hissued := hsound.issued_of_verify hgenuine hverify
  constructor
  · rintro subject cutoff rfl hsubject
    obtain ⟨hnamed, hlength⟩ := (hsound.issuable c hissued).subject
    rw [hsubject] at hnamed hlength
    have hcut := hafter.invariant
      (I := fun w => CutOff w.service w.clock (trim subject) cutoff)
      (fun _ _ hcut he => cutOff_step he.clocked hcut)
      (cutOff_of_revokeSubject host _ subject cutoff hnamed hlength)
    rw [← hsubject] at hcut
    exact lt_of_cutOff hnow hverify hcut
  · rintro claims first second rfl hid
    have hrevoked := hafter.invariant (I := fun w => Sound w ∧ claims ∈ w.issued
        ∧ Revoked w.service w.clock claims)
      (fun w e hI he => ⟨sound_step hI.1 he, issued_step host w e hI.2.1,
        hI.1.revoked_step he hI.2.1 hI.2.2⟩)
      ⟨hnext, issued_step host _ _ he.authenticated, hw.revoked_of_revokeCapability he⟩
    have hsame := hsound.unique c hissued claims hrevoked.2.1 hid
    exact not_revoked_of_verify hnow hverify (hsame ▸ hrevoked.2.2)

def sampleRevocation : Event := .revokeSubject (ascii "alice ") 500

/-- A capability issued after its subject was revoked passes. -/
theorem revocation_permanent_reissued : Accepts sampleHost
        (([] ++ sampleRevocation :: [.issue sampleInput 1000 sampleId]).foldl
          (step sampleHost) (start sampleService 0))
        (.verify sampleToken sampleScope 2000) sampleClaims
      ∧ 500 < sampleClaims.iat := by
  have hrun : Along (step sampleHost) (Assumed sampleHost)
        (start sampleService 0) ([] ++ sampleRevocation :: ([.issue sampleInput 1000 sampleId]
            ++ [.verify sampleToken sampleScope 2000]))
      ∧ (verify sampleHost (([] ++ sampleRevocation :: [.issue sampleInput 1000 sampleId]).foldl
            (step sampleHost) (start sampleService 0)).service
          sampleToken sampleScope 2000).2 = .ok sampleClaims := by
    decide +kernel
  have hpermanent := @revocation_permanent sampleHost sampleOptions
    sampleService rfl 0 [] [.issue sampleInput 1000 sampleId] sampleRevocation
    (.verify sampleToken sampleScope 2000) hrun.1 sampleClaims hrun.2
  exact ⟨hrun.2, hpermanent.1 (ascii "alice ") 500 rfl (by decide +kernel)⟩

end Capability
