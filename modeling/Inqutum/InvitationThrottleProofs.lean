import Inqutum.InvitationProofs
import Inqutum.RoundingOrderProofs

/-!
# The throttle of invitations

`checkRateLimit` prunes two histories to the window when it reads them,
and writes both only when neither is full.  What is pruned at one instant
stays outside the window at every later one (`inWindow_mono`), so a pruned
history counts what the full one counts (`Tracks`), and an invitation is
accepted by the accepted calls in the window alone (`throttle_exact`).
-/

namespace Invitation

open JsNumber List

abbrev Creation := CreateInvitationRequest × Env

def accepts (config : Config) (s : InvitationService) (c : Creation) : Bool :=
  (s.createInvitation config c.2 c.1).2.isOk

/-- A call of a run, with the list of the accepted ones. -/
def creation (config : Config) (r : InvitationService × List Creation) (c : Creation) :
    InvitationService × List Creation :=
  ((r.1.createInvitation config c.2 c.1).1, if accepts config r.1 c then r.2 ++ [c] else r.2)

/-- The service and the accepted calls after a run. -/
def runCreations (config : Config) (calls : List Creation) : InvitationService × List Creation :=
  calls.foldl (creation config) (.new, [])

/-- `now - t < windowMs`. -/
def inWindow (config : Config) (now t : Int) : Bool :=
  lt (sub (.finite now) (.finite t)) config.throttle.windowMs

/-- Accepted calls in the window, by whether they count. -/
def countRecent (config : Config) (accepted : List Creation) (now : Int)
    (counts : Creation → Bool) : Nat :=
  accepted.countP (fun d => counts d && inWindow config now d.2.now)

/-- Fewer than the limit; a limit that is NaN limits nothing. -/
def Below (count : Nat) (limit : JsNumber) : Prop :=
  limit = .nan ∨ lt (.ofNat count) limit = true

theorem below_iff {count : Nat} {limit : JsNumber} :
    Below count limit ↔ ¬ le limit (.ofNat count) = true := by
  rw [Below, lt]
  cases limit with
  | nan => simp [le]
  | posInf => simp [le, ofNat]
  | negInf => simp [le, ofNat]
  | finite q =>
    simp only [le, ofNat, reduceCtorEq, false_or, Bool.and_eq_true, Bool.not_eq_true',
      decide_eq_true_eq, decide_eq_false_iff_not, not_le]
    exact ⟨fun h => h.2, fun h => ⟨h.le, h⟩⟩

/-- **WHAT LEFT THE WINDOW STAYS OUTSIDE**. -/
theorem inWindow_mono {config : Config} {now now' t : Int} (h : now ≤ now')
    (hin : inWindow config now' t = true) : inWindow config now t = true := by
  have hle : le (sub (.finite now) (.finite t)) (sub (.finite now') (.finite t)) = true := by
    have hsub : (now : ℚ) + -(t : ℚ) ≤ now' + -(t : ℚ) := by
      have hcast : (now : ℚ) ≤ now' := by exact_mod_cast h
      linarith
    exact binary64_mono hsub
  rw [inWindow, lt, Bool.and_eq_true, Bool.not_eq_true'] at hin ⊢
  refine ⟨le_trans hle hin.1, Bool.eq_false_iff.mpr fun hback => ?_⟩
  cases hin.2.symm.trans (le_trans hback hle)

/-! ## A history counts what was accepted -/

/-- From `t` on, the history of a key has the accepted times in the window. -/
def Tracks (config : Config) (history : InsertionMap String (List Int))
    (times : String → List Int) (t : Int) : Prop :=
  ∀ key now, t ≤ now → recent config history key now = (times key).filter (inWindow config now)

section Histories

variable {config : Config} {history : InsertionMap String (List Int)}
  {times : String → List Int} {t n : Int}

theorem Tracks.later (h : Tracks config history times t) (hle : t ≤ n) :
    Tracks config history times n :=
  fun key now hnow => h key now (hle.trans hnow)

theorem Tracks.push (h : Tracks config history times t) (hle : t ≤ n) (key : String) :
    Tracks config (history.set key (recent config history key n ++ [n]))
      (fun k => if key = k then times k ++ [n] else times k) n := by
  intro k now hnow
  show (((history.set key _).get k).getD []).filter (inWindow config now) = _
  rw [InsertionMap.get_set]
  by_cases hk : key = k
  · subst hk
    -- pruning twice is pruning once, at the later instant
    have htwice : ((times key).filter (inWindow config n)).filter (inWindow config now)
        = (times key).filter (inWindow config now) := by
      rw [filter_filter]
      refine filter_congr fun d _ => ?_
      cases hd : inWindow config now d with
      | false => rfl
      | true => rw [inWindow_mono hnow hd]; rfl
    simp only [if_true, Option.getD_some, filter_append, h key n hle, htwice]
  · simp only [hk, if_false]
    exact h k now (hle.trans hnow)

end Histories

/-- The times of the accepted calls under a key. -/
def timesOf (key : Creation → String) (accepted : List Creation) (k : String) : List Int :=
  (accepted.filter (fun d => key d = k)).map (fun d => d.2.now)

theorem timesOf_concat (key : Creation → String) (accepted : List Creation) (c : Creation)
    (k : String) : timesOf key (accepted ++ [c]) k
      = if key c = k then timesOf key accepted k ++ [c.2.now] else timesOf key accepted k := by
  by_cases hk : key c = k <;> simp [timesOf, filter_append, hk]

theorem length_timesOf (config : Config) (key : Creation → String) (accepted : List Creation)
    (k : String) (now : Int) : ((timesOf key accepted k).filter (inWindow config now)).length
      = countRecent config accepted now (fun d => key d = k) := by
  rw [timesOf, filter_map, length_map, filter_filter, countRecent, countP_eq_length_filter]
  congr 2
  funext d
  exact Bool.and_comm _ _

def inviterKey (d : Creation) : String := d.1.inviterId

def targetKey (config : Config) (d : Creation) : String := emailKey config d.1.inviteeEmail

/-- Both histories count the accepted calls. -/
structure Counted (config : Config) (r : InvitationService × List Creation) (t : Int) : Prop where
  inviter : Tracks config r.1.inviterHistory (timesOf inviterKey r.2) t
  target : Tracks config r.1.targetHistory (timesOf (targetKey config) r.2) t

section Run

variable {config : Config} {r : InvitationService × List Creation} {t : Int} {c : Creation}

/-- Neither history is full. -/
def Room (config : Config) (s : InvitationService) (c : Creation) : Prop :=
  ¬ le config.throttle.maxInvitesPerWindow
      (.ofNat (recent config s.inviterHistory (inviterKey c) c.2.now).length) = true
    ∧ ¬ le config.throttle.maxInvitesPerTargetEmail
      (.ofNat (recent config s.targetHistory (targetKey config c) c.2.now).length) = true

/-- **WHAT ONE CALL DOES**: without room it leaves the service as it is, and
    with room it adds its time to both histories. -/
theorem createInvitation_histories (config : Config) (s : InvitationService) (c : Creation) :
    (¬ (c.1.assignedRole.rank ≤ c.1.inviterRole.rank ∧ Room config s c)
        ∧ accepts config s c = false ∧ (s.createInvitation config c.2 c.1).1 = s)
      ∨ (Room config s c ∧ accepts config s c = true
        ∧ (s.createInvitation config c.2 c.1).1.inviterHistory = s.inviterHistory.set
          (inviterKey c) (recent config s.inviterHistory (inviterKey c) c.2.now ++ [c.2.now])
        ∧ (s.createInvitation config c.2 c.1).1.targetHistory = s.targetHistory.set
          (targetKey config c)
            (recent config s.targetHistory (targetKey config c) c.2.now ++ [c.2.now])) := by
  rw [accepts, InvitationService.createInvitation, InvitationService.checkRateLimit]
  by_cases hrole : c.1.inviterRole.rank < c.1.assignedRole.rank
  · rw [if_pos hrole]
    exact .inl ⟨fun h => absurd hrole (not_lt.mpr h.1), rfl, rfl⟩
  rw [if_neg hrole]
  dsimp only
  by_cases hinviter : le config.throttle.maxInvitesPerWindow
      (.ofNat (recent config s.inviterHistory c.1.inviterId c.2.now).length) = true
  · rw [if_pos hinviter]
    exact .inl ⟨fun h => h.2.1 hinviter, rfl, rfl⟩
  rw [if_neg hinviter]
  by_cases htarget : le config.throttle.maxInvitesPerTargetEmail (.ofNat
      (recent config s.targetHistory (emailKey config c.1.inviteeEmail) c.2.now).length) = true
  · rw [if_pos htarget]
    exact .inl ⟨fun h => h.2.2 htarget, rfl, rfl⟩
  rw [if_neg htarget]
  exact .inr ⟨⟨hinviter, htarget⟩, rfl, rfl, rfl⟩

theorem Counted.room_iff (h : Counted config r t) (hle : t ≤ c.2.now) : Room config r.1 c
      ↔ Below (countRecent config r.2 c.2.now (fun d => inviterKey d = inviterKey c))
          config.throttle.maxInvitesPerWindow
        ∧ Below (countRecent config r.2 c.2.now (fun d => targetKey config d = targetKey config c))
          config.throttle.maxInvitesPerTargetEmail := by
  rw [below_iff, below_iff, Room, h.inviter _ _ hle, h.target _ _ hle, length_timesOf,
    length_timesOf]

/-- **WHEN A CALL IS ACCEPTED**. -/
theorem Counted.accepts_iff (h : Counted config r t) (hle : t ≤ c.2.now)
    (hrole : c.1.assignedRole.rank ≤ c.1.inviterRole.rank) : accepts config r.1 c = true
      ↔ Below (countRecent config r.2 c.2.now (fun d => inviterKey d = inviterKey c))
          config.throttle.maxInvitesPerWindow
        ∧ Below (countRecent config r.2 c.2.now (fun d => targetKey config d = targetKey config c))
          config.throttle.maxInvitesPerTargetEmail := by
  rw [← h.room_iff hle]
  rcases createInvitation_histories config r.1 c with ⟨hfull, hrejected, -⟩ | ⟨hroom, hok, -⟩
  · rw [hrejected]
    exact ⟨nofun, fun h => absurd ⟨hrole, h⟩ hfull⟩
  · exact ⟨fun _ => hroom, fun _ => hok⟩

theorem Counted.creation (h : Counted config r t) (hle : t ≤ c.2.now) :
    Counted config (creation config r c) c.2.now := by
  rw [Invitation.creation]
  rcases createInvitation_histories config r.1 c with ⟨-, hrejected, hsame⟩ | ⟨-, haccepted, hi, ht⟩
  · rw [hrejected, hsame]
    exact ⟨h.inviter.later hle, h.target.later hle⟩
  rw [haccepted]
  constructor
  · show Tracks config (r.1.createInvitation config c.2 c.1).1.inviterHistory _ _
    rw [hi]
    intro k now hnow
    rw [h.inviter.push hle (inviterKey c) k now hnow, if_pos rfl, timesOf_concat]
  show Tracks config (r.1.createInvitation config c.2 c.1).1.targetHistory _ _
  rw [ht]
  intro k now hnow
  rw [h.target.push hle (targetKey config c) k now hnow, if_pos rfl, timesOf_concat]

theorem Counted.run {calls : List Creation} (h : Counted config r t)
    (hclock : (calls ++ [c]).Pairwise (fun a b => a.2.now ≤ b.2.now))
    (hle : ∀ d ∈ calls ++ [c], t ≤ d.2.now) :
    Counted config (calls.foldl (Invitation.creation config) r) c.2.now := by
  induction calls generalizing r t with
  | nil =>
    have hc := hle c (by simp)
    exact ⟨h.inviter.later hc, h.target.later hc⟩
  | cons d calls ih =>
    obtain ⟨hfirst, hrest⟩ := pairwise_cons.mp hclock
    exact ih (h.creation (hle d (by simp))) hrest hfirst

end Run

/-- **THE THROTTLE IS AN EXACT SLIDING WINDOW**: after a run with a clock that does not go back, a
    call that passes the role check is accepted if and only if the accepted calls in the window
    are below both limits; a call that is not accepted leaves the service as it is. -/
theorem throttle_exact (config : Config) (calls : List Creation) (c : Creation)
    (hclock : (calls ++ [c]).Pairwise (fun a b => a.2.now ≤ b.2.now))
    (hrole : c.1.assignedRole.rank ≤ c.1.inviterRole.rank) :
    (accepts config (runCreations config calls).1 c = true
        ↔ Below (countRecent config (runCreations config calls).2 c.2.now
              (fun d => d.1.inviterId = c.1.inviterId)) config.throttle.maxInvitesPerWindow
          ∧ Below (countRecent config (runCreations config calls).2 c.2.now
              (fun d => emailKey config d.1.inviteeEmail = emailKey config c.1.inviteeEmail))
            config.throttle.maxInvitesPerTargetEmail)
      ∧ ∀ d, accepts config (runCreations config calls).1 d = false →
        ((runCreations config calls).1.createInvitation config d.2 d.1).1
          = (runCreations config calls).1 := by
  have hempty : ∃ t, Counted config (.new, []) t ∧ ∀ d ∈ calls ++ [c], t ≤ d.2.now := by
    cases hcalls : calls ++ [c] with
    | nil => simp at hcalls
    | cons first rest =>
      refine ⟨first.2.now, ⟨fun _ _ _ => rfl, fun _ _ _ => rfl⟩, ?_⟩
      rw [hcalls] at hclock
      intro d hd
      rcases mem_cons.mp hd with rfl | hrest
      · exact le_refl _
      · exact (pairwise_cons.mp hclock).1 d hrest
  obtain ⟨t, hcounted, hle⟩ := hempty
  refine ⟨(hcounted.run hclock hle).accepts_iff (le_refl _) hrole, ?_⟩
  intro d hrejected
  rcases createInvitation_histories config (runCreations config calls).1 d
    with ⟨-, -, hsame⟩ | ⟨-, haccepted, -⟩
  · exact hsame
  · cases hrejected.symm.trans haccepted

/-- Three accepted calls to one address, a rejected one and one after the window. -/
def sampleCreations : List Creation :=
  [(sampleRequest "a@example.com", ⟨0, 0, "1", "s1"⟩),
    (sampleRequest "a@example.com", ⟨1, 1, "2", "s2"⟩),
    (sampleRequest " a@example.com ", ⟨1, 1, "3", "s3"⟩),
    (sampleRequest "a@example.com", ⟨599999, 599999, "4", "s4"⟩)]

theorem throttle_exact_sample : accepts sampleConfig (runCreations sampleConfig sampleCreations).1
        (sampleRequest "a@example.com", ⟨600000, 600000, "5", "s5"⟩) = true
      ∧ (runCreations sampleConfig sampleCreations).2.length = 3 := by
  refine ⟨(throttle_exact sampleConfig sampleCreations _ (by decide) (by decide)).1.mpr ?_, ?_⟩
  · exact ⟨.inr (by decide +kernel), .inr (by decide +kernel)⟩
  · decide +kernel

/-- Without a number for a limit, every call is accepted. -/
theorem nan_limits_nothing : accepts ⟨⟨.nan, 600000, .nan⟩, id⟩ .new
    (sampleRequest "a@example.com", ⟨0, 0, "1", "s1"⟩) = true ∧ lt (.ofNat 0) .nan = false := by
  constructor <;> decide +kernel

end Invitation
