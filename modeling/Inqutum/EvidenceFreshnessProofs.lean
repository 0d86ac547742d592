import Inqutum.ExternalEvidenceProofs
import Inqutum.RoundingOrderProofs

/-!
# Evidence is fresh once

A digest is forgotten after twice the maximum age.  Evidence that was
accepted is at most the skew ahead of that call and at most the maximum
age behind the next one that accepts it, so a digest that would be
accepted again is still known (`still_known`), rounding included.

The time is `Date.parse` of the timestamp as it was sent, and the digest
covers its normalized form.  Two spellings of one canonical payload may be
read as two times, and then it is fresh twice.  Without such spellings it
is fresh once (`fresh_once`).
-/

namespace Evidence

open JsonText (Text ascii)
open JsNumber List InsertionMap

def Reads (host : Host) (call : Call) (canonical timestamp : Text) : Prop :=
  ∃ envelope payload, call.envelope = some envelope ∧ envelope.payload = some payload
    ∧ canonicalizeJson host payload = .ok canonical ∧ payload.timestamp = timestamp

/-- The call returns a receipt that is not replayed for a canonical payload. -/
def IsFresh (host : Host) (options : VerifierOptions) (seen : SeenDigests) (call : Call)
    (canonical : Text) : Prop :=
  (∃ timestamp, Reads host call canonical timestamp)
    ∧ ∃ receipt, (verify host options seen call).1 = .ok receipt ∧ receipt.replayed = false

/-- The later call does not read a later time from the same canonical payload. -/
def NotLater (host : Host) (earlier later : Call) : Prop :=
  ∀ canonical t t', Reads host earlier canonical t → Reads host later canonical t' →
    ∀ e ∈ host.dateParse t, ∀ e' ∈ host.dateParse t', e' ≤ e

/-- The clock does not go back. -/
def InOrder (earlier later : Call) : Prop :=
  ∀ c ∈ earlier.now, ∀ c' ∈ later.now, c ≤ c'

/-- The clock and the timestamps are dates. -/
abbrev ValidTime (t : Int) : Prop := |t| ≤ Canonical.maxTime

/-! ## The two windows -/

section Windows

variable {s m : JsNumber} {c c₁ c₂ e₁ e₂ : Int}

theorem le_of_not_lt {x y : JsNumber} (hx : x ≠ nan) (hy : y ≠ nan) (h : lt x y = false) :
    le y x = true := by
  rcases le_or_le hy hx with hle | hle
  · exact hle
  rw [lt, hle, Bool.true_and, Bool.not_eq_false'] at h
  exact h

/-- What the check of the date in the future says. -/
theorem ahead_le {s m : ℚ} (hsm : s ≤ m) (he₁ : ValidTime e₁)
    (h : lt (add (finite c₁) (finite s)) (finite e₁) = false) : (e₁ : ℚ) ≤ c₁ + m + 1 / 2 := by
  have hle : le (finite e₁) (binary64 (c₁ + m)) = true :=
    le_trans (le_of_not_lt (binary64_ne_nan _) JsNumber.noConfusion h) (binary64_mono (by linarith))
  rw [ValidTime, Canonical.maxTime, abs_le] at he₁
  have hlow : (-(2 ^ 53 : Int) : ℚ) < e₁ := by exact_mod_cast (by omega : -(2 ^ 53 : Int) < e₁)
  have hhigh : (e₁ : ℚ) < (2 ^ 53 : Int) := by exact_mod_cast (by omega : e₁ < 2 ^ 53)
  rcases lt_or_ge |(c₁ : ℚ) + m| (2 ^ (53 : Int)) with hsmall | hlarge
  · by_cases hzero : (c₁ : ℚ) + m = 0
    · rw [hzero] at hle ⊢
      have hzero : (e₁ : ℚ) ≤ 0 := of_decide_eq_true hle
      linarith
    -- one rounding moves the sum by at most a half
    obtain ⟨d, hd, hnear⟩ := binary64_near hzero (by norm_num) (by norm_num) hsmall
    rw [hd] at hle
    have hed : (e₁ : ℚ) ≤ d := of_decide_eq_true hle
    have hhalf : (2 : ℚ) ^ ((53 : Int) - 54) = 1 / 2 := by norm_num
    rw [hhalf] at hnear
    linarith [(abs_le.mp hnear).2]
  · rcases le_abs.mp hlarge with hfar | hfar
    · norm_num at hhigh hfar ⊢
      linarith
    -- so far back no date is
    have hbound := le_trans hle (binary64_mono (show (c₁ : ℚ) + m ≤ ((1 - 2 ^ 53 : Int) : ℚ) by
        norm_num at hfar ⊢
        linarith))
    rw [binary64_safe (by decide)] at hbound
    have hback : (e₁ : ℚ) ≤ ((1 - 2 ^ 53 : Int) : ℚ) := of_decide_eq_true hbound
    have hfar' : e₁ ≤ 1 - 2 ^ 53 := by exact_mod_cast hback
    omega

/-- **THE WINDOWS LEAVE NO GAP**: between two calls that accept a timestamp
    there is at most twice the maximum age. -/
theorem gap_le {s m : ℚ} (hsm : s ≤ m) (hc₁ : ValidTime c₁) (hc₂ : ValidTime c₂)
    (he₁ : ValidTime e₁) (hle : e₂ ≤ e₁) (hc : c₁ ≤ c₂)
    (hpost : lt (add (finite c₁) (finite s)) (finite e₁) = false)
    (hage : lt (finite m) (sub (finite c₂) (finite e₂)) = false) :
    ((c₂ - c₁ : Int) : ℚ) ≤ m * 2 := by
  have hahead := ahead_le hsm he₁ hpost
  have hbehind : le (binary64 ((c₂ - e₂ : Int) : ℚ)) (finite m) = true := by
    have hsub : sub (finite c₂) (finite e₂) = binary64 ((c₂ - e₂ : Int) : ℚ) := by
      rw [Int.cast_sub, sub_eq_add_neg]
      rfl
    rw [hsub] at hage
    exact le_of_not_lt JsNumber.noConfusion (binary64_ne_nan _) hage
  rw [ValidTime, Canonical.maxTime, abs_le] at hc₁ hc₂ he₁
  rcases le_or_gt (8640000000000000 : ℚ) m with hlarge | hsmall
  · have hint : (c₂ - c₁ : Int) ≤ 17280000000000000 := by omega
    have hcast : ((c₂ - c₁ : Int) : ℚ) ≤ 17280000000000000 := by exact_mod_cast hint
    linarith
  -- all numbers are small, so the age is not rounded
  have hupper : c₂ - e₂ < 2 ^ 53 := by
    by_contra hfar
    have hfar' : ((2 ^ 53 - 1 : Int) : ℚ) ≤ ((c₂ - e₂ : Int) : ℚ) := by
      exact_mod_cast (by omega : 2 ^ 53 - 1 ≤ c₂ - e₂)
    have hbound := le_trans (binary64_mono hfar') hbehind
    rw [binary64_safe (by decide)] at hbound
    have hle : ((2 ^ 53 - 1 : Int) : ℚ) ≤ m := of_decide_eq_true hbound
    norm_num at hle
    linarith
  have hlower : -(2 ^ 53) < c₂ - e₂ := by
    have hbefore : (e₁ - c₁ : Int) < 8640000000000001 := by
      have hcast : ((e₁ - c₁ : Int) : ℚ) < (8640000000000001 : Int) := by
        push_cast
        linarith
      exact_mod_cast hcast
    omega
  rw [binary64_safe (by omega)] at hbehind
  have hage' : ((c₂ - e₂ : Int) : ℚ) ≤ m := of_decide_eq_true hbehind
  have hahead' : ((e₁ - c₁ : Int) : ℚ) ≤ m + 1 / 2 := by
    push_cast
    linarith
  -- both distances are whole, so the half does not add up
  have hsum : ((c₂ - c₁ : Int) : ℚ) ≤ ((c₂ - e₂ : Int) : ℚ) + ((e₁ - c₁ : Int) : ℚ) := by
    exact_mod_cast (by omega : c₂ - c₁ ≤ (c₂ - e₂) + (e₁ - c₁))
  rcases le_or_gt (e₁ - c₁) (c₂ - e₂) with hnear | hfar
  · have hcast : ((e₁ - c₁ : Int) : ℚ) ≤ ((c₂ - e₂ : Int) : ℚ) := by exact_mod_cast hnear
    linarith
  have hcast : ((c₂ - e₂ : Int) : ℚ) + 1 ≤ ((e₁ - c₁ : Int) : ℚ) := by
    exact_mod_cast (by omega : c₂ - e₂ + 1 ≤ e₁ - c₁)
  linarith

/-- **A DIGEST THAT WOULD BE ACCEPTED AGAIN IS STILL KNOWN**. -/
theorem still_known (hsm : le s m = true) (hdouble : m.isDouble = true) (hc₁ : ValidTime c₁)
    (hc₂ : ValidTime c₂) (he₁ : ValidTime e₁) (hle : e₂ ≤ e₁)
    (hc : c₁ ≤ c₂) (hpost : lt (add (finite c₁) s) (finite e₁) = false)
    (hage : lt m (sub (finite c₂) (finite e₂)) = false) (hnow : c ≤ c₂) :
    lt (finite c₁) (sub (finite c) (mul m (ofNat 2))) = false := by
  have hsafe : binary64 (c₁ : ℚ) = finite c₁ := by
    rw [ValidTime, Canonical.maxTime, abs_le] at hc₁
    exact binary64_safe (by omega)
  have hnever : lt (finite c₁) (sub (finite c) posInf) = false := rfl
  cases m with
  | nan => cases s <;> cases hsm
  | posInf => exact hnever
  | negInf =>
    -- the skew is below every number too, and nothing was accepted
    cases s with
    | negInf => cases hpost
    | _ => cases hsm
  | finite m =>
    cases s with
    | nan => cases hsm
    | posInf => cases hsm
    | negInf => cases hpost
    | finite s =>
      have hgap := gap_le (of_decide_eq_true hsm) hc₁ hc₂ he₁ hle hc hpost hage
      have hnonneg : (0 : ℚ) ≤ ((c₂ - c₁ : Int) : ℚ) := by exact_mod_cast (by omega : 0 ≤ c₂ - c₁)
      have hmul : mul (finite m) (ofNat 2) = finite (m * 2)
          ∨ mul (finite m) (ofNat 2) = posInf := by
        rcases (show 0 ≤ m by linarith).eq_or_lt with rfl | hpos
        · left
          show binary64 (0 * ((2 : Nat) : ℚ)) = _
          rw [zero_mul, zero_mul]
          rfl
        · exact binary64_mul_two hpos (of_decide_eq_true hdouble)
      rcases hmul with hmul | hmul
      · rw [hmul]
        have hle : le (sub (finite c) (finite (m * 2))) (finite c₁) = true := by
          rw [← hsafe]
          refine binary64_mono ?_
          have hcast : (c : ℚ) ≤ c₂ := by exact_mod_cast hnow
          push_cast at hgap
          linarith
        rw [lt, hle]
        simp
      · rw [hmul]
        exact hnever

end Windows

/-! ## What a call needs and leaves -/

section Calls

variable {host : Host} {options : VerifierOptions} {seen : SeenDigests} {call : Call}
  {canonical : Text} {payload : ExternalEvidencePayload}

theorem checkPayload_ok (h : checkPayload host options call.now payload = .ok ()) :
    ∃ e, host.dateParse payload.timestamp = some e
      ∧ lt (add (getTime call.now) options.allowedSkew) (finite e) = false
      ∧ lt options.maxAge (sub (getTime call.now) (finite e)) = false := by
  rw [checkPayload] at h
  split at h
  · cases h
  split at h
  · cases h
  rename_i e he
  split at h
  · cases h
  rename_i hpost
  split at h
  · cases h
  rename_i hage
  exact ⟨e, he, Bool.eq_false_iff.mpr hpost, Bool.eq_false_iff.mpr hage⟩

theorem readEnvelope_checked {envelope : SignedEvidenceEnvelope}
    (h : readEnvelope host options call = .ok (envelope, payload, canonical)) :
    checkPayload host options call.now payload = .ok () := by
  obtain ⟨henvelope, hpayload, -⟩ := readEnvelope_ok h
  rw [readEnvelope, henvelope] at h
  simp only [hpayload] at h
  split at h
  · cases h
  cases hcheck : checkPayload host options call.now payload with
  | error thrown =>
    rw [hcheck] at h
    cases h
  | ok _ => rfl

/-- **A FRESH RECEIPT** was not known, its timestamp was in the window, and it
    is recorded under the time of the call. -/
theorem fresh_spec (h : IsFresh host options seen call canonical) :
    ∃ c timestamp e, call.now = some c ∧ Reads host call canonical timestamp
      ∧ host.dateParse timestamp = some e
      ∧ lt (add (finite c) options.allowedSkew) (finite e) = false
      ∧ lt options.maxAge (sub (finite c) (finite e)) = false
      ∧ (evictStaleDigests options call.now seen).get (digestHex host canonical) = none
      ∧ ∃ entry, (step host options seen call).get (digestHex host canonical) = some entry
        ∧ entry.cachedAt = finite c := by
  obtain ⟨⟨timestamp, hreads⟩, receipt, hok, hfresh⟩ := h
  rcases verify_cases host options seen call with ⟨thrown, seen', hverify, -, -⟩
    | ⟨envelope, payload, canonical', hread, ⟨existing, -, hverify⟩ | ⟨hnone, -, ms, hverify⟩⟩
  · rw [hverify] at hok
    cases hok
  · rw [hverify] at hok
    rw [← Except.ok.inj hok] at hfresh
    cases hfresh
  obtain ⟨henvelope, hpayload, hcanonical⟩ := readEnvelope_ok hread
  obtain ⟨e', p', henvelope', hpayload', hcanonical', htimestamp⟩ := hreads
  obtain rfl := Option.some.inj (henvelope.symm.trans henvelope')
  obtain rfl := Option.some.inj (hpayload.symm.trans hpayload')
  obtain rfl := Except.ok.inj (hcanonical.symm.trans hcanonical')
  obtain ⟨e, he, hpost, hage⟩ := checkPayload_ok (readEnvelope_checked hread)
  cases hnow : call.now with
  | none =>
    -- an invalid clock has no receipt
    rw [verify, hread, hnow] at hok
    simp only [← hnow, hnone] at hok
    split at hok
    · cases hok
    · cases hok
    rename_i hsome
    cases hnow.symm.trans hsome
  | some c =>
    rw [hnow] at hpost hage
    refine ⟨c, timestamp, e, rfl, ⟨_, _, henvelope, hpayload, hcanonical, htimestamp⟩,
      htimestamp ▸ he, hpost, hage, hnow ▸ hnone, ?_⟩
    rw [step, hverify]
    exact ⟨_, get_set_self _ _ _, by rw [hnow]; rfl⟩

theorem get_step_kept {digest : Text} {entry : CachedReceipt} (h : seen.get digest = some entry)
    (hkept : lt entry.cachedAt (sub (getTime call.now) (mul options.maxAge (ofNat 2))) = false) :
    (evictStaleDigests options call.now seen).get digest = some entry
      ∧ (step host options seen call).get digest = some entry := by
  have hevicted : (evictStaleDigests options call.now seen).get digest = some entry :=
    get_filter_of_keep h (by rw [hkept]; rfl)
  refine ⟨hevicted, ?_⟩
  rw [step]
  rcases verify_cases host options seen call with ⟨thrown, seen', hverify, hseen, -⟩
    | ⟨envelope, payload, canonical', hread, ⟨existing, -, hverify⟩ | ⟨hnone, -, ms, hverify⟩⟩
  · rw [hverify]
    rcases hseen with rfl | rfl
    · exact h
    · exact hevicted
  · rw [hverify]
    exact hevicted
  rw [hverify, get_set, if_neg]
  · exact hevicted
  rintro rfl
  cases hnone.symm.trans hevicted

end Calls

/-! ## Runs -/

/-- **EVIDENCE IS FRESH ONCE**: in a run with a clock that does not go back, whose later calls do
    not read later times from one canonical payload, no payload gets two receipts that are not
    replayed. -/
theorem fresh_once (host : Host) (options : VerifierOptions) (calls : List Call)
    (hskew : le options.allowedSkew options.maxAge = true)
    (hdouble : options.maxAge.isDouble = true)
    (hparse : ∀ text, ∀ e ∈ host.dateParse text, ValidTime e)
    (hvalid : ∀ call ∈ calls, ∀ c ∈ call.now, ValidTime c)
    (hclock : calls.Pairwise InOrder) (hsame : calls.Pairwise (NotLater host))
    (before : List Call) (a : Call) (between : List Call) (b : Call) (after : List Call)
    (canonical : Text) (hcalls : calls = before ++ a :: (between ++ b :: after))
    (hfresh : IsFresh host options (before.foldl (step host options) .empty) a canonical) :
    ¬ IsFresh host options ((before ++ a :: between).foldl (step host options) .empty) b
      canonical := by
  intro hagain
  subst hcalls
  obtain ⟨c₁, t₁, e₁, hnow₁, hreads₁, hdate₁, hpost, -, -, hentry⟩ := fresh_spec hfresh
  obtain ⟨c₂, t₂, e₂, hnow₂, hreads₂, hdate₂, -, hage, hnone, -⟩ := fresh_spec hagain
  rw [pairwise_append, pairwise_cons, pairwise_append] at hclock hsame
  obtain ⟨-, ⟨hafter, -, -, hbetween⟩, -⟩ := hclock
  have hc : c₁ ≤ c₂ := hafter b (by simp) c₁ hnow₁ c₂ hnow₂
  have hle : e₂ ≤ e₁ := hsame.2.1.1 b (by simp) canonical t₁ t₂ hreads₁ hreads₂ e₁ hdate₁ e₂ hdate₂
  -- up to the second call the digest is not evicted
  have hkept : ∀ call : Call, (∀ c ∈ call.now, c ≤ c₂) → lt (finite c₁)
      (sub (getTime call.now) (mul options.maxAge (ofNat 2))) = false := by
    intro call hcall
    cases hnow : call.now with
    | none => rfl
    | some c =>
      exact still_known hskew hdouble (hvalid a (by simp) c₁ hnow₁)
        (hvalid b (by simp) c₂ hnow₂) (hparse t₁ e₁ hdate₁) hle hc hpost hage (hcall c hnow)
  have hstill : ∀ seen : SeenDigests, (∃ entry, seen.get (digestHex host canonical) = some entry
        ∧ entry.cachedAt = finite c₁) →
      ∃ entry, (between.foldl (step host options) seen).get (digestHex host canonical)
        = some entry ∧ entry.cachedAt = finite c₁ := by
    have hearlier : ∀ call ∈ between, ∀ c ∈ call.now, c ≤ c₂ :=
      fun call hmem c hnow => hbetween call hmem b (by simp) c hnow c₂ hnow₂
    clear hbetween hagain hnone hvalid hafter hsame
    induction between with
    | nil => exact fun seen h => h
    | cons call between ih =>
      rintro seen ⟨entry, hget, hat⟩
      refine ih (fun call hmem => hearlier call (.tail _ hmem)) _ ⟨entry, ?_, hat⟩
      exact (get_step_kept hget (hat ▸ hkept call (hearlier call (.head _)))).2
  obtain ⟨entry, hget, hat⟩ := hstill _ hentry
  rw [foldl_append, foldl_cons] at hnone
  have hknown := (@get_step_kept host options _ b _ _ hget
    (hat ▸ hkept b (fun c hnow => (Option.some.inj (hnow₂.symm.trans hnow)).ge))).1
  cases hnone.symm.trans hknown

theorem isFresh_of {host : Host} {options : VerifierOptions} {seen : SeenDigests} {call : Call}
    {canonical timestamp : Text} (hreads : Reads host call canonical timestamp)
    (h : (verify host options seen call).1.toOption.map (fun r => r.replayed) = some false) :
    IsFresh host options seen call canonical := by
  refine ⟨⟨timestamp, hreads⟩, ?_⟩
  obtain ⟨receipt, hreceipt, hfresh⟩ := Option.map_eq_some_iff.mp h
  refine ⟨receipt, ?_, hfresh⟩
  cases hverify : (verify host options seen call).1 with
  | error thrown =>
    rw [hverify] at hreceipt
    cases hreceipt
  | ok r =>
    rw [hverify] at hreceipt
    rw [Option.some.inj hreceipt]

/-- An evidence whose timestamp reads as given. -/
def datedPayload (timestamp : Text) : ExternalEvidencePayload :=
  { samplePayload with timestamp := timestamp }

def datedCall (timestamp : Text) (now : Int) : Call :=
  { signedCall with
    envelope := signedCall.envelope.map
      (fun e => { e with payload := some (datedPayload timestamp) })
    now := some now }

def canonicalText (host : Host) (payload : ExternalEvidencePayload) : Text :=
  (canonicalizeJson host payload).toOption.getD []

/-- The same evidence again, one millisecond later: a replay. -/
theorem fresh_once_sample : ¬ IsFresh blankHost ⟨none, none⟩
      (([] ++ datedCall [] 0 :: []).foldl (step blankHost ⟨none, none⟩) .empty) (datedCall [] 1)
      (canonicalText blankHost (datedPayload [])) := by
  refine fresh_once blankHost ⟨none, none⟩ [datedCall [] 0, datedCall [] 1] (by decide +kernel)
    (by decide +kernel) ?_ ?_ ?_ ?_ [] (datedCall [] 0) [] (datedCall [] 1) [] _ rfl ?_
  · intro text e he
    cases he
    decide
  · intro call hmem c hc
    rcases mem_cons.mp hmem with rfl | hmem
    · cases hc
      decide
    rw [mem_singleton.mp hmem] at hc
    cases hc
    decide
  · refine pairwise_pair.mpr fun c hc c' hc' => ?_
    rw [← Option.some.inj hc, ← Option.some.inj hc']
    decide
  · refine pairwise_pair.mpr fun _ _ _ _ _ e he e' he' => ?_
    rw [← Option.some.inj he, ← Option.some.inj he']
  · exact isFresh_of ⟨_, datedPayload [], rfl, rfl, by decide +kernel, rfl⟩ (by decide +kernel)

/-! ## One payload, two dates -/

/-- NFC on texts whose only composition is `y` with an acute accent. -/
def composeY : Text → Text
  | 0x79 :: 0x301 :: rest => 0xfd :: composeY rest
  | c :: rest => c :: composeY rest
  | [] => []

/-- `may` with a combining accent: the name of a month to the parser. -/
def spelledMay : Text := ascii "may" ++ 0x301 :: ascii " 5 24 2024"

/-- The same in its normal form: a word that the parser skips. -/
def composedMay : Text := composeY spelledMay

/-- A parser that reads the first as the fifth of May, the second as May 24. -/
def mayHost : Host :=
  { blankHost with
    engine := { Canonical.sampleEngine with normalize := composeY }
    dateParse := fun text =>
      if text = spelledMay then some 1714867200000
      else if text = composedMay then some 1716508800000
      else none }

/-- One canonical payload, signed once, is fresh on both days. -/
theorem fresh_twice :
    InOrder (datedCall spelledMay 1714867200000) (datedCall composedMay 1716508800000)
      ∧ IsFresh mayHost ⟨none, none⟩ .empty (datedCall spelledMay 1714867200000)
        (canonicalText mayHost (datedPayload composedMay))
      ∧ IsFresh mayHost ⟨none, none⟩
        (step mayHost ⟨none, none⟩ .empty (datedCall spelledMay 1714867200000))
        (datedCall composedMay 1716508800000)
        (canonicalText mayHost (datedPayload composedMay)) := by
  refine ⟨?_, ?_, ?_⟩
  · intro c hc c' hc'
    rw [← Option.some.inj hc, ← Option.some.inj hc']
    decide
  · exact isFresh_of ⟨_, datedPayload spelledMay, rfl, rfl, by decide +kernel, rfl⟩
      (by decide +kernel)
  exact isFresh_of ⟨_, datedPayload composedMay, rfl, rfl, by decide +kernel, rfl⟩
    (by decide +kernel)

end Evidence
