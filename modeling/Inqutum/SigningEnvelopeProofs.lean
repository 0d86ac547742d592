import Inqutum.CanonicalFormProofs
import Inqutum.JsonSuffixProofs

/-!
# Signing envelopes

`canonicalSigningPayload` joins a prefix, a timestamp and the canonical
text of a payload with points, and leaves an empty timestamp out.  Points
are also in numbers: `1` with the payload `5` and no timestamp with the
payload `1.5` make one envelope.

`unambiguous_iff`: nothing else does.  Two envelopes of one prefix say the
same payload and the same timestamp, unless the one is the other with a
number cut at its point.
-/

namespace Canonical

open JsonText List

/-- `string | number`. -/
inductive Timestamp where
  | str (value : Text)
  | number (value : JsNumber)
  | negZero

section Envelope

variable (e : Engine)

/-- `String(timestamp)`. -/
def Timestamp.text : Timestamp → Text
  | .str text => text
  | .number (.finite q) => e.numberText q
  | .number x => ascii x.toText
  | .negZero => ascii "0"

/-- `timestamp !== undefined ? String(timestamp) : ''`. -/
def timestampText (timestamp : Option Timestamp) : Text :=
  (timestamp.map (Timestamp.text e)).getD []

def canonicalSigningPayload (prefixText : Text) (payload : JsValue)
    (timestamp : Option Timestamp) : Except Thrown Text :=
  (canonicalize e payload).map (fun canonicalBody =>
    let ts := timestampText e timestamp
    if ts = [] then prefixText ++ unit '.' :: canonicalBody
    else prefixText ++ unit '.' :: (ts ++ unit '.' :: canonicalBody))

/-- One envelope says one payload, up to member order, and one timestamp; one
    that is left out has the empty text. -/
def Unambiguous (prefixText : Text) (p q : Tree) (s t : Option Timestamp) :
    Prop :=
  canonicalSigningPayload e prefixText (toValue p) s
      = canonicalSigningPayload e prefixText (toValue q) t →
    Same p q ∧ timestampText e s = timestampText e t

/-- What stands behind the prefix and its point. -/
def joinPoint (ts text : Text) : Text :=
  if ts = [] then text else ts ++ unit '.' :: text

/-- The text of a number in an envelope. -/
def numeral (x : Number) : Text := (writer e).number x

/-- The payload `q` is a number with a point.  What stands before the point
    is at the end of the timestamp `s`, behind `t`; what stands behind it is
    the payload `p`. -/
def Splits (p q : Tree) (s t : Option Timestamp) : Prop :=
  ∃ a b whole, p = .num a ∧ q = .num b ∧ numeral e b = whole ++ unit '.' :: numeral e a
    ∧ timestampText e s = joinPoint (timestampText e t) whole

end Envelope

/-- A point may be read as the end of either field. -/
theorem joinPoint_joinPoint {ts whole : Text} (h : whole ≠ []) (text : Text) :
    joinPoint (joinPoint ts whole) text = joinPoint ts (whole ++ unit '.' :: text) := by
  by_cases hts : ts = []
  · rw [joinPoint, joinPoint, joinPoint, if_pos hts, if_pos hts, if_neg h]
  have hne : ts ++ unit '.' :: whole ≠ [] := by simp
  rw [joinPoint, joinPoint, joinPoint, if_neg hts, if_neg hts, if_neg hne, append_assoc]
  rfl

/-- Joining adds something. -/
theorem joinPoint_ne {ts whole : Text} (h : whole ≠ []) : joinPoint ts whole ≠ ts := by
  intro heq
  have hlen := congrArg length heq
  have hpos := length_pos_of_ne_nil h
  rw [joinPoint] at hlen
  split at hlen
  · rename_i hts
    rw [hts, length_nil] at hlen
    omega
  rw [length_append, length_cons] at hlen
  omega

/-- Two readings of one text differ in which point ends the first field. -/
theorem joinPoint_cases {ts ts' text text' : Text} (h : joinPoint ts text = joinPoint ts' text') :
    (ts = ts' ∧ text = text') ∨ (∃ whole, text' = whole ++ unit '.' :: text
          ∧ ts = joinPoint ts' whole)
      ∨ ∃ whole, text = whole ++ unit '.' :: text' ∧ ts' = joinPoint ts whole := by
  rw [joinPoint, joinPoint] at h
  split at h
  · rename_i hts
    split at h
    · rename_i hts'
      exact .inl ⟨hts.trans hts'.symm, h⟩
    · exact .inr (.inr ⟨ts', h, (if_pos hts).symm⟩)
  rename_i hts
  split at h
  · rename_i hts'
    exact .inr (.inl ⟨ts, h.symm, (if_pos hts').symm⟩)
  rename_i hts'
  -- the shorter timestamp is a beginning of the longer one
  rcases append_eq_append_iff.mp h with
    ⟨mid, rfl, hmid⟩ | ⟨mid, rfl, hmid⟩
  · cases mid with
    | nil => exact .inl ⟨(append_nil _).symm, (cons.inj hmid).2⟩
    | cons c whole =>
      obtain ⟨rfl, hwhole⟩ := cons.inj hmid
      exact .inr (.inr ⟨whole, hwhole, (if_neg hts).symm⟩)
  cases mid with
  | nil => exact .inl ⟨append_nil _, (cons.inj hmid).2.symm⟩
  | cons c whole =>
    obtain ⟨rfl, hwhole⟩ := cons.inj hmid
    exact .inr (.inl ⟨whole, hwhole, (if_neg hts').symm⟩)

/-! ## Envelopes -/

section Payloads

variable {e : Engine} {read : Text → Option Number} {numbers : ℚ → Prop}
  (he : e.Standard read numbers) {p q : Tree} {s t : Option Timestamp}

/-- The canonical text of a payload. -/
def bodyText (e : Engine) (p : Tree) : Text :=
  writeTree (writer e) (canonicalForm e p)

include he

theorem bodyText_num (x : Number) : bodyText e (.num x) = numeral e x := by
  cases x with
  | negZero => exact he.zeroText
  | finite q => rfl

theorem signingPayload_eq (prefixText : Text) (p : Tree) (s : Option Timestamp) :
    canonicalSigningPayload e prefixText (toValue p) s = .ok (prefixText ++ unit '.' ::
          joinPoint (timestampText e s) (bodyText e p)) := by
  rw [canonicalSigningPayload, canonicalize_eq he.zeroText, joinPoint]
  show Except.ok (if timestampText e s = [] then _ else _) = _
  split
  · rfl
  · rfl

theorem signingPayload_eq_iff (prefixText : Text) :
    canonicalSigningPayload e prefixText (toValue p) s
        = canonicalSigningPayload e prefixText (toValue q) t
      ↔ joinPoint (timestampText e s) (bodyText e p)
          = joinPoint (timestampText e t) (bodyText e q) := by
  rw [signingPayload_eq he, signingPayload_eq he]
  constructor
  · intro h
    exact (cons.inj (append_cancel_left (Except.ok.inj h))).2
  intro h
  rw [h]

theorem whole_ne_nil (hq : Valid e numbers q) {b : Number} (hb : q = .num b)
    {whole text : Text} (h : numeral e b = whole ++ unit '.' :: text) : whole ≠ [] := by
  rintro rfl
  have hok := (numbersOk_canonicalForm (e := e) he.zero hq.numbers).self
  subst hb
  have hnumber : isJsonNumber (bodyText e (.num b)) = true := by
    cases b with
    | negZero => exact (writer_readBy he).isNumber _ (hok _ rfl)
    | finite x => exact (writer_readBy he).isNumber _ (hok _ rfl)
  rw [bodyText_num he, h] at hnumber
  cases hnumber

/-- A cut number makes one envelope of two timestamps. -/
theorem not_unambiguous_of_splits (hq : Valid e numbers q)
    (h : Splits e p q s t) (prefixText : Text) : ¬ Unambiguous e prefixText p q s t := by
  obtain ⟨a, b, whole, rfl, rfl, hcut, hts⟩ := h
  have hne := whole_ne_nil he hq rfl hcut
  intro hclaim
  have hone := (signingPayload_eq_iff he (p := .num a) (q := .num b) (s := s)
    (t := t) prefixText).mpr (by
      rw [hts, bodyText_num he, bodyText_num he, hcut, joinPoint_joinPoint hne])
  have hsame := (hclaim hone).2
  rw [hts] at hsame
  exact joinPoint_ne hne hsame

theorem splits_of_suffix (hp : Valid e numbers p) (hq : Valid e numbers q)
    {whole : Text} (hcut : bodyText e q = whole ++ unit '.' :: bodyText e p)
    (hts : timestampText e s = joinPoint (timestampText e t) whole) : Splits e p q s t := by
  obtain ⟨x, y, hx, hy⟩ := numbers_of_suffix (writer_readBy he)
    (numbersOk_canonicalForm he.zero hp.numbers)
    (numbersOk_canonicalForm he.zero hq.numbers) hcut
  have hnum : ∀ {u : Tree} {z : Number}, canonicalForm e u = .num z → ∃ a, u = .num a := by
    intro u z hu
    cases u with
    | num a => exact ⟨a, rfl⟩
    | null => cases hu
    | bool b => cases hu
    | str s => cases hu
    | arr items => cases hu
    | obj members => cases hu
  obtain ⟨a, rfl⟩ := hnum hx
  obtain ⟨b, rfl⟩ := hnum hy
  rw [bodyText_num he, bodyText_num he] at hcut
  exact ⟨a, b, whole, rfl, rfl, hcut, hts⟩

/-- **ONE ENVELOPE, ONE MEANING**, unless a number is cut at its point. -/
theorem unambiguous_iff (hp : Valid e numbers p) (hq : Valid e numbers q)
    (prefixText : Text) : Unambiguous e prefixText p q s t
      ↔ ¬ Splits e p q s t ∧ ¬ Splits e q p t s := by
  constructor
  · intro h
    refine ⟨fun hsplits => ?_, fun hsplits => ?_⟩
    · exact not_unambiguous_of_splits he hq hsplits prefixText h
    refine not_unambiguous_of_splits he hp hsplits prefixText ?_
    intro heq
    obtain ⟨hsame, hts⟩ := h heq.symm
    exact ⟨hsame.symm, hts.symm⟩
  · rintro ⟨hpq, hqp⟩ heq
    rcases joinPoint_cases ((signingPayload_eq_iff he prefixText).mp heq) with
      ⟨hts, hbody⟩ | ⟨whole, hcut, hts⟩ | ⟨whole, hcut, hts⟩
    · exact ⟨(text_eq_iff he hp hq).mp hbody, hts⟩
    · exact absurd (splits_of_suffix he hp hq hcut hts) hpq
    · exact absurd (splits_of_suffix he hq hp hcut hts) hqp

end Payloads

/-! ## A number cut at its point -/

/-- An engine for a script whose numbers are 0, 5 and 1.5. -/
def pointEngine : Engine where
  normalize := id
  numberText q := if q = 0 then ascii "0" else if q = 5 then ascii "5"
    else ascii "1.5"

def pointNumbers (q : ℚ) : Prop := q = 0 ∨ q = 5 ∨ q = 3 / 2

def pointRead (token : Text) : Option Number :=
  if token = ascii "0" then some (.finite 0)
  else if token = ascii "5" then some (.finite 5)
  else if token = ascii "1.5" then some (.finite (3 / 2))
  else none

theorem standard_pointEngine : pointEngine.Standard pointRead pointNumbers where
  zero := .inl rfl
  zeroText := rfl
  isNumber q hq := by
    rcases hq with rfl | rfl | rfl
    · decide
    · decide
    · decide +kernel
  reads q hq := by
    rcases hq with rfl | rfl | rfl
    · decide
    · decide
    · decide +kernel

theorem valid_pointNumber {q : ℚ} (h : pointNumbers q) :
    Valid pointEngine pointNumbers (.num (.finite q)) where
  distinct := nodup_nil
  numbers := fun _ hr => Number.finite.inj (Tree.num.inj hr) ▸ h
  normalized := ⟨fun _ h => (nomatch h), fun _ h => (nomatch h)⟩

/-- The timestamp `1` with the payload `5`, and the payload `1.5` alone. -/
theorem number_cut_at_point : Valid pointEngine pointNumbers (.num (.finite 5))
      ∧ Valid pointEngine pointNumbers (.num (.finite (3 / 2)))
      ∧ ¬ Unambiguous pointEngine (ascii "webhook") (.num (.finite 5))
        (.num (.finite (3 / 2))) (some (.str (ascii "1"))) none := by
  refine ⟨valid_pointNumber (.inr (.inl rfl)),
    valid_pointNumber (.inr (.inr rfl)), fun hclaim => ?_⟩
  have hone : canonicalSigningPayload pointEngine (ascii "webhook")
        (toValue (.num (.finite 5))) (some (.str (ascii "1")))
      = canonicalSigningPayload pointEngine (ascii "webhook")
        (toValue (.num (.finite (3 / 2)))) none := by decide +kernel
  have hts := (hclaim hone).2
  exact absurd hts (by decide)

theorem unambiguous_iff_point : Unambiguous pointEngine (ascii "webhook") (.num (.finite 5))
    (.num (.finite (3 / 2))) (some (.number 5)) none := by
  refine (unambiguous_iff standard_pointEngine (valid_pointNumber (.inr (.inl rfl)))
    (valid_pointNumber (.inr (.inr rfl))) (ascii "webhook")).mpr ⟨?_, ?_⟩
  · rintro ⟨a, b, whole, ha, hb, hcut, htime⟩
    cases ha
    cases hb
    have hone : numeral pointEngine (.finite (3 / 2))
        = ascii "1" ++ unit '.' :: numeral pointEngine (.finite 5) := by decide +kernel
    rw [hone] at hcut
    cases append_cancel_right hcut
    exact absurd htime (by decide +kernel)
  · rintro ⟨a, b, whole, ha, hb, hcut, -⟩
    cases ha
    cases hb
    have hlen := congrArg length hcut
    rw [show (numeral pointEngine (.finite 5)).length = 1 by decide +kernel, length_append,
      length_cons, show (numeral pointEngine (.finite (3 / 2))).length = 3 by decide +kernel] at hlen
    omega

end Canonical
