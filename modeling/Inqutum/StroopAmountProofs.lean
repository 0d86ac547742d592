import Inqutum.JsNumberProofs

/-!
# Amounts at stroop precision

Two amounts are compared as whole stroops, `10 ^ -7` of a unit.  Each is
read as a number, scaled, rounded and refused unless it is a safe integer;
then the difference is held against a tolerance.

The arithmetic is that of doubles.  For a tolerance that is itself a safe
integer the rounding of the difference plays no role (`amountsMatch_iff`):
the result is about the two whole numbers only.
-/

namespace Stroops

open JsNumber JsText

/-- `STROOP_SCALE`. -/
def scale : JsNumber := 10000000

/-- `Math.round(value * STROOP_SCALE)`. -/
def scaled (value : JsNumber) : JsNumber := (value.mul scale).round

/-- `amountsMatch` of `verify-amount-tolerance`; an `actual` that is neither a
    string nor a number is nothing. -/
def amountsMatch (expected : JsScalar) (actual : Option JsScalar)
    (toleranceStroops : JsNumber) : Bool :=
  if !toleranceStroops.isInteger || toleranceStroops.isNegative then false
  else
    let expectedStr := expected.toText
    let actualStr := (actual.map JsScalar.toText).getD ""
    if trim expectedStr = "" ∨ trim actualStr = "" then false
    else
      let expectedNum := ofText expectedStr
      let actualNum := ofText actualStr
      if !expectedNum.isFinite || !actualNum.isFinite then false
      else
        let expectedStroops := scaled expectedNum
        let actualStroops := scaled actualNum
        if !expectedStroops.isSafeInteger || !actualStroops.isSafeInteger then
          false
        else ((expectedStroops.sub actualStroops).abs).le toleranceStroops

/-! ## The whole number of stroops -/

/-- The stroops a text stands for: none unless it is a finite number whose
    stroops are a safe integer. -/
def stroopsOf (text : String) : Option Int :=
  if trim text ≠ "" ∧ (ofText text).isFinite = true then
    match scaled (ofText text) with
    | .finite s =>
      if (finite s).isSafeInteger then some s.num else none
    | _ => none
  else none

theorem stroopsOf_eq_some {text : String} {n : Int} : stroopsOf text = some n ↔
      trim text ≠ "" ∧ (ofText text).isFinite = true ∧ scaled (ofText text) = .finite n
      ∧ |n| ≤ maxSafeInteger := by
  rw [stroopsOf]
  by_cases hnumber : trim text ≠ "" ∧ (ofText text).isFinite = true
  · rw [if_pos hnumber, ← and_assoc, and_iff_right hnumber]
    cases scaled (ofText text) with
    | finite s =>
      simp only
      split
      · rename_i hsafe
        obtain ⟨m, hm, habs⟩ := isSafeInteger_iff.mp hsafe
        obtain rfl := finite.inj hm
        rw [Rat.num_intCast, Option.some.injEq, finite.injEq, Int.cast_inj]
        constructor
        · rintro rfl
          exact ⟨rfl, habs⟩
        · exact And.left
      · rename_i hunsafe
        refine iff_of_false nofun ?_
        intro h
        exact hunsafe (isSafeInteger_iff.mpr ⟨n, h⟩)
    | _ => exact iff_of_false nofun (fun h => nomatch h.1)
  · rw [if_neg hnumber]
    exact iff_of_false nofun (fun h => hnumber ⟨h.1, h.2.1⟩)

theorem stroopsOf_of_safe {text : String} (hblank : trim text ≠ "")
    (hfinite : (ofText text).isFinite = true)
    (hsafe : (scaled (ofText text)).isSafeInteger = true) : ∃ n, stroopsOf text = some n := by
  obtain ⟨n, hn⟩ := isSafeInteger_iff.mp hsafe
  exact ⟨n, stroopsOf_eq_some.mpr ⟨hblank, hfinite, hn⟩⟩

/-- **THE COMPARISON**: two amounts match exactly when both stand for stroops
    and these differ by at most the tolerance. -/
theorem amountsMatch_iff (expected : JsScalar) (actual : Option JsScalar)
    {t : Nat} (ht : t < 2 ^ 53) :
    amountsMatch expected actual (.ofNat t) = true ↔ ∃ e a, stroopsOf expected.toText = some e
        ∧ stroopsOf ((actual.map JsScalar.toText).getD "") = some a ∧ |e - a| ≤ t := by
  have htol : (!(ofNat t).isInteger
      || (ofNat t).isNegative) = false := by
    simp [ofNat, isInteger, isNegative]
  generalize hactual : (actual.map JsScalar.toText).getD "" = actualStr
  constructor
  · intro h
    rw [amountsMatch, htol, if_neg Bool.false_ne_true] at h
    dsimp only at h
    rw [hactual] at h
    split at h
    · cases h
    rename_i hblank
    rw [not_or] at hblank
    split at h
    · cases h
    rename_i hfinite
    simp only [Bool.or_eq_true, Bool.not_eq_true', not_or, Bool.not_eq_false] at hfinite
    split at h
    · cases h
    rename_i hsafe
    simp only [Bool.or_eq_true, Bool.not_eq_true', not_or, Bool.not_eq_false] at hsafe
    obtain ⟨e, he⟩ := stroopsOf_of_safe hblank.1 hfinite.1 hsafe.1
    obtain ⟨a, ha⟩ := stroopsOf_of_safe hblank.2 hfinite.2 hsafe.2
    obtain ⟨-, -, hse, hle⟩ := stroopsOf_eq_some.mp he
    obtain ⟨-, -, hsa, hla⟩ := stroopsOf_eq_some.mp ha
    rw [hse, hsa, le_abs_sub hle hla ht] at h
    exact ⟨e, a, he, ha, h⟩
  · rintro ⟨e, a, he, ha, hdiff⟩
    obtain ⟨hbe, hfe, hse, hle⟩ := stroopsOf_eq_some.mp he
    obtain ⟨hba, hfa, hsa, hla⟩ := stroopsOf_eq_some.mp ha
    have hsafe : ∀ n : Int, |n| ≤ maxSafeInteger → (finite n).isSafeInteger = true :=
      fun n hn => isSafeInteger_iff.mpr ⟨n, rfl, hn⟩
    rw [amountsMatch, htol, if_neg Bool.false_ne_true]
    dsimp only
    rw [hactual, if_neg (not_or.mpr ⟨hbe, hba⟩), hfe, hfa, hse, hsa, hsafe e hle, hsafe a hla]
    exact (le_abs_sub hle hla ht).mpr hdiff

end Stroops
