import Inqutum.VerifyRequestProofs

/-!
# The pre-checks of the page

The page has its own copies of `checkTxHash` and `checkPayerInfo`, to
report the same first failure as the server.  The first agrees with the
server's on every value.  The second has another pattern for the address,
and measures the name as it was typed, where the server sanitises it first
(`prechecks_agree_iff`).

The page looks up its texts by the code of a failure; here a failure is
its code.  What is no text is refused whatever it is, so JSON stands for
all the values of the script.
-/

namespace Precheck

open Invoices (PayerInfo)
open Verification VerifyRequests JsText VerificationFailure

/-- `PAYER_EMAIL_PATTERN` of the page: one `@` with a text on its left and,
    on its right, a point between two texts, all without white space. -/
def isPageEmail (text : String) : Bool :=
  match splitOn '@' text.toList with
  | [localPart, domain] => !localPart.isEmpty && text.toList.all (fun c => !isSpace c)
      && domain.tail.dropLast.contains '.'
  | _ => false

def checkTxHash : Option Json → Except VerificationCode String
  | some (.str txHash) =>
    if trim txHash = "" then .error .missingTxHash
    else
      let normalized := trim txHash
      if isValidTxHash normalized then .ok normalized else .error .invalidTxHash
  | _ => .error .missingTxHash

abbrev TooLong (text : Option String) : Prop :=
  maxPayerFieldLength < (text.map utf16Length).getD 0

def checkPayerInfo (payerName payerEmail : Option Json) : Except VerificationCode PayerInfo := do
  let name ← (readText .invalidPayerName payerName).mapError code
  let email ← (readText .invalidPayerEmail payerEmail).mapError code
  let normalizedName := nonEmpty (name.map trim)
  let normalizedEmail := nonEmpty (email.map trim)
  if normalizedEmail.any (fun text => !isPageEmail text) then .error .invalidPayerEmail
  else if TooLong normalizedName ∨ TooLong normalizedEmail then .error .payerInfoTooLong
  else .ok ⟨normalizedName, normalizedEmail⟩

/-- The code of a failure, if it is one. -/
def code {ε α : Type} : Except ε α → Option ε
  | .ok _ => none
  | .error e => some e

/-- The page passes what the server passes, and fails with its code. -/
structure Agree (normalize : String → String) (txHash payerName payerEmail : Option Json) :
    Prop where
  hash : code (checkTxHash txHash) = (code (checkBodyHash txHash)).map VerificationFailure.code
  payer : code (checkPayerInfo payerName payerEmail)
    = (code (VerifyRequests.checkPayerInfo normalize payerName payerEmail)).map
        VerificationFailure.code

/-- The address passes both patterns or neither, and if it passes and is not
    too long itself, the name is too long as it was typed and sanitised, or
    neither way. -/
structure Alike (normalize : String → String) (name email : Option String) : Prop where
  address : (nonEmpty (email.map trim)).any (fun text => !isPageEmail text)
    = (nonEmpty (email.map trim)).any (fun text => !isPayerEmail text)
  name : (nonEmpty (email.map trim)).any (fun text => !isPayerEmail text) = false →
    ¬ TooLong (nonEmpty (email.map trim)) →
    (TooLong (nonEmpty (name.map trim))
      ↔ TooLong (nonEmpty (name.map (ContentSafety.sanitizePlainText normalize false))))

section Agreement

variable (normalize : String → String)

theorem hash_agrees (txHash : Option Json) :
    code (checkTxHash txHash) = (code (checkBodyHash txHash)).map VerificationFailure.code := by
  cases txHash with
  | none => rfl
  | some value =>
    cases value with
    | str text =>
      rw [checkTxHash, checkBodyHash, Verification.checkTxHash]
      split
      · rfl
      · dsimp only
        split <;> rfl
    | _ => rfl

theorem text_or_refused (value : Option Json) : (∃ text : Option String, value = text.map .str)
    ∨ ∀ c, readText c value = .error (failure c) := by
  cases value with
  | none => exact .inl ⟨none, rfl⟩
  | some value =>
    cases value with
    | str text => exact .inl ⟨some text, rfl⟩
    | _ => exact .inr fun _ => rfl

theorem readText_map (c : VerificationCode) (text : Option String) :
    readText c (text.map .str) = .ok text := by
  cases text <;> rfl

theorem payer_agrees_iff (name email : Option String) :
    code (checkPayerInfo (name.map .str) (email.map .str))
        = (code (VerifyRequests.checkPayerInfo normalize (name.map .str) (email.map .str))).map
            VerificationFailure.code ↔ Alike normalize name email := by
  have hpage : code (checkPayerInfo (name.map .str) (email.map .str))
      = if (nonEmpty (email.map trim)).any (fun text => !isPageEmail text) then
          some .invalidPayerEmail
        else if TooLong (nonEmpty (name.map trim)) ∨ TooLong (nonEmpty (email.map trim)) then
          some .payerInfoTooLong
        else none := by
    rw [checkPayerInfo, readText_map, readText_map]
    show code (if _ then _ else _) = _
    split
    · rfl
    · split <;> rfl
  have hserver : (code (VerifyRequests.checkPayerInfo normalize (name.map .str)
        (email.map .str))).map VerificationFailure.code
      = if (nonEmpty (email.map trim)).any (fun text => !isPayerEmail text) then
          some .invalidPayerEmail
        else if TooLong (nonEmpty (name.map (ContentSafety.sanitizePlainText normalize false)))
            ∨ TooLong (nonEmpty (email.map trim)) then
          some .payerInfoTooLong
        else none := by
    rw [VerifyRequests.checkPayerInfo, readText_map, readText_map]
    show (code (if _ then _ else if TooLong _ ∨ TooLong _ then _ else _)).map _ = _
    split
    · rfl
    · split <;> rfl
  have halike : Alike normalize name email ↔ _ ∧ _ := ⟨fun h => ⟨h.address, h.name⟩, fun h => ⟨h.1, h.2⟩⟩
  rw [hpage, hserver, halike]
  cases (nonEmpty (email.map trim)).any (fun text => !isPageEmail text) <;>
    cases (nonEmpty (email.map trim)).any (fun text => !isPayerEmail text)
  · by_cases hlong : TooLong (nonEmpty (email.map trim))
    · simp [hlong]
    · by_cases hname : TooLong (nonEmpty (name.map trim)) <;> simp [hlong, hname]
  · simp
  · simp
  · simp

/-- **TWO PRE-CHECKS**: the page and the server agree on a hash, and on the
    payer as long as both fields are text and what they make of them is alike. -/
theorem prechecks_agree_iff (txHash payerName payerEmail : Option Json) :
    Agree normalize txHash payerName payerEmail
      ↔ ∀ name email : Option String, payerName = name.map .str → payerEmail = email.map .str →
        Alike normalize name email := by
  constructor
  · rintro ⟨-, h⟩ name email rfl rfl
    exact (payer_agrees_iff normalize name email).mp h
  intro h
  refine ⟨hash_agrees txHash, ?_⟩
  rcases text_or_refused payerName with ⟨name, rfl⟩ | hname
  · rcases text_or_refused payerEmail with ⟨email, rfl⟩ | hemail
    · exact (payer_agrees_iff normalize name email).mpr (h name email rfl rfl)
    · rw [checkPayerInfo, VerifyRequests.checkPayerInfo, readText_map, hemail]
      rfl
  · rw [checkPayerInfo, VerifyRequests.checkPayerInfo, hname]
    rfl

theorem quoted_address_disagrees :
    ¬ Agree id none none (some (.str "o'neil@example.com")) := by
  intro h
  have hpayer := h.payer
  revert hpayer
  decide +kernel

end Agreement

end Precheck
