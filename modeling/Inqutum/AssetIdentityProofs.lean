import Inqutum.JsTextProofs

/-!
# Asset identities

A Stellar asset is the pair of its code and its issuer; only the native
asset has no issuer.  A payment is native if the ledger says so, an invoice
if it names `XLM` and no issuer.  An asset without an issuer that is not
native matches nothing.
-/

namespace Assets

/-- `NATIVE_ASSET_CODE`. -/
def nativeAssetCode : String := "XLM"

inductive AssetIdentity where
  | native
  | credit (code issuer : String)
  | unpinned (code : String)

/-- `(value ?? '').trim()`. -/
def trimmed (value : Option String) : String := JsText.trim (value.getD "")

def resolvePaymentAsset (assetType assetCode assetIssuer : Option String) :
    AssetIdentity :=
  if assetType = some "native" then .native
  else
    let code := trimmed assetCode
    let issuer := trimmed assetIssuer
    if issuer = "" then .unpinned code else .credit code issuer

def resolveInvoiceAsset (assetCode assetIssuer : Option String) :
    AssetIdentity :=
  let code := trimmed assetCode
  let issuer := trimmed assetIssuer
  if code = nativeAssetCode ∧ issuer = "" then .native
  else if issuer = "" then .unpinned code
  else .credit code issuer

def assetsMatch (invoice payment : AssetIdentity) : Bool :=
  match invoice, payment with
  | .unpinned _, _ => false
  | _, .unpinned _ => false
  | .native, .native => true
  | .native, .credit _ _ => false
  | .credit _ _, .native => false
  | .credit code issuer, .credit code' issuer' => decide (code = code') && decide (issuer = issuer')

/-- **ONE ASSET**: an invoice and a payment match exactly when the invoice
    names `XLM` without an issuer and the payment is native, or both name one
    code and one issuer and the payment is not native. -/
theorem assetsMatch_iff (code issuer assetType assetCode assetIssuer : Option String) :
    assetsMatch (resolveInvoiceAsset code issuer)
        (resolvePaymentAsset assetType assetCode assetIssuer) = true ↔
      (trimmed code = "XLM" ∧ trimmed issuer = "" ∧ assetType = some "native") ∨
      (assetType ≠ some "native" ∧ trimmed issuer ≠ "" ∧ trimmed code = trimmed assetCode
        ∧ trimmed issuer = trimmed assetIssuer) := by
  rw [resolveInvoiceAsset, resolvePaymentAsset, nativeAssetCode]
  by_cases hissuer : trimmed issuer = ""
  · by_cases hcode : trimmed code = "XLM"
    · by_cases htype : assetType = some "native"
      · simp [hissuer, hcode, htype, assetsMatch]
      by_cases hpaid : trimmed assetIssuer = "" <;>
        simp [hissuer, hcode, htype, hpaid, assetsMatch]
    · simp [hissuer, hcode, assetsMatch]
  · by_cases htype : assetType = some "native"
    · simp [hissuer, htype, assetsMatch]
    by_cases hpaid : trimmed assetIssuer = ""
    · simp [hissuer, htype, hpaid, assetsMatch]
    · simp [hissuer, htype, hpaid, assetsMatch]

end Assets
