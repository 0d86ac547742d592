import Inqutum.CapabilityRunProofs
import Inqutum.StableCursorProofs

/-!
# Issued tokens and accepted tokens

`issue` bounds the names by their characters, `verify` bounds the token.
An issued token passes until it expires if and only if it is no longer
than the bound (`issued_passes_iff`), which the bytes of the quoted names
and the digits of the times decide (`Fits`).  A token that passes was
issued, up to blanks around it.
-/

namespace Capability

open JsonText
open Canonical (JsValue trim isWhiteSpace)
open StableCursor (coded_toBase64 wellFormed_ascii)
open Transition (Along)
open List InsertionMap Stringify Utf8

/-! ## The length of a token -/

def quotedBytes (text : Text) : Nat := (encode (quote text)).length

/-- The quoted names and the digits of the times leave room for the rest of
    the claims. -/
def Fits (c : Claims) : Prop :=
  quotedBytes c.id + quotedBytes c.target + quotedBytes c.subject
    + (wholeDigits c.iat).length + (wholeDigits c.exp).length ≤ 633

instance (c : Claims) : Decidable (Fits c) := inferInstanceAs (Decidable (_ ≤ _))

theorem length_encode_between {s : String}
    (h : (!s.toList.isEmpty && s.toList.all (fun ch => decide (ch.toNat < 0x80))) = true)
    (text rest : Text) : (encode (text ++ (ascii s ++ rest))).length
      = (encode text).length + s.toList.length + (encode rest).length := by
  have hunit : ∀ ch : Char, ch.toNat < 0x80 → (unit ch).val < 0x80 :=
    fun ch hch => (Nat.mod_le _ _).trans_lt hch
  have hfront : ∀ chars : List Char, (∀ ch ∈ chars, ch.toNat < 0x80) →
      (encode (chars.map unit ++ rest)).length
        = chars.length + (encode rest).length := by
    intro chars hchars
    induction chars with
    | nil => simp
    | cons ch chars ih =>
      obtain ⟨hch, hchars⟩ := forall_mem_cons.mp hchars
      rw [map_cons, cons_append, encode_cons (hunit ch hch), length_cons, ih hchars, length_cons]
      omega
  rw [Bool.and_eq_true, Bool.not_eq_true', isEmpty_eq_false_iff, all_eq_true] at h
  simp only [decide_eq_true_eq] at h
  rw [ascii]
  obtain ⟨ch, chars, hs⟩ := exists_cons_of_ne_nil h.1
  rw [hs] at h ⊢
  obtain ⟨hch, hchars⟩ := forall_mem_cons.mp h.2
  rw [map_cons, cons_append, encode_append (hunit ch hch), length_append,
    length_cons, hfront chars hchars, length_cons]
  omega

section Issued

variable {host : Host} {s s' : Service} {c : Claims}

theorem bytes_number {n : Int} (h : n.natAbs < 2 ^ 53) :
    (encode (numberText n)).length = (wholeDigits n).length := by
  rw [numberText_int h, length_encode_ascii, length_map]
  intro d hd
  obtain ⟨ch, hch, rfl⟩ := mem_map.mp hd
  have hlt := ascii_wholeDigits n ch hch
  exact (Nat.mod_le _ _).trans_lt hlt

/-- **THE BYTES OF THE CLAIMS.** -/
theorem bytes_claims (h : c.Valid) : (encode (stringify c.tree)).length
    = 96 + (quotedBytes c.id + quotedBytes c.target + quotedBytes c.subject
      + (wholeDigits c.iat).length + (wholeDigits c.exp).length) := by
  have htext : stringify c.tree = [] ++ (ascii "\x7b\"typ\":\"qcap\",\"v\":1,\"id\":" ++ (quote c.id
        ++ (ascii ",\"action\":\"config.feature_flag.set\",\"target\":"
        ++ (quote c.target ++ (ascii ",\"subject\":" ++ (quote c.subject
        ++ (ascii ",\"iat\":" ++ (numberText c.iat ++ (ascii ",\"exp\":"
        ++ (numberText c.exp ++ (ascii "\x7d" ++ []))))))))))) := by
    cases c.action
    simp only [Claims.tree, SensitiveAction.name, stringify, writeTree,
      writeMembers, join, braced, writer]
    rw [show quote (ascii "typ") = ascii "\"typ\"" by decide,
      show quote (ascii "qcap") = ascii "\"qcap\"" by decide,
      show quote (ascii "v") = ascii "\"v\"" by decide,
      show quote (ascii "id") = ascii "\"id\"" by decide,
      show quote (ascii "action") = ascii "\"action\"" by decide,
      show quote (ascii "config.feature_flag.set") = ascii "\"config.feature_flag.set\"" by decide,
      show quote (ascii "target") = ascii "\"target\"" by decide,
      show quote (ascii "subject") = ascii "\"subject\"" by decide,
      show quote (ascii "iat") = ascii "\"iat\"" by decide,
      show quote (ascii "exp") = ascii "\"exp\"" by decide,
      show numberText ((1 : Int) : ℚ) = ascii "1" by decide +kernel]
    simp [ascii]
  rw [htext]
  simp (disch := decide) only [length_encode_between]
  rw [bytes_number h.iat_safe, bytes_number h.exp_safe, ← quotedBytes, ← quotedBytes, ← quotedBytes]
  simp only [String.reduceToList, length_cons, length_nil, encode, codePoints, flatMap_nil]
  omega

/-! ## The shape of a token -/

/-- `createHmac('sha256', ...).digest('base64url')` has 43 characters. -/
def Signs (host : Host) : Prop :=
  ∀ s body, isBase64Url (sign host s body) = true ∧ (sign host s body).length = 43

def tokenOf (host : Host) (s : Service) (c : Claims) : Text :=
  c.body ++ unit '.' :: sign host s c.body

theorem base64Url_bounds {part : Text} (h : isBase64Url part = true) :
    ∀ d ∈ part, 45 ≤ d.val ∧ d.val ≤ 122 ∧ d.val ≠ 46 := by
  intro d hd
  have hone := all_eq_true.mp (Bool.and_eq_true_iff.mp h).2 d hd
  simp only [Bool.or_eq_true, Bool.and_eq_true, decide_eq_true_eq, beq_iff_eq, isDigit] at hone
  rcases hone with (((hone | hone) | ⟨hlow, hhigh⟩) | rfl) | rfl
  · omega
  · omega
  · have hlow : 48 ≤ d.val := hlow
    have hhigh : d.val ≤ 57 := hhigh
    omega
  · decide
  · decide

theorem no_dot {part : Text} (h : isBase64Url part = true) : unit '.' ∉ part :=
  fun hmem => (base64Url_bounds h _ hmem).2.2 rfl

theorem not_white {part : Text} (h : isBase64Url part = true) {d : CodeUnit} (hd : d ∈ part) :
    isWhiteSpace d = false := by
  have hbounds := base64Url_bounds h d hd
  simp only [isWhiteSpace, Bool.or_eq_false_iff, decide_eq_false_iff_not, beq_eq_false_iff_ne]
  omega

theorem base64Url_claims (h : c.Valid) : isBase64Url (encodeClaims c) = true := by
  refine (coded_toBase64 (encode_lt _)).isBase64Url (ne_nil_of_length_pos ?_)
  rw [length_map, Cursors.length_toBase64, bytes_claims h]
  omega

theorem length_token (hsign : Signs host) (h : c.Valid) :
    (tokenOf host s c).length ≤ maxTokenLength ↔ Fits c := by
  have hbytes := bytes_claims h
  have hsig := (hsign s c.body).2
  have hlen : (tokenOf host s c).length
      = 52 + ((encode (stringify c.tree)).length * 4 + 2) / 3 := by
    rw [tokenOf, length_append, length_cons, hsig]
    simp only [Claims.body, bodyOf, tokenPrefix, ascii, String.reduceToList, encodeClaims,
      length_append, length_cons, length_nil, length_map,
      Cursors.length_toBase64]
    omega
  rw [hlen, maxTokenLength, Fits]
  omega

/-- **A TOKEN IS READ** as its claims part and its signature, if it is short
    enough. -/
theorem authenticate_token (hsign : Signs host) (h : c.Valid) (hs : s'.secret = s.secret) :
    authenticate host s' (.str (tokenOf host s c)) = if Fits c then .ok (encodeClaims c)
      else .error ⟨.capabilityMalformed, ascii "Capability token is malformed"⟩ := by
  obtain ⟨hsig, -⟩ := hsign s c.body
  have hclaims := base64Url_claims h
  have htrim : trim (tokenOf host s c) = tokenOf host s c := by
    have hne : sign host s c.body ≠ [] :=
      isEmpty_eq_false_iff.mp (Bool.not_eq_true' _ ▸ (Bool.and_eq_true_iff.mp hsig).1)
    obtain ⟨front, last, hlast⟩ := (eq_nil_or_concat' (sign host s c.body)).resolve_left hne
    have hwhite : isWhiteSpace last = false := by
      refine not_white hsig ?_
      rw [hlast]
      exact mem_append_right _ (.head _)
    have hq : tokenOf host s c = unit 'q' :: ((ascii "cap.v1" ++ unit '.' :: (encodeClaims c
        ++ unit '.' :: front)) ++ [last]) := by
      rw [tokenOf, hlast]
      simp [Claims.body, bodyOf, tokenPrefix, ascii]
    rw [hq]
    exact Canonical.trim_enclosed (by decide) hwhite _
  have hsplit : (tokenOf host s c).splitOn (unit '.')
      = [ascii "qcap", ascii "v1", encodeClaims c, sign host s c.body] := by
    have htoken : tokenOf host s c = ascii "qcap" ++ unit '.' :: (ascii "v1" ++ unit '.' ::
        (encodeClaims c ++ unit '.' :: sign host s c.body)) := by
      simp [tokenOf, Claims.body, bodyOf, tokenPrefix, ascii]
    rw [htoken, splitOn_append_cons_self_of_not_mem (by decide),
      splitOn_append_cons_self_of_not_mem (by decide),
      splitOn_append_cons_self_of_not_mem (no_dot hclaims),
      splitOn_eq_singleton (no_dot hsig)]
  have hne : tokenOf host s c ≠ [] := append_ne_nil_of_right_ne_nil _ (cons_ne_nil _ _)
  have hsame : sign host s' (bodyOf (encodeClaims c)) = sign host s c.body := by
    rw [sign, hs]
    rfl
  simp only [authenticate, htrim, if_neg hne, splitToken, hsplit, length_token hsign h]
  by_cases hfits : Fits c
  · rw [if_pos ⟨hfits, by decide, hclaims, hsig⟩, if_pos hfits]
    exact if_pos (congrArg encode hsame)
  · rw [if_neg (fun hall => hfits hall.1), if_neg hfits]

theorem authenticate_ok (hsign : Signs host) {token : JsValue} {part : Text}
    (h : authenticate host s token = .ok part) :
    ∃ text, token = .str text ∧ trim text = bodyOf part ++ unit '.' :: sign host s (bodyOf part) := by
  rw [authenticate.eq_def] at h
  split at h
  · rename_i text
    split at h
    · cases h
    split at h
    · cases h
    rename_i signed signature hsplit
    split at h
    · rename_i hequal
      cases h
      rw [splitToken] at hsplit
      split at hsplit
      · rename_i head version part signature' hfields
        split at hsplit
        · rename_i hshape
          cases hsplit
          obtain ⟨-, hprefix, -, hsig⟩ := hshape
          have hascii : ∀ {t : Text}, isBase64Url t = true → decode (encode t) = t :=
            fun ht => decode_encode (wellFormed_ascii fun d hd => by
              have hbounds := base64Url_bounds ht d hd
              omega)
          have hsame := congrArg decode hequal
          rw [hascii (hsign _ _).1, hascii hsig] at hsame
          refine ⟨text, rfl, ?_⟩
          rw [← @List.intercalate_splitOn _ (trim text) _ _ (unit '.'), hfields, hsame, bodyOf, ← hprefix]
          simp [intercalate]
        · cases hsplit
      · cases hsplit
    · cases h
  · cases h

/-! ## Issued tokens -/

theorem issue_token {input : IssueInput} {reading : Int} {uuid token : Text}
    (h : issue host s input reading uuid = .ok (token, c)) :
    token = tokenOf host s c ∧ actionOf input.action = some c.action
      ∧ c.target = trim input.target ∧ c.iat = reading := by
  rw [issue] at h
  split at h
  · cases h
  rename_i haction
  rw [issueFor] at h
  split at h
  · cases h
  split at h
  · cases h
  split at h
  · cases h
  · obtain ⟨htoken, hc⟩ := Prod.mk.inj (Except.ok.inj h)
    rw [← htoken, ← hc]
    exact ⟨rfl, haction, rfl, rfl⟩

/-- The claims are neither revoked nor cut off. -/
def Unrevoked (s : Service) (c : Claims) : Prop :=
  s.revokedIds.get c.id = none ∧ s.cutOff c = false

theorem verify_token (hsign : Signs host) (h : c.Valid) (hs : s'.secret = s.secret)
    (hfits : Fits c) (hfree : Unrevoked s' c) {now : Int} (hfrom : c.iat ≤ now) (hto : now < c.exp) :
    (verify host s' (.str (tokenOf host s c)) ⟨c.action, c.target⟩ now).2 = .ok c := by
  have hid : (s'.pruneRevocations now).revokedIds.has c.id = false := by
    rw [has_eq_false]
    show (s'.revokedIds.filter _).get c.id = none
    rw [get_filter, hfree.1]
    rfl
  have hcut : (s'.pruneRevocations now).cutOff c = false := by
    have hkept := hfree.2
    rw [Service.cutOff] at hkept ⊢
    show ((s'.revokedSubjects.filter _).get c.subject).any _ = false
    rw [get_filter]
    cases hget : s'.revokedSubjects.get c.subject with
    | none => rfl
    | some r =>
      rw [hget] at hkept
      rw [Option.filter_some]
      split
      · exact hkept
      · rfl
  have hskew : ¬ clockSkewMs < c.iat - now := by
    rw [clockSkewMs]
    omega
  rw [verify, authenticate_token hsign h hs, if_pos hfits]
  simp only [parseClaims_encodeClaims h, checkClaims, if_neg hskew, if_neg hto.not_ge, ne_eq,
    not_true_eq_false, or_self, if_false, checkRevocations, hid, hcut, Bool.false_eq_true]

/-- **ISSUED AND ACCEPTED**: after any calls, an issued token passes for its
    action and target until it expires if and only if its claims fit, and a
    token that passes is one that was issued, with those claims. -/
theorem issued_passes_iff (hsign : Signs host) {options : Options}
    (hcreate : create options = .ok s) (clock : Int) (events : List Event)
    (hrun : Along (step host) (Assumed host) (start s clock) events) :
    let w := events.foldl (step host) (start s clock)
    (∀ input reading uuid token c, issue host w.service input reading uuid = .ok (token, c) →
      |reading| ≤ Canonical.maxTime →
      ((∀ s' now action, s'.secret = w.service.secret → Unrevoked s' c →
        action.name = input.action → reading ≤ now → now < c.exp →
        (verify host s' (.str token) ⟨action, trim input.target⟩ now).2 = .ok c) ↔ Fits c))
    ∧ ∀ token scope now c, Genuine host w token →
      (verify host w.service token scope now).2 = .ok c →
      c ∈ w.issued ∧ ∃ text, token = .str text ∧ trim text = tokenOf host w.service c := by
  intro w
  constructor
  · intro input reading uuid token c hissue hdate
    obtain ⟨-, -, -, hvalid⟩ := issue_ok hissue hdate
    obtain ⟨rfl, haction, htarget, rfl⟩ := issue_token hissue
    rw [← htarget]
    constructor
    · intro h
      have hname : c.action.name = input.action :=
        beq_iff_eq.mp (@List.find?_some _ (fun action : SensitiveAction => action.name == input.action) _ _ haction)
      have hs : Service.secret ⟨w.service.secret, 0, .empty, .empty, .empty⟩ = w.service.secret := rfl
      have hok := h _ c.iat c.action hs ⟨rfl, rfl⟩ hname le_rfl hvalid.lives
      obtain ⟨part, hpart, -⟩ := verify_ok (Prod.ext rfl hok)
      by_contra hfits
      rw [authenticate_token hsign hvalid hs, if_neg hfits] at hpart
      cases hpart
    · intro hfits s' now action hsecret hfree hname hfrom hto
      rw [← hname, actionOf_name] at haction
      rw [Option.some.inj haction]
      exact verify_token hsign hvalid hsecret hfits hfree hfrom hto
  · intro token scope now c hgenuine h
    have hsound := sound_run hcreate clock hrun
    have hissued := hsound.issued_of_verify hgenuine h
    obtain ⟨part, hpart, hparse, -⟩ := verify_ok (Prod.ext rfl h)
    obtain ⟨text, htext, htrim⟩ := authenticate_ok hsign hpart
    refine ⟨hissued, text, htext, ?_⟩
    obtain ⟨c', hc', heq⟩ := mem_map.mp (hgenuine part (by rw [hpart]; rfl))
    have hencode : encodeClaims c' = part := (cons.inj (append_cancel_left heq)).2
    rw [← hencode, parseClaims_encodeClaims (hsound.issuable c' hc').valid] at hparse
    cases hparse
    rw [htrim, ← hencode]
    rfl

end Issued

theorem signs_sample : Signs sampleHost := fun _ _ =>
  (by decide : let text := ascii "DLHQ5kFY7uRxmnUXU-GYkKoYkLtltn-0zfRzxm0So3s"
    isBase64Url text = true ∧ text.length = 43)

theorem issued_passes_sample :
    (verify sampleHost sampleService (.str (tokenOf sampleHost sampleService sampleClaims))
      ⟨.configFeatureFlagSet, trim sampleInput.target⟩ 2000).2 = .ok sampleClaims :=
  ((@issued_passes_iff sampleHost sampleService signs_sample sampleOptions rfl 0 []
    trivial).1 sampleInput 1000 sampleId _ sampleClaims (by decide +kernel) (by decide)).mpr
    (by decide +kernel) sampleService 2000 .configFeatureFlagSet rfl ⟨rfl, rfl⟩ rfl (by decide)
    (by decide)

/-- Names of 128 characters that take three bytes each. -/
def wideInput : IssueInput :=
  ⟨ascii "config.feature_flag.set", replicate 128 0x20AC, replicate 128 0x20AC, none⟩

def wideClaims : Claims :=
  ⟨sampleId, .configFeatureFlagSet, wideInput.target, wideInput.subject, 1000, 301000⟩

/-- A token that `issue` has made is malformed for `verify`. -/
theorem wide_names_refused : issue sampleHost sampleService wideInput 1000 sampleId
      = .ok (tokenOf sampleHost sampleService wideClaims, wideClaims)
    ∧ (verify sampleHost sampleService (.str (tokenOf sampleHost sampleService wideClaims))
      ⟨.configFeatureFlagSet, trim wideInput.target⟩ 1000).2
      = .error ⟨.capabilityMalformed, ascii "Capability token is malformed"⟩ := by
  have hvalid : wideClaims.Valid := by constructor <;> decide
  refine ⟨by decide +kernel, ?_⟩
  rw [verify, authenticate_token signs_sample hvalid rfl, if_neg (by decide +kernel)]

end Capability
