import Inqutum.CanonicalFormProofs
import Inqutum.WebhookReplayProofs

/-!
# Webhook signatures and canonical texts

`signWebhookPayload` signs the canonical text of a JSON value.  A receiver
checks a signature against the text it got, and then against the canonical
text of what that text says.

So every text of the value is accepted, in any member order.  Whatever is
accepted says the signed value, up to member order and to NFC: the
canonical text does not tell texts with one NFC form apart
(`signatures_agree`, `other_spelling_accepted`).

The digest is a parameter.  That it has no collision is assumed of the
messages a check compares.
-/

namespace Webhook

open JsonText
open Canonical (JsValue CleanText Normalized NumberIn Unsigned canonicalForm normalizeTree)
open Utf8 (wellFormed)
open List Stringify Utf8 Canonical Canonical

/-! ## JSON values -/

/-- A number of a JSON value: one that a number token denotes. -/
def IsNumber (q : ℚ) : Prop :=
  Denoted numberOf (.finite q) ∧ |q| < 2 ^ 1024

/-- A JSON value that is not a string. -/
structure Payload where
  tree : Tree
  distinct : Distinct tree
  numbers : Every (NumberIn IsNumber) tree
  notText : ∀ text, tree ≠ .str text

theorem itemsInRange_eq (items : List Tree) : itemsInRange items = items.all inRange := by
  induction items with
  | nil => rfl
  | cons x rest ih => rw [itemsInRange, ih, all_cons]

theorem membersInRange_eq (members : List (Text × Tree)) :
    membersInRange members = members.all (fun m => inRange m.2) := by
  induction members with
  | nil => rfl
  | cons m rest ih =>
    obtain ⟨key, x⟩ := m
    rw [membersInRange, ih, all_cons]

theorem inRange_same {t u : Tree} (h : Same t u) : inRange t = inRange u := by
  induction h with
  | refl t => rfl
  | symm _ ih => exact ih.symm
  | trans _ _ ih ih' => exact ih.trans ih'
  | zero =>
    have hzero : |(0 : ℚ)| < 2 ^ 1024 := by
      rw [abs_zero]
      exact pow_pos two_pos 1024
    exact (decide_eq_true hzero).symm
  | item front rest _ ih =>
    rw [inRange, inRange, itemsInRange_eq, itemsInRange_eq, all_append,
      all_append, all_cons, all_cons, ih]
  | member front rest key _ ih =>
    rw [inRange, inRange, membersInRange_eq, membersInRange_eq,
      all_append, all_append, all_cons, all_cons, ih]
  | order hperm => rw [inRange, inRange, membersInRange_eq, membersInRange_eq, hperm.all_eq]

theorem inRange_iff {t : Tree} : inRange t = true
    ↔ Every (NumberIn (fun q => |q| < 2 ^ 1024)) t := by
  induction t using tree_induct with
  | hnull => exact iff_of_true rfl nofun
  | hbool b => exact iff_of_true rfl nofun
  | hnum x =>
    cases x with
    | negZero => exact iff_of_true rfl nofun
    | finite q =>
      refine decide_eq_true_iff.trans ⟨fun h r hr => ?_, fun h => h q rfl⟩
      obtain rfl := Number.finite.inj (Tree.num.inj hr)
      exact h
  | hstr s => exact iff_of_true rfl nofun
  | harr items ih =>
    rw [inRange, itemsInRange_eq, all_eq_true, every_arr]
    exact (forall₂_congr ih).trans (and_iff_right nofun).symm
  | hobj members ih =>
    rw [inRange, membersInRange_eq, all_eq_true, every_obj]
    exact (forall₂_congr ih).trans (and_iff_right nofun).symm

theorem Payload.inRange (p : Payload) : inRange p.tree = true :=
  inRange_iff.mpr (p.numbers.imp fun _ hu q hq => (hu q hq).2)

theorem numbers_parse {s : Text} {v : Tree} (h : parse s = some v)
    (hrange : inRange v = true) : Every (NumberIn IsNumber) v := by
  refine (every_and (parse_parts h) (inRange_iff.mp hrange)).imp ?_
  intro u hu q hq
  exact ⟨hu.1.number _ hq, hu.2 q hq⟩

/-! ## What is compared -/

/-- What is documented of the engine: its numbers are read back, NFC does
    nothing twice and makes no lone surrogates. -/
structure Host.Standard (host : Host) : Prop where
  engine : host.engine.Standard numberOf IsNumber
  normalize_idem : ∀ text, host.engine.normalize (host.engine.normalize text)
      = host.engine.normalize text
  normalize_clean : ∀ text, wellFormed text = true → wellFormed (host.engine.normalize text) = true

section Signing

variable (host : Host)

def signWebhookPayload (payload : JsValue) (secret timestamp : Text) :
    Except Thrown Text :=
  let body : Except Thrown Text := match payload with
    | .str text => .ok text
    | payload => canonicalize host.engine payload
  body.map (expectedSignature host secret timestamp)

/-- The bytes a signature is taken over. -/
def message (timestamp body : Text) : List Nat :=
  encode (timestamp ++ unit '.' :: body)

/-- The canonical text of a JSON value. -/
def canonicalText (t : Tree) : Text :=
  writeTree (writer host.engine) (canonicalForm host.engine t)

/-- The two bodies have one signature. -/
def OneMac (secret timestamp body body' : Text) : Prop :=
  host.hmacSha256 secret (message timestamp body) = host.hmacSha256 secret (message timestamp body')

instance (secret timestamp body body' : Text) :
    Decidable (OneMac host secret timestamp body body') :=
  inferInstanceAs (Decidable (_ = _))

end Signing

section Signatures

variable {host : Host} {secret timestamp : Text}

theorem digitChar_lt {n : Nat} (h : n < 16) : (Nat.digitChar n).toNat < 128 := by
  have hall : ∀ m : Fin 16, (Nat.digitChar m).toNat < 128 := by decide
  exact hall ⟨n, h⟩

theorem unit_digitChar_inj {m n : Nat} (hm : m < 16) (hn : n < 16)
    (h : unit (Nat.digitChar m) = unit (Nat.digitChar n)) : m = n := by
  have hall : ∀ m n : Fin 16, unit (Nat.digitChar m) = unit (Nat.digitChar n) → m = n := by decide
  exact congrArg Fin.val (hall ⟨m, hm⟩ ⟨n, hn⟩ h)

theorem hexBytes_inj {bs bs' : List (Fin 256)}
    (h : hexBytes bs = hexBytes bs') : bs = bs' := by
  induction bs generalizing bs' with
  | nil =>
    cases bs' with
    | nil => rfl
    | cons b' rest' => cases h
  | cons b rest ih =>
    cases bs' with
    | nil => cases h
    | cons b' rest' =>
      obtain ⟨hhigh, htail⟩ := cons.inj h
      obtain ⟨hlow, hrest⟩ := cons.inj htail
      have hb := b.isLt
      have hb' := b'.isLt
      have hdiv := unit_digitChar_inj (by omega) (by omega) hhigh
      have hmod := unit_digitChar_inj (by omega) (by omega) hlow
      have hbyte : b = b' := by
        refine Fin.ext ?_
        omega
      rw [hbyte, ih hrest]

theorem length_hexBytes (bs : List (Fin 256)) : (hexBytes bs).length = 2 * bs.length := by
  induction bs with
  | nil => rfl
  | cons b rest ih =>
    show (hexBytes rest).length + 2 = _
    rw [ih, length_cons]
    omega

theorem ascii_hexBytes (bs : List (Fin 256)) : ∀ c ∈ hexBytes bs, c.val < 128 := by
  have hval : ∀ n, n < 16 → (unit (Nat.digitChar n)).val < 128 := by
    intro n hn
    have hdigit := digitChar_lt hn
    show (Nat.digitChar n).toNat % 65536 < 128
    omega
  induction bs with
  | nil => exact nofun
  | cons b rest ih =>
    have hlt := b.isLt
    exact forall_mem_cons.mpr ⟨hval _ (by omega),
      forall_mem_cons.mpr ⟨hval _ (by omega), ih⟩⟩

theorem length_expectedSignature (body : Text) :
    (expectedSignature host secret timestamp body).length = 71 := by
  rw [expectedSignature, length_append, length_hexBytes, Vector.length_toList]
  rfl

theorem expectedSignature_inj {body body' : Text} : expectedSignature host secret timestamp body
        = expectedSignature host secret timestamp body'
      ↔ OneMac host secret timestamp body body' := by
  constructor
  · intro h
    exact Vector.toList_inj.mp (hexBytes_inj (append_cancel_left h))
  intro h
  rw [OneMac, message, message] at h
  rw [expectedSignature, expectedSignature, h]

theorem ascii_expectedSignature (body : Text) :
    ∀ c ∈ expectedSignature host secret timestamp body, c.val < 128 := by
  intro c hc
  rcases mem_append.mp hc with hc | hc
  · have hall : (ascii "sha256=").all (fun c => decide (c.val < 128)) = true := by decide
    exact of_decide_eq_true (all_eq_true.mp hall c hc)
  · exact ascii_hexBytes _ c hc

theorem timingSafeEqual_expected (body body' : Text) :
    timingSafeEqual (expectedSignature host secret timestamp body)
        (expectedSignature host secret timestamp body')
      = some (decide (OneMac host secret timestamp body body')) := by
  set a := expectedSignature host secret timestamp body with ha
  set b := expectedSignature host secret timestamp body' with hb
  have hclean : ∀ body, wellFormed (expectedSignature host secret timestamp body) = true := by
    intro body
    refine wellFormed_of_plain fun c hc => isSurrogate_of_lt ?_
    exact lt_trans (ascii_expectedSignature body c hc) (by decide)
  have hlen : (encode a).length = (encode b).length := by
    rw [length_encode_ascii (ascii_expectedSignature body),
      length_encode_ascii (ascii_expectedSignature body'),
      length_expectedSignature, length_expectedSignature]
  rw [timingSafeEqual, if_pos hlen]
  refine congrArg some (decide_eq_decide.mpr ⟨fun h => expectedSignature_inj.mp ?_,
      fun h => congrArg encode (expectedSignature_inj.mpr h)⟩)
  have hback := congrArg decode h
  rw [decode_encode (hclean body), decode_encode (hclean body')] at hback
  exact hback

theorem verify_iff (s body : Text) : verifyWebhookSignature host (.str s)
        (expectedSignature host secret timestamp body) secret timestamp = .ok true
    ↔ OneMac host secret timestamp s body ∨ ∃ canonical, canonicalBody host s = some canonical
        ∧ OneMac host secret timestamp canonical body := by
  have hlen : ∀ body', (expectedSignature host secret timestamp body').length
      = (expectedSignature host secret timestamp body).length := by
    intro body'
    rw [length_expectedSignature, length_expectedSignature]
  have hmatches : canonicalMatches host s
        (expectedSignature host secret timestamp body) secret timestamp = true
      ↔ ∃ canonical, canonicalBody host s = some canonical ∧ canonical ≠ s
        ∧ OneMac host secret timestamp canonical body := by
    rw [canonicalMatches]
    cases canonicalBody host s with
    | none => simp
    | some canonical =>
      by_cases hsame : canonical = s
      · simp [hsame]
      · simp [hsame, hlen, timingSafeEqual_expected]
  have hverify : verifyWebhookSignature host (.str s)
        (expectedSignature host secret timestamp body) secret timestamp
      = .ok (decide (OneMac host secret timestamp s body)
        || canonicalMatches host s
          (expectedSignature host secret timestamp body) secret timestamp) := by
    rw [verifyWebhookSignature, payloadText]
    simp only [Except.map, ne_eq, hlen, not_true_eq_false, if_false, timingSafeEqual_expected]
    by_cases hmac : OneMac host secret timestamp s body
    · simp [hmac]
    · simp [hmac]
  rw [hverify, Except.ok.injEq, Bool.or_eq_true, decide_eq_true_eq, hmatches]
  constructor
  · rintro (hmac | ⟨canonical, hbody, -, hmac⟩)
    · exact .inl hmac
    · exact .inr ⟨canonical, hbody, hmac⟩
  rintro (hmac | ⟨canonical, hbody, hmac⟩)
  · exact .inl hmac
  by_cases hsame : canonical = s
  · rw [hsame] at hmac
    exact .inl hmac
  · exact .inr ⟨canonical, hbody, hsame, hmac⟩

end Signatures

/-! ## Agreement -/

section Agreement

variable {host : Host} {secret timestamp : Text}

theorem sign_eq (hstd : host.Standard) (p : Payload) :
    signWebhookPayload host (toValue p.tree) secret timestamp
      = .ok (expectedSignature host secret timestamp (canonicalText host p.tree)) := by
  have hcanonical := canonicalize_eq hstd.engine.zeroText p.tree
  have hbody : (match toValue p.tree with
      | .str text => (.ok text : Except Thrown Text)
      | payload => canonicalize host.engine payload)
      = .ok (canonicalText host p.tree) := by
    rw [canonicalText, ← hcanonical]
    cases htree : p.tree with
    | str text => exact absurd htree (p.notText text)
    | num x => cases x <;> rfl
    | null => rfl
    | bool b => rfl
    | arr items => rfl
    | obj members => rfl
  exact congrArg (Except.map (expectedSignature host secret timestamp)) hbody

variable {s : Text} {v : Tree}

theorem canonicalBody_eq (hstd : host.Standard) (h : parse s = some v) (hrange : inRange v = true) :
    canonicalBody host s = some (canonicalText host v) := by
  rw [canonicalBody, h, Option.bind_some, if_pos hrange,
    canonicalize_eq hstd.engine.zeroText]
  rfl

/-- **COMPLETENESS**: every text of a value equal up to member order is
    accepted under the value's signature. -/
theorem accepts_same (hstd : host.Standard) (p : Payload)
    (h : parse s = some v) (hsame : Same v p.tree) : verifyWebhookSignature host (.str s)
        (expectedSignature host secret timestamp (canonicalText host p.tree))
        secret timestamp = .ok true := by
  have hrange : inRange v = true := (inRange_same hsame).trans p.inRange
  refine (verify_iff s _).mpr (.inr ⟨_, canonicalBody_eq hstd h hrange, ?_⟩)
  have hform := canonicalForm_of_same (e := host.engine) hsame.symm p.distinct
  rw [OneMac, canonicalText, canonicalText, hform]

theorem message_inj {body body' : Text} (h : wellFormed body = true) (h' : wellFormed body' = true)
    (heq : message timestamp body = message timestamp body') : body = body' := by
  have hdot : (unit '.').val < 0x80 := by decide
  rw [message, message, encode_append hdot, encode_append hdot] at heq
  have hbytes := (cons.inj (append_cancel_left heq)).2
  have hback := congrArg decode hbytes
  rwa [decode_encode h, decode_encode h'] at hback

/-- The messages a check of `s` under the signature of `q` compares. -/
def compared (host : Host) (timestamp s : Text) (v q : Tree) :
    Set (List Nat) :=
  {m | ∃ body ∈ [s, canonicalText host v, canonicalText host q], m = message timestamp body}

/-- No two of the messages have one digest. -/
def NoCollision (host : Host) (secret timestamp s : Text) (v q : Tree) : Prop :=
  Set.InjOn (host.hmacSha256 secret) (compared host timestamp s v q)

/-- The names of each object stay distinct in NFC. -/
def NamesApart (host : Host) (t : Tree) : Prop :=
  Distinct (normalizeTree host.engine t)

theorem parse_canonicalText (hstd : host.Standard) (q : Payload) (hnames : NamesApart host q.tree) :
    parse (canonicalText host q.tree) = some (canonicalForm host.engine q.tree) :=
  parse_writeTree (writer_readBy hstd.engine)
    (readable_canonicalForm hstd.engine.zero hnames q.numbers)

/-- **SOUNDNESS**: a text that is accepted under the signature of a value says
    that value, up to member order and NFC. -/
theorem same_of_accepted (hstd : host.Standard) (q : Payload) (h : parse s = some v)
    (hnames : NamesApart host q.tree) (hs : wellFormed s = true)
    (hv : Every CleanText v) (hq : Every CleanText q.tree)
    (hmac : NoCollision host secret timestamp s v q.tree)
    (haccepted : verifyWebhookSignature host (.str s)
        (expectedSignature host secret timestamp (canonicalText host q.tree))
        secret timestamp = .ok true) :
    Same (normalizeTree host.engine v) (normalizeTree host.engine q.tree) := by
  have hclean : ∀ t, Every (NumberIn IsNumber) t → Every CleanText t →
      wellFormed (canonicalText host t) = true :=
    fun t => wellFormed_canonicalText hstd.engine hstd.normalize_clean
  have hmem : ∀ body ∈ [s, canonicalText host v, canonicalText host q.tree],
      message timestamp body ∈ compared host timestamp s v q.tree :=
    fun body hbody => ⟨body, hbody, rfl⟩
  rcases (verify_iff s _).mp haccepted with hone | ⟨canonical, hbody, hone⟩
  · -- the text is the canonical text itself
    have htext := message_inj hs (hclean _ q.numbers hq)
      (hmac (hmem _ (by simp)) (hmem _ (by simp)) hone)
    rw [htext, parse_canonicalText hstd q hnames] at h
    cases h
    rw [canonicalForm_eq, normalizeTree_idem hstd.normalize_idem]
    exact same_normalizeTree (same_sortKeys q.tree).symm
  · have hrange : inRange v = true := by
      by_contra hnot
      rw [canonicalBody, h, Option.bind_some, if_neg hnot] at hbody
      cases hbody
    rw [canonicalBody_eq hstd h hrange] at hbody
    cases hbody
    have hnum := numbers_parse h hrange
    have htext := message_inj (hclean _ hnum hv) (hclean _ q.numbers hq)
      (hmac (hmem _ (by simp)) (hmem _ (by simp)) hone)
    exact same_of_canonicalForm (writeTree_inj (writer_readBy hstd.engine)
      (numbersOk_canonicalForm hstd.engine.zero hnum)
      (numbersOk_canonicalForm hstd.engine.zero q.numbers) htext)

/-- **SIGNING AND VERIFICATION AGREE**, up to NFC: a signature is accepted
    with every text of the value, and with no text of another one; in NFC that
    is the value itself, up to member order. -/
theorem signatures_agree (hstd : host.Standard) (secret timestamp : Text)
    (p : Payload) {s : Text} {v : Tree} (h : parse s = some v) :
    ∃ signature, signWebhookPayload host (toValue p.tree) secret timestamp = .ok signature
      ∧ (Same v p.tree → verifyWebhookSignature host (.str s) signature secret timestamp = .ok true)
      ∧ (NamesApart host p.tree → wellFormed s = true → Every CleanText v →
        Every CleanText p.tree → NoCollision host secret timestamp s v p.tree →
        verifyWebhookSignature host (.str s) signature secret timestamp = .ok true →
        Same (normalizeTree host.engine v) (normalizeTree host.engine p.tree)
          ∧ (Every (Normalized host.engine) v →
            Every (Normalized host.engine) p.tree → Same v p.tree)) := by
  refine ⟨_, sign_eq hstd p, accepts_same hstd p h, ?_⟩
  intro hnames hs hv hp hmac haccepted
  have hsame := same_of_accepted hstd p h hnames hs hv hp hmac haccepted
  refine ⟨hsame, fun hnv hnp => ?_⟩
  rwa [normalizeTree_of_normalized hnv,
    normalizeTree_of_normalized hnp] at hsame

end Agreement

/-! ## Another spelling -/

/-- A token of the number. -/
noncomputable def tokenOf (q : ℚ) : Text :=
  open Classical in
  if q = 0 then ascii "0"
  else if h : Denoted numberOf (.finite q) then h.choose else []

/-- NFC on texts in which only the Kelvin sign has another form, and digests
    that tell messages of different lengths apart. -/
noncomputable def kelvinHost : Host where
  engine :=
    { normalize := map (fun c => if c = 0x212A then 0x4B else c)
      numberText := tokenOf }
  hmacSha256 := fun _ bytes => Vector.replicate 32 (Fin.ofNat 256 bytes.length)

theorem isNumber_zero : IsNumber 0 := by
  refine ⟨⟨ascii "0", by decide, by decide +kernel⟩, ?_⟩
  rw [abs_zero]
  exact pow_pos two_pos 1024

theorem tokenOf_spec {q : ℚ} (h : IsNumber q) : isJsonNumber (tokenOf q) = true
      ∧ numberOf (tokenOf q) = some (.finite q) := by
  rw [tokenOf]
  split_ifs with hzero hdenoted
  · rw [hzero]
    exact ⟨by decide, by decide +kernel⟩
  · exact hdenoted.choose_spec
  · exact absurd h.1 hdenoted

theorem standard_kelvinHost : kelvinHost.Standard where
  engine :=
    { zero := isNumber_zero
      zeroText := by
        show tokenOf 0 = _
        rw [tokenOf, if_pos rfl]
      isNumber := fun _ hq => (tokenOf_spec hq).1
      reads := fun _ hq => (tokenOf_spec hq).2 }
  normalize_idem text := by
    show (text.map _).map _ = text.map _
    rw [map_map]
    refine map_congr_left fun c _ => ?_
    show (if (if c = 0x212A then 0x4B else c) = 0x212A then _ else _) = _
    by_cases hc : c = 0x212A
    · rw [if_pos hc]
      rfl
    · rw [if_neg hc, if_neg hc]
  normalize_clean text h := by
    have hkeep : ∀ c : JsonText.CodeUnit, isHigh (if c = 0x212A then 0x4B else c) = isHigh c
        ∧ isLow (if c = 0x212A then 0x4B else c) = isLow c := by
      intro c
      split_ifs with hc
      · rw [hc]
        exact ⟨by decide, by decide⟩
      · exact ⟨rfl, rfl⟩
    show wellFormed (text.map _) = true
    fun_induction wellFormed text with
    | case1 => rfl
    | case2 c =>
      rw [map_singleton, wellFormed, isSurrogate, (hkeep c).1, (hkeep c).2]
      exact h
    | case3 c d rest hpair ih =>
      rw [map_cons, map_cons, wellFormed, (hkeep c).1, (hkeep d).2, if_pos hpair]
      exact ih h
    | case4 c d rest hpair ih =>
      rw [Bool.and_eq_true] at h
      rw [map_cons, map_cons, wellFormed, (hkeep c).1, (hkeep d).2,
        if_neg hpair, Bool.and_eq_true, isSurrogate, (hkeep c).1,
        (hkeep c).2]
      exact ⟨h.1, ih h.2⟩

/-- `{"a":true,"b":null}`. -/
def sortedPayload : Payload where
  tree := .obj [(ascii "a", .bool true), (ascii "b", .null)]
  distinct := ⟨by decide, nodup_nil, nodup_nil, trivial⟩
  numbers := ⟨fun q h => (nomatch h), fun q h => (nomatch h), fun q h => (nomatch h), trivial⟩
  notText := nofun

/-- `{"b":null,"a":true}`. -/
def swappedTree : Tree := .obj [(ascii "b", .null), (ascii "a", .bool true)]

/-- The same members the other way round are accepted. -/
theorem signatures_agree_swapped : ∃ signature,
    signWebhookPayload kelvinHost (toValue sortedPayload.tree)
        (ascii "secret") (ascii "0") = .ok signature
      ∧ verifyWebhookSignature kelvinHost
        (.str (stringify swappedTree)) signature (ascii "secret")
        (ascii "0") = .ok true := by
  have hparse : parse (stringify swappedTree) = some swappedTree :=
    parse_writeTree writer_readBy ⟨⟨by decide, fun x h => (nomatch h)⟩,
        ⟨nodup_nil, fun x h => (nomatch h)⟩,
        ⟨nodup_nil, fun x h => (nomatch h)⟩, trivial⟩
  obtain ⟨signature, hsign, haccepts, -⟩ := signatures_agree
    standard_kelvinHost (ascii "secret") (ascii "0") sortedPayload hparse
  exact ⟨signature, hsign, haccepts (.order (Perm.swap _ _ _))⟩

/-- Of the values admitted, a text that is accepted under the signature of one
    says that value, up to member order. -/
def AcceptsOnly (admits : Host → Tree → Prop) : Prop :=
  ∀ (host : Host) (secret timestamp s signature : Text) (v : Tree)
    (q : Payload), host.Standard → parse s = some v →
    admits host v → admits host q.tree →
    NoCollision host secret timestamp s v q.tree →
    signWebhookPayload host (toValue q.tree) secret timestamp = .ok signature →
    verifyWebhookSignature host (.str s) signature secret timestamp = .ok true →
    Same v q.tree

/-- `[text]`. -/
def singlePayload (text : Text) : Payload where
  tree := .arr [.str text]
  distinct := ⟨nodup_nil, nodup_nil, trivial⟩
  numbers := ⟨fun _ h => (nomatch h), fun _ h => (nomatch h), trivial⟩
  notText := nofun

theorem text_of_same {a b : Text} (h : Same (.arr [.str a]) (.arr [.str b])) : a = b := by
  have hsorted := (sortKeys_eq_of_same h).2 ⟨nodup_nil, nodup_nil, trivial⟩
  exact Tree.str.inj (cons.inj (Tree.arr.inj hsorted)).1

/-- The signature of `["K"]` is accepted with the Kelvin sign for the letter;
    and that of a lone surrogate, which is in NFC, with the replacement
    character that stands for it in UTF-8. -/
theorem other_spelling_accepted : ¬ AcceptsOnly (fun _ _ => True)
      ∧ ¬ AcceptsOnly (fun host t => Every (Normalized host.engine) t) := by
  constructor
  · intro hclaim
    set s : Text := [unit '[', unit '"', 0x212A, unit '"', unit ']'] with hs
    have hparse : parse s = some (singlePayload [0x212A]).tree := rfl
    have hletter : canonicalText kelvinHost (singlePayload (ascii "K")).tree
        = ascii "[\"K\"]" := rfl
    have hkelvin : canonicalText kelvinHost (singlePayload [0x212A]).tree = ascii "[\"K\"]" := rfl
    have hmac : NoCollision kelvinHost [] [] s (singlePayload [0x212A]).tree
        (singlePayload (ascii "K")).tree := by
      have hapart : kelvinHost.hmacSha256 [] (message [] s)
          ≠ kelvinHost.hmacSha256 [] (message [] (ascii "[\"K\"]")) := by
        show Vector.replicate 32 (Fin.ofNat 256 _) ≠ Vector.replicate 32 _
        decide +kernel
      rintro m ⟨body, hbody, rfl⟩ m' ⟨body', hbody', rfl⟩ heq
      rw [hletter, hkelvin] at hbody hbody'
      simp only [mem_cons, not_mem_nil, or_false, or_self] at hbody hbody'
      rcases hbody with rfl | rfl
      · rcases hbody' with rfl | rfl
        · rfl
        · exact absurd heq hapart
      rcases hbody' with rfl | rfl
      · exact absurd heq.symm hapart
      · rfl
    have hsame := hclaim kelvinHost [] [] s _ _ (singlePayload (ascii "K"))
      standard_kelvinHost hparse trivial trivial hmac
      (sign_eq standard_kelvinHost _) ((verify_iff s _).mpr (.inr ⟨_,
        canonicalBody_eq standard_kelvinHost hparse rfl,
        by rw [OneMac, hletter, hkelvin]⟩))
    exact absurd (text_of_same hsame) (by decide)
  · intro hclaim
    set s : Text := [unit '[', unit '"', 0xFFFD, unit '"', unit ']'] with hs
    have hparse : parse s = some (singlePayload [0xFFFD]).tree := rfl
    have hbytes : ∀ body ∈ [s, canonicalText kelvinHost
        (singlePayload [0xFFFD]).tree, canonicalText kelvinHost (singlePayload [0xD800]).tree],
        message [] body = message [] s := by
      intro body hbody
      simp only [mem_cons, not_mem_nil, or_false] at hbody
      rcases hbody with rfl | rfl | rfl
      · rfl
      · rfl
      · rfl
    have hnormal : ∀ c : CodeUnit, c ≠ 0x212A →
        Every (Normalized kelvinHost.engine) (singlePayload [c]).tree := by
      intro c hc
      refine ⟨⟨fun s h => (nomatch h), fun key h => (nomatch h)⟩,
        ⟨fun s h => ?_, fun key h => (nomatch h)⟩, trivial⟩
      obtain rfl := Tree.str.inj h
      show [if c = 0x212A then 0x4B else c] = [c]
      rw [if_neg hc]
    have hsame := hclaim kelvinHost [] [] s _ _ (singlePayload [0xD800])
      standard_kelvinHost hparse (hnormal _ (by decide)) (hnormal _ (by decide))
      (by
        rintro m ⟨body, hbody, rfl⟩ m' ⟨body', hbody', rfl⟩ -
        rw [hbytes body hbody, hbytes body' hbody'])
      (sign_eq standard_kelvinHost _) ((verify_iff s _).mpr (Or.inl
        (congrArg (kelvinHost.hmacSha256 []) (hbytes _ (by simp)).symm)))
    exact absurd (text_of_same hsame) (by decide)

end Webhook
