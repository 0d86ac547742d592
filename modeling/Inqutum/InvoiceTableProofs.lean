import Inqutum.InvoiceProofs
import Inqutum.TableProofs

/-!
# The invoices table

The rows of the `invoices` table with its primary key and its three unique
indexes (memo, and the non-null transaction hashes and external ids).  The
constraints are fields of the table, so a table that violates one cannot
be built; a statement that would is refused and changes nothing.

Timestamps are microseconds since the epoch, as the database keeps them;
the driver hands them out truncated to milliseconds.  A `UUID` is the text
that the database writes for it, text columns hold any text here and
numbers any size: that ids are so spelled and values fit their columns is
a term of the results about both backends.
-/

namespace Invoices

open List Option

/-- A row, column by column. -/
structure InvoiceRow where
  id : String
  sellerPublicKey : String
  sellerName : Option String := none
  sellerEmail : Option String := none
  amount : ℚ
  assetCode : String := "XLM"
  assetIssuer : Option String := none
  memo : String
  description : Option String := none
  customerName : Option String := none
  customerEmail : Option String := none
  status : InvoiceStatus := .pending
  paymentTxHash : Option String := none
  payerPublicKey : Option String := none
  payerName : Option String := none
  payerEmail : Option String := none
  createdAt : Int
  paidAt : Option Int := none
  expiresAt : Int
  metadata : Option Json := none
  version : Int := 1
  externalId : Option String := none

/-- The unique constraints, under the names the schema gives them. -/
inductive Constraint where
  | pkey
  | memo
  | paymentTxHash
  | externalId

def Constraint.name : Constraint → String
  | .pkey => "invoices_pkey"
  | .memo => "invoices_memo_key"
  | .paymentTxHash => "idx_invoices_payment_tx_hash"
  | .externalId => "idx_invoices_external_id"

/-- What a statement can be refused for. -/
inductive DbError where
  | uniqueViolation (constraint : Constraint)
  | notAnInteger (text : String)
  | integerOutOfRange (text : String)

def DbError.message : DbError → String
  | .uniqueViolation c => "duplicate key value violates unique constraint \"" ++ c.name ++ "\""
  | .notAnInteger text => "invalid input syntax for type integer: \"" ++ text ++ "\""
  | .integerOutOfRange text => "value \"" ++ text ++ "\" is out of range for type integer"

/-! ## Column types -/

/-- A `TIMESTAMPTZ` parameter given as a script date. -/
def timestampParam (ms : Int) : Int := ms * 1000

/-- The script date the driver builds from a timestamp. -/
def dateOf (micros : Int) : Int := micros / 1000

/-- Assignment to a `DECIMAL(20, 7)` column: seven decimals, half away from
    zero. -/
def decimal7 (q : ℚ) : ℚ :=
  let scaled := |q| * 10 ^ 7
  let magnitude : ℚ := (⌊scaled + 1 / 2⌋ : ℚ) / 10 ^ 7
  if q < 0 then -magnitude else magnitude

/-- `parseFloat` of a decimal column: the nearest double. -/
def parseDecimal (q : ℚ) : ℚ :=
  match JsNumber.binary64 q with
  | .finite d => d
  | _ => q

/-- A script number as an `INTEGER` parameter: its text is read as one. -/
def integerParam (value : JsNumber) : Except DbError Int :=
  match value with
  | .finite q =>
    if q.den = 1 ∧ |q| < 10 ^ 21 then
      if -2 ^ 31 ≤ q.num ∧ q.num < 2 ^ 31 then .ok q.num
      else .error (.integerOutOfRange value.toText)
    else .error (.notAnInteger value.toText)
  | _ => .error (.notAnInteger value.toText)

/-- The table with its constraints. -/
structure InvoiceTable where
  rows : List InvoiceRow
  ids : (rows.map InvoiceRow.id).Nodup
  memos : Table.UniqueOn InvoiceRow.id (fun r => some r.memo) rows
  txHashes : Table.UniqueOn InvoiceRow.id InvoiceRow.paymentTxHash rows
  externalIds : Table.UniqueOn InvoiceRow.id InvoiceRow.externalId rows

namespace InvoiceTable

def empty : InvoiceTable where
  rows := []
  ids := nodup_nil
  memos := fun _ hr => nomatch hr
  txHashes := fun _ hr => nomatch hr
  externalIds := fun _ hr => nomatch hr

/-- Accept a new list of rows if it meets every constraint. -/
def ofRows (rows : List InvoiceRow) : Except DbError InvoiceTable :=
  if hids : (rows.map InvoiceRow.id).Nodup then
    if hmemos : Table.UniqueOn InvoiceRow.id (fun r => some r.memo) rows then
      if htx : Table.UniqueOn InvoiceRow.id InvoiceRow.paymentTxHash rows then
        if hext : Table.UniqueOn InvoiceRow.id InvoiceRow.externalId rows then
          .ok ⟨rows, hids, hmemos, htx, hext⟩
        else .error (.uniqueViolation .externalId)
      else .error (.uniqueViolation .paymentTxHash)
    else .error (.uniqueViolation .memo)
  else .error (.uniqueViolation .pkey)

/-- `SELECT * FROM invoices WHERE id = $1`. -/
def find (t : InvoiceTable) (id : String) : Option InvoiceRow :=
  Table.find InvoiceRow.id t.rows id

/-- `INSERT INTO invoices`. -/
def insert (t : InvoiceTable) (row : InvoiceRow) :
    Except DbError InvoiceTable :=
  ofRows (t.rows ++ [row])

/-- `UPDATE invoices SET … WHERE …`. -/
def update (t : InvoiceTable) (p : InvoiceRow → Bool)
    (f : InvoiceRow → InvoiceRow) : Except DbError InvoiceTable :=
  ofRows (Table.modify p f t.rows)

/-- `DELETE FROM invoices WHERE id = $1`, which violates nothing. -/
def delete (t : InvoiceTable) (id : String) : InvoiceTable where
  rows := Table.remove InvoiceRow.id id t.rows
  ids := Table.nodup_remove t.ids id
  memos := t.memos.remove id
  txHashes := t.txHashes.remove id
  externalIds := t.externalIds.remove id

/-! ## What the statements do -/

variable {f : InvoiceRow → InvoiceRow} {p : InvoiceRow → Bool} {row : InvoiceRow}
  {t t' : InvoiceTable} {id : String} {rows : List InvoiceRow}

theorem ofRows_ok {t : InvoiceTable} (h : ofRows rows = .ok t) : t.rows = rows := by
  rw [ofRows] at h
  split at h
  · split at h
    · split at h
      · split at h
        · rw [← Except.ok.inj h]
        · cases h
      · cases h
    · cases h
  · cases h

theorem ofRows_of_valid (hids : (rows.map InvoiceRow.id).Nodup)
    (hmemos : Table.UniqueOn InvoiceRow.id (fun r => some r.memo) rows)
    (htx : Table.UniqueOn InvoiceRow.id InvoiceRow.paymentTxHash rows)
    (hext : Table.UniqueOn InvoiceRow.id InvoiceRow.externalId rows) :
    ofRows rows = .ok ⟨rows, hids, hmemos, htx, hext⟩ := by
  rw [ofRows, dif_pos hids, dif_pos hmemos, dif_pos htx, dif_pos hext]

theorem mem_iff_find (t : InvoiceTable) (row : InvoiceRow) :
    row ∈ t.rows ↔ t.find row.id = some row := by
  rw [find, Table.find_iff t.ids]
  exact ⟨fun h => ⟨h, rfl⟩, And.left⟩

theorem find_id {t : InvoiceTable} (h : t.find id = some row) : row.id = id :=
  Table.key_of_find h

theorem mem_of_find {t : InvoiceTable} (h : t.find id = some row) : row ∈ t.rows :=
  Table.mem_of_find h

theorem find_update (h : t.update p f = .ok t') (hf : ∀ r, (f r).id = r.id) (id : String) :
    t'.find id = (t.find id).map (fun r => if p r then f r else r) := by
  rw [find, ofRows_ok h]
  exact Table.find_modify (fun r _ => hf r) t.rows id

theorem insert_fresh (h : t.insert row = .ok t') : t.find row.id = none := by
  have hids := t'.ids
  rw [ofRows_ok h] at hids
  exact Table.find_eq_none.mpr ((Table.nodup_insert t.ids).mp hids)

theorem find_insert (h : t.insert row = .ok t') (id : String) :
    t'.find id = if row.id = id then some row else t.find id := by
  rw [find, ofRows_ok h]
  exact Table.find_insert (insert_fresh h) id

theorem find_delete (t : InvoiceTable) (id₀ id : String) :
    (t.delete id₀).find id = if id₀ = id then none else t.find id :=
  Table.find_remove t.rows id₀ id

theorem insert_accepted_iff (t : InvoiceTable) (row : InvoiceRow) :
    (∃ t', t.insert row = .ok t') ↔ t.find row.id = none ∧ (∀ r ∈ t.rows, r.memo ≠ row.memo) ∧
      (∀ r ∈ t.rows, row.paymentTxHash ≠ none → r.paymentTxHash ≠ row.paymentTxHash) ∧
      (∀ r ∈ t.rows, row.externalId ≠ none → r.externalId ≠ row.externalId) := by
  constructor
  · rintro ⟨t', h⟩
    have hfresh := Table.find_eq_none.mp (insert_fresh h)
    have hmemos := t'.memos
    have htx := t'.txHashes
    have hext := t'.externalIds
    rw [ofRows_ok h] at hmemos htx hext
    refine ⟨insert_fresh h, ?_, (Table.uniqueOn_insert t.txHashes hfresh).mp
      htx, (Table.uniqueOn_insert t.externalIds hfresh).mp hext⟩
    intro r hr heq
    exact (Table.uniqueOn_insert t.memos hfresh).mp hmemos r hr (some_ne_none _) (congrArg some heq)
  · rintro ⟨hid, hmemo, htx, hext⟩
    have hfresh := Table.find_eq_none.mp hid
    refine ⟨_, ofRows_of_valid ((Table.nodup_insert t.ids).mpr hfresh)
      ((Table.uniqueOn_insert t.memos hfresh).mpr ?_)
      ((Table.uniqueOn_insert t.txHashes hfresh).mpr htx)
      ((Table.uniqueOn_insert t.externalIds hfresh).mpr hext)⟩
    intro r hr _ heq
    exact hmemo r hr (some.inj heq)

theorem update_accepted (t : InvoiceTable) (p : InvoiceRow → Bool) (hid : ∀ r, (f r).id = r.id)
    (hmemo : ∀ r, (f r).memo = r.memo) (htx : ∀ r, (f r).paymentTxHash = r.paymentTxHash)
    (hext : ∀ r, (f r).externalId = r.externalId) : ∃ t', t.update p f = .ok t' := by
  have hids : ((Table.modify p f t.rows).map InvoiceRow.id).Nodup := by
    rw [Table.map_modify InvoiceRow.id (fun r _ => hid r)]
    exact t.ids
  exact ⟨_, ofRows_of_valid hids
    (t.memos.modify (fun r _ => hid r) (fun r _ => congrArg some (hmemo r)))
    (t.txHashes.modify (fun r _ => hid r) (fun r _ => htx r))
    (t.externalIds.modify (fun r _ => hid r) (fun r _ => hext r))⟩

theorem update_keeping_accepted (t : InvoiceTable) (hid : ∀ r, (f r).id = r.id)
    (h : ∀ r ∈ t.rows, p r = true → (f r).memo = r.memo ∧ (f r).paymentTxHash = r.paymentTxHash
      ∧ (f r).externalId = r.externalId) : ∃ t', t.update p f = .ok t' := by
  -- outside the matched rows the assignment may be taken to do nothing
  let g := fun r => if (f r).memo = r.memo ∧ (f r).paymentTxHash = r.paymentTxHash
      ∧ (f r).externalId = r.externalId then f r else r
  have hsame : Table.modify p f t.rows = Table.modify p g t.rows := by
    refine map_congr_left ?_
    intro r hr
    by_cases hp : p r = true
    · rw [if_pos hp, if_pos hp, show g r = f r from if_pos (h r hr hp)]
    · rw [if_neg hp, if_neg hp]
  have hg : ∀ r, (g r).id = r.id ∧ (g r).memo = r.memo ∧ (g r).paymentTxHash = r.paymentTxHash
      ∧ (g r).externalId = r.externalId := by
    intro r
    by_cases hr : (f r).memo = r.memo ∧ (f r).paymentTxHash = r.paymentTxHash
        ∧ (f r).externalId = r.externalId
    · rw [show g r = f r from if_pos hr]
      exact ⟨hid r, hr⟩
    rw [show g r = r from if_neg hr]
    exact ⟨rfl, rfl, rfl, rfl⟩
  rw [update, hsame]
  exact t.update_accepted p (fun r => (hg r).1) (fun r => (hg r).2.1)
    (fun r => (hg r).2.2.1) (fun r => (hg r).2.2.2)

theorem find_update_id (h : t.update (fun r => r.id == id) f = .ok t')
    (hf : ∀ r, (f r).id = r.id) (id' : String) :
    t'.find id' = if id = id' then (t.find id').map f else t.find id' := by
  rw [find_update h hf]
  cases hfind : t.find id' with
  | none => split <;> rfl
  | some r =>
    have hid := find_id hfind
    by_cases heq : id = id'
    · rw [if_pos heq, map_some, map_some, if_pos (beq_iff_eq.mpr (hid.trans heq.symm))]
    · rw [if_neg heq, map_some, if_neg (fun hb => heq ((beq_iff_eq.mp hb).symm.trans hid))]

theorem update_unmatched (t : InvoiceTable)
    (f : InvoiceRow → InvoiceRow) (h : ∀ r ∈ t.rows, p r ≠ true) : t.update p f = .ok t := by
  have hsame : Table.modify p f t.rows = t.rows := by
    rw [Table.modify]
    refine (map_congr_left ?_).trans (map_id t.rows)
    intro r hr
    exact if_neg (h r hr)
  rw [update, hsame]
  exact ofRows_of_valid t.ids t.memos t.txHashes t.externalIds

theorem update_hash_accepted (t : InvoiceTable) {id txHash : String}
    (hp : ∀ r, p r = true → r.id = id)
    (hid : ∀ r, (f r).id = r.id) (hmemo : ∀ r, (f r).memo = r.memo)
    (hext : ∀ r, (f r).externalId = r.externalId) (htx : ∀ r, (f r).paymentTxHash = some txHash)
    (hfree : ∀ r ∈ t.rows, r.id ≠ id → r.paymentTxHash ≠ some txHash) :
    ∃ t', t.update p f = .ok t' := by
  have hids : ((Table.modify p f t.rows).map InvoiceRow.id).Nodup := by
    rw [Table.map_modify InvoiceRow.id (fun r _ => hid r)]
    exact t.ids
  have hhash : Table.UniqueOn InvoiceRow.id InvoiceRow.paymentTxHash (Table.modify p f t.rows) := by
    intro r hr r' hr' hne heq
    obtain ⟨r₀, hr₀, rfl⟩ := mem_map.mp hr
    obtain ⟨r₁, hr₁, rfl⟩ := mem_map.mp hr'
    by_cases hp₀ : p r₀ = true
    · by_cases hp₁ : p r₁ = true
      · rw [if_pos hp₀, if_pos hp₁, hid, hid, hp r₀ hp₀, hp r₁ hp₁]
      rw [if_pos hp₀, if_neg hp₁] at heq ⊢
      rw [htx] at heq
      rw [hid, hp r₀ hp₀]
      by_contra hother
      exact hfree r₁ hr₁ (Ne.symm hother) heq.symm
    · by_cases hp₁ : p r₁ = true
      · rw [if_neg hp₀, if_pos hp₁] at heq ⊢
        rw [htx] at heq
        rw [hid, hp r₁ hp₁]
        by_contra hother
        exact hfree r₀ hr₀ hother heq
      rw [if_neg hp₀, if_neg hp₁] at heq ⊢
      rw [if_neg hp₀] at hne
      exact t.txHashes r₀ hr₀ r₁ hr₁ hne heq
  exact ⟨_, ofRows_of_valid hids
    (t.memos.modify (fun r _ => hid r) (fun r _ => congrArg some (hmemo r)))
    hhash (t.externalIds.modify (fun r _ => hid r) (fun r _ => hext r))⟩

theorem update_hash_refused (t : InvoiceTable) {id txHash : String}
    (hp : ∀ r, p r = true → r.id = id) (hid : ∀ r, (f r).id = r.id)
    (htx : ∀ r, (f r).paymentTxHash = some txHash) (hrow : row ∈ t.rows) (hprow : p row = true)
    {other : InvoiceRow} (hother : other ∈ t.rows) (hne : other.id ≠ id)
    (htaken : other.paymentTxHash = some txHash) : ∃ e, t.update p f = .error e := by
  cases hupd : t.update p f with
  | error e => exact ⟨e, rfl⟩
  | ok t' =>
    have hnot : ¬ p other = true := fun h => hne (hp other h)
    have hmem : f row ∈ t'.rows ∧ other ∈ t'.rows := by
      rw [ofRows_ok hupd]
      refine ⟨mem_map.mpr ⟨row, hrow, if_pos hprow⟩, mem_map.mpr ⟨other, hother, if_neg hnot⟩⟩
    have hsame := t'.txHashes (f row) hmem.1 other hmem.2
      (by rw [htx]; exact some_ne_none _) (by rw [htx, htaken])
    rw [hid, hp row hprow] at hsame
    exact absurd hsame.symm hne

end InvoiceTable

end Invoices
