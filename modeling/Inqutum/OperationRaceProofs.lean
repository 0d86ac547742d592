import Inqutum.OperationLossProofs

/-!
# Which operations are executed once

A call marks its operation in flight, in its own map and in storage.  A
reload queues what is in flight again, and a write puts one tab's view in
the place of the stored list, so the mark holds only among tabs that keep
in step with storage.

In the runs of `executed_once` the tabs that write are in step, every write
goes through, and no id is enqueued twice.
-/

namespace OperationQueue

open Jobs (Unknown)
open Transition (Along)
open List Option InsertionMap Tab

/-! ## The property and its condition -/

/-- Storage holds an operation with a status. -/
def Browser.storedAs (b : Browser) (id : String) (status : Status) : Prop :=
  ∃ item ∈ b.storage.getD [], item.id = id ∧ item.status = status

/-- No executor resolved twice for one id. -/
def ExecutedOnce (b : Browser) : Prop := b.history.completed.Nodup

/-- What was committed is committed in storage, unless it was cleared. -/
def StaysCommitted (b : Browser) : Prop :=
  ∀ id ∈ b.history.completed, id ∉ b.history.cleared → b.storedAs id .committed

def isSettled (status : Status) : Bool :=
  decide (status = .inFlight) || decide (status = .committed)

/-- A tab that writes knows what is in flight, what is committed and what was
    cleared. -/
def InStep (b : Browser) (move : Move) : Prop :=
  ∀ t ∈ b.turn move, t.writes = true → (∀ item ∈ b.storage.getD [], isSettled item.status = true →
      t.before.status item.id = some item.status)
    ∧ ∀ id ∈ t.before.operations.keys, id ∉ b.history.cleared

/-- Neither `JSON.stringify` nor `setItem` throws on the list of a tab that
    writes. -/
def GoesThrough (b : Browser) (move : Move) : Prop :=
  ∀ t ∈ b.turn move, t.writes = true → t.written.isSome = true

def FreshId (b : Browser) (move : Move) : Prop :=
  ∀ id ∈ move.enqueues, id ∉ b.history.enqueued

/-! ## The invariant -/

def Browser.object (b : Browser) (i ref : Nat) : Option Operation :=
  (b.tabs i).bind (fun tab => tab.heap[ref]?)

def Browser.refOf (b : Browser) (i : Nat) (id : String) : Option Nat :=
  (b.tabs i).bind (fun tab => tab.operations.get id)

/-- The call's object, and what is known of it. -/
structure InFlight (b : Browser) (call : Call) (op : Operation) : Prop where
  object : b.object call.tab call.ref = some op
  status : op.status = .inFlight
  stored : b.storedAs op.id .inFlight
  uncommitted : op.id ∉ b.history.completed

structure Coherent (b : Browser) : Prop where
  sound : Sound b
  calls : ∀ k call, b.calls k = some call → ∃ op, InFlight b call op
  single : ∀ k k' call call' op op', b.calls k = some call →
    b.calls k' = some call' → InFlight b call op → InFlight b call' op' → op.id = op'.id → k = k'
  marked : ∀ i id ref op, b.refOf i id = some ref → b.object i ref = some op →
    op.status = .inFlight → ∃ k call, b.calls k = some call ∧ call.tab = i ∧ call.ref = ref
  known : ∀ id ∈ b.history.completed, id ∈ b.history.enqueued
  once : ExecutedOnce b
  kept : StaysCommitted b

theorem coherent_empty (refuses : Nat → Bool) : Coherent (.empty refuses) where
  sound := sound_empty refuses
  calls := fun _ _ h => nomatch h
  single := fun _ _ _ _ _ _ h => nomatch h
  marked := fun _ _ _ _ h => nomatch h
  known := fun _ h => nomatch h
  once := nodup_nil
  kept := fun _ h => nomatch h

section Step

variable {b : Browser} {move : Move} {t : Turn}

theorem object_take (i ref : Nat) : (b.take t).object i ref
      = if i = t.tab then t.after.heap[ref]? else b.object i ref := by
  rw [Browser.object, Browser.take]
  dsimp only
  split
  · rfl
  rw [Browser.object]
  split
  · cases b.tabs i with
    | none => rfl
    | some tab => rfl
  · rfl

theorem refOf_take (i : Nat) (id : String) : (b.take t).refOf i id
      = if i = t.tab then t.after.operations.get id else b.refOf i id := by
  rw [Browser.refOf, Browser.take]
  dsimp only
  split
  · rfl
  rw [Browser.refOf]
  split
  · cases b.tabs i with
    | none => rfl
    | some tab => rfl
  · rfl

variable {id : String} {st : Status} {tab : Tab}

theorem object_tab {i ref : Nat} (h : b.tabs i = some tab) : b.object i ref = tab.heap[ref]? := by
  rw [Browser.object, h, bind_some]

theorem refOf_tab {i : Nat} (h : b.tabs i = some tab) : b.refOf i id = tab.operations.get id := by
  rw [Browser.refOf, h, bind_some]

theorem storedAs_unique (hs : Sound b) {st st' : Status}
    (h : b.storedAs id st) (h' : b.storedAs id st') : st = st' := by
  obtain ⟨item, hitem, hid, rfl⟩ := h
  obtain ⟨item', hitem', hid', rfl⟩ := h'
  cases hst : b.storage with
  | none =>
    rw [hst] at hitem
    cases hitem
  | some items =>
    rw [hst] at hitem hitem'
    rw [inj_on_of_nodup_map (hs.nodup items hst) hitem hitem' (hid.trans hid'.symm)]

theorem storedAs_written (hwf : t.after.Wf) (hwritten : t.written.isSome = true)
    (id : String) (st : Status) : (b.take t).storedAs id st ↔ t.after.status id = some st := by
  obtain ⟨items, hw⟩ := isSome_iff_exists.mp hwritten
  obtain ⟨-, hser⟩ := written_serialized hw
  rw [Browser.storedAs, storage_take, hw]
  exact hwf.mem_serialized hser id st

theorem storedAs_enqueued (hs : Sound b) (h : b.storedAs id st) : id ∈ b.history.enqueued := by
  obtain ⟨item, hitem, rfl, -⟩ := h
  cases hst : b.storage with
  | none =>
    rw [hst] at hitem
    cases hitem
  | some items =>
    rw [hst] at hitem
    exact hs.listed items hst item hitem

theorem storedAs_unwritten (hwrites : t.writes = false) (id : String)
    (st : Status) : (b.take t).storedAs id st ↔ b.storedAs id st := by
  have hw : t.written = none := by
    rw [Turn.written, hwrites]
    rfl
  rw [Browser.storedAs, storage_take, hw]
  rfl

/-- What is in flight or committed stays stored so, if the tab keeps it. -/
theorem storedAs_take (hs : Sound b) (h : Turns b move t)
    (hstep : InStep b move) (hgoes : GoesThrough b move) (ht : b.turn move = some t)
    (hst : isSettled st = true) (hstored : b.storedAs id st)
    (hkeep : t.writes = true → t.before.status id = some st →
      t.after.status id = some st) : (b.take t).storedAs id st := by
  cases hwrites : t.writes with
  | false => exact (storedAs_unwritten hwrites id st).mpr hstored
  | true =>
    obtain ⟨item, hitem, rfl, rfl⟩ := hstored
    have hbefore := (hstep t ht hwrites).1 item hitem hst
    exact (storedAs_written (h.sound hs).2.1 (hgoes t ht hwrites) _ _).mpr (hkeep hwrites hbefore)

/-- The calls after a turn: those that go on, and the one that starts. -/
def GoesOn (b : Browser) (t : Turn) (k : Nat) (call : Call) : Prop :=
  ∃ call₀ op, b.calls k = some call₀ ∧ call.tab = call₀.tab
    ∧ call.ref = call₀.ref ∧ InFlight b call₀ op
    ∧ InFlight (b.take t) call op

def Starts (b : Browser) (t : Turn) (call : Call) : Prop :=
  ∃ op, InFlight (b.take t) call op ∧ ¬ b.storedAs op.id .inFlight

theorem InFlight.unique {b : Browser} {call : Call} {op op' : Operation}
    (h : InFlight b call op) (h' : InFlight b call op') : op = op' :=
  some.inj (h.object.symm.trans h'.object)

theorem Coherent.calls_take (hc : Coherent b) (k₀ : Nat) (hcalls : ∀ k call, t.calls k = some call →
      GoesOn b t k call ∨ (k = k₀ ∧ Starts b t call)) :
    (∀ k call, (b.take t).calls k = some call → ∃ op, InFlight (b.take t) call op)
      ∧ ∀ k k' call call' op op', (b.take t).calls k = some call →
        (b.take t).calls k' = some call' → InFlight (b.take t) call op →
        InFlight (b.take t) call' op' → op.id = op'.id → k = k' := by
  constructor
  · intro k call hcall
    rcases hcalls k call hcall with
      ⟨_, op, -, -, -, -, hop⟩ | ⟨-, op, hop, -⟩
    · exact ⟨op, hop⟩
    · exact ⟨op, hop⟩
  intro k k' call call' op op' hcall hcall' hop hop' hid
  rcases hcalls k call hcall with
    ⟨call₀, op₀, hold, -, -, hin, hin'⟩ | ⟨rfl, op₀, hin, hnew⟩
  · rw [hop.unique hin'] at hid
    rcases hcalls k' call' hcall' with
      ⟨call₁, op₁, hold₁, -, -, hin₁, hin₁'⟩ | ⟨-, op₁, hin₁, hnew₁⟩
    · rw [hop'.unique hin₁'] at hid
      exact hc.single k k' call₀ call₁ op₀ op₁ hold hold₁ hin hin₁ hid
    rw [hop'.unique hin₁] at hid
    exact absurd (hid ▸ hin.stored) hnew₁
  · rw [hop.unique hin] at hid
    rcases hcalls k' call' hcall' with
      ⟨call₁, op₁, hold₁, -, -, hin₁, hin₁'⟩ | ⟨rfl, -⟩
    · rw [hop'.unique hin₁'] at hid
      exact absurd (hid ▸ hin₁.stored) hnew
    · rfl

/-- A turn that changes no object keeps the state coherent. -/
theorem Coherent.grows (hc : Coherent b) (h : Turns b move t) (hcalls : t.calls = b.calls)
    (hcompleted : t.history.completed = b.history.completed)
    (hobject : ∀ ref op, b.object t.tab ref = some op → t.after.heap[ref]? = some op)
    (hmarked : ∀ id ref op, t.after.operations.get id = some ref →
      t.after.heap[ref]? = some op → op.status = .inFlight →
        b.refOf t.tab id = some ref ∧ b.object t.tab ref = some op)
    (hstored : ∀ id, b.storedAs id .inFlight → (b.take t).storedAs id .inFlight)
    (hkept : StaysCommitted (b.take t)) : Coherent (b.take t) := by
  have hobj : ∀ i ref op, b.object i ref = some op → (b.take t).object i ref = some op := by
    intro i ref op hop
    rw [object_take]
    split
    · rename_i hi
      rw [hi] at hop
      exact hobject ref op hop
    · exact hop
  obtain ⟨hin, hsingle⟩ := hc.calls_take (t := t) 0 (by
    intro k call hcall
    rw [hcalls] at hcall
    obtain ⟨op, hop⟩ := hc.calls k call hcall
    refine .inl ⟨call, op, hcall, rfl, rfl, hop, hobj _ _ _ hop.object,
      hop.status, hstored _ hop.stored, ?_⟩
    show op.id ∉ t.history.completed
    rw [hcompleted]
    exact hop.uncommitted)
  refine ⟨hc.sound.take h, hin, hsingle, ?_, ?_, ?_, hkept⟩
  · intro i id ref op href hop hstatus
    have hold : b.refOf i id = some ref ∧ b.object i ref = some op := by
      rw [refOf_take] at href
      rw [object_take] at hop
      by_cases hi : i = t.tab
      · rw [if_pos hi] at href hop
        rw [hi]
        exact hmarked id ref op href hop hstatus
      rw [if_neg hi] at href hop
      exact ⟨href, hop⟩
    obtain ⟨k, call, hcall, hrest⟩ := hc.marked i id ref op hold.1 hold.2 hstatus
    exact ⟨k, call, by rw [show (b.take t).calls = b.calls from hcalls]; exact hcall, hrest⟩
  · intro id hid
    have hold : id ∈ b.history.completed := hcompleted ▸ hid
    exact (h.sound hc.sound).2.2.2 id (hc.known id hold)
  show t.history.completed.Nodup
  rw [hcompleted]
  exact hc.once

/-- So does one that changes the object of its own call. -/
theorem Coherent.assigns (hc : Coherent b) (h : Turns b move t) {tab : Tab}
    {ref : Nat} {op op' : Operation} (htab : b.tabs t.tab = some tab)
    (hop : tab.heap[ref]? = some op) (hafter : t.after = tab.assign ref op') (k₀ : Nat)
    (hself : ∀ k call, t.calls k = some call → call.tab = t.tab →
      call.ref = ref → k = k₀ ∧ Starts b t call)
    (hrest : ∀ k call, ¬ (call.tab = t.tab ∧ call.ref = ref) →
      (t.calls k = some call ↔ b.calls k = some call)) (hother : ∀ k call x, b.calls k = some call →
      ¬ (call.tab = t.tab ∧ call.ref = ref) → InFlight b call x → x.id ≠ op.id)
    (hmark : op'.status = .inFlight → ∃ k call, t.calls k = some call
      ∧ call.tab = t.tab ∧ call.ref = ref)
    (hcompleted : ∀ id ∈ t.history.completed, id ∈ b.history.completed ∨ id = op.id)
    (honce : t.history.completed.Nodup)
    (hstored : ∀ id, id ≠ op.id → b.storedAs id .inFlight → (b.take t).storedAs id .inFlight)
    (hkept : StaysCommitted (b.take t)) : Coherent (b.take t) := by
  have hlt : ref < tab.heap.length := (List.getElem?_eq_some_iff.mp hop).1
  have hobj : ∀ i r, ¬ (i = t.tab ∧ r = ref) → (b.take t).object i r = b.object i r := by
    intro i r hne
    rw [object_take]
    by_cases hi : i = t.tab
    · have hr : ref ≠ r := fun heq => hne ⟨hi, heq.symm⟩
      rw [if_pos hi, hi, object_tab htab, hafter]
      exact getElem?_set_ne hr
    · rw [if_neg hi]
  have hnew : (b.take t).object t.tab ref = some op' := by
    rw [object_take, if_pos rfl, hafter]
    exact getElem?_set_self hlt
  have hrefs : ∀ i id, (b.take t).refOf i id = b.refOf i id := by
    intro i id
    rw [refOf_take]
    by_cases hi : i = t.tab
    · rw [if_pos hi, hi, refOf_tab htab, hafter]
      rfl
    · rw [if_neg hi]
  obtain ⟨hin, hsingle⟩ := hc.calls_take (t := t) k₀ (by
    intro k call hcall
    by_cases hsame : call.tab = t.tab ∧ call.ref = ref
    · exact .inr (hself k call hcall hsame.1 hsame.2)
    have hcall₀ := (hrest k call hsame).mp hcall
    obtain ⟨x, hx⟩ := hc.calls k call hcall₀
    have hid := hother k call x hcall₀ hsame hx
    refine .inl ⟨call, x, hcall₀, rfl, rfl, hx, ?_, hx.status, hstored _ hid hx.stored, ?_⟩
    · rw [hobj _ _ hsame]
      exact hx.object
    intro hdone
    rcases hcompleted x.id hdone with hold | heq
    · exact hx.uncommitted hold
    · exact hid heq)
  refine ⟨hc.sound.take h, hin, hsingle, ?_, ?_, honce, hkept⟩
  · intro i id r x href hx hstatus
    by_cases hsame : i = t.tab ∧ r = ref
    · rw [hsame.1, hsame.2, hnew] at hx
      rw [← some.inj hx] at hstatus
      rw [hsame.1, hsame.2]
      exact hmark hstatus
    rw [hrefs] at href
    rw [hobj i r hsame] at hx
    obtain ⟨k, call, hcall, htabs, hrefs'⟩ := hc.marked i id r x href hx hstatus
    refine ⟨k, call, (hrest k call ?_).mpr hcall, htabs, hrefs'⟩
    rw [htabs, hrefs']
    exact hsame
  · intro id hid
    obtain ⟨-, -, -, hmono⟩ := h.sound hc.sound
    rcases hcompleted id hid with hold | rfl
    · exact hmono _ (hc.known id hold)
    · exact hmono _ (hc.sound.objects _ _ htab op (mem_of_getElem? hop))

/-! ## The statuses of a tab -/

variable {id : String} {tab : Tab} {op : Operation} {ref : Nat}

theorem status_add_of_ne (hwf : tab.Wf) (hid : op.id ≠ id) :
    (tab.add op).status id = tab.status id := by
  rw [status, hwf.getOperation_add, if_neg hid, status]

theorem status_assign_of_ne (hwf : tab.Wf) {op op' : Operation} (hop : tab.heap[ref]? = some op)
    (hid : id ≠ op.id) : (tab.assign ref op').status id = tab.status id := by
  rw [status, getOperation_assign hop, if_neg, status]
  intro hget
  obtain ⟨x, hx, hxid⟩ := hwf id ref hget
  rw [some.inj (hop.symm.trans hx), hxid] at hid
  exact hid rfl

theorem status_clearCompleted (hid : id ∉ tab.completedIds) :
    tab.clearCompleted.status id = tab.status id := by
  rw [status, getOperation_clearCompleted, if_neg hid, status]

theorem status_of_get (hget : tab.operations.get id = some ref)
    (hop : tab.heap[ref]? = some op) : tab.status id = some op.status := by
  rw [status, getOperation, hget, bind_some, hop]
  rfl

/-- **WHAT WAS COMMITTED STAYS SO**, if the tab that writes keeps it. -/
theorem Coherent.kept_take (hc : Coherent b) (h : Turns b move t)
    (hstep : InStep b move) (hgoes : GoesThrough b move)
    (hfresh : FreshId b move) (ht : b.turn move = some t)
    (hkeep : ∀ id, id ∉ t.history.cleared → b.storedAs id .committed →
      t.before.status id = some .committed → t.after.status id = some .committed) :
    ∀ id ∈ b.history.completed, id ∉ t.history.cleared → (b.take t).storedAs id .committed := by
  intro id hid hcl
  have hold : id ∉ b.history.cleared := by
    intro hmem
    refine hcl ((cleared_turn h id).mpr ⟨.inl hmem, fun heq => ?_⟩)
    exact hfresh id heq (hc.known id hid)
  have hstored := hc.kept id hid hold
  exact storedAs_take hc.sound h hstep hgoes ht rfl hstored (fun _ => hkeep id hcl hstored)

/-! ## The turns one by one -/

theorem heap_load (tab : Tab) (stored : Option (List Operation)) :
    ∃ extra, (tab.load stored).heap = tab.heap ++ extra := by
  have hadds : ∀ (items : List Operation) (tab : Tab), ∃ extra,
      (items.foldl (fun tab item => tab.add (resumed item)) tab).heap = tab.heap ++ extra := by
    intro items
    induction items with
    | nil => exact fun tab => ⟨[], (append_nil _).symm⟩
    | cons item rest ih =>
      intro tab
      obtain ⟨extra, hextra⟩ := ih (tab.add (resumed item))
      refine ⟨resumed item :: extra, ?_⟩
      rw [foldl_cons, hextra]
      exact append_assoc tab.heap [_] extra
  cases stored with
  | none => exact ⟨[], (append_nil _).symm⟩
  | some items => exact hadds items _

variable {held : Call × Tab × Operation} {k : Nat} {op' : Operation} {id : String}

theorem load_not_inFlight (hs : Sound b) {items : List Operation}
    (hst : b.storage = some items) (tab : Tab) {ref : Nat}
    {op : Operation} (hget : (tab.load b.storage).operations.get id = some ref)
    (hop : (tab.load b.storage).heap[ref]? = some op) : op.status ≠ .inFlight := by
  have hfound : (tab.load b.storage).getOperation id = some op := by
    rw [getOperation, hget, bind_some, hop]
  rw [hst, getOperation_load (hs.nodup items hst)] at hfound
  obtain ⟨item, -, rfl⟩ := map_eq_some_iff.mp hfound
  rw [resumed_status]
  split
  · rintro ⟨⟩
  rename_i hne
  exact hne

theorem Coherent.openTab (hc : Coherent b) {i : Nat} {maxRetries : JsNumber}
    (hnew : b.tabs i = none) (hstep : InStep b (.openTab i maxRetries))
    (hgoes : GoesThrough b (.openTab i maxRetries))
    (ht : b.turn (.openTab i maxRetries) = some t) (hi : t.tab = i) (hsame : t.after = t.before)
    (hafter : t.after = (fresh maxRetries).load b.storage)
    (hcalls : t.calls = b.calls) (hhistory : t.history = b.history) : Coherent (b.take t) := by
  have h := turns_of_turn ht
  refine hc.grows h hcalls (by rw [hhistory]) ?_ ?_ ?_ ?_
  · intro ref op hop
    rw [hi, Browser.object, hnew] at hop
    cases hop
  · intro id ref op hget hop hstatus
    rw [hafter] at hget hop
    cases hst : b.storage with
    | none =>
      rw [hst] at hget
      cases hget
    | some items => exact absurd hstatus (load_not_inFlight hc.sound hst _ hget hop)
  · intro id hstored
    refine storedAs_take hc.sound h hstep hgoes ht rfl hstored ?_
    rw [hsame]
    exact fun _ hbefore => hbefore
  intro id hid hcl
  refine hc.kept_take h hstep hgoes nofun ht ?_ id (by rw [← hhistory]; exact hid) hcl
  rw [hsame]
  exact fun _ _ _ hbefore => hbefore

theorem Coherent.enqueue (hc : Coherent b) {i : Nat} {tab : Tab}
    {request : Request} {now : Int} (htab : b.tabs i = some tab)
    (hstep : InStep b (.enqueue i request now)) (hgoes : GoesThrough b (.enqueue i request now))
    (hfresh : FreshId b (.enqueue i request now))
    (ht : b.turn (.enqueue i request now) = some t) (hi : t.tab = i) (hbefore : t.before = tab)
    (hafter : t.after = tab.add (request.operation now)) (hcalls : t.calls = b.calls)
    (hcompleted : t.history.completed = b.history.completed) : Coherent (b.take t) := by
  have h := turns_of_turn ht
  have hwf := hc.sound.wf i tab htab
  have hnew : (request.operation now).id ∉ b.history.enqueued := hfresh _ rfl
  have hkeep : ∀ id st, b.storedAs id st → t.before.status id = some st →
      t.after.status id = some st := by
    intro id st hstored hold
    rw [hafter, status_add_of_ne hwf, ← hbefore, hold]
    rintro rfl
    exact hnew (storedAs_enqueued hc.sound hstored)
  refine hc.grows h hcalls hcompleted ?_ ?_ ?_ ?_
  · intro ref op hop
    rw [hi, object_tab htab] at hop
    rw [hafter]
    obtain ⟨hlt, -⟩ := List.getElem?_eq_some_iff.mp hop
    exact (List.getElem?_append_left hlt).trans hop
  · intro id ref op hget hop hstatus
    rw [hafter] at hget hop
    rw [hi, refOf_tab htab, object_tab htab]
    rw [show (tab.add (request.operation now)).operations
      = tab.operations.set (request.operation now).id tab.heap.length from rfl,
      InsertionMap.get_set] at hget
    split at hget
    · rw [← some.inj hget, show (tab.add _).heap[tab.heap.length]?
        = some (request.operation now) from List.getElem?_concat_length] at hop
      rw [← some.inj hop] at hstatus
      cases hstatus
    obtain ⟨x, hx, -⟩ := hwf id ref hget
    obtain ⟨hlt, -⟩ := List.getElem?_eq_some_iff.mp hx
    exact ⟨hget, (List.getElem?_append_left hlt).symm.trans hop⟩
  · intro id hstored
    exact storedAs_take hc.sound h hstep hgoes ht rfl hstored (fun _ => hkeep id _ hstored)
  intro id hid hcl
  exact hc.kept_take h hstep hgoes hfresh ht (fun id _ hstored => hkeep id _ hstored) id
    (by rw [← hcompleted]; exact hid) hcl

theorem Coherent.deliver (hc : Coherent b) {i : Nat} {tab : Tab}
    (htab : b.tabs i = some tab) (ht : b.turn (.deliver i) = some t)
    (hi : t.tab = i) (hwrites : t.writes = false)
    (hafter : t.after = ({ tab with pending := tab.pending - 1 } : Tab).load b.storage)
    (hcalls : t.calls = b.calls) (hhistory : t.history = b.history) :
    Coherent (b.take t) := by
  have h := turns_of_turn ht
  refine hc.grows h hcalls (by rw [hhistory]) ?_ ?_ ?_ ?_
  · intro ref op hop
    rw [hi, object_tab htab] at hop
    obtain ⟨extra, hheap⟩ := heap_load { tab with pending := tab.pending - 1 } b.storage
    obtain ⟨hlt, -⟩ := List.getElem?_eq_some_iff.mp hop
    rw [hafter, hheap]
    exact (List.getElem?_append_left hlt).trans hop
  · intro id ref op hget hop hstatus
    rw [hafter] at hget hop
    rw [hi, refOf_tab htab, object_tab htab]
    cases hst : b.storage with
    | none =>
      rw [hst] at hget hop
      exact ⟨hget, hop⟩
    | some items => exact absurd hstatus (load_not_inFlight hc.sound hst _ hget hop)
  · intro id hstored
    exact (storedAs_unwritten hwrites id _).mpr hstored
  intro id hid hcl
  rw [storedAs_unwritten hwrites]
  have hid' : id ∈ t.history.completed := hid
  have hcl' : id ∉ t.history.cleared := hcl
  rw [hhistory] at hid' hcl'
  exact hc.kept id hid' hcl'

theorem Coherent.clearCompleted (hc : Coherent b) {i : Nat} {tab : Tab}
    (htab : b.tabs i = some tab) (hstep : InStep b (.clearCompleted i))
    (hgoes : GoesThrough b (.clearCompleted i))
    (ht : b.turn (.clearCompleted i) = some t) (hi : t.tab = i)
    (hbefore : t.before = tab) (hafter : t.after = tab.clearCompleted) (hcalls : t.calls = b.calls)
    (hcompleted : t.history.completed = b.history.completed)
    (hcleared : ∀ id ∈ tab.completedIds, id ∈ t.history.cleared) : Coherent (b.take t) := by
  have h := turns_of_turn ht
  refine hc.grows h hcalls hcompleted ?_ ?_ ?_ ?_
  · intro ref op hop
    rw [hi, object_tab htab] at hop
    rw [hafter]
    exact hop
  · intro id ref op hget hop hstatus
    rw [hafter] at hget hop
    rw [hi, refOf_tab htab, object_tab htab]
    rw [get_clearCompleted] at hget
    split at hget
    · cases hget
    · exact ⟨hget, hop⟩
  · intro id hstored
    refine storedAs_take hc.sound h hstep hgoes ht rfl hstored ?_
    intro _ hold
    rw [hbefore] at hold
    rw [hafter, status_clearCompleted, hold]
    intro hmem
    rcases (mem_completedIds.mp hmem).2 with hst | hst
    · cases hold.symm.trans hst
    · cases hold.symm.trans hst
  · intro id hid hcl
    refine hc.kept_take h hstep hgoes nofun ht ?_ id (by rw [← hcompleted]; exact hid) hcl
    intro id hcl _ hold
    rw [hbefore] at hold
    rw [hafter, status_clearCompleted (fun hmem => hcl (hcleared id hmem)), hold]

theorem Coherent.inFlight_held (hc : Coherent b) (hheld : b.held k = some held) :
    InFlight b held.1 held.2.2 := by
  obtain ⟨hcall, htab, hop⟩ := held_eq_some.mp hheld
  obtain ⟨op, hin⟩ := hc.calls k held.1 hcall
  have hobject := hin.object
  rw [object_tab htab, hop] at hobject
  rw [some.inj hobject]
  exact hin

theorem ne_of_settled (hstep : InStep b move) (ht : b.turn move = some t)
    (hwrites : t.writes = true) {id id' : String} {st st' : Status}
    (hstored : b.storedAs id st) (hst : isSettled st = true)
    (hstatus : t.before.status id' = some st') (hne : st' ≠ st) : id ≠ id' := by
  rintro rfl
  obtain ⟨item, hitem, rfl, rfl⟩ := hstored
  have hbefore := (hstep t ht hwrites).1 item hitem hst
  exact hne (some.inj (hstatus.symm.trans hbefore))

theorem Coherent.answers (hc : Coherent b) (h : Turns b move t) (hheld : b.held k = some held)
    (hi : t.tab = held.1.tab) (hafter : t.after = held.2.1.assign held.1.ref op')
    (hcalls : t.calls = b.putCall k none) (hstatus : op'.status ≠ .inFlight)
    (hcompleted : ∀ id ∈ t.history.completed, id ∈ b.history.completed ∨ id = held.2.2.id)
    (honce : t.history.completed.Nodup)
    (hstored : ∀ id, id ≠ held.2.2.id → b.storedAs id .inFlight → (b.take t).storedAs id .inFlight)
    (hkept : StaysCommitted (b.take t)) : Coherent (b.take t) := by
  obtain ⟨hcall, htab, hop⟩ := held_eq_some.mp hheld
  have hin := hc.inFlight_held hheld
  have hsame : ∀ k' call x, b.calls k' = some call → InFlight b call x →
      x.id = held.2.2.id → k' = k := by
    intro k' call x hcall' hx hid
    exact hc.single k' k call held.1 x held.2.2 hcall' hcall hx hin hid
  have hself : ∀ k' call, b.calls k' = some call → call.tab = held.1.tab →
      call.ref = held.1.ref → k' = k := by
    intro k' call hcall' htab' href
    obtain ⟨x, hx⟩ := hc.calls k' call hcall'
    have hobject := hx.object
    rw [htab', href, hin.object] at hobject
    exact hsame k' call x hcall' hx (by rw [some.inj hobject])
  refine hc.assigns h (by rw [hi]; exact htab) hop hafter k ?_ ?_ ?_
    (fun hflight => absurd hflight hstatus) hcompleted honce hstored hkept
  · intro k' call hcall' htab' href
    rw [hcalls, Browser.putCall] at hcall'
    split at hcall'
    · cases hcall'
    rename_i hne
    exact absurd (hself k' call hcall' (htab'.trans hi) href) hne
  · intro k' call hne
    rw [hcalls, Browser.putCall]
    split
    · rename_i heq
      rw [heq, hcall]
      refine ⟨nofun, fun hcall' => ?_⟩
      rw [← some.inj hcall', hi] at hne
      exact absurd ⟨rfl, rfl⟩ hne
    · exact Iff.rfl
  · intro k' call x hcall' hne hx hid
    have hk := hsame k' call x hcall' hx hid
    rw [hk, hcall] at hcall'
    rw [← some.inj hcall', hi] at hne
    exact hne ⟨rfl, rfl⟩

/-- A call that ends changes the status of its own operation alone. -/
theorem Coherent.status_answered (hc : Coherent b) (hheld : b.held k = some held)
    (hbefore : t.before = held.2.1) (hafter : t.after = held.2.1.assign held.1.ref op')
    (id : String) (st : Status) (hid : id ≠ held.2.2.id) (hold : t.before.status id = some st) :
    t.after.status id = some st := by
  obtain ⟨-, htab, hop⟩ := held_eq_some.mp hheld
  rw [hafter, status_assign_of_ne (hc.sound.wf _ _ htab) hop hid, ← hbefore, hold]

theorem Coherent.fails (hc : Coherent b) (hheld : b.held k = some held)
    (hstep : InStep b move) (hgoes : GoesThrough b move)
    (hnone : move.enqueues = none) (ht : b.turn move = some t) (hi : t.tab = held.1.tab)
    (hbefore : t.before = held.2.1) (hafter : t.after = held.2.1.assign held.1.ref op')
    (hcalls : t.calls = b.putCall k none) (hhistory : t.history = b.history)
    (hstatus : op'.status ≠ .inFlight) : Coherent (b.take t) := by
  have h := turns_of_turn ht
  have hin := hc.inFlight_held hheld
  have hkeep := hc.status_answered hheld hbefore hafter
  refine hc.answers h hheld hi hafter hcalls hstatus ?_ ?_ ?_ ?_
  · rw [hhistory]
    exact fun id hid => .inl hid
  · rw [hhistory]
    exact hc.once
  · intro id hid hstored
    exact storedAs_take hc.sound h hstep hgoes ht rfl hstored (fun _ => hkeep id _ hid)
  intro id hid hcl
  refine hc.kept_take h hstep hgoes ?_ ht ?_ id (by rw [← hhistory]; exact hid) hcl
  · intro id' hid'
    rw [hnone] at hid'
    cases hid'
  intro id' _ hstored hold
  refine hkeep id' _ ?_ hold
  rintro rfl
  cases storedAs_unique hc.sound hstored hin.stored

/-- The tab that commits has the call's object in its map: a reload would have
    queued it. -/
theorem Coherent.holds_object (hc : Coherent b) (hheld : b.held k = some held)
    (hstep : InStep b move) (ht : b.turn move = some t)
    (hwrites : t.writes = true) (hbefore : t.before = held.2.1) :
    held.2.1.operations.get held.2.2.id = some held.1.ref := by
  obtain ⟨hcall, htab, hop⟩ := held_eq_some.mp hheld
  have hin := hc.inFlight_held hheld
  obtain ⟨item, hitem, hid, hst⟩ := hin.stored
  have hstatus := (hstep t ht hwrites).1 item hitem (by rw [hst]; rfl)
  rw [hid, hst, hbefore] at hstatus
  obtain ⟨x, hx, hxst⟩ := map_eq_some_iff.mp hstatus
  obtain ⟨ref, hget, hheap⟩ := bind_eq_some_iff.mp hx
  obtain ⟨k', call', hcall', htab', href'⟩ := hc.marked held.1.tab _ ref x
    (by rw [refOf_tab htab]; exact hget)
    (by rw [object_tab htab]; exact hheap) hxst
  -- the map's object is in flight under a call, and only this one has its id
  obtain ⟨y, hy⟩ := hc.calls k' call' hcall'
  have hobject := hy.object
  rw [htab', href', object_tab htab, hheap] at hobject
  have hyid : y.id = held.2.2.id := by
    cases hobject
    exact (hc.sound.wf _ _ htab).getOperation hx
  have hk := hc.single k' k call' held.1 y held.2.2 hcall' hcall hy hin hyid
  rw [hk, hcall] at hcall'
  rw [hget, ← href', ← some.inj hcall']

theorem Coherent.resolved (hc : Coherent b) {k : Nat} {result : Unknown}
    {now : Int} {held : Call × Tab × Operation}
    (hheld : b.held k = some held) (hstep : InStep b (.resolved k result now))
    (hgoes : GoesThrough b (.resolved k result now))
    (ht : b.turn (.resolved k result now) = some t) (hi : t.tab = held.1.tab)
    (hwrites : t.writes = true) (hbefore : t.before = held.2.1)
    (hafter : t.after = held.2.1.assign held.1.ref (succeeded held.2.2 result now))
    (hcalls : t.calls = b.putCall k none) (hcompleted : t.history.completed
      = b.history.completed ++ [held.2.2.id]) : Coherent (b.take t) := by
  have h := turns_of_turn ht
  obtain ⟨-, -, hop⟩ := held_eq_some.mp hheld
  have hin := hc.inFlight_held hheld
  have hkeep := hc.status_answered hheld hbefore hafter
  refine hc.answers h hheld hi hafter hcalls nofun ?_ ?_ ?_ ?_
  · intro id hid
    rw [hcompleted] at hid
    rcases mem_append.mp hid with hold | hnew
    · exact .inl hold
    · exact .inr (mem_singleton.mp hnew)
  · rw [hcompleted]
    refine Nodup.append hc.once (nodup_singleton _) ?_
    intro id hid hnew
    rw [mem_singleton.mp hnew] at hid
    exact hin.uncommitted hid
  · intro id hid hstored
    exact storedAs_take hc.sound h hstep hgoes ht rfl hstored (fun _ => hkeep id _ hid)
  intro id hid hcl
  have hid' : id ∈ t.history.completed := hid
  rw [hcompleted] at hid'
  rcases mem_append.mp hid' with hold | hnew
  · refine hc.kept_take h hstep hgoes nofun ht ?_ id hold hcl
    intro id' _ hstored hst
    refine hkeep id' _ ?_ hst
    rintro rfl
    cases storedAs_unique hc.sound hstored hin.stored
  rw [mem_singleton.mp hnew, storedAs_written (h.sound hc.sound).2.1
    (hgoes t ht hwrites), hafter, status, getOperation_assign hop,
    if_pos (hc.holds_object hheld hstep ht hwrites hbefore)]
  rfl

theorem Coherent.executing (hc : Coherent b) {k : Nat}
    {held : Call × Tab × Operation} (hheld : b.held k = some held)
    (ht : b.turn move = some t) (hi : t.tab = held.1.tab) (hwrites : t.writes = false)
    (hafter : t.after = held.2.1.assign held.1.ref held.2.2)
    (hcalls : t.calls = b.putCall k (some { held.1 with executing := true }))
    (hhistory : t.history = b.history) : Coherent (b.take t) := by
  have h := turns_of_turn ht
  obtain ⟨hcall, htab, hop⟩ := held_eq_some.mp hheld
  have hsame : t.after = held.2.1 := by
    rw [hafter, assign]
    obtain ⟨hlt, hval⟩ := List.getElem?_eq_some_iff.mp hop
    rw [← hval, List.set_getElem_self]
  have hobject : ∀ i ref, (b.take t).object i ref = b.object i ref := by
    intro i ref
    rw [object_take]
    split
    · rename_i heq
      rw [heq, hi, object_tab htab, hsame]
    · rfl
  have hin : ∀ call call₀ op, call.tab = call₀.tab → call.ref = call₀.ref →
      InFlight b call₀ op → InFlight (b.take t) call op := by
    intro call call₀ op htabs hrefs hx
    refine ⟨?_, hx.status, (storedAs_unwritten hwrites _ _).mpr hx.stored, ?_⟩
    · rw [hobject, htabs, hrefs]
      exact hx.object
    show op.id ∉ t.history.completed
    rw [hhistory]
    exact hx.uncommitted
  have hrefs : ∀ i id, (b.take t).refOf i id = b.refOf i id := by
    intro i id
    rw [refOf_take]
    split
    · rename_i heq
      rw [heq, hi, refOf_tab htab, hsame]
    · rfl
  -- a call after the turn is one before it, on the same object
  have hback : ∀ k' call, t.calls k' = some call → ∃ call₀,
      b.calls k' = some call₀ ∧ call.tab = call₀.tab ∧ call.ref = call₀.ref := by
    intro k' call hcall'
    rw [hcalls, Browser.putCall] at hcall'
    split at hcall'
    · rename_i heq
      rw [heq, ← some.inj hcall']
      exact ⟨held.1, hcall, rfl, rfl⟩
    · exact ⟨call, hcall', rfl, rfl⟩
  obtain ⟨hflight, hsingle⟩ := hc.calls_take (t := t) 0 (by
    intro k' call hcall'
    obtain ⟨call₀, hcall₀, htabs, hrefs'⟩ := hback k' call hcall'
    obtain ⟨op, hop'⟩ := hc.calls k' call₀ hcall₀
    exact .inl ⟨call₀, op, hcall₀, htabs, hrefs', hop', hin call call₀ op htabs hrefs' hop'⟩)
  refine ⟨hc.sound.take h, hflight, hsingle, ?_, ?_, ?_, ?_⟩
  · intro i id ref op href hop' hst
    rw [hrefs] at href
    rw [hobject] at hop'
    obtain ⟨k', call, hcall', htabs, hrefs'⟩ := hc.marked i id ref op href hop' hst
    by_cases hk : k' = k
    · refine ⟨k, { held.1 with executing := true }, ?_, ?_⟩
      · show t.calls k = _
        rw [hcalls, Browser.putCall, if_pos rfl]
      rw [hk, hcall] at hcall'
      rw [← some.inj hcall'] at htabs hrefs'
      exact ⟨htabs, hrefs'⟩
    · refine ⟨k', call, ?_, htabs, hrefs'⟩
      show t.calls k' = _
      rw [hcalls, Browser.putCall, if_neg hk, hcall']
  · show ∀ id ∈ t.history.completed, id ∈ t.history.enqueued
    rw [hhistory]
    exact hc.known
  · show t.history.completed.Nodup
    rw [hhistory]
    exact hc.once
  intro id hid hcl
  have hid' : id ∈ t.history.completed := hid
  have hcl' : id ∉ t.history.cleared := hcl
  rw [hhistory] at hid' hcl'
  exact (storedAs_unwritten hwrites id _).mpr (hc.kept id hid' hcl')

theorem Coherent.begin (hc : Coherent b) {k i ref : Nat} {tab : Tab}
    {id : String} {now : Int} {op : Operation} (hfree : b.calls k = none)
    (htab : b.tabs i = some tab) (hget : tab.operations.get id = some ref)
    (hop : tab.heap[ref]? = some op) (hstatus : op.status = .queued ∨ op.status = .failed)
    (hstep : InStep b (.begin k i id now)) (hgoes : GoesThrough b (.begin k i id now))
    (ht : b.turn (.begin k i id now) = some t) (hi : t.tab = i)
    (hwrites : t.writes = true) (hbefore : t.before = tab)
    (hafter : t.after = tab.assign ref (begun op now))
    (hcalls : t.calls = b.putCall k (some ⟨i, ref, false⟩))
    (hhistory : t.history = b.history) : Coherent (b.take t) := by
  have h := turns_of_turn ht
  have hwf := hc.sound.wf _ _ htab
  obtain ⟨x, hx, hxid⟩ := hwf id ref hget
  have hopid : op.id = id := by rw [some.inj (hop.symm.trans hx), hxid]
  have hold : t.before.status op.id = some op.status := by
    rw [hbefore, hopid]
    exact status_of_get hget hop
  have hunsettled : ∀ st, isSettled st = true → op.status ≠ st := by
    rintro st hst rfl
    rcases hstatus with heq | heq
    · rw [heq] at hst
      cases hst
    rw [heq] at hst
    cases hst
  have hne : ∀ id' st, b.storedAs id' st → isSettled st = true → id' ≠ op.id := by
    intro id' st hstored hst
    exact ne_of_settled hstep ht hwrites hstored hst hold (hunsettled st hst)
  have hkeep : ∀ id' st, b.storedAs id' st → isSettled st = true →
      t.before.status id' = some st → t.after.status id' = some st := by
    intro id' st hstored hst hsame
    rw [hafter, status_assign_of_ne hwf hop (hne id' st hstored hst), ← hbefore, hsame]
  have hfirst : op.id ∉ b.history.completed := by
    intro hdone
    by_cases hcl : op.id ∈ b.history.cleared
    · refine (hstep t ht hwrites).2 op.id ?_ hcl
      rw [mem_keys_iff, has_iff, hbefore, hopid]
      exact ⟨ref, hget⟩
    · exact hne _ _ (hc.kept op.id hdone hcl) rfl rfl
  have hidle : ∀ k' call x, b.calls k' = some call → InFlight b call x →
      ¬ (call.tab = i ∧ call.ref = ref) := by
    rintro k' call x - hx' ⟨htabs, hrefs⟩
    have hobject := hx'.object
    rw [htabs, hrefs, object_tab htab, hop] at hobject
    rw [← some.inj hobject] at hx'
    exact hunsettled .inFlight rfl hx'.status
  refine hc.assigns h (by rw [hi]; exact htab) hop hafter k ?_ ?_ ?_ ?_ ?_ ?_ ?_ ?_
  · intro k' call hcall' htabs hrefs
    rw [hcalls, Browser.putCall] at hcall'
    split at hcall'
    · rename_i heq
      refine ⟨heq, begun op now, ⟨?_, rfl, ?_, ?_⟩, ?_⟩
      · rw [object_take, htabs, if_pos rfl, hrefs, hafter]
        exact List.getElem?_set_self (List.getElem?_eq_some_iff.mp hop).1
      · rw [storedAs_written (h.sound hc.sound).2.1 (hgoes t ht hwrites),
          hafter, status, getOperation_assign hop,
          if_pos (show tab.operations.get (begun op now).id = some ref by
            rw [← hget]; exact congrArg _ hopid)]
        rfl
      · show op.id ∉ t.history.completed
        rw [hhistory]
        exact hfirst
      · exact fun hstored => hne _ _ hstored rfl rfl
    · obtain ⟨y, hy⟩ := hc.calls k' call hcall'
      exact absurd ⟨htabs.trans hi, hrefs⟩ (hidle k' call y hcall' hy)
  · intro k' call hnot
    rw [hcalls, Browser.putCall]
    split
    · rename_i heq
      rw [heq, hfree]
      constructor
      · intro hcall'
        rw [← some.inj hcall', hi] at hnot
        exact absurd ⟨rfl, rfl⟩ hnot
      · rintro ⟨⟩
    · exact Iff.rfl
  · intro k' call y hcall' _ hy
    exact hne _ _ hy.stored rfl
  · intro _
    refine ⟨k, ⟨i, ref, false⟩, ?_, hi.symm, rfl⟩
    rw [hcalls, Browser.putCall, if_pos rfl]
  · rw [hhistory]
    exact fun id' hid => .inl hid
  · rw [hhistory]
    exact hc.once
  · intro id' _ hstored
    exact storedAs_take hc.sound h hstep hgoes ht rfl hstored (fun _ => hkeep id' _ hstored rfl)
  intro id' hid hcl
  exact hc.kept_take h hstep hgoes (by rintro _ ⟨⟩) ht
    (fun id'' _ hstored => hkeep id'' _ hstored rfl) id'
    (by rw [← hhistory]; exact hid) hcl

theorem Coherent.resolveConflict (hc : Coherent b) {i ref : Nat} {tab : Tab} {op op' : Operation}
    (htab : b.tabs i = some tab) (hget : tab.operations.get id = some ref)
    (hop : tab.heap[ref]? = some op) (hstatus : op.status = .conflict)
    (hnew : op'.status = .discarded ∨ op'.status = .queued)
    (hstep : InStep b move) (hgoes : GoesThrough b move)
    (hnone : move.enqueues = none) (ht : b.turn move = some t)
    (hi : t.tab = i) (hwrites : t.writes = true) (hbefore : t.before = tab)
    (hafter : t.after = tab.assign ref op') (hcalls : t.calls = b.calls)
    (hhistory : t.history = b.history) : Coherent (b.take t) := by
  have h := turns_of_turn ht
  have hwf := hc.sound.wf _ _ htab
  obtain ⟨x, hx, hxid⟩ := hwf id ref hget
  have hopid : op.id = id := by rw [some.inj (hop.symm.trans hx), hxid]
  have hold : t.before.status op.id = some .conflict := by
    rw [hbefore, hopid, ← hstatus]
    exact status_of_get hget hop
  have hne : ∀ id' st, b.storedAs id' st → isSettled st = true → id' ≠ op.id := by
    intro id' st hstored hst
    refine ne_of_settled hstep ht hwrites hstored hst hold ?_
    rintro rfl
    cases hst
  have hkeep : ∀ id' st, b.storedAs id' st → isSettled st = true →
      t.before.status id' = some st → t.after.status id' = some st := by
    intro id' st hstored hst hsame
    rw [hafter, status_assign_of_ne hwf hop (hne id' st hstored hst), ← hbefore, hsame]
  refine hc.assigns h (by rw [hi]; exact htab) hop hafter 0 ?_ ?_ ?_ ?_ ?_ ?_ ?_ ?_
  · intro k call hcall htabs hrefs
    rw [hcalls] at hcall
    obtain ⟨y, hy⟩ := hc.calls k call hcall
    have hobject := hy.object
    rw [htabs.trans hi, hrefs, object_tab htab, hop] at hobject
    rw [← some.inj hobject] at hy
    cases hstatus.symm.trans hy.status
  · intro k call _
    rw [hcalls]
  · intro k call y _ _ hy
    exact hne _ _ hy.stored rfl
  · intro hflight
    rcases hnew with heq | heq
    · cases heq.symm.trans hflight
    · cases heq.symm.trans hflight
  · rw [hhistory]
    exact fun id' hid => .inl hid
  · rw [hhistory]
    exact hc.once
  · intro id' _ hstored
    exact storedAs_take hc.sound h hstep hgoes ht rfl hstored (fun _ => hkeep id' _ hstored rfl)
  intro id' hid hcl
  refine hc.kept_take h hstep hgoes ?_ ht (fun id'' _ hstored => hkeep id'' _ hstored rfl) id'
    (by rw [← hhistory]; exact hid) hcl
  intro id'' hid''
  rw [hnone] at hid''
  cases hid''

theorem thrown_status (maxRetries : JsNumber) (op : Operation) (error : Option String) (now : Int) :
    (thrown maxRetries op error now).status ≠ .inFlight := by
  cases error with
  | none =>
    show (if _ then Status.failed else .queued) ≠ .inFlight
    split
    · exact nofun
    · exact nofun
  | some message =>
    show (if _ then Status.failed else .queued) ≠ .inFlight
    split
    · exact nofun
    · exact nofun

/-- **ONE MOVE**: in step with storage, the marks stay true. -/
theorem Coherent.step (hc : Coherent b) (hstep : InStep b move)
    (hgoes : GoesThrough b move) (hfresh : FreshId b move) : Coherent (b.step move) := by
  rw [Browser.step]
  split
  · exact hc
  rename_i t ht
  cases turns_of_turn ht with
  | openTab hnew => exact hc.openTab hnew hstep hgoes ht rfl rfl rfl rfl rfl
  | enqueue htab => exact hc.enqueue htab hstep hgoes hfresh ht rfl rfl rfl rfl rfl
  | begin hfree htab hget hop hstatus =>
    exact hc.begin hfree htab hget hop hstatus hstep hgoes ht rfl rfl rfl rfl rfl rfl
  | conflicted hheld =>
    exact hc.fails hheld hstep hgoes rfl ht rfl rfl rfl rfl rfl (by rintro ⟨⟩)
  | executing hheld => exact hc.executing hheld ht rfl rfl rfl rfl rfl
  | resolved hheld => exact hc.resolved hheld hstep hgoes ht rfl rfl rfl rfl rfl rfl
  | threw hheld =>
    exact hc.fails hheld hstep hgoes rfl ht rfl rfl rfl rfl rfl (thrown_status _ _ _ _)
  | deliver htab => exact hc.deliver htab ht rfl rfl rfl rfl rfl
  | resolveConflict htab hget hop hstatus hid hnew =>
    exact hc.resolveConflict htab hget hop hstatus hnew hstep hgoes rfl ht rfl rfl rfl rfl rfl rfl
  | clearCompleted htab =>
    exact hc.clearCompleted htab hstep hgoes ht rfl rfl rfl rfl rfl
      (fun id hid => mem_append_right _ hid)

end Step

/-- **WHEN NO OPERATION IS EXECUTED TWICE**: in every run whose tabs are in
    step with storage when they write. -/
theorem executed_once (refuses : Nat → Bool) (moves : List Move)
    (h : Along Browser.step (fun b move => InStep b move ∧ GoesThrough b move ∧ FreshId b move)
      (.empty refuses) moves) :
    Along Browser.step (fun b move =>
      ExecutedOnce (b.step move) ∧ StaysCommitted (b.step move))
      (.empty refuses) moves := by
  refine Along.imp (I := Coherent) ?_ (coherent_empty refuses) h
  intro b move hc ⟨hstep, hgoes, hfresh⟩
  have hc' := hc.step hstep hgoes hfresh
  exact ⟨⟨hc'.once, hc'.kept⟩, hc'⟩

/-! ## Samples -/

section Samples

instance (b : Browser) : Decidable (ExecutedOnce b) :=
  inferInstanceAs (Decidable (b.history.completed.Nodup))

instance (b : Browser) (move : Move) : Decidable (InStep b move) :=
  inferInstanceAs (Decidable (∀ t ∈ b.turn move, t.writes = true →
    (∀ item ∈ b.storage.getD [], isSettled item.status = true →
      t.before.status item.id = some item.status)
    ∧ ∀ id ∈ t.before.operations.keys, id ∉ b.history.cleared))

instance (b : Browser) (move : Move) : Decidable (GoesThrough b move) :=
  inferInstanceAs (Decidable (∀ t ∈ b.turn move, t.writes = true → t.written.isSome = true))

instance (b : Browser) (move : Move) : Decidable (FreshId b move) :=
  inferInstanceAs (Decidable (∀ id ∈ move.enqueues, id ∉ b.history.enqueued))

/-- The entity is as the operation expects it. -/
def sampleState : EntityState := ⟨some 1, some "PENDING"⟩

/-- Two tabs; the second hears of everything before it works in turn. -/
def politeMoves : List Move :=
  [.openTab 0 3, .openTab 1 3, .enqueue 0 (sampleRequest "a") 0, .deliver 1,
    .begin 0 0 "a" 1, .fetched 0 (some sampleState) 1, .deliver 1,
    .resolved 0 .undefined 2, .deliver 1, .begin 1 1 "a" 3,
    .clearCompleted 1, .deliver 0]

theorem executed_once_polite : Along Browser.step (fun b move =>
      ExecutedOnce (b.step move) ∧ StaysCommitted (b.step move))
      .empty politeMoves :=
  executed_once _ politeMoves (by decide +kernel)

/-- The message of the first tab's call arrives while that call runs. -/
def racingMoves : List Move :=
  [.openTab 0 3, .openTab 1 3, .enqueue 0 (sampleRequest "a") 0, .deliver 1,
    .begin 0 0 "a" 1, .deliver 1, .begin 1 1 "a" 1,
    .fetched 0 (some sampleState) 2, .fetched 1 (some sampleState) 2,
    .resolved 0 .undefined 3, .resolved 1 .undefined 3]

/-- **AN OPERATION IS EXECUTED TWICE**: the reload queues it again while the
    call of the other tab is in flight. -/
theorem executed_twice : ¬ Along Browser.step (fun b move => ExecutedOnce (b.step move))
      .empty racingMoves := by
  decide +kernel

end Samples

end OperationQueue
