import Inqutum.ContentSafetyProofs
import Mathlib.Data.List.Chain

/-!
# Sanitised text

What `sanitizePlainText` returns has no tag, no control character and no
direction character, and on one line no white space but single spaces
(`sanitized_inert`).

The passes after normalisation change nothing on what they return
(`passes_passes`), but what they remove may bring characters together
that normalisation composes.  Sanitising twice is sanitising once, and
gives a normal text, exactly if the text that the removals leave is normal
(`sanitize_twice_iff`).
-/

namespace ContentSafety

open JsText (isSpace trimChars)
open List

/-- No tag starts. -/
def Inert (cs : List Char) : Prop := cs.IsChain (fun a b => a = '<' → opensTag b = false)

/-- The text without the removed characters and the markup. -/
def stripped (cs : List Char) : List Char :=
  stripMarkup (cs.filter (fun c => !isControl c && !isBidiControl c))

/-- Everything that follows normalisation. -/
def passes (multiline : Bool) (cs : List Char) : List Char :=
  trimChars (tidy multiline (stripped cs))

variable {cs ds : List Char} {p : Char → Bool} {c : Char}

theorem sanitizePlainText_eq (normalize : String → String) (multiline : Bool) (input : String) :
    sanitizePlainText normalize multiline input
      = String.ofList (passes multiline (normalize input).toList) := by
  rw [sanitizePlainText, JsText.trim, String.toList_ofList]
  rfl

/-! ## Markup -/

theorem inert_cons (hc : c = '<' → ∀ d ∈ cs.head?, opensTag d = false) (h : Inert cs) :
    Inert (c :: cs) :=
  isChain_cons.mpr ⟨fun d hd heq => hc heq d hd, h⟩

theorem inert_of_length (inside : Bool) (hinside : inside = false)
    (h : (stripTags inside cs).length = cs.length) : Inert cs := by
  fun_induction stripTags inside cs with
  | case1 => exact .nil
  | case2 => exact .singleton _
  | case3 c rest _ ih =>
    have hle := (stripTags_sublist true rest).length_le
    simp only [length_cons] at h
    omega
  | case4 c rest hopens ih =>
    refine inert_cons (fun _ => ?_) (ih rfl (Nat.succ.inj h))
    simpa using hopens
  | case5 c rest hone hmore ih =>
    refine inert_cons (fun heq => ?_) (ih rfl (Nat.succ.inj h))
    cases rest with
    | nil => exact absurd rfl (hone heq)
    | cons d rest => exact absurd rfl (hmore d rest heq)
  | case6 => cases hinside
  | case7 => cases hinside

theorem inert_stripMarkup (cs : List Char) : Inert (stripMarkup cs) := by
  have hstable := congrArg length (stripMarkup_stable cs)
  have hcomments := stripComments_sublist false (stripMarkup cs)
  have hlen : (stripComments false (stripMarkup cs)).length = (stripMarkup cs).length :=
    le_antisymm hcomments.length_le (hstable ▸ (stripTags_sublist false _).length_le)
  rw [stripRound, hcomments.eq_of_length hlen] at hstable
  exact inert_of_length false rfl hstable

theorem stripTags_of_inert (inside : Bool) (hinside : inside = false) (h : Inert cs) :
    stripTags inside cs = cs := by
  fun_induction stripTags inside cs with
  | case1 => rfl
  | case2 => rfl
  | case3 c rest hopens ih =>
    have hclosed := (isChain_cons.mp h).1 c rfl rfl
    exact absurd (hclosed.symm.trans hopens) Bool.false_ne_true
  | case4 c rest _ ih => rw [ih rfl h.tail]
  | case5 c rest _ _ ih => rw [ih rfl h.tail]
  | case6 => cases hinside
  | case7 => cases hinside

theorem stripComments_of_inert (inside : Bool) (hinside : inside = false) (h : Inert cs) :
    stripComments inside cs = cs := by
  fun_induction stripComments inside cs with
  | case1 => rfl
  | case2 rest ih => exact absurd ((isChain_cons.mp h).1 '!' rfl rfl) (by decide)
  | case3 c rest _ ih => rw [ih rfl h.tail]
  | case4 => cases hinside
  | case5 => cases hinside

theorem stripMarkup_of_inert (h : Inert cs) : stripMarkup cs = cs := by
  rw [stripMarkup, stripLoop, if_pos]
  rw [stripRound, stripComments_of_inert false rfl h, stripTags_of_inert false rfl h]

theorem stripMarkup_rounds (cs : List Char) : ∃ n, stripMarkup cs = stripRound^[n] cs := by
  rw [stripMarkup]
  generalize cs.length + 1 = fuel
  induction fuel generalizing cs with
  | zero => exact ⟨0, rfl⟩
  | succ fuel ih =>
    rw [stripLoop]
    split
    · exact ⟨0, rfl⟩
    obtain ⟨n, hn⟩ := ih (stripRound cs)
    exact ⟨n + 1, hn⟩

theorem stripMarkup_sublist (cs : List Char) : (stripMarkup cs).Sublist cs := by
  obtain ⟨n, hn⟩ := stripMarkup_rounds cs
  rw [hn]
  clear hn
  induction n generalizing cs with
  | zero => exact .refl cs
  | succ n ih => exact (ih _).trans (stripRound_sublist cs)

/-! ## White space -/

/-- The second text is the first with other white space: a run is replaced by
    a run.  The flag says that a run has just been met. -/
inductive Respaced : Bool → List Char → List Char → Prop where
  | nil (after : Bool) : Respaced after [] []
  | keep (after : Bool) (c : Char) {cs ds : List Char} :
    Respaced (isSpace c) cs ds → Respaced after (c :: cs) (c :: ds)
  | swap (after : Bool) {c d : Char} {cs ds : List Char} : isSpace c = true →
    d = ' ' ∨ d = '\n' → Respaced true cs ds → Respaced after (c :: cs) (d :: ds)
  | drop {c : Char} {cs ds : List Char} : isSpace c = true →
    Respaced true cs ds → Respaced true (c :: cs) ds

theorem respaced_collapse (hp : ∀ c, p c = true → isSpace c = true) (after : Bool)
    (cs : List Char) : Respaced after cs (collapse p cs) ∧ ∀ c rest, cs = c :: rest → p c = true →
        ∃ tail, collapse p cs = ' ' :: tail ∧ Respaced true rest tail := by
  induction cs generalizing after with
  | nil => exact ⟨.nil after, nofun⟩
  | cons c rest ih =>
    by_cases hc : p c = true
    · have hrun : ∃ tail, collapse p (c :: rest) = ' ' :: tail ∧ Respaced true rest tail := by
        unfold collapse
        rw [if_pos hc]
        cases rest with
        | nil => exact ⟨[], rfl, .nil _⟩
        | cons d rest =>
          by_cases hd : p d = true
          · obtain ⟨tail, htail, hrest⟩ := (ih true).2 d rest rfl hd
            exact ⟨tail, by simp only [if_pos hd, htail], .drop (hp d hd) hrest⟩
          · exact ⟨_, by simp only [if_neg hd], (ih true).1⟩
      obtain ⟨tail, htail, hrest⟩ := hrun
      refine ⟨htail ▸ .swap after (hp c hc) (.inl rfl) hrest, ?_⟩
      rintro _ _ ⟨⟩ -
      exact ⟨tail, htail, hrest⟩
    · unfold collapse
      rw [if_neg hc]
      refine ⟨.keep after c (ih _).1, ?_⟩
      rintro _ _ ⟨⟩ hc'
      exact absurd hc' hc

theorem respaced_unifyBreaks (after : Bool) (cs : List Char) :
    Respaced after cs (unifyBreaks cs) := by
  fun_induction unifyBreaks cs generalizing after with
  | case1 => exact .nil after
  | case2 rest ih => exact .swap after rfl (.inr rfl) (.drop rfl (ih true))
  | case3 rest _ ih => exact .swap after rfl (.inr rfl) (ih true)
  | case4 c rest _ _ ih => exact .keep after c (ih _)

theorem respaced_limitBreaks (after : Bool) (n : Nat) (hn : n ≠ 0 → after = true)
    (cs : List Char) : Respaced after cs (limitBreaks n cs) := by
  fun_induction limitBreaks n cs generalizing after with
  | case1 => exact .nil after
  | case2 n rest hlt ih => exact .keep after _ (ih _ fun _ => rfl)
  | case3 n rest hge ih =>
    obtain rfl := hn (by omega)
    exact .drop rfl (ih true fun _ => rfl)
  | case4 n c rest hc ih => exact .keep after c (ih _ (absurd rfl))

theorem Respaced.head {after : Bool} (h : Respaced after cs ds) (hafter : after = false) :
    ∀ d ∈ ds.head?, d = ' ' ∨ d = '\n' ∨ d ∈ cs.head? := by
  cases h with
  | nil => simp
  | keep _ c hrest => simp
  | swap _ hc hd hrest => simpa using hd.imp_right .inl
  | drop => cases hafter

theorem Respaced.inert {after : Bool} (h : Respaced after cs ds) (hcs : Inert cs) : Inert ds := by
  induction h with
  | nil => exact hcs
  | keep after c hrest ih =>
    obtain ⟨hhead, htail⟩ := isChain_cons.mp hcs
    refine inert_cons (fun heq d hd => ?_) (ih htail)
    rcases hrest.head (heq ▸ rfl) d hd with rfl | rfl | hd
    · rfl
    · rfl
    · exact hhead d hd heq
  | swap after hc hd hrest ih =>
    refine inert_cons (fun heq => ?_) (ih hcs.tail)
    rcases hd with rfl | rfl <;> cases heq
  | drop hc hrest ih => exact ih hcs.tail

theorem Respaced.mem {after : Bool} (h : Respaced after cs ds) (hd : c ∈ ds) :
    c ∈ cs ∨ c = ' ' ∨ c = '\n' := by
  induction h with
  | nil => exact .inl hd
  | keep after b hrest ih => grind
  | swap after hc hd hrest ih => grind
  | drop hc hrest ih => grind

/-- What a run of blanks is made of. -/
def isBlank (multiline : Bool) (c : Char) : Bool :=
  if multiline then c == ' ' || c == '\t' else isSpace c

theorem isSpace_of_isBlank {multiline : Bool} (h : isBlank multiline c = true) :
    isSpace c = true := by
  cases multiline with
  | false => exact h
  | true => rcases Bool.or_eq_true_iff.mp h with h | h <;> rw [beq_iff_eq.mp h] <;> rfl

/-- What carries over from a text to the tidy text does so through its three
    passes. -/
theorem tidy_of_respaced {P : List Char → Prop}
    (hP : ∀ {cs ds}, Respaced false cs ds → P cs → P ds) (multiline : Bool) (h : P cs) :
    P (tidy multiline cs) := by
  rw [tidy]
  split
  · refine hP (respaced_limitBreaks false 0 (absurd rfl) _)
      (hP (respaced_collapse (fun _ => @isSpace_of_isBlank _ true) false _).1
        (hP (respaced_unifyBreaks false _) h))
  · exact hP (respaced_collapse (fun _ => id) false _).1 h

/-- Trimming takes away white space at the ends. -/
theorem trimChars_infix (cs : List Char) : ∃ front back, cs = front ++ trimChars cs ++ back
    ∧ (∀ c ∈ front, isSpace c = true) ∧ ∀ c ∈ back, isSpace c = true := by
  have hspace : ∀ {l : List Char}, ∀ c ∈ l.takeWhile isSpace, isSpace c = true :=
    fun c hc => mem_takeWhile_imp hc
  refine ⟨cs.takeWhile isSpace, ((cs.dropWhile isSpace).reverse.takeWhile isSpace).reverse, ?_,
    hspace, fun c hc => hspace c (mem_reverse.mp hc)⟩
  rw [trimChars, JsText.trimEnd, append_assoc, ← reverse_append,
    takeWhile_append_dropWhile, reverse_reverse, takeWhile_append_dropWhile]

/-! ## Tidy texts -/

/-- Blanks are spaces, and no two of them stand side by side. -/
def Collapsed (p : Char → Bool) (cs : List Char) : Prop :=
  cs.IsChain (fun a b => p a = true → p b = false) ∧ ∀ c ∈ cs, p c = true → c = ' '

/-- At most two line breaks stand side by side; the number counts those before
    the text. -/
def Limited : Nat → List Char → Prop
  | _, [] => True
  | n, c :: rest => if c = '\n' then n < 2 ∧ Limited (n + 1) rest else Limited 0 rest

/-- What a tidy text is. -/
structure Tidied (multiline : Bool) (cs : List Char) : Prop where
  collapsed : Collapsed (isBlank multiline) cs
  breaks : multiline = true → '\r' ∉ cs ∧ Limited 0 cs

theorem collapsed_collapse (cs : List Char) : Collapsed p (collapse p cs) := by
  fun_induction collapse p cs with
  | case1 => exact ⟨.nil, by simp⟩
  | case2 c hc => exact ⟨.singleton _, by simp⟩
  | case3 c hc d rest hd ih => exact ih
  | case4 c hc d rest hd ih =>
    refine ⟨isChain_cons.mpr ⟨fun e he _ => ?_, ih.1⟩, by simpa using ih.2⟩
    unfold collapse at he
    rw [if_neg hd] at he
    cases he
    exact Bool.eq_false_iff.mpr hd
  | case5 c rest hc ih =>
    refine ⟨isChain_cons.mpr ⟨fun e he hp => absurd hp hc, ih.1⟩, ?_⟩
    simpa [hc] using ih.2

theorem collapse_of_collapsed (h : Collapsed p cs) : collapse p cs = cs := by
  obtain ⟨hchain, hspace⟩ := h
  fun_induction collapse p cs with
  | case1 => rfl
  | case2 c hc => rw [hspace c (.head _) hc]
  | case3 c hc d rest hd ih =>
    exact absurd (((isChain_cons.mp hchain).1 d rfl hc).symm.trans hd) Bool.false_ne_true
  | case4 c hc d rest hd ih =>
    rw [ih hchain.tail fun e he => hspace e (.tail _ he), hspace c (.head _) hc]
  | case5 c rest hc ih => rw [ih hchain.tail fun e he => hspace e (.tail _ he)]

theorem unifyBreaks_of_not_mem (h : '\r' ∉ cs) : unifyBreaks cs = cs := by
  fun_induction unifyBreaks cs with
  | case1 => rfl
  | case2 rest ih => exact absurd (.head _) h
  | case3 rest _ ih => exact absurd (.head _) h
  | case4 c rest _ _ ih => rw [ih fun hr => h (.tail _ hr)]

theorem not_mem_unifyBreaks (cs : List Char) : '\r' ∉ unifyBreaks cs := by
  fun_induction unifyBreaks cs with
  | case1 => exact not_mem_nil
  | case2 rest ih => simpa using ih
  | case3 rest _ ih => simpa using ih
  | case4 c rest _ hc ih => grind

theorem limitBreaks_of_limited {n : Nat} (h : Limited n cs) : limitBreaks n cs = cs := by
  fun_induction limitBreaks n cs with
  | case1 => rfl
  | case2 n rest hlt ih => rw [ih (by simpa [Limited, hlt] using h)]
  | case3 n rest hge ih => exact absurd (by simpa [Limited] using h : _ ∧ _).1 hge
  | case4 n c rest hc ih => rw [ih (by simpa [Limited, hc] using h)]

theorem limited_limitBreaks (n : Nat) (cs : List Char) : Limited n (limitBreaks n cs) := by
  fun_induction limitBreaks n cs with
  | case1 => trivial
  | case2 n rest hlt ih => simpa [Limited, hlt] using ih
  | case3 n rest hge ih => exact ih
  | case4 n c rest hc ih => simpa [Limited, hc] using ih

theorem limitBreaks_sublist (n : Nat) (cs : List Char) : (limitBreaks n cs).Sublist cs := by
  fun_induction limitBreaks n cs with
  | case1 => exact .refl []
  | case2 n rest hlt ih => exact ih.cons_cons _
  | case3 n rest hge ih => exact ih.cons _
  | case4 n c rest hc ih => exact ih.cons_cons c

theorem head_limitBreaks (cs : List Char) : (limitBreaks 0 cs).head? = cs.head? := by
  cases cs with
  | nil => rfl
  | cons c rest =>
    rw [limitBreaks]
    split <;> rfl

theorem collapsed_limitBreaks (hp : p '\n' = false) (n : Nat) (h : Collapsed p cs) :
    Collapsed p (limitBreaks n cs) := by
  refine ⟨?_, fun c hc => h.2 c ((limitBreaks_sublist n cs).subset hc)⟩
  have hchain := h.1
  clear h
  fun_induction limitBreaks n cs with
  | case1 => exact .nil
  | case2 n rest hlt ih =>
    refine isChain_cons.mpr ⟨fun d _ hbreak => ?_, ih hchain.tail⟩
    exact absurd (hp.symm.trans hbreak) Bool.false_ne_true
  | case3 n rest hge ih => exact ih hchain.tail
  | case4 n c rest hc ih =>
    refine isChain_cons.mpr ⟨fun d hd => ?_, ih hchain.tail⟩
    exact (isChain_cons.mp hchain).1 d (head_limitBreaks rest ▸ hd)

theorem Limited.left {n m : Nat} {back : List Char} (h : Limited n (cs ++ back)) (hm : m ≤ n) :
    Limited m cs := by
  induction cs generalizing n m with
  | nil => trivial
  | cons c rest ih =>
    rw [cons_append, Limited] at h
    rw [Limited]
    by_cases hc : c = '\n'
    · rw [if_pos hc] at h ⊢
      exact ⟨hm.trans_lt h.1, ih h.2 (Nat.succ_le_succ hm)⟩
    rw [if_neg hc] at h ⊢
    exact ih h le_rfl

theorem Limited.right {n : Nat} {front : List Char} (h : Limited n (front ++ cs)) :
    ∃ m, Limited m cs := by
  induction front generalizing n with
  | nil => exact ⟨n, h⟩
  | cons c rest ih =>
    rw [cons_append, Limited] at h
    split at h
    · exact ih h.2
    · exact ih h

theorem Tidied.part {multiline : Bool} {front back : List Char}
    (h : Tidied multiline (front ++ cs ++ back)) : Tidied multiline cs := by
  have hmem : ∀ {c}, c ∈ cs → c ∈ front ++ cs ++ back := fun hc =>
    mem_append_left _ (mem_append_right _ hc)
  refine ⟨⟨h.collapsed.1.left_of_append.right_of_append, fun c hc => h.collapsed.2 c (hmem hc)⟩,
    fun hm => ⟨fun hr => (h.breaks hm).1 (hmem hr), ?_⟩⟩
  obtain ⟨m, hlimited⟩ := (append_assoc _ cs _ ▸ (h.breaks hm).2).right
  exact hlimited.left (Nat.zero_le m)

theorem tidied_tidy (multiline : Bool) (cs : List Char) : Tidied multiline (tidy multiline cs) := by
  cases multiline with
  | false => exact ⟨collapsed_collapse cs, nofun⟩
  | true =>
    have hcollapsed : Collapsed (isBlank true) (collapse (isBlank true) (unifyBreaks cs)) :=
      collapsed_collapse _
    refine ⟨collapsed_limitBreaks rfl 0 hcollapsed, fun _ => ⟨fun hr => ?_, limited_limitBreaks 0 _⟩⟩
    have hspaced := (@respaced_collapse (isBlank true) (fun _ => isSpace_of_isBlank) false
      (unifyBreaks cs)).1
    rcases hspaced.mem ((limitBreaks_sublist 0 _).subset hr) with hmem | hmem | hmem
    · exact not_mem_unifyBreaks cs hmem
    · cases hmem
    · cases hmem

theorem tidy_of_tidied {multiline : Bool} (h : Tidied multiline cs) : tidy multiline cs = cs := by
  cases multiline with
  | false => exact collapse_of_collapsed h.collapsed
  | true =>
    obtain ⟨hbreaks, hlimited⟩ := h.breaks rfl
    rw [tidy, if_pos rfl, unifyBreaks_of_not_mem hbreaks]
    exact (congrArg _ (collapse_of_collapsed h.collapsed)).trans (limitBreaks_of_limited hlimited)

/-! ## Sanitised texts -/

theorem tidied_passes (multiline : Bool) (cs : List Char) :
    Tidied multiline (passes multiline cs) := by
  obtain ⟨front, back, heq, -⟩ := trimChars_infix (tidy multiline (stripped cs))
  exact (heq ▸ tidied_tidy multiline (stripped cs) : Tidied multiline (front ++ _ ++ back)).part

theorem inert_passes (multiline : Bool) (cs : List Char) : Inert (passes multiline cs) := by
  have hinert : Inert (tidy multiline (stripped cs)) :=
    tidy_of_respaced Respaced.inert multiline (inert_stripMarkup _)
  obtain ⟨front, back, heq, -⟩ := trimChars_infix (tidy multiline (stripped cs))
  rw [heq] at hinert
  exact hinert.left_of_append.right_of_append

theorem clean_passes (multiline : Bool) (cs : List Char) :
    ∀ c ∈ passes multiline cs, isControl c = false ∧ isBidiControl c = false := by
  have hclean : ∀ c ∈ stripped cs, isControl c = false ∧ isBidiControl c = false := fun c hc => by
    simpa using (mem_filter.mp ((stripMarkup_sublist _).subset hc)).2
  have htidy : ∀ c ∈ tidy multiline (stripped cs), isControl c = false ∧ isBidiControl c = false :=
    tidy_of_respaced (P := fun cs => ∀ c ∈ cs, isControl c = false ∧ isBidiControl c = false) ?_
      multiline hclean
  · obtain ⟨front, back, heq, -⟩ := trimChars_infix (tidy multiline (stripped cs))
    intro c hc
    refine htidy c ?_
    rw [heq]
    exact mem_append_left _ (mem_append_right _ hc)
  intro cs ds h hcs c hc
  rcases h.mem hc with hc | rfl | rfl
  · exact hcs c hc
  · decide
  · decide

/-- **A SECOND TIME NOTHING CHANGES** but for normalisation. -/
theorem passes_passes (multiline : Bool) (cs : List Char) :
    passes multiline (passes multiline cs) = passes multiline cs := by
  have hvisible : (passes multiline cs).filter (fun c => !isControl c && !isBidiControl c)
      = passes multiline cs := by
    refine filter_eq_self.mpr fun c hc => ?_
    rw [(clean_passes multiline cs c hc).1, (clean_passes multiline cs c hc).2]
    rfl
  conv_lhs => rw [passes, stripped, hvisible, stripMarkup_of_inert (inert_passes multiline cs),
    tidy_of_tidied (tidied_passes multiline cs), passes]
  exact JsText.trimChars_trimChars _

def isLineBreak (c : Char) : Bool := ['\n', '\r', '\u2028', '\u2029'].contains c

/-- **SANITISED TEXT IS INERT**: the loop ends on a text without markup, no
    character that was removed is back, and on one line white space is single
    spaces. -/
theorem sanitized_inert (normalize : String → String) (multiline : Bool) (input : String) :
    let visible := (normalize input).toList.filter (fun c => !isControl c && !isBidiControl c)
    let output := (sanitizePlainText normalize multiline input).toList
    (∃ n, stripMarkup visible = stripRound^[n] visible
        ∧ stripRound^[n + 1] visible = stripRound^[n] visible)
      ∧ output.IsChain (fun a b => ¬ (a = '<' ∧ opensTag b = true))
      ∧ (∀ c ∈ output, isControl c = false ∧ isBidiControl c = false)
      ∧ (multiline = false → (∀ c ∈ output, isLineBreak c = false)
        ∧ output.IsChain (fun a b => ¬ (isSpace a = true ∧ isSpace b = true))) := by
  intro visible output
  have houtput : output = passes multiline (normalize input).toList := by
    rw [← @String.toList_ofList (passes _ _), ← sanitizePlainText_eq]
  rw [houtput]
  refine ⟨?_, (inert_passes _ _).imp fun a b h hboth => ?_, clean_passes _ _, ?_⟩
  · obtain ⟨n, hn⟩ := stripMarkup_rounds visible
    refine ⟨n, hn, ?_⟩
    rw [Function.iterate_succ_apply', ← hn]
    exact stripMarkup_stable visible
  · exact Bool.false_ne_true ((h hboth.1).symm.trans hboth.2)
  rintro rfl
  obtain ⟨hchain, hspace⟩ := (tidied_passes false (normalize input).toList).collapsed
  refine ⟨fun c hc => ?_, hchain.imp fun a b h hboth => ?_⟩
  · by_contra hbreak
    rw [Bool.not_eq_false] at hbreak
    have hmem := contains_iff_mem.mp hbreak
    have hsp : isSpace c = true :=
      (by simp [isSpace] : ∀ c ∈ ['\n', '\r', '\u2028', '\u2029'], isSpace c = true) c hmem
    rw [hspace c hc hsp] at hmem
    exact absurd hmem (by decide)
  · exact absurd hboth.2 (by rw [show isSpace b = false from h hboth.1]; exact Bool.false_ne_true)

example : sanitizePlainText id false "a\u200B <<b>i>  b " = "a b" := by decide

/-! ## Sanitising twice -/

/-- The text is in the normal form. -/
def Normal (normalize : String → String) (cs : List Char) : Prop :=
  normalize (String.ofList cs) = String.ofList cs

/-- What the normal form promises: it is closed under parts, and nothing
    composes across white space. -/
structure LawfulNormalize (normalize : String → String) : Prop where
  twice : ∀ s, normalize (normalize s) = normalize s
  part : ∀ front cs back, Normal normalize (front ++ cs ++ back) → Normal normalize cs
  space : ∀ front c back, isSpace c = true → Normal normalize front → Normal normalize [c] →
    Normal normalize back → Normal normalize (front ++ c :: back)
  ascii : ∀ c : Char, c.toNat < 128 → Normal normalize [c]

section Twice

variable {normalize : String → String} (h : LawfulNormalize normalize)

include h

theorem normal_space {front back : List Char} (hc : isSpace c = true) (hn : Normal normalize [c]) :
    Normal normalize (front ++ c :: back) ↔ Normal normalize front ∧ Normal normalize back := by
  refine ⟨fun hall => ⟨h.part [] front (c :: back) hall, h.part (front ++ [c]) back [] ?_⟩,
    fun hboth => h.space front c back hc hboth.1 hn hboth.2⟩
  rwa [append_nil, append_assoc]

theorem normal_nil : Normal normalize [] := h.part [] [] [' '] (h.ascii ' ' (by decide))

theorem normal_char {cs : List Char} (hn : Normal normalize cs) :
    ∀ c ∈ cs, Normal normalize [c] := by
  intro c hc
  obtain ⟨front, back, rfl⟩ := append_of_mem hc
  exact h.part front [c] back (by rwa [append_assoc])

theorem normal_newSpace (hc : c = ' ' ∨ c = '\n') : isSpace c = true ∧ Normal normalize [c] := by
  rcases hc with rfl | rfl
  · exact ⟨rfl, h.ascii _ (by decide)⟩
  · exact ⟨rfl, h.ascii _ (by decide)⟩

theorem Respaced.normal {after : Bool} (hr : Respaced after cs ds)
    (hn : ∀ c ∈ cs, Normal normalize [c]) (front : List Char) (hfront : after = true → front = []) :
    Normal normalize (front ++ cs) ↔ Normal normalize (front ++ ds) := by
  induction hr generalizing front with
  | nil => rfl
  | keep after c hrest ih =>
    obtain ⟨hc, htail⟩ := forall_mem_cons.mp hn
    by_cases hspace : isSpace c = true
    · rw [normal_space h hspace hc, normal_space h hspace hc]
      exact and_congr_right fun _ => ih htail [] fun _ => rfl
    have hmove := ih htail (front ++ [c]) fun hc => absurd hc hspace
    rwa [append_assoc, append_assoc] at hmove
  | swap after hc hd hrest ih =>
    obtain ⟨hnew, hnormal⟩ := normal_newSpace h hd
    rw [normal_space h hc (hn _ (.head _)), normal_space h hnew hnormal]
    exact and_congr_right fun _ => ih (fun e he => hn e (.tail _ he)) [] fun _ => rfl
  | drop hc hrest ih =>
    rw [hfront rfl, normal_space h hc (hn _ (.head _))]
    exact (and_iff_right (normal_nil h)).trans (ih (fun e he => hn e (.tail _ he)) [] fun _ => rfl)

theorem normal_lead {front : List Char} (hfront : ∀ c ∈ front, isSpace c = true)
    (hn : ∀ c ∈ front, Normal normalize [c]) (hcs : Normal normalize cs) :
    Normal normalize (front ++ cs) := by
  induction front with
  | nil => exact hcs
  | cons c rest ih =>
    exact h.space [] c _ (hfront c (.head _)) (normal_nil h) (hn c (.head _))
      (ih (fun d hd => hfront d (.tail _ hd)) fun d hd => hn d (.tail _ hd))

theorem normal_trimChars (hn : ∀ c ∈ cs, Normal normalize [c]) :
    Normal normalize (trimChars cs) ↔ Normal normalize cs := by
  obtain ⟨front, back, heq, hfront, hback⟩ := trimChars_infix cs
  refine ⟨fun htrim => ?_, fun hcs => h.part front _ back (heq ▸ hcs)⟩
  generalize trimChars cs = kept at heq htrim
  subst heq
  rw [append_assoc]
  refine normal_lead h hfront (fun c hc => hn c (by simp [hc])) ?_
  cases back with
  | nil => rwa [append_nil]
  | cons c rest =>
    rw [normal_space h (hback c (.head _)) (hn c (by simp))]
    refine ⟨htrim, ?_⟩
    rw [← append_nil rest]
    exact normal_lead h (fun d hd => hback d (.tail _ hd)) (fun d hd => hn d (by simp [hd]))
      (normal_nil h)

/-- **SANITISING TWICE** is sanitising once, with a normal result, exactly if
    what the removals leave of the normalised text is normal. -/
theorem sanitize_twice_iff (multiline : Bool) (input : String) :
    (sanitizePlainText normalize multiline (sanitizePlainText normalize multiline input)
        = sanitizePlainText normalize multiline input
      ∧ normalize (sanitizePlainText normalize multiline input)
        = sanitizePlainText normalize multiline input)
      ↔ Normal normalize (stripped (normalize input).toList) := by
  have hstart : Normal normalize (normalize input).toList := by
    rw [Normal, String.ofList_toList, h.twice]
  have hchars : ∀ c ∈ stripped (normalize input).toList, Normal normalize [c] := fun c hc =>
    normal_char h hstart c (mem_of_mem_filter ((stripMarkup_sublist _).subset hc))
  have htidy := tidy_of_respaced (P := fun cs => (∀ c ∈ cs, Normal normalize [c])
      ∧ (Normal normalize cs ↔ Normal normalize (stripped (normalize input).toList))) ?_ multiline
    ⟨hchars, Iff.rfl⟩
  · have hpasses := (normal_trimChars h htidy.1).trans htidy.2
    rw [← hpasses, sanitizePlainText_eq, sanitizePlainText_eq]
    refine ⟨And.right, fun hn => ⟨?_, hn⟩⟩
    rw [show normalize (String.ofList (passes multiline _)) = _ from hn, String.toList_ofList]
    exact congrArg String.ofList (passes_passes multiline _)
  intro cs ds hr hcs
  refine ⟨fun c hc => ?_, (hr.normal h hcs.1 [] fun _ => rfl).symm.trans hcs.2⟩
  rcases hr.mem hc with hc | hc
  · exact hcs.1 c hc
  · exact (normal_newSpace h hc).2

end Twice

theorem sanitize_twice_sample : sanitizePlainText id false (sanitizePlainText id false "a \t<b>c")
      = sanitizePlainText id false "a \t<b>c"
    ∧ id (sanitizePlainText id false "a \t<b>c") = sanitizePlainText id false "a \t<b>c" :=
  (sanitize_twice_iff ⟨fun _ => rfl, fun _ _ _ _ => rfl, fun _ _ _ _ _ _ _ => rfl, fun _ _ => rfl⟩
    false "a \t<b>c").mpr rfl

/-- An `e` and an acute accent make one character. -/
def composeAcute : List Char → List Char
  | 'e' :: '\u0301' :: rest => 'é' :: composeAcute rest
  | c :: rest => c :: composeAcute rest
  | [] => []

/-- A zero-width space between a letter and its accent. -/
theorem accent_composes_late :
    let normalize := fun s : String => String.ofList (composeAcute s.toList)
    sanitizePlainText normalize false "e\u200B\u0301" = "e\u0301"
      ∧ sanitizePlainText normalize false "e\u0301" = "é" := by
  decide +kernel

end ContentSafety
