import Mathlib.Logic.Relation

/-!
# Labelled runs and their induction rules

A transition system is a relation `R s e s'`: event `e` takes state `s` to
state `s'`.  `Run R s es s'` is a finite run along the events `es`.  Two
rules carry every whole-run result:

* `Run.invariant` — what one step preserves, a run preserves;
* `Run.split` — a run along `es ++ fs` passes through a state, so a fact
  about the state after a prefix of the events is a fact about a run.

For a total step function, `Along f P s es` says that `P` holds at every
step of the run, and `Along.imp` carries it over under an invariant.

`Latched set clear es` says that a flag is up after the events `es`;
`latched_concat` is how one more event moves it.
-/

namespace Transition

open List

variable {σ ε : Type}

/-- A finite run along a list of events. -/
inductive Run (R : σ → ε → σ → Prop) : σ → List ε → σ → Prop where
  | nil (s : σ) : Run R s [] s
  | cons {s s' s'' : σ} {e : ε} {es : List ε} : R s e s' → Run R s' es s'' → Run R s (e :: es) s''

variable {R : σ → ε → σ → Prop}

/-- A run along an append passes through an intermediate state. -/
theorem Run.split {s s'' : σ} {es fs : List ε} (h : Run R s (es ++ fs) s'') :
    ∃ s', Run R s es s' ∧ Run R s' fs s'' := by
  induction es generalizing s with
  | nil => exact ⟨s, Run.nil s, h⟩
  | cons e es ih =>
    cases h with
    | cons hstep hrest =>
      obtain ⟨s', h₁, h₂⟩ := ih hrest
      exact ⟨s', Run.cons hstep h₁, h₂⟩

variable {es : List ε} {f : σ → ε → σ} {P : σ → ε → Prop} {s : σ} {set clear : ε → Prop}
  {I : σ → Prop}

/-- **THE INVARIANT RULE**: a predicate preserved by every step is preserved
    by every run. -/
theorem Run.invariant {P : σ → Prop} (hstep : ∀ s e s', P s → R s e s' → P s')
    {s s' : σ} (hrun : Run R s es s') (h : P s) : P s' := by
  induction hrun with
  | nil s => exact h
  | cons hR _ ih => exact ih (hstep _ _ _ h hR)

/-- Run a partial step function along a list of events. -/
def exec (step : σ → ε → Option σ) : σ → List ε → Option σ
  | s, [] => some s
  | s, e :: es => (step s e).bind (fun s' => exec step s' es)

theorem Run.of_exec (step : σ → ε → Option σ) (s : σ) (es : List ε) {s' : σ}
    (h : exec step s es = some s') : Run (fun s e s' => step s e = some s') s es s' := by
  induction es generalizing s with
  | nil =>
    rw [← Option.some.inj h]
    exact Run.nil s
  | cons e es ih =>
    obtain ⟨s₁, hstep, hrest⟩ := Option.bind_eq_some_iff.mp h
    exact Run.cons hstep (ih s₁ hrest)

/-- A fact about every step of the run of a total step function. -/
def Along (f : σ → ε → σ) (P : σ → ε → Prop) : σ → List ε → Prop
  | _, [] => True
  | s, e :: es => P s e ∧ Along f P (f s e) es

instance Along.decidable {f : σ → ε → σ} {P : σ → ε → Prop}
    [∀ s e, Decidable (P s e)] (s : σ) : (es : List ε) → Decidable (Along f P s es)
  | [] => instDecidableTrue
  | e :: es =>
    have : Decidable (Along f P (f s e) es) := Along.decidable (f s e) es
    inferInstanceAs (Decidable (P s e ∧ Along f P (f s e) es))

/-- **THE STEPWISE RULE**: under an invariant, what follows from `P` at one
    step follows from `P` at every step of a run. -/
theorem Along.imp {P Q : σ → ε → Prop}
    (hstep : ∀ s e, I s → P s e → Q s e ∧ I (f s e)) (hI : I s) (h : Along f P s es) :
    Along f Q s es := by
  induction es generalizing s with
  | nil => exact trivial
  | cons e es ih =>
    obtain ⟨hP, hrest⟩ := h
    obtain ⟨hQ, hI'⟩ := hstep s e hI hP
    exact ⟨hQ, ih hI' hrest⟩

/-- **THE CONDITIONAL INVARIANT RULE**: what every step that meets `P`
    preserves holds at the end of a run whose steps all meet `P`. -/
theorem Along.invariant (hstep : ∀ s e, I s → P s e → I (f s e)) (hI : I s) (h : Along f P s es) :
    I (es.foldl f s) := by
  induction es generalizing s with
  | nil => exact hI
  | cons e es ih => exact ih (hstep s e hI h.1) h.2

/-- A fact about every step, by the events before it. -/
theorem Along.iff_splits : Along f P s es ↔ ∀ before e after,
      es = before ++ e :: after → P (before.foldl f s) e := by
  induction es generalizing s with
  | nil =>
    refine ⟨fun _ before e after heq => ?_, fun _ => trivial⟩
    exact absurd heq.symm (append_ne_nil_of_right_ne_nil _ (cons_ne_nil e after))
  | cons e es ih =>
    constructor
    · rintro ⟨hP, hrest⟩ before e' after heq
      cases before with
      | nil =>
        obtain ⟨rfl, -⟩ := cons.inj heq
        exact hP
      | cons x before =>
        obtain ⟨rfl, heq'⟩ := cons.inj heq
        exact ih.mp hrest before e' after heq'
    · intro h
      refine ⟨h [] e es rfl, ih.mpr ?_⟩
      intro before e' after heq
      exact h (e :: before) e' after (by rw [heq]; rfl)

theorem Along.append
    {es fs : List ε} : Along f P s (es ++ fs) ↔ Along f P s es ∧ Along f P (es.foldl f s) fs := by
  induction es generalizing s with
  | nil => exact ⟨fun h => ⟨trivial, h⟩, fun h => h.2⟩
  | cons e es ih =>
    show P s e ∧ Along f P (f s e) (es ++ fs) ↔ _
    rw [ih, ← and_assoc]
    rfl

theorem Along.and {P Q : σ → ε → Prop} (hP : Along f P s es) (hQ : Along f Q s es) :
    Along f (fun s e => P s e ∧ Q s e) s es := by
  induction es generalizing s with
  | nil => exact trivial
  | cons e es ih => exact ⟨⟨hP.1, hQ.1⟩, ih hP.2 hQ.2⟩

/-- A flag is up: some event raised it and none after that lowered it. -/
def Latched (set clear : ε → Prop) (es : List ε) : Prop :=
  ∃ before e after, es = before ++ e :: after ∧ set e ∧ ∀ e' ∈ after, ¬ clear e'

theorem not_latched_nil : ¬ Latched set clear [] := by
  rintro ⟨before, e, after, heq, -⟩
  exact absurd heq.symm (append_ne_nil_of_right_ne_nil _ (cons_ne_nil e after))

/-- **THE LATCH RULE**: an event raises the flag, or keeps it up unless it
    lowers it. -/
theorem latched_concat {e : ε} :
    Latched set clear (es ++ [e]) ↔ set e ∨ Latched set clear es ∧ ¬ clear e := by
  constructor
  · rintro ⟨before, x, after, heq, hset, hkept⟩
    rcases eq_nil_or_concat after with rfl | ⟨rest, y, rfl⟩
    · obtain ⟨-, rfl⟩ := append_singleton_inj.mp heq
      exact .inl hset
    rw [concat_eq_append, ← cons_append, ← append_assoc] at heq
    obtain ⟨rfl, rfl⟩ := append_singleton_inj.mp heq
    refine .inr ⟨⟨before, x, rest, rfl, hset, ?_⟩, ?_⟩
    · intro e' hmem
      exact hkept e' (by simp [hmem])
    · exact hkept e (by simp)
  · rintro (hset | ⟨⟨before, x, after, rfl, hset, hkept⟩, hclear⟩)
    · exact ⟨es, e, [], rfl, hset, nofun⟩
    refine ⟨before, x, after ++ [e], by simp, hset, ?_⟩
    intro e' hmem
    rcases mem_append.mp hmem with hold | hnew
    · exact hkept e' hold
    rw [mem_singleton.mp hnew]
    exact hclear

end Transition
