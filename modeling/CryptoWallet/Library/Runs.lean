/-
  File:      CryptoWallet/Library/Runs.lean
  Subject:   Runs of a labelled step relation, for any states and labels.

  * `Run step s₀ es s`: from `s₀` the steps labelled `es` (oldest first) lead to `s`.
  * `Run.invariant`: what holds at the start and is kept by every step holds at the end;
    `Run.invariant_along` the same for a property of the labels so far and the state.
  * `Run.split`: each label of a run is a step of it.
  * `Guarded ok step`: the steps of `step` taken where `ok` admits the label; a run of guarded
    steps is a run (`Run.of_guarded`); `Run.guarded_iff` compares two guards along the runs.
  * `Kept P step`: the steps of `step` that end in `P`; `Run.kept_iff`: the runs that stay in `P`
    are those whose labels a guard admits, for the guard that says which steps stay there.
  * `Simulates abs label step step'`: each step is one of `step'` between what `abs` makes of
    its states, or changes nothing there; `Run.simulate`: then every run is a run of `step'`.
-/
import Mathlib.Data.List.Basic

namespace Runs

variable {σ ε : Type*}

/-- **A run** of `step` from `s₀`: the labels of its steps, oldest first, and the state it
    ends in. -/
inductive Run (step : σ → ε → σ → Prop) (s₀ : σ) : List ε → σ → Prop where
  | start : Run step s₀ [] s₀
  | next {es : List ε} {s s' : σ} {e : ε} :
      Run step s₀ es s → step s e s' → Run step s₀ (es ++ [e]) s'

/-- The steps of `step` whose label `ok` admits in the state they start from. -/
def Guarded (ok : σ → ε → Prop) (step : σ → ε → σ → Prop) (s : σ) (e : ε) (s' : σ) : Prop :=
  ok s e ∧ step s e s'

/-- The steps of `step` that end in a state with `P`. -/
def Kept (P : σ → Prop) (step : σ → ε → σ → Prop) (s : σ) (e : ε) (s' : σ) : Prop :=
  step s e s' ∧ P s'

variable {step : σ → ε → σ → Prop} {s₀ s : σ} {es : List ε}

/-- A step whose label is admitted. -/
theorem Guarded.allow {ok : σ → ε → Prop} {e : ε} {s' : σ} (hs : step s e s') (hok : ok s e) :
    Guarded ok step s e s' := ⟨hok, hs⟩

/-- **The invariant rule, with the labels so far**: what holds at the start and is kept by
    every step holds of every run. -/
theorem Run.invariant_along {I : List ε → σ → Prop} (h0 : I [] s₀)
    (hstep : ∀ es s e s', Run step s₀ es s → I es s → step s e s' → I (es ++ [e]) s')
    (h : Run step s₀ es s) : I es s := by
  induction h with
  | start => exact h0
  | next hr hs ih => exact hstep _ _ _ _ hr ih hs

/-- **The invariant rule.** -/
theorem Run.invariant {I : σ → Prop} (h0 : I s₀)
    (hstep : ∀ s e s', I s → step s e s' → I s') (h : Run step s₀ es s) : I s :=
  h.invariant_along (I := fun _ s => I s) h0 fun _ s e s' _ hI hs => hstep s e s' hI hs

/-- A single step is a run. -/
theorem Run.single {e : ε} {s' : σ} (h : step s e s') : Run step s [e] s' :=
  .next .start h

/-- **Every label of a run is a step of it**, from the state the labels before it lead to. -/
theorem Run.split {pre post : List ε} {e : ε} (h : Run step s₀ (pre ++ e :: post) s) :
    ∃ s₁ s₂, Run step s₀ pre s₁ ∧ step s₁ e s₂ := by
  generalize he : pre ++ e :: post = es at h
  induction h generalizing post with
  | start => simp at he
  | @next es s s' e' hr hs ih =>
      rcases List.eq_nil_or_concat post with rfl | ⟨post', x, rfl⟩
      · obtain ⟨rfl, h⟩ := List.append_inj' he rfl
        cases h
        exact ⟨s, s', hr, hs⟩
      · apply ih
        have he' : (pre ++ e :: post') ++ [x] = es ++ [e'] := by simpa using he
        exact (List.append_inj' he' rfl).1

/-- A run of smaller steps is a run of larger ones. -/
theorem Run.mono {step' : σ → ε → σ → Prop} (hle : ∀ s e s', step s e s' → step' s e s')
    (h : Run step s₀ es s) : Run step' s₀ es s := by
  induction h with
  | start => exact .start
  | next _ hs ih => exact .next ih (hle _ _ _ hs)

theorem Run.of_guarded {ok : σ → ε → Prop} (h : Run (Guarded ok step) s₀ es s) :
    Run step s₀ es s :=
  h.mono fun _ _ _ hs => hs.2

/-- A guard may be replaced by one that follows from it in the states the guarded runs reach. -/
theorem Run.guarded_imp {ok ok' : σ → ε → Prop}
    (hle : ∀ es s e s', Run (Guarded ok step) s₀ es s → step s e s' → ok s e → ok' s e)
    (h : Run (Guarded ok step) s₀ es s) : Run (Guarded ok' step) s₀ es s := by
  induction h with
  | start => exact .start
  | next hr hs ih => exact ih.next (.allow hs.2 (hle _ _ _ _ hr hs.2 hs.1))

/-- **Two guards admit the same runs** when they agree in every state a run reaches. -/
theorem Run.guarded_iff {ok ok' : σ → ε → Prop}
    (hiff : ∀ es s e s', Run step s₀ es s → step s e s' → (ok s e ↔ ok' s e)) :
    Run (Guarded ok step) s₀ es s ↔ Run (Guarded ok' step) s₀ es s :=
  ⟨fun h => h.guarded_imp fun es s e s' hr hs => (hiff es s e s' hr.of_guarded hs).mp,
    fun h => h.guarded_imp fun es s e s' hr hs => (hiff es s e s' hr.of_guarded hs).mpr⟩

/-- **Staying in `P` as a condition on the labels**: if `ok` says in every state of `P`, and of an
    invariant `I`, which steps stay in `P`, then the runs that stay there are the guarded ones. -/
theorem Run.kept_iff {I P : σ → Prop} {ok : σ → ε → Prop} (hI0 : I s₀) (hP0 : P s₀)
    (hI : ∀ s e s', I s → step s e s' → I s')
    (hok : ∀ s e s', I s → P s → step s e s' → (P s' ↔ ok s e)) :
    Run (Kept P step) s₀ es s ↔ Run (Guarded ok step) s₀ es s := by
  -- along both runs `I` and `P` hold, which is what makes their steps the same
  constructor
  · intro h
    refine (?_ : _ ∧ I s ∧ P s).1
    induction h with
    | start => exact ⟨.start, hI0, hP0⟩
    | next _ hs ih =>
        obtain ⟨hr, hi, hp⟩ := ih
        exact ⟨hr.next (.allow hs.1 ((hok _ _ _ hi hp hs.1).mp hs.2)), hI _ _ _ hi hs.1, hs.2⟩
  · intro h
    refine (?_ : _ ∧ I s ∧ P s).1
    induction h with
    | start => exact ⟨.start, hI0, hP0⟩
    | next _ hs ih =>
        obtain ⟨hr, hi, hp⟩ := ih
        have hp' := (hok _ _ _ hi hp hs.2).mpr hs.1
        exact ⟨hr.next ⟨hs.2, hp'⟩, hI _ _ _ hi hs.2, hp'⟩

/-! ## Simulation -/

variable {τ δ : Type*} {step' : τ → δ → τ → Prop} {abs : σ → τ} {label : ε → Option δ}

/-- What a step with label `e` is for the abstract system: a step of it, or nothing. -/
def Simulates (abs : σ → τ) (label : ε → Option δ) (step' : τ → δ → τ → Prop) (s : σ) (e : ε)
    (s' : σ) : Prop :=
  match label e with
  | some d => step' (abs s) d (abs s')
  | none => abs s' = abs s

/-- **Forward simulation**: if the steps from states of an invariant, under admitted labels, are
    steps of the abstract system or nothing to it, then so are the runs. -/
theorem Run.simulate {I : σ → Prop} {A : ε → Prop} (h0 : I s₀)
    (hstep : ∀ s e s', I s → A e → step s e s' → I s' ∧ Simulates abs label step' s e s')
    (h : Run step s₀ es s) (hA : ∀ e ∈ es, A e) :
    Run step' (abs s₀) (es.filterMap label) (abs s) ∧ I s := by
  induction h with
  | start => exact ⟨.start, h0⟩
  | @next es s s' e _ hs ih =>
      obtain ⟨hr, hI⟩ := ih fun e he => hA e (List.mem_append_left _ he)
      obtain ⟨hI', hsim⟩ := hstep s e s' hI (hA e (by simp)) hs
      refine ⟨?_, hI'⟩
      rw [List.filterMap_append]
      unfold Simulates at hsim
      cases hl : label e with
      | none =>
          rw [hl] at hsim
          simpa [hl, hsim] using hr
      | some d =>
          rw [hl] at hsim
          simpa [hl] using hr.next hsim

end Runs
