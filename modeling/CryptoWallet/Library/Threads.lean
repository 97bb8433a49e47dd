/-
  File:      CryptoWallet/Library/Threads.lean
  Subject:   Threads that share a state, and what every fair schedule brings about.

  Each thread is a function of the shared state; a thread with nothing to do leaves it alone.

  * `trace`: the states of a schedule; `Fair`: every thread is scheduled again and again.
  * `Settles`: under every fair schedule, `P` holds from some point on for good.
  * `Turn x y`: in `x` one thread only can move, and moves to `y`; `Resting`: no thread can.
  * `trace_toward`: where turns lead to rest, every run stays on its way there.
  * `settles_iff`: what every fair schedule brings about is then what holds at rest.
-/
import Mathlib.Data.Countable.Basic
import Mathlib.Data.Nat.Pairing
import Mathlib.Logic.Relation

namespace Threads

open Relation

variable {σ τ : Type*}

/-- The states of a run from `s₀` in which thread `sched n` makes step number `n`. -/
def trace (step : τ → σ → σ) (sched : ℕ → τ) (s₀ : σ) : ℕ → σ
  | 0 => s₀
  | n + 1 => step (sched n) (trace step sched s₀ n)

/-- Every thread is scheduled again and again. -/
def Fair (sched : ℕ → τ) : Prop := ∀ t n, ∃ m, n ≤ m ∧ sched m = t

/-- **Every fair schedule brings `P` about for good.** -/
def Settles (step : τ → σ → σ) (s₀ : σ) (P : σ → Prop) : Prop :=
  ∀ sched, Fair sched → ∃ n, ∀ m, n ≤ m → P (trace step sched s₀ m)

/-- In `x` one thread only can move, and it moves to `y`. -/
def Turn (step : τ → σ → σ) (x y : σ) : Prop := ∃ t, step t x = y ∧ ∀ u, u ≠ t → step u x = x

/-- No thread can move. -/
def Resting (step : τ → σ → σ) (x : σ) : Prop := ∀ t, step t x = x

variable {step : τ → σ → σ} {sched : ℕ → τ} {s₀ x y : σ} {n : ℕ}

/-- There are fair schedules of countably many threads. -/
theorem exists_fair [Countable τ] [Nonempty τ] : ∃ sched : ℕ → τ, Fair sched := by
  obtain ⟨f, hf⟩ := exists_surjective_nat τ
  refine ⟨fun m => f m.unpair.1, fun t n => ?_⟩
  obtain ⟨k, rfl⟩ := hf t
  exact ⟨Nat.pair k n, Nat.right_le_pair k n, by simp only [Nat.unpair_pair]⟩

/-- A state in which only `t` can move stays until `t` is scheduled. -/
theorem trace_stays {t : τ} (hu : ∀ u, u ≠ t → step u x = x) (hn : trace step sched s₀ n = x)
    {m : ℕ} (hm : n ≤ m) (hno : ∀ k, n ≤ k → k < m → sched k ≠ t) :
    trace step sched s₀ m = x := by
  induction m, hm using Nat.le_induction with
  | base => exact hn
  | succ m hm ih =>
      have hx := ih fun k hk hkm => hno k hk (Nat.lt_succ_of_lt hkm)
      show step (sched m) (trace step sched s₀ m) = x
      rw [hx, hu _ (hno m hm (Nat.lt_succ_self m))]

/-- **A turn is taken.** -/
theorem Turn.taken (h : Turn step x y) (hf : Fair sched) (hn : trace step sched s₀ n = x) :
    ∃ m, n ≤ m ∧ trace step sched s₀ m = y := by
  obtain ⟨t, hy, hu⟩ := h
  -- the first time from `n` on at which `t` is scheduled
  classical
  have hex : ∃ m, n ≤ m ∧ sched m = t := hf t n
  obtain ⟨hm, ht⟩ := Nat.find_spec hex
  have hx := trace_stays hu hn hm fun k hk hlt ht => Nat.find_min hex hlt ⟨hk, ht⟩
  refine ⟨Nat.find hex + 1, Nat.le_succ_of_le hm, ?_⟩
  show step (sched (Nat.find hex)) (trace step sched s₀ (Nat.find hex)) = y
  rw [hx, ht, hy]

/-- Turns are taken one after another. -/
theorem turns_taken (h : ReflTransGen (Turn step) x y) (hf : Fair sched)
    (hn : trace step sched s₀ n = x) : ∃ m, n ≤ m ∧ trace step sched s₀ m = y := by
  induction h with
  | refl => exact ⟨n, Nat.le_refl n, hn⟩
  | tail _ hturn ih =>
      obtain ⟨k, hk, hb⟩ := ih
      obtain ⟨m, hm, hy⟩ := hturn.taken hf hb
      exact ⟨m, Nat.le_trans hk hm, hy⟩

/-- A state at rest stays. -/
theorem Resting.stays (hr : Resting step y) (hn : trace step sched s₀ n = y) {m : ℕ}
    (hm : n ≤ m) : trace step sched s₀ m = y := by
  induction m, hm using Nat.le_induction with
  | base => exact hn
  | succ m _ ih =>
      show step (sched m) (trace step sched s₀ m) = y
      rw [ih, hr]

/-- Under every schedule, fair or not, a run stays on its way to rest. -/
theorem trace_toward (h : ReflTransGen (Turn step) s₀ y) (hr : Resting step y)
    (sched : ℕ → τ) (n : ℕ) : ReflTransGen (Turn step) (trace step sched s₀ n) y := by
  induction n with
  | zero => exact h
  | succ n ih =>
      show ReflTransGen (Turn step) (step (sched n) (trace step sched s₀ n)) y
      rcases ih.cases_head with e | ⟨z, ⟨t, hz, hu⟩, hzy⟩
      · rw [e, hr]
      · by_cases ht : sched n = t
        · rw [ht, hz]
          exact hzy
        · rw [hu _ ht]
          exact ih

/-- **Turns that lead to rest decide what every fair schedule brings about.** -/
theorem settles_iff [Countable τ] [Nonempty τ] (h : ReflTransGen (Turn step) s₀ y)
    (hr : Resting step y) {P : σ → Prop} : Settles step s₀ P ↔ P y := by
  have hend : ∀ sched, Fair sched → ∃ n, ∀ m, n ≤ m → trace step sched s₀ m = y := by
    intro sched hf
    have h0 : trace step sched s₀ 0 = s₀ := rfl
    obtain ⟨n, _, hn⟩ := turns_taken h hf h0
    exact ⟨n, fun m hm => hr.stays hn hm⟩
  constructor
  · intro hs
    obtain ⟨sched, hf⟩ := exists_fair (τ := τ)
    obtain ⟨n, hn⟩ := hend sched hf
    obtain ⟨k, hk⟩ := hs sched hf
    rw [← hn (max n k) (Nat.le_max_left n k)]
    exact hk _ (Nat.le_max_right n k)
  · intro hP sched hf
    obtain ⟨n, hn⟩ := hend sched hf
    exact ⟨n, fun m hm => (hn m hm).symm ▸ hP⟩

end Threads
