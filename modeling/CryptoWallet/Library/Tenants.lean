/-
  File:      CryptoWallet/Library/Tenants.lean
  Subject:   Many stores side by side, one for each key, their requests in flight together.

  A request names the key it reads and writes when it is called. The store of one key and the
  steps on it are those of Library/ReadModifyWrite.lean.

  * `Stores.of k`: what the store of `k` is in the state of all of them.
  * `run_project`: the steps on one key, in a run of all the stores, are a run of its own store;
    so every result on a single store holds of each.
-/
import CryptoWallet.Library.ReadModifyWrite
import Mathlib.Logic.Function.Basic

namespace Tenants

open Runs ReadModifyWrite

variable {K D R : Type*}

/-- The stored values, the requests in flight and the finished ones, each with its key. -/
structure Stores (K D R : Type*) where
  stored : K → D
  flights : List (K × Flight D R)
  finished : List (K × R)

/-- Nothing has been requested yet. -/
def Stores.start (d : K → D) : Stores K D R := ⟨d, [], []⟩

section Step

variable [DecidableEq K] (update : R → D → Option D)

/-- **One step of the stores**: a step on the store of one key. -/
inductive Step : Stores K D R → K × Label D R → Stores K D R → Prop where
  | call (s : Stores K D R) (k : K) (r : R) :
      Step s (k, .call r) { s with flights := s.flights ++ [(k, .called r)] }
  | read {s : Stores K D R} (pre post : List (K × Flight D R)) (k : K) (r : R) (new : D)
      (hf : s.flights = pre ++ (k, .called r) :: post) (hu : update r (s.stored k) = some new) :
      Step s (k, .read r)
        { s with flights := pre ++ (k, .holding r (s.stored k) new) :: post }
  | leave {s : Stores K D R} (pre post : List (K × Flight D R)) (k : K) (r : R)
      (hf : s.flights = pre ++ (k, .called r) :: post) (hu : update r (s.stored k) = none) :
      Step s (k, .read r)
        { s with flights := pre ++ post, finished := s.finished ++ [(k, r)] }
  | write {s : Stores K D R} (pre post : List (K × Flight D R)) (k : K) (r : R)
      (snapshot new : D) (hf : s.flights = pre ++ (k, .holding r snapshot new) :: post) :
      Step s (k, .write r snapshot (s.stored k))
        ⟨Function.update s.stored k new, pre ++ post, s.finished ++ [(k, r)]⟩

/-- What is paired with the key `k`, if this is. -/
def mine {α : Type*} (k : K) (x : K × α) : Option α := if x.1 = k then some x.2 else none

/-- **The store of one key.** -/
def Stores.of (k : K) (s : Stores K D R) : Store D R :=
  ⟨s.stored k, s.flights.filterMap (mine k), s.finished.filterMap (mine k)⟩

end Step

variable [DecidableEq K] {update : R → D → Option D} {k : K}

@[simp] theorem mine_self {α : Type*} (k : K) (x : α) : mine k (k, x) = some x := if_pos rfl

theorem mine_of_ne {α : Type*} {k k' : K} (h : k' ≠ k) (x : α) : mine k (k', x) = none := if_neg h

/-- What is paired with `k` in a list with a pair of it in the middle. -/
theorem filterMap_mine {α : Type*} {pre post : List (K × α)} (k : K) (x : α) :
    (pre ++ (k, x) :: post).filterMap (mine k) =
      pre.filterMap (mine k) ++ x :: post.filterMap (mine k) := by
  rw [List.filterMap_append, List.filterMap_cons_some (mine_self k x)]

theorem filterMap_mine_of_ne {α : Type*} {pre post : List (K × α)} {k k' : K} (h : k' ≠ k)
    (x : α) : (pre ++ (k', x) :: post).filterMap (mine k) = (pre ++ post).filterMap (mine k) := by
  rw [List.filterMap_append, List.filterMap_cons_none (mine_of_ne h x), List.filterMap_append]

theorem mem_filterMap_mine {α : Type*} {l : List (K × α)} {x : α} :
    x ∈ l.filterMap (mine k) ↔ (k, x) ∈ l := by
  simp only [List.mem_filterMap, mine, Option.ite_none_right_eq_some, Option.some.injEq]
  constructor
  · rintro ⟨⟨k', y⟩, hm, rfl, rfl⟩
    exact hm
  · intro hm
    exact ⟨_, hm, rfl, rfl⟩

/-- A step on another key leaves the store of a key as it is. -/
theorem Step.other {s s' : Stores K D R} {k' : K} {e : Label D R} (hs : Step update s (k', e) s')
    (hne : k' ≠ k) : s'.of k = s.of k := by
  cases hs with
  | call k' r => simp [Stores.of, mine_of_ne hne]
  | read pre post k' r new hf hu => simp only [Stores.of, hf, filterMap_mine_of_ne hne]
  | leave pre post k' r hf hu =>
      simp [Stores.of, hf, mine_of_ne hne]
  | write pre post k' r snapshot new hf =>
      simp [Stores.of, hf, mine_of_ne hne, Function.update_of_ne hne.symm]

/-- A step on a key is a step of its store. -/
theorem Step.own {s s' : Stores K D R} {e : Label D R} (hs : Step update s (k, e) s') :
    ReadModifyWrite.Step update (s.of k) e (s'.of k) := by
  cases hs with
  | call k r =>
      have h : ReadModifyWrite.Step update _ _ _ := .call (s.of k) r
      simpa [Stores.of] using h
  | read pre post k r new hf hu =>
      have hfk : (s.of k).flights =
          pre.filterMap (mine k) ++ .called r :: post.filterMap (mine k) := by
        simp only [Stores.of, hf, filterMap_mine]
      have h := ReadModifyWrite.Step.read _ _ r new hfk hu
      simpa [Stores.of, filterMap_mine] using h
  | leave pre post k r hf hu =>
      have hfk : (s.of k).flights =
          pre.filterMap (mine k) ++ .called r :: post.filterMap (mine k) := by
        simp only [Stores.of, hf, filterMap_mine]
      have h := ReadModifyWrite.Step.leave _ _ r hfk hu
      simpa [Stores.of] using h
  | write pre post k r snapshot new hf =>
      have hfk : (s.of k).flights =
          pre.filterMap (mine k) ++ .holding r snapshot new :: post.filterMap (mine k) := by
        simp only [Stores.of, hf, filterMap_mine]
      have h : ReadModifyWrite.Step update _ _ _ := .write _ _ r snapshot new hfk
      simpa [Stores.of] using h

/-- **Every run of the stores is, for each key, a run of its own store.** -/
theorem run_project {d : K → D} {es : List (K × Label D R)} {s : Stores K D R}
    (h : Run (Step update) (Stores.start d) es s) (k : K) :
    Run (ReadModifyWrite.Step update) (Store.start (d k)) (es.filterMap (mine k)) (s.of k) := by
  have hstep : ∀ (s : Stores K D R) e s', True → True → Step update s e s' →
      True ∧ Simulates (Stores.of k) (mine k) (ReadModifyWrite.Step update) s e s' := by
    rintro s ⟨k', e⟩ s' - - hs
    refine ⟨trivial, ?_⟩
    by_cases hk : k' = k
    · subst hk
      simpa [Simulates] using hs.own
    · simpa [Simulates, mine_of_ne hk] using hs.other hk
  exact (h.simulate trivial hstep fun _ _ => trivial).1

end Tenants
