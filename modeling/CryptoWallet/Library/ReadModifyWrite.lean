/-
  File:      CryptoWallet/Library/ReadModifyWrite.lean
  Subject:   A stored value changed by requests that read it, compute, and write it back.

  Any number of requests are in flight at once; each reads the stored value in one step and
  replaces it in a later one, with nothing that ties the two together (no transaction, no
  compare-and-swap). `update r d` is what request `r` stores after reading `d`, `none` when it
  stores nothing (it then ends with its read).

  * `run_held`: a property of values kept by `update` holds of the stored value and
    of every value a request in flight holds, over every interleaving.
  * `stored_eq_serial_sublist`: over EVERY interleaving the stored value is what running SOME of
    the finished requests one at a time gives; the others are lost.
  * `stored_eq_serial`: it is what running ALL of them gives, in the order they finished, when
    each write replaced the very value its request had read.
  * `calls_perm`, `finished_perm`: no request is made up or forgotten by the bookkeeping.
-/
import Mathlib.Data.List.Induction
import Mathlib.Data.List.Perm.Basic
import CryptoWallet.Library.Runs

namespace ReadModifyWrite

open Runs

variable {D R : Type*}

/-- A request in flight: called and still to read, or holding what it read and what it is going
    to store. -/
inductive Flight (D R : Type*) where
  | called (r : R)
  | holding (r : R) (snapshot new : D)

/-- The request of a flight. -/
def Flight.request : Flight D R → R
  | .called r => r
  | .holding r _ _ => r

/-- The stored value, the requests in flight, and the finished ones in the order they ended. -/
structure Store (D R : Type*) where
  stored : D
  flights : List (Flight D R)
  finished : List R

/-- Nothing has been requested yet. -/
def Store.start (d : D) : Store D R := ⟨d, [], []⟩

/-- What happens in one step. A write names the value its request had read and the value it
    replaces. -/
inductive Label (D R : Type*) where
  | call (r : R)
  | read (r : R)
  | write (r : R) (snapshot replaced : D)

/-- The requests a run calls, in order. -/
def calls : List (Label D R) → List R
  | [] => []
  | .call r :: es => r :: calls es
  | _ :: es => calls es

/-- Every write of the run replaces the value its request had read. -/
def Fresh (es : List (Label D R)) : Prop :=
  ∀ r snapshot replaced, Label.write r snapshot replaced ∈ es → snapshot = replaced

section Step

variable (update : R → D → Option D)

/-- **One step of the store**: a call, a read, or a write, by any request that is ready for it. -/
inductive Step : Store D R → Label D R → Store D R → Prop where
  | call (s : Store D R) (r : R) :
      Step s (.call r) { s with flights := s.flights ++ [.called r] }
  | read {s : Store D R} (pre post : List (Flight D R)) (r : R) (new : D)
      (hf : s.flights = pre ++ .called r :: post) (hu : update r s.stored = some new) :
      Step s (.read r) { s with flights := pre ++ .holding r s.stored new :: post }
  | leave {s : Store D R} (pre post : List (Flight D R)) (r : R)
      (hf : s.flights = pre ++ .called r :: post) (hu : update r s.stored = none) :
      Step s (.read r) { s with flights := pre ++ post, finished := s.finished ++ [r] }
  | write {s : Store D R} (pre post : List (Flight D R)) (r : R) (snapshot new : D)
      (hf : s.flights = pre ++ .holding r snapshot new :: post) :
      Step s (.write r snapshot s.stored) ⟨new, pre ++ post, s.finished ++ [r]⟩

/-- Request `r` run alone on `d`. -/
def perform (d : D) (r : R) : D := (update r d).getD d

/-- The requests `rs` run one at a time on `d`. -/
def serial (d : D) (rs : List R) : D := rs.foldl (perform update) d

end Step

variable {update : R → D → Option D}

theorem perform_of_some {r : R} {d new : D} (h : update r d = some new) :
    perform update d r = new := by
  simp [perform, h]

theorem perform_of_none {r : R} {d : D} (h : update r d = none) : perform update d r = d := by
  simp [perform, h]

theorem serial_append_one (d : D) (rs : List R) (r : R) :
    serial update d (rs ++ [r]) = perform update (serial update d rs) r := by
  simp [serial]

/-- Requests that store nothing, run one at a time, leave the value. -/
theorem serial_of_none {d : D} {rs : List R} (h : ∀ r ∈ rs, update r d = none) :
    serial update d rs = d := by
  induction rs with
  | nil => rfl
  | cons r rs ih =>
      rw [serial, List.foldl_cons, perform_of_none (h r List.mem_cons_self)]
      exact ih fun r' hr' => h r' (List.mem_cons_of_mem _ hr')

/-! ## 1. What holds of every value, holds in every interleaving -/

theorem mem_middle {α : Type*} {x y : α} {pre post : List α} (h : x ∈ pre ++ post) :
    x ∈ pre ++ y :: post :=
  (List.mem_append.mp h).elim (List.mem_append_left _)
    fun h => List.mem_append_right _ (List.mem_cons_of_mem _ h)

theorem mem_middle_self {α : Type*} {y : α} {pre post : List α} : y ∈ pre ++ y :: post :=
  List.mem_append_right _ List.mem_cons_self

theorem mem_middle_cases {α : Type*} {x z : α} {pre post : List α} (y : α)
    (h : x ∈ pre ++ z :: post) : x = z ∨ x ∈ pre ++ y :: post := by
  rcases List.mem_append.mp h with h | h
  · exact Or.inr (List.mem_append_left _ h)
  · exact (List.mem_cons.mp h).imp id fun h => mem_middle (List.mem_append_right _ h)

/-- **What one step does to the values of the store**: `I` of the stored value and `J` of every
    request that holds one go on, if `J` follows from `I` at a read and `I` from `J` at a write,
    and neither is lost when another request finishes. -/
theorem Step.values {I : List R → D → Prop} {J : List R → R → D → D → Prop}
    (hread : ∀ rs r d new, I rs d → update r d = some new → J rs r d new)
    (hwrite : ∀ rs r snapshot new, J rs r snapshot new → I (rs ++ [r]) new)
    (hI : ∀ rs r d, I rs d → I (rs ++ [r]) d)
    (hJ : ∀ rs q r snapshot new, J rs r snapshot new → J (rs ++ [q]) r snapshot new)
    {s s' : Store D R} {e : Label D R} (hs : Step update s e s') (hstored : I s.finished s.stored)
    (hheld : ∀ r a b, Flight.holding r a b ∈ s.flights → J s.finished r a b) :
    I s'.finished s'.stored ∧
      ∀ r a b, Flight.holding r a b ∈ s'.flights → J s'.finished r a b := by
  cases hs with
  | call r =>
      refine ⟨hstored, fun r' a b hm => ?_⟩
      rcases List.mem_append.mp hm with hm | hm
      · exact hheld r' a b hm
      · cases List.mem_singleton.mp hm
  | read pre post r new hf hu =>
      refine ⟨hstored, fun r' a b hm => ?_⟩
      rcases mem_middle_cases (.called r) hm with e | hm
      · cases e
        exact hread _ _ _ _ hstored hu
      · exact hheld r' a b (hf ▸ hm)
  | leave pre post r hf hu =>
      exact ⟨hI _ _ _ hstored, fun r' a b hm => hJ _ _ _ _ _ (hheld r' a b (hf ▸ mem_middle hm))⟩
  | write pre post r snapshot new hf =>
      exact ⟨hwrite _ _ _ _ (hheld r snapshot new (hf ▸ mem_middle_self)),
        fun r' a b hm => hJ _ _ _ _ _ (hheld r' a b (hf ▸ mem_middle hm))⟩

/-- A step other than a call brings no new request into flight. -/
theorem Step.request {s s' : Store D R} {e : Label D R} (hs : Step update s e s')
    (hcall : ∀ r, e ≠ .call r) {f' : Flight D R} (hf' : f' ∈ s'.flights) :
    ∃ f ∈ s.flights, f.request = f'.request := by
  cases hs with
  | call r => exact absurd rfl (hcall r)
  | read pre post r new hf hu =>
      rcases mem_middle_cases (.called r) hf' with rfl | hm
      · exact ⟨.called r, hf ▸ mem_middle_self, rfl⟩
      · exact ⟨f', hf ▸ hm, rfl⟩
  | leave pre post r hf hu => exact ⟨f', hf ▸ mem_middle hf', rfl⟩
  | write pre post r snapshot new hf => exact ⟨f', hf ▸ mem_middle hf', rfl⟩

/-- `P` of the stored value and of everything a request in flight holds. -/
structure Held (P : D → Prop) (s : Store D R) : Prop where
  stored : P s.stored
  held : ∀ r snapshot new, Flight.holding r snapshot new ∈ s.flights → P snapshot ∧ P new

theorem held_start {P : D → Prop} {d : D} (hd : P d) : Held P (Store.start d : Store D R) where
  stored := hd
  held _ _ _ h := absurd h List.not_mem_nil

/-- **One step keeps `Held P`**, for every property `P` that `update` keeps. -/
theorem Step.held {P : D → Prop} (hP : ∀ r d new, P d → update r d = some new → P new)
    {s s' : Store D R} {e : Label D R} (hs : Step update s e s') (h : Held P s) : Held P s' := by
  have hvalues := hs.values (I := fun _ d => P d) (J := fun _ _ a b => P a ∧ P b)
    (fun _ r d new hd hu => ⟨hd, hP r d new hd hu⟩) (fun _ _ _ _ hab => hab.2)
    (fun _ _ _ hd => hd) (fun _ _ _ _ _ hab => hab) h.stored h.held
  exact ⟨hvalues.1, hvalues.2⟩

/-- **`Held P` over every interleaving.** -/
theorem run_held {P : D → Prop} (hP : ∀ r d new, P d → update r d = some new → P new)
    {d : D} (hd : P d) {es : List (Label D R)} {s : Store D R}
    (h : Run (Step update) (Store.start d) es s) : Held P s :=
  h.invariant (held_start hd) fun _ _ _ hI hs => hs.held hP hI

/-! ## 2. What the stored value is, over every interleaving -/

/-- The value a serial run of some of the finished requests ends with. -/
def SerialOfSome (update : R → D → Option D) (d : D) (finished : List R) (v : D) : Prop :=
  ∃ rs : List R, rs.Sublist finished ∧ v = serial update d rs

theorem SerialOfSome.later {d v : D} {rs : List R} (h : SerialOfSome update d rs v) (r : R) :
    SerialOfSome update d (rs ++ [r]) v := by
  obtain ⟨qs, hsub, e⟩ := h
  exact ⟨qs, hsub.trans (List.sublist_append_left rs [r]), e⟩

theorem SerialOfSome.write {d v new : D} {rs : List R} {r : R} (h : SerialOfSome update d rs v)
    (hu : update r v = some new) : SerialOfSome update d (rs ++ [r]) new := by
  obtain ⟨qs, hsub, rfl⟩ := h
  exact ⟨qs ++ [r], hsub.append (List.Sublist.refl [r]),
    by rw [serial_append_one, perform_of_some hu]⟩

/-- The stored value and every snapshot in flight come from serial runs of finished requests,
    and a flight is about to store what `update` computes from its snapshot. -/
structure Traced (update : R → D → Option D) (d : D) (s : Store D R) : Prop where
  stored : SerialOfSome update d s.finished s.stored
  held : ∀ r snapshot new, Flight.holding r snapshot new ∈ s.flights →
    SerialOfSome update d s.finished snapshot ∧ update r snapshot = some new

theorem Step.traced {d : D} {s s' : Store D R} {e : Label D R} (hs : Step update s e s')
    (h : Traced update d s) : Traced update d s' := by
  have hvalues := hs.values (I := SerialOfSome update d)
    (J := fun rs r a b => SerialOfSome update d rs a ∧ update r a = some b)
    (fun _ _ _ _ hd hu => ⟨hd, hu⟩) (fun _ _ _ _ hab => hab.1.write hab.2)
    (fun _ r _ hd => hd.later r) (fun _ q _ _ _ hab => ⟨hab.1.later q, hab.2⟩) h.stored h.held
  exact ⟨hvalues.1, hvalues.2⟩

/-- **Over every interleaving** everything in the store is traced to serial runs. -/
theorem run_traced {d : D} {es : List (Label D R)} {s : Store D R}
    (h : Run (Step update) (Store.start d) es s) : Traced update d s :=
  h.invariant ⟨⟨[], List.Sublist.refl _, rfl⟩, fun _ _ _ hm => absurd hm List.not_mem_nil⟩
    fun _ _ _ hI hs => hs.traced hI

/-- **The stored value is a serial run of SOME of the finished requests**, in the order they
    finished -- whatever the interleaving. -/
theorem stored_eq_serial_sublist {d : D} {es : List (Label D R)} {s : Store D R}
    (h : Run (Step update) (Store.start d) es s) :
    ∃ rs : List R, rs.Sublist s.finished ∧ s.stored = serial update d rs :=
  (run_traced h).stored

theorem Fresh.of_append {es : List (Label D R)} {e : Label D R} (h : Fresh (es ++ [e])) :
    Fresh es :=
  fun r a b hm => h r a b (List.mem_append_left _ hm)

/-- **The stored value is a serial run of ALL the finished requests** when each write replaced
    the value its request had read. -/
theorem stored_eq_serial {d : D} {es : List (Label D R)} {s : Store D R}
    (h : Run (Step update) (Store.start d) es s) (hfresh : Fresh es) :
    s.stored = serial update d s.finished := by
  refine h.invariant_along (I := fun es s => Fresh es → s.stored = serial update d s.finished)
    (fun _ => rfl) (fun es s e s' hr ih hs hf => ?_) hfresh
  have ih := ih hf.of_append
  cases hs with
  | call r => exact ih
  | read pre post r new hf hu => exact ih
  | leave pre post r hf hu =>
      show s.stored = serial update d (s.finished ++ [r])
      rw [serial_append_one, ← ih, perform_of_none hu]
  | write pre post r snapshot new hf' =>
      -- the only step that needs freshness: the new value was computed from the replaced one
      have e : snapshot = s.stored := hf r snapshot s.stored mem_middle_self
      have hu : update r s.stored = some new :=
        e ▸ ((run_traced hr).held r snapshot new (hf' ▸ mem_middle_self)).2
      show new = serial update d (s.finished ++ [r])
      rw [serial_append_one, ← ih, perform_of_some hu]

/-! ## 3. Every call is in flight or finished -/

theorem calls_append (es es' : List (Label D R)) : calls (es ++ es') = calls es ++ calls es' := by
  induction es with
  | nil => rfl
  | cons e es ih => cases e <;> simp [calls, ih]

/-- **No request is made up or forgotten**: the calls of a run are, up to order, its finished
    requests and those in flight. -/
theorem calls_perm {d : D} {es : List (Label D R)} {s : Store D R}
    (h : Run (Step update) (Store.start d) es s) :
    (calls es).Perm (s.finished ++ s.flights.map Flight.request) := by
  refine h.invariant_along
    (I := fun es s => (calls es).Perm (s.finished ++ s.flights.map Flight.request))
    (List.Perm.refl _) fun es s e s' _ ih hs => ?_
  rw [calls_append]
  cases hs with
  | call r =>
      simp only [calls, List.map_append, List.map_cons, List.map_nil, ← List.append_assoc]
      exact ih.append_right [r]
  | read pre post r new hf hu =>
      rw [hf] at ih
      simpa [calls, Flight.request] using ih
  | leave pre post r hf hu =>
      rw [hf] at ih
      simp only [calls, List.append_nil, List.map_append, List.map_cons, Flight.request] at ih ⊢
      refine ih.trans ?_
      rw [List.append_assoc]
      exact List.Perm.append_left _ (List.perm_middle)
  | write pre post r snapshot new hf =>
      rw [hf] at ih
      simp only [calls, List.append_nil, List.map_append, List.map_cons, Flight.request] at ih ⊢
      refine ih.trans ?_
      rw [List.append_assoc]
      exact List.Perm.append_left _ (List.perm_middle)

/-- Once nothing is in flight, the finished requests are the calls in another order. -/
theorem finished_perm {d : D} {es : List (Label D R)} {s : Store D R}
    (h : Run (Step update) (Store.start d) es s) (hq : s.flights = []) :
    s.finished.Perm (calls es) := by
  have := calls_perm h
  rw [hq] at this
  simpa using this.symm

end ReadModifyWrite
