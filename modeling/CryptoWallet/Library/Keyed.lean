/-
  File:      CryptoWallet/Library/Keyed.lean
  Subject:   Lists whose elements have distinct keys.

  * `find?_key`: searching for an element's key finds that element.
  * `eraseIdx_eq_filter`, `eraseP_eq_filter`: removing an element is dropping its key.
  * `join`: for each element of one list the first of another with its key; `join_snd`: it runs
    through the elements that have one, `join_perm_of_count`: a list that has each key of the
    other once joins to all of it, `sum_join`: what a sum over a join counts.
  * `forall_zipIdx`, `exists_forall₂_iff`, `forall₂_comp`: elements with their positions, lists in
    step.
  * `abs_sum_sub_sum_le`: errors of the summands bound the error of a sum.
-/
import Mathlib.Algebra.BigOperators.Group.List.Basic
import Mathlib.Algebra.Order.Field.Rat
import Mathlib.Algebra.Order.Group.Unbundled.Abs
import Mathlib.Data.List.Count
import Mathlib.Data.List.Nodup
import Mathlib.Tactic.Linarith
import Mathlib.Tactic.Ring

namespace Keyed

variable {α κ : Type*} {key : α → κ} {l : List α} {x : α}

section Decidable

variable [DecidableEq κ]

/-- **Searching for a key that occurs once finds its element.** -/
theorem find?_key_of_count (h : (l.map key).count (key x) = 1) (hx : x ∈ l) :
    l.find? (key · = key x) = some x := by
  induction l with
  | nil => exact absurd hx List.not_mem_nil
  | cons y l ih =>
      rw [List.map_cons, List.count_cons] at h
      rcases List.mem_cons.mp hx with rfl | hx
      · rw [List.find?_cons_of_pos (by simp)]
      · have hpos : 0 < (l.map key).count (key x) :=
          List.count_pos_iff.mpr (List.mem_map_of_mem hx)
        have hne : ¬ key y = key x := by
          intro e
          rw [e, beq_self_eq_true, if_pos rfl] at h
          omega
        rw [beq_false_of_ne hne, if_neg Bool.false_ne_true, Nat.add_zero] at h
        rw [List.find?_cons_of_neg (by simpa using hne), ih h hx]

/-- **Searching for the key of an element finds the element**, where keys are distinct. -/
theorem find?_key (h : (l.map key).Nodup) (hx : x ∈ l) : l.find? (key · = key x) = some x :=
  find?_key_of_count (List.count_eq_one_of_mem h (List.mem_map_of_mem hx)) hx

/-- **Searching for a key does not see the order.** -/
theorem find?_key_perm {l' : List α} (h : (l.map key).Nodup) (hp : l'.Perm l) (k : κ) :
    l'.find? (key · = k) = l.find? (key · = k) := by
  cases hf : l.find? (key · = k) with
  | none =>
      rw [List.find?_eq_none] at hf ⊢
      exact fun x hx => hf x (hp.mem_iff.mp hx)
  | some x =>
      have hx : key x = k := by simpa using List.find?_some hf
      subst hx
      exact find?_key ((hp.map key).nodup_iff.mpr h)
        (hp.mem_iff.mpr (List.mem_of_find?_eq_some hf))

/-- Dropping a key that does not occur changes nothing. -/
theorem filter_ne_of_notMem {k : κ} (h : k ∉ l.map key) : l.filter (key · ≠ k) = l := by
  rw [List.filter_eq_self]
  intro y hy
  exact decide_eq_true fun e => h (e ▸ List.mem_map_of_mem hy)

/-- **Removing the element at a place is dropping its key.** -/
theorem eraseIdx_eq_filter (h : (l.map key).Nodup) {i : Nat} (hi : l[i]? = some x) :
    l.eraseIdx i = l.filter (key · ≠ key x) := by
  induction l generalizing i with
  | nil => cases hi
  | cons y l ih =>
      rw [List.map_cons, List.nodup_cons] at h
      cases i with
      | zero =>
          rw [List.getElem?_cons_zero, Option.some.injEq] at hi
          subst hi
          rw [List.eraseIdx_cons_zero, List.filter_cons_of_neg (by simp), filter_ne_of_notMem h.1]
      | succ i =>
          rw [List.getElem?_cons_succ] at hi
          have hne : key y ≠ key x :=
            fun e => h.1 (e ▸ List.mem_map_of_mem (List.mem_of_getElem? hi))
          rw [List.eraseIdx_cons_succ, List.filter_cons_of_pos (by simpa using hne), ih h.2 hi]

/-- **Removing the first element with a key is dropping the key.** -/
theorem eraseP_eq_filter (h : (l.map key).Nodup) (k : κ) :
    l.eraseP (key · = k) = l.filter (key · ≠ k) := by
  induction l with
  | nil => rfl
  | cons y l ih =>
      rw [List.map_cons, List.nodup_cons] at h
      by_cases hy : key y = k
      · subst hy
        rw [List.eraseP_cons_of_pos (by simp), List.filter_cons_of_neg (by simp),
          filter_ne_of_notMem h.1]
      · rw [List.eraseP_cons_of_neg (by simpa using hy),
          List.filter_cons_of_pos (by simpa using hy), ih h.2]

/-! ## Joins -/

variable {β : Type*} {key' : β → κ}

/-- For each element of `m` the first element of `l` with its key, where there is one. -/
def join (key : α → κ) (key' : β → κ) (l : List α) (m : List β) : List (α × β) :=
  m.filterMap fun y => (l.find? (key · = key' y)).map fun x => (x, y)

theorem join_cons_none {y : β} {m : List β} (h : l.find? (key · = key' y) = none) :
    join key key' l (y :: m) = join key key' l m := by
  rw [join, List.filterMap_cons_none (by rw [h, Option.map_none])]
  rfl

theorem join_cons_some {y : β} {m : List β} (h : l.find? (key · = key' y) = some x) :
    join key key' l (y :: m) = (x, y) :: join key key' l m := by
  rw [join, List.filterMap_cons_some (by rw [h, Option.map_some])]
  rfl

theorem mem_join {m : List β} {p : α × β} (h : p ∈ join key key' l m) :
    p.1 ∈ l ∧ p.2 ∈ m ∧ key p.1 = key' p.2 := by
  obtain ⟨y, hy, e⟩ := List.mem_filterMap.mp h
  obtain ⟨x, hx, rfl⟩ := Option.map_eq_some_iff.mp e
  exact ⟨List.mem_of_find?_eq_some hx, hy, by simpa using List.find?_some hx⟩

theorem join_mem {m : List β} (h : (l.map key).Nodup) {y : β} (hx : x ∈ l) (hy : y ∈ m)
    (e : key x = key' y) : (x, y) ∈ join key key' l m := by
  refine List.mem_filterMap.mpr ⟨y, hy, ?_⟩
  rw [← e, find?_key h hx, Option.map_some]

/-- **A join runs through the elements of the second list that the first one has a key for.** -/
theorem join_snd (m : List β) :
    (join key key' l m).map Prod.snd = m.filter (key' · ∈ l.map key) := by
  induction m with
  | nil => rfl
  | cons y m ih =>
      cases hf : l.find? (key · = key' y) with
      | none =>
          have hno : key' y ∉ l.map key := by
            intro hmem
            obtain ⟨x, hx, e⟩ := List.mem_map.mp hmem
            exact absurd e (by simpa using List.find?_eq_none.mp hf x hx)
          rw [join_cons_none hf, List.filter_cons_of_neg (by simpa using hno), ih]
      | some x =>
          have hx : key x = key' y := by simpa using List.find?_some hf
          have hyes : key' y ∈ l.map key :=
            hx ▸ List.mem_map_of_mem (List.mem_of_find?_eq_some hf)
          rw [join_cons_some hf, List.filter_cons_of_pos (by simpa using hyes), List.map_cons, ih]

/-- The pairs of a join, one after another. -/
theorem forall₂_join (m : List β) :
    List.Forall₂ (fun p y => p.2 = y ∧ p.1 ∈ l ∧ key p.1 = key' y) (join key key' l m)
      (m.filter (key' · ∈ l.map key)) := by
  rw [← join_snd, List.forall₂_map_right_iff, List.forall₂_same]
  exact fun p hp => ⟨rfl, (mem_join hp).1, (mem_join hp).2.2⟩

/-- **The keys of a join** are those of the second list that the first one has. -/
theorem join_keys (m : List β) :
    (join key key' l m).map (fun p => key p.1) = (m.map key').filter (· ∈ l.map key) := by
  have e : (join key key' l m).map (fun p => key p.1) =
      ((join key key' l m).map Prod.snd).map key' := by
    rw [List.map_map]
    exact List.map_congr_left fun p hp => (mem_join hp).2.2
  rw [e, join_snd, List.filter_map]
  rfl

/-- A join does not see the order of the first list. -/
theorem join_perm_left {l' : List α} (h : (l.map key).Nodup) (hp : l'.Perm l) (m : List β) :
    join key key' l' m = join key key' l m :=
  List.filterMap_congr fun y _ => by rw [find?_key_perm h hp]

/-- **A list that has each key of `l` once joins to all of `l`**, in another order. -/
theorem join_perm_of_count {m : List β} (hl : (l.map key).Nodup)
    (hm : ∀ x ∈ l, (m.map key').count (key x) = 1) : ((join key key' l m).map Prod.fst).Perm l := by
  have hkeys : ((join key key' l m).map Prod.fst).map key =
      (m.map key').filter (· ∈ l.map key) := by
    rw [List.map_map]
    exact join_keys m
  have hnodup : (((join key key' l m).map Prod.fst).map key).Nodup := by
    rw [hkeys, List.nodup_iff_count_le_one]
    intro k
    by_cases hk : k ∈ l.map key
    · obtain ⟨x, hx, rfl⟩ := List.mem_map.mp hk
      rw [← hm x hx]
      exact List.filter_sublist.count_le _
    · rw [List.count_eq_zero_of_not_mem fun hmem => hk (by simpa using List.of_mem_filter hmem)]
      exact Nat.zero_le 1
  rw [List.perm_ext_iff_of_nodup hnodup.of_map hl.of_map]
  intro x
  constructor
  · intro hx
    obtain ⟨p, hp, rfl⟩ := List.mem_map.mp hx
    exact (mem_join hp).1
  · intro hx
    have hcover : key x ∈ m.map key' := List.count_pos_iff.mp (by rw [hm x hx]; exact Nat.one_pos)
    obtain ⟨y, hy, e⟩ := List.mem_map.mp hcover
    exact List.mem_map.mpr ⟨(x, y), join_mem hl hx hy e.symm, rfl⟩

/-- The same for a list with distinct keys that has all keys of `l`. -/
theorem join_perm {m : List β} (hl : (l.map key).Nodup) (hm : (m.map key').Nodup)
    (hcover : ∀ x ∈ l, key x ∈ m.map key') : ((join key key' l m).map Prod.fst).Perm l :=
  join_perm_of_count hl fun x hx => List.count_eq_one_of_mem hm (hcover x hx)

/-- Summing over the one element with a key. -/
theorem sum_key (h : (l.map key).Nodup) (f : α → ℚ) (k : κ) :
    (l.map fun x => if k = key x then f x else 0).sum =
      ((l.find? (key · = k)).map f).getD 0 := by
  induction l with
  | nil => rfl
  | cons y l ih =>
      rw [List.map_cons, List.nodup_cons] at h
      rw [List.map_cons, List.sum_cons, ih h.2]
      by_cases hy : key y = k
      · subst hy
        have hnone : l.find? (key · = key y) = none :=
          List.find?_eq_none.mpr fun x hx e =>
            h.1 (of_decide_eq_true e ▸ List.mem_map_of_mem hx)
        rw [List.find?_cons_of_pos (by simp), hnone, if_pos rfl]
        simp
      · rw [List.find?_cons_of_neg (by simpa using hy), if_neg fun e => hy e.symm, zero_add]

/-- **Summing over a join counts each element as often as its key occurs.** -/
theorem sum_join (h : (l.map key).Nodup) (f : α → ℚ) (m : List β) :
    ((join key key' l m).map fun p => f p.1).sum =
      (l.map fun x => ((m.map key').count (key x) : ℚ) * f x).sum := by
  induction m with
  | nil => simp [join]
  | cons y m ih =>
      have hcount : (l.map fun x => (((y :: m).map key').count (key x) : ℚ) * f x).sum =
          (l.map fun x => if key' y = key x then f x else 0).sum +
            (l.map fun x => ((m.map key').count (key x) : ℚ) * f x).sum := by
        rw [← List.sum_map_add]
        refine congrArg List.sum (List.map_congr_left fun x _ => ?_)
        rw [List.map_cons, List.count_cons]
        by_cases e : key' y = key x
        · simp only [e, beq_self_eq_true, if_true]
          push_cast
          ring
        · have e' : (key' y == key x) = false := beq_false_of_ne e
          simp only [e, e', if_false, Bool.false_eq_true]
          push_cast
          ring
      rw [hcount, ← ih, sum_key h]
      cases hf : l.find? (key · = key' y) with
      | none => rw [join_cons_none hf, Option.map_none, Option.getD_none, zero_add]
      | some x =>
          rw [join_cons_some hf, Option.map_some, Option.getD_some, List.map_cons, List.sum_cons]

end Decidable

/-- **Errors of the summands bound the error of the sum.** -/
theorem abs_sum_sub_sum_le {f g e : α → ℚ} (h : ∀ x ∈ l, |f x - g x| ≤ e x) :
    |(l.map f).sum - (l.map g).sum| ≤ (l.map e).sum := by
  induction l with
  | nil => simp
  | cons y l ih =>
      have hy := abs_le.mp (h y (List.mem_cons_self ..))
      have hl := abs_le.mp (ih fun x hx => h x (List.mem_cons_of_mem _ hx))
      simp only [List.map_cons, List.sum_cons]
      exact abs_le.mpr ⟨by linarith [hy.1, hl.1], by linarith [hy.2, hl.2]⟩

/-- What holds of the elements of a list, their positions apart. -/
theorem forall_zipIdx {P : α → Prop} {n : Nat} : (∀ p ∈ l.zipIdx n, P p.1) ↔ ∀ x ∈ l, P x := by
  have hmap := List.forall_mem_map (f := Prod.fst) (l := l.zipIdx n) (P := P)
  rw [List.zipIdx_map_fst] at hmap
  exact hmap.symm

/-- Every element has a partner exactly when there is a list of partners. -/
theorem exists_forall₂_iff {β : Type*} {R : α → β → Prop} :
    (∃ bs, List.Forall₂ R l bs) ↔ ∀ a ∈ l, ∃ b, R a b := by
  constructor
  · intro ⟨bs, h⟩
    induction h with
    | nil => exact fun a ha => absurd ha List.not_mem_nil
    | cons hab _ ih =>
        intro x hx
        rcases List.mem_cons.mp hx with rfl | hx
        · exact ⟨_, hab⟩
        · exact ih x hx
  · intro h
    induction l with
    | nil => exact ⟨[], .nil⟩
    | cons a l ih =>
        obtain ⟨b, hb⟩ := h a List.mem_cons_self
        obtain ⟨bs, hbs⟩ := ih fun x hx => h x (List.mem_cons_of_mem _ hx)
        exact ⟨b :: bs, .cons hb hbs⟩

/-- Two lists in step with a third are in step with each other. -/
theorem forall₂_comp {α β γ : Type*} {R : α → β → Prop} {S : γ → β → Prop} {as : List α}
    {bs : List β} {cs : List γ} (h : List.Forall₂ R as bs) (h' : List.Forall₂ S cs bs) :
    List.Forall₂ (fun a c => ∃ b, R a b ∧ S c b) as cs := by
  induction h generalizing cs with
  | nil =>
      cases h'
      exact .nil
  | cons hr _ ih =>
      cases h' with
      | cons hs h' => exact .cons ⟨_, hr, hs⟩ (ih h')

end Keyed
