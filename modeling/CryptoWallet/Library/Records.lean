/-
  File:      CryptoWallet/Library/Records.lean
  Subject:   A store of records that a primary key tells apart, in no particular order.

  * `lookup`: the record of a key; `lookup_eq_some`: it is the one with that key.
  * `Added`, `Changed`, `Removed`: what the calls of such a store do to its records;
    `lookup_added`, `lookup_changed`, `lookup_removed`: what they do to a lookup.
  * `exists_iff_lookup`: a selection that names one key selects through the lookup.
-/
import CryptoWallet.Library.Keyed

namespace Records

variable {ρ κ : Type*} [DecidableEq κ]

/-- The record with the key `k`. -/
def lookup (key : ρ → κ) (l : List ρ) (k : κ) : Option ρ := l.find? (key · = k)

/-- `r` has been added, under a key that was free. -/
def Added (key : ρ → κ) (r : ρ) (l l' : List ρ) : Prop :=
  key r ∉ l.map key ∧ l'.Perm (r :: l)

/-- The records selected by `p`, of which there were some, have been changed by `f`. -/
def Changed (p : ρ → Bool) (f : ρ → ρ) (l l' : List ρ) : Prop :=
  (∃ r ∈ l, p r = true) ∧ l'.Perm (l.map fun r => if p r then f r else r)

/-- The records selected by `p`, of which there were some, have been removed. -/
def Removed (p : ρ → Bool) (l l' : List ρ) : Prop :=
  (∃ r ∈ l, p r = true) ∧ l'.Perm (l.filter fun r => !p r)

variable {key : ρ → κ} {l l' : List ρ} {r : ρ} {p : ρ → Bool} {f : ρ → ρ} {k : κ}

theorem mem_of_lookup (h : lookup key l k = some r) : r ∈ l ∧ key r = k :=
  ⟨List.mem_of_find?_eq_some h, by simpa using List.find?_some h⟩

/-- **The record of a key is the one that has it.** -/
theorem lookup_eq_some (h : (l.map key).Nodup) : lookup key l k = some r ↔ r ∈ l ∧ key r = k := by
  refine ⟨mem_of_lookup, ?_⟩
  rintro ⟨hr, rfl⟩
  exact Keyed.find?_key h hr

theorem lookup_eq_none : lookup key l k = none ↔ k ∉ l.map key := by
  simp [lookup, List.find?_eq_none]

/-- **A lookup does not see the order.** -/
theorem lookup_perm (h : (l.map key).Nodup) (hp : l'.Perm l) (k : κ) :
    lookup key l' k = lookup key l k := Keyed.find?_key_perm h hp k

theorem lookup_added (h : (l.map key).Nodup) (ha : Added key r l l') (k : κ) :
    lookup key l' k = if k = key r then some r else lookup key l k := by
  obtain ⟨hr, hp⟩ := ha
  have hn : ((r :: l).map key).Nodup := List.nodup_cons.mpr ⟨hr, h⟩
  rw [lookup_perm hn hp]
  by_cases e : k = key r
  · simp [lookup, e]
  · have e' : ¬ key r = k := fun h' => e h'.symm
    simp [lookup, e, e']

theorem lookup_changed (h : (l.map key).Nodup) (hf : ∀ r, key (f r) = key r)
    (hc : Changed p f l l') (k : κ) :
    lookup key l' k = (lookup key l k).map fun r => if p r then f r else r := by
  have hkey : (l.map fun r => if p r then f r else r).map key = l.map key := by
    rw [List.map_map]
    refine List.map_congr_left fun r _ => ?_
    by_cases hp : p r = true
    · simp [hp, hf]
    · simp [hp]
  rw [lookup_perm (hkey ▸ h) hc.2, lookup, List.find?_map]
  refine congrArg (Option.map _) (congrArg (List.find? · l) (funext fun r => ?_))
  by_cases hp : p r = true
  · simp [hp, hf]
  · simp [hp]

theorem lookup_removed (h : (l.map key).Nodup) (hr : Removed p l l') (k : κ) :
    lookup key l' k = (lookup key l k).filter fun r => !p r := by
  have hn : ((l.filter fun r => !p r).map key).Nodup :=
    h.sublist (List.filter_sublist.map key)
  rw [lookup_perm hn hr.2]
  refine Option.ext fun r => ?_
  rw [lookup_eq_some hn, Option.filter_eq_some_iff, lookup_eq_some h, List.mem_filter]
  tauto

/-- **A selection that names one key** selects some record exactly if the lookup of that key
    finds one with the rest of the selection. -/
theorem exists_iff_lookup {q : ρ → Bool} (h : (l.map key).Nodup)
    (hp : ∀ r ∈ l, p r = true ↔ key r = k ∧ q r = true) :
    (∃ r ∈ l, p r = true) ↔ ∃ r, lookup key l k = some r ∧ q r = true := by
  constructor
  · rintro ⟨r, hr, hpr⟩
    exact ⟨r, (lookup_eq_some h).mpr ⟨hr, ((hp r hr).mp hpr).1⟩, ((hp r hr).mp hpr).2⟩
  · rintro ⟨r, hl, hq⟩
    obtain ⟨hr, hk⟩ := mem_of_lookup hl
    exact ⟨r, hr, (hp r hr).mpr ⟨hk, hq⟩⟩

end Records
