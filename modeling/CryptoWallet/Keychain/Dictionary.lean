/-
  File:      CryptoWallet/Keychain/Dictionary.lean
  Subject:   What the wrapper is for: a dictionary from keys to values, kept in the keychain.

  * `Dictionary.apply`: setting, removing and clearing, with the accessibility a value was first
    stored under; `none` where the wrapper answers false.
  * `dictionary`: the dictionary that the items in the keychain are for a wrapper.
  * `performs_perform`: each operation does to the items what it does to that dictionary.
-/
import CryptoWallet.Keychain.KeychainWrapper
import Mathlib.Logic.Function.Basic

namespace CryptoWallet

open Records KeychainWrapper

/-! ## 1. The dictionary -/

/-- What is stored under a key. -/
structure Entry where
  accessible : SecAttrAccessible
  value : Data
  deriving DecidableEq

abbrev Dictionary := String → Option Entry

/-- The setters of the wrapper. -/
inductive Operation where
  | set (value : Data) (key : String) (accessibility : Option KeychainItemAccessibility)
  | removeObject (key : String) (accessibility : Option KeychainItemAccessibility)
  | removeAllKeys
  deriving DecidableEq

open Classical in
/-- **What an operation does to the dictionary**; a value stays under the accessibility it was
    first stored under, and an operation that names another one is refused. -/
noncomputable def Dictionary.apply (d : Dictionary) : Operation → Option Dictionary
  | .set value key accessibility =>
      match d key with
      | none =>
          let accessible := (accessibility.getD .whenUnlocked).keychainAttrValue
          some (Function.update d key (some ⟨accessible, value⟩))
      | some e =>
          if Admits accessibility e.accessible then
            some (Function.update d key (some { e with value := value }))
          else none
  | .removeObject key accessibility =>
      match d key with
      | none => none
      | some e =>
          if Admits accessibility e.accessible then some (Function.update d key none) else none
  | .removeAllKeys => if ∀ key, d key = none then none else some fun _ => none

theorem Dictionary.of_apply_set {d d' : Dictionary} {value : Data} {key : String}
    {accessibility : Option KeychainItemAccessibility}
    (h : d.apply (.set value key accessibility) = some d') :
    ∃ accessible, d' = Function.update d key (some ⟨accessible, value⟩) := by
  simp only [Dictionary.apply] at h
  cases hk : d key with
  | none =>
      rw [hk] at h
      exact ⟨_, (Option.some.inj h).symm⟩
  | some e =>
      simp only [hk, Option.ite_none_right_eq_some] at h
      exact ⟨_, (Option.some.inj h.2).symm⟩

theorem Dictionary.of_apply_removeObject {d d' : Dictionary} {key : String}
    {accessibility : Option KeychainItemAccessibility}
    (h : d.apply (.removeObject key accessibility) = some d') :
    d' = Function.update d key none := by
  simp only [Dictionary.apply] at h
  cases hk : d key with
  | none =>
      rw [hk] at h
      cases h
  | some e =>
      simp only [hk, Option.ite_none_right_eq_some] at h
      exact (Option.some.inj h.2).symm

/-- An operation and its answer: true is a change the dictionary admits, false changes nothing. -/
def Dictionary.Step (d : Dictionary) (o : Operation × Bool) (d' : Dictionary) : Prop :=
  if o.2 then d.apply o.1 = some d' else d' = d

/-- The dictionary that items in the keychain are for a wrapper. -/
def dictionary (w : KeychainWrapper) (group : String) (l : List Item) : Dictionary := fun key =>
  (lookup Item.primaryKey l (w.primaryKey group key)).map fun i => ⟨i.accessible, i.valueData⟩

variable {w : KeychainWrapper} {group key : String} {l l' : List Item}
  {accessibility : Option KeychainItemAccessibility}

section Items

variable (hn : (l.map Item.primaryKey).Nodup) (own : Own w group l)

include hn

theorem dictionary_perm (hp : l'.Perm l) : dictionary w group l' = dictionary w group l := by
  funext key
  rw [dictionary, dictionary, lookup_perm hn hp]

/-- An item added under a free key is a new entry. -/
theorem dictionary_added {i : Item} (hi : i.primaryKey = w.primaryKey group key)
    (ha : Added Item.primaryKey i l l') :
    dictionary w group l key = none ∧ dictionary w group l' =
      Function.update (dictionary w group l) key (some ⟨i.accessible, i.valueData⟩) := by
  refine ⟨?_, funext fun k => ?_⟩
  · rw [dictionary, lookup_eq_none.mpr (hi ▸ ha.1), Option.map_none]
  · by_cases e : k = key
    · subst e
      rw [Function.update_self, dictionary, lookup_added hn ha, if_pos hi.symm, Option.map_some]
    · have e' : w.primaryKey group k ≠ i.primaryKey := fun h => e (primaryKey_inj.mp (h.trans hi))
      rw [Function.update_of_ne e, dictionary, dictionary, lookup_added hn ha, if_neg e']

include own

/-- A query for a key selects an item exactly if the key has an entry that it admits. -/
theorem exists_selects_iff :
    (∃ i ∈ l, (w.setupKeychainQueryDictionary key accessibility).selects i = true) ↔
      ∃ e, dictionary w group l key = some e ∧ Admits accessibility e.accessible = true := by
  rw [exists_iff_lookup (q := fun i => Admits accessibility i.accessible) hn
    fun i hi => selects_iff own hi]
  simp only [dictionary, Option.map_eq_some_iff]
  constructor
  · rintro ⟨i, hi, ha⟩
    exact ⟨_, ⟨i, hi, rfl⟩, ha⟩
  · rintro ⟨_, ⟨i, hi, rfl⟩, ha⟩
    exact ⟨i, hi, ha⟩

omit hn in
/-- What a query for a key selects among the items of `k`. -/
theorem lookup_selects {k : String} {i : Item}
    (h : lookup Item.primaryKey l (w.primaryKey group k) = some i) :
    (w.setupKeychainQueryDictionary key accessibility).selects i = true ↔
      k = key ∧ Admits accessibility i.accessible = true := by
  obtain ⟨hi, hk⟩ := mem_of_lookup h
  rw [selects_iff own hi, hk, primaryKey_inj]

theorem dictionary_changed {value : Data}
    (hc : Changed (w.setupKeychainQueryDictionary key accessibility).selects
      (fun i => { i with valueData := value }) l l') :
    ∃ e, dictionary w group l key = some e ∧ Admits accessibility e.accessible = true ∧
      dictionary w group l' =
        Function.update (dictionary w group l) key (some { e with value := value }) := by
  obtain ⟨e, he, ha⟩ := (exists_selects_iff hn own).mp hc.1
  refine ⟨e, he, ha, funext fun k => ?_⟩
  have hl := lookup_changed (f := fun i => { i with valueData := value }) hn (fun _ => rfl) hc
    (w.primaryKey group k)
  rw [dictionary, hl]
  cases hk : lookup Item.primaryKey l (w.primaryKey group k) with
  | none =>
      have hne : k ≠ key := by
        rintro rfl
        rw [dictionary, hk] at he
        cases he
      rw [Function.update_of_ne hne, dictionary, hk]
      rfl
  | some i =>
      have hs : (w.setupKeychainQueryDictionary key accessibility).selects i = true ↔ _ :=
        lookup_selects own hk
      by_cases e' : k = key
      · subst e'
        rw [dictionary, hk, Option.map_some, Option.some.injEq] at he
        subst he
        rw [Function.update_self, Option.map_some, Option.map_some, if_pos (hs.mpr ⟨rfl, ha⟩)]
      · rw [Function.update_of_ne e', dictionary, hk, Option.map_some, Option.map_some,
          if_neg fun h => e' (hs.mp h).1]
        rfl

theorem dictionary_removed
    (hr : Removed (w.setupKeychainQueryDictionary key accessibility).selects l l') :
    ∃ e, dictionary w group l key = some e ∧ Admits accessibility e.accessible = true ∧
      dictionary w group l' = Function.update (dictionary w group l) key none := by
  obtain ⟨e, he, ha⟩ := (exists_selects_iff hn own).mp hr.1
  refine ⟨e, he, ha, funext fun k => ?_⟩
  rw [dictionary, lookup_removed hn hr]
  cases hk : lookup Item.primaryKey l (w.primaryKey group k) with
  | none =>
      by_cases e' : k = key
      · subst e'
        rw [Function.update_self]
        rfl
      · rw [Function.update_of_ne e', dictionary, hk]
        rfl
  | some i =>
      have hs : (w.setupKeychainQueryDictionary key accessibility).selects i = true ↔ _ :=
        lookup_selects own hk
      by_cases e' : k = key
      · subst e'
        rw [dictionary, hk, Option.map_some, Option.some.injEq] at he
        subst he
        rw [Function.update_self, Option.filter_some, hs.mpr ⟨rfl, ha⟩]
        rfl
      · have hns := Bool.eq_false_iff.mpr fun h => e' (hs.mp h).1
        rw [Function.update_of_ne e', dictionary, hk, Option.filter_some, hns]
        rfl

omit hn in
/-- The wrapper sees an item exactly if the dictionary has an entry. -/
theorem exists_sees_iff :
    (∃ i ∈ l, w.serviceQuery.selects i = true) ↔ ¬ ∀ key, dictionary w group l key = none := by
  simp only [serviceQuery_selects, dictionary, Option.map_eq_none_iff, lookup_eq_none]
  push Not
  constructor
  · rintro ⟨i, hi, hs⟩
    obtain ⟨-, k, hk⟩ := own i hi hs
    exact ⟨k, hk ▸ List.mem_map_of_mem hi⟩
  · rintro ⟨k, hk⟩
    obtain ⟨i, hi, e⟩ := List.mem_map.mp hk
    exact ⟨i, hi, sees_of_primaryKey e⟩

theorem dictionary_cleared (hr : Removed w.serviceQuery.selects l l') :
    (¬ ∀ key, dictionary w group l key = none) ∧ dictionary w group l' = fun _ => none := by
  refine ⟨(exists_sees_iff own).mp hr.1, funext fun k => ?_⟩
  rw [dictionary, lookup_removed hn hr]
  cases hk : lookup Item.primaryKey l (w.primaryKey group k) with
  | none => rfl
  | some i =>
      have hs := serviceQuery_selects.mpr (sees_of_primaryKey (mem_of_lookup hk).2)
      rw [Option.filter_some, hs]
      rfl

end Items

/-! ## 2. The operations -/

namespace KeychainWrapper

/-- An update leaves the attributes that tell the wrapper's items. -/
theorem Own.changed {p : Item → Bool} {value : Data} (own : Own w group l)
    (hc : Changed p (fun i => { i with valueData := value }) l l') : Own w group l' := by
  intro i hi hs
  obtain ⟨j, hj, rfl⟩ := List.mem_map.mp (hc.2.mem_iff.mp hi)
  by_cases hp : p j = true
  · rw [if_pos hp] at hs ⊢
    exact own j hj hs
  · rw [if_neg hp] at hs ⊢
    exact own j hj hs

theorem Own.removed {p : Item → Bool} (own : Own w group l) (hr : Removed p l l') :
    Own w group l' :=
  own.of_sees fun _ hi _ => List.mem_of_mem_filter (hr.2.mem_iff.mp hi)

theorem Own.added {i : Item} (own : Own w group l) (ha : Added Item.primaryKey i l l')
    (hi : w.Sees i → i.generic = i.account ∧ ∃ key, i.primaryKey = w.primaryKey group key) :
    Own w group l' := by
  intro j hj hs
  rcases List.mem_cons.mp (ha.2.mem_iff.mp hj) with rfl | hj
  · exact hi hs
  · exact own j hj hs

end KeychainWrapper

/-- An operation of the wrapper: its answer and the state it leaves. -/
def KeychainWrapper.perform {σ : Type} (w : KeychainWrapper) (Sec : Security σ) :
    Operation → σ → Bool × σ
  | .set value key accessibility => w.set Sec value key accessibility
  | .removeObject key accessibility => w.removeObject Sec key accessibility
  | .removeAllKeys => w.removeAllKeys Sec

section Operations

variable {σ : Type} {Sec : Security σ} {items : σ → List Item} {serves : σ → Prop}
  {s s' : σ} {op : Operation} {answer : Bool} {value : Data}

/-- What is shown of each operation: it steps the dictionary, the wrapper still sees none but its
    own items, and a state that serves answers false only where the dictionary refuses, and goes
    on serving. -/
structure Performs (w : KeychainWrapper) (group : String) (items : σ → List Item)
    (serves : σ → Prop) (op : Operation) (s : σ) (answer : Bool) (s' : σ) : Prop where
  step : (dictionary w group (items s)).Step (op, answer) (dictionary w group (items s'))
  own : Own w group (items s')
  exact : serves s → (answer = true ↔ ((dictionary w group (items s)).apply op).isSome = true)
  goesOn : serves s → serves s'

variable (doc : Sec.Documented items group serves) (own : Own w group (items s))

include doc own

/-- An operation that is refused leaves the items as they are. -/
theorem performs_refused (hp : (items s').Perm (items s))
    (hd : serves s → (dictionary w group (items s)).apply op = none ∧ serves s') :
    Performs w group items serves op s false s' where
  step := dictionary_perm (doc.distinct s) hp
  own := own.perm hp
  exact hs := by simp [(hd hs).1]
  goesOn hs := (hd hs).2

omit doc own in
/-- An operation that succeeds is one the dictionary admits. -/
theorem performs_succeeded (ho : Own w group (items s'))
    (hd : (dictionary w group (items s)).apply op = some (dictionary w group (items s')))
    (hk : serves s → serves s') : Performs w group items serves op s true s' where
  step := hd
  own := ho
  exact _ := by simp [hd]
  goesOn := hk

/-- `update` of a key, in a state in which the key has an entry. -/
theorem performs_update {e : Entry} (he : dictionary w group (items s) key = some e)
    (h : w.update Sec value key accessibility s = (answer, s')) :
    Performs w group items serves (.set value key accessibility) s answer s' := by
  have hn := doc.distinct s
  rcases hu : Sec.secItemUpdate s (w.setupKeychainQueryDictionary key accessibility) value with
    ⟨status, s₁⟩
  rw [update_eq hu] at h
  obtain ⟨hserves, ⟨rfl, hc⟩ | ⟨hst, hp, hnot⟩⟩ := doc.update_cases hu
  · cases h
    obtain ⟨e', he', ha, hd⟩ := dictionary_changed hn own hc
    refine performs_succeeded (own.changed hc) ?_ hserves
    simp only [Dictionary.apply, he', ha, if_true, hd]
  · rw [decide_eq_false hst] at h
    cases h
    refine performs_refused doc own hp fun hs => ⟨?_, hserves hs⟩
    have hna : ¬ Admits accessibility e.accessible = true := fun ha =>
      hnot hs ((exists_selects_iff hn own).mpr ⟨e, he, ha⟩)
    simp [Dictionary.apply, he, hna]

/-- **`set`**: it adds an item, or updates the one that is there. -/
theorem performs_set (h : w.set Sec value key accessibility s = (answer, s')) :
    Performs w group items serves (.set value key accessibility) s answer s' := by
  have hn := doc.distinct s
  rw [set_eq] at h
  set query := w.addQuery key accessibility
  have hkey : (query.item group value).primaryKey = w.primaryKey group key := rfl
  rcases ha : Sec.secItemAdd s query value with ⟨status, s₁⟩
  rw [ha] at h
  cases status with
  | errSecSuccess =>
      cases h
      have hadd := doc.add_success ha
      obtain ⟨hnone, hd⟩ := dictionary_added hn hkey hadd
      refine performs_succeeded (own.added hadd fun _ => ⟨rfl, key, hkey⟩) ?_ fun hs =>
        (doc.add_serves ha hs).2
      simp only [Dictionary.apply, hnone, hd]
      rfl
  | errSecDuplicateItem =>
      have hp := doc.add_failure ha (by decide)
      have hd : dictionary w group (items s₁) = dictionary w group (items s) :=
        dictionary_perm hn hp
      have hsome : dictionary w group (items s) key ≠ none := by
        rw [dictionary, ne_eq, Option.map_eq_none_iff, lookup_eq_none, not_not, ← hkey]
        exact doc.add_duplicate ha
      obtain ⟨e, he⟩ := Option.ne_none_iff_exists'.mp hsome
      have hu := performs_update doc (own.perm hp) (hd ▸ he) h
      exact ⟨hd ▸ hu.step, hu.own, fun hs => hd ▸ hu.exact (doc.add_serves ha hs).2,
        fun hs => hu.goesOn (doc.add_serves ha hs).2⟩
  | errSecItemNotFound =>
      cases h
      refine performs_refused doc own (doc.add_failure ha (by decide)) fun hs => ?_
      exact absurd (doc.add_serves ha hs).1 (by decide)
  | other code =>
      cases h
      refine performs_refused doc own (doc.add_failure ha (by simp)) fun hs => ?_
      exact absurd (doc.add_serves ha hs).1 (by simp)

theorem performs_removeObject (h : w.removeObject Sec key accessibility s = (answer, s')) :
    Performs w group items serves (.removeObject key accessibility) s answer s' := by
  have hn := doc.distinct s
  rcases hd : Sec.secItemDelete s (w.setupKeychainQueryDictionary key accessibility) with
    ⟨status, s₁⟩
  rw [removeObject_eq hd] at h
  obtain ⟨hserves, ⟨rfl, hr⟩ | ⟨hst, hp, hnot⟩⟩ := doc.delete_cases hd
  · cases h
    obtain ⟨e, he, ha, hd'⟩ := dictionary_removed hn own hr
    refine performs_succeeded (own.removed hr) ?_ hserves
    simp only [Dictionary.apply, he, ha, if_true, hd']
  · rw [decide_eq_false hst] at h
    cases h
    refine performs_refused doc own hp fun hs => ⟨?_, hserves hs⟩
    cases he : dictionary w group (items s) key with
    | none => simp only [Dictionary.apply, he]
    | some e =>
        have hna : ¬ Admits accessibility e.accessible = true := fun ha =>
          hnot hs ((exists_selects_iff hn own).mpr ⟨e, he, ha⟩)
        simp [Dictionary.apply, he, hna]

theorem performs_removeAllKeys (h : w.removeAllKeys Sec s = (answer, s')) :
    Performs w group items serves .removeAllKeys s answer s' := by
  have hn := doc.distinct s
  rcases hd : Sec.secItemDelete s w.serviceQuery with ⟨status, s₁⟩
  rw [removeAllKeys_eq hd] at h
  obtain ⟨hserves, ⟨rfl, hr⟩ | ⟨hst, hp, hnot⟩⟩ := doc.delete_cases hd
  · cases h
    obtain ⟨hne, hd'⟩ := dictionary_cleared hn own hr
    refine performs_succeeded (own.removed hr) ?_ hserves
    rw [Dictionary.apply, if_neg hne, hd']
  · rw [decide_eq_false hst] at h
    cases h
    refine performs_refused doc own hp fun hs => ⟨?_, hserves hs⟩
    rw [Dictionary.apply, if_pos (not_not.mp (mt (exists_sees_iff own).mpr (hnot hs)))]

/-- **Each operation does to the keychain what it does to the dictionary.** -/
theorem performs_perform (h : w.perform Sec op s = (answer, s')) :
    Performs w group items serves op s answer s' := by
  cases op with
  | set value key accessibility => exact performs_set doc own h
  | removeObject key accessibility => exact performs_removeObject doc own h
  | removeAllKeys => exact performs_removeAllKeys doc own h

/-- **Setting without an accessibility is never refused** in a state that serves. -/
theorem set_serves (hs : serves s) (value : Data) (key : String) :
    ∃ s' accessible, w.set Sec value key none s = (true, s') ∧
      dictionary w group (items s') =
        Function.update (dictionary w group (items s)) key (some ⟨accessible, value⟩) ∧
      Own w group (items s') ∧ serves s' := by
  rcases h : w.set Sec value key none s with ⟨answer, s'⟩
  have hp := performs_set doc own h
  have hsome : ((dictionary w group (items s)).apply (.set value key none)).isSome = true := by
    simp only [Dictionary.apply]
    cases dictionary w group (items s) key with
    | none => rfl
    | some e => rfl
  obtain rfl : answer = true := (hp.exact hs).mpr hsome
  obtain ⟨a, ha⟩ := Dictionary.of_apply_set hp.step
  exact ⟨s', a, rfl, ha, hp.own, hp.goesOn hs⟩

end Operations

end CryptoWallet
