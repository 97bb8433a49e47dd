/-
  File:      CryptoWallet/Keychain/Sharing.lean
  Subject:   Runs of several wrappers on one keychain, with other code at work on it and the
             device locked and unlocked in between.

  A wrapper is apart from another when their services differ, or the groups that both name. Code
  that is no wrapper may do what it likes to the items that a wrapper does not see.

  * `keychain_refines_dictionary`: over every run, what a wrapper has stored is what its own
    operations that answered true make of its dictionary, one after another.
  * `keychain_reads_dictionary`: in every state reached, the getters read that dictionary.
  * `keychain_keeps_string`: a string that was stored is the string read, until the wrapper
    stores or removes something under its key.
  * `keychain_keeps_accessibility`: the accessibility a key was first stored under stays its own
    until the wrapper removes it.
-/
import CryptoWallet.Keychain.Dictionary
import CryptoWallet.Library.Runs

namespace CryptoWallet

open Records Runs KeychainWrapper

variable {w : KeychainWrapper} {group key : String} {l l' : List Item}
  {accessibility : Option KeychainItemAccessibility}

/-! ## 1. Several wrappers on one keychain -/

inductive KeychainEvent where
  | use (w : KeychainWrapper) (op : Operation) (answer : Bool)
  | elsewhere
  deriving DecidableEq

/-- The items a wrapper sees stay as they are. -/
def SameSeen (w : KeychainWrapper) (l l' : List Item) : Prop :=
  ∀ i, w.Sees i → (i ∈ l' ↔ i ∈ l)

/-- One event, for the wrapper `w`: an operation of some wrapper, or what other code and the
    device do, any change that leaves the items `w` sees. -/
inductive KeychainStep {σ : Type} (Sec : Security σ) (items : σ → List Item)
    (w : KeychainWrapper) : σ → KeychainEvent → σ → Prop where
  | use {s s' : σ} {w' : KeychainWrapper} {op : Operation} {answer : Bool} :
      w'.perform Sec op s = (answer, s') → KeychainStep Sec items w s (.use w' op answer) s'
  | elsewhere {s s' : σ} :
      SameSeen w (items s) (items s') → KeychainStep Sec items w s .elsewhere s'

/-- The operations of one wrapper among the events, with their answers. -/
def KeychainEvent.operation? (w : KeychainWrapper) : KeychainEvent → Option (Operation × Bool)
  | .use w' op answer => if w' = w then some (op, answer) else none
  | .elsewhere => none

/-- **Two wrappers that never see each other's items.** -/
def KeychainWrapper.Apart (w w' : KeychainWrapper) : Prop :=
  w.serviceName ≠ w'.serviceName ∨
    ∃ g ∈ w.accessGroup, ∃ g' ∈ w'.accessGroup, g ≠ g'

/-- The labels in which every other wrapper is apart from `w`. -/
def KeychainEvent.Foreign (w : KeychainWrapper) : KeychainEvent → Prop
  | .use w' _ _ => w' = w ∨ w.Apart w'
  | .elsewhere => True

section Apart

variable {σ : Type} {Sec : Security σ} {items : σ → List Item} {serves : σ → Prop}
  {s s' : σ} {op : Operation} {answer : Bool} {w' : KeychainWrapper} {i : Item}

/-- No item is seen by two wrappers that are apart. -/
theorem KeychainWrapper.Apart.not_sees (h : w.Apart w') (hs : w'.Sees i) : ¬ w.Sees i := by
  rintro ⟨hw, hg⟩
  obtain ⟨hw', hg'⟩ := hs
  rcases h with h | ⟨g, hwg, g', hwg', hne⟩
  · exact h (hw.symm.trans hw')
  · rw [Option.mem_def] at hwg hwg'
    rw [hwg, Option.all_some, decide_eq_true_eq] at hg
    rw [hwg', Option.all_some, decide_eq_true_eq] at hg'
    exact hne (hg.symm.trans hg')

theorem KeychainWrapper.Apart.ne (h : w.Apart w') : w' ≠ w := by
  rintro rfl
  rcases h with h | ⟨g, hg, g', hg', hne⟩
  · exact h rfl
  · exact hne (Option.mem_unique hg hg')

theorem SameSeen.of_perm (hp : l'.Perm l) : SameSeen w l l' := fun _ _ => hp.mem_iff

theorem SameSeen.trans {l'' : List Item} (h : SameSeen w l l') (h' : SameSeen w l' l'') :
    SameSeen w l l'' := fun i hs => (h' i hs).trans (h i hs)

theorem SameSeen.added (hi : ¬ w.Sees i) (ha : Added Item.primaryKey i l l') :
    SameSeen w l l' := by
  intro j hs
  have hne : j ≠ i := fun e => hi (e ▸ hs)
  rw [ha.2.mem_iff, List.mem_cons, or_iff_right hne]

theorem SameSeen.changed {p : Item → Bool} {value : Data} (hp : ∀ i, p i = true → ¬ w.Sees i)
    (hc : Changed p (fun i => { i with valueData := value }) l l') : SameSeen w l l' := by
  intro j hs
  rw [hc.2.mem_iff, List.mem_map]
  constructor
  · rintro ⟨i, hi, rfl⟩
    by_cases hpi : p i = true
    · rw [if_pos hpi] at hs
      exact absurd hs (hp i hpi)
    · rwa [if_neg hpi]
  · intro hj
    exact ⟨j, hj, if_neg fun hpj => hp j hpj hs⟩

theorem SameSeen.removed {p : Item → Bool} (hp : ∀ i, p i = true → ¬ w.Sees i)
    (hr : Removed p l l') : SameSeen w l l' := by
  intro j hs
  have hpj : p j = false := Bool.eq_false_iff.mpr fun h => hp j h hs
  rw [hr.2.mem_iff, List.mem_filter, hpj]
  simp

/-- The dictionary of a wrapper is read off the items it sees. -/
theorem SameSeen.dictionary_eq (hn : (l.map Item.primaryKey).Nodup)
    (hn' : (l'.map Item.primaryKey).Nodup) (h : SameSeen w l l') :
    dictionary w group l' = dictionary w group l := by
  funext key
  rw [dictionary, dictionary]
  refine congrArg _ (Option.ext fun i => ?_)
  rw [lookup_eq_some hn', lookup_eq_some hn, and_congr_left_iff]
  exact fun hk => h i (sees_of_primaryKey hk)

/-- Every query of a wrapper selects items that it sees. -/
theorem sees_of_selects
    (h : (w.setupKeychainQueryDictionary key accessibility).selects i = true) : w.Sees i := by
  simp only [setupKeychainQueryDictionary, Query.selects, Option.all_some, Bool.and_eq_true,
    decide_eq_true_eq] at h
  exact ⟨h.1.1.1.1, h.2⟩

variable (doc : Sec.Documented items group serves) (apart : w.Apart w')

include doc apart

theorem sameSeen_update {value : Data}
    (h : w'.update Sec value key accessibility s = (answer, s')) :
    SameSeen w (items s) (items s') := by
  rcases hu : Sec.secItemUpdate s (w'.setupKeychainQueryDictionary key accessibility) value with
    ⟨status, s₁⟩
  rw [update_eq hu] at h
  cases h
  obtain ⟨-, ⟨-, hc⟩ | ⟨-, hp, -⟩⟩ := doc.update_cases hu
  · exact .changed (fun i hi => apart.not_sees (sees_of_selects hi)) hc
  · exact .of_perm hp

/-- **An operation of a wrapper that is apart changes nothing that a wrapper sees.** -/
theorem sameSeen_perform (h : w'.perform Sec op s = (answer, s')) :
    SameSeen w (items s) (items s') := by
  have hsel : ∀ {key : String} {accessibility : Option KeychainItemAccessibility} (i : Item),
      (w'.setupKeychainQueryDictionary key accessibility).selects i = true → ¬ w.Sees i :=
    fun i hi => apart.not_sees (sees_of_selects hi)
  cases op with
  | set value key accessibility =>
      rw [perform, set_eq] at h
      rcases ha : Sec.secItemAdd s (w'.addQuery key accessibility) value with ⟨status, s₁⟩
      rw [ha] at h
      cases status with
      | errSecSuccess =>
          cases h
          have hkey : ((w'.addQuery key accessibility).item group value).primaryKey =
              w'.primaryKey group key := rfl
          exact .added (apart.not_sees (sees_of_primaryKey hkey)) (doc.add_success ha)
      | errSecDuplicateItem =>
          exact (SameSeen.of_perm (doc.add_failure ha (by decide))).trans
            (sameSeen_update doc apart h)
      | errSecItemNotFound =>
          cases h
          exact .of_perm (doc.add_failure ha (by decide))
      | other code =>
          cases h
          exact .of_perm (doc.add_failure ha (by simp))
  | removeObject key accessibility =>
      rcases hd : Sec.secItemDelete s (w'.setupKeychainQueryDictionary key accessibility) with
        ⟨status, s₁⟩
      rw [perform, removeObject_eq hd] at h
      cases h
      obtain ⟨-, ⟨-, hr⟩ | ⟨-, hp, -⟩⟩ := doc.delete_cases hd
      · exact .removed hsel hr
      · exact .of_perm hp
  | removeAllKeys =>
      rcases hd : Sec.secItemDelete s w'.serviceQuery with ⟨status, s₁⟩
      rw [perform, removeAllKeys_eq hd] at h
      cases h
      obtain ⟨-, ⟨-, hr⟩ | ⟨-, hp, -⟩⟩ := doc.delete_cases hd
      · exact .removed (fun i hi => apart.not_sees (serviceQuery_selects.mp hi)) hr
      · exact .of_perm hp

end Apart

/-! ## 2. Runs -/

/-- An empty keychain. -/
def noItems : Items := ⟨[], List.nodup_nil⟩

/-- The keychain after the app has stored an email. -/
def emailStored : Items :=
  ((standard none).setString (memoryKeychain "app") "ann@mail.org" "email" none noItems).2

/-- The keychain after a wrapper of another service has stored something under the same key. -/
def otherStored : Items :=
  (KeychainWrapper.setString (memoryKeychain "app") ⟨"other", none⟩ "bob" "email" none
    emailStored).2

theorem own_noItems : Own (standard none) "app" noItems.list :=
  fun _ hi => absurd hi List.not_mem_nil

theorem setString_noItems :
    (standard none).setString (memoryKeychain "app") "ann@mail.org" "email" none noItems =
      (true, emailStored) := rfl

/-- An item of code that does not use the wrapper. -/
def signedInUser : Item where
  service := "firebase_auth"
  account := "user".toUTF8
  accessGroup := "app"
  generic := .empty
  accessible := .afterFirstUnlock
  valueData := "token".toUTF8

/-- The keychain after that code has taken the other service's item away and added its own. -/
def userStored : Items :=
  (otherStored.delete fun i => decide (i.service = "other")).add signedInUser (by decide +kernel)

theorem sameSeen_userStored : SameSeen (standard none) otherStored.list userStored.list := by
  have hdeleted : SameSeen (standard none) otherStored.list
      (otherStored.delete fun i => decide (i.service = "other")).list := by
    refine .removed (p := fun i => decide (i.service = "other")) ?_
      ⟨by decide +kernel, List.Perm.refl _⟩
    rintro i hi ⟨hservice, -⟩
    rw [of_decide_eq_true hi] at hservice
    exact absurd hservice (by decide)
  refine hdeleted.trans (.added ?_ ⟨by decide +kernel, List.Perm.refl _⟩)
  rintro ⟨hservice, -⟩
  exact absurd hservice (by decide)

/-- What the app does, then the other service, and then other code. -/
def storing : List KeychainEvent :=
  [.use (standard none) (.set "ann@mail.org".toUTF8 "email" none) true,
    .use ⟨"other", none⟩ (.set "bob".toUTF8 "email" none) true, .elsewhere]

theorem run_emailStored :
    Run (KeychainStep (memoryKeychain "app") Items.list (standard none)) noItems
      [.use (standard none) (.set "ann@mail.org".toUTF8 "email" none) true] emailStored :=
  .single (.use setString_noItems)

theorem run_userStored :
    Run (KeychainStep (memoryKeychain "app") Items.list (standard none)) emailStored
      [.use ⟨"other", none⟩ (.set "bob".toUTF8 "email" none) true, .elsewhere] userStored :=
  (Run.single (.use (Prod.ext (by decide +kernel) rfl))).next (.elsewhere sameSeen_userStored)

theorem run_storing :
    Run (KeychainStep (memoryKeychain "app") Items.list (standard none)) noItems storing
      userStored :=
  (run_emailStored.next (.use (Prod.ext (by decide +kernel) rfl))).next
    (.elsewhere sameSeen_userStored)

theorem foreign_storing : ∀ e ∈ storing, e.Foreign (standard none) := by
  simp [storing, KeychainEvent.Foreign, Apart, standard]

section Runs

variable {σ : Type} {Sec : Security σ} {items : σ → List Item} {serves : σ → Prop}
  {s₀ s : σ} {es : List KeychainEvent} {value : String}

/-- One event is a step of the wrapper's dictionary, or nothing to it. -/
theorem KeychainStep.simulates (doc : Sec.Documented items group serves)
    {s' : σ} {e : KeychainEvent} (own : Own w group (items s)) (foreign : e.Foreign w)
    (h : KeychainStep Sec items w s e s') :
    Own w group (items s') ∧
      Simulates (fun s => dictionary w group (items s)) (KeychainEvent.operation? w)
        Dictionary.Step s e s' := by
  have hsame : SameSeen w (items s) (items s') →
      Own w group (items s') ∧ dictionary w group (items s') = dictionary w group (items s) :=
    fun hss => ⟨own.of_sees fun i hi hsees => (hss i hsees).mp hi,
      hss.dictionary_eq (doc.distinct s) (doc.distinct s')⟩
  cases h with
  | elsewhere hss => exact hsame hss
  | @use _ w' op answer hop =>
      by_cases hw : w' = w
      · subst hw
        have hp := performs_perform doc own hop
        refine ⟨hp.own, ?_⟩
        simpa [Simulates, KeychainEvent.operation?] using hp.step
      · obtain ⟨ho, hd⟩ := hsame (sameSeen_perform doc (foreign.resolve_left hw) hop)
        refine ⟨ho, ?_⟩
        simpa [Simulates, KeychainEvent.operation?, hw] using hd

theorem dictionary_run (doc : Sec.Documented items group serves)
    (own : Own w group (items s₀)) (h : Run (KeychainStep Sec items w) s₀ es s)
    (foreign : ∀ e ∈ es, e.Foreign w) :
    Run Dictionary.Step (dictionary w group (items s₀))
        (es.filterMap (KeychainEvent.operation? w)) (dictionary w group (items s)) ∧
      Own w group (items s) :=
  h.simulate (I := fun s => Own w group (items s)) own
    (fun _ _ _ ho hf hs => hs.simulates doc ho hf) foreign

/-- **The wrapper is a dictionary**: over every run on the shared keychain, its dictionary is what
    its own operations, with the answers they gave, make of the one it started with, and in a
    state that serves an operation answers true exactly if the dictionary admits it. -/
theorem keychain_refines_dictionary (doc : Sec.Documented items group serves)
    (own : Own w group (items s₀)) (h : Run (KeychainStep Sec items w) s₀ es s)
    (foreign : ∀ e ∈ es, e.Foreign w) :
    Run Dictionary.Step (dictionary w group (items s₀))
        (es.filterMap (KeychainEvent.operation? w)) (dictionary w group (items s)) ∧
      ∀ op, serves s → ((w.perform Sec op s).1 = true ↔
        ((dictionary w group (items s)).apply op).isSome = true) := by
  obtain ⟨hr, ho⟩ := dictionary_run doc own h foreign
  exact ⟨hr, fun op hs => (performs_perform doc ho rfl).exact hs⟩

theorem keychain_refines_dictionary_storing :
    Run Dictionary.Step (dictionary (standard none) "app" noItems.list)
        (storing.filterMap (KeychainEvent.operation? (standard none)))
        (dictionary (standard none) "app" userStored.list) ∧
      ∀ op, True → (((standard none).perform (memoryKeychain "app") op userStored).1 = true ↔
        ((dictionary (standard none) "app" userStored.list).apply op).isSome = true) :=
  keychain_refines_dictionary (memoryKeychain_documented "app") own_noItems run_storing
    foreign_storing

/-! ## 3. What is read -/

variable {order : List (KeychainItemAccessibility × SecAttrAccessible)}
  {decode : Data → Option String}

/-- What the wrapper's getters answer, from its dictionary. -/
structure Reads (Sec : Security σ) (w : KeychainWrapper) (serves : σ → Prop)
    (order : List (KeychainItemAccessibility × SecAttrAccessible))
    (decode : Data → Option String) (d : Dictionary) (s : σ) : Prop where
  data_some : ∀ key accessibility value, w.data Sec key accessibility s = some value →
    ∃ e, d key = some e ∧ Admits accessibility e.accessible = true ∧ e.value = value
  data_serves : serves s → ∀ key accessibility, w.data Sec key accessibility s =
    ((d key).filter fun e => Admits accessibility e.accessible).map Entry.value
  hasValue_serves : serves s → ∀ key accessibility, w.hasValue Sec key accessibility s = true ↔
    ∃ e, d key = some e ∧ Admits accessibility e.accessible = true
  accessibility_serves : serves s → ∀ key, w.accessibilityOfKey Sec order key s =
    (d key).bind fun e => accessibilityForAttributeValue order e.accessible
  allKeys_serves : serves s → (∀ key, d key ≠ none → decode key.toUTF8 = some key) →
    ∀ key, key ∈ w.allKeys Sec decode s ↔ d key ≠ none

/-- What a query for a key answers that finds an item. -/
theorem copy_success (doc : Sec.Documented items group serves) (own : Own w group (items s))
    {result : List Item}
    (h : Sec.secItemCopyMatching s (w.setupKeychainQueryDictionary key accessibility) .one =
      (.errSecSuccess, result)) :
    ∃ i, result = [i] ∧ dictionary w group (items s) key = some ⟨i.accessible, i.valueData⟩ ∧
      Admits accessibility i.accessible = true := by
  obtain ⟨i, hi, hsel, rfl⟩ := doc.copy_one h
  obtain ⟨hk, ha⟩ := (selects_iff own hi).mp hsel
  refine ⟨i, rfl, ?_, ha⟩
  rw [dictionary, (lookup_eq_some (doc.distinct s)).mpr ⟨hi, hk⟩]
  rfl

/-- A query for a key in a state that serves: it finds the item the dictionary has, or none. -/
theorem copy_serves (doc : Sec.Documented items group serves) (own : Own w group (items s))
    (hs : serves s) (key : String) (accessibility : Option KeychainItemAccessibility) :
    (∃ i, Sec.secItemCopyMatching s (w.setupKeychainQueryDictionary key accessibility) .one =
        (.errSecSuccess, [i]) ∧ dictionary w group (items s) key =
          some ⟨i.accessible, i.valueData⟩ ∧ Admits accessibility i.accessible = true) ∨
      ∃ result, Sec.secItemCopyMatching s (w.setupKeychainQueryDictionary key accessibility) .one =
        (.errSecItemNotFound, result) ∧
          ∀ e, dictionary w group (items s) key = some e →
            ¬ Admits accessibility e.accessible = true := by
  rcases hc : Sec.secItemCopyMatching s (w.setupKeychainQueryDictionary key accessibility) .one
    with ⟨status, result⟩
  rcases doc.copy_serves hc hs with rfl | rfl
  · obtain ⟨i, rfl, hd, ha⟩ := copy_success doc own hc
    exact .inl ⟨i, rfl, hd, ha⟩
  · refine .inr ⟨result, rfl, fun e he ha => doc.copy_notFound hc ?_⟩
    exact (exists_selects_iff (doc.distinct s) own).mpr ⟨e, he, ha⟩

/-- `data` answers nothing where its query does not succeed. -/
theorem data_of_failure {status : OSStatus} {result : List Item} (hst : status ≠ .errSecSuccess)
    (h : Sec.secItemCopyMatching s (w.setupKeychainQueryDictionary key accessibility) .one =
      (status, result)) : w.data Sec key accessibility s = none := by
  rw [data, h]
  cases status with
  | errSecSuccess => exact absurd rfl hst
  | errSecDuplicateItem => rfl
  | errSecItemNotFound => rfl
  | other code => rfl

/-- `data` in a state that serves. -/
theorem data_serves (doc : Sec.Documented items group serves) (own : Own w group (items s))
    (hs : serves s) (key : String) (accessibility : Option KeychainItemAccessibility) :
    w.data Sec key accessibility s =
      ((dictionary w group (items s) key).filter fun e => Admits accessibility e.accessible).map
        Entry.value := by
  rcases copy_serves doc own hs key accessibility with ⟨i, hc, hd, ha⟩ | ⟨result, hc, hn⟩
  · rw [data, hc, hd, Option.filter_some, ha]
    rfl
  · rw [data_of_failure (by decide) hc]
    cases hd : dictionary w group (items s) key with
    | none => rfl
    | some e =>
        rw [Option.filter_some, Bool.eq_false_iff.mpr (hn e hd)]
        rfl

/-- `allKeys` in a state that serves: the accounts of the items the wrapper sees. -/
theorem mem_allKeys (doc : Sec.Documented items group serves) (own : Own w group (items s))
    (hs : serves s)
    (hdec : ∀ key, dictionary w group (items s) key ≠ none → decode key.toUTF8 = some key)
    (key : String) : key ∈ w.allKeys Sec decode s ↔ dictionary w group (items s) key ≠ none := by
  have hkeys : ∀ k, dictionary w group (items s) k ≠ none ↔
      ∃ i ∈ items s, i.primaryKey = w.primaryKey group k := by
    intro k
    rw [dictionary, ne_eq, Option.map_eq_none_iff, lookup_eq_none, not_not, List.mem_map]
  rcases hc : Sec.secItemCopyMatching s w.serviceQuery .all with ⟨status, results⟩
  rw [allKeys, hc]
  rcases doc.copy_serves hc hs with rfl | rfl
  · have hmem : ∀ i, i ∈ results ↔ i ∈ items s ∧ w.Sees i := fun i => by
      rw [(doc.copy_all hc).mem_iff, List.mem_filter, serviceQuery_selects]
    simp only [List.mem_toFinset, List.mem_filterMap, hmem]
    constructor
    · rintro ⟨i, ⟨hi, hsees⟩, hd⟩
      obtain ⟨-, k, hk⟩ := own i hi hsees
      have hk' := (hkeys k).mpr ⟨i, hi, hk⟩
      have ha : i.account = k.toUTF8 := congrArg PrimaryKey.account hk
      rw [ha, hdec k hk', Option.some.injEq] at hd
      exact hd ▸ hk'
    · intro hk
      obtain ⟨i, hi, e⟩ := (hkeys key).mp hk
      have ha : i.account = key.toUTF8 := congrArg PrimaryKey.account e
      exact ⟨i, ⟨hi, sees_of_primaryKey e⟩, ha ▸ hdec key hk⟩
  · have hempty := not_not.mp (mt (exists_sees_iff own).mpr (doc.copy_notFound hc))
    simp [hempty key]

/-- **The getters read the dictionary** of a wrapper that sees only its own items. -/
theorem reads_of_own (doc : Sec.Documented items group serves) (own : Own w group (items s)) :
    Reads Sec w serves order decode (dictionary w group (items s)) s where
  data_some key accessibility value h := by
    rcases hc : Sec.secItemCopyMatching s (w.setupKeychainQueryDictionary key accessibility) .one
      with ⟨status, result⟩
    by_cases hst : status = .errSecSuccess
    · subst hst
      obtain ⟨i, rfl, hd, ha⟩ := copy_success doc own hc
      rw [data, hc] at h
      cases h
      exact ⟨_, hd, ha, rfl⟩
    · rw [data_of_failure hst hc] at h
      cases h
  data_serves hs key accessibility := data_serves doc own hs key accessibility
  hasValue_serves hs key accessibility := by
    rw [hasValue, data_serves doc own hs]
    simp only [Option.isSome_map, Option.isSome_filter, Option.any_eq_true]
  accessibility_serves hs key := by
    have e : ({ w.setupKeychainQueryDictionary key none with accessible := none } : Query) =
        w.setupKeychainQueryDictionary key none := rfl
    rcases copy_serves doc own hs key none with
      ⟨i, hc, hd, -⟩ | ⟨result, hc, hn⟩
    · simp only [accessibilityOfKey, e, hc, hd, Option.bind_some]
    · have hnone : dictionary w group (items s) key = none :=
        Option.eq_none_iff_forall_ne_some.mpr fun e he => hn e he rfl
      simp only [accessibilityOfKey, e, hc, hnone, Option.bind_none]
  allKeys_serves hs hdec := mem_allKeys doc own hs hdec

/-- `string` without an accessibility, in a state that serves. -/
theorem string_serves (doc : Sec.Documented items group serves) (own : Own w group (items s))
    (hs : serves s) (key : String) : w.string Sec decode key none s =
      (dictionary w group (items s) key).bind fun e => decode e.value := by
  rw [string, data_serves doc own hs]
  cases dictionary w group (items s) key with
  | none => rfl
  | some e => rfl

/-- **The getters read the dictionary**, in every state of every run on the shared keychain: what
    they answer is there, and in a state that serves they answer all of it. -/
theorem keychain_reads_dictionary (doc : Sec.Documented items group serves)
    (own : Own w group (items s₀)) (h : Run (KeychainStep Sec items w) s₀ es s)
    (foreign : ∀ e ∈ es, e.Foreign w) :
    Reads Sec w serves order decode (dictionary w group (items s)) s :=
  reads_of_own doc (dictionary_run doc own h foreign).2

theorem keychain_reads_dictionary_storing :
    Reads (memoryKeychain "app") (standard none) (fun _ => True) keychainItemAccessibilityLookup
      String.fromUTF8? (dictionary (standard none) "app" userStored.list) userStored :=
  keychain_reads_dictionary (memoryKeychain_documented "app") own_noItems run_storing
    foreign_storing

/-! ## 4. Strings -/

/-- The key an operation stores or removes something under. -/
def Operation.Touches (key : String) : Operation → Prop
  | .set _ k _ => k = key
  | .removeObject k _ => k = key
  | .removeAllKeys => True

/-- An operation leaves the entries of other keys. -/
theorem Dictionary.apply_of_not_touches {d d' : Dictionary} {op : Operation}
    (h : d.apply op = some d') (hk : ¬ op.Touches key) : d' key = d key := by
  cases op with
  | set value k accessibility =>
      obtain ⟨a, rfl⟩ := of_apply_set h
      exact Function.update_of_ne (fun e => hk e.symm) _ _
  | removeObject k accessibility =>
      rw [of_apply_removeObject h]
      exact Function.update_of_ne (fun e => hk e.symm) _ _
  | removeAllKeys => exact absurd trivial hk

/-- What the operations of a run keep, as far as they answer true, holds after it. -/
theorem Dictionary.run_keeps {P : Dictionary → Prop} {A : Operation → Prop} {d d' : Dictionary}
    {os : List (Operation × Bool)}
    (hstep : ∀ d op d', P d → A op → d.apply op = some d' → P d')
    (h : Run Dictionary.Step d os d') (hA : ∀ op, (op, true) ∈ os → A op) (h0 : P d) : P d' := by
  induction h with
  | start => exact h0
  | @next os d₁ d₂ o _ hs ih =>
      have hd₁ := ih fun op hop => hA op (List.mem_append_left _ hop)
      obtain ⟨op, answer⟩ := o
      cases answer with
      | true => exact hstep d₁ op d₂ hd₁ (hA op (by simp)) hs
      | false =>
          have e : d₂ = d₁ := hs
          rwa [e]

/-- The operations of the wrapper among the events are its own. -/
theorem mem_of_operation {op : Operation} {answer : Bool}
    (h : (op, answer) ∈ es.filterMap (KeychainEvent.operation? w)) : .use w op answer ∈ es := by
  obtain ⟨e, he, ho⟩ := List.mem_filterMap.mp h
  cases e with
  | elsewhere => cases ho
  | use w' op' answer' =>
      simp only [KeychainEvent.operation?, Option.ite_none_right_eq_some, Option.some.injEq,
        Prod.mk.injEq] at ho
      obtain ⟨rfl, rfl, rfl⟩ := ho
      exact he

/-- **A string that was stored is read back**, after any run in which no operation of the wrapper
    that answered true touched its key: the other wrappers may do what they like. -/
theorem keychain_keeps_string (doc : Sec.Documented items group serves)
    (own : Own w group (items s₀)) (hdec : decode value.toUTF8 = some value)
    {s₁ s₂ : σ} {es' : List KeychainEvent} (h : Run (KeychainStep Sec items w) s₀ es s)
    (hset : w.setString Sec value key accessibility s = (true, s₁))
    (h' : Run (KeychainStep Sec items w) s₁ es' s₂) (foreign : ∀ e ∈ es ++ es', e.Foreign w)
    (untouched : ∀ op, .use w op true ∈ es' → ¬ op.Touches key) (hs : serves s₂) :
    w.string Sec decode key none s₂ = some value := by
  have hf := List.forall_mem_append.mp foreign
  have ho := (dictionary_run doc own h hf.1).2
  have hp := performs_set doc ho hset
  obtain ⟨accessible, he⟩ := Dictionary.of_apply_set hp.step
  obtain ⟨hr, ho'⟩ := dictionary_run doc hp.own h' hf.2
  have hkeep : dictionary w group (items s₂) key = dictionary w group (items s₁) key :=
    Dictionary.run_keeps (P := fun d => d key = dictionary w group (items s₁) key)
      (fun _ _ _ hd hk ha => (Dictionary.apply_of_not_touches ha hk).trans hd) hr
      (fun op hop => untouched op (mem_of_operation hop)) rfl
  rw [string_serves doc ho' hs, hkeep, he, Function.update_self, Option.bind_some, hdec]

theorem keychain_keeps_string_storing :
    (standard none).string (memoryKeychain "app") String.fromUTF8? "email" none userStored =
      some "ann@mail.org" :=
  keychain_keeps_string (memoryKeychain_documented "app") own_noItems (by decide +kernel)
    (.start : Run (KeychainStep (memoryKeychain "app") Items.list (standard none))
      noItems [] noItems)
    setString_noItems run_userStored (by simp [KeychainEvent.Foreign, Apart, standard])
    (by simp [standard]) trivial

/-! ## 5. Accessibilities -/

/-- Whether an operation may take the entry of a key away. -/
def Operation.Removes (key : String) : Operation → Prop
  | .set _ _ _ => False
  | .removeObject k _ => k = key
  | .removeAllKeys => True

theorem KeychainItemAccessibility.keychainAttrValue_inj {a a' : KeychainItemAccessibility}
    (h : a.keychainAttrValue = a'.keychainAttrValue) : a = a' := by
  have ha := accessibilityForAttributeValue_keychainAttrValue (List.Perm.refl _) a
  rw [h, accessibilityForAttributeValue_keychainAttrValue (List.Perm.refl _)] at ha
  exact (Option.some.inj ha).symm

/-- The accessibility that a call names admits no other. -/
theorem admits_iff {a a' : KeychainItemAccessibility} :
    Admits (some a) a'.keychainAttrValue = true ↔ a = a' := by
  rw [Admits, Option.all_some, decide_eq_true_eq]
  exact ⟨fun h => (KeychainItemAccessibility.keychainAttrValue_inj h).symm, fun h => h ▸ rfl⟩

/-- What is set under a free key has the accessibility of the call. -/
theorem Dictionary.apply_set_free {d d' : Dictionary} {value : Data} (hd : d key = none)
    (h : d.apply (.set value key accessibility) = some d') :
    (d' key).map Entry.accessible = some (accessibility.getD .whenUnlocked).keychainAttrValue := by
  simp only [Dictionary.apply, hd, Option.some.injEq] at h
  rw [← h, Function.update_self, Option.map_some]

/-- **An entry stays under the accessibility it has** when something is set, and when another key
    is removed. -/
theorem Dictionary.apply_accessible {d d' : Dictionary} {op : Operation} {a : SecAttrAccessible}
    (hd : (d key).map Entry.accessible = some a) (hk : ¬ op.Removes key)
    (h : d.apply op = some d') : (d' key).map Entry.accessible = some a := by
  cases op with
  | set value k accessibility =>
      by_cases e : k = key
      · subst e
        obtain ⟨entry, he, rfl⟩ := Option.map_eq_some_iff.mp hd
        simp only [Dictionary.apply, he, Option.ite_none_right_eq_some] at h
        obtain ⟨-, h⟩ := h
        cases h
        rw [Function.update_self, Option.map_some]
      · rwa [apply_of_not_touches h e]
  | removeObject k accessibility =>
      rwa [apply_of_not_touches h hk]
  | removeAllKeys => exact absurd trivial hk

/-- **The accessibility a key was first stored under stays its own**, after any run in which no
    operation of the wrapper that answered true removed the key: it is the one read back, and the
    only one under which the key can be set again or removed. -/
theorem keychain_keeps_accessibility (doc : Sec.Documented items group serves)
    (own : Own w group (items s₀)) (horder : order.Perm keychainItemAccessibilityLookup)
    {data : Data} {s₁ s₂ : σ} {es' : List KeychainEvent}
    (h : Run (KeychainStep Sec items w) s₀ es s)
    (free : dictionary w group (items s) key = none)
    (hset : w.set Sec data key accessibility s = (true, s₁))
    (h' : Run (KeychainStep Sec items w) s₁ es' s₂) (foreign : ∀ e ∈ es ++ es', e.Foreign w)
    (kept : ∀ op, .use w op true ∈ es' → ¬ op.Removes key) (hs : serves s₂) :
    w.accessibilityOfKey Sec order key s₂ = some (accessibility.getD .whenUnlocked) ∧
      ∀ a, (∀ data', (w.set Sec data' key (some a) s₂).1 = true ↔
          a = accessibility.getD .whenUnlocked) ∧
        ((w.removeObject Sec key (some a) s₂).1 = true ↔
          a = accessibility.getD .whenUnlocked) := by
  have hf := List.forall_mem_append.mp foreign
  have ho := (dictionary_run doc own h hf.1).2
  have hp := performs_set doc ho hset
  obtain ⟨hr, ho'⟩ := dictionary_run doc hp.own h' hf.2
  have hkeep := Dictionary.run_keeps (fun _ _ _ hd hk ha => Dictionary.apply_accessible hd hk ha) hr
    (fun op hop => kept op (mem_of_operation hop)) (Dictionary.apply_set_free free hp.step)
  obtain ⟨e, he, hea⟩ := Option.map_eq_some_iff.mp hkeep
  have hadmits : ∀ a, Admits (some a) e.accessible = true ↔
      a = accessibility.getD .whenUnlocked := fun a => hea ▸ admits_iff
  refine ⟨?_, fun a => ⟨fun data' => ?_, ?_⟩⟩
  · have hread : Reads Sec w serves order String.fromUTF8? _ s₂ := reads_of_own doc ho'
    rw [hread.accessibility_serves hs, he, Option.bind_some, hea,
      accessibilityForAttributeValue_keychainAttrValue horder]
  · have hp' : Performs w group items serves (.set data' key (some a)) s₂ _ _ :=
      performs_set doc ho' rfl
    refine (hp'.exact hs).trans (Iff.trans ?_ (hadmits a))
    simp [Dictionary.apply, he]
  · have hp' : Performs w group items serves (.removeObject key (some a)) s₂ _ _ :=
      performs_removeObject doc ho' rfl
    refine (hp'.exact hs).trans (Iff.trans ?_ (hadmits a))
    simp [Dictionary.apply, he]

/-- The keychain after the app has stored the email again. -/
def emailChanged : Items :=
  ((standard none).setString (memoryKeychain "app") "bob@mail.org" "email" none userStored).2

/-- What the other service and other code do, and then the app. -/
def changing : List KeychainEvent :=
  [.use ⟨"other", none⟩ (.set "bob".toUTF8 "email" none) true, .elsewhere,
    .use (standard none) (.set "bob@mail.org".toUTF8 "email" none) true]

theorem run_changing :
    Run (KeychainStep (memoryKeychain "app") Items.list (standard none)) emailStored changing
      emailChanged :=
  run_userStored.next (.use (Prod.ext (by decide +kernel) rfl))

theorem not_removes_changing (op : Operation) (h : .use (standard none) op true ∈ changing) :
    ¬ op.Removes "email" := by
  simp only [changing, List.mem_cons, KeychainEvent.use.injEq, reduceCtorEq, List.not_mem_nil,
    or_false, false_or] at h
  rcases h with ⟨hw, -⟩ | ⟨-, rfl, -⟩
  · exact absurd hw (by decide)
  · exact id

theorem keychain_keeps_accessibility_email :
    (standard none).accessibilityOfKey (memoryKeychain "app") keychainItemAccessibilityLookup
        "email" emailChanged = some .whenUnlocked ∧
      ∀ a, (∀ data', ((standard none).set (memoryKeychain "app") data' "email" (some a)
          emailChanged).1 = true ↔ a = .whenUnlocked) ∧
        (((standard none).removeObject (memoryKeychain "app") "email" (some a)
          emailChanged).1 = true ↔ a = .whenUnlocked) :=
  keychain_keeps_accessibility (memoryKeychain_documented "app") own_noItems
    (List.Perm.refl _) .start rfl setString_noItems run_changing
    (by simp [changing, KeychainEvent.Foreign, Apart, standard]) not_removes_changing trivial

end Runs

end CryptoWallet
