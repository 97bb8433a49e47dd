/-
  File:      CryptoWallet/Keychain/Security.lean
  Subject:   The part of the Security framework that KeychainWrapper.swift calls.

  The framework is not in the repository: its four calls are the fields of `Security`, over any
  type of device states, and what they document is `Security.Documented`. Every query of the
  wrapper has the class `kSecClassGenericPassword`, so the items here are the generic passwords
  the app can see, in all its access groups.

  * `PrimaryKey`: no two generic passwords have the same service, account and access group.
  * `Security.Documented`: what a call that succeeds does, that one that fails changes nothing,
    and what the two failures the framework names say; any other failure may happen unless the
    state `serves`.
  * `memoryKeychain`: a keychain that meets it.
-/
import CryptoWallet.Library.Records

namespace CryptoWallet

open Records

abbrev Data := ByteArray

/-- Data are compared as their bytes, whichever instances are imported. -/
instance (priority := high) decidableEqData : DecidableEq Data := fun a b =>
  decidable_of_iff (a.data = b.data) ⟨ByteArray.ext, congrArg ByteArray.data⟩

/-- The `kSecAttrAccessible…` constants. -/
inductive SecAttrAccessible where
  | afterFirstUnlock
  | afterFirstUnlockThisDeviceOnly
  | always
  | whenPasscodeSetThisDeviceOnly
  | alwaysThisDeviceOnly
  | whenUnlocked
  | whenUnlockedThisDeviceOnly
  | other (value : String)
  deriving DecidableEq

/-- A generic password, with the attributes the wrapper names. -/
structure Item where
  service : String
  account : Data
  accessGroup : String
  generic : Data
  accessible : SecAttrAccessible
  valueData : Data
  deriving DecidableEq

/-- What the framework tells generic passwords apart by. -/
structure PrimaryKey where
  service : String
  account : Data
  accessGroup : String
  deriving DecidableEq

def Item.primaryKey (i : Item) : PrimaryKey := ⟨i.service, i.account, i.accessGroup⟩

/-- The attributes in a query dictionary; `none`: the dictionary has no such entry. -/
structure Query where
  service : Option String := none
  account : Option Data := none
  generic : Option Data := none
  accessible : Option SecAttrAccessible := none
  accessGroup : Option String := none
  deriving DecidableEq

/-- Whether an item has every attribute of the query. -/
def Query.selects (q : Query) (i : Item) : Bool :=
  q.service.all (i.service = ·) && q.account.all (i.account = ·) &&
    q.generic.all (i.generic = ·) && q.accessible.all (i.accessible = ·) &&
    q.accessGroup.all (i.accessGroup = ·)

/-- The item a query adds; `group` is the app's own access group. -/
def Query.item (q : Query) (group : String) (value : Data) : Item :=
  { service := q.service.getD "", account := q.account.getD .empty,
    accessGroup := q.accessGroup.getD group, generic := q.generic.getD .empty,
    accessible := q.accessible.getD .whenUnlocked, valueData := value }

/-- `kSecMatchLimitOne`, `kSecMatchLimitAll` -/
inductive SecMatchLimit where
  | one
  | all
  deriving DecidableEq

inductive OSStatus where
  | errSecSuccess
  | errSecDuplicateItem
  | errSecItemNotFound
  | other (code : Int)
  deriving DecidableEq

/-- The calls. `secItemCopyMatching` answers the items whose data or attributes it is asked for;
    the attribute an update changes is the data. -/
structure Security (σ : Type) where
  secItemAdd : σ → Query → Data → OSStatus × σ
  secItemCopyMatching : σ → Query → SecMatchLimit → OSStatus × List Item
  secItemUpdate : σ → Query → Data → OSStatus × σ
  secItemDelete : σ → Query → OSStatus × σ

/-- **What the framework documents.** `items` are the items of a state; a state `serves` when it
    refuses no call: the device is unlocked and has a passcode, and the app is entitled to the
    access groups it names. -/
structure Security.Documented {σ : Type} (Sec : Security σ) (items : σ → List Item)
    (group : String) (serves : σ → Prop) : Prop where
  distinct : ∀ s, ((items s).map Item.primaryKey).Nodup
  add_success : ∀ {s q v s'}, Sec.secItemAdd s q v = (.errSecSuccess, s') →
    Added Item.primaryKey (q.item group v) (items s) (items s')
  add_duplicate : ∀ {s q v s'}, Sec.secItemAdd s q v = (.errSecDuplicateItem, s') →
    (q.item group v).primaryKey ∈ (items s).map Item.primaryKey
  add_failure : ∀ {s q v status s'}, Sec.secItemAdd s q v = (status, s') →
    status ≠ .errSecSuccess → (items s').Perm (items s)
  add_serves : ∀ {s q v status s'}, Sec.secItemAdd s q v = (status, s') → serves s →
    (status = .errSecSuccess ∨ status = .errSecDuplicateItem) ∧ serves s'
  copy_one : ∀ {s q l}, Sec.secItemCopyMatching s q .one = (.errSecSuccess, l) →
    ∃ i ∈ items s, q.selects i = true ∧ l = [i]
  copy_all : ∀ {s q l}, Sec.secItemCopyMatching s q .all = (.errSecSuccess, l) →
    l.Perm ((items s).filter q.selects)
  copy_notFound : ∀ {s q limit l}, Sec.secItemCopyMatching s q limit = (.errSecItemNotFound, l) →
    ¬ ∃ i ∈ items s, q.selects i = true
  copy_serves : ∀ {s q limit status l}, Sec.secItemCopyMatching s q limit = (status, l) →
    serves s → status = .errSecSuccess ∨ status = .errSecItemNotFound
  update_success : ∀ {s q v s'}, Sec.secItemUpdate s q v = (.errSecSuccess, s') →
    Changed q.selects (fun i => { i with valueData := v }) (items s) (items s')
  update_notFound : ∀ {s q v s'}, Sec.secItemUpdate s q v = (.errSecItemNotFound, s') →
    ¬ ∃ i ∈ items s, q.selects i = true
  update_failure : ∀ {s q v status s'}, Sec.secItemUpdate s q v = (status, s') →
    status ≠ .errSecSuccess → (items s').Perm (items s)
  update_serves : ∀ {s q v status s'}, Sec.secItemUpdate s q v = (status, s') → serves s →
    (status = .errSecSuccess ∨ status = .errSecItemNotFound) ∧ serves s'
  delete_success : ∀ {s q s'}, Sec.secItemDelete s q = (.errSecSuccess, s') →
    Removed q.selects (items s) (items s')
  delete_notFound : ∀ {s q s'}, Sec.secItemDelete s q = (.errSecItemNotFound, s') →
    ¬ ∃ i ∈ items s, q.selects i = true
  delete_failure : ∀ {s q status s'}, Sec.secItemDelete s q = (status, s') →
    status ≠ .errSecSuccess → (items s').Perm (items s)
  delete_serves : ∀ {s q status s'}, Sec.secItemDelete s q = (status, s') → serves s →
    (status = .errSecSuccess ∨ status = .errSecItemNotFound) ∧ serves s'

section Documented

variable {σ : Type} {Sec : Security σ} {items : σ → List Item} {group : String}
  {serves : σ → Prop} {s s' : σ} {q : Query} {value : Data} {status : OSStatus}

/-- **What an update comes to**: the selected items have the value, or nothing is changed, by a
    state that serves only where nothing is selected. -/
theorem Security.Documented.update_cases (doc : Sec.Documented items group serves)
    (h : Sec.secItemUpdate s q value = (status, s')) :
    (serves s → serves s') ∧
      (status = .errSecSuccess ∧
          Changed q.selects (fun i => { i with valueData := value }) (items s) (items s') ∨
        status ≠ .errSecSuccess ∧ (items s').Perm (items s) ∧
          (serves s → ¬ ∃ i ∈ items s, q.selects i = true)) := by
  refine ⟨fun hs => (doc.update_serves h hs).2, ?_⟩
  by_cases hst : status = .errSecSuccess
  · subst hst
    exact .inl ⟨rfl, doc.update_success h⟩
  · refine .inr ⟨hst, doc.update_failure h hst, fun hs => ?_⟩
    obtain rfl := (doc.update_serves h hs).1.resolve_left hst
    exact doc.update_notFound h

/-- **What a deletion comes to**: the selected items are gone, or nothing is changed, by a state
    that serves only where nothing is selected. -/
theorem Security.Documented.delete_cases (doc : Sec.Documented items group serves)
    (h : Sec.secItemDelete s q = (status, s')) :
    (serves s → serves s') ∧
      (status = .errSecSuccess ∧ Removed q.selects (items s) (items s') ∨
        status ≠ .errSecSuccess ∧ (items s').Perm (items s) ∧
          (serves s → ¬ ∃ i ∈ items s, q.selects i = true)) := by
  refine ⟨fun hs => (doc.delete_serves h hs).2, ?_⟩
  by_cases hst : status = .errSecSuccess
  · subst hst
    exact .inl ⟨rfl, doc.delete_success h⟩
  · refine .inr ⟨hst, doc.delete_failure h hst, fun hs => ?_⟩
    obtain rfl := (doc.delete_serves h hs).1.resolve_left hst
    exact doc.delete_notFound h

end Documented

/-! ## A keychain in memory -/

/-- Items with distinct primary keys. -/
structure Items where
  list : List Item
  distinct : (list.map Item.primaryKey).Nodup

namespace Items

/-- The items with one more, whose key is free. -/
def add (s : Items) (i : Item) (h : i.primaryKey ∉ s.list.map Item.primaryKey) : Items :=
  ⟨i :: s.list, List.nodup_cons.mpr ⟨h, s.distinct⟩⟩

/-- The items with the data of those selected changed. -/
def update (s : Items) (p : Item → Bool) (v : Data) : Items where
  list := s.list.map fun i => if p i then { i with valueData := v } else i
  distinct := by
    have e : (s.list.map fun i => if p i then { i with valueData := v } else i).map
        Item.primaryKey = s.list.map Item.primaryKey := by
      rw [List.map_map]
      refine List.map_congr_left fun i _ => ?_
      show (if p i then { i with valueData := v } else i).primaryKey = i.primaryKey
      split <;> rfl
    rw [e]
    exact s.distinct

/-- The items without those selected. -/
def delete (s : Items) (p : Item → Bool) : Items :=
  ⟨s.list.filter fun i => !p i, s.distinct.sublist (List.filter_sublist.map _)⟩

end Items

/-- The calls on items in memory. -/
def memoryKeychain (group : String) : Security Items where
  secItemAdd s q v :=
    if h : (q.item group v).primaryKey ∈ s.list.map Item.primaryKey then (.errSecDuplicateItem, s)
    else (.errSecSuccess, s.add (q.item group v) h)
  secItemCopyMatching s q limit :=
    let l := s.list.filter q.selects
    if l = [] then (.errSecItemNotFound, [])
    else (.errSecSuccess, if limit = .one then l.take 1 else l)
  secItemUpdate s q v :=
    if s.list.any q.selects then (.errSecSuccess, s.update q.selects v)
    else (.errSecItemNotFound, s)
  secItemDelete s q :=
    if s.list.any q.selects then (.errSecSuccess, s.delete q.selects)
    else (.errSecItemNotFound, s)

/-- **The keychain in memory does what the framework documents.** -/
theorem memoryKeychain_documented (group : String) :
    (memoryKeychain group).Documented Items.list group fun _ => True where
  distinct s := s.distinct
  add_success {s q v s'} h := by
    simp only [memoryKeychain] at h
    split at h
    · cases h
    · rename_i hn
      cases h
      exact ⟨hn, List.Perm.refl _⟩
  add_duplicate {s q v s'} h := by
    simp only [memoryKeychain] at h
    split at h
    · assumption
    · cases h
  add_failure {s q v status s'} h hne := by
    simp only [memoryKeychain] at h
    split at h
    · cases h
      exact List.Perm.refl _
    · cases h
      exact absurd rfl hne
  add_serves {s q v status s'} h _ := by
    simp only [memoryKeychain] at h
    split at h
    · cases h
      exact ⟨.inr rfl, trivial⟩
    · cases h
      exact ⟨.inl rfl, trivial⟩
  copy_one {s q l} h := by
    simp only [memoryKeychain] at h
    split at h
    · cases h
    · rename_i hne
      obtain ⟨i, l', e⟩ := List.exists_cons_of_ne_nil hne
      rw [e] at h
      cases h
      have hi : i ∈ s.list.filter q.selects := e ▸ List.mem_cons_self
      rw [List.mem_filter] at hi
      exact ⟨i, hi.1, hi.2, rfl⟩
  copy_all {s q l} h := by
    simp only [memoryKeychain] at h
    split at h
    · cases h
    · rw [Prod.mk.injEq] at h
      exact h.2 ▸ List.Perm.refl _
  copy_notFound {s q limit l} h := by
    simp only [memoryKeychain] at h
    split at h
    · rename_i hf
      rw [List.filter_eq_nil_iff] at hf
      rintro ⟨i, hi, hs⟩
      exact hf i hi hs
    · cases h
  copy_serves {s q limit status l} h _ := by
    simp only [memoryKeychain] at h
    split at h
    · cases h
      exact .inr rfl
    · rw [Prod.mk.injEq] at h
      exact .inl h.1.symm
  update_success {s q v s'} h := by
    simp only [memoryKeychain] at h
    split at h
    · rename_i hany
      cases h
      exact ⟨List.any_eq_true.mp hany, List.Perm.refl _⟩
    · cases h
  update_notFound {s q v s'} h := by
    simp only [memoryKeychain] at h
    split at h
    · cases h
    · rename_i hany
      exact fun hex => hany (List.any_eq_true.mpr hex)
  update_failure {s q v status s'} h hne := by
    simp only [memoryKeychain] at h
    split at h
    · cases h
      exact absurd rfl hne
    · cases h
      exact List.Perm.refl _
  update_serves {s q v status s'} h _ := by
    simp only [memoryKeychain] at h
    split at h
    · cases h
      exact ⟨.inl rfl, trivial⟩
    · cases h
      exact ⟨.inr rfl, trivial⟩
  delete_success {s q s'} h := by
    simp only [memoryKeychain] at h
    split at h
    · rename_i hany
      cases h
      exact ⟨List.any_eq_true.mp hany, List.Perm.refl _⟩
    · cases h
  delete_notFound {s q s'} h := by
    simp only [memoryKeychain] at h
    split at h
    · cases h
    · rename_i hany
      exact fun hex => hany (List.any_eq_true.mpr hex)
  delete_failure {s q status s'} h hne := by
    simp only [memoryKeychain] at h
    split at h
    · cases h
      exact absurd rfl hne
    · cases h
      exact List.Perm.refl _
  delete_serves {s q status s'} h _ := by
    simp only [memoryKeychain] at h
    split at h
    · cases h
      exact ⟨.inl rfl, trivial⟩
    · cases h
      exact ⟨.inr rfl, trivial⟩

end CryptoWallet
