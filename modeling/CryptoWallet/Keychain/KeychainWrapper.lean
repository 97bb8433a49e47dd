/-
  File:      CryptoWallet/Keychain/KeychainWrapper.lean
  Subject:   KeychainWrapper.swift and KeychainItemAccessibility.swift, over the calls of the
             Security framework.

  A Swift string always has UTF-8 data, so `set` of a string never takes the branch without;
  `String(data:encoding:)` is the parameter `decode`.

  * `accessibilityForAttributeValue_keychainAttrValue`: the accessibility of an attribute value,
    in whatever order the lookup dictionary is gone through.
  * `Sees`: the items that a query of the wrapper without a key selects.
  * `Own`: every item a wrapper sees is one of those it writes; then a query for a key selects
    by the primary key (`selects_iff`).
-/
import CryptoWallet.Keychain.Security
import Mathlib.Data.Finset.Dedup
import Mathlib.Data.Finset.Empty

namespace CryptoWallet

open Records

/-! ## 1. Accessibilities -/

inductive KeychainItemAccessibility where
  | afterFirstUnlock
  | afterFirstUnlockThisDeviceOnly
  | always
  | whenPasscodeSetThisDeviceOnly
  | alwaysThisDeviceOnly
  | whenUnlocked
  | whenUnlockedThisDeviceOnly
  deriving DecidableEq

/-- `keychainItemAccessibilityLookup`, in the order in which it is written. -/
def keychainItemAccessibilityLookup : List (KeychainItemAccessibility × SecAttrAccessible) :=
  [(.afterFirstUnlock, .afterFirstUnlock),
    (.afterFirstUnlockThisDeviceOnly, .afterFirstUnlockThisDeviceOnly),
    (.always, .always),
    (.whenPasscodeSetThisDeviceOnly, .whenPasscodeSetThisDeviceOnly),
    (.alwaysThisDeviceOnly, .alwaysThisDeviceOnly),
    (.whenUnlocked, .whenUnlocked),
    (.whenUnlockedThisDeviceOnly, .whenUnlockedThisDeviceOnly)]

/-- `keychainAttrValue`; every case has an entry, so its `!` never stops the app. -/
def KeychainItemAccessibility.keychainAttrValue (a : KeychainItemAccessibility) :
    SecAttrAccessible :=
  (keychainItemAccessibilityLookup.lookup a).get (by cases a <;> rfl)

/-- `accessibilityForAttributeValue`: `lookup` is the dictionary in the order of the loop. -/
def accessibilityForAttributeValue (lookup : List (KeychainItemAccessibility × SecAttrAccessible))
    (keychainAttrValue : SecAttrAccessible) : Option KeychainItemAccessibility :=
  (lookup.find? (·.2 = keychainAttrValue)).map Prod.fst

/-- **The accessibility of an attribute value is the one that has it**, whatever the order. -/
theorem accessibilityForAttributeValue_keychainAttrValue
    {order : List (KeychainItemAccessibility × SecAttrAccessible)}
    (h : order.Perm keychainItemAccessibilityLookup) (a : KeychainItemAccessibility) :
    accessibilityForAttributeValue order a.keychainAttrValue = some a := by
  have hn : (keychainItemAccessibilityLookup.map Prod.snd).Nodup := by decide
  have e : order.find? (·.2 = a.keychainAttrValue) =
      keychainItemAccessibilityLookup.find? (·.2 = a.keychainAttrValue) :=
    Keyed.find?_key_perm hn h _
  rw [accessibilityForAttributeValue, e]
  cases a <;> rfl

/-! ## 2. The wrapper -/

structure KeychainWrapper where
  serviceName : String
  accessGroup : Option String := none
  deriving DecidableEq

namespace KeychainWrapper

/-- `standard`; `bundleIdentifier` is the one of the main bundle. -/
def standard (bundleIdentifier : Option String) : KeychainWrapper :=
  { serviceName := bundleIdentifier.getD "SwiftKeychainWrapper" }

/-- `setupKeychainQueryDictionary` -/
def setupKeychainQueryDictionary (w : KeychainWrapper) (key : String)
    (accessibility : Option KeychainItemAccessibility) : Query :=
  let encodedIdentifier := key.toUTF8
  { service := some w.serviceName
    accessible := accessibility.map KeychainItemAccessibility.keychainAttrValue
    accessGroup := w.accessGroup
    generic := some encodedIdentifier
    account := some encodedIdentifier }

/-- The dictionary of `allKeys` and `removeAllKeys`. -/
def serviceQuery (w : KeychainWrapper) : Query :=
  { service := some w.serviceName, accessGroup := w.accessGroup }

section

variable {σ : Type} (Sec : Security σ) (w : KeychainWrapper)

/-- `data(forKey:withAccessibility:)` -/
def data (key : String) (accessibility : Option KeychainItemAccessibility) (s : σ) :
    Option Data :=
  match Sec.secItemCopyMatching s (w.setupKeychainQueryDictionary key accessibility) .one with
  | (.errSecSuccess, result :: _) => some result.valueData
  | _ => none

/-- `hasValue(forKey:withAccessibility:)` -/
def hasValue (key : String) (accessibility : Option KeychainItemAccessibility) (s : σ) : Bool :=
  (w.data Sec key accessibility s).isSome

/-- `string(forKey:withAccessibility:)` -/
def string (decode : Data → Option String) (key : String)
    (accessibility : Option KeychainItemAccessibility) (s : σ) : Option String :=
  match w.data Sec key accessibility s with
  | some keychainData => decode keychainData
  | none => none

/-- `accessibilityOfKey` -/
def accessibilityOfKey (order : List (KeychainItemAccessibility × SecAttrAccessible))
    (key : String) (s : σ) : Option KeychainItemAccessibility :=
  let query := { w.setupKeychainQueryDictionary key none with accessible := none }
  match Sec.secItemCopyMatching s query .one with
  | (.errSecSuccess, result :: _) => accessibilityForAttributeValue order result.accessible
  | _ => none

/-- `allKeys` -/
def allKeys (decode : Data → Option String) (s : σ) : Finset String :=
  match Sec.secItemCopyMatching s w.serviceQuery .all with
  | (.errSecSuccess, results) => (results.filterMap fun i => decode i.account).toFinset
  | _ => ∅

/-- `update`: the accessibility it puts into the dictionary is there already. -/
def update (value : Data) (key : String) (accessibility : Option KeychainItemAccessibility)
    (s : σ) : Bool × σ :=
  match Sec.secItemUpdate s (w.setupKeychainQueryDictionary key accessibility) value with
  | (.errSecSuccess, s') => (true, s')
  | (_, s') => (false, s')

/-- `set(_:forKey:withAccessibility:)` of data. -/
def set (value : Data) (key : String) (accessibility : Option KeychainItemAccessibility)
    (s : σ) : Bool × σ :=
  let accessible :=
    match accessibility with
    | some accessibility => accessibility.keychainAttrValue
    | none => KeychainItemAccessibility.whenUnlocked.keychainAttrValue
  let query := { w.setupKeychainQueryDictionary key accessibility with
                 accessible := some accessible }
  match Sec.secItemAdd s query value with
  | (.errSecSuccess, s') => (true, s')
  | (.errSecDuplicateItem, s') => w.update Sec value key accessibility s'
  | (_, s') => (false, s')

/-- `set(_:forKey:withAccessibility:)` of a string. -/
def setString (value : String) (key : String) (accessibility : Option KeychainItemAccessibility)
    (s : σ) : Bool × σ :=
  w.set Sec value.toUTF8 key accessibility s

/-- `removeObject(forKey:withAccessibility:)` -/
def removeObject (key : String) (accessibility : Option KeychainItemAccessibility) (s : σ) :
    Bool × σ :=
  match Sec.secItemDelete s (w.setupKeychainQueryDictionary key accessibility) with
  | (.errSecSuccess, s') => (true, s')
  | (_, s') => (false, s')

/-- `removeAllKeys` -/
def removeAllKeys (s : σ) : Bool × σ :=
  match Sec.secItemDelete s w.serviceQuery with
  | (.errSecSuccess, s') => (true, s')
  | (_, s') => (false, s')

variable {Sec w} {value : Data} {key : String}
  {accessibility : Option KeychainItemAccessibility} {s : σ}

/-- The dictionary that `set` gives to `SecItemAdd`. -/
def addQuery (w : KeychainWrapper) (key : String)
    (accessibility : Option KeychainItemAccessibility) : Query :=
  { w.setupKeychainQueryDictionary key accessibility with
    accessible := some (accessibility.getD .whenUnlocked).keychainAttrValue }

theorem set_eq : w.set Sec value key accessibility s =
    match Sec.secItemAdd s (w.addQuery key accessibility) value with
    | (.errSecSuccess, s') => (true, s')
    | (.errSecDuplicateItem, s') => w.update Sec value key accessibility s'
    | (_, s') => (false, s') := by
  cases accessibility <;> rfl

/-- The answer of `update` is whether its call succeeds. -/
theorem update_eq {status : OSStatus} {s₁ : σ}
    (h : Sec.secItemUpdate s (w.setupKeychainQueryDictionary key accessibility) value =
      (status, s₁)) :
    w.update Sec value key accessibility s = (decide (status = .errSecSuccess), s₁) := by
  rw [update, h]
  cases status <;> rfl

/-- The same of the two functions that delete. -/
theorem removeObject_eq {status : OSStatus} {s₁ : σ}
    (h : Sec.secItemDelete s (w.setupKeychainQueryDictionary key accessibility) =
      (status, s₁)) :
    w.removeObject Sec key accessibility s = (decide (status = .errSecSuccess), s₁) := by
  rw [removeObject, h]
  cases status <;> rfl

theorem removeAllKeys_eq {status : OSStatus} {s₁ : σ}
    (h : Sec.secItemDelete s w.serviceQuery = (status, s₁)) :
    w.removeAllKeys Sec s = (decide (status = .errSecSuccess), s₁) := by
  rw [removeAllKeys, h]
  cases status <;> rfl

end

/-! ## 3. The items of a wrapper -/

/-- The items a query of the wrapper may select. -/
def Sees (w : KeychainWrapper) (i : Item) : Prop :=
  i.service = w.serviceName ∧ w.accessGroup.all (i.accessGroup = ·) = true

/-- The primary key of the item the wrapper adds for `key`; `group` is the app's own group. -/
def primaryKey (w : KeychainWrapper) (group key : String) : PrimaryKey :=
  ⟨w.serviceName, key.toUTF8, w.accessGroup.getD group⟩

/-- Whether an accessibility that a call is given admits that of an item. -/
def Admits (accessibility : Option KeychainItemAccessibility) (a : SecAttrAccessible) : Bool :=
  accessibility.all (a = ·.keychainAttrValue)

/-- **The wrapper sees none but its own items**: those of some key, in the group it writes to. -/
def Own (w : KeychainWrapper) (group : String) (l : List Item) : Prop :=
  ∀ i ∈ l, w.Sees i → i.generic = i.account ∧ ∃ key, i.primaryKey = w.primaryKey group key

variable {w : KeychainWrapper} {group key key' : String} {l l' : List Item} {i : Item}
  {accessibility : Option KeychainItemAccessibility}

theorem primaryKey_inj : w.primaryKey group key = w.primaryKey group key' ↔ key = key' := by
  simp [primaryKey, String.toByteArray_inj]

theorem sees_of_primaryKey (h : i.primaryKey = w.primaryKey group key) : w.Sees i := by
  simp only [Item.primaryKey, primaryKey, PrimaryKey.mk.injEq] at h
  obtain ⟨hs, -, hg⟩ := h
  refine ⟨hs, ?_⟩
  cases e : w.accessGroup with
  | none => rfl
  | some g => simp [hg, e]

@[simp] theorem serviceQuery_selects : w.serviceQuery.selects i = true ↔ w.Sees i := by
  simp [serviceQuery, Query.selects, Sees]

/-- **A query for a key selects by the primary key**, where the wrapper sees only its own. -/
theorem selects_iff (h : Own w group l) (hi : i ∈ l) :
    (w.setupKeychainQueryDictionary key accessibility).selects i = true ↔
      i.primaryKey = w.primaryKey group key ∧ Admits accessibility i.accessible = true := by
  have hq : (w.setupKeychainQueryDictionary key accessibility).selects i = true ↔
      (w.Sees i ∧ i.account = key.toUTF8 ∧ i.generic = key.toUTF8) ∧
        Admits accessibility i.accessible = true := by
    cases accessibility <;>
      simp [setupKeychainQueryDictionary, Query.selects, Sees, Admits] <;> tauto
  rw [hq, and_congr_left_iff]
  intro _
  constructor
  · rintro ⟨hs, ha, -⟩
    obtain ⟨-, k, hk⟩ := h i hi hs
    have e : i.account = k.toUTF8 := congrArg PrimaryKey.account hk
    rw [hk, primaryKey_inj]
    exact String.toByteArray_inj.mp (e.symm.trans ha)
  · intro hk
    have hs := sees_of_primaryKey hk
    have ha : i.account = key.toUTF8 := congrArg PrimaryKey.account hk
    exact ⟨hs, ha, (h i hi hs).1.trans ha⟩

/-- The items a wrapper sees decide whether it sees only its own. -/
theorem Own.of_sees (h : Own w group l) (hl : ∀ i ∈ l', w.Sees i → i ∈ l) : Own w group l' :=
  fun i hi hs => h i (hl i hi hs) hs

theorem Own.perm (h : Own w group l) (hp : l'.Perm l) : Own w group l' :=
  h.of_sees fun _ hi _ => hp.mem_iff.mp hi

end KeychainWrapper

end CryptoWallet
