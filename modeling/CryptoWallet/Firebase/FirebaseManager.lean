/-
  File:      CryptoWallet/Firebase/FirebaseManager.lean
  Subject:   The stored portfolio and the functions of `FirebaseManager` (FirebaseModel.swift,
             FirebaseManager.swift).

  A user is signed in throughout (`Auth.auth().currentUser` is not nil). `add` and `delete` are
  the closures they hand to `getPortfolio`: what such a closure does with the portfolio it is
  given is an `Outcome`. The arithmetic is that of any `SwiftDouble F`, the texts those of any
  `DoubleText F`.

  * `portfolioOf_encode`: a document these functions write reads back as the coins written.
  * `add_some`, `delete_some`: the index loops, as functions on the list of coins
    (`addCoin`, `List.eraseP`).
-/
import CryptoWallet.Swift.Double

namespace CryptoWallet

/-! ## 1. The data -/

structure Coin where
  id : String
  price : String
  quantity : String
  deriving DecidableEq, Repr

structure Portfolio where
  coins : List Coin
  deriving DecidableEq, Repr

/-- A value inside an entry of the coins array: a string, or anything `as? String` refuses. -/
inductive Leaf where
  | string (text : String)
  | other
  deriving DecidableEq, Repr

/-- An entry of the coins array: a dictionary, or anything `as? Dictionary` refuses. -/
inductive Element where
  | dictionary (entries : List (String × Leaf))
  | other
  deriving DecidableEq, Repr

/-- A field of a document: an array, or anything `as? Array` refuses. -/
inductive Field where
  | array (elements : List Element)
  | other
  deriving DecidableEq, Repr

/-- A Firestore document. -/
abbrev Document := List (String × Field)

/-- `document["coins"] as? Array ?? []` -/
def coinsArray (document : Document) : List Element :=
  match document.lookup "coins" with
  | some (.array elements) => elements
  | _ => []

/-- `(coin as? Dictionary ?? [:])[key] as? String` -/
def Element.string (element : Element) (key : String) : Option String :=
  match element with
  | .dictionary entries =>
      match entries.lookup key with
      | some (.string text) => some text
      | _ => none
  | .other => none

/-- The dictionary `dataForSending` holds for one coin. -/
def dictOf (coin : Coin) : Element :=
  .dictionary
    [("id", .string coin.id), ("price", .string coin.price), ("quantity", .string coin.quantity)]

/-- The document `["coins" : dataForSending]`. -/
def encode (coins : List Coin) : Document := [("coins", .array (coins.map dictOf))]

/-! ## 2. Reading -/

/-- The loop of `getPortfolio`: the coins read so far, and the elements to come. -/
def readCoins (coins : List Coin) : List Element → Option (List Coin)
  | [] => some coins
  | element :: rest =>
      match element.string "id", element.string "price", element.string "quantity" with
      | some id, some price, some quantity => readCoins (coins ++ [⟨id, price, quantity⟩]) rest
      | _, _, _ => none

/-- What `getPortfolio` makes of a document; `none` for `completion(nil)`. -/
def portfolioOf (document : Document) : Option Portfolio :=
  (readCoins [] (coinsArray document)).map Portfolio.mk

/-- `getPortfolio`: what its completion receives for the answer of `getDocument`. -/
def getPortfolio : Except String Document → Option Portfolio
  | .error _ => none
  | .ok document => portfolioOf document

/-! ## 3. Writing -/

/-- What a closure does with its portfolio: it replaces the document, returns without a write,
    or stops the app with a runtime error. -/
inductive Outcome where
  | setData (document : Document)
  | done
  | trap
  deriving DecidableEq, Repr

variable {F : Type} [SwiftDouble F]

/-- `resultQuantity` in `add`. -/
def resultQuantity (T : DoubleText F) (coin coinForAdding : Coin) : F :=
  (T.ofText coin.quantity).getD 0 + (T.ofText coinForAdding.quantity).getD 0

/-- `resultPrice` in `add`: the average price, weighted by the quantities. -/
def resultPrice (T : DoubleText F) (coin coinForAdding : Coin) : F :=
  let coinPrice := (T.ofText coin.price).getD 0
  let coinQuantity := (T.ofText coin.quantity).getD 0
  let coinForAddingPrice := (T.ofText coinForAdding.price).getD 0
  let coinForAddingQuantity := (T.ofText coinForAdding.quantity).getD 0
  (coinPrice * coinQuantity + coinForAddingPrice * coinForAddingQuantity)
    / resultQuantity T coin coinForAdding

/-- The coin `add` puts in the place of one it found. -/
def merge (T : DoubleText F) (coin coinForAdding : Coin) : Coin :=
  { coin with
    price := T.toText (resultPrice T coin coinForAdding)
    quantity := T.toText (resultQuantity T coin coinForAdding) }

/-- The loop of `add` over the indices still to come: the coins after it and `isCoinExist`;
    `none` when an index is out of bounds. -/
def addLoop (T : DoubleText F) (coinForAdding : Coin) (coins : List Coin) :
    List Nat → Option (List Coin × Bool)
  | [] => some (coins, false)
  | i :: rest =>
      match coins[i]? with
      | none => none
      | some coin =>
          if coin.id = coinForAdding.id then some (coins.set i (merge T coin coinForAdding), true)
          else addLoop T coinForAdding coins rest

/-- The closure of `add(coinForAdding:)`. -/
def add (T : DoubleText F) (coinForAdding : Coin) : Option Portfolio → Outcome
  | none => .done
  | some portfolio =>
      let updated :=
        if portfolio.coins.length ≥ 1 then
          (zeroThrough ((portfolio.coins.length : Int) - 1)).bind fun indices =>
            addLoop T coinForAdding portfolio.coins indices
        else some (portfolio.coins, false)
      match updated with
      | none => .trap
      | some (coins, isCoinExist) =>
          .setData (encode (if !isCoinExist then coins ++ [coinForAdding] else coins))

/-- The loop of `delete` over the indices still to come. -/
def deleteLoop (id : String) (coins : List Coin) : List Nat → Outcome
  | [] => .done
  | i :: rest =>
      match coins[i]? with
      | none => .trap
      | some coin =>
          if coin.id = id then .setData (encode (coins.eraseIdx i))
          else deleteLoop id coins rest

/-- The closure of `delete(id:)`. -/
def delete (id : String) : Option Portfolio → Outcome
  | none => .done
  | some portfolio =>
      match zeroThrough ((portfolio.coins.length : Int) - 1) with
      | none => .trap
      | some indices => deleteLoop id portfolio.coins indices

/-- The document `createUserDocumentAndCoinsArrayInDB` writes. -/
def createUserDocumentAndCoinsArrayInDB : Document := [("coins", .array [])]

/-! ## 4. What the functions compute -/

@[simp] theorem coinsArray_encode (coins : List Coin) :
    coinsArray (encode coins) = coins.map dictOf := rfl

theorem createUserDocument_eq : createUserDocumentAndCoinsArrayInDB = encode [] := rfl

theorem readCoins_dictOf (acc coins : List Coin) :
    readCoins acc (coins.map dictOf) = some (acc ++ coins) := by
  induction coins generalizing acc with
  | nil => simp [readCoins]
  | cons coin coins ih =>
      show readCoins (acc ++ [coin]) (coins.map dictOf) = _
      rw [ih, List.append_assoc]
      rfl

/-- **A written document reads back as the coins written.** -/
@[simp] theorem portfolioOf_encode (coins : List Coin) :
    portfolioOf (encode coins) = some ⟨coins⟩ := by
  simp [portfolioOf, readCoins_dictOf]

/-- `add` on the list of coins: the first coin of the id is merged with the new one, a new id
    goes to the end. -/
def addCoin (T : DoubleText F) (coinForAdding : Coin) : List Coin → List Coin
  | [] => [coinForAdding]
  | coin :: coins =>
      if coin.id = coinForAdding.id then merge T coin coinForAdding :: coins
      else coin :: addCoin T coinForAdding coins

/-- The loop from index `pre.length` on, over coins of other ids before it. -/
theorem addLoop_spec (T : DoubleText F) (c : Coin) (pre post : List Coin) :
    (addLoop T c (pre ++ post) (List.range' pre.length post.length)).map
        (fun p => if !p.2 then p.1 ++ [c] else p.1) =
      some (pre ++ addCoin T c post) := by
  induction post generalizing pre with
  | nil => simp [addLoop, addCoin]
  | cons coin post ih =>
      simp only [List.length_cons, List.range'_succ, addLoop, List.getElem?_append_right le_rfl,
        Nat.sub_self, List.getElem?_cons_zero, addCoin]
      by_cases h : coin.id = c.id
      · simp [h]
      · have := ih (pre ++ [coin])
        simp only [List.append_assoc, List.singleton_append, List.length_append, List.length_cons,
          List.length_nil, Nat.zero_add] at this
        rw [if_neg h, if_neg h, this]

/-- **What `add` writes.** -/
theorem add_some (T : DoubleText F) (c : Coin) (coins : List Coin) :
    add T c (some ⟨coins⟩) = .setData (encode (addCoin T c coins)) := by
  have key := addLoop_spec T c [] coins
  simp only [List.nil_append, List.length_nil, ← List.range_eq_range'] at key
  unfold add
  by_cases hne : coins = []
  · subst hne
    rfl
  · have hpos : coins.length ≥ 1 := List.length_pos_iff.mpr hne
    have h0 : coins.length ≠ 0 := by omega
    simp only [hpos, if_true, zeroThrough_count, h0, if_false, Option.bind_some]
    cases hl : addLoop T c coins (List.range coins.length) with
    | none => rw [hl] at key; cases key
    | some p =>
        rw [hl] at key
        simp only [Option.map_some, Option.some.injEq] at key
        simp only [key]

theorem deleteLoop_spec (id : String) (pre post : List Coin) :
    deleteLoop id (pre ++ post) (List.range' pre.length post.length) =
      if id ∈ post.map Coin.id then .setData (encode (pre ++ post.eraseP (·.id = id)))
      else .done := by
  induction post generalizing pre with
  | nil => simp [deleteLoop]
  | cons coin post ih =>
      simp only [List.length_cons, List.range'_succ, deleteLoop,
        List.getElem?_append_right le_rfl, Nat.sub_self, List.getElem?_cons_zero, List.map_cons,
        List.mem_cons]
      by_cases h : coin.id = id
      · simp [h, List.eraseIdx_append_of_length_le]
      · have := ih (pre ++ [coin])
        simp only [List.append_assoc, List.singleton_append, List.length_append, List.length_cons,
          List.length_nil, Nat.zero_add] at this
        have h' : ¬ id = coin.id := fun e => h e.symm
        rw [if_neg h, this]
        simp [h, h']

/-- **What `delete` does**: it removes the first coin of the id, writes nothing when there is
    none, and stops the app on an empty portfolio. -/
theorem delete_some (id : String) (coins : List Coin) :
    delete id (some ⟨coins⟩) =
      if coins = [] then .trap
      else if id ∈ coins.map Coin.id then .setData (encode (coins.eraseP (·.id = id)))
      else .done := by
  have key := deleteLoop_spec id [] coins
  simp only [List.nil_append, List.length_nil, ← List.range_eq_range'] at key
  unfold delete
  by_cases hne : coins = []
  · subst hne
    rfl
  · have h0 : coins.length ≠ 0 := fun e => hne (List.length_eq_zero_iff.mp e)
    simp only [zeroThrough_count, h0, if_false, key, hne]

end CryptoWallet
