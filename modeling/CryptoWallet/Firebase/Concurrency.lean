/-
  File:      CryptoWallet/Firebase/Concurrency.lean
  Subject:   Requests of one user on the stored portfolio, any number of them in flight at once.

  A request of `FirebaseManager` reads the document (`getPortfolio`) and later replaces it
  (`setData`); no transaction and no array operation ties the two together. The store of
  Library/ReadModifyWrite.lean with `update` below is exactly this. A closure that stops its app
  writes nothing; the other requests of that app then never take another step, which is one of
  the interleavings.

  * `addCoin_cases`: what `add` makes of the coins.
  * `runAll`: requests that complete one after another.
  * `portfolio_updates_serial`: the document is what running SOME of the finished requests one
    at a time gives, and ALL of them when every write replaced the array its request had read.
  * `lost_purchase`: without that, a purchase is lost.
  * `portfolio_well_formed`: over every interleaving the document keeps distinct ids and string
    fields, so `getPortfolio` never answers nil for it.
-/
import CryptoWallet.Library.ReadModifyWrite
import CryptoWallet.Firebase.FirebaseManager
import CryptoWallet.Swift.Text

namespace CryptoWallet

open Runs ReadModifyWrite

/-- A call of `FirebaseManager.add` or `FirebaseManager.delete`. -/
inductive Request where
  | add (coinForAdding : Coin)
  | delete (id : String)
  deriving DecidableEq, Repr

/-- The id a request is about. -/
def Request.id : Request → String
  | .add coinForAdding => coinForAdding.id
  | .delete id => id

variable {F : Type} [SwiftDouble F]

/-- What a request's closure does with the portfolio it is given. -/
def Request.outcome (T : DoubleText F) : Request → Option Portfolio → Outcome
  | .add coinForAdding => CryptoWallet.add T coinForAdding
  | .delete id => CryptoWallet.delete id

/-- The document a request stores after reading `document`, if it stores one. -/
def update (T : DoubleText F) (r : Request) (document : Document) : Option Document :=
  match r.outcome T (getPortfolio (.ok document)) with
  | .setData new => some new
  | _ => none

/-- The requests of one user on their document. -/
abbrev Requests := Store Document Request

/-! ## 1. One request on a document -/

@[simp] theorem getPortfolio_encode (coins : List Coin) :
    getPortfolio (.ok (encode coins)) = some ⟨coins⟩ := portfolioOf_encode coins

theorem update_add (T : DoubleText F) (c : Coin) {document : Document} {coins : List Coin}
    (h : getPortfolio (.ok document) = some ⟨coins⟩) :
    update T (.add c) document = some (encode (addCoin T c coins)) := by
  simp only [update, Request.outcome, h, add_some]

theorem update_delete (T : DoubleText F) (id : String) {document : Document} {coins : List Coin}
    (h : getPortfolio (.ok document) = some ⟨coins⟩) :
    update T (.delete id) document =
      if id ∈ coins.map Coin.id then some (encode (coins.eraseP (·.id = id))) else none := by
  simp only [update, Request.outcome, h, delete_some]
  by_cases hne : coins = []
  · simp [hne]
  · by_cases hid : id ∈ coins.map Coin.id
    · simp only [hne, hid, if_true, if_false]
    · simp only [hne, hid, if_false]

@[simp] theorem merge_id (T : DoubleText F) (coin c : Coin) : (merge T coin c).id = coin.id := rfl

/-- **What `add` makes of the coins**: the first one of the id is merged in its place, or the
    id is new and goes to the end. -/
theorem addCoin_cases (T : DoubleText F) (c : Coin) (coins : List Coin) :
    (∃ pre old post, coins = pre ++ old :: post ∧ old.id = c.id ∧
        addCoin T c coins = pre ++ merge T old c :: post) ∨
      (c.id ∉ coins.map Coin.id ∧ addCoin T c coins = coins ++ [c]) := by
  induction coins with
  | nil => exact .inr ⟨List.not_mem_nil, rfl⟩
  | cons coin coins ih =>
      unfold addCoin
      by_cases h : coin.id = c.id
      · exact .inl ⟨[], coin, coins, rfl, h, if_pos h⟩
      · rw [if_neg h]
        obtain ⟨pre, old, post, rfl, hid, e⟩ | ⟨hnew, e⟩ := ih
        · exact .inl ⟨coin :: pre, old, post, rfl, hid, by rw [e, List.cons_append]⟩
        · refine .inr ⟨?_, by rw [e, List.cons_append]⟩
          rw [List.map_cons, List.mem_cons, not_or]
          exact ⟨fun e' => h e'.symm, hnew⟩

/-- `add` keeps the ids and their order; a new id goes to the end. -/
theorem addCoin_ids (T : DoubleText F) (c : Coin) (coins : List Coin) :
    (addCoin T c coins).map Coin.id =
      if c.id ∈ coins.map Coin.id then coins.map Coin.id else coins.map Coin.id ++ [c.id] := by
  obtain ⟨pre, old, post, rfl, hid, e⟩ | ⟨hnew, e⟩ := addCoin_cases T c coins
  · rw [e]
    simp [hid]
  · rw [e, if_neg hnew, List.map_append, List.map_singleton]

/-- Of distinct ids no other coin has the one at a place. -/
theorem notMem_others {pre post : List Coin} {coin : Coin}
    (hnd : ((pre ++ coin :: post).map Coin.id).Nodup) : coin.id ∉ (pre ++ post).map Coin.id := by
  rw [List.map_append, List.map_cons, List.nodup_middle, ← List.map_append] at hnd
  exact (List.nodup_cons.mp hnd).1

/-- Where a coin of the new list comes from; one that stays as it was has another id, if the ids
    are distinct. -/
theorem mem_addCoin {T : DoubleText F} {c coin : Coin} {coins : List Coin}
    (hm : coin ∈ addCoin T c coins) :
    (coin ∈ coins ∧ ((coins.map Coin.id).Nodup → coin.id ≠ c.id)) ∨
      (∃ old ∈ coins, old.id = c.id ∧ coin = merge T old c) ∨
      (c.id ∉ coins.map Coin.id ∧ coin = c) := by
  obtain ⟨pre, old, post, rfl, hid, e⟩ | ⟨hnew, e⟩ := addCoin_cases T c coins
  · have hother : coin ∈ pre ++ post → ((pre ++ old :: post).map Coin.id).Nodup →
        coin.id ≠ c.id := fun hc hnd h =>
      notMem_others hnd (hid.trans h.symm ▸ List.mem_map_of_mem hc)
    rw [e, List.mem_append, List.mem_cons] at hm
    rcases hm with hm | rfl | hm
    · exact .inl ⟨List.mem_append_left _ hm, hother (List.mem_append_left _ hm)⟩
    · exact .inr (.inl ⟨old, by simp, hid, rfl⟩)
    · exact .inl ⟨by simp [hm], hother (List.mem_append_right _ hm)⟩
  · rw [e, List.mem_append, List.mem_singleton] at hm
    rcases hm with hm | rfl
    · exact .inl ⟨hm, fun _ h => hnew (h ▸ List.mem_map_of_mem hm)⟩
    · exact .inr (.inr ⟨hnew, rfl⟩)

/-! ## 2. Requests one at a time -/

/-- The document after one request has completed; `none` when it stops the app. -/
def complete (T : DoubleText F) (document : Document) (r : Request) : Option Document :=
  match r.outcome T (getPortfolio (.ok document)) with
  | .setData new => some new
  | .done => some document
  | .trap => none

/-- The document after the requests of `h` have completed one after another, from the document
    `createUserDocumentAndCoinsArrayInDB` writes. -/
def runAll (T : DoubleText F) (h : List Request) : Option Document :=
  h.foldlM (complete T) createUserDocumentAndCoinsArrayInDB

theorem runAll_append_one (T : DoubleText F) (h : List Request) (r : Request) :
    runAll T (h ++ [r]) = (runAll T h).bind fun document => complete T document r := by
  simp [runAll, List.foldlM_append]

theorem complete_add (T : DoubleText F) (c : Coin) (coins : List Coin) :
    complete T (encode coins) (.add c) = some (encode (addCoin T c coins)) := by
  simp only [complete, Request.outcome, getPortfolio_encode, add_some]

theorem complete_delete (T : DoubleText F) {id : String} {coins : List Coin}
    (h : id ∈ coins.map Coin.id) :
    complete T (encode coins) (.delete id) = some (encode (coins.eraseP (·.id = id))) := by
  have hne : coins ≠ [] := fun e => by rw [e] at h; exact absurd h List.not_mem_nil
  simp only [complete, Request.outcome, getPortfolio_encode, delete_some, hne, h, if_true, if_false]

/-! ## 3. Updates and serial runs -/

/-- **What any number of concurrent requests make of the document**: a serial run of some of
    the finished requests over every interleaving, and of all of them, in the order they
    finished, when every write replaced the array its request had read. -/
theorem portfolio_updates_serial (T : DoubleText F) {document : Document}
    {es : List (Label Document Request)} {s : Requests}
    (h : Run (Step (update T)) (Store.start document) es s) :
    (s.flights = [] → s.finished.Perm (calls es)) ∧
    (∃ rs : List Request, rs.Sublist s.finished ∧ s.stored = serial (update T) document rs) ∧
    (Fresh es → s.stored = serial (update T) document s.finished) :=
  ⟨finished_perm h, stored_eq_serial_sublist h, stored_eq_serial h⟩

/-- Two purchases of different coins. -/
def bitcoin : Coin := ⟨"bitcoin", "40000.0", "1.0"⟩
def ethereum : Coin := ⟨"ethereum", "3000.0", "2.0"⟩

/-- Both purchases read the empty portfolio, then both write. -/
def bothRead : List (Label Document Request) :=
  [.call (.add bitcoin), .call (.add ethereum), .read (.add bitcoin), .read (.add ethereum),
    .write (.add bitcoin) (encode []) (encode []),
    .write (.add ethereum) (encode []) (encode [bitcoin])]

/-- The first purchase is over before the second one reads. -/
def oneByOne : List (Label Document Request) :=
  [.call (.add bitcoin), .call (.add ethereum), .read (.add bitcoin),
    .write (.add bitcoin) (encode []) (encode []), .read (.add ethereum),
    .write (.add ethereum) (encode [bitcoin]) (encode [bitcoin])]

theorem run_oneByOne :
    Run (Step (update exactText)) (Store.start createUserDocumentAndCoinsArrayInDB) oneByOne
      ⟨encode [bitcoin, ethereum], [], [.add bitcoin, .add ethereum]⟩ := by
  have h1 : Run (Step (update exactText)) (Store.start createUserDocumentAndCoinsArrayInDB) _ _ :=
    .single (.call _ (Request.add bitcoin))
  have h2 := h1.next (.call _ (Request.add ethereum))
  have h3 := h2.next (.read [] [.called (.add ethereum)] (.add bitcoin) (encode [bitcoin]) rfl rfl)
  have h4 := h3.next (.write [] [.called (.add ethereum)] (.add bitcoin) _ _ rfl)
  have h5 := h4.next (.read [] [] (.add ethereum) (encode [bitcoin, ethereum]) rfl rfl)
  exact h5.next (.write [] [] (Request.add ethereum) _ _ rfl)

theorem portfolio_updates_serial_oneByOne :
    Fresh oneByOne ∧ encode [bitcoin, ethereum] =
      serial (update exactText) createUserDocumentAndCoinsArrayInDB
        [.add bitcoin, .add ethereum] := by
  have hf : Fresh oneByOne := by
    intro r a b hm
    simp only [oneByOne, List.mem_cons, List.not_mem_nil, or_false, reduceCtorEq, false_or,
      Label.write.injEq] at hm
    rcases hm with ⟨_, rfl, rfl⟩ | ⟨_, rfl, rfl⟩ <;> rfl
  exact ⟨hf, (portfolio_updates_serial exactText run_oneByOne).2.2 hf⟩

theorem run_bothRead :
    Run (Step (update exactText)) (Store.start createUserDocumentAndCoinsArrayInDB) bothRead
      ⟨encode [ethereum], [], [.add bitcoin, .add ethereum]⟩ := by
  have h1 : Run (Step (update exactText)) (Store.start createUserDocumentAndCoinsArrayInDB) _ _ :=
    .single (.call _ (Request.add bitcoin))
  have h2 := h1.next (.call _ (Request.add ethereum))
  have h3 := h2.next (.read [] [.called (.add ethereum)] (.add bitcoin) (encode [bitcoin]) rfl rfl)
  have h4 := h3.next
    (.read [.holding (.add bitcoin) (encode []) (encode [bitcoin])] [] (.add ethereum)
      (encode [ethereum]) rfl rfl)
  have h5 := h4.next
    (.write [] [.holding (.add ethereum) (encode []) (encode [ethereum])] (.add bitcoin) _ _ rfl)
  exact h5.next (.write [] [] (Request.add ethereum) _ _ rfl)

/-- **A purchase is lost**: after two purchases from the empty portfolio the document holds one
    coin, and no order of running the two one at a time gives that document. -/
theorem lost_purchase :
    ∃ (es : List (Label Document Request)) (s : Requests),
      Run (Step (update exactText)) (Store.start createUserDocumentAndCoinsArrayInDB) es s ∧
      s.flights = [] ∧ calls es = [.add bitcoin, .add ethereum] ∧
      ∀ rs : List Request, rs.Perm (calls es) →
        s.stored ≠ serial (update exactText) createUserDocumentAndCoinsArrayInDB rs := by
  refine ⟨bothRead, _, run_bothRead, rfl, rfl, fun rs hp => ?_⟩
  obtain ⟨x, y, rfl⟩ := List.length_eq_two.mp hp.length_eq
  have hb : Request.add bitcoin ∈ [x, y] := hp.mem_iff.mpr (by decide)
  have he : Request.add ethereum ∈ [x, y] := hp.mem_iff.mpr (by decide)
  have hne : Request.add bitcoin ≠ .add ethereum := by decide
  simp only [List.mem_cons, List.not_mem_nil, or_false] at hb he
  rcases hb with rfl | rfl <;> rcases he with he | he
  · exact absurd he.symm hne
  · subst he
    decide
  · subst he
    decide
  · exact absurd he.symm hne

/-! ## 4. The document stays well formed -/

/-- Every entry carries its three strings, and no id occurs twice. -/
structure WellFormed (document : Document) : Prop where
  strings : ∀ e ∈ coinsArray document,
    (e.string "id").isSome ∧ (e.string "price").isSome ∧ (e.string "quantity").isSome
  distinct : ((coinsArray document).map (·.string "id")).Nodup

/-- The documents the functions write: coins with distinct ids. -/
def Written (document : Document) : Prop :=
  ∃ coins : List Coin, document = encode coins ∧ (coins.map Coin.id).Nodup

theorem Written.wellFormed {document : Document} (h : Written document) : WellFormed document := by
  obtain ⟨coins, rfl, hnd⟩ := h
  refine ⟨fun e he => ?_, ?_⟩
  · rw [coinsArray_encode] at he
    obtain ⟨coin, -, rfl⟩ := List.mem_map.mp he
    exact ⟨rfl, rfl, rfl⟩
  · have e : (coinsArray (encode coins)).map (·.string "id") = (coins.map Coin.id).map some := by
      rw [coinsArray_encode, List.map_map, List.map_map]
      rfl
    rw [e]
    exact hnd.map (Option.some_injective _)

/-- **One request keeps a written document written.** -/
theorem update_written (T : DoubleText F) (r : Request) {document new : Document}
    (h : Written document) (hu : update T r document = some new) : Written new := by
  obtain ⟨coins, rfl, hnd⟩ := h
  cases r with
  | add c =>
      rw [update_add T c (getPortfolio_encode coins), Option.some.injEq] at hu
      refine ⟨addCoin T c coins, hu.symm, ?_⟩
      rw [addCoin_ids]
      split
      · exact hnd
      · rename_i hm
        exact List.nodup_append.mpr ⟨hnd, List.nodup_singleton _, fun a ha b hb e =>
          hm (List.mem_singleton.mp hb ▸ e ▸ ha)⟩
  | delete id =>
      rw [update_delete T id (getPortfolio_encode coins)] at hu
      split at hu
      · cases hu
        exact ⟨_, rfl, hnd.sublist (List.eraseP_sublist.map Coin.id)⟩
      · cases hu

/-- **The document stays well formed under any concurrency**: the invariant is carried by every
    array a request in flight has read or is about to write (`Held`). -/
theorem portfolio_well_formed (T : DoubleText F) {es : List (Label Document Request)} {s : Requests}
    (h : Run (Step (update T)) (Store.start createUserDocumentAndCoinsArrayInDB) es s) :
    WellFormed s.stored ∧ ∃ portfolio, getPortfolio (.ok s.stored) = some portfolio := by
  have hw : Written createUserDocumentAndCoinsArrayInDB :=
    ⟨[], createUserDocument_eq, List.nodup_nil⟩
  have hs := (run_held (fun r _ _ => update_written T r) hw h).stored
  refine ⟨hs.wellFormed, ?_⟩
  obtain ⟨coins, e, -⟩ := hs
  exact ⟨⟨coins⟩, e ▸ getPortfolio_encode coins⟩

theorem portfolio_well_formed_bothRead :
    WellFormed (encode [ethereum]) ∧
      ∃ portfolio, getPortfolio (.ok (encode [ethereum])) = some portfolio :=
  portfolio_well_formed exactText run_bothRead

end CryptoWallet
