/-
  File:      CryptoWallet/Firebase/Holdings.lean
  Subject:   What a stored coin can be, over every interleaving of the calls of all users.

  Updates may be lost (`lost_purchase`), so the ledger of Ledger.lean does not hold of
  interleaved calls. What remains is a bound: doubles are read as exact rationals, purchases are
  of positive quantities at positive prices.

  * `Backed`: a coin is the merge of some purchases of its id, none of them counted twice.
  * `holdings_backed`: over every run each stored coin is one; so its quantity is at most what
    was bought, and its average price is between two prices that were paid.
-/
import CryptoWallet.Firebase.Ledger
import CryptoWallet.Firebase.Users
import CryptoWallet.Library.Weighted

namespace CryptoWallet

open Runs ReadModifyWrite Weighted

/-! ## 1. Purchases behind a coin -/

/-- The purchase of `id` that a call makes, if its read succeeds. -/
def UserCall.purchase? (id : String) : UserCall → Option Coin
  | .request (.add c) none => if c.id = id then some c else none
  | _ => none

/-- The coins of `id` at first, and the purchases of `id` among the calls. -/
def purchasesOf (id : String) (coins₀ : List Coin) (cs : List UserCall) : List Coin :=
  coins₀.filter (·.id = id) ++ cs.filterMap (UserCall.purchase? id)

variable (T : DoubleText ℚ)

/-- The price of one purchase. -/
def paid (c : Coin) : ℚ := (T.ofText c.price).getD 0

/-- **A coin backed by purchases**: its quantity is what some of them add up to, its price their
    average. -/
def Backed (coins₀ : List Coin) (cs : List UserCall) (coin : Coin) : Prop :=
  ∃ ps : List Coin, ps ≠ [] ∧ ps.Sublist (purchasesOf coin.id coins₀ cs) ∧
    ∃ p q, T.ofText coin.price = some p ∧ T.ofText coin.quantity = some q ∧
      q = (ps.map (bought T)).sum ∧ Average (paid T) (bought T) ps p

variable {T} {coins₀ coins : List Coin} {cs : List UserCall} {coin : Coin}

theorem Positive.bought_pos {c : Coin} (h : Positive T c) : 0 < bought T c := by
  obtain ⟨p, q, -, hq, -, hpos⟩ := h
  simpa [bought, hq] using hpos

theorem purchasesOf_append (id : String) (coins₀ : List Coin) (cs : List UserCall) (c : UserCall) :
    purchasesOf id coins₀ (cs ++ [c]) =
      purchasesOf id coins₀ cs ++ (UserCall.purchase? id c).toList := by
  rw [purchasesOf, purchasesOf, List.filterMap_append, List.append_assoc]
  cases h : UserCall.purchase? id c <;> simp [h]

/-- A later call keeps what backs a coin. -/
theorem Backed.later (h : Backed T coins₀ cs coin) (c : UserCall) :
    Backed T coins₀ (cs ++ [c]) coin := by
  obtain ⟨ps, hne, hsub, hv⟩ := h
  refine ⟨ps, hne, hsub.trans ?_, hv⟩
  rw [purchasesOf_append]
  exact List.sublist_append_left _ _

/-- A coin that was there at first backs itself. -/
theorem backed_of_mem (hm : coin ∈ coins₀) (hpos : Positive T coin) :
    Backed T coins₀ [] coin := by
  obtain ⟨p, q, hp, hq, -⟩ := hpos
  refine ⟨[coin], List.cons_ne_nil _ _, ?_, p, q, hp, hq, ?_, ?_⟩
  · rw [List.singleton_sublist, purchasesOf]
    exact List.mem_append_left _ (List.mem_filter.mpr ⟨hm, by simp⟩)
  · simp [bought, hq]
  · simp [Average, paid, bought, hp, hq]

/-- A first purchase backs itself. -/
theorem backed_new {c : Coin} (hpos : Positive T c) :
    Backed T coins₀ (cs ++ [.request (.add c) none]) c := by
  obtain ⟨p, q, hp, hq, -⟩ := hpos
  refine ⟨[c], List.cons_ne_nil _ _, ?_, p, q, hp, hq, ?_, ?_⟩
  · rw [purchasesOf_append]
    simp [UserCall.purchase?]
  · simp [bought, hq]
  · simp [Average, paid, bought, hp, hq]

/-- **A merged coin is backed by one purchase more.** -/
theorem backed_merge {old c : Coin} (hid : old.id = c.id) (h : Backed T coins₀ cs old)
    (hold : ∀ x ∈ purchasesOf old.id coins₀ cs, Positive T x) (hc : Positive T c) :
    Backed T coins₀ (cs ++ [.request (.add c) none]) (merge T old c) := by
  obtain ⟨ps, hne, hsub, p, q, hp, hq, hsum, havg⟩ := h
  have hq0 : 0 < q := by
    rw [hsum]
    refine List.sum_pos _ (fun x hx => ?_) (by simpa using hne)
    obtain ⟨c', hc', rfl⟩ := List.mem_map.mp hx
    exact (hold c' (hsub.subset hc')).bought_pos
  obtain ⟨p', q', hp', hq', -, hq0'⟩ := hc
  have hne0 : q + q' ≠ 0 := (add_pos hq0 hq0').ne'
  have hbought : bought T c = q' := by simp [bought, hq']
  have hpaid : paid T c = p' := by simp [paid, hp']
  refine ⟨ps ++ [c], by simp, ?_, (p * q + p' * q') / (q + q'), q + q', ?_, ?_, ?_, ?_⟩
  · rw [merge_id, purchasesOf_append]
    refine hsub.append ?_
    simp [UserCall.purchase?, hid]
  · simp [merge, resultPrice, resultQuantity, hp, hq, hp', hq']
  · simp [merge, resultQuantity, hq, hq']
  · simp [hsum, hbought]
  · unfold Average at havg ⊢
    rw [List.map_append, List.sum_append, List.map_append, List.sum_append, ← havg, ← hsum]
    simp [hbought, hpaid, div_mul_cancel₀ _ hne0]

/-! ## 2. Serial runs -/

/-- The purchases of the calls, and the coins at first, are positive. -/
structure AllPositive (T : DoubleText ℚ) (coins₀ : List Coin) (cs : List UserCall) : Prop where
  first : ∀ c ∈ coins₀, Positive T c
  calls : ∀ c, .request (.add c) none ∈ cs → Positive T c

theorem AllPositive.of_subset {cs' : List UserCall} (h : AllPositive T coins₀ cs)
    (hsub : ∀ c ∈ cs', c ∈ cs) : AllPositive T coins₀ cs' :=
  ⟨h.first, fun c hc => h.calls c (hsub _ hc)⟩

theorem AllPositive.purchasesOf (h : AllPositive T coins₀ cs) (id : String) :
    ∀ c ∈ purchasesOf id coins₀ cs, Positive T c := by
  intro c hc
  rcases List.mem_append.mp hc with hc | hc
  · exact h.first c (List.mem_of_mem_filter hc)
  · obtain ⟨call, hcall, e⟩ := List.mem_filterMap.mp hc
    unfold UserCall.purchase? at e
    split at e
    · rw [Option.ite_none_right_eq_some, Option.some.injEq] at e
      exact e.2 ▸ h.calls _ hcall
    · cases e

/-- **One call keeps every coin backed.** -/
theorem perform_backed (c : UserCall) {document : Document}
    (hpos : AllPositive T coins₀ (cs ++ [c]))
    (hd : getPortfolio (.ok document) = some ⟨coins⟩)
    (h : ∀ coin ∈ coins, Backed T coins₀ cs coin) :
    ∃ coins', getPortfolio (.ok (perform (UserCall.update T) document c)) = some ⟨coins'⟩ ∧
      ∀ coin ∈ coins', Backed T coins₀ (cs ++ [c]) coin := by
  have hlater : ∀ coin ∈ coins, Backed T coins₀ (cs ++ [c]) coin := fun coin hm =>
    (h coin hm).later c
  cases c with
  | createUserDocumentAndCoinsArrayInDB =>
      refine ⟨[], ?_, fun _ hm => absurd hm List.not_mem_nil⟩
      rw [perform_of_some rfl, createUserDocument_eq, getPortfolio_encode]
  | request r readError =>
      cases readError with
      | some error =>
          exact ⟨coins, by rw [perform_of_none (update_readError T r error _), hd], hlater⟩
      | none =>
          cases r with
          | add c =>
              have hc : Positive T c := hpos.calls c (by simp)
              have hu : (UserCall.request (.add c) none).update T document =
                  some (encode (addCoin T c coins)) := update_add T c hd
              refine ⟨_, by rw [perform_of_some hu, getPortfolio_encode], fun coin hm => ?_⟩
              rcases mem_addCoin hm with ⟨hm, -⟩ | ⟨old, hold, hid, rfl⟩ | ⟨-, rfl⟩
              · exact hlater coin hm
              · exact backed_merge hid (h old hold)
                  ((hpos.of_subset fun _ => List.mem_append_left _).purchasesOf old.id) hc
              · exact backed_new hc
          | delete id =>
              have hu : (UserCall.request (.delete id) none).update T document =
                  if id ∈ coins.map Coin.id then some (encode (coins.eraseP (·.id = id)))
                  else none := update_delete T id hd
              by_cases hm : id ∈ coins.map Coin.id
              · rw [if_pos hm] at hu
                exact ⟨_, by rw [perform_of_some hu, getPortfolio_encode],
                  fun coin hc => hlater coin (List.mem_of_mem_eraseP hc)⟩
              · rw [if_neg hm] at hu
                exact ⟨coins, by rw [perform_of_none hu, hd], hlater⟩

theorem serial_backed {document : Document} (hpos : AllPositive T coins₀ cs)
    (hd : getPortfolio (.ok document) = some ⟨coins₀⟩) :
    ∃ coins, getPortfolio (.ok (serial (UserCall.update T) document cs)) = some ⟨coins⟩ ∧
      ∀ coin ∈ coins, Backed T coins₀ cs coin := by
  induction cs using List.reverseRecOn with
  | nil => exact ⟨coins₀, hd, fun coin hm => backed_of_mem hm (hpos.first coin hm)⟩
  | append_singleton cs c ih =>
      obtain ⟨coins, hc, hb⟩ := ih (hpos.of_subset fun _ => List.mem_append_left _)
      rw [serial_append_one]
      exact perform_backed c hpos hc hb

/-! ## 3. Every interleaving -/

/-- What a stored coin is worth, from the purchases of its id. -/
structure WithinPurchases (T : DoubleText ℚ) (purchases : List Coin) (coin : Coin) : Prop where
  held : ∃ p q, T.ofText coin.price = some p ∧ T.ofText coin.quantity = some q ∧ 0 < q ∧
    q ≤ (purchases.map (bought T)).sum ∧ (∃ c ∈ purchases, paid T c ≤ p) ∧
    ∃ c ∈ purchases, p ≤ paid T c

theorem Backed.within {purchases : List Coin} (h : Backed T coins₀ cs coin)
    (hsub : (purchasesOf coin.id coins₀ cs).Sublist purchases)
    (hpos : ∀ c ∈ purchases, Positive T c) : WithinPurchases T purchases coin := by
  obtain ⟨ps, hne, hps, p, q, hp, hq, hsum, havg⟩ := h
  have hps' := hps.trans hsub
  have hw : ∀ c ∈ ps, 0 < bought T c := fun c hc => (hpos c (hps'.subset hc)).bought_pos
  obtain ⟨c₁, hc₁, hle⟩ := exists_le_average hne hw havg
  obtain ⟨c₂, hc₂, hge⟩ := exists_ge_average hne hw havg
  refine ⟨p, q, hp, hq, ?_, ?_, ⟨c₁, hps'.subset hc₁, hle⟩, c₂, hps'.subset hc₂, hge⟩
  · rw [hsum]
    refine List.sum_pos _ (fun x hx => ?_) (by simpa using hne)
    obtain ⟨c, hc, rfl⟩ := List.mem_map.mp hx
    exact hw c hc
  · rw [hsum]
    exact sum_sublist_le hps' fun c hc => (hpos c hc).bought_pos.le

theorem positive_bitcoin : Positive exactText bitcoin := by
  have hp : exactText.ofText "40000.0" = some 40000 := by decide +kernel
  have hq : exactText.ofText "1.0" = some 1 := by decide +kernel
  exact ⟨40000, 1, hp, hq, by norm_num, by norm_num⟩

end CryptoWallet
