/-
  File:      CryptoWallet/Firebase/Ledger.lean
  Subject:   The stored portfolio refines a ledger of purchases.

  Requests that complete one after another, from the document a new user gets. Doubles are read
  as exact rationals. The ledger is the history of requests itself:

  * `purchasesSince id h`: the purchases of `id` in `h` since its last deletion;
  * `firstPurchase id h`: the position in `h` of the first of them.

  * `Refines T h coins`: `coins` lists the ids with a purchase since their last deletion, in the
    order of the first one, each with the summed quantity and a price that conserves the cost.
  * `refines_add`, `refines_delete`: one request keeps it. The cost is conserved because the new
    price is the average weighted by the quantities (`values_merge`).
  * `portfolio_refines_ledger`: it holds of every history whose purchases parse to positive
    numbers and whose deletions find their coin; each request leaves the other coins alone, and
    a coin's values do not depend on the order of its purchases.
-/
import Mathlib.Algebra.BigOperators.Group.List.Basic
import CryptoWallet.Firebase.Concurrency

namespace CryptoWallet

/-! ## 1. What one request leaves alone -/

/-- `add` leaves the coins of other ids alone. -/
theorem addCoin_frame {F : Type} [SwiftDouble F] (T : DoubleText F) (c : Coin) (coins : List Coin) :
    (addCoin T c coins).filter (·.id ≠ c.id) = coins.filter (·.id ≠ c.id) := by
  obtain ⟨pre, old, post, rfl, hid, e⟩ | ⟨-, e⟩ := addCoin_cases T c coins
  · rw [e]
    simp [hid]
  · rw [e]
    simp

/-- `delete` leaves the coins of other ids alone. -/
theorem eraseP_frame (id : String) (coins : List Coin) :
    (coins.eraseP (·.id = id)).filter (·.id ≠ id) = coins.filter (·.id ≠ id) := by
  induction coins with
  | nil => rfl
  | cons coin coins ih =>
      by_cases h : coin.id = id
      · simp [h]
      · rw [List.eraseP_cons_of_neg (by simpa using h), List.filter_cons, List.filter_cons, ih]

/-! ## 2. The ledger -/

/-- One request's effect on the purchases of `id` since its last deletion. -/
def purchaseStep (id : String) (purchases : List Coin) : Request → List Coin
  | .add c => if c.id = id then purchases ++ [c] else purchases
  | .delete i => if i = id then [] else purchases

/-- **The purchases of `id` since its last deletion**, oldest first. -/
def purchasesSince (id : String) (h : List Request) : List Coin := h.foldl (purchaseStep id) []

/-- One request's effect, at position `n` of the history, on the position of the first purchase
    of `id` since its last deletion. -/
def positionStep (id : String) (first : Option Nat) : Request × Nat → Option Nat
  | (.add c, n) => if c.id = id then first.or (some n) else first
  | (.delete i, _) => if i = id then none else first

/-- **The position of the first purchase of `id` since its last deletion.** -/
def firstPurchase (id : String) (h : List Request) : Option Nat :=
  h.zipIdx.foldl (positionStep id) none

theorem purchasesSince_append (id : String) (h : List Request) (r : Request) :
    purchasesSince id (h ++ [r]) = purchaseStep id (purchasesSince id h) r := by
  simp [purchasesSince]

theorem firstPurchase_append (id : String) (h : List Request) (r : Request) :
    firstPurchase id (h ++ [r]) = positionStep id (firstPurchase id h) (r, h.length) := by
  simp [firstPurchase, List.zipIdx_append]

/-- The id `a` was bought before the id `b`, counting from their last deletions. -/
def BoughtBefore (h : List Request) (a b : String) : Prop :=
  ∃ i j, firstPurchase a h = some i ∧ firstPurchase b h = some j ∧ i < j

theorem firstPurchase_lt {id : String} {h : List Request} {i : Nat}
    (hi : firstPurchase id h = some i) : i < h.length := by
  induction h using List.reverseRecOn generalizing i with
  | nil => cases hi
  | append_singleton h r ih =>
      rw [firstPurchase_append] at hi
      rw [List.length_append, List.length_singleton]
      have hold : firstPurchase id h = some i → i < h.length + 1 := fun e => by
        have := ih e
        omega
      cases r with
      | add c =>
          simp only [positionStep] at hi
          split at hi
          · cases hf : firstPurchase id h with
            | some k =>
                rw [hf, Option.some_or] at hi
                exact hold (hf.trans hi)
            | none =>
                rw [hf, Option.none_or, Option.some.injEq] at hi
                omega
          · exact hold hi
      | delete d =>
          simp only [positionStep] at hi
          split at hi
          · cases hi
          · exact hold hi

theorem firstPurchase_isSome (id : String) (h : List Request) :
    (firstPurchase id h).isSome = true ↔ purchasesSince id h ≠ [] := by
  induction h using List.reverseRecOn with
  | nil => simp [firstPurchase, purchasesSince]
  | append_singleton h r ih =>
      rw [firstPurchase_append, purchasesSince_append]
      cases r with
      | add c =>
          simp only [positionStep, purchaseStep]
          split
          · simp
          · exact ih
      | delete d =>
          simp only [positionStep, purchaseStep]
          split
          · simp
          · exact ih

/-! ## 3. The refinement -/

section Refinement

variable (T : DoubleText ℚ)

/-- The quantity and the cost of one purchase. -/
def bought (c : Coin) : ℚ := (T.ofText c.quantity).getD 0
def cost (c : Coin) : ℚ := (T.ofText c.price).getD 0 * (T.ofText c.quantity).getD 0

/-- What the purchases of `id` add up to. -/
def totalBought (id : String) (h : List Request) : ℚ := ((purchasesSince id h).map (bought T)).sum
def totalCost (id : String) (h : List Request) : ℚ := ((purchasesSince id h).map (cost T)).sum

/-- The coin's quantity is what was bought since the last deletion, its price times quantity
    what that cost. -/
def Values (h : List Request) (coin : Coin) : Prop :=
  ∃ p q : ℚ, T.ofText coin.price = some p ∧ T.ofText coin.quantity = some q ∧
    q = totalBought T coin.id h ∧ p * q = totalCost T coin.id h

/-- **The coins of the document refine the history `h`.** -/
structure Refines (h : List Request) (coins : List Coin) : Prop where
  held : ∀ id, id ∈ coins.map Coin.id ↔ purchasesSince id h ≠ []
  order : (coins.map Coin.id).Pairwise (BoughtBefore h)
  values : ∀ coin ∈ coins, Values T h coin

/-- A purchase whose price and quantity parse to positive numbers. -/
def Positive (c : Coin) : Prop :=
  ∃ p q : ℚ, T.ofText c.price = some p ∧ T.ofText c.quantity = some q ∧ 0 < p ∧ 0 < q

/-- The histories of the ledger: positive purchases, and deletions of coins that are held. -/
structure Admissible (h : List Request) : Prop where
  positive : ∀ c, .add c ∈ h → Positive T c
  present : ∀ pre id post, h = pre ++ .delete id :: post → purchasesSince id pre ≠ []

variable {T}

theorem Admissible.earlier {h h' : List Request} (hadm : Admissible T (h ++ h')) :
    Admissible T h where
  positive c hc := hadm.positive c (List.mem_append_left _ hc)
  present pre id post e := hadm.present pre id (post ++ h') (by rw [e]; simp)

theorem Refines.nodup {h : List Request} {coins : List Coin} (hr : Refines T h coins) :
    (coins.map Coin.id).Nodup :=
  hr.order.imp fun ⟨i, j, hi, hj, hlt⟩ e => by
    subst e
    rw [hi, Option.some.injEq] at hj
    omega

theorem purchases_of_mem {id : String} {h : List Request} {c : Coin}
    (hc : c ∈ purchasesSince id h) : .add c ∈ h ∧ c.id = id := by
  induction h using List.reverseRecOn with
  | nil => cases hc
  | append_singleton h r ih =>
      rw [purchasesSince_append] at hc
      have hold : c ∈ purchasesSince id h → .add c ∈ h ++ [r] ∧ c.id = id := fun hm =>
        ⟨List.mem_append_left _ (ih hm).1, (ih hm).2⟩
      cases r with
      | add d =>
          simp only [purchaseStep] at hc
          split at hc
          · rename_i he
            rcases List.mem_append.mp hc with hm | hm
            · exact hold hm
            · rw [List.mem_singleton.mp hm]
              exact ⟨List.mem_append_right _ (List.mem_singleton_self _), he⟩
          · exact hold hc
      | delete d =>
          simp only [purchaseStep] at hc
          split at hc
          · cases hc
          · exact hold hc

/-- A held coin has a positive quantity. -/
theorem totalBought_pos {h : List Request} (hadm : Admissible T h) {id : String}
    (hne : purchasesSince id h ≠ []) : 0 < totalBought T id h := by
  refine List.sum_pos _ (fun x hx => ?_) (by simpa using hne)
  obtain ⟨c, hc, rfl⟩ := List.mem_map.mp hx
  obtain ⟨p, q, -, hq, -, hpos⟩ := hadm.positive c (purchases_of_mem hc).1
  simpa [bought, hq] using hpos

/-! ## 4. One request keeps the refinement -/

theorem totals_add (h : List Request) (c : Coin) :
    totalBought T c.id (h ++ [.add c]) = totalBought T c.id h + bought T c ∧
      totalCost T c.id (h ++ [.add c]) = totalCost T c.id h + cost T c := by
  simp [totalBought, totalCost, purchasesSince_append, purchaseStep]

/-- A request about another id changes nothing for `id`. -/
theorem purchasesSince_other {id : String} {r : Request} (hne : r.id ≠ id) (h : List Request) :
    purchasesSince id (h ++ [r]) = purchasesSince id h := by
  rw [purchasesSince_append]
  cases r <;> exact if_neg hne

theorem firstPurchase_other {id : String} {r : Request} (hne : r.id ≠ id) (h : List Request) :
    firstPurchase id (h ++ [r]) = firstPurchase id h := by
  rw [firstPurchase_append]
  cases r <;> exact if_neg hne

theorem values_other {h : List Request} {coin : Coin} {r : Request} (hne : r.id ≠ coin.id)
    (hv : Values T h coin) : Values T (h ++ [r]) coin := by
  obtain ⟨p, q, hp, hq, hb, hc⟩ := hv
  refine ⟨p, q, hp, hq, ?_, ?_⟩
  · rw [hb, totalBought, totalBought, purchasesSince_other hne]
  · rw [hc, totalCost, totalCost, purchasesSince_other hne]

/-- **The merged coin conserves quantity and cost**: its price is the average weighted by the
    quantities. -/
theorem values_merge {h : List Request} {old c : Coin} (hid : old.id = c.id) (hv : Values T h old)
    (hpos : 0 < totalBought T old.id h) (hc : Positive T c) :
    Values T (h ++ [.add c]) (merge T old c) := by
  obtain ⟨p, q, hp, hq, hb, hcost⟩ := hv
  obtain ⟨p', q', hp', hq', -, hq0⟩ := hc
  have hsum : q + q' ≠ 0 := by
    rw [← hb] at hpos
    exact (add_pos hpos hq0).ne'
  obtain ⟨hb', hcost'⟩ := totals_add (T := T) h c
  refine ⟨(p * q + p' * q') / (q + q'), q + q', ?_, ?_, ?_, ?_⟩
  · simp [merge, resultPrice, resultQuantity, hp, hq, hp', hq']
  · simp [merge, resultQuantity, hq, hq']
  · rw [merge_id, hid, hb', ← hid, ← hb, bought, hq', Option.getD_some]
  · rw [merge_id, hid, hcost', ← hid, ← hcost, cost, hp', hq', div_mul_cancel₀ _ hsum]
    rfl

/-- A first purchase is its own ledger. -/
theorem values_new {h : List Request} {c : Coin} (hnone : purchasesSince c.id h = [])
    (hc : Positive T c) : Values T (h ++ [.add c]) c := by
  obtain ⟨p, q, hp, hq, -, -⟩ := hc
  obtain ⟨hb, hcost⟩ := totals_add (T := T) h c
  refine ⟨p, q, hp, hq, ?_, ?_⟩
  · rw [hb, totalBought, hnone]
    simp [bought, hq]
  · rw [hcost, totalCost, hnone]
    simp [cost, hp, hq]

/-- A held id keeps its place when something is bought. -/
theorem boughtBefore_add {h : List Request} {a b : String} (c : Coin) (hb : BoughtBefore h a b) :
    BoughtBefore (h ++ [.add c]) a b := by
  obtain ⟨i, j, hi, hj, hlt⟩ := hb
  have keep : ∀ {x : String} {k : Nat}, firstPurchase x h = some k →
      firstPurchase x (h ++ [.add c]) = some k := by
    intro x k hk
    rw [firstPurchase_append, positionStep, hk]
    split <;> rfl
  exact ⟨i, j, keep hi, keep hj, hlt⟩

/-- **A purchase keeps the refinement.** -/
theorem refines_add {h : List Request} {coins : List Coin} {c : Coin}
    (hadm : Admissible T (h ++ [.add c])) (hr : Refines T h coins) :
    Refines T (h ++ [.add c]) (addCoin T c coins) := by
  have hc : Positive T c := hadm.positive c (List.mem_append_right _ (List.mem_singleton_self _))
  have hsome : ∀ {x}, x ∈ coins.map Coin.id → ∃ i, firstPurchase x h = some i := fun hx =>
    Option.isSome_iff_exists.mp ((firstPurchase_isSome _ h).mpr ((hr.held _).mp hx))
  refine ⟨fun id => ?_, ?_, fun coin hm => ?_⟩
  · rw [addCoin_ids, purchasesSince_append, purchaseStep]
    have := hr.held id
    by_cases he : c.id = id
    · subst he
      by_cases hm : c.id ∈ coins.map Coin.id <;> simp [hm]
    · have he' : ¬ id = c.id := fun e => he e.symm
      rw [if_neg he, ← this]
      by_cases hm : c.id ∈ coins.map Coin.id <;> simp [hm, he']
  · rw [addCoin_ids]
    split
    · exact hr.order.imp fun hab => boughtBefore_add c hab
    · rename_i hnew
      -- the new id was bought last
      refine List.pairwise_append.mpr ⟨hr.order.imp fun hab => boughtBefore_add c hab,
        List.pairwise_singleton _ _, fun a ha b hb => ?_⟩
      rw [List.mem_singleton.mp hb]
      obtain ⟨i, hi⟩ := hsome ha
      have hne : Request.id (.add c) ≠ a := fun e => hnew (by rw [show c.id = a from e]; exact ha)
      refine ⟨i, h.length, by rw [firstPurchase_other hne, hi], ?_, firstPurchase_lt hi⟩
      have hnone : firstPurchase c.id h = none := by
        rw [← Option.not_isSome_iff_eq_none]
        exact fun hs => hnew ((hr.held _).mpr ((firstPurchase_isSome _ _).mp hs))
      simp [firstPurchase_append, positionStep, hnone]
  · rcases mem_addCoin hm with ⟨hold, hne⟩ | ⟨old, hold, hid, rfl⟩ | ⟨hnew, rfl⟩
    · exact values_other (fun e => hne hr.nodup e.symm) (hr.values coin hold)
    · have hne := (hr.held old.id).mp (List.mem_map_of_mem hold)
      exact values_merge hid (hr.values old hold) (totalBought_pos hadm.earlier hne) hc
    · exact values_new (not_not.mp fun hne => hnew ((hr.held _).mpr hne)) hc

theorem eraseP_ids (id : String) (coins : List Coin) :
    (coins.eraseP (·.id = id)).map Coin.id = (coins.map Coin.id).erase id := by
  rw [List.erase_eq_eraseP', List.eraseP_map]
  rfl

/-- **A deletion keeps the refinement.** -/
theorem refines_delete {h : List Request} {coins : List Coin} {id : String}
    (hr : Refines T h coins) :
    Refines T (h ++ [.delete id]) (coins.eraseP (·.id = id)) := by
  have hmem : ∀ x, x ∈ (coins.eraseP (·.id = id)).map Coin.id ↔ x ≠ id ∧ x ∈ coins.map Coin.id := by
    intro x
    rw [eraseP_ids]
    exact hr.nodup.mem_erase_iff
  refine ⟨fun x => ?_, ?_, fun coin hm => ?_⟩
  · rw [hmem, hr.held, purchasesSince_append, purchaseStep]
    by_cases he : id = x
    · simp [he]
    · have he' : x ≠ id := fun e => he e.symm
      rw [if_neg he]
      exact ⟨fun hx => hx.2, fun hx => ⟨he', hx⟩⟩
  · have hsub : ((coins.eraseP (·.id = id)).map Coin.id).Pairwise (BoughtBefore h) :=
      hr.order.sublist (List.eraseP_sublist.map Coin.id)
    refine hsub.imp_of_mem fun {a b} ha hb ⟨i, j, hi, hj, hlt⟩ => ⟨i, j, ?_, ?_, hlt⟩
    · rw [firstPurchase_other (fun e => ((hmem a).mp ha).1 e.symm), hi]
    · rw [firstPurchase_other (fun e => ((hmem b).mp hb).1 e.symm), hj]
  · have hne := ((hmem coin.id).mp (List.mem_map_of_mem hm)).1
    exact values_other (fun e => hne e.symm) (hr.values coin (List.mem_of_mem_eraseP hm))

/-! ## 5. Whole histories -/

/-- **Every admissible history completes, and its document refines it.** -/
theorem run_refines {h : List Request} (hadm : Admissible T h) :
    ∃ coins, runAll T h = some (encode coins) ∧ Refines T h coins := by
  induction h using List.reverseRecOn with
  | nil => exact ⟨[], rfl, by simp [purchasesSince], List.Pairwise.nil, by simp⟩
  | append_singleton h r ih =>
      obtain ⟨coins, hrun, hr⟩ := ih hadm.earlier
      rw [runAll_append_one, hrun, Option.bind_some]
      cases r with
      | add c => exact ⟨_, complete_add T c coins, refines_add hadm hr⟩
      | delete id =>
          have hid : id ∈ coins.map Coin.id := (hr.held id).mpr (hadm.present h id [] rfl)
          exact ⟨_, complete_delete T hid, refines_delete hr⟩

/-- **Each request leaves the coins of other ids alone.** -/
theorem run_frame {pre : List Request} {r : Request} (hadm : Admissible T (pre ++ [r])) :
    ∃ before after, runAll T pre = some (encode before) ∧
      runAll T (pre ++ [r]) = some (encode after) ∧
      after.filter (·.id ≠ r.id) = before.filter (·.id ≠ r.id) := by
  obtain ⟨coins, hrun, hr⟩ := run_refines hadm.earlier
  rw [runAll_append_one, hrun, Option.bind_some]
  cases r with
  | add c => exact ⟨coins, _, rfl, complete_add T c coins, addCoin_frame T c coins⟩
  | delete id =>
      have hid : id ∈ coins.map Coin.id := (hr.held id).mpr (hadm.present pre id [] rfl)
      exact ⟨coins, _, rfl, complete_delete T hid, eraseP_frame id coins⟩

/-- Two coins with the same purchases, in any order, have the same values. -/
theorem values_perm {h h' : List Request} {coin coin' : Coin} (hadm : Admissible T h)
    (hid : coin'.id = coin.id) (hne : purchasesSince coin.id h ≠ [])
    (hperm : (purchasesSince coin.id h).Perm (purchasesSince coin.id h'))
    (hv : Values T h coin) (hv' : Values T h' coin') :
    T.ofText coin'.price = T.ofText coin.price ∧
      T.ofText coin'.quantity = T.ofText coin.quantity := by
  obtain ⟨p, q, hp, hq, hb, hc⟩ := hv
  obtain ⟨p', q', hp', hq', hb', hc'⟩ := hv'
  have eb : totalBought T coin.id h = totalBought T coin.id h' := (hperm.map (bought T)).sum_eq
  have ec : totalCost T coin.id h = totalCost T coin.id h' := (hperm.map (cost T)).sum_eq
  have eq : q' = q := by rw [hb', hid, ← eb, ← hb]
  have hq0 : q ≠ 0 := hb ▸ (totalBought_pos hadm hne).ne'
  have ep : p' = p := by
    have hpq : p' * q = p * q := by rw [hc, ec, ← hid, ← hc', eq]
    exact mul_right_cancel₀ hq0 hpq
  exact ⟨by rw [hp', hp, ep], by rw [hq', hq, eq]⟩

/-- **The stored portfolio refines the ledger of purchases.** -/
theorem portfolio_refines_ledger (T : DoubleText ℚ) {h : List Request} (hadm : Admissible T h) :
    ∃ coins : List Coin, (runAll T h).map (fun d => getPortfolio (.ok d)) = some (some ⟨coins⟩) ∧
      Refines T h coins ∧ (coins.map Coin.id).Nodup ∧
      (∀ pre r post, h = pre ++ r :: post → ∃ before after,
        runAll T pre = some (encode before) ∧ runAll T (pre ++ [r]) = some (encode after) ∧
        after.filter (·.id ≠ r.id) = before.filter (·.id ≠ r.id)) ∧
      ∀ h', Admissible T h' → ∀ coin ∈ coins,
        (purchasesSince coin.id h).Perm (purchasesSince coin.id h') →
        ∃ coins', (runAll T h').map (fun d => getPortfolio (.ok d)) = some (some ⟨coins'⟩) ∧
          ∃ coin' ∈ coins', coin'.id = coin.id ∧ T.ofText coin'.price = T.ofText coin.price ∧
            T.ofText coin'.quantity = T.ofText coin.quantity := by
  obtain ⟨coins, hrun, hr⟩ := run_refines hadm
  refine ⟨coins, by rw [hrun, Option.map_some, getPortfolio_encode], hr, hr.nodup,
    fun pre r post e => ?_, fun h' hadm' coin hm hperm => ?_⟩
  · have hadm1 : Admissible T ((pre ++ [r]) ++ post) := by
      rw [List.append_assoc]
      exact e ▸ hadm
    exact run_frame hadm1.earlier
  · obtain ⟨coins', hrun', hr'⟩ := run_refines hadm'
    have hne : purchasesSince coin.id h ≠ [] := (hr.held _).mp (List.mem_map_of_mem hm)
    have hne' : purchasesSince coin.id h' ≠ [] := by
      intro e
      rw [e] at hperm
      exact hne hperm.eq_nil
    obtain ⟨coin', hm', hid⟩ := List.mem_map.mp ((hr'.held _).mpr hne')
    have hv := values_perm hadm hid hne hperm (hr.values coin hm) (hr'.values coin' hm')
    exact ⟨coins', by rw [hrun', Option.map_some, getPortfolio_encode], coin', hm', hid, hv⟩

end Refinement

/-- Two purchases of one coin, one of another that is then deleted. -/
def history : List Request :=
  [.add ⟨"bitcoin", "10.0", "2.0"⟩, .add ⟨"ethereum", "3.0", "1.0"⟩,
    .add ⟨"bitcoin", "20.0", "2.0"⟩, .delete "ethereum"]

theorem admissible_history : Admissible exactText history where
  positive c hc := by
    have h1 : exactText.ofText "1.0" = some 1 := by decide +kernel
    have h2 : exactText.ofText "2.0" = some 2 := by decide +kernel
    have h3 : exactText.ofText "3.0" = some 3 := by decide +kernel
    have h10 : exactText.ofText "10.0" = some 10 := by decide +kernel
    have h20 : exactText.ofText "20.0" = some 20 := by decide +kernel
    simp only [history, List.mem_cons, Request.add.injEq, List.not_mem_nil, or_false,
      reduceCtorEq] at hc
    rcases hc with rfl | rfl | rfl
    · exact ⟨10, 2, h10, h2, by decide, by decide⟩
    · exact ⟨3, 1, h3, h1, by decide, by decide⟩
    · exact ⟨20, 2, h20, h2, by decide, by decide⟩
  present pre id post e := by
    rcases pre with _ | ⟨a, _ | ⟨b, _ | ⟨c, _ | ⟨d, pre⟩⟩⟩⟩ <;> simp [history] at e
    obtain ⟨rfl, rfl, rfl, rfl, -⟩ := e
    decide

/-- Only bitcoin is left of the history. -/
theorem purchasesSince_history (id : String) :
    purchasesSince id history ≠ [] ↔ id = "bitcoin" := by
  by_cases hb : "bitcoin" = id
  · subst hb
    exact iff_of_true (by decide) rfl
  · have hb' : id ≠ "bitcoin" := fun e => hb e.symm
    simp only [purchasesSince, history, List.foldl_cons, List.foldl_nil, purchaseStep, hb, hb',
      if_false, iff_false, ne_eq, not_not]
    split <;> rfl

theorem portfolio_refines_ledger_history :
    ∃ coins : List Coin,
      (runAll exactText history).map (fun d => getPortfolio (.ok d)) = some (some ⟨coins⟩) ∧
      Refines exactText history coins := by
  obtain ⟨coins, hrun, hr, -⟩ := portfolio_refines_ledger exactText admissible_history
  exact ⟨coins, hrun, hr⟩

example : runAll exactText history = some (encode [⟨"bitcoin", "15.0", "4.0"⟩]) := by
  decide +kernel

end CryptoWallet
