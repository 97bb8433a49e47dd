/-
  File:      CryptoWallet/Library/Calls.lean
  Subject:   Calls that are made one after another and answered in any order.

  A caller keeps the list of the calls it has made; the environment keeps the numbers of those
  it has answered.

  * `Outstanding issued answered n r`: call number `n`, of `r`, waits for its answer.
  * `Quiet issued answered`: no call does.
  * `outstanding_issue`, `Outstanding.of_answer`: what a new call and an answer change.
-/
import Mathlib.Data.List.Basic

namespace Calls

variable {ρ : Type*}

/-- Call number `n`, of `r`, has been made and not answered. -/
def Outstanding (issued : List ρ) (answered : List Nat) (n : Nat) (r : ρ) : Prop :=
  issued[n]? = some r ∧ n ∉ answered

/-- Every call has been answered. -/
def Quiet (issued : List ρ) (answered : List Nat) : Prop :=
  ∀ n r, ¬ Outstanding issued answered n r

/-- Only calls that have been made are answered. -/
def Proper (issued : List ρ) (answered : List Nat) : Prop := ∀ n ∈ answered, n < issued.length

variable {issued : List ρ} {answered : List Nat} {n m : Nat} {r q : ρ}

theorem Outstanding.lt (h : Outstanding issued answered n r) : n < issued.length :=
  (List.getElem?_eq_some_iff.mp h.1).1

theorem quiet_of_all (h : ∀ n < issued.length, n ∈ answered) : Quiet issued answered :=
  fun n _ ho => ho.2 (h n ho.lt)

theorem proper_nil : Proper issued [] := fun _ h => absurd h List.not_mem_nil

theorem Proper.answer (h : Proper issued answered) (ho : Outstanding issued answered n r) :
    Proper issued (answered ++ [n]) := by
  intro m hm
  rcases List.mem_append.mp hm with hm | hm
  · exact h m hm
  · exact List.mem_singleton.mp hm ▸ ho.lt

theorem Proper.of_prefix {issued' : List ρ} (h : Proper issued answered)
    (hp : issued <+: issued') : Proper issued' answered :=
  fun n hn => Nat.lt_of_lt_of_le (h n hn) hp.length_le

theorem Proper.issue (h : Proper issued answered) (r : ρ) : Proper (issued ++ [r]) answered :=
  h.of_prefix (List.prefix_append _ _)

/-- Call number `n` among one more call: a call made before, or the new one. -/
theorem getElem?_issue :
    (issued ++ [q])[n]? = some r ↔ issued[n]? = some r ∨ (n = issued.length ∧ r = q) := by
  rcases Nat.lt_trichotomy n issued.length with hlt | rfl | hgt
  · have hne : n ≠ issued.length := by omega
    simp [List.getElem?_append_left hlt, hne]
  · simp [eq_comm]
  · have hne : n ≠ issued.length := by omega
    have h1 : (issued ++ [q])[n]? = none := List.getElem?_eq_none (by simp; omega)
    have h2 : issued[n]? = none := List.getElem?_eq_none (by omega)
    simp [h1, h2, hne]

/-- **What waits after one more call**: what waited before, or the new call. -/
theorem outstanding_issue (h : Outstanding (issued ++ [q]) answered n r) :
    Outstanding issued answered n r ∨ (n = issued.length ∧ r = q) :=
  (getElem?_issue.mp h.1).imp (fun hn => ⟨hn, h.2⟩) id

/-- A call just made waits. -/
theorem outstanding_new (h : Proper issued answered) (r : ρ) :
    Outstanding (issued ++ [r]) answered issued.length r :=
  ⟨by simp, fun hm => Nat.lt_irrefl _ (h _ hm)⟩

theorem Proper.not_quiet (h : Proper issued answered) (r : ρ) :
    ¬ Quiet (issued ++ [r]) answered :=
  fun hq => hq _ _ (outstanding_new h r)

/-- **What waits after an answer waited before**, and is another call. -/
theorem Outstanding.of_answer (h : Outstanding issued (answered ++ [m]) n r) :
    Outstanding issued answered n r ∧ n ≠ m :=
  ⟨⟨h.1, fun hm => h.2 (List.mem_append_left _ hm)⟩,
    fun e => h.2 (List.mem_append_right _ (List.mem_singleton.mpr e))⟩

end Calls
