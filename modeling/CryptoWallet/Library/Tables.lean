/-
  File:      CryptoWallet/Library/Tables.lean
  Subject:   A table that shows a list it does not own.

  The owner changes the list at once and asks for a reload, which runs later. Until then the table
  goes by the number of rows it read at the reload before, and may ask for any of them at any time.

  * `TableStep`: updates of the owner, reloads and requested rows, in any order.
  * `covered_run_iff`: every row the table may ask for exists in every state of a run exactly when
    no update of the run leaves fewer rows than the table holds.
  * `rows_exist`: then every row it does ask for exists.
-/
import CryptoWallet.Library.Runs

namespace Tables

open Runs

variable {σ ε : Type*}

/-- The owner's state, the number of rows the table has read, and the reloads that have run. -/
structure Table (σ : Type*) where
  state : σ
  held : Nat
  executed : Nat

/-- Nothing has been reloaded yet. -/
def Table.start (s : σ) : Table σ := ⟨s, 0, 0⟩

inductive Label (ε : Type*) where
  | update (e : ε)
  | reload
  | row (i : Nat)

section Step

-- the owner's steps, its number of rows, and the reloads it has asked for
variable (step : σ → ε → σ → Prop) (rows reloads : σ → Nat)

inductive TableStep : Table σ → Label ε → Table σ → Prop where
  | update {t : Table σ} {e : ε} {s : σ} (hs : step t.state e s) :
      TableStep t (.update e) { t with state := s }
  | reload {t : Table σ} (h : t.executed < reloads t.state) :
      TableStep t .reload ⟨t.state, rows t.state, t.executed + 1⟩
  | row {t : Table σ} {i : Nat} (h : i < t.held) : TableStep t (.row i) t

/-- Every row the table may ask for exists. -/
def Covered (t : Table σ) : Prop := t.held ≤ rows t.state

/-- A step after which every row the table may ask for exists. -/
def CoveredStep : Table σ → Label ε → Table σ → Prop :=
  Kept (Covered rows) (TableStep step rows reloads)

/-- A row asked for now exists. -/
def RowExists (t : Table σ) : Label ε → Prop
  | .row i => i < rows t.state
  | _ => True

end Step

/-- A condition on the updates, on the state before. -/
def OnUpdate (ok : Table σ → ε → Prop) (t : Table σ) : Label ε → Prop
  | .update e => ok t e
  | _ => True

section Runs

variable {step : σ → ε → σ → Prop} {rows reloads : σ → Nat} {I : σ → Prop}
  {ok : Table σ → ε → Prop}

/-- An invariant of the owner is one of the table. -/
theorem TableStep.invariant (hI : ∀ s e s', I s → step s e s' → I s') {t t' : Table σ}
    {l : Label ε} (ht : I t.state) (hs : TableStep step rows reloads t l t') : I t'.state := by
  cases hs with
  | update hs => exact hI _ _ _ ht hs
  | reload _ => exact ht
  | row _ => exact ht

/-- **One step stays covered exactly when its update, if it is one, is admitted.** -/
theorem TableStep.covered_iff
    (hok : ∀ t e s', I t.state → Covered rows t → step t.state e s' →
      (ok t e ↔ t.held ≤ rows s')) {t t' : Table σ} {l : Label ε} (ht : I t.state)
    (hc : Covered rows t) (hs : TableStep step rows reloads t l t') :
    Covered rows t' ↔ OnUpdate ok t l := by
  cases hs with
  | update hs => exact (hok _ _ _ ht hc hs).symm
  | reload _ => exact iff_of_true (Nat.le_refl _) trivial
  | row _ => exact iff_of_true hc trivial

/-- **A run stays covered exactly when its updates are admitted**, for an `ok` that says, in the
    states the owner reaches, which updates leave enough rows. -/
theorem covered_run_iff {s : σ} (h0 : I s) (hI : ∀ s e s', I s → step s e s' → I s')
    (hok : ∀ t e s', I t.state → Covered rows t → step t.state e s' →
      (ok t e ↔ t.held ≤ rows s')) {ls : List (Label ε)} {t : Table σ} :
    Run (CoveredStep step rows reloads) (.start s) ls t ↔
      Run (Guarded (OnUpdate ok) (TableStep step rows reloads)) (.start s) ls t :=
  Run.kept_iff (I := fun t : Table σ => I t.state) h0 (Nat.zero_le _)
    (fun _ _ _ ht hs => hs.invariant hI ht) fun _ _ _ ht hc hs => hs.covered_iff hok ht hc

/-- **In a covered run every row asked for exists.** -/
theorem rows_exist {s : σ} {ls : List (Label ε)} {t : Table σ}
    (h : Run (CoveredStep step rows reloads) (.start s) ls t) :
    Run (Guarded (RowExists rows) (TableStep step rows reloads)) (.start s) ls t := by
  refine (?_ : _ ∧ Covered rows t).1
  induction h with
  | start => exact ⟨.start, Nat.zero_le _⟩
  | next _ hs ih =>
      obtain ⟨hr, hc⟩ := ih
      refine ⟨hr.next (.allow hs.1 ?_), hs.2⟩
      cases hs.1 with
      | update _ => trivial
      | reload _ => trivial
      | row hi => exact Nat.lt_of_lt_of_le hi hc

end Runs

end Tables
