/-
  File:      CryptoWallet/Firebase/Deletion.lean
  Subject:   Deletions among the requests in flight: what the closure of `delete` meets.

  The closure runs when its read is answered, on whatever the other requests have made of the
  document by then. Its loop takes the range `0...count - 1`, which does not exist for an empty
  array.

  * `deletesOne_iff`: on a written document the closure takes out exactly its entry, or changes
    nothing when there is none, exactly when the array is not empty.
  * `deletions_sound_iff`: so it is in every state the requests reach, and a run whose deletions
    are all sound is a run whose deletions all read a coin.
  * `second_deletion_traps`: two deletions of the last coin, one behind the other.
-/
import CryptoWallet.Firebase.Concurrency

namespace CryptoWallet

open Runs ReadModifyWrite

/-- **Deleting `id` from `document` touches one coin only**, and stops nothing: the entry of the
    id goes and the others are written back in order, or there is none and nothing is written. -/
def DeletesOne (id : String) (document : Document) : Prop :=
  ∃ coins : List Coin, getPortfolio (.ok document) = some ⟨coins⟩ ∧
    ((∃ pre coin post, coins = pre ++ coin :: post ∧ coin.id = id ∧
        id ∉ (pre ++ post).map Coin.id ∧
        delete id (getPortfolio (.ok document)) = .setData (encode (pre ++ post))) ∨
      (id ∉ coins.map Coin.id ∧ delete id (getPortfolio (.ok document)) = .done))

theorem DeletesOne.not_trap {id : String} {document : Document} (h : DeletesOne id document) :
    delete id (getPortfolio (.ok document)) ≠ .trap := by
  obtain ⟨coins, -, ⟨pre, coin, post, -, -, -, e⟩ | ⟨-, e⟩⟩ := h
  · rw [e]
    nofun
  · rw [e]
    nofun

/-- Where distinct ids list `id`, one place holds it. -/
theorem exists_entry {id : String} {coins : List Coin} (hnd : (coins.map Coin.id).Nodup)
    (hid : id ∈ coins.map Coin.id) :
    ∃ pre coin post, coins = pre ++ coin :: post ∧ coin.id = id ∧
      id ∉ (pre ++ post).map Coin.id ∧ coins.eraseP (·.id = id) = pre ++ post := by
  obtain ⟨coin, hmem, rfl⟩ := List.mem_map.mp hid
  obtain ⟨pre, post, rfl⟩ := List.append_of_mem hmem
  have hout : coin.id ∉ (pre ++ post).map Coin.id := notMem_others hnd
  refine ⟨pre, coin, post, rfl, rfl, hout, ?_⟩
  rw [List.eraseP_append_right _ fun c hc => ?_, List.eraseP_cons_of_pos (by simp)]
  have hne : c.id ≠ coin.id := fun e =>
    hout (e ▸ List.mem_map_of_mem (List.mem_append_left _ hc))
  simpa using hne

/-- **The closure of `delete` on a written document.** -/
theorem deletesOne_iff (id : String) {document : Document} (h : Written document) :
    DeletesOne id document ↔ coinsArray document ≠ [] := by
  obtain ⟨coins, rfl, hnd⟩ := h
  rw [coinsArray_encode, ne_eq, List.map_eq_nil_iff]
  constructor
  · intro hd hnil
    refine hd.not_trap ?_
    rw [getPortfolio_encode, delete_some, if_pos hnil]
  · intro hne
    refine ⟨coins, getPortfolio_encode coins, ?_⟩
    rw [getPortfolio_encode, delete_some, if_neg hne]
    by_cases hid : id ∈ coins.map Coin.id
    · obtain ⟨pre, coin, post, e, hcoin, hout, herase⟩ := exists_entry hnd hid
      exact Or.inl ⟨pre, coin, post, e, hcoin, hout, by rw [if_pos hid, herase]⟩
    · exact Or.inr ⟨hid, if_neg hid⟩

/-- A deletion whose read is answered now touches one coin only. -/
def DeletionSound (s : Requests) : Label Document Request → Prop
  | .read (.delete id) => DeletesOne id s.stored
  | _ => True

/-- A deletion whose read is answered now reads a coin, any coin. -/
def DeletionReadsCoin (s : Requests) : Label Document Request → Prop
  | .read (.delete _) => coinsArray s.stored ≠ []
  | _ => True

variable {F : Type} [SwiftDouble F]

/-- The document is a written one in every state the requests reach. -/
theorem run_written {T : DoubleText F} {es : List (Label Document Request)} {s : Requests}
    (h : Run (Step (update T)) (Store.start createUserDocumentAndCoinsArrayInDB) es s) :
    Written s.stored :=
  (run_held (fun r _ _ => update_written T r)
    ⟨[], createUserDocument_eq, List.nodup_nil⟩ h).stored

/-- **Deletions are sound exactly where they read a coin**: in every state the requests reach,
    for every id; and along whole runs, for every deletion in them. -/
theorem deletions_sound_iff (T : DoubleText F) {es : List (Label Document Request)} {s : Requests}
    (h : Run (Step (update T)) (Store.start createUserDocumentAndCoinsArrayInDB) es s) :
    (∀ id, DeletesOne id s.stored ↔ coinsArray s.stored ≠ []) ∧
    (Run (Guarded DeletionSound (Step (update T)))
        (Store.start createUserDocumentAndCoinsArrayInDB) es s ↔
      Run (Guarded DeletionReadsCoin (Step (update T)))
        (Store.start createUserDocumentAndCoinsArrayInDB) es s) := by
  refine ⟨fun id => deletesOne_iff id (run_written h), Run.guarded_iff ?_⟩
  intro es s e s' hr _
  cases e with
  | call r => exact Iff.rfl
  | write r snapshot replaced => exact Iff.rfl
  | read r =>
      cases r with
      | add c => exact Iff.rfl
      | delete id => exact deletesOne_iff id (run_written hr)

/-- One purchase, then two deletions of it, both called before the first one has read. -/
def boughtAndDeletedTwice : List (Label Document Request) :=
  [.call (.add bitcoin), .read (.add bitcoin), .write (.add bitcoin) (encode []) (encode []),
    .call (.delete "bitcoin"), .call (.delete "bitcoin"), .read (.delete "bitcoin"),
    .write (.delete "bitcoin") (encode [bitcoin]) (encode [bitcoin])]

/-- The run keeps the guard: the one deletion that has read found the coin. -/
theorem guarded_boughtAndDeletedTwice :
    Run (Guarded DeletionReadsCoin (Step (update exactText)))
      (Store.start createUserDocumentAndCoinsArrayInDB) boughtAndDeletedTwice
      ⟨encode [], [.called (.delete "bitcoin")], [.add bitcoin, .delete "bitcoin"]⟩ := by
  have h1 : Run (Guarded DeletionReadsCoin (Step (update exactText)))
      (Store.start createUserDocumentAndCoinsArrayInDB) _ _ :=
    .single (.allow (.call _ (Request.add bitcoin)) trivial)
  have h2 := h1.next
    (.allow (.read [] [] (Request.add bitcoin) (encode [bitcoin]) rfl rfl) trivial)
  have h3 := h2.next (.allow (.write [] [] (Request.add bitcoin) _ _ rfl) trivial)
  have h4 := h3.next (.allow (.call _ (Request.delete "bitcoin")) trivial)
  have h5 := h4.next (.allow (.call _ (Request.delete "bitcoin")) trivial)
  have h6 := h5.next (.allow
    (.read [] [.called (.delete "bitcoin")] (Request.delete "bitcoin") (encode []) rfl rfl)
    (List.cons_ne_nil _ _))
  exact h6.next
    (.allow (.write [] [.called (.delete "bitcoin")] (Request.delete "bitcoin") _ _ rfl) trivial)

theorem run_boughtAndDeletedTwice :
    Run (Step (update exactText)) (Store.start createUserDocumentAndCoinsArrayInDB)
      boughtAndDeletedTwice
      ⟨encode [], [.called (.delete "bitcoin")], [.add bitcoin, .delete "bitcoin"]⟩ :=
  guarded_boughtAndDeletedTwice.of_guarded

/-- With two coins stored a deletion touches one of them; the run above is sound as far as it
    goes, and a deletion that reads what it leaves is not. -/
theorem deletions_sound_boughtAndDeletedTwice :
    DeletesOne "bitcoin" (encode [bitcoin, ethereum]) ∧
      Run (Guarded DeletionSound (Step (update exactText)))
        (Store.start createUserDocumentAndCoinsArrayInDB) boughtAndDeletedTwice
        ⟨encode [], [.called (.delete "bitcoin")], [.add bitcoin, .delete "bitcoin"]⟩ ∧
      ¬ DeletesOne "bitcoin" (encode []) := by
  refine ⟨?_, ?_, ?_⟩
  · exact ((deletions_sound_iff exactText run_oneByOne).1 "bitcoin").mpr (List.cons_ne_nil _ _)
  · exact (deletions_sound_iff exactText run_boughtAndDeletedTwice).2.mpr
      guarded_boughtAndDeletedTwice
  · exact fun h => ((deletions_sound_iff exactText run_boughtAndDeletedTwice).1 "bitcoin").mp h rfl

/-- **The second deletion of the last coin stops the app**: its read finds an empty array. -/
theorem second_deletion_traps :
    ∃ (es : List (Label Document Request)) (s : Requests),
      Run (Step (update exactText)) (Store.start createUserDocumentAndCoinsArrayInDB) es s ∧
      Flight.called (.delete "bitcoin") ∈ s.flights ∧
      delete "bitcoin" (getPortfolio (.ok s.stored)) = .trap ∧ ¬ DeletesOne "bitcoin" s.stored := by
  have htrap : delete "bitcoin" (getPortfolio (.ok (encode []))) = .trap := rfl
  exact ⟨_, _, run_boughtAndDeletedTwice, List.mem_singleton_self _, htrap,
    fun h => h.not_trap htrap⟩

end CryptoWallet
