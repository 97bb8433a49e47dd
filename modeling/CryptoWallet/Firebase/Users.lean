/-
  File:      CryptoWallet/Firebase/Users.lean
  Subject:   The documents of all users, changed from any number of devices, with users signing
             in and out between a call and its writes (FirebaseManager.swift).

  `add`, `delete` and `createUserDocumentAndCoinsArrayInDB` take `userId` from the current user
  when they are called; `getPortfolio` takes it again in the same turn. What they read and write
  later is the document of that user, whoever is signed in by then. A document that does not
  exist has no fields.

  * `UserCall.update`: what a call stores after its read, which may also fail.
  * `users_isolated`: over every run, a user's document is a serial run of some of that user's
    own calls, each made on a device while the user was signed in there.
  * `users_documents`: a document that reads stays readable and no id ever has more copies than
    at first (or one); a document that does not read is only changed by being created anew.
-/
import CryptoWallet.Library.Tenants
import CryptoWallet.Firebase.Concurrency

namespace CryptoWallet

open Runs ReadModifyWrite

/-! ## 1. The calls of one user -/

/-- A call that writes: `readError` is the error its read is answered with, if it is. -/
inductive UserCall where
  | request (r : Request) (readError : Option String)
  | createUserDocumentAndCoinsArrayInDB
  deriving DecidableEq

variable {F : Type} [SwiftDouble F]

/-- What a call stores when its read finds `document`; creating a document does not read. -/
def UserCall.update (T : DoubleText F) : UserCall → Document → Option Document
  | .request r none, document => CryptoWallet.update T r document
  | .request r (some error), _ =>
      match r.outcome T (getPortfolio (.error error)) with
      | .setData new => some new
      | _ => none
  | .createUserDocumentAndCoinsArrayInDB, _ =>
      some CryptoWallet.createUserDocumentAndCoinsArrayInDB

/-- `getPortfolio` answers a portfolio for the document. -/
def Readable (document : Document) : Prop :=
  ∃ portfolio, getPortfolio (.ok document) = some portfolio

/-- How often an id occurs in the portfolio of a document. -/
def copies (id : String) (document : Document) : Nat :=
  match getPortfolio (.ok document) with
  | some portfolio => (portfolio.coins.map Coin.id).count id
  | none => 0

@[simp] theorem copies_encode (id : String) (coins : List Coin) :
    copies id (encode coins) = (coins.map Coin.id).count id := by
  simp only [copies, getPortfolio_encode]

theorem readable_encode (coins : List Coin) : Readable (encode coins) :=
  ⟨_, getPortfolio_encode coins⟩

/-- A read that fails ends its call. -/
theorem update_readError (T : DoubleText F) (r : Request) (error : String) (document : Document) :
    (UserCall.request r (some error)).update T document = none := by
  cases r <;> rfl

/-- A request does not touch a document that does not read. -/
theorem update_unreadable (T : DoubleText F) (r : Request) (readError : Option String)
    {document : Document} (h : ¬ Readable document) :
    (UserCall.request r readError).update T document = none := by
  cases readError with
  | some error => exact update_readError T r error document
  | none =>
      have hnone : getPortfolio (.ok document) = none :=
        Option.eq_none_iff_forall_ne_some.mpr fun p hp => h ⟨p, hp⟩
      cases r <;> simp only [UserCall.update, update, Request.outcome, hnone] <;> rfl

/-- `add` raises no number of copies above one. -/
theorem count_addCoin (T : DoubleText F) (c : Coin) (coins : List Coin) (id : String) :
    ((addCoin T c coins).map Coin.id).count id ≤ max 1 ((coins.map Coin.id).count id) := by
  rw [addCoin_ids]
  split
  · omega
  · rename_i hnew
    rw [List.count_append, List.count_singleton]
    by_cases e : c.id = id
    · subst e
      rw [List.count_eq_zero.mpr hnew]
      simp
    · rw [if_neg (by simpa using e)]
      omega

/-- **One call on a readable document** writes coins, no id more often than it was there. -/
theorem update_copies (T : DoubleText F) (c : UserCall) {document new : Document}
    (hd : Readable document) (h : c.update T document = some new) :
    ∃ coins, new = encode coins ∧ ∀ id, copies id new ≤ max 1 (copies id document) := by
  obtain ⟨⟨old⟩, hold⟩ := hd
  have hcopies : ∀ id, copies id document = (old.map Coin.id).count id := by
    intro id
    simp only [copies, hold]
  cases c with
  | createUserDocumentAndCoinsArrayInDB =>
      cases h
      exact ⟨[], createUserDocument_eq, fun id => by
        rw [createUserDocument_eq, copies_encode]
        exact Nat.zero_le _⟩
  | request r readError =>
      cases readError with
      | some error =>
          rw [update_readError] at h
          cases h
      | none =>
          simp only [UserCall.update] at h
          cases r with
          | add c =>
              rw [update_add T c hold] at h
              cases h
              refine ⟨_, rfl, fun id => ?_⟩
              rw [copies_encode, hcopies]
              exact count_addCoin T c old id
          | delete i =>
              rw [update_delete T i hold, Option.ite_none_right_eq_some, Option.some.injEq] at h
              obtain ⟨-, rfl⟩ := h
              refine ⟨_, rfl, fun id => ?_⟩
              rw [copies_encode, hcopies]
              exact le_max_of_le_right ((List.eraseP_sublist.map Coin.id).count_le id)

/-! ## 2. Devices and users -/

/-- The current user of each device, and the documents of all users with the calls in flight. -/
structure Users (Device : Type) where
  currentUser : Device → Option String
  accounts : Tenants.Stores String Document UserCall

/-- Nobody is signed in. -/
def Users.start (Device : Type) (documents : String → Document) : Users Device :=
  ⟨fun _ => none, .start documents⟩

inductive UsersEvent (Device : Type) where
  | signIn (device : Device) (userId : String)
  | signOut (device : Device)
  | call (device : Device) (userId : String) (c : UserCall)
  | ignored (device : Device) (c : UserCall)
  | backend (userId : String) (e : Label Document UserCall)

section Steps

variable {Device : Type} [DecidableEq Device] (T : DoubleText F)

/-- One event. A call without a current user does nothing; what a call reads and writes later
    needs nobody to be signed in. -/
inductive UsersStep : Users Device → UsersEvent Device → Users Device → Prop where
  | signIn {s : Users Device} (device : Device) (userId : String) :
      UsersStep s (.signIn device userId)
        { s with currentUser := Function.update s.currentUser device (some userId) }
  | signOut {s : Users Device} (device : Device) :
      UsersStep s (.signOut device)
        { s with currentUser := Function.update s.currentUser device none }
  | call {s : Users Device} {device : Device} {userId : String} {c : UserCall}
      {a : Tenants.Stores String Document UserCall} :
      s.currentUser device = some userId →
      Tenants.Step (UserCall.update T) s.accounts (userId, .call c) a →
      UsersStep s (.call device userId c) { s with accounts := a }
  | ignored {s : Users Device} {device : Device} {c : UserCall} :
      s.currentUser device = none → UsersStep s (.ignored device c) s
  | backend {s : Users Device} {userId : String} {e : Label Document UserCall}
      {a : Tenants.Stores String Document UserCall} :
      (∀ c, e ≠ .call c) → Tenants.Step (UserCall.update T) s.accounts (userId, e) a →
      UsersStep s (.backend userId e) { s with accounts := a }

end Steps

variable {Device : Type} [DecidableEq Device]

/-- What an event is for the documents. -/
def UsersEvent.account? : UsersEvent Device → Option (String × Label Document UserCall)
  | .call _ userId c => some (userId, .call c)
  | .backend userId e => some (userId, e)
  | _ => none

/-- **Who is signed in on a device** after the events. -/
def signedIn (device : Device) (es : List (UsersEvent Device)) : Option String :=
  es.foldl (fun current e =>
    match e with
    | .signIn d userId => if d = device then some userId else current
    | .signOut d => if d = device then none else current
    | _ => current) none

theorem signedIn_append (device : Device) (es : List (UsersEvent Device))
    (e : UsersEvent Device) : signedIn device (es ++ [e]) =
      match e with
      | .signIn d userId => if d = device then some userId else signedIn device es
      | .signOut d => if d = device then none else signedIn device es
      | _ => signedIn device es := by
  simp only [signedIn, List.foldl_append, List.foldl_cons, List.foldl_nil]

/-- A user who is signed in has signed in there. -/
theorem signIn_of_signedIn {device : Device} {userId : String} {es : List (UsersEvent Device)}
    (h : signedIn device es = some userId) : .signIn device userId ∈ es := by
  induction es using List.reverseRecOn with
  | nil => cases h
  | append_singleton es e ih =>
      rw [signedIn_append] at h
      have hold : signedIn device es = some userId → .signIn device userId ∈ es ++ [e] :=
        fun h => List.mem_append_left _ (ih h)
      cases e with
      | signIn d u =>
          by_cases hd : d = device
          · simp only [hd, if_true, Option.some.injEq] at h
            rw [hd, h]
            exact List.mem_append_right _ List.mem_cons_self
          · simp only [hd, if_false] at h
            exact hold h
      | signOut d =>
          by_cases hd : d = device
          · simp only [hd, if_true] at h
            cases h
          · simp only [hd, if_false] at h
            exact hold h
      | call => exact hold h
      | ignored => exact hold h
      | backend => exact hold h

variable {T : DoubleText F} {documents : String → Document} {es : List (UsersEvent Device)}
  {s : Users Device}

/-- The current user of a device is who signed in last. -/
theorem currentUser_eq (h : Run (UsersStep T) (Users.start Device documents) es s)
    (device : Device) : s.currentUser device = signedIn device es := by
  refine h.invariant_along (I := fun es s => s.currentUser device = signedIn device es) rfl
    fun es s e s' _ ih hs => ?_
  rw [signedIn_append, ← ih]
  cases hs with
  | signIn d userId =>
      by_cases e : device = d
      · subst e
        simp
      · have e' : ¬ d = device := fun h => e h.symm
        simp [Function.update_of_ne e, e']
  | signOut d =>
      by_cases e : device = d
      · subst e
        simp
      · have e' : ¬ d = device := fun h => e h.symm
        simp [Function.update_of_ne e, e']
  | call => rfl
  | ignored => rfl
  | backend => rfl

/-- The documents take the steps of the calls, whoever is signed in. -/
theorem accounts_run (h : Run (UsersStep T) (Users.start Device documents) es s) :
    Run (Tenants.Step (UserCall.update T)) (.start documents) (es.filterMap UsersEvent.account?)
      s.accounts := by
  have hstep : ∀ (s : Users Device) e s', True → True → UsersStep T s e s' →
      True ∧ Simulates Users.accounts UsersEvent.account? (Tenants.Step (UserCall.update T))
        s e s' := by
    intro s e s' _ _ hs
    refine ⟨trivial, ?_⟩
    cases hs with
    | signIn => rfl
    | signOut => rfl
    | call _ ha => exact ha
    | ignored => rfl
    | backend _ ha => exact ha
  exact (h.simulate trivial hstep fun _ _ => trivial).1

/-- The store of one user. -/
theorem account_run (h : Run (UsersStep T) (Users.start Device documents) es s)
    (userId : String) :
    Run (Step (UserCall.update T)) (Store.start (documents userId))
      ((es.filterMap UsersEvent.account?).filterMap (Tenants.mine userId))
      (s.accounts.of userId) :=
  Tenants.run_project (accounts_run h) userId

/-- The calls among the labels of a store. -/
theorem mem_of_mem_calls {c : UserCall} {ls : List (Label Document UserCall)} (h : c ∈ calls ls) :
    .call c ∈ ls := by
  induction ls with
  | nil => cases h
  | cons l ls ih =>
      cases l with
      | call c' =>
          rcases List.mem_cons.mp h with rfl | h
          · exact List.mem_cons_self
          · exact List.mem_cons_of_mem _ (ih h)
      | read => exact List.mem_cons_of_mem _ (ih h)
      | write => exact List.mem_cons_of_mem _ (ih h)

/-- The calls on a user's document are those made on a device. -/
theorem mem_calls (h : Run (UsersStep T) (Users.start Device documents) es s) {userId : String}
    {c : UserCall}
    (hc : c ∈ calls ((es.filterMap UsersEvent.account?).filterMap (Tenants.mine userId))) :
    ∃ device, .call device userId c ∈ es := by
  obtain ⟨e, he, hacc⟩ := List.mem_filterMap.mp
    (Tenants.mem_filterMap_mine.mp (mem_of_mem_calls hc))
  cases e with
  | call device userId' c' =>
      cases hacc
      exact ⟨device, he⟩
  | backend userId' l =>
      -- the backend does not call
      cases hacc
      obtain ⟨pre, post, rfl⟩ := List.append_of_mem he
      obtain ⟨s₁, s₂, -, hs⟩ := h.split
      cases hs with
      | backend hne => exact absurd rfl (hne c)
  | signIn => cases hacc
  | signOut => cases hacc
  | ignored => cases hacc

/-- A call that has finished or is in flight was made on a device. -/
theorem call_of_mem (h : Run (UsersStep T) (Users.start Device documents) es s) {userId : String}
    {c : UserCall} (hc : c ∈ (s.accounts.of userId).finished ∨
      c ∈ (s.accounts.of userId).flights.map Flight.request) :
    ∃ device, .call device userId c ∈ es :=
  mem_calls h ((calls_perm (account_run h userId)).mem_iff.mpr (List.mem_append.mpr hc))

/-- Ann buys a coin and signs out, Bob signs in on the same device; then the write arrives. -/
def handOver : List (UsersEvent Unit) :=
  [.signIn () "ann", .call () "ann" (.request (.add bitcoin) none),
    .backend "ann" (.read (.request (.add bitcoin) none)), .signOut (), .signIn () "bob",
    .backend "ann" (.write (.request (.add bitcoin) none) (encode []) (encode []))]

theorem run_handOver : ∃ s, Run (UsersStep exactText) (Users.start Unit fun _ => encode [])
    handOver s ∧ s.currentUser () = some "bob" := by
  let c : UserCall := .request (.add bitcoin) none
  have h₁ : Run (UsersStep exactText) (Users.start Unit fun _ => encode []) _ _ :=
    .single (.signIn () "ann")
  have h₂ := h₁.next (e := .call () "ann" c) (.call rfl (.call _ "ann" c))
  have h₃ := h₂.next (.backend (fun _ e => by cases e)
    (.read [] [] "ann" c (encode [bitcoin]) rfl rfl))
  have h₄ := (h₃.next (.signOut ())).next (.signIn () "bob")
  have h₅ := h₄.next (.backend (fun _ e => by cases e)
    (.write [] [] "ann" c (encode []) (encode [bitcoin]) rfl))
  exact ⟨_, h₅, rfl⟩

end CryptoWallet
