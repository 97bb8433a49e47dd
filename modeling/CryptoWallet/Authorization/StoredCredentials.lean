/-
  File:      CryptoWallet/Authorization/StoredCredentials.lean
  Subject:   The sign-in form over the keychain of the device, through `KeychainWrapper.standard`.

  SignInViewController.lean keeps the two strings in a record. Here they are items of the
  keychain: between the events of the form other code of the app changes items that the form's
  wrapper does not see, and the device is locked and unlocked.

  * `StoredSignInStep`: the form's events, with `saveDataToKeychain` and `setDataFromKeychain`
    as calls of the wrapper.
  * `signIn_over_keychain`: while the device serves the form's own calls, every run over the
    keychain is a run over the record, with the record that the wrapper's dictionary is.
-/
import CryptoWallet.Authorization.SignInViewController
import CryptoWallet.Keychain.Sharing

namespace CryptoWallet

open Runs Calls KeychainWrapper

/-! ## 1. The calls of the wrapper -/

section Calls

variable {σ : Type} (Sec : Security σ) (standard : KeychainWrapper)

/-- `saveDataToKeychain`: the keychain it leaves; the answers of `set` are discarded. -/
def SignInViewController.saveDataToItems (v : SignInViewController) (s : σ) : σ :=
  let s := (standard.setString Sec (v.emailTextField.getD "") "email" none s).2
  (standard.setString Sec (v.passwordTextField.getD "") "password" none s).2

/-- What `string(forKey:)` answers for the two keys. -/
def KeychainWrapper.credentials (decode : Data → Option String) (s : σ) : Keychain where
  email := standard.string Sec decode "email" none s
  password := standard.string Sec decode "password" none s

end Calls

/-! ## 2. The form over the keychain -/

/-- The state of SignInViewController.lean, with a keychain in place of the record. -/
structure StoredSignIn (σ : Type) where
  view : SignInViewController
  keychain : σ
  answered : List Nat
  succeeded : List Credentials

/-- An event of the form, or one of the keychain that the form has no part in. -/
inductive StoredEvent where
  | form (e : SignInEvent)
  | keychain (e : KeychainEvent)

/-- The event of the form, if it is one. -/
def StoredEvent.form? : StoredEvent → Option SignInEvent
  | .form e => some e
  | .keychain _ => none

variable {σ : Type}

/-- One event. Those that the record has no part in are as they were. -/
inductive StoredSignInStep (Sec : Security σ) (items : σ → List Item)
    (standard : KeychainWrapper) (decode : Data → Option String) :
    StoredSignIn σ → StoredEvent → StoredSignIn σ → Prop where
  | form {s : StoredSignIn σ} {e : SignInEvent} {v : SignInViewController} {a : List Nat}
      {c : List Credentials} :
      (∀ k, SignInStep ⟨s.view, k, s.answered, s.succeeded⟩ e ⟨v, k, a, c⟩) →
      StoredSignInStep Sec items standard decode s (.form e) ⟨v, s.keychain, a, c⟩
  | success {s : StoredSignIn σ} {n : Nat} {c : Credentials} :
      Outstanding s.view.signIns s.answered n c →
      StoredSignInStep Sec items standard decode s (.form (.success n))
        { view := s.view.navigateToMainScreen,
          keychain := s.view.saveDataToItems Sec standard s.keychain,
          answered := s.answered ++ [n],
          succeeded := s.succeeded ++ [c] }
  | biometric {s : StoredSignIn σ} (currentUser : Bool) :
      StoredSignInStep Sec items standard decode s (.form (.biometric currentUser))
        { s with view := s.view.biometric currentUser
                   (standard.credentials Sec decode s.keychain) }
  | keychain {s : StoredSignIn σ} {e : KeychainEvent} {k : σ} :
      KeychainStep Sec items standard s.keychain e k →
      StoredSignInStep Sec items standard decode s (.keychain e) { s with keychain := k }

/-- **The calls of the form are served**: the keychain serves when the form saves or reads, what
    is saved is a text that decoding gives back, and no other wrapper shares the form's items. -/
def Served (serves : σ → Prop) (standard : KeychainWrapper) (decode : Data → Option String)
    (s : StoredSignIn σ) : StoredEvent → Prop
  | .form (.success _) =>
      serves s.keychain ∧ decode s.view.fields.email.toUTF8 = some s.view.fields.email ∧
        decode s.view.fields.password.toUTF8 = some s.view.fields.password
  | .form (.biometric _) => serves s.keychain
  | .form _ => True
  | .keychain (.use w _ _) => standard.Apart w
  | .keychain .elsewhere => True

/-- The record that a dictionary is for the form. -/
def Dictionary.credentials (d : Dictionary) (decode : Data → Option String) : Keychain where
  email := (d "email").bind fun e => decode e.value
  password := (d "password").bind fun e => decode e.value

/-- The state over the record. -/
def StoredSignIn.record (items : σ → List Item) (standard : KeychainWrapper) (group : String)
    (decode : Data → Option String) (s : StoredSignIn σ) : SignIn where
  view := s.view
  keychain := (dictionary standard group (items s.keychain)).credentials decode
  answered := s.answered
  succeeded := s.succeeded

variable {Sec : Security σ} {items : σ → List Item} {group : String} {serves : σ → Prop}
  {standard : KeychainWrapper} {decode : Data → Option String}

/-- A save that is served stores the fields, both of them. -/
theorem saveDataToItems_served (doc : Sec.Documented items group serves) {s : StoredSignIn σ}
    {n : Nat} (own : Own standard group (items s.keychain))
    (hs : Served serves standard decode s (.form (.success n))) :
    Own standard group (items (s.view.saveDataToItems Sec standard s.keychain)) ∧
      (dictionary standard group
        (items (s.view.saveDataToItems Sec standard s.keychain))).credentials decode =
        s.view.fields.stored := by
  obtain ⟨hserves, he, hp⟩ := hs
  obtain ⟨s₁, a₁, h₁, hd₁, own₁, hs₁⟩ :=
    set_serves doc own hserves s.view.fields.email.toUTF8 "email"
  obtain ⟨s₂, a₂, h₂, hd₂, own₂, -⟩ :=
    set_serves doc own₁ hs₁ s.view.fields.password.toUTF8 "password"
  have e : s.view.saveDataToItems Sec standard s.keychain = s₂ := by
    have e₁ : (standard.setString Sec (s.view.emailTextField.getD "") "email" none
        s.keychain).2 = s₁ := congrArg Prod.snd h₁
    have e₂ : (standard.setString Sec (s.view.passwordTextField.getD "") "password" none
        s₁).2 = s₂ := congrArg Prod.snd h₂
    simp only [SignInViewController.saveDataToItems, e₁, e₂]
  have hne : "email" ≠ "password" := by decide
  rw [e]
  refine ⟨own₂, ?_⟩
  simp only [Dictionary.credentials, hd₂, hd₁, Function.update_self,
    Function.update_of_ne hne, Option.bind_some, he, hp, Credentials.stored]

/-- What the wrapper reads in a state that serves. -/
theorem credentials_serves (doc : Sec.Documented items group serves) {k : σ}
    (own : Own standard group (items k)) (hs : serves k) :
    standard.credentials Sec decode k =
      (dictionary standard group (items k)).credentials decode := by
  simp only [KeychainWrapper.credentials, string_serves doc own hs, Dictionary.credentials]

/-- **One event over the keychain** is one over the record, or nothing to it. -/
theorem StoredSignInStep.simulates (doc : Sec.Documented items group serves)
    {s s' : StoredSignIn σ} {e : StoredEvent} (own : Own standard group (items s.keychain))
    (h : Guarded (Served serves standard decode)
      (StoredSignInStep Sec items standard decode) s e s') :
    Own standard group (items s'.keychain) ∧
      Simulates (StoredSignIn.record items standard group decode) StoredEvent.form? SignInStep
        s e s' := by
  obtain ⟨hs, hstep⟩ := h
  cases hstep with
  | form hf => exact ⟨own, hf _⟩
  | success ho =>
      obtain ⟨own', hc⟩ := saveDataToItems_served doc own hs
      refine ⟨own', ?_⟩
      simp only [Simulates, StoredEvent.form?, StoredSignIn.record, hc]
      exact .success ho
  | biometric currentUser =>
      refine ⟨own, ?_⟩
      simp only [Simulates, StoredEvent.form?, credentials_serves doc own hs]
      exact .biometric currentUser
  | @keychain e k hk =>
      cases e with
      | use w op answer =>
          have hf : KeychainEvent.Foreign standard (.use w op answer) := .inr hs
          obtain ⟨own', hd⟩ := hk.simulates doc own hf
          simp only [Simulates, KeychainEvent.operation?, hs.ne, if_false] at hd
          exact ⟨own', by simp only [Simulates, StoredEvent.form?, StoredSignIn.record, hd]⟩
      | elsewhere =>
          have hf : KeychainEvent.Foreign standard .elsewhere := trivial
          obtain ⟨own', hd⟩ := hk.simulates doc own hf
          simp only [Simulates, KeychainEvent.operation?] at hd
          exact ⟨own', by simp only [Simulates, StoredEvent.form?, StoredSignIn.record, hd]⟩

/-- **The form over the keychain is the form over the record**: where its calls are served, every
    run over the keychain of the device is a run over the two strings that the wrapper's
    dictionary has, and these are what the wrapper reads in the end. -/
theorem signIn_over_keychain (doc : Sec.Documented items group serves)
    {s₀ s : StoredSignIn σ} {es : List StoredEvent}
    (own : Own standard group (items s₀.keychain))
    (h : Run (Guarded (Served serves standard decode)
      (StoredSignInStep Sec items standard decode)) s₀ es s) :
    Run SignInStep (s₀.record items standard group decode) (es.filterMap StoredEvent.form?)
        (s.record items standard group decode) ∧
      (serves s.keychain →
        (s.record items standard group decode).keychain =
          standard.credentials Sec decode s.keychain) := by
  obtain ⟨hr, ho⟩ := h.simulate (I := fun s => Own standard group (items s.keychain))
    (A := fun _ => True) own (fun _ _ _ own _ hs => StoredSignInStep.simulates doc own hs)
    fun _ _ => trivial
  exact ⟨hr, fun hs => (credentials_serves doc ho hs).symm⟩

/-- A keychain with one item, of code that does not use the wrapper. -/
def userOnly : Items := noItems.add signedInUser List.not_mem_nil

theorem sameSeen_userOnly : SameSeen (KeychainWrapper.standard none) noItems.list userOnly.list :=
  .added (fun h => absurd h.1 (by decide)) ⟨List.not_mem_nil, List.Perm.refl _⟩

/-- The form after one successful call. -/
def loggedIn : StoredSignIn Items where
  view := loggingIn.navigateToMainScreen
  keychain :=
    loggingIn.saveDataToItems (memoryKeychain "app") (KeychainWrapper.standard none) userOnly
  answered := [0]
  succeeded := [⟨"ann@mail.org", "Pa55word"⟩]

/-- The form of the app over the keychain in memory. -/
abbrev ServedInMemory : StoredSignIn Items → StoredEvent → StoredSignIn Items → Prop :=
  Guarded (Served (fun _ => True) (KeychainWrapper.standard none) String.fromUTF8?)
    (StoredSignInStep (memoryKeychain "app") Items.list (KeychainWrapper.standard none)
      String.fromUTF8?)

theorem run_loggedIn : Run ServedInMemory ⟨{}, noItems, [], []⟩
    [.form (.typeEmail "ann@mail.org"), .form (.typePassword "Pa55word"), .form .tapLogIn,
      .keychain .elsewhere, .form (.success 0)] loggedIn := by
  let v₁ := SignInViewController.typeEmail {} "ann@mail.org"
  let v₂ := v₁.typePassword "Pa55word"
  have h₁ : ServedInMemory ⟨{}, noItems, [], []⟩ (.form (.typeEmail "ann@mail.org"))
      ⟨v₁, noItems, [], []⟩ := ⟨trivial, .form fun _ => .typeEmail _⟩
  have h₂ : ServedInMemory ⟨v₁, noItems, [], []⟩ (.form (.typePassword "Pa55word"))
      ⟨v₂, noItems, [], []⟩ := ⟨trivial, .form fun _ => .typePassword _⟩
  have h₃ : ServedInMemory ⟨v₂, noItems, [], []⟩ (.form .tapLogIn)
      ⟨loggingIn, noItems, [], []⟩ := ⟨trivial, .form fun _ => .tapLogIn rfl⟩
  have h₄ : ServedInMemory ⟨loggingIn, noItems, [], []⟩ (.keychain .elsewhere)
      ⟨loggingIn, userOnly, [], []⟩ := ⟨trivial, .keychain (.elsewhere sameSeen_userOnly)⟩
  have hcall : Outstanding loggingIn.signIns [] 0 ⟨"ann@mail.org", "Pa55word"⟩ :=
    ⟨by decide, List.not_mem_nil⟩
  have hdec : String.fromUTF8? loggingIn.fields.email.toUTF8 = some loggingIn.fields.email ∧
      String.fromUTF8? loggingIn.fields.password.toUTF8 = some loggingIn.fields.password := by
    decide +kernel
  exact ((((Run.single h₁).next h₂).next h₃).next h₄).next ⟨⟨trivial, hdec⟩, .success hcall⟩

theorem signIn_over_keychain_loggedIn :
    Run SignInStep (SignIn.start ⟨none, none⟩)
        [.typeEmail "ann@mail.org", .typePassword "Pa55word", .tapLogIn, .success 0]
        (loggedIn.record Items.list (KeychainWrapper.standard none) "app" String.fromUTF8?) ∧
      (True → (loggedIn.record Items.list (KeychainWrapper.standard none) "app"
          String.fromUTF8?).keychain = (KeychainWrapper.standard none).credentials
            (memoryKeychain "app") String.fromUTF8? loggedIn.keychain) :=
  signIn_over_keychain (memoryKeychain_documented "app") own_noItems run_loggedIn

end CryptoWallet
