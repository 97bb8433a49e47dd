/-
  File:      CryptoWallet/Authorization/SignInViewController.lean
  Subject:   The sign-in form and the credentials it keeps (SignInViewController.swift).

  Every handler runs on the main thread, so a handler is one step. `signIn` is asynchronous: a
  tap makes a call with the pair the fields hold then, and Firebase answers the calls in any
  order, each at most once, while the fields go on changing. The form is never released (the
  observer of `viewDidLoad` keeps it), so `strongSelf` is there at every answer.

  * `SignIn`, `SignInStep`: the form, the keychain, and what can happen to them.
  * `saveDataToKeychain` stores the texts of the fields, not the pair it is given.
  * `keychain_sound_iff`: the runs in which the keychain only ever holds pairs that signed in.
  * `typed_over`: a password typed over while the call was in flight is stored.
-/
import CryptoWallet.Authorization.Validation
import CryptoWallet.Library.Calls
import CryptoWallet.Library.Runs

namespace CryptoWallet

open Runs Calls

/-! ## 1. The form -/

/-- The pair of a call `signIn(withEmail:password:)`; its completion has captured the same pair. -/
structure Credentials where
  email : String
  password : String
  deriving DecidableEq

/-- `UIAlertController` -/
structure Alert where
  title : String
  message : String
  deriving DecidableEq

/-- What the form presents over itself and does not wait for. -/
inductive Screen where
  | tabBarController
  | signUpViewController
  deriving DecidableEq

/-- What `KeychainWrapper.standard` has for the keys `email` and `password`. -/
structure Keychain where
  email : Option String
  password : Option String
  deriving DecidableEq

/-- `SignInViewController`: `text` of the two fields, the error label, whether the button takes
    touches, the calls made, the alerts that wait for `OK`, and the screens presented. -/
structure SignInViewController where
  emailTextField : Option String := some ""
  passwordTextField : Option String := some ""
  errorLabelText : String := ""
  errorLabelIsHidden : Bool := true
  logInButtonIsEnabled : Bool := false
  signIns : List Credentials := []
  alerts : List Alert := []
  presented : List Screen := []
  deriving DecidableEq

namespace SignInViewController

/-- `cleanInputSignInFields` -/
def cleanInputSignInFields (v : SignInViewController) : SignInViewController :=
  { v with emailTextField := some "", passwordTextField := some "", errorLabelText := "",
           errorLabelIsHidden := true }

/-- `checkForEnableLogInButton` -/
def checkForEnableLogInButton (v : SignInViewController) : SignInViewController :=
  match v.emailTextField, v.passwordTextField with
  | some email, some password =>
      { v with logInButtonIsEnabled := !email.isEmpty && !password.isEmpty }
  | _, _ => v

/-- The user changes the email; the observer of `viewDidLoad` checks the button. -/
def typeEmail (v : SignInViewController) (text : String) : SignInViewController :=
  { v with emailTextField := some text }.checkForEnableLogInButton

/-- The same for the password, which its field also puts back as it is when it gets the focus. -/
def typePassword (v : SignInViewController) (text : String) : SignInViewController :=
  { v with passwordTextField := some text }.checkForEnableLogInButton

/-- `didTaplogInButton`, also after `return` in the password field. -/
def didTaplogInButton (v : SignInViewController) : SignInViewController :=
  let v := { v with errorLabelText := "", errorLabelIsHidden := true }
  match v.emailTextField, v.passwordTextField with
  | some email, some password =>
      let isValid : Validation := ⟨email, password, none⟩
      if isValid.isValidMail then
        { v with signIns := v.signIns ++ [⟨isValid.email, isValid.password⟩] }
      else
        { v with errorLabelText := "Incorrect email.", errorLabelIsHidden := false,
                 emailTextField := some "",
                 passwordTextField := some "" }.checkForEnableLogInButton
  | _, _ => v

/-- `didTapTransitionToSignUpScreenButton` -/
def didTapTransitionToSignUpScreenButton (v : SignInViewController) : SignInViewController :=
  let v := v.cleanInputSignInFields.checkForEnableLogInButton
  { v with presented := v.presented ++ [.signUpViewController] }

/-- `setDataFromKeychain` -/
def setDataFromKeychain (v : SignInViewController) (k : Keychain) : SignInViewController :=
  { v with emailTextField := some (k.email.getD ""),
           passwordTextField := some (k.password.getD "") }

/-- `saveDataToKeychain`: it does not read its parameters. -/
def saveDataToKeychain (v : SignInViewController) (_email _password : String) (k : Keychain) :
    Keychain :=
  { k with email := some (v.emailTextField.getD ""),
           password := some (v.passwordTextField.getD "") }

/-- `navigateToMainScreen` -/
def navigateToMainScreen (v : SignInViewController) : SignInViewController :=
  { v with presented := v.presented ++ [.tabBarController] }

/-- `showAlert` -/
def showAlert (v : SignInViewController) : SignInViewController :=
  { v with alerts := v.alerts ++ [⟨"Error", "Unable to login"⟩] }

/-- `OK` on an alert of `showAlert`. -/
def alertHandler (v : SignInViewController) : SignInViewController :=
  { v with alerts := v.alerts.tail }.cleanInputSignInFields

/-- `biometric` after a success; `currentUser` is whether Firebase has a user by then. -/
def biometric (v : SignInViewController) (currentUser : Bool) (k : Keychain) :
    SignInViewController :=
  if currentUser then v.navigateToMainScreen
  else (v.setDataFromKeychain k).checkForEnableLogInButton

/-- The texts of the fields, as `saveDataToKeychain` reads them. -/
def fields (v : SignInViewController) : Credentials :=
  ⟨v.emailTextField.getD "", v.passwordTextField.getD ""⟩

end SignInViewController

/-- The keychain after a pair has been stored in it. -/
def Credentials.stored (c : Credentials) : Keychain := ⟨some c.email, some c.password⟩

theorem Credentials.stored_inj {c d : Credentials} : c.stored = d.stored ↔ c = d := by
  cases c
  cases d
  simp [stored]

theorem SignInViewController.saveDataToKeychain_eq (v : SignInViewController)
    (email password : String) (k : Keychain) :
    v.saveDataToKeychain email password k = v.fields.stored := rfl

/-! ## 2. The runs of the form -/

/-- The form and the keychain, the numbers of the calls that have been answered, and the pairs
    of those that succeeded. -/
structure SignIn where
  view : SignInViewController
  keychain : Keychain
  answered : List Nat
  succeeded : List Credentials
  deriving DecidableEq

/-- A fresh form over what the keychain holds. -/
def SignIn.start (k : Keychain) : SignIn := ⟨{}, k, [], []⟩

/-- What can happen to the form. -/
inductive SignInEvent where
  | typeEmail (text : String)
  | typePassword (text : String)
  | typeElsewhere
  | tapLogIn
  | tapSignUp
  | success (n : Nat)
  | failure (n : Nat)
  | alertOK
  | biometric (currentUser : Bool)
  deriving DecidableEq

/-- One event. The observer also hears of the fields of other screens; the button takes touches
    only when it is enabled. UIKit may drop an alert presented over another: then its `OK` does
    not come. -/
inductive SignInStep : SignIn → SignInEvent → SignIn → Prop where
  | typeEmail {s : SignIn} (text : String) :
      SignInStep s (.typeEmail text) { s with view := s.view.typeEmail text }
  | typePassword {s : SignIn} (text : String) :
      SignInStep s (.typePassword text) { s with view := s.view.typePassword text }
  | typeElsewhere {s : SignIn} :
      SignInStep s .typeElsewhere { s with view := s.view.checkForEnableLogInButton }
  | tapLogIn {s : SignIn} :
      s.view.logInButtonIsEnabled = true →
      SignInStep s .tapLogIn { s with view := s.view.didTaplogInButton }
  | tapSignUp {s : SignIn} :
      SignInStep s .tapSignUp { s with view := s.view.didTapTransitionToSignUpScreenButton }
  | success {s : SignIn} {n : Nat} {c : Credentials} :
      Outstanding s.view.signIns s.answered n c →
      SignInStep s (.success n)
        { view := s.view.navigateToMainScreen,
          keychain := s.view.saveDataToKeychain c.email c.password s.keychain,
          answered := s.answered ++ [n],
          succeeded := s.succeeded ++ [c] }
  | failure {s : SignIn} {n : Nat} {c : Credentials} :
      Outstanding s.view.signIns s.answered n c →
      SignInStep s (.failure n)
        { s with view := s.view.showAlert, answered := s.answered ++ [n] }
  | alertOK {s : SignIn} :
      s.view.alerts ≠ [] →
      SignInStep s .alertOK { s with view := s.view.alertHandler }
  | biometric {s : SignIn} (currentUser : Bool) :
      SignInStep s (.biometric currentUser)
        { s with view := s.view.biometric currentUser s.keychain }

/-! ## 3. What the keychain holds -/

/-- **The keychain is sound**: it holds what was there at first, or a pair that signed in. -/
def KeychainSound (k₀ : Keychain) (s : SignIn) : Prop :=
  s.keychain = k₀ ∨ ∃ c ∈ s.succeeded, s.keychain = c.stored

/-- **The fields hold a pair that may be stored** when a call succeeds: the call's own pair, one
    that has signed in before, or the one the keychain held at first. -/
def FieldsMayBeStored (k₀ : Keychain) (s : SignIn) : SignInEvent → Prop
  | .success n =>
      s.view.signIns[n]? = some s.view.fields ∨ s.view.fields ∈ s.succeeded ∨
        s.view.fields.stored = k₀
  | _ => True

instance (k₀ : Keychain) (s : SignIn) : Decidable (KeychainSound k₀ s) :=
  inferInstanceAs (Decidable (s.keychain = k₀ ∨ ∃ c ∈ s.succeeded, s.keychain = c.stored))

variable {k₀ : Keychain} {s s' : SignIn} {e : SignInEvent}

theorem keychainSound_start (k₀ : Keychain) : KeychainSound k₀ (SignIn.start k₀) := .inl rfl

/-- A success stores the fields. -/
theorem keychainSound_success {n : Nat} {c : Credentials} {a : List Nat}
    {v : SignInViewController} (hc : s.view.signIns[n]? = some c) :
    KeychainSound k₀ ⟨v, s.view.fields.stored, a, s.succeeded ++ [c]⟩ ↔
      FieldsMayBeStored k₀ s (.success n) := by
  have hown : s.view.signIns[n]? = some s.view.fields ↔ s.view.fields = c := by
    rw [hc, Option.some.injEq, eq_comm]
  simp only [KeychainSound, FieldsMayBeStored, hown, Credentials.stored_inj, exists_eq_right',
    List.mem_append, List.mem_singleton]
  tauto

/-- Nothing but a success touches the keychain. -/
theorem SignInStep.frame (h : SignInStep s e s') (he : ∀ n, e ≠ .success n) :
    s'.keychain = s.keychain ∧ s'.succeeded = s.succeeded := by
  cases h with
  | success => exact absurd rfl (he _)
  | typeEmail => exact ⟨rfl, rfl⟩
  | typePassword => exact ⟨rfl, rfl⟩
  | typeElsewhere => exact ⟨rfl, rfl⟩
  | tapLogIn => exact ⟨rfl, rfl⟩
  | tapSignUp => exact ⟨rfl, rfl⟩
  | failure => exact ⟨rfl, rfl⟩
  | alertOK => exact ⟨rfl, rfl⟩
  | biometric => exact ⟨rfl, rfl⟩

/-- **One event**: a sound keychain stays sound exactly if the fields may be stored. -/
theorem SignInStep.keychainSound_iff (h : SignInStep s e s') (hs : KeychainSound k₀ s) :
    KeychainSound k₀ s' ↔ FieldsMayBeStored k₀ s e := by
  by_cases he : ∃ n, e = .success n
  · obtain ⟨n, rfl⟩ := he
    cases h with
    | success ho =>
        rw [SignInViewController.saveDataToKeychain_eq]
        exact keychainSound_success ho.1
  · have hne : ∀ n, e ≠ .success n := fun n hn => he ⟨n, hn⟩
    obtain ⟨hk, hsucc⟩ := h.frame hne
    have htrue : FieldsMayBeStored k₀ s e := by
      cases e with
      | success n => exact absurd rfl (hne n)
      | _ => trivial
    refine ⟨fun _ => htrue, fun _ => ?_⟩
    unfold KeychainSound
    rwa [hk, hsucc]

/-- **The keychain only ever holds pairs that signed in** exactly in the runs where, at each
    success, the fields hold a pair that may be stored. -/
theorem keychain_sound_iff (k₀ : Keychain) (es : List SignInEvent) (s : SignIn) :
    Run (Kept (KeychainSound k₀) SignInStep) (SignIn.start k₀) es s ↔
      Run (Guarded (FieldsMayBeStored k₀) SignInStep) (SignIn.start k₀) es s :=
  Run.kept_iff (I := fun _ => True) trivial (keychainSound_start k₀)
    (fun _ _ _ _ _ => trivial) fun _ _ _ _ hs h => h.keychainSound_iff hs

/-- A form whose call is in flight. -/
def loggingIn : SignInViewController :=
  let v : SignInViewController := {}
  ((v.typeEmail "ann@mail.org").typePassword "Pa55word").didTaplogInButton

/-- **The keychain may hold a pair that never signed in**: the password typed over while the
    call was in flight is stored in place of the one that signed in. -/
theorem typed_over :
    ¬ ∀ k₀ es s, Run SignInStep (SignIn.start k₀) es s → KeychainSound k₀ s := by
  intro hall
  have htap : Run SignInStep (SignIn.start ⟨none, none⟩)
      [.typeEmail "ann@mail.org", .typePassword "Pa55word", .tapLogIn]
      ⟨loggingIn, ⟨none, none⟩, [], []⟩ :=
    ((Run.single (.typeEmail _)).next (.typePassword _)).next (.tapLogIn (by decide))
  have hcall : Outstanding (loggingIn.typePassword "Pa55word!").signIns [] 0
      ⟨"ann@mail.org", "Pa55word"⟩ := ⟨by decide, List.not_mem_nil⟩
  have hsound := hall _ _ _ ((htap.next (.typePassword "Pa55word!")).next (.success hcall))
  revert hsound
  decide

end CryptoWallet
