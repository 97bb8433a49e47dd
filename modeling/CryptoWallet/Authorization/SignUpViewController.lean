/-
  File:      CryptoWallet/Authorization/SignUpViewController.lean
  Subject:   The sign-up form (SignUpViewController.swift).

  The form is that of the sign-in with a third field and the whole check. `createUser` is
  asynchronous, as `signIn` is: Firebase answers the calls in any order, each at most once. The
  form is never released either.

  * `SignUp`, `SignUpStep`: the form and what can happen to it.
  * `registrations_checked`: **whatever is sent to be registered has passed the check**.
-/
import CryptoWallet.Authorization.SignInViewController

namespace CryptoWallet

open Runs Calls

/-! ## 1. The form -/

/-- `SignUpViewController`: `text` of the three fields, the error label, whether the button takes
    touches, the calls `createUser(withEmail:password:)`, the alerts that wait for an answer, the
    screens presented, and how often `createUserDocumentAndCoinsArrayInDB` was called. -/
structure SignUpViewController where
  emailTextField : Option String := some ""
  passwordTextField : Option String := some ""
  confirmPasswordTextField : Option String := some ""
  errorLabelText : String := ""
  errorLabelIsHidden : Bool := true
  signUpButtonIsEnabled : Bool := false
  createUsers : List Credentials := []
  alerts : List Alert := []
  presented : List Screen := []
  userDocuments : Nat := 0
  deriving DecidableEq

namespace SignUpViewController

/-- `cleanInputSignUpFields` -/
def cleanInputSignUpFields (v : SignUpViewController) : SignUpViewController :=
  { v with emailTextField := some "", passwordTextField := some "",
           confirmPasswordTextField := some "", errorLabelText := "", errorLabelIsHidden := true }

/-- `checkForEnableSignUpButton` -/
def checkForEnableSignUpButton (v : SignUpViewController) : SignUpViewController :=
  match v.emailTextField, v.passwordTextField, v.confirmPasswordTextField with
  | some email, some password, some confirmPassword =>
      { v with
        signUpButtonIsEnabled :=
          !email.isEmpty && !password.isEmpty && !confirmPassword.isEmpty }
  | _, _, _ => v

/-- The user changes the email; the observer of `viewDidLoad` checks the button. -/
def typeEmail (v : SignUpViewController) (text : String) : SignUpViewController :=
  { v with emailTextField := some text }.checkForEnableSignUpButton

/-- The same for the password, which its field also puts back as it is when it gets the focus. -/
def typePassword (v : SignUpViewController) (text : String) : SignUpViewController :=
  { v with passwordTextField := some text }.checkForEnableSignUpButton

/-- The same for the confirmation. -/
def typeConfirmPassword (v : SignUpViewController) (text : String) : SignUpViewController :=
  { v with confirmPasswordTextField := some text }.checkForEnableSignUpButton

/-- `didTapSignUpButton`, also after `return` in the field of the confirmation. -/
def didTapSignUpButton (canonical : String → String) (v : SignUpViewController) :
    SignUpViewController :=
  let v := { v with errorLabelText := "", errorLabelIsHidden := true }
  match v.emailTextField, v.passwordTextField, v.confirmPasswordTextField with
  | some email, some password, some confirmPassword =>
      let isValid : Validation := ⟨email, password, some confirmPassword⟩
      if (isValid.isValidInput canonical).1 then
        { v with createUsers := v.createUsers ++ [⟨isValid.email, isValid.password⟩] }
      else
        { v with errorLabelText := (isValid.isValidInput canonical).2, errorLabelIsHidden := false,
                 emailTextField := some "", passwordTextField := some "",
                 confirmPasswordTextField := some "" }.checkForEnableSignUpButton
  | _, _, _ => v

/-- The completion of `createUser` with an error. -/
def showAlert (v : SignUpViewController) : SignUpViewController :=
  { v with alerts := v.alerts ++ [⟨"Error", "Unable to register"⟩] }

/-- `Try once more` on such an alert. -/
def alertHandler (v : SignUpViewController) : SignUpViewController :=
  { v with alerts := v.alerts.tail }.cleanInputSignUpFields

/-- `navigateToMainScreen` -/
def navigateToMainScreen (v : SignUpViewController) : SignUpViewController :=
  { v with presented := v.presented ++ [.tabBarController] }

/-- The completion of `createUser` without an error. -/
def signedUp (v : SignUpViewController) : SignUpViewController :=
  let v := v.navigateToMainScreen
  { v with userDocuments := v.userDocuments + 1 }

/-! ## 2. What the handlers do -/

variable {v : SignUpViewController}

@[simp] theorem checkForEnableSignUpButton_createUsers :
    v.checkForEnableSignUpButton.createUsers = v.createUsers := by
  unfold checkForEnableSignUpButton
  split <;> rfl

/-- **A tap makes a call with an input that passes the check, or no call.** -/
theorem didTapSignUpButton_createUsers (canonical : String → String) :
    (v.didTapSignUpButton canonical).createUsers = v.createUsers ∨
      ∃ email password confirmPassword,
        ((⟨email, password, some confirmPassword⟩ : Validation).isValidInput canonical).1 = true ∧
        (v.didTapSignUpButton canonical).createUsers = v.createUsers ++ [⟨email, password⟩] := by
  unfold didTapSignUpButton
  dsimp only
  split
  · rename_i email password confirmPassword _ _ _
    split
    · rename_i hvalid
      exact .inr ⟨email, password, confirmPassword, hvalid, rfl⟩
    · exact .inl checkForEnableSignUpButton_createUsers
  · exact .inl rfl

end SignUpViewController

/-! ## 3. The runs of the form -/

/-- The form, and the numbers of the calls that have been answered. -/
structure SignUp where
  view : SignUpViewController := {}
  answered : List Nat := []
  deriving DecidableEq

/-- What can happen to the form. -/
inductive SignUpEvent where
  | typeEmail (text : String)
  | typePassword (text : String)
  | typeConfirmPassword (text : String)
  | typeElsewhere
  | tapSignUp
  | success (n : Nat)
  | failure (n : Nat)
  | alertTryOnceMore
  deriving DecidableEq

/-- One event. The observer also hears of the fields of other screens; the button takes touches
    only when it is enabled. -/
inductive SignUpStep (canonical : String → String) : SignUp → SignUpEvent → SignUp → Prop where
  | typeEmail {s : SignUp} (text : String) :
      SignUpStep canonical s (.typeEmail text) { s with view := s.view.typeEmail text }
  | typePassword {s : SignUp} (text : String) :
      SignUpStep canonical s (.typePassword text) { s with view := s.view.typePassword text }
  | typeConfirmPassword {s : SignUp} (text : String) :
      SignUpStep canonical s (.typeConfirmPassword text)
        { s with view := s.view.typeConfirmPassword text }
  | typeElsewhere {s : SignUp} :
      SignUpStep canonical s .typeElsewhere { s with view := s.view.checkForEnableSignUpButton }
  | tapSignUp {s : SignUp} :
      s.view.signUpButtonIsEnabled = true →
      SignUpStep canonical s .tapSignUp { s with view := s.view.didTapSignUpButton canonical }
  | success {s : SignUp} {n : Nat} {c : Credentials} :
      Outstanding s.view.createUsers s.answered n c →
      SignUpStep canonical s (.success n) ⟨s.view.signedUp, s.answered ++ [n]⟩
  | failure {s : SignUp} {n : Nat} {c : Credentials} :
      Outstanding s.view.createUsers s.answered n c →
      SignUpStep canonical s (.failure n) ⟨s.view.showAlert, s.answered ++ [n]⟩
  | alertTryOnceMore {s : SignUp} :
      s.view.alerts ≠ [] →
      SignUpStep canonical s .alertTryOnceMore { s with view := s.view.alertHandler }

/-! ## 4. What is sent to be registered -/

/-- Every call made is for an email and a password of the grammar. -/
def RegistrationsChecked (s : SignUp) : Prop :=
  ∀ c ∈ s.view.createUsers, EmailGrammar c.email.toList ∧ PasswordGrammar c.password.toList

/-- One event. -/
theorem SignUpStep.registrationsChecked {canonical : String → String} {s s' : SignUp}
    {e : SignUpEvent} (h : SignUpStep canonical s e s') (hs : RegistrationsChecked s) :
    RegistrationsChecked s' := by
  -- only a tap adds a call
  have hkept : ∀ v : SignUpViewController, v.createUsers = s.view.createUsers →
      ∀ c ∈ v.createUsers, EmailGrammar c.email.toList ∧ PasswordGrammar c.password.toList := by
    intro v hv
    rw [hv]
    exact hs
  cases h with
  | typeEmail text => exact hkept _ SignUpViewController.checkForEnableSignUpButton_createUsers
  | typePassword text => exact hkept _ SignUpViewController.checkForEnableSignUpButton_createUsers
  | typeConfirmPassword text =>
      exact hkept _ SignUpViewController.checkForEnableSignUpButton_createUsers
  | typeElsewhere => exact hkept _ SignUpViewController.checkForEnableSignUpButton_createUsers
  | success _ => exact hs
  | failure _ => exact hs
  | alertTryOnceMore _ => exact hs
  | tapSignUp _ =>
      obtain h | ⟨email, password, confirmPassword, hvalid, h⟩ :=
        SignUpViewController.didTapSignUpButton_createUsers (v := s.view) canonical
      · exact hkept _ h
      · intro c hc
        rw [show (SignUp.view _).createUsers = _ from h, List.mem_append, List.mem_singleton] at hc
        obtain hc | rfl := hc
        · exact hs c hc
        · obtain ⟨hemail, hpassword, _⟩ :=
            (Validation.isValidInput_iff canonical).mp hvalid
          exact ⟨hemail, hpassword⟩

/-- **Whatever is sent to be registered has passed the check**, in every run. -/
theorem registrations_checked (canonical : String → String) {es : List SignUpEvent} {s : SignUp}
    (h : Run (SignUpStep canonical) {} es s) : RegistrationsChecked s :=
  h.invariant (I := RegistrationsChecked) (fun _ hc => absurd hc List.not_mem_nil)
    fun _ _ _ hs hstep => hstep.registrationsChecked hs

end CryptoWallet
