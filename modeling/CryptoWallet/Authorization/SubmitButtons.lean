/-
  File:      CryptoWallet/Authorization/SubmitButtons.lean
  Subject:   The submit buttons of the two forms and their fields.

  A button is set by the check alone, and the fields change in many places. Every place that
  changes them goes on to the check, but one: the handler of the error alert empties them and
  leaves the button as it is, in both forms.

  * `Form`: the fields and the button of either form; `Form.Follows`: the button follows them.
  * `Form.Moves`: what an event does to a form, the alert's handler apart.
  * `buttons_follow_iff`: the runs in which the buttons follow their fields.
  * `dismissed_enabled`: an alert dismissed leaves an empty form with an enabled button.
-/
import CryptoWallet.Authorization.SignUpViewController

namespace CryptoWallet

open Runs Calls

/-! ## 1. Fields and a button -/

/-- The texts of the fields, and whether the button takes touches. -/
structure Form where
  texts : List (Option String)
  enabled : Bool
  deriving DecidableEq

namespace Form

/-- The button is enabled if and only if no field is empty. -/
def Follows (f : Form) : Prop := f.enabled = true ↔ ∀ t ∈ f.texts, t.getD "" ≠ ""

instance (f : Form) : Decidable f.Follows :=
  inferInstanceAs (Decidable (f.enabled = true ↔ ∀ t ∈ f.texts, t.getD "" ≠ ""))

/-- There is a field, and every field has a text, be it empty. -/
def HasTexts (f : Form) : Prop := f.texts ≠ [] ∧ ∀ t ∈ f.texts, t.isSome = true

/-- The check of the button. -/
def check (f : Form) : Form :=
  if f.texts.all Option.isSome then
    { f with enabled := f.texts.all fun t => t.any fun text => !text.isEmpty }
  else f

/-- Every field emptied. -/
def clean (f : Form) : Form := { f with texts := f.texts.map fun _ => some "" }

/-- **What an event does to a form**: nothing, or new texts and then the check. -/
def Moves (f f' : Form) : Prop := f' = f ∨ ∃ g : Form, g.HasTexts ∧ f' = g.check

variable {f f' : Form}

theorem check_texts : f.check.texts = f.texts := by
  unfold check
  split <;> rfl

/-- **After the check the button follows the fields.** -/
theorem check_follows (h : f.HasTexts) : f.check.Follows := by
  have hall : f.texts.all Option.isSome = true := List.all_eq_true.mpr h.2
  unfold check Follows
  rw [if_pos hall, List.all_eq_true]
  refine forall₂_congr fun t ht => ?_
  obtain ⟨text, rfl⟩ := Option.isSome_iff_exists.mp (h.2 t ht)
  simp

theorem clean_hasTexts (h : f.HasTexts) : f.clean.HasTexts := by
  refine ⟨by simpa [clean] using h.1, fun t ht => ?_⟩
  obtain ⟨_, _, rfl⟩ := List.mem_map.mp ht
  rfl

/-- **Emptied without the check**: the button follows the fields only if one was empty before. -/
theorem clean_follows_iff (ht : f.HasTexts) (h : f.Follows) :
    f.clean.Follows ↔ ∃ t ∈ f.texts, t.getD "" = "" := by
  obtain ⟨t, hmem⟩ := List.exists_mem_of_ne_nil _ ht.1
  have hempty : ¬∀ u ∈ f.clean.texts, u.getD "" ≠ "" := fun hall =>
    hall _ (List.mem_map_of_mem hmem) rfl
  unfold Follows at h ⊢
  rw [iff_false_right hempty]
  show ¬f.enabled = true ↔ _
  rw [h]
  push Not
  rfl

theorem Moves.follows (hm : f.Moves f') (h : f.Follows) : f'.Follows := by
  obtain rfl | ⟨g, hg, rfl⟩ := hm
  · exact h
  · exact check_follows hg

theorem Moves.hasTexts (hm : f.Moves f') (h : f.HasTexts) : f'.HasTexts := by
  obtain rfl | ⟨g, hg, rfl⟩ := hm
  · exact h
  · unfold HasTexts
    rw [check_texts]
    exact hg

end Form

/-! ## 2. The sign-in -/

/-- The form of the sign-in. -/
def SignInViewController.form (v : SignInViewController) : Form :=
  ⟨[v.emailTextField, v.passwordTextField], v.logInButtonIsEnabled⟩

/-- An alert is dismissed over a form with an empty field, so there is nothing to disable. -/
def SignIn.DismissedWhenEmpty (s : SignIn) : SignInEvent → Prop
  | .alertOK => ∃ t ∈ s.view.form.texts, t.getD "" = ""
  | _ => True

namespace SignInViewController

variable {v : SignInViewController}

theorem form_check : v.checkForEnableLogInButton.form = v.form.check := by
  unfold checkForEnableLogInButton Form.check
  cases he : v.emailTextField <;> cases hp : v.passwordTextField <;> simp [form, he, hp]

/-- Texts in both fields, and the check. -/
theorem form_moves {u : SignInViewController} {email password : String}
    (he : v.emailTextField = some email) (hp : v.passwordTextField = some password) :
    u.form.Moves v.checkForEnableLogInButton.form := by
  refine .inr ⟨v.form, ⟨List.cons_ne_nil _ _, ?_⟩, form_check⟩
  simp [form, he, hp]

theorem texts (h : v.form.HasTexts) :
    ∃ email password, v.emailTextField = some email ∧ v.passwordTextField = some password := by
  obtain ⟨email, he⟩ := Option.isSome_iff_exists.mp (h.2 v.emailTextField (by simp [form]))
  obtain ⟨password, hp⟩ := Option.isSome_iff_exists.mp (h.2 v.passwordTextField (by simp [form]))
  exact ⟨email, password, he, hp⟩

theorem didTaplogInButton_moves : v.form.Moves v.didTaplogInButton.form := by
  unfold didTaplogInButton
  dsimp only
  split
  · split
    · exact .inl rfl
    · exact form_moves rfl rfl
  · exact .inl rfl

theorem biometric_moves (currentUser : Bool) (k : Keychain) :
    v.form.Moves (v.biometric currentUser k).form := by
  cases currentUser with
  | true => exact .inl rfl
  | false => exact form_moves (v := v.setDataFromKeychain k) rfl rfl

end SignInViewController

section

variable {s s' : SignIn} {e : SignInEvent}

/-- One event, a dismissed alert apart. -/
theorem SignInStep.moves (h : SignInStep s e s') (ht : s.view.form.HasTexts) (he : e ≠ .alertOK) :
    s.view.form.Moves s'.view.form := by
  obtain ⟨email, password, hemail, hpassword⟩ := SignInViewController.texts ht
  cases h with
  | typeEmail text => exact SignInViewController.form_moves rfl hpassword
  | typePassword text => exact SignInViewController.form_moves hemail rfl
  | typeElsewhere => exact SignInViewController.form_moves hemail hpassword
  | tapLogIn _ => exact SignInViewController.didTaplogInButton_moves
  | tapSignUp =>
      exact SignInViewController.form_moves (v := s.view.cleanInputSignInFields) rfl rfl
  | success _ => exact .inl rfl
  | failure _ => exact .inl rfl
  | alertOK _ => exact absurd rfl he
  | biometric currentUser => exact SignInViewController.biometric_moves currentUser s.keychain

theorem SignInStep.hasTexts (h : SignInStep s e s') (ht : s.view.form.HasTexts) :
    s'.view.form.HasTexts := by
  by_cases he : e = .alertOK
  · subst he
    cases h with
    | alertOK _ => exact Form.clean_hasTexts ht
  · exact (h.moves ht he).hasTexts ht

/-- **One event of the sign-in** keeps the button with its fields, unless an alert is dismissed
    over a form without an empty field. -/
theorem SignInStep.follows_iff (h : SignInStep s e s') (ht : s.view.form.HasTexts)
    (hf : s.view.form.Follows) : s'.view.form.Follows ↔ s.DismissedWhenEmpty e := by
  by_cases he : e = .alertOK
  · subst he
    cases h with
    | alertOK _ => exact Form.clean_follows_iff ht hf
  · have htrue : s.DismissedWhenEmpty e := by
      cases e with
      | alertOK => exact absurd rfl he
      | _ => trivial
    exact iff_of_true ((h.moves ht he).follows hf) htrue

end

/-! ## 3. The sign-up -/

/-- The form of the sign-up. -/
def SignUpViewController.form (v : SignUpViewController) : Form :=
  ⟨[v.emailTextField, v.passwordTextField, v.confirmPasswordTextField], v.signUpButtonIsEnabled⟩

/-- An alert is dismissed over a form with an empty field, so there is nothing to disable. -/
def SignUp.DismissedWhenEmpty (s : SignUp) : SignUpEvent → Prop
  | .alertTryOnceMore => ∃ t ∈ s.view.form.texts, t.getD "" = ""
  | _ => True

namespace SignUpViewController

variable {v : SignUpViewController}

theorem form_check : v.checkForEnableSignUpButton.form = v.form.check := by
  unfold checkForEnableSignUpButton Form.check
  cases he : v.emailTextField <;> cases hp : v.passwordTextField <;>
    cases hc : v.confirmPasswordTextField <;> simp [form, he, hp, hc, Bool.and_assoc]

/-- Texts in the three fields, and the check. -/
theorem form_moves {u : SignUpViewController} {email password confirmPassword : String}
    (he : v.emailTextField = some email) (hp : v.passwordTextField = some password)
    (hc : v.confirmPasswordTextField = some confirmPassword) :
    u.form.Moves v.checkForEnableSignUpButton.form := by
  refine .inr ⟨v.form, ⟨List.cons_ne_nil _ _, ?_⟩, form_check⟩
  simp [form, he, hp, hc]

theorem texts (h : v.form.HasTexts) :
    ∃ email password confirmPassword, v.emailTextField = some email ∧
      v.passwordTextField = some password ∧ v.confirmPasswordTextField = some confirmPassword := by
  obtain ⟨email, he⟩ := Option.isSome_iff_exists.mp (h.2 v.emailTextField (by simp [form]))
  obtain ⟨password, hp⟩ := Option.isSome_iff_exists.mp (h.2 v.passwordTextField (by simp [form]))
  obtain ⟨confirmPassword, hc⟩ :=
    Option.isSome_iff_exists.mp (h.2 v.confirmPasswordTextField (by simp [form]))
  exact ⟨email, password, confirmPassword, he, hp, hc⟩

theorem didTapSignUpButton_moves (canonical : String → String) :
    v.form.Moves (v.didTapSignUpButton canonical).form := by
  unfold didTapSignUpButton
  dsimp only
  split
  · split
    · exact .inl rfl
    · exact form_moves rfl rfl rfl
  · exact .inl rfl

end SignUpViewController

section

variable {canonical : String → String} {s s' : SignUp} {e : SignUpEvent}

/-- One event, a dismissed alert apart. -/
theorem SignUpStep.moves (h : SignUpStep canonical s e s') (ht : s.view.form.HasTexts)
    (he : e ≠ .alertTryOnceMore) : s.view.form.Moves s'.view.form := by
  obtain ⟨email, password, confirmPassword, hemail, hpassword, hconfirm⟩ :=
    SignUpViewController.texts ht
  cases h with
  | typeEmail text => exact SignUpViewController.form_moves rfl hpassword hconfirm
  | typePassword text => exact SignUpViewController.form_moves hemail rfl hconfirm
  | typeConfirmPassword text => exact SignUpViewController.form_moves hemail hpassword rfl
  | typeElsewhere => exact SignUpViewController.form_moves hemail hpassword hconfirm
  | tapSignUp _ => exact SignUpViewController.didTapSignUpButton_moves canonical
  | success _ => exact .inl rfl
  | failure _ => exact .inl rfl
  | alertTryOnceMore _ => exact absurd rfl he

theorem SignUpStep.hasTexts (h : SignUpStep canonical s e s') (ht : s.view.form.HasTexts) :
    s'.view.form.HasTexts := by
  by_cases he : e = .alertTryOnceMore
  · subst he
    cases h with
    | alertTryOnceMore _ => exact Form.clean_hasTexts ht
  · exact (h.moves ht he).hasTexts ht

/-- **One event of the sign-up**, as for the sign-in. -/
theorem SignUpStep.follows_iff (h : SignUpStep canonical s e s') (ht : s.view.form.HasTexts)
    (hf : s.view.form.Follows) : s'.view.form.Follows ↔ s.DismissedWhenEmpty e := by
  by_cases he : e = .alertTryOnceMore
  · subst he
    cases h with
    | alertTryOnceMore _ => exact Form.clean_follows_iff ht hf
  · have htrue : s.DismissedWhenEmpty e := by
      cases e with
      | alertTryOnceMore => exact absurd rfl he
      | _ => trivial
    exact iff_of_true ((h.moves ht he).follows hf) htrue

end

/-! ## 4. Whole runs -/

/-- **The buttons follow their fields** after every event exactly in the runs of the forms where
    every alert is dismissed over a form that has an empty field already. -/
theorem buttons_follow_iff (canonical : String → String) :
    (∀ k es s,
      Run (Kept (fun s : SignIn => s.view.form.Follows) SignInStep) (SignIn.start k) es s ↔
        Run (Guarded SignIn.DismissedWhenEmpty SignInStep) (SignIn.start k) es s) ∧
    ∀ es s,
      Run (Kept (fun s : SignUp => s.view.form.Follows) (SignUpStep canonical)) {} es s ↔
        Run (Guarded SignUp.DismissedWhenEmpty (SignUpStep canonical)) {} es s := by
  constructor
  · have ht0 : ({} : SignInViewController).form.HasTexts := ⟨List.cons_ne_nil _ _, by decide⟩
    have hf0 : ({} : SignInViewController).form.Follows := by decide
    intro k es s
    exact Run.kept_iff (I := fun s : SignIn => s.view.form.HasTexts) ht0 hf0
      (fun _ _ _ ht h => h.hasTexts ht) fun _ _ _ ht hf h => h.follows_iff ht hf
  · have ht0 : ({} : SignUpViewController).form.HasTexts := ⟨List.cons_ne_nil _ _, by decide⟩
    have hf0 : ({} : SignUpViewController).form.Follows := by decide
    intro es s
    exact Run.kept_iff (I := fun s : SignUp => s.view.form.HasTexts) ht0 hf0
      (fun _ _ _ ht h => h.hasTexts ht) fun _ _ _ ht hf h => h.follows_iff ht hf

/-- **An alert dismissed leaves an empty form with an enabled button**, after a sign-in refused. -/
theorem dismissed_enabled :
    ∃ s : SignIn,
      Run SignInStep (SignIn.start ⟨none, none⟩)
        [.typeEmail "ann@mail.org", .typePassword "Pa55word", .tapLogIn, .failure 0, .alertOK] s ∧
      s.view.form = ⟨[some "", some ""], true⟩ ∧ ¬s.view.form.Follows := by
  have htap : Run SignInStep (SignIn.start ⟨none, none⟩)
      [.typeEmail "ann@mail.org", .typePassword "Pa55word", .tapLogIn]
      ⟨loggingIn, ⟨none, none⟩, [], []⟩ :=
    ((Run.single (.typeEmail _)).next (.typePassword _)).next (.tapLogIn (by decide))
  have hcall : Outstanding loggingIn.signIns [] 0 ⟨"ann@mail.org", "Pa55word"⟩ :=
    ⟨by decide, List.not_mem_nil⟩
  have hfailed := htap.next (.failure hcall)
  exact ⟨_, hfailed.next (.alertOK (List.cons_ne_nil _ _)), by decide, by decide⟩

end CryptoWallet
