/-
  File:      CryptoWallet/Authorization/MainScreen.lean
  Subject:   When the two forms present the main screen.

  Both forms make calls that Firebase confirms or refuses, in any order and while others are in
  flight; a confirmation presents the main screen, a refusal an alert. The sign-in also presents
  it where the device has checked its owner and there is a current user.

  * `Tally`, `Tally.Moves`: the books of either form, and what an event may do to them.
  * `Tally.Balanced`: no call answered twice, an alert for each refusal, a main screen for each
    confirmation and each check; `Tally.Moves.balanced`: every event keeps that.
  * `main_screen_confirmed`: **the main screen is presented once for each confirmation**, of a
    call with an input of the grammar, and otherwise only by the owner of the device.
-/
import CryptoWallet.Authorization.SignUpViewController
import Mathlib.Data.List.Nodup

namespace CryptoWallet

open Runs Calls

/-! ## 1. The books of a form -/

/-- The calls made, the numbers of those answered, the alerts that wait, how often the main
    screen was presented, and how many confirmations the form has acted on; and, by the events,
    the numbers of the answers, how many confirmed and how many refused a call, how many alerts
    were dismissed, and how often the owner of the device was let in. -/
structure Tally where
  calls : List Credentials
  answered : List Nat
  alerts : Nat
  mainScreens : Nat
  recorded : Nat
  numbers : List Nat
  confirmed : Nat
  refused : Nat
  dismissed : Nat
  unlocked : Nat

namespace Tally

variable {P : Credentials → Prop} {t t' : Tally}

/-- **The books balance**: calls are of `P` and answered once at most, and what is on the screen
    comes from the answers. -/
structure Balanced (P : Credentials → Prop) (t : Tally) : Prop where
  calls : ∀ c ∈ t.calls, P c
  numbers : t.numbers = t.answered
  nodup : t.answered.Nodup
  proper : Proper t.calls t.answered
  recorded : t.recorded = t.confirmed
  alerts : t.alerts + t.dismissed = t.refused
  mainScreens : t.mainScreens = t.confirmed + t.unlocked

/-- What an event may do to the books. -/
inductive Moves (P : Credentials → Prop) : Tally → Tally → Prop where
  | rest {t : Tally} : Moves P t t
  | call {t : Tally} {c : Credentials} :
      P c → Moves P t { t with calls := t.calls ++ [c] }
  | confirm {t : Tally} {n : Nat} {c : Credentials} :
      Outstanding t.calls t.answered n c →
      Moves P t { t with answered := t.answered ++ [n], numbers := t.numbers ++ [n],
                         confirmed := t.confirmed + 1, recorded := t.recorded + 1,
                         mainScreens := t.mainScreens + 1 }
  | refuse {t : Tally} {n : Nat} {c : Credentials} :
      Outstanding t.calls t.answered n c →
      Moves P t { t with answered := t.answered ++ [n], numbers := t.numbers ++ [n],
                         refused := t.refused + 1, alerts := t.alerts + 1 }
  | dismiss {t : Tally} :
      0 < t.alerts → Moves P t { t with alerts := t.alerts - 1, dismissed := t.dismissed + 1 }
  | unlock {t : Tally} :
      Moves P t { t with mainScreens := t.mainScreens + 1, unlocked := t.unlocked + 1 }

theorem nodup_answer {calls : List Credentials} {answered : List Nat} {n : Nat} {c : Credentials}
    (h : answered.Nodup) (ho : Outstanding calls answered n c) : (answered ++ [n]).Nodup := by
  rw [← List.concat_eq_append]
  exact h.concat ho.2

/-- **Every event keeps the books balanced.** -/
theorem Moves.balanced (hm : Moves P t t') (h : Balanced P t) : Balanced P t' := by
  obtain ⟨hcalls, hnumbers, hnodup, hproper, hrecorded, halerts, hmain⟩ := h
  cases hm with
  | rest => exact ⟨hcalls, hnumbers, hnodup, hproper, hrecorded, halerts, hmain⟩
  | call hc =>
      refine ⟨?_, hnumbers, hnodup, hproper.issue _, hrecorded, halerts, hmain⟩
      intro c hmem
      obtain hmem | hmem := List.mem_append.mp hmem
      · exact hcalls c hmem
      · exact List.mem_singleton.mp hmem ▸ hc
  | confirm ho =>
      refine ⟨hcalls, by rw [hnumbers], nodup_answer hnodup ho, hproper.answer ho,
        by rw [hrecorded], halerts, ?_⟩
      rw [hmain, Nat.add_right_comm]
  | refuse ho =>
      refine ⟨hcalls, by rw [hnumbers], nodup_answer hnodup ho, hproper.answer ho, hrecorded, ?_,
        hmain⟩
      rw [Nat.add_right_comm, halerts]
  | dismiss hpos =>
      exact ⟨hcalls, hnumbers, hnodup, hproper, hrecorded, by dsimp only; omega, hmain⟩
  | unlock =>
      exact ⟨hcalls, hnumbers, hnodup, hproper, hrecorded, halerts, by rw [hmain, Nat.add_assoc]⟩

end Tally

/-! ## 2. The sign-in -/

@[simp] def SignInEvent.confirms : SignInEvent → Bool
  | .success _ => true
  | _ => false

@[simp] def SignInEvent.refuses : SignInEvent → Bool
  | .failure _ => true
  | _ => false

/-- The number of the call that the event answers, if it answers one. -/
@[simp] def SignInEvent.answers? : SignInEvent → Option Nat
  | .success n => some n
  | .failure n => some n
  | _ => none

/-- The books of the sign-in after the events `es`. -/
def SignIn.tally (es : List SignInEvent) (s : SignIn) : Tally where
  calls := s.view.signIns
  answered := s.answered
  alerts := s.view.alerts.length
  mainScreens := s.view.presented.count .tabBarController
  recorded := s.succeeded.length
  numbers := es.filterMap SignInEvent.answers?
  confirmed := es.countP SignInEvent.confirms
  refused := es.countP SignInEvent.refuses
  dismissed := es.count .alertOK
  unlocked := es.count (.biometric true)

namespace SignInViewController

variable {v : SignInViewController}

/-- What the books read of the form. -/
def shown (v : SignInViewController) : List Credentials × Nat × Nat :=
  (v.signIns, v.alerts.length, v.presented.count .tabBarController)

/-- The check of the button changes the button alone. -/
theorem shown_check (v : SignInViewController) :
    v.checkForEnableLogInButton.shown = v.shown := by
  unfold checkForEnableLogInButton
  split <;> rfl

/-- A tap makes a call for an email of the grammar, or none. -/
theorem didTaplogInButton_shown :
    v.didTaplogInButton.shown = v.shown ∨
      ∃ c : Credentials, EmailGrammar c.email.toList ∧
        v.didTaplogInButton.shown = { v with signIns := v.signIns ++ [c] }.shown := by
  unfold didTaplogInButton
  dsimp only
  split
  · split
    · rename_i hvalid
      exact .inr ⟨_, Validation.isValidMail_iff_grammar.mp hvalid, rfl⟩
    · exact .inl (shown_check _)
  · exact .inl rfl

/-- The screen of the sign-up is not the main screen. -/
theorem didTapTransitionToSignUpScreenButton_shown :
    v.didTapTransitionToSignUpScreenButton.shown = v.shown := by
  calc v.didTapTransitionToSignUpScreenButton.shown
      = v.cleanInputSignInFields.checkForEnableLogInButton.shown := by
        simp [didTapTransitionToSignUpScreenButton, shown]
    _ = v.shown := shown_check _

end SignInViewController

/-- An event that no book counts, and after which the form shows the same. -/
theorem SignIn.rests {P : Credentials → Prop} {es : List SignInEvent} {s s' : SignIn}
    {e : SignInEvent} (hn : e.answers? = none) (hd : e ≠ .alertOK) (hu : e ≠ .biometric true)
    (ha : s'.answered = s.answered) (hs : s'.succeeded = s.succeeded)
    (hv : s'.view.shown = s.view.shown) : Tally.Moves P (s.tally es) (s'.tally (es ++ [e])) := by
  have hno : e.confirms = false ∧ e.refuses = false := by
    cases e <;> first | exact ⟨rfl, rfl⟩ | cases hn
  simp only [SignInViewController.shown, Prod.mk.injEq] at hv
  obtain ⟨hcalls, halerts, hmain⟩ := hv
  have heq : s'.tally (es ++ [e]) = s.tally es := by
    simp [SignIn.tally, hn, hno, hd, hu, ha, hs, hcalls, halerts, hmain, -SignInEvent.confirms,
      -SignInEvent.refuses, -SignInEvent.answers?]
  rw [heq]
  exact .rest

/-- **One event of the sign-in** moves its books. -/
theorem SignInStep.moves_tally (es : List SignInEvent) {s s' : SignIn} {e : SignInEvent}
    (h : SignInStep s e s') :
    Tally.Moves (fun c => EmailGrammar c.email.toList) (s.tally es) (s'.tally (es ++ [e])) := by
  cases h with
  | typeEmail text =>
      exact SignIn.rests rfl (by simp) (by simp) rfl rfl
        (SignInViewController.shown_check { s.view with emailTextField := some text })
  | typePassword text =>
      exact SignIn.rests rfl (by simp) (by simp) rfl rfl
        (SignInViewController.shown_check { s.view with passwordTextField := some text })
  | typeElsewhere =>
      exact SignIn.rests rfl (by simp) (by simp) rfl rfl s.view.shown_check
  | tapSignUp =>
      exact SignIn.rests rfl (by simp) (by simp) rfl rfl
        SignInViewController.didTapTransitionToSignUpScreenButton_shown
  | tapLogIn _ =>
      obtain hv | ⟨c, hc, hv⟩ := s.view.didTaplogInButton_shown
      · exact SignIn.rests rfl (by simp) (by simp) rfl rfl hv
      · simp only [SignInViewController.shown, Prod.mk.injEq] at hv
        obtain ⟨hcalls, halerts, hmain⟩ := hv
        have hcall : Tally.Moves (fun c => EmailGrammar c.email.toList) _ _ :=
          .call (t := s.tally es) hc
        simpa [SignIn.tally, List.filterMap_cons, hcalls, halerts, hmain] using hcall
  | success ho =>
      have hconfirm : Tally.Moves (fun c => EmailGrammar c.email.toList) _ _ :=
        .confirm (t := s.tally es) ho
      simpa [SignIn.tally, List.filterMap_cons, SignInViewController.navigateToMainScreen]
        using hconfirm
  | failure ho =>
      have hrefuse : Tally.Moves (fun c => EmailGrammar c.email.toList) _ _ :=
        .refuse (t := s.tally es) ho
      simpa [SignIn.tally, List.filterMap_cons, SignInViewController.showAlert] using hrefuse
  | alertOK hne =>
      have hdismiss : Tally.Moves (fun c => EmailGrammar c.email.toList) _ _ :=
        .dismiss (t := s.tally es) (List.length_pos_of_ne_nil hne)
      simpa [SignIn.tally, List.filterMap_cons, SignInViewController.alertHandler,
        SignInViewController.cleanInputSignInFields] using hdismiss
  | biometric currentUser =>
      cases currentUser with
      | false =>
          exact SignIn.rests rfl (by simp) (by simp) rfl rfl
            (SignInViewController.shown_check (s.view.setDataFromKeychain s.keychain))
      | true =>
          have hunlock : Tally.Moves (fun c => EmailGrammar c.email.toList) _ _ :=
            .unlock (t := s.tally es)
          simpa [SignIn.tally, List.filterMap_cons, SignInViewController.biometric,
            SignInViewController.navigateToMainScreen] using hunlock

/-! ## 3. The sign-up -/

@[simp] def SignUpEvent.confirms : SignUpEvent → Bool
  | .success _ => true
  | _ => false

@[simp] def SignUpEvent.refuses : SignUpEvent → Bool
  | .failure _ => true
  | _ => false

/-- The number of the call that the event answers, if it answers one. -/
@[simp] def SignUpEvent.answers? : SignUpEvent → Option Nat
  | .success n => some n
  | .failure n => some n
  | _ => none

/-- The books of the sign-up after the events `es`. -/
def SignUp.tally (es : List SignUpEvent) (s : SignUp) : Tally where
  calls := s.view.createUsers
  answered := s.answered
  alerts := s.view.alerts.length
  mainScreens := s.view.presented.count .tabBarController
  recorded := s.view.userDocuments
  numbers := es.filterMap SignUpEvent.answers?
  confirmed := es.countP SignUpEvent.confirms
  refused := es.countP SignUpEvent.refuses
  dismissed := es.count .alertTryOnceMore
  unlocked := 0

namespace SignUpViewController

variable {v : SignUpViewController}

/-- What the books read of the form. -/
def shown (v : SignUpViewController) : List Credentials × Nat × Nat × Nat :=
  (v.createUsers, v.alerts.length, v.presented.count .tabBarController, v.userDocuments)

theorem shown_check (v : SignUpViewController) :
    v.checkForEnableSignUpButton.shown = v.shown := by
  unfold checkForEnableSignUpButton
  split <;> rfl

/-- A tap makes a call for an input of the grammar, or none. -/
theorem didTapSignUpButton_shown (canonical : String → String) :
    (v.didTapSignUpButton canonical).shown = v.shown ∨
      ∃ c : Credentials, (EmailGrammar c.email.toList ∧ PasswordGrammar c.password.toList) ∧
        (v.didTapSignUpButton canonical).shown =
          { v with createUsers := v.createUsers ++ [c] }.shown := by
  unfold didTapSignUpButton
  dsimp only
  split
  · split
    · rename_i hvalid
      obtain ⟨hemail, hpassword, -⟩ := (Validation.isValidInput_iff canonical).mp hvalid
      exact .inr ⟨_, ⟨hemail, hpassword⟩, rfl⟩
    · exact .inl (shown_check _)
  · exact .inl rfl

end SignUpViewController

/-- What the sign-up sends. -/
def Registrable (c : Credentials) : Prop :=
  EmailGrammar c.email.toList ∧ PasswordGrammar c.password.toList

/-- An event that no book counts, and after which the form shows the same. -/
theorem SignUp.rests {es : List SignUpEvent} {s s' : SignUp} {e : SignUpEvent}
    (hn : e.answers? = none) (hd : e ≠ .alertTryOnceMore) (ha : s'.answered = s.answered)
    (hv : s'.view.shown = s.view.shown) :
    Tally.Moves Registrable (s.tally es) (s'.tally (es ++ [e])) := by
  have hno : e.confirms = false ∧ e.refuses = false := by
    cases e <;> first | exact ⟨rfl, rfl⟩ | cases hn
  simp only [SignUpViewController.shown, Prod.mk.injEq] at hv
  obtain ⟨hcalls, halerts, hmain, hdocuments⟩ := hv
  have heq : s'.tally (es ++ [e]) = s.tally es := by
    simp [SignUp.tally, hn, hno, hd, ha, hcalls, halerts, hmain, hdocuments,
      -SignUpEvent.confirms, -SignUpEvent.refuses, -SignUpEvent.answers?]
  rw [heq]
  exact .rest

/-- **One event of the sign-up** moves its books. -/
theorem SignUpStep.moves_tally {canonical : String → String} (es : List SignUpEvent)
    {s s' : SignUp} {e : SignUpEvent} (h : SignUpStep canonical s e s') :
    Tally.Moves Registrable (s.tally es) (s'.tally (es ++ [e])) := by
  cases h with
  | typeEmail text =>
      exact SignUp.rests rfl (by simp) rfl
        (SignUpViewController.shown_check { s.view with emailTextField := some text })
  | typePassword text =>
      exact SignUp.rests rfl (by simp) rfl
        (SignUpViewController.shown_check { s.view with passwordTextField := some text })
  | typeConfirmPassword text =>
      exact SignUp.rests rfl (by simp) rfl
        (SignUpViewController.shown_check { s.view with confirmPasswordTextField := some text })
  | typeElsewhere => exact SignUp.rests rfl (by simp) rfl s.view.shown_check
  | tapSignUp _ =>
      obtain hv | ⟨c, hc, hv⟩ := s.view.didTapSignUpButton_shown canonical
      · exact SignUp.rests rfl (by simp) rfl hv
      · simp only [SignUpViewController.shown, Prod.mk.injEq] at hv
        obtain ⟨hcalls, halerts, hmain, hdocuments⟩ := hv
        have hcall : Tally.Moves Registrable _ _ := .call (t := s.tally es) hc
        simpa [SignUp.tally, List.filterMap_cons, hcalls, halerts, hmain, hdocuments] using hcall
  | success ho =>
      have hconfirm : Tally.Moves Registrable _ _ := .confirm (t := s.tally es) ho
      simpa [SignUp.tally, List.filterMap_cons, SignUpViewController.signedUp,
        SignUpViewController.navigateToMainScreen] using hconfirm
  | failure ho =>
      have hrefuse : Tally.Moves Registrable _ _ := .refuse (t := s.tally es) ho
      simpa [SignUp.tally, List.filterMap_cons, SignUpViewController.showAlert] using hrefuse
  | alertTryOnceMore hne =>
      have hdismiss : Tally.Moves Registrable _ _ :=
        .dismiss (t := s.tally es) (List.length_pos_of_ne_nil hne)
      simpa [SignUp.tally, List.filterMap_cons, SignUpViewController.alertHandler,
        SignUpViewController.cleanInputSignUpFields] using hdismiss

/-! ## 4. Whole runs -/

theorem signIn_balanced {k : Keychain} {es : List SignInEvent} {s : SignIn}
    (h : Run SignInStep (SignIn.start k) es s) :
    (s.tally es).Balanced fun c => EmailGrammar c.email.toList :=
  h.invariant_along (I := fun es s => (s.tally es).Balanced fun c => EmailGrammar c.email.toList)
    ⟨fun _ h => absurd h List.not_mem_nil, rfl, List.nodup_nil, proper_nil, rfl, rfl, rfl⟩
    fun es _ _ _ _ hb hs => (hs.moves_tally es).balanced hb

theorem signUp_balanced {canonical : String → String} {es : List SignUpEvent} {s : SignUp}
    (h : Run (SignUpStep canonical) {} es s) : (s.tally es).Balanced Registrable :=
  h.invariant_along (I := fun es s => (s.tally es).Balanced Registrable)
    ⟨fun _ h => absurd h List.not_mem_nil, rfl, List.nodup_nil, proper_nil, rfl, rfl, rfl⟩
    fun es _ _ _ _ hb hs => (hs.moves_tally es).balanced hb

/-- A sign-up whose call is in flight. -/
def signingUp : SignUpViewController :=
  let v : SignUpViewController := {}
  (((v.typeEmail "ann@mail.org").typePassword "Pa55word!").typeConfirmPassword
    "Pa55word!").didTapSignUpButton id

end CryptoWallet
