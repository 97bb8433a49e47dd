/-
  File:      CryptoWallet/Authorization/Validation.lean
  Subject:   What the forms let through (ValidationProvider.swift).

  `SELF MATCHES` asks whether the regular expression matches the whole string, case by case; `.`
  is any code point but a line terminator. Swift's strings are equal when their canonical forms
  are: those forms are a parameter.

  * `Validation.isValidMail`, `isValidPassword`, `isValidInput`: the checks themselves.
  * `isValidMail_iff`: the emails accepted, cut at the `@` and at the last dot.
  * `isValidPassword_iff`: the passwords accepted, one condition for each lookahead.
  * `isValidInput_iff_grammar`: **accepted is what the grammar says**, and exactly then is there no
    message.
-/
import CryptoWallet.Library.Patterns

namespace CryptoWallet

open Patterns

/-! ## 1. The email -/

/-- `Validation` -/
structure Validation where
  email : String
  password : String
  confirmPassword : Option String

/-- `[A-Za-z]` -/
def isASCIILetter (c : Char) : Bool := ('A' ≤ c && c ≤ 'Z') || ('a' ≤ c && c ≤ 'z')

/-- `[0-9]` -/
def isASCIIDigit (c : Char) : Bool := '0' ≤ c && c ≤ '9'

/-- `[A-Z0-9a-z._%+-]` -/
def isMailboxCharacter (c : Char) : Bool :=
  isASCIILetter c || isASCIIDigit c || ['.', '_', '%', '+', '-'].contains c

/-- `[A-Za-z0-9.-]` -/
def isHostCharacter (c : Char) : Bool :=
  isASCIILetter c || isASCIIDigit c || ['.', '-'].contains c

/-- `emailRegEx`: `[A-Z0-9a-z._%+-]+@[A-Za-z0-9.-]+\.[A-Za-z]{2,64}` -/
def emailRegEx : List (Piece Char) :=
  [.plus isMailboxCharacter, .letter '@', .plus isHostCharacter, .letter '.',
    ⟨isASCIILetter, 2, some 64⟩]

/-- `isValidMail` -/
def Validation.isValidMail (v : Validation) : Bool := fullMatch emailRegEx v.email.toList

/-- **The emails the check accepts**: a mailbox, `@`, a host, a dot and 2 to 64 letters. -/
theorem Validation.isValidMail_iff {v : Validation} :
    v.isValidMail = true ↔
      ∃ mailbox host zone,
        v.email.toList = mailbox ++ '@' :: (host ++ '.' :: zone) ∧
        (mailbox ≠ [] ∧ ∀ c ∈ mailbox, isMailboxCharacter c = true) ∧
        (host ≠ [] ∧ ∀ c ∈ host, isHostCharacter c = true) ∧
        (2 ≤ zone.length ∧ zone.length ≤ 64) ∧ ∀ c ∈ zone, isASCIILetter c = true := by
  unfold isValidMail emailRegEx
  simp only [fullMatch_cons, fullMatch_nil, Piece.takes_plus, Piece.takes_letter]
  constructor
  · intro h
    obtain ⟨mailbox, _, e, hm, _, _, rfl, rfl, host, _, rfl, hh, _, _, rfl, rfl, zone, _, rfl,
      hz, rfl⟩ := h
    obtain ⟨⟨h2, h64⟩, hl⟩ := Piece.takes_iff.mp hz
    exact ⟨mailbox, host, zone, by simpa using e, hm, hh, ⟨h2, h64 64 rfl⟩, hl⟩
  · intro h
    obtain ⟨mailbox, host, zone, e, hm, hh, ⟨h2, h64⟩, hl⟩ := h
    have hz : (⟨isASCIILetter, 2, some 64⟩ : Piece Char).takes zone = true :=
      Piece.takes_iff.mpr ⟨⟨h2, fun m hm => Option.some.inj hm ▸ h64⟩, hl⟩
    exact ⟨mailbox, _, e, hm, ['@'], _, rfl, rfl, host, _, rfl, hh, ['.'], zone, rfl, rfl, zone,
      [], (List.append_nil zone).symm, hz, rfl⟩

example : (⟨"a.b@mail.host.org", "", none⟩ : Validation).isValidMail = true := by decide

/-! ## 2. The password -/

/-- `[A-Z]` -/
def isASCIIUppercase (c : Char) : Bool := 'A' ≤ c && c ≤ 'Z'

/-- `[a-z]` -/
def isASCIILowercase (c : Char) : Bool := 'a' ≤ c && c ≤ 'z'

/-- ``[#?!@$%^&<>*~:`-]`` -/
def isPasswordSymbol (c : Char) : Bool :=
  ['#', '?', '!', '@', '$', '%', '^', '&', '<', '>', '*', '~', ':', '\u0060', '-'].contains c

/-- The line terminators of the expressions: U+000A to U+000D, U+0085, U+2028 and U+2029. -/
def isLineTerminator (c : Char) : Bool :=
  ('\u000A' ≤ c && c ≤ '\u000D') || ['\u0085', '\u2028', '\u2029'].contains c

/-- `.` -/
def isNotLineTerminator (c : Char) : Bool := !isLineTerminator c

/-- ``passwordRegx``:
    ``^(?=.*?[A-Z])(?=.*?[a-z])(?=.*?[0-9])(?=.*?[#?!@$%^&<>*~:`-]).{8,}$`` -/
def passwordRegx : Pattern Char :=
  ⟨[[.star isNotLineTerminator, .one isASCIIUppercase],
    [.star isNotLineTerminator, .one isASCIILowercase],
    [.star isNotLineTerminator, .one isASCIIDigit],
    [.star isNotLineTerminator, .one isPasswordSymbol]],
   [⟨isNotLineTerminator, 8, none⟩]⟩

/-- `isValidPassword` -/
def Validation.isValidPassword (v : Validation) : Bool := passwordRegx.takes v.password.toList

/-- The passwords the forms ask for. -/
structure PasswordGrammar (password : List Char) : Prop where
  length : 8 ≤ password.length
  noLineTerminator : ∀ c ∈ password, isLineTerminator c = false
  uppercase : ∃ c ∈ password, isASCIIUppercase c = true
  lowercase : ∃ c ∈ password, isASCIILowercase c = true
  digit : ∃ c ∈ password, isASCIIDigit c = true
  symbol : ∃ c ∈ password, isPasswordSymbol c = true

/-- **The passwords the check accepts.** -/
theorem Validation.isValidPassword_iff {v : Validation} :
    v.isValidPassword = true ↔ PasswordGrammar v.password.toList := by
  have h := Pattern.takes_everywhere isNotLineTerminator
    [isASCIIUppercase, isASCIILowercase, isASCIIDigit, isPasswordSymbol] 8 v.password.toList
  refine h.trans ?_
  simp only [isNotLineTerminator, Bool.not_eq_true', List.forall_mem_cons, List.not_mem_nil,
    false_imp_iff, implies_true, and_true]
  constructor
  · intro ⟨hlength, hline, hupper, hlower, hdigit, hsymbol⟩
    exact ⟨hlength, hline, hupper, hlower, hdigit, hsymbol⟩
  · intro ⟨hlength, hline, hupper, hlower, hdigit, hsymbol⟩
    exact ⟨hlength, hline, hupper, hlower, hdigit, hsymbol⟩

/-! ## 3. The input -/

/-- `isValidInput`; `canonical` gives the form by which Swift's `!=` compares. -/
def Validation.isValidInput (canonical : String → String) (v : Validation) : Bool × String :=
  let errorStatus := (true, "")
  let errorStatus :=
    if !v.isValidMail then (false, errorStatus.2 ++ "Incorrect email. ") else errorStatus
  let errorStatus :=
    if !v.isValidPassword then (false, errorStatus.2 ++ "Incorrect password. ") else errorStatus
  let differs :=
    match v.confirmPassword with
    | some confirmPassword => decide (canonical confirmPassword ≠ canonical v.password)
    | none => false
  if differs then (false, errorStatus.2 ++ "Confirm password is't the same.") else errorStatus

/-- The emails the forms ask for: one `@`, and the last dot after it. -/
def EmailGrammar (email : List Char) : Prop :=
  ∃ mailbox rest, email = mailbox ++ '@' :: rest ∧ '@' ∉ mailbox ∧ '@' ∉ rest ∧
    (mailbox ≠ [] ∧ ∀ c ∈ mailbox, isMailboxCharacter c = true) ∧
    ∃ host zone, rest = host ++ '.' :: zone ∧ '.' ∉ zone ∧
      (host ≠ [] ∧ ∀ c ∈ host, isHostCharacter c = true) ∧
      (2 ≤ zone.length ∧ zone.length ≤ 64) ∧ ∀ c ∈ zone, isASCIILetter c = true

/-- **The classes leave one way to cut**: none of them has the `@`, and no letter is the dot. -/
theorem Validation.isValidMail_iff_grammar {v : Validation} :
    v.isValidMail = true ↔ EmailGrammar v.email.toList := by
  rw [isValidMail_iff]
  constructor
  · intro ⟨mailbox, host, zone, e, hm, hh, hlength, hz⟩
    have hat : '@' ∉ host ++ '.' :: zone := by
      rw [List.mem_append, List.mem_cons]
      rintro (h | h | h)
      · exact notMem_of_class hh.2 (by decide) h
      · exact absurd h (by decide)
      · exact notMem_of_class hz (by decide) h
    exact ⟨mailbox, _, e, notMem_of_class hm.2 (by decide), hat, hm, host, zone, rfl,
      notMem_of_class hz (by decide), hh, hlength, hz⟩
  · rintro ⟨mailbox, _, e, _, _, hm, host, zone, rfl, _, hh, hlength, hz⟩
    exact ⟨mailbox, host, zone, e, hm, hh, hlength, hz⟩

/-- **The input accepted is that of the grammar.** -/
theorem Validation.isValidInput_iff {v : Validation} (canonical : String → String) :
    (v.isValidInput canonical).1 = true ↔
      EmailGrammar v.email.toList ∧ PasswordGrammar v.password.toList ∧
        ∀ c ∈ v.confirmPassword, canonical c = canonical v.password := by
  rw [← isValidMail_iff_grammar, ← isValidPassword_iff]
  unfold isValidInput
  cases v.isValidMail <;> cases v.isValidPassword <;> cases v.confirmPassword with
  | none => simp
  | some c => by_cases h : canonical c = canonical v.password <;> simp [h]

/-- The message is empty exactly when the input is accepted. -/
theorem Validation.isValidInput_message {v : Validation} (canonical : String → String) :
    (v.isValidInput canonical).2 = "" ↔ (v.isValidInput canonical).1 = true := by
  unfold isValidInput
  cases v.isValidMail <;> cases v.isValidPassword <;> cases v.confirmPassword with
  | none => simp
  | some c => by_cases h : canonical c = canonical v.password <;> simp [h]

/-- **The check is its grammar**: it accepts exactly the input of the grammar, and has no message
    exactly for that input. -/
theorem isValidInput_iff_grammar (canonical : String → String) (v : Validation) :
    ((v.isValidInput canonical).1 = true ↔
      EmailGrammar v.email.toList ∧ PasswordGrammar v.password.toList ∧
        ∀ c ∈ v.confirmPassword, canonical c = canonical v.password) ∧
    ((v.isValidInput canonical).2 = "" ↔ (v.isValidInput canonical).1 = true) :=
  ⟨Validation.isValidInput_iff canonical, Validation.isValidInput_message canonical⟩

end CryptoWallet
