/-
  File:      CryptoWallet/Library/Decimal.lean
  Subject:   Decimal texts and the rational numbers they denote.

  * `value cs`: the number a decimal text denotes: an optional sign, digits with an optional
    point, an optional exponent; `none` for every other text.
  * `whole n`, `fixed k n`: the texts of a natural number, and of `n / 10^k` with exactly `k`
    digits after the point.
  * `value_whole`, `value_point`, `value_fixed`: what these texts denote.
  * `value_rdropWhile_fixed_two`: cutting trailing zeros off two digits after the point keeps
    the number, unless both are 0.
  * `value_rdropWhile_whole_le`, `value_rdropWhile_whole_div`: the trailing zeros of a whole number
    carry its size: cutting them off leaves the number when its last digit is not 0, and at most
    a tenth of it otherwise.
  * `value_rdropWhile_fixed_two_of_ne`, `value_rdropWhile_fixed_two_thousand`: so the cut keeps
    `n / 100` unless `n` is a multiple of a thousand.
-/
import Mathlib.Data.List.DropRight
import Mathlib.Tactic.FieldSimp
import Mathlib.Tactic.Linarith
import Mathlib.Tactic.Positivity
import Mathlib.Tactic.Ring
import Mathlib.Algebra.Order.Field.Rat
import Mathlib.Algebra.Order.Field.Basic

namespace Decimal

/-! ## 1. Reading -/

/-- The number a string of digits denotes, leading zeros allowed. -/
def ofDigits (cs : List Char) : Nat := Nat.ofDigitChars 10 cs 0

/-- A non-empty string of digits, as a number. -/
def natural (cs : List Char) : Option Nat :=
  if cs ≠ [] ∧ cs.all Char.isDigit then some (ofDigits cs) else none

/-- An exponent's number: digits after an optional sign. -/
def signedNatural : List Char → Option Int
  | '-' :: cs => (natural cs).map fun n : Nat => -(n : Int)
  | '+' :: cs => (natural cs).map fun n : Nat => (n : Int)
  | cs => (natural cs).map fun n : Nat => (n : Int)

/-- What follows the significand: nothing, or an exponent. -/
def exponent : List Char → Option Int
  | [] => some 0
  | 'e' :: cs => signedNatural cs
  | 'E' :: cs => signedNatural cs
  | _ => none

/-- The digits after a point, and what follows them. -/
def fraction : List Char → List Char × List Char
  | '.' :: cs => (cs.takeWhile Char.isDigit, cs.dropWhile Char.isDigit)
  | cs => ([], cs)

/-- The number an unsigned decimal text denotes. -/
def magnitude (cs : List Char) : Option ℚ :=
  let whole := cs.takeWhile Char.isDigit
  let (digits, rest) := fraction (cs.dropWhile Char.isDigit)
  if whole ++ digits = [] then none
  else (exponent rest).map fun e =>
    (ofDigits (whole ++ digits) : ℚ) / 10 ^ digits.length *
      (if 0 ≤ e then 10 ^ e.toNat else 1 / 10 ^ (-e).toNat)

/-- **The number a decimal text denotes.** -/
def value : List Char → Option ℚ
  | '-' :: cs => (magnitude cs).map fun q => -q
  | '+' :: cs => magnitude cs
  | cs => magnitude cs

/-! ## 2. Writing -/

/-- The text of a natural number. -/
def whole (n : Nat) : List Char := Nat.toDigits 10 n

/-- The last `k` digits of `n`. -/
def lastDigits : Nat → Nat → List Char
  | 0, _ => []
  | k + 1, n => lastDigits k (n / 10) ++ [Nat.digitChar (n % 10)]

/-- The text of `n / 10^k` with `k` digits after the point. -/
def fixed (k n : Nat) : List Char := whole (n / 10 ^ k) ++ '.' :: lastDigits k n

example : fixed 2 1205 = "12.05".toList := by decide
example : value "-12.5e1".toList = some (-125) := by decide +kernel
example : value "12,5".toList = none := by decide

/-! ## 3. What a written text denotes -/

theorem all_isDigit_whole (n : Nat) : (whole n).all Char.isDigit = true :=
  List.all_eq_true.mpr fun _ hc => Nat.isDigit_of_mem_toDigits (by decide) (by decide) hc

theorem whole_ne_nil (n : Nat) : whole n ≠ [] := Nat.toDigits_ne_nil

@[simp] theorem ofDigits_whole (n : Nat) : ofDigits (whole n) = n := Nat.ofDigitChars_ten_toDigits

theorem ofDigits_append (cs ds : List Char) :
    ofDigits (cs ++ ds) = 10 ^ ds.length * ofDigits cs + ofDigits ds := by
  unfold ofDigits
  rw [Nat.ofDigitChars_append, Nat.ofDigitChars_eq_ofDigitChars_zero]

theorem ofDigits_digitChar {d : Nat} (h : d < 10) : ofDigits [Nat.digitChar d] = d := by
  unfold ofDigits
  rw [Nat.ofDigitChars_cons_digitChar_of_lt_ten h]
  simp

@[simp] theorem length_lastDigits (k n : Nat) : (lastDigits k n).length = k := by
  induction k generalizing n with
  | zero => rfl
  | succ k ih => simp [lastDigits, ih]

theorem all_isDigit_lastDigits (k n : Nat) : (lastDigits k n).all Char.isDigit = true := by
  induction k generalizing n with
  | zero => rfl
  | succ k ih =>
      simp only [lastDigits, List.all_append, ih, Bool.true_and, List.all_cons, List.all_nil,
        Bool.and_true]
      exact Nat.isDigit_digitChar.trans (decide_eq_true (Nat.mod_lt _ (by decide)))

theorem ofDigits_lastDigits (k n : Nat) : ofDigits (lastDigits k n) = n % 10 ^ k := by
  induction k generalizing n with
  | zero => simp [lastDigits, ofDigits, Nat.mod_one]
  | succ k ih =>
      rw [lastDigits, ofDigits_append, ih, ofDigits_digitChar (Nat.mod_lt _ (by decide))]
      simp only [List.length_cons, List.length_nil, Nat.zero_add, pow_one]
      rw [pow_succ', Nat.mod_mul]
      omega

theorem takeWhile_digits {cs : List Char} (ds : List Char) (h : cs.all Char.isDigit = true)
    (hd : ∀ c ∈ ds.head?, c.isDigit = false) :
    (cs ++ ds).takeWhile Char.isDigit = cs ∧ (cs ++ ds).dropWhile Char.isDigit = ds := by
  induction cs with
  | nil =>
      cases ds with
      | nil => exact ⟨rfl, rfl⟩
      | cons d ds =>
          have : d.isDigit = false := hd d rfl
          simp [this]
  | cons c cs ih =>
      simp only [List.all_cons, Bool.and_eq_true] at h
      simp [h.1, ih h.2]

theorem magnitude_whole {cs : List Char} (hne : cs ≠ []) (h : cs.all Char.isDigit = true) :
    magnitude cs = some (ofDigits cs : ℚ) := by
  obtain ⟨h1, h2⟩ := takeWhile_digits [] h (by simp)
  rw [List.append_nil] at h1 h2
  simp [magnitude, h1, h2, fraction, exponent, hne]

theorem magnitude_point {cs ds : List Char} (hne : cs ≠ []) (hc : cs.all Char.isDigit = true)
    (hd : ds.all Char.isDigit = true) :
    magnitude (cs ++ '.' :: ds) = some ((ofDigits (cs ++ ds) : ℚ) / 10 ^ ds.length) := by
  obtain ⟨h1, h2⟩ := takeWhile_digits ('.' :: ds) hc (by simp)
  obtain ⟨h3, h4⟩ := takeWhile_digits [] hd (by simp)
  rw [List.append_nil] at h3 h4
  simp [magnitude, h1, h2, h3, h4, fraction, exponent, hne]

/-- A text that begins with a digit carries no sign. -/
theorem value_of_digit {cs : List Char} (hne : cs ≠ []) (h : cs.all Char.isDigit = true)
    (ds : List Char) : value (cs ++ ds) = magnitude (cs ++ ds) := by
  cases cs with
  | nil => exact absurd rfl hne
  | cons c cs =>
      simp only [List.all_cons, Bool.and_eq_true] at h
      have hm : c ≠ '-' := fun e => by rw [e] at h; exact absurd h.1 (by decide)
      have hp : c ≠ '+' := fun e => by rw [e] at h; exact absurd h.1 (by decide)
      simp only [List.cons_append]
      unfold value
      split
      · rename_i heq; exact absurd (List.cons.inj heq).1 hm
      · rename_i heq; exact absurd (List.cons.inj heq).1 hp
      · rfl

/-- A minus before a text that begins with a digit negates its number. -/
theorem value_minus {c : Char} (hc : c.isDigit = true) (cs : List Char) :
    value ('-' :: c :: cs) = (value (c :: cs)).map fun q => -q := by
  have e : value (c :: cs) = magnitude (c :: cs) :=
    value_of_digit (List.cons_ne_nil c []) (by simp [hc]) cs
  rw [e]
  rfl

/-- **A string of digits denotes its number.** -/
theorem value_digits {cs : List Char} (hne : cs ≠ []) (h : cs.all Char.isDigit = true) :
    value cs = some (ofDigits cs : ℚ) := by
  have e := value_of_digit hne h []
  rw [List.append_nil] at e
  rw [e, magnitude_whole hne h]

@[simp] theorem value_whole (n : Nat) : value (whole n) = some (n : ℚ) := by
  rw [value_digits (whole_ne_nil n) (all_isDigit_whole n), ofDigits_whole]

/-- **Digits, a point and digits denote the digits over a power of ten.** -/
theorem value_point {cs ds : List Char} (hne : cs ≠ []) (hc : cs.all Char.isDigit = true)
    (hd : ds.all Char.isDigit = true) :
    value (cs ++ '.' :: ds) = some ((ofDigits (cs ++ ds) : ℚ) / 10 ^ ds.length) := by
  rw [value_of_digit hne hc, magnitude_point hne hc hd]

@[simp] theorem value_fixed (k n : Nat) : value (fixed k n) = some ((n : ℚ) / 10 ^ k) := by
  rw [fixed, value_point (whole_ne_nil _) (all_isDigit_whole _) (all_isDigit_lastDigits _ _),
    ofDigits_append, ofDigits_whole, ofDigits_lastDigits, length_lastDigits, Nat.div_add_mod]

/-- The digits of a number begin with a digit. -/
theorem whole_head (n : Nat) : ∃ c cs, whole n = c :: cs ∧ c.isDigit = true := by
  cases h : whole n with
  | nil => exact absurd h (whole_ne_nil n)
  | cons c cs =>
      have hall := all_isDigit_whole n
      rw [h] at hall
      simp only [List.all_cons, Bool.and_eq_true] at hall
      exact ⟨c, cs, rfl, hall.1⟩

/-- What a cut leaves of a written number begins with a digit, or is nothing. -/
theorem head_of_prefix_fixed {k n : Nat} {cs : List Char} (h : cs <+: fixed k n) :
    cs = [] ∨ ∃ c ds, cs = c :: ds ∧ c.isDigit = true := by
  obtain ⟨d, ds, hw, hd⟩ := whole_head (n / 10 ^ k)
  cases cs with
  | nil => exact Or.inl rfl
  | cons c cs =>
      rw [fixed, hw, List.cons_append, List.cons_prefix_cons] at h
      exact Or.inr ⟨c, cs, rfl, h.1 ▸ hd⟩

/-! ## 4. Cutting trailing zeros -/

theorem whole_of_ten_le {n : Nat} (h : 10 ≤ n) :
    whole n = whole (n / 10) ++ [Nat.digitChar (n % 10)] :=
  Nat.toDigits_of_base_le (by decide) h

theorem whole_of_lt {n : Nat} (h : n < 10) : whole n = [Nat.digitChar n] :=
  Nat.toDigits_of_lt_base h

section Cut

-- any set of characters whose only digit is `0`
variable {p : Char → Bool} (hp : ∀ d < 10, p (Nat.digitChar d) = decide (d = 0))

include hp in
/-- The last digit of a positive number stays unless it is 0. -/
theorem rdropWhile_whole {n : Nat} (h : n % 10 ≠ 0) : (whole n).rdropWhile p = whole n := by
  have hn : ¬ p (Nat.digitChar (n % 10)) = true := by
    rw [hp _ (Nat.mod_lt _ (by decide))]
    simpa using h
  by_cases h10 : 10 ≤ n
  · rw [whole_of_ten_le h10, List.rdropWhile_concat_neg _ _ _ hn]
  · have hlt : n < 10 := by omega
    rw [Nat.mod_eq_of_lt hlt] at hn
    rw [whole_of_lt hlt, List.rdropWhile_singleton, if_neg hn]

include hp in
theorem rdropWhile_whole_zero : (whole 0).rdropWhile p = [] := by
  have h0 : p (Nat.digitChar 0) = true := by rw [hp 0 (by decide)]; rfl
  rw [whole_of_lt (by decide), List.rdropWhile_singleton, if_pos h0]

include hp in
/-- A last digit 0 of a larger number goes, and the cut goes on before it. -/
theorem rdropWhile_whole_ten {n : Nat} (h10 : 10 ≤ n) (h : n % 10 = 0) :
    (whole n).rdropWhile p = (whole (n / 10)).rdropWhile p := by
  have h0 : p (Nat.digitChar (n % 10)) = true := by
    rw [hp _ (Nat.mod_lt _ (by decide))]
    simpa using h
  rw [whole_of_ten_le h10, List.rdropWhile_concat_pos _ _ _ h0]

include hp in
/-- **What is left of a positive number denotes a positive number no larger than it.** -/
theorem value_rdropWhile_whole_le {n : Nat} (hn : 0 < n) :
    ∃ m : Nat, 0 < m ∧ m ≤ n ∧ value ((whole n).rdropWhile p) = some (m : ℚ) := by
  induction n using Nat.strong_induction_on with
  | _ n ih =>
      by_cases h : n % 10 = 0
      · have h10 : 10 ≤ n := by omega
        obtain ⟨m, hm, hle, hv⟩ := ih (n / 10) (by omega) (by omega)
        exact ⟨m, hm, by omega, by rw [rdropWhile_whole_ten hp h10 h, hv]⟩
      · exact ⟨n, hn, le_rfl, by rw [rdropWhile_whole hp h, value_whole]⟩

include hp in
/-- **A last digit 0 costs a factor of ten at least.** -/
theorem value_rdropWhile_whole_div {n : Nat} (hn : 0 < n) (h : n % 10 = 0) :
    ∃ m : Nat, 0 < m ∧ m ≤ n / 10 ∧ value ((whole n).rdropWhile p) = some (m : ℚ) := by
  have h10 : 10 ≤ n := by omega
  obtain ⟨m, hm, hle, hv⟩ := value_rdropWhile_whole_le hp (n := n / 10) (by omega)
  exact ⟨m, hm, hle, by rw [rdropWhile_whole_ten hp h10 h, hv]⟩

variable (hpoint : p '.' = true)

include hp hpoint in
/-- **Digits after the point that are all 0 go with the point, and the cut goes on before it.** -/
theorem rdropWhile_fixed_two_whole {n : Nat} (h : n % 100 = 0) :
    (fixed 2 n).rdropWhile p = (whole (n / 100)).rdropWhile p := by
  have h0 : p (Nat.digitChar 0) = true := by rw [hp 0 (by omega)]; rfl
  have e1 : n % 10 = 0 := by omega
  have e2 : n / 10 % 10 = 0 := by omega
  have e : fixed 2 n =
      whole (n / 100) ++ ['.'] ++ [Nat.digitChar 0] ++ [Nat.digitChar 0] := by
    simp [fixed, lastDigits, e1, e2]
  rw [e, List.rdropWhile_concat_pos _ _ _ h0, List.rdropWhile_concat_pos _ _ _ h0,
    List.rdropWhile_concat_pos _ _ _ hpoint]

include hp in
/-- **Otherwise the cut changes the text and not the number.** -/
theorem value_rdropWhile_fixed_two {n : Nat} (h : n % 100 ≠ 0) :
    value ((fixed 2 n).rdropWhile p) = some ((n : ℚ) / 100) := by
  have e : fixed 2 n =
      whole (n / 100) ++ '.' :: [Nat.digitChar (n / 10 % 10)] ++ [Nat.digitChar (n % 10)] := by
    simp [fixed, lastDigits]
  by_cases h1 : n % 10 = 0
  · have h2 : n / 10 % 10 ≠ 0 := by omega
    have hp1 : p (Nat.digitChar (n % 10)) = true := by
      rw [hp _ (by omega)]
      simpa using h1
    have hp2 : ¬ p (Nat.digitChar (n / 10 % 10)) = true := by
      rw [hp _ (by omega)]
      simpa using h2
    have e' : fixed 1 (n / 10) =
        whole (n / 100) ++ ['.'] ++ [Nat.digitChar (n / 10 % 10)] := by
      simp [fixed, lastDigits, Nat.div_div_eq_div_mul]
    have hmul : n = 10 * (n / 10) := by omega
    have hval : (n : ℚ) = 10 * (n / 10 : Nat) := by exact_mod_cast hmul
    rw [e, List.rdropWhile_concat_pos _ _ _ hp1, ← List.singleton_append, ← List.append_assoc,
      List.rdropWhile_concat_neg _ _ _ hp2, ← e', value_fixed, Option.some.injEq]
    linarith
  · have hp1 : ¬ p (Nat.digitChar (n % 10)) = true := by
      rw [hp _ (by omega)]
      simpa using h1
    rw [e, List.rdropWhile_concat_neg _ _ _ hp1, ← e, value_fixed]
    norm_num

include hp hpoint in
/-- **The cut keeps the number as long as the last digit before the point or one after it is
    not 0.** -/
theorem value_rdropWhile_fixed_two_of_ne {n : Nat} (h : n % 1000 ≠ 0) :
    value ((fixed 2 n).rdropWhile p) = some ((n : ℚ) / 100) := by
  by_cases h100 : n % 100 = 0
  · have hlast : n / 100 % 10 ≠ 0 := by omega
    have hmul : n = 100 * (n / 100) := by omega
    have hval : (n : ℚ) = 100 * (n / 100 : Nat) := by exact_mod_cast hmul
    rw [rdropWhile_fixed_two_whole hp hpoint h100, rdropWhile_whole hp hlast, value_whole,
      Option.some.injEq]
    linarith
  · exact value_rdropWhile_fixed_two hp h100

include hp hpoint in
/-- **A positive multiple of ten is left a tenth of itself at most.** -/
theorem value_rdropWhile_fixed_two_thousand {n : Nat} (hn : 0 < n) :
    ∃ m : Nat, m ≤ n ∧ value ((fixed 2 (1000 * n)).rdropWhile p) = some (m : ℚ) := by
  obtain ⟨m, -, hle, hv⟩ :=
    value_rdropWhile_whole_div hp (n := 1000 * n / 100) (by omega) (by omega)
  exact ⟨m, by omega, by rw [rdropWhile_fixed_two_whole hp hpoint (by omega), hv]⟩

include hp hpoint in
/-- Nothing is left of a zero. -/
theorem rdropWhile_fixed_two_zero : (fixed 2 0).rdropWhile p = [] := by
  rw [rdropWhile_fixed_two_whole hp hpoint rfl]
  exact rdropWhile_whole_zero hp

end Cut

end Decimal
