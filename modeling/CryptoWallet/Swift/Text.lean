/-
  File:      CryptoWallet/Swift/Text.lean
  Subject:   `Double(text)` and `"\(value)"` as functions one can run.

  * `exactText`: the conversions for Doubles read as exact rationals; `DecimalText` and
    `SwiftText` are what the values of the wallet rest on.
  * `doubleText`: the conversions for `Double`, with "inf", "infinity", "nan" in either case,
    and infinity for a decimal too large for a Double.

  A decimal text is read as Swift reads it. A rational number with no short decimal text stands
  for no Double, so no Swift text exists for it: it is written as a fraction `n/d`. Hexadecimal
  texts and NaN payloads are left out.
-/
import CryptoWallet.Library.Decimal
import CryptoWallet.Swift.Double

namespace CryptoWallet

open Decimal

/-- The text of an integer. -/
def intText (z : Int) : List Char :=
  if z < 0 then '-' :: whole z.natAbs else whole z.natAbs

/-- The text `n/d`. -/
def fractionText (q : ℚ) : List Char := intText q.num ++ '/' :: whole q.den

/-- An integer as `n.0`, every other rational as a fraction. -/
def ratText (q : ℚ) : List Char :=
  if q.den = 1 then intText q.num ++ ['.', '0'] else fractionText q

/-- The number of a text `n/d`. -/
def ratio (cs : List Char) : Option ℚ :=
  match signedNatural (cs.takeWhile (· ≠ '/')), natural (cs.dropWhile (· ≠ '/')).tail with
  | some n, some d => some ((n : ℚ) / d)
  | _, _ => none

theorem natural_whole (n : Nat) : natural (whole n) = some n := by
  rw [natural, if_pos ⟨whole_ne_nil n, all_isDigit_whole n⟩, ofDigits_whole]

/-- A text of an integer is a sign or nothing, then its digits. -/
theorem intText_cases (z : Int) :
    (0 ≤ z ∧ intText z = whole z.natAbs) ∨ (z < 0 ∧ intText z = '-' :: whole z.natAbs) := by
  unfold intText
  split
  · exact Or.inr ⟨‹_›, rfl⟩
  · exact Or.inl ⟨by omega, rfl⟩

theorem signedNatural_intText (z : Int) : signedNatural (intText z) = some z := by
  rcases intText_cases z with ⟨hz, e⟩ | ⟨hz, e⟩ <;> rw [e]
  · obtain ⟨c, cs, hc, hd⟩ := whole_head z.natAbs
    have hm : c ≠ '-' := fun h => by rw [h] at hd; exact absurd hd (by decide)
    have hp : c ≠ '+' := fun h => by rw [h] at hd; exact absurd hd (by decide)
    have hn := natural_whole z.natAbs
    rw [hc] at hn ⊢
    unfold signedNatural
    split
    · rename_i heq; exact absurd (List.cons.inj heq).1 hm
    · rename_i heq; exact absurd (List.cons.inj heq).1 hp
    · rw [hn]
      simp only [Option.map_some, Option.some.injEq]
      omega
  · show (natural (whole z.natAbs)).map (fun n : Nat => -(n : Int)) = some z
    rw [natural_whole]
    simp only [Option.map_some, Option.some.injEq]
    omega

theorem value_intText_point (z : Int) : value (intText z ++ ['.', '0']) = some (z : ℚ) := by
  have h0 : ofDigits ['0'] = 0 := by decide
  have key : magnitude (whole z.natAbs ++ '.' :: ['0']) = some (z.natAbs : ℚ) := by
    rw [magnitude_point (whole_ne_nil _) (all_isDigit_whole _) (by decide), ofDigits_append, h0]
    simp
  rcases intText_cases z with ⟨hz, e⟩ | ⟨hz, e⟩ <;> rw [e]
  · rw [value_of_digit (whole_ne_nil _) (all_isDigit_whole _), key]
    simp [abs_of_nonneg hz]
  · show (magnitude (whole z.natAbs ++ '.' :: ['0'])).map (fun q => -q) = some (z : ℚ)
    rw [key]
    simp [abs_of_neg hz]

theorem value_intText (z : Int) : value (intText z) = some (z : ℚ) := by
  rcases intText_cases z with ⟨hz, e⟩ | ⟨hz, e⟩ <;> rw [e]
  · rw [value_whole]
    simp [abs_of_nonneg hz]
  · obtain ⟨c, cs, hc, hd⟩ := whole_head z.natAbs
    rw [hc, value_minus hd, ← hc, value_whole]
    simp [abs_of_neg hz]

theorem magnitude_fraction (n d : Nat) : magnitude (whole n ++ '/' :: whole d) = none := by
  obtain ⟨h1, h2⟩ := takeWhile_digits ('/' :: whole d) (all_isDigit_whole n) (by simp)
  simp [magnitude, h1, h2, fraction, exponent, whole_ne_nil]

/-- A fraction is no decimal text. -/
theorem value_fractionText (q : ℚ) : value (fractionText q) = none := by
  unfold fractionText
  rcases intText_cases q.num with ⟨_, e⟩ | ⟨_, e⟩ <;> rw [e]
  · rw [value_of_digit (whole_ne_nil _) (all_isDigit_whole _), magnitude_fraction]
  · show (magnitude (whole q.num.natAbs ++ '/' :: whole q.den)).map (fun q => -q) = none
    rw [magnitude_fraction]
    rfl

theorem no_slash {n : Nat} {c : Char} (h : c ∈ whole n) : decide (c ≠ '/') = true := by
  have hd := List.all_eq_true.mp (all_isDigit_whole n) c h
  refine decide_eq_true fun e => ?_
  rw [e] at hd
  exact absurd hd (by decide)

theorem ratio_fractionText (q : ℚ) : ratio (fractionText q) = some q := by
  have hall : ∀ c ∈ intText q.num, decide (c ≠ '/') = true := by
    intro c hc
    rcases intText_cases q.num with ⟨_, e⟩ | ⟨_, e⟩ <;> rw [e] at hc
    · exact no_slash hc
    · rcases List.mem_cons.mp hc with rfl | hc
      · decide
      · exact no_slash hc
  have h1 : (fractionText q).takeWhile (· ≠ '/') = intText q.num := by
    rw [fractionText, List.takeWhile_append_of_pos hall]
    simp
  have h2 : (fractionText q).dropWhile (· ≠ '/') = '/' :: whole q.den := by
    rw [fractionText, List.dropWhile_append_of_pos hall]
    simp
  unfold ratio
  rw [h1, h2, signedNatural_intText, List.tail_cons, natural_whole]
  simp [Rat.num_div_den]

/-- **The conversions for Doubles read as exact rationals.** -/
def exactText : DoubleText ℚ where
  ofText s := (value s.toList).or (ratio s.toList)
  toText q := String.ofList (ratText q)
  ofText_toText q := by
    simp only [String.toList_ofList, ratText]
    split
    · rename_i h
      rw [value_intText_point, Option.some_or, Rat.coe_int_num_of_den_eq_one h]
    · rw [value_fractionText, ratio_fractionText, Option.none_or]

/-- Conversions for exact rationals that read a decimal text as the number it denotes, and no
    number from the empty text. -/
structure DecimalText extends DoubleText ℚ where
  ofText_decimal : ∀ s q, value s.toList = some q → ofText s = some q
  ofText_empty : ofText "" = none

def exactDecimalText : DecimalText where
  toDoubleText := exactText
  ofText_decimal s q h := by
    show (value s.toList).or (ratio s.toList) = some q
    rw [h, Option.some_or]
  ofText_empty := by decide

/-- Decimal conversions that write zero as Swift does, and read no number from a minus alone. -/
structure SwiftText extends DecimalText where
  toText_zero : toText 0 = "0.0"
  ofText_minus : ofText "-" = none

def exactSwiftText : SwiftText where
  toDecimalText := exactDecimalText
  toText_zero := by decide
  ofText_minus := by decide

example : exactText.toText 15 = "15.0" := by decide
example : exactText.ofText "12.50" = some (25 / 2) := by decide +kernel

/-! ## Infinities and NaN -/

/-- The sign of a text and the rest of it. -/
def signOf : List Char → Bool × List Char
  | '-' :: cs => (true, cs)
  | '+' :: cs => (false, cs)
  | cs => (false, cs)

/-- The names of the values that are not finite, in either case. -/
def nonFinite (cs : List Char) : Option Double :=
  let (negative, name) := signOf cs
  if name.map Char.toLower = "nan".toList then some .nan
  else if name.map Char.toLower = "inf".toList ∨ name.map Char.toLower = "infinity".toList then
    some (.infinity negative)
  else none

/-- From here on a decimal rounds to infinity: half a unit in the last place above the largest
    finite Double. -/
def overflow : ℚ := 2 ^ 1024 - 2 ^ 970

theorem nonFinite_of_digit {c : Char} {cs : List Char} (pre : List Char) (hc : c.isDigit = true)
    (hpre : pre = [] ∨ pre = ['-']) : nonFinite (pre ++ c :: cs) = none := by
  have hm : c ≠ '-' := fun h => by rw [h] at hc; exact absurd hc (by decide)
  have hp : c ≠ '+' := fun h => by rw [h] at hc; exact absurd hc (by decide)
  have hname : (signOf (pre ++ c :: cs)).2 = c :: cs := by
    rcases hpre with rfl | rfl
    · simp only [List.nil_append]
      unfold signOf
      split
      · rename_i heq; exact absurd (List.cons.inj heq).1 hm
      · rename_i heq; exact absurd (List.cons.inj heq).1 hp
      · rfl
    · rfl
  have hlow : c.toLower = c := by
    unfold Char.isDigit at hc
    unfold Char.toLower
    simp only [Bool.and_eq_true, decide_eq_true_eq] at hc
    split
    · rename_i h
      exfalso
      have h1 := hc.2
      have h2 := h.1
      simp only [UInt32.le_iff_toNat_le] at h1 h2
      exact absurd (Nat.le_trans h2 h1) (by decide)
    · rfl
  have hn : c ≠ 'n' := fun h => by rw [h] at hc; exact absurd hc (by decide)
  have hi : c ≠ 'i' := fun h => by rw [h] at hc; exact absurd hc (by decide)
  simp [nonFinite, hname, hlow, hn, hi]

theorem nonFinite_intText (z : Int) (cs : List Char) : nonFinite (intText z ++ cs) = none := by
  obtain ⟨c, ds, hw, hd⟩ := whole_head z.natAbs
  rcases intText_cases z with ⟨_, e⟩ | ⟨_, e⟩ <;> rw [e, hw]
  · exact nonFinite_of_digit [] hd (Or.inl rfl)
  · exact nonFinite_of_digit ['-'] hd (Or.inr rfl)

/-- The Double a decimal denotes. -/
def ofDecimal (q : ℚ) : Double :=
  if overflow ≤ |q| then Double.signed q else .finite q

/-- The text of a finite value: the fraction where the decimal would read as an infinity. -/
def finiteText (q : ℚ) : List Char := if overflow ≤ |q| then fractionText q else ratText q

/-- **The conversions of `Double`.** -/
def doubleText : DoubleText Double where
  ofText s :=
    (nonFinite s.toList).or (((value s.toList).map ofDecimal).or ((ratio s.toList).map .finite))
  toText
    | .finite q => String.ofList (finiteText q)
    | .infinity false => "inf"
    | .infinity true => "-inf"
    | .nan => "nan"
  ofText_toText v := by
    cases v with
    | infinity n => cases n <;> decide
    | nan => decide
    | finite q =>
        have hf : nonFinite (fractionText q) = none := nonFinite_intText _ _
        simp only [String.toList_ofList, finiteText]
        split
        · rw [hf, value_fractionText, ratio_fractionText]
          rfl
        · rename_i hsmall
          unfold ratText
          split
          · rename_i h
            rw [nonFinite_intText, value_intText_point, Rat.coe_int_num_of_den_eq_one h]
            simp [ofDecimal, hsmall]
          · rw [hf, value_fractionText, ratio_fractionText]
            rfl

example : doubleText.ofText "Infinity" = some (.infinity false) := by decide
example : doubleText.ofText "1e400" = some (.infinity false) := by decide +kernel

end CryptoWallet
