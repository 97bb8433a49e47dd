/-
  File:      CryptoWallet/Swift/Double.lean
  Subject:   Swift's `Double`, as far as the app computes with it.

  * `SwiftDouble F`: the arithmetic the code applies to Doubles. The code is modelled for any
    `F`; the results read Doubles as exact rationals (`ℚ`) or as `Double` below.
  * `Double`: exact rationals with the infinities and NaN of IEEE 754, under its rules for
    them. Zero is unsigned: nothing in the app tells `-0.0` from `0.0`.
  * `DoubleText F`: the conversions `Double(text)` and `"\(value)"`. Swift prints a Double so
    that it reads back as the same value; the structure carries that law.
  * `zeroThrough upper`: the range `0...upper`, whose creation is a runtime error below 0.
-/
import Mathlib.Data.Rat.Defs
import Mathlib.Algebra.Order.Field.Rat
import Mathlib.Algebra.Order.Group.Unbundled.Abs

namespace CryptoWallet

/-- The arithmetic the code applies to Doubles. -/
class SwiftDouble (F : Type) extends Zero F, One F, Add F, Sub F, Mul F, Div F where
  /-- `abs(_:)` -/
  abs : F → F
  /-- `<` -/
  lt : F → F → Bool

/-- Doubles read as exact rationals. -/
instance : SwiftDouble ℚ where
  abs x := |x|
  lt x y := decide (x < y)

/-! ## 1. Doubles with infinities and NaN -/

/-- A Double: a finite value, an infinity, or NaN. -/
inductive Double where
  | finite (value : ℚ)
  | infinity (negative : Bool)
  | nan
  deriving DecidableEq, Repr

namespace Double

/-- A finite number above zero. -/
def FinitePositive (x : Double) : Prop := ∃ q : ℚ, x = finite q ∧ 0 < q

/-- `x.isFinite` -/
def isFinite : Double → Bool
  | finite _ => true
  | _ => false

/-- The infinity of the sign of `q`. -/
def signed (q : ℚ) : Double := infinity (decide (q < 0))

def add : Double → Double → Double
  | finite a, finite b => finite (a + b)
  | finite _, infinity n => infinity n
  | infinity n, finite _ => infinity n
  | infinity n, infinity m => if n = m then infinity n else nan
  | _, _ => nan

def neg : Double → Double
  | finite a => finite (-a)
  | infinity n => infinity (!n)
  | nan => nan

def mul : Double → Double → Double
  | finite a, finite b => finite (a * b)
  | finite a, infinity n => if a = 0 then nan else infinity (n != decide (a < 0))
  | infinity n, finite b => if b = 0 then nan else infinity (n != decide (b < 0))
  | infinity n, infinity m => infinity (n != m)
  | _, _ => nan

def div : Double → Double → Double
  | finite a, finite b => if b = 0 then (if a = 0 then nan else signed a) else finite (a / b)
  | finite _, infinity _ => finite 0
  | infinity n, finite b => infinity (n != decide (b < 0))
  | _, _ => nan

/-- `<`: false when either side is NaN. -/
def lt : Double → Double → Bool
  | finite a, finite b => decide (a < b)
  | finite _, infinity n => !n
  | infinity n, finite _ => n
  | infinity n, infinity m => n && !m
  | _, _ => false

/-- `==`: false when either side is NaN. -/
def eq : Double → Double → Bool
  | finite a, finite b => decide (a = b)
  | infinity n, infinity m => n == m
  | _, _ => false

/-- `<=` -/
def le (x y : Double) : Bool := lt x y || eq x y

instance : SwiftDouble Double where
  zero := finite 0
  one := finite 1
  add := add
  sub x y := add x (neg y)
  mul := mul
  div := div
  abs x := if lt x (finite 0) then neg x else x
  lt := lt

@[simp] theorem finite_add (a b : ℚ) : finite a + finite b = finite (a + b) := rfl
@[simp] theorem finite_mul (a b : ℚ) : finite a * finite b = finite (a * b) := rfl

theorem finite_div {a b : ℚ} (hb : b ≠ 0) : finite a / finite b = finite (a / b) := by
  show div (finite a) (finite b) = _
  simp [div, hb]

end Double

/-! ## 2. Texts and ranges -/

/-- **The text conversions of `Double`**: `Double(text)`, `none` where it is nil, and
    `"\(value)"`. A printed value reads back as itself. -/
structure DoubleText (F : Type) where
  ofText : String → Option F
  toText : F → String
  ofText_toText : ∀ v, ofText (toText v) = some v

attribute [simp] DoubleText.ofText_toText

/-- The range `0...upper`; creating it is a runtime error (`none`) when `upper` is below 0. -/
def zeroThrough (upper : Int) : Option (List Nat) :=
  if 0 ≤ upper then some (List.range (upper.toNat + 1)) else none

@[simp] theorem zeroThrough_count (n : Nat) :
    zeroThrough ((n : Int) - 1) = if n = 0 then none else some (List.range n) := by
  cases n with
  | zero => rfl
  | succ n => simp [zeroThrough]

end CryptoWallet
