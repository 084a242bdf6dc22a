import Mathlib.Algebra.Order.Group.Unbundled.Abs
import Mathlib.Algebra.Order.Ring.Rat
import Mathlib.Tactic.NormNum

/-!
# Double-precision numbers by their values

Lean's `Float` is the binary64 format with the IEEE operations. `FloatValue` says what a number of
that format stands for: a rational number, an infinity, or no number. `FloatValue.ofFloat` reads a
`Float`, `FloatValue.toFloat` rounds to the nearest one, ties to even; both reduce in the kernel.
-/

open Float.Model (UnpackedFloat)

inductive FloatValue where
  | finite (q : ℚ)
  | infinite (neg : Bool)
  | nan
deriving DecidableEq

namespace FloatValue

def signOf (neg : Bool) : UnpackedFloat.Sign := if neg = true then .negative else .positive

def ofFloat (x : Float) : FloatValue :=
  match x.toModel.unpack with
  | .notANumber => nan
  | .infinity s => infinite (s == .negative)
  | .zero _ => finite 0
  | .finite s m e _ => finite (s.apply m * 2 ^ e)

/-- The nearest `Float`. The quotient of numerator and denominator is rounded once. -/
def toFloat : FloatValue → Float
  | nan => .ofModel (.pack .notANumber)
  | infinite neg => .ofModel (.pack (.infinity (signOf neg)))
  | finite q =>
    if h : q.num = 0 then .ofModel (.pack (.zero .positive))
    else .ofModel (.pack (.div .binary64
      (.finite (signOf (q.num < 0)) q.num.natAbs 0 (Int.natAbs_pos.2 h)) (.finite .positive q.den 0 q.pos)))

example : ofFloat (toFloat (finite (1 / 10))) = finite (3602879701896397 / 36028797018963968) := by
  decide +kernel

/-- The least magnitude that rounds to infinity, `2 ^ 1024 - 2 ^ 970`. -/
def bound : ℕ := (2 ^ 128) ^ 8 - (2 ^ 97) ^ 10

/-- The value of a decimal text: finite unless it rounds to infinity. -/
def ofRat (q : ℚ) : FloatValue := if (bound : ℚ) ≤ |q| then infinite (q < 0) else finite q

/-- The bound is where rounding turns to infinity. -/
example : ofFloat (toFloat (finite bound)) = infinite false ∧
    ofFloat (toFloat (finite (bound - 1))) = finite (2 ^ 1024 - 2 ^ 971) := by decide +kernel

end FloatValue
