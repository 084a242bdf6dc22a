import AutoEth.Lib.Round
import AutoEth.Py
import Mathlib.Data.Rat.Floor

/-!
# Float arithmetic

The code computes with Python floats. `FloatArith V` is what it uses of them, so that the codec and
the handlers are the same definitions over two kinds of numbers: `Float`, where every operation
rounds, may overflow to an infinity and may give no number, as in the code; and the exact rationals,
where nothing rounds and an infinity cannot be read. What holds over every `V` holds of the code's own
arithmetic; what rests on exactness is stated over `ℚ`.
-/

namespace AutoEth

class FloatArith (V : Type) where
  zero : V
  ofInt : Int → V
  add : V → V → V
  sub : V → V → V
  mul : V → V → V
  div : V → V → V
  isZero : V → Bool
  /-- `int(round(x))`. -/
  roundInt : V → Except PyErr Int
  /-- A float that was read. -/
  ofValue : FloatValue → Except PyErr V

namespace FloatArith

/-- `int(round(x))` of a float. -/
def roundValue : FloatValue → Except PyErr Int
  | .finite q => .ok (roundHalfEven q)
  | .infinite _ => .error (.overflowError "cannot convert float infinity to integer")
  | .nan => .error (.valueError "cannot convert float NaN to integer")

instance : FloatArith Float where
  zero := FloatValue.toFloat (.finite 0)
  ofInt n := FloatValue.toFloat (.finite n)
  add x y := x + y
  sub x y := x - y
  mul x y := x * y
  div x y := x / y
  isZero x := FloatValue.ofFloat x = .finite 0
  roundInt x := roundValue (FloatValue.ofFloat x)
  ofValue x := .ok x.toFloat

/-- Exact arithmetic. The only float that it does not take is one that is infinite or no number. -/
@[default_instance] instance : FloatArith ℚ where
  zero := 0
  ofInt n := n
  add x y := x + y
  sub x y := x - y
  mul x y := x * y
  div x y := x / y
  isZero x := x = 0
  roundInt x := .ok (roundHalfEven x)
  ofValue
    | .finite q => .ok q
    | .infinite _ => .error (.overflowError "no exact value for an infinity")
    | .nan => .error (.valueError "no exact value for NaN")

end FloatArith

/-- `float(v)`. -/
def Value.toNum {V : Type} [FloatArith V] (v : Value) : Except PyErr V :=
  v.toFloat.bind FloatArith.ofValue

end AutoEth
