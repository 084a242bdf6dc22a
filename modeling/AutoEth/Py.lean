import Mathlib.Data.List.Infix
import AutoEth.Lib.Binary64
import AutoEth.Lib.Except

/-!
# Python values

What the catalog loader and the message code use of Python: the exceptions they raise or meet
(`PyErr`), the values a parsed YAML document is made of (`Value`) with the conversions `str`, `int`
and `float` and the mapping operations, and `str.strip`. A float of a document is its value and the
text that `str` prints for it; the arithmetic on floats is in `Floats`.
-/

namespace AutoEth

inductive PyErr where
  | valueError (msg : String)
  | typeError (msg : String)
  | keyError (msg : String)
  | indexError (msg : String)
  | attributeError (msg : String)
  | zeroDivisionError (msg : String)
  | overflowError (msg : String)
  | structError (msg : String)
  | osError (msg : String)
  | connectionError (msg : String)
  | systemExit (msg : String)
deriving DecidableEq, Repr

/-- `if p: raise e`. -/
def raiseIf (p : Prop) [Decidable p] (e : PyErr) : Except PyErr Unit :=
  if p then .error e else .ok ()

@[simp] theorem raiseIf_eq_ok {p : Prop} [Decidable p] {e : PyErr} {u : Unit} :
    raiseIf p e = .ok u ↔ ¬ p := by
  unfold raiseIf; split <;> simp_all

theorem raiseIf_neg {p : Prop} [Decidable p] {e : PyErr} (h : ¬ p) : raiseIf p e = .ok () := if_neg h

/-! ### Text -/

/-- `str.isspace` of one character. -/
def isSpace (c : Char) : Bool :=
  let n := c.toNat
  (9 ≤ n && n ≤ 13) || (28 ≤ n && n ≤ 32) || (8192 ≤ n && n ≤ 8202) ||
    [0x85, 0xa0, 0x1680, 0x2028, 0x2029, 0x202f, 0x205f, 0x3000].contains n

def stripWhile (p : Char → Bool) (l : List Char) : List Char :=
  ((l.dropWhile p).reverse.dropWhile p).reverse

def stripChars (l : List Char) : List Char := stripWhile isSpace l

/-- `s.strip()`. -/
def strip (s : String) : String := String.ofList (stripChars s.toList)

/-- What `int` and `float` skip around a number: not the separators U+001C to U+001F. -/
def numberChars (s : String) : List Char :=
  stripWhile (fun c => isSpace c && !(28 ≤ c.toNat && c.toNat ≤ 31)) s.toList

/-- The code points of the zeros of the decimal digit ranges. -/
def digitZeros : List Nat :=
  [0x30, 0x660, 0x6f0, 0x7c0, 0x966, 0x9e6, 0xa66, 0xae6, 0xb66, 0xbe6, 0xc66, 0xce6, 0xd66, 0xde6,
    0xe50, 0xed0, 0xf20, 0x1040, 0x1090, 0x17e0, 0x1810, 0x1946, 0x19d0, 0x1a80, 0x1a90, 0x1b50,
    0x1bb0, 0x1c40, 0x1c50, 0xa620, 0xa8d0, 0xa900, 0xa9d0, 0xa9f0, 0xaa50, 0xabf0, 0xff10, 0x104a0,
    0x10d30, 0x11066, 0x110f0, 0x11136, 0x111d0, 0x112f0, 0x11450, 0x114d0, 0x11650, 0x116c0,
    0x11730, 0x118e0, 0x11950, 0x11c50, 0x11d50, 0x11da0, 0x16a60, 0x16ac0, 0x16b50, 0x1d7ce,
    0x1d7d8, 0x1d7e2, 0x1d7ec, 0x1d7f6, 0x1e140, 0x1e2f0, 0x1e950, 0x1fbf0]

/-- The value of a digit in the given base. -/
def digitVal (base : Nat) (c : Char) : Option Nat :=
  let n := c.toNat
  let v :=
    match digitZeros.find? (fun z => z ≤ n && n < z + 10) with
    | some z => some (n - z)
    | none =>
      if 97 ≤ n ∧ n ≤ 122 then some (n - 87)
      else if 65 ≤ n ∧ n ≤ 90 then some (n - 55)
      else none
  v.filter (· < base)

/-- Digits with single underscores between them; `prev` says that a digit stands before. -/
def parseDigits (base : Nat) : Nat → Bool → List Char → Option Nat
  | acc, prev, [] => if prev then some acc else none
  | acc, prev, c :: cs =>
    if c = '_' then if prev then parseDigits base acc false cs else none
    else (digitVal base c).bind fun d => parseDigits base (acc * base + d) true cs

def splitSign : List Char → Bool × List Char
  | '+' :: cs => (false, cs)
  | '-' :: cs => (true, cs)
  | cs => (false, cs)

def dropUnderscore : List Char → List Char
  | '_' :: cs => cs
  | cs => cs

/-- The magnitude in `int(s, 0)`: a base prefix, or a decimal number without leading zeros. -/
def parsePrefixed : List Char → Option Nat
  | '0' :: 'x' :: cs | '0' :: 'X' :: cs => parseDigits 16 0 false (dropUnderscore cs)
  | '0' :: 'o' :: cs | '0' :: 'O' :: cs => parseDigits 8 0 false (dropUnderscore cs)
  | '0' :: 'b' :: cs | '0' :: 'B' :: cs => parseDigits 2 0 false (dropUnderscore cs)
  | '0' :: cs => (parseDigits 10 0 true cs).filter (· = 0)
  | cs => parseDigits 10 0 false cs

/-- `int(s, base)` for the two bases in use, 10 and 0. -/
def intOfString (base : Nat) (s : String) : Except PyErr Int :=
  let (neg, cs) := splitSign (numberChars s)
  match if base = 0 then parsePrefixed cs else parseDigits base 0 false cs with
  | some n => .ok (if neg then -n else n)
  | none => .error (.valueError s!"invalid literal for int() with base {base}: '{s}'")

def parseExponent (cs : List Char) : Option Int :=
  let (neg, ds) := splitSign cs
  (parseDigits 10 0 false ds).map fun n => if neg then -(n : Int) else n

/-- The value of a decimal number. -/
def parseDecimal (cs : List Char) : Option ℚ :=
  let isExp := fun c => c = 'e' || c = 'E'
  let mant := cs.takeWhile (!isExp ·)
  let int := mant.takeWhile (· ≠ '.')
  let frac := (mant.dropWhile (· ≠ '.')).drop 1
  let expo := match cs.dropWhile (!isExp ·) with
    | [] => some 0
    | _ :: ds => parseExponent ds
  let part := fun ds => if ds = [] then some 0 else parseDigits 10 0 false ds
  match part int, part frac, expo with
  | some n, some f, some e =>
    if int = [] ∧ frac = [] then none
    else some ((n + f / (10 : ℚ) ^ (frac.filter (· ≠ '_')).length) * (10 : ℚ) ^ e)
  | _, _, _ => none

/-- `float(s)`; a number too large for a float is infinite. -/
def floatOfString (s : String) : Except PyErr FloatValue :=
  let (neg, cs) := splitSign (numberChars s)
  let word := (String.ofList cs).toLower
  if word = "inf" ∨ word = "infinity" then .ok (.infinite neg)
  else if word = "nan" then .ok .nan
  else
    match parseDecimal cs with
    | some q => .ok (.ofRat (if neg then -q else q))
    | none => .error (.valueError s!"could not convert string to float: '{s}'")

example : floatOfString " -2.5e1 " = .ok (.finite (-25)) ∧ floatOfString "1e400" = .ok (.infinite false) := by
  decide +kernel

def hexDigits (n : Nat) : String := String.ofList (Nat.toDigits 16 n)

def padLeft (w : Nat) (s : String) : String :=
  String.ofList (List.replicate (w - s.length) '0') ++ s

/-- The format `0wX` for a width `w`. -/
def hexPad (w : Nat) (n : Int) : String :=
  if n < 0 then "-" ++ padLeft (w - 1) (hexDigits n.natAbs).toUpper
  else padLeft w (hexDigits n.toNat).toUpper

def hex4 (n : Int) : String := hexPad 4 n

/-- `repr` of a string. -/
def reprStr (s : String) : String :=
  let q := Char.ofNat 39
  let dq := Char.ofNat 34
  let quote := if s.toList.contains q && !s.toList.contains dq then dq else q
  let esc (c : Char) : String :=
    if c = quote || c = '\\' then String.ofList ['\\', c]
    else if c = '\n' then "\\n" else if c = '\r' then "\\r" else if c = '\t' then "\\t"
    else if c.toNat < 32 || (127 ≤ c.toNat && c.toNat ≤ 160) || c.toNat = 173 then
      "\\x" ++ padLeft 2 (hexDigits c.toNat)
    else c.toString
  quote.toString ++ String.join (s.toList.map esc) ++ quote.toString

/-- `repr` of a list of strings. -/
def reprStrs (l : List String) : String := "[" ++ ", ".intercalate (l.map reprStr) ++ "]"

/-! ### Values -/

inductive Value where
  | null
  | bool (b : Bool)
  | int (n : Int)
  | float (x : FloatValue) (text : String)
  | str (s : String)
  | list (items : List Value)
  | dict (items : List (String × Value))

namespace Value

def typeName : Value → String
  | null => "NoneType"
  | bool _ => "bool"
  | int _ => "int"
  | float _ _ => "float"
  | str _ => "str"
  | list _ => "list"
  | dict _ => "dict"

/-- `bool(v)`. -/
def truthy : Value → Bool
  | null => false
  | bool b => b
  | int n => n ≠ 0
  | float x _ => x ≠ .finite 0
  | str s => s ≠ ""
  | list items => !items.isEmpty
  | dict items => !items.isEmpty

mutual

/-- `repr(v)`. -/
def repr : Value → String
  | null => "None"
  | bool b => if b then "True" else "False"
  | int n => toString n
  | float _ text => text
  | str s => reprStr s
  | list items => "[" ++ ", ".intercalate (reprItems items) ++ "]"
  | dict items => "\x7b" ++ ", ".intercalate (reprPairs items) ++ "\x7d"

def reprItems : List Value → List String
  | [] => []
  | v :: vs => repr v :: reprItems vs

def reprPairs : List (String × Value) → List String
  | [] => []
  | (k, v) :: kvs => (reprStr k ++ ": " ++ repr v) :: reprPairs kvs

end

/-- `str(v)`. -/
def toStr : Value → String
  | str s => s
  | v => repr v

/-- `int(v)`. -/
def toInt : Value → Except PyErr Int
  | bool b => .ok (if b then 1 else 0)
  | int n => .ok n
  | float (.finite q) _ => .ok (q.num.tdiv q.den)
  | float (.infinite _) _ => .error (.overflowError "cannot convert float infinity to integer")
  | float .nan _ => .error (.valueError "cannot convert float NaN to integer")
  | str s => intOfString 10 s
  | v => .error (.typeError <| "int() argument must be a string, a bytes-like object or a real " ++
      s!"number, not '{v.typeName}'")

/-- `float(v)`. -/
def toFloat : Value → Except PyErr FloatValue
  | bool b => .ok (.finite (if b then 1 else 0))
  | int n =>
    if FloatValue.bound ≤ n.natAbs then .error (.overflowError "int too large to convert to float")
    else .ok (.finite n)
  | float x _ => .ok x
  | str s => floatOfString s
  | v => .error (.typeError <| "float() argument must be a string or a real number, not " ++
      s!"'{v.typeName}'")

/-- `v or {}`. -/
def orEmpty (v : Value) : Value := if v.truthy then v else dict []

/-- `v.get(key)`, or `none` where the key is missing. -/
def get? (v : Value) (key : String) : Except PyErr (Option Value) :=
  match v with
  | dict items => .ok (items.lookup key)
  | v => .error (.attributeError s!"'{v.typeName}' object has no attribute 'get'")

/-- `v.get(key, dflt)`. -/
def getD (v : Value) (key : String) (dflt : Value) : Except PyErr Value := do
  return (← v.get? key).getD dflt

/-- `v[key]`. -/
def item (v : Value) (key : String) : Except PyErr Value :=
  match v with
  | dict items =>
    match items.lookup key with
    | some w => .ok w
    | none => .error (.keyError key)
  | str _ => .error (.typeError "string indices must be integers")
  | list _ => .error (.typeError "list indices must be integers or slices, not str")
  | v => .error (.typeError s!"'{v.typeName}' object is not subscriptable")

/-- `key in v`. -/
def contains (v : Value) (key : String) : Except PyErr Bool :=
  match v with
  | dict items => .ok (items.lookup key).isSome
  | str s => .ok (decide (key.toList <:+: s.toList))
  | list items => .ok (items.any fun | str s => s = key | _ => false)
  | v => .error (.typeError s!"argument of type '{v.typeName}' is not iterable")

/-- The values a `for` over `v` goes through. -/
def iter : Value → Except PyErr (List Value)
  | list items => .ok items
  | dict items => .ok (items.map fun kv => str kv.1)
  | str s => .ok (s.toList.map fun c => str c.toString)
  | v => .error (.typeError s!"'{v.typeName}' object is not iterable")

theorem getD_eq_ok {v : Value} {key : String} {dflt w : Value} :
    v.getD key dflt = .ok w ↔ ∃ items, v = dict items ∧ (items.lookup key).getD dflt = w := by
  unfold getD
  rw [Except.bind_eq_ok]
  cases v <;> simp [get?]

theorem truthy_of_toInt_pos {v : Value} {n : Int} (h : v.toInt = .ok n) (hpos : 0 < n) :
    v.truthy = true := by
  cases v with
  | null => cases h
  | bool b =>
    cases b with
    | true => rfl
    | false => cases h; exact absurd hpos (by decide)
  | int k =>
    cases h
    have hn : n ≠ 0 := by omega
    simpa [truthy] using hn
  | float x text =>
    cases x with
    | finite q =>
      cases h
      have hq : q ≠ 0 := by
        rintro rfl
        exact absurd hpos (by decide)
      simpa [truthy] using hq
    | infinite neg => cases h
    | nan => cases h
  | str s =>
    have hs : s ≠ "" := by
      rintro rfl
      have herr : (intOfString 10 "").isOk = false := by decide
      rw [toInt] at h
      rw [h] at herr
      cases herr
    simpa [truthy] using hs
  | list items => cases h
  | dict items => cases h

end Value

end AutoEth
