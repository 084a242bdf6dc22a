import AutoEth.Lib.BigEndian
import Mathlib.Algebra.Polynomial.Degree.Lemmas
import Mathlib.Algebra.Polynomial.Eval.Degree
import Mathlib.Algebra.CharP.Two
import Mathlib.Algebra.Field.ZMod

/-!
# Bit strings as polynomials over GF(2)

`poly n` is the polynomial whose coefficients are the bits of `n`: exclusive or is addition
(`poly_xor`), a shift to the left is multiplication by a power of `X` (`poly_shiftLeft`). A byte string
is read as the polynomial of `BigEndian.decode`, so the most significant bit of its first byte is the
leading coefficient. `setBits bs` are the positions of its bits that are set, counted from that end;
`poly_decode_eq_sum` is the polynomial as a sum over them.
-/

namespace Gf2
open Polynomial

noncomputable def poly (n : Nat) : (ZMod 2)[X] :=
  ∑ i ∈ Finset.range n, if n.testBit i then X ^ i else 0

theorem coeff_poly (n i : Nat) : (poly n).coeff i = if n.testBit i then 1 else 0 := by
  have hterm (j : Nat) : (if n.testBit j then (X : (ZMod 2)[X]) ^ j else 0).coeff i =
      if i = j then (if n.testBit i then 1 else 0) else 0 := by
    by_cases hij : i = j
    · subst hij
      rw [if_pos rfl]
      split_ifs
      · rw [coeff_X_pow, if_pos rfl]
      · exact coeff_zero i
    · rw [if_neg hij]
      split_ifs
      · rw [coeff_X_pow, if_neg hij]
      · exact coeff_zero i
  rw [poly, finsetSum_coeff, Finset.sum_congr rfl fun j _ => hterm j, Finset.sum_ite_eq]
  split_ifs with hmem hbit hbit
  · rfl
  · rfl
  · -- the bits from `n` on are clear
    have hlt : n < 2 ^ i := n.lt_two_pow_self.trans_le
      (Nat.pow_le_pow_right (by decide) (by simpa using hmem))
    rw [Nat.testBit_lt_two_pow hlt] at hbit
    cases hbit
  · rfl

theorem poly_injective : Function.Injective poly := by
  intro a b h
  refine Nat.eq_of_testBit_eq fun i => ?_
  have hi := congrArg (fun p : (ZMod 2)[X] => p.coeff i) h
  simp only [coeff_poly] at hi
  cases ha : a.testBit i <;> cases hb : b.testBit i <;> simp [ha, hb] at hi ⊢

@[simp] theorem poly_zero : poly 0 = 0 := rfl

@[simp] theorem poly_two_pow (k : Nat) : poly (2 ^ k) = X ^ k := by
  ext i
  rw [coeff_poly, coeff_X_pow, Nat.testBit_two_pow]
  simp [eq_comm]

@[simp] theorem poly_one : poly 1 = 1 := by simpa using poly_two_pow 0

theorem poly_xor (a b : Nat) : poly (a ^^^ b) = poly a + poly b := by
  ext i
  rw [coeff_add, coeff_poly, coeff_poly, coeff_poly, Nat.testBit_xor]
  cases a.testBit i <;> cases b.testBit i <;> decide

theorem poly_shiftLeft (a k : Nat) : poly (a <<< k) = poly a * X ^ k := by
  ext i
  rw [coeff_mul_X_pow', coeff_poly, coeff_poly, Nat.testBit_shiftLeft]
  by_cases h : k ≤ i
  · simp [h]
  · simp [h]

theorem degree_poly_lt {n w : Nat} (h : n < 2 ^ w) : (poly n).degree < w := by
  rw [degree_lt_iff_coeff_zero]
  intro m hm
  have hlt : n < 2 ^ m := h.trans_le (Nat.pow_le_pow_right (by decide) hm)
  rw [coeff_poly, Nat.testBit_lt_two_pow hlt]
  rfl

/-! ### Byte strings -/

theorem xor_eq_add {k b : Nat} (h : b < 2 ^ k) (a : Nat) : (a <<< k) ^^^ b = a * 2 ^ k + b := by
  rw [← Nat.shiftLeft_eq, Nat.shiftLeft_add_eq_or_of_lt h]
  refine Nat.eq_of_testBit_eq fun i => ?_
  rw [Nat.testBit_xor, Nat.testBit_or, Nat.testBit_shiftLeft]
  by_cases hi : k ≤ i
  · rw [Nat.testBit_lt_two_pow (h.trans_le (Nat.pow_le_pow_right (by decide) hi))]
    simp
  · simp [hi]

theorem decode_lt_two_pow (bs : Bytes) : BigEndian.decode bs < 2 ^ (8 * bs.length) := by
  rw [pow_mul]
  exact BigEndian.decode_lt bs

theorem decode_cons (b : UInt8) (bs : Bytes) :
    BigEndian.decode (b :: bs) = (b.toNat <<< (8 * bs.length)) ^^^ BigEndian.decode bs := by
  rw [xor_eq_add (decode_lt_two_pow bs), BigEndian.decode_cons, pow_mul]
  rfl

theorem poly_decode_cons (b : UInt8) (bs : Bytes) :
    poly (BigEndian.decode (b :: bs)) =
      poly b.toNat * X ^ (8 * bs.length) + poly (BigEndian.decode bs) := by
  rw [decode_cons, poly_xor, poly_shiftLeft]

/-- The bytes of `b` combined with those of `a` by exclusive or. -/
def xorBytes (a b : Bytes) : Bytes := List.zipWith (· ^^^ ·) a b

theorem poly_decode_xorBytes {a b : Bytes} (h : a.length = b.length) :
    poly (BigEndian.decode (xorBytes a b)) =
      poly (BigEndian.decode a) + poly (BigEndian.decode b) := by
  induction a generalizing b with
  | nil =>
    obtain rfl := List.length_eq_zero_iff.1 h.symm
    simp [xorBytes, BigEndian.decode]
  | cons c a ih =>
    cases b with
    | nil => cases h
    | cons d b =>
      have hlen : a.length = b.length := Nat.succ.inj h
      have hxor : xorBytes (c :: a) (d :: b) = (c ^^^ d) :: xorBytes a b := rfl
      have hlen' : (xorBytes a b).length = a.length := by simp [xorBytes, hlen]
      rw [hxor, poly_decode_cons, ih hlen, poly_decode_cons, poly_decode_cons, UInt8.toNat_xor, poly_xor,
        hlen', hlen]
      ring

/-! ### Bits of a byte string -/

/-- The bit at position `i`, the most significant bit of each byte first. -/
def bit (bs : Bytes) (i : Nat) : Bool := (bs.getD (i / 8) 0).toNat.testBit (7 - i % 8)

/-- The positions of the bits that are set. -/
def setBits (bs : Bytes) : Finset Nat := (Finset.range (8 * bs.length)).filter fun i => bit bs i

theorem mem_setBits {bs : Bytes} {i : Nat} : i ∈ setBits bs ↔ i < 8 * bs.length ∧ bit bs i = true := by
  rw [setBits, Finset.mem_filter, Finset.mem_range]

theorem testBit_decode {bs : Bytes} {i : Nat} (h : i < 8 * bs.length) :
    (BigEndian.decode bs).testBit (8 * bs.length - 1 - i) = bit bs i := by
  induction bs generalizing i with
  | nil => simp at h
  | cons b bs ih =>
    rw [List.length_cons] at h
    rw [decode_cons, Nat.testBit_xor, Nat.testBit_shiftLeft, List.length_cons]
    by_cases hi : i < 8
    · -- the bit lies in the first byte
      have hlow : (BigEndian.decode bs).testBit (8 * (bs.length + 1) - 1 - i) = false :=
        Nat.testBit_lt_two_pow ((decode_lt_two_pow bs).trans_le
          (Nat.pow_le_pow_right (by decide) (by omega)))
      have hdiv : i / 8 = 0 := by omega
      have hmod : 8 * (bs.length + 1) - 1 - i - 8 * bs.length = 7 - i % 8 := by omega
      have hge : 8 * (bs.length + 1) - 1 - i ≥ 8 * bs.length := by omega
      rw [hlow, hmod, bit, hdiv, List.getD_cons_zero]
      simp [hge]
    · have hrest := ih (i := i - 8) (by omega)
      have hdiv : i / 8 = (i - 8) / 8 + 1 := by omega
      have hpos : 8 * bs.length - 1 - (i - 8) = 8 * (bs.length + 1) - 1 - i := by omega
      have hmod : (i - 8) % 8 = i % 8 := by omega
      have hge : ¬ 8 * (bs.length + 1) - 1 - i ≥ 8 * bs.length := by omega
      rw [bit, hmod, hpos] at hrest
      rw [hrest, bit, hdiv, List.getD_cons_succ]
      simp [hge]

/-- The polynomial of a byte string, one term for each bit that is set. -/
theorem poly_decode_eq_sum (bs : Bytes) :
    poly (BigEndian.decode bs) = ∑ i ∈ setBits bs, X ^ (8 * bs.length - 1 - i) := by
  ext m
  rw [coeff_poly, finsetSum_coeff]
  simp only [coeff_X_pow]
  by_cases hm : m < 8 * bs.length
  · have hterm : ∀ i ∈ setBits bs, (if m = 8 * bs.length - 1 - i then (1 : ZMod 2) else 0) =
        if 8 * bs.length - 1 - m = i then 1 else 0 := by
      intro i hi
      have := (mem_setBits.1 hi).1
      refine if_congr ?_ rfl rfl
      omega
    rw [Finset.sum_congr rfl hterm, Finset.sum_ite_eq]
    have hpos : 8 * bs.length - 1 - (8 * bs.length - 1 - m) = m := by omega
    have hbit := testBit_decode (show 8 * bs.length - 1 - m < 8 * bs.length by omega)
    rw [hpos] at hbit
    rw [hbit]
    refine if_congr ?_ rfl rfl
    rw [mem_setBits]
    exact ⟨fun h => ⟨by omega, h⟩, fun h => h.2⟩
  · have hclear : (BigEndian.decode bs).testBit m = false :=
      Nat.testBit_lt_two_pow ((decode_lt_two_pow bs).trans_le
        (Nat.pow_le_pow_right (by decide) (by omega)))
    rw [hclear, if_neg Bool.false_ne_true, eq_comm]
    refine Finset.sum_eq_zero fun i hi => if_neg ?_
    have := (mem_setBits.1 hi).1
    omega

end Gf2
