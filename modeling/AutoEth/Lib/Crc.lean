import AutoEth.Lib.Gf2
import Mathlib.GroupTheory.OrderOfElement
import Mathlib.RingTheory.AdjoinRoot
import Mathlib.Tactic.LinearCombination

/-!
# Cyclic redundancy checks

A `Register` of `width` bits shifts its contents to the left and adds `taps` when a set bit falls out:
it multiplies by `X` modulo `generator = X ^ width + taps` (`cls_step`). In the ring of residues
modulo the generator a byte string that is fed to it adds its polynomial times `X ^ width`
(`cls_run`), so what it holds is a remainder (`poly_run`) and linear in what it was fed (`run_xor`). A
string that ends with its own check leaves the register at zero (`run_append_eq_zero`), and a change of
such a string goes unnoticed exactly when the generator divides the polynomial of the change
(`run_xorBytes_eq_zero`): never for a burst that fits into the register (`not_dvd_of_burst`), and for two
bits exactly when their distance is a multiple of the order of `X` (`dvd_two_bits`). `pow` computes powers
of `X`.
-/

open Polynomial Gf2

/-- A shift register; the lowest tap is always there. -/
structure Register where
  width : Nat
  taps : Nat
  width_ge : 8 ≤ width
  taps_lt : taps < 2 ^ width
  taps_odd : taps % 2 = 1

namespace Register

variable (R : Register)

/-- One shift. -/
def step (c : Nat) : Nat :=
  if c.testBit (R.width - 1) then ((c <<< 1) ^^^ R.taps) % 2 ^ R.width else (c <<< 1) % 2 ^ R.width

def feed (c : Nat) (b : UInt8) : Nat := R.step^[8] (c ^^^ (b.toNat <<< (R.width - 8)))

def run (init : Nat) (bs : Bytes) : Nat := bs.foldl R.feed init

noncomputable def generator : (ZMod 2)[X] := X ^ R.width + poly R.taps

/-- The residue class of the polynomial of a number. -/
noncomputable def cls (n : Nat) : AdjoinRoot R.generator := AdjoinRoot.mk R.generator (poly n)

/-- The residue class of `X`. -/
noncomputable def root : AdjoinRoot R.generator := AdjoinRoot.root R.generator

/-! ### Residue classes -/

theorem monic_generator : R.generator.Monic := monic_X_pow_add (degree_poly_lt R.taps_lt)

theorem degree_generator : R.generator.degree = R.width := by
  have htaps := degree_poly_lt R.taps_lt
  rw [← degree_X_pow (R := ZMod 2)] at htaps
  rw [generator, degree_add_eq_left_of_degree_lt htaps, degree_X_pow]

theorem mk_X_pow (k : Nat) : AdjoinRoot.mk R.generator (X ^ k) = R.root ^ k := by
  rw [map_pow, AdjoinRoot.mk_X]
  rfl

theorem cls_xor (a b : Nat) : R.cls (a ^^^ b) = R.cls a + R.cls b := by
  rw [cls, poly_xor, map_add]
  rfl

theorem cls_shiftLeft (a k : Nat) : R.cls (a <<< k) = R.cls a * R.root ^ k := by
  rw [cls, poly_shiftLeft, map_mul, mk_X_pow]
  rfl

@[simp] theorem cls_one : R.cls 1 = 1 := by rw [cls, poly_one, map_one]

@[simp] theorem cls_zero : R.cls 0 = 0 := by rw [cls, poly_zero, map_zero]

@[simp] theorem cls_add_self (a : Nat) : R.cls a + R.cls a = 0 := by
  rw [← cls_xor, Nat.xor_self, cls_zero]

theorem cls_two_pow_width : R.cls (2 ^ R.width) = R.cls R.taps := by
  have hgen : AdjoinRoot.mk R.generator (X ^ R.width + poly R.taps) = 0 := AdjoinRoot.mk_self
  rw [map_add] at hgen
  rw [cls, poly_two_pow]
  exact add_right_cancel (hgen.trans (R.cls_add_self _).symm)

theorem cls_inj {a b : Nat} (ha : a < 2 ^ R.width) (hb : b < 2 ^ R.width) (h : R.cls a = R.cls b) :
    a = b := by
  have hdvd : R.generator ∣ poly a - poly b := AdjoinRoot.mk_eq_mk.1 h
  have hdegree : (poly a - poly b).degree < R.generator.degree := by
    rw [degree_generator]
    exact (degree_sub_le _ _).trans_lt (max_lt (degree_poly_lt ha) (degree_poly_lt hb))
  by_contra hne
  have hsub : poly a - poly b ≠ 0 := fun h => hne (poly_injective (sub_eq_zero.1 h))
  exact R.monic_generator.not_dvd_of_degree_lt hsub hdegree hdvd

theorem isUnit_root : IsUnit R.root := by
  have hcoeff : (R.generator - 1).coeff 0 = 0 := by
    have hwidth : ¬ 0 = R.width := by have := R.width_ge; omega
    have hodd : R.taps.testBit 0 = true := by simp [R.taps_odd]
    rw [generator, coeff_sub, coeff_add, coeff_X_pow, if_neg hwidth, coeff_poly, hodd]
    simp
  obtain ⟨q, hq⟩ := X_dvd_iff.2 hcoeff
  have hmk := congrArg (AdjoinRoot.mk R.generator) hq
  rw [map_sub, map_mul, AdjoinRoot.mk_self, AdjoinRoot.mk_X, map_one] at hmk
  refine IsUnit.of_mul_eq_one (-AdjoinRoot.mk R.generator q) ?_
  show AdjoinRoot.root R.generator * _ = 1
  linear_combination hmk

theorem root_pow_mul_eq_zero {k : Nat} {y : AdjoinRoot R.generator} : R.root ^ k * y = 0 ↔ y = 0 :=
  (R.isUnit_root.pow k).mul_right_eq_zero

/-! ### The register -/

theorem step_lt (c : Nat) : R.step c < 2 ^ R.width := by
  unfold step
  split <;> exact Nat.mod_lt _ (Nat.two_pow_pos _)

theorem cls_mod {n : Nat} (h : n < 2 ^ (R.width + 1)) :
    R.cls (n % 2 ^ R.width) = R.cls n + if n.testBit R.width then R.cls R.taps else 0 := by
  have hmod : n % 2 ^ R.width = n ^^^ (if n.testBit R.width then 2 ^ R.width else 0) := by
    refine Nat.eq_of_testBit_eq fun i => ?_
    rw [Nat.testBit_mod_two_pow, Nat.testBit_xor]
    rcases Nat.lt_trichotomy i R.width with hi | rfl | hi
    · split_ifs <;> simp [hi, hi.ne']
    · split_ifs with hbit <;> simp [hbit]
    · have hclear : n.testBit i = false :=
        Nat.testBit_lt_two_pow (h.trans_le (Nat.pow_le_pow_right (by decide) hi))
      split_ifs <;> simp [hclear, hi.ne, Nat.not_lt.2 hi.le]
  rw [hmod, cls_xor]
  split_ifs
  · rw [cls_two_pow_width]
  · rw [cls_zero]

/-- A shift multiplies by `X`. -/
theorem cls_step {c : Nat} (h : c < 2 ^ R.width) : R.cls (R.step c) = R.cls c * R.root := by
  have hwidth := R.width_ge
  have hwide : c <<< 1 < 2 ^ (R.width + 1) := by
    rw [Nat.shiftLeft_eq, pow_succ]
    omega
  have htop : (c <<< 1).testBit R.width = c.testBit (R.width - 1) := by
    rw [Nat.testBit_shiftLeft, decide_eq_true (by omega), Bool.true_and]
  have htaps : R.taps.testBit R.width = false := Nat.testBit_lt_two_pow R.taps_lt
  have hshift : R.cls (c <<< 1) = R.cls c * R.root := by rw [cls_shiftLeft, pow_one]
  unfold step
  split_ifs with hbit
  · have hxor : (c <<< 1) ^^^ R.taps < 2 ^ (R.width + 1) :=
      Nat.xor_lt_two_pow hwide (R.taps_lt.trans (Nat.pow_lt_pow_right (by decide) (Nat.lt_succ_self _)))
    rw [R.cls_mod hxor, Nat.testBit_xor, htop, htaps, hbit, Bool.xor_false, if_pos rfl, cls_xor, hshift,
      add_assoc, cls_add_self, add_zero]
  · rw [R.cls_mod hwide, htop, if_neg hbit, hshift, add_zero]

theorem iterate_step_lt {c : Nat} (h : c < 2 ^ R.width) (k : Nat) : R.step^[k] c < 2 ^ R.width := by
  induction k generalizing c with
  | zero => exact h
  | succ k ih => exact ih (R.step_lt c)

theorem cls_iterate_step {c : Nat} (h : c < 2 ^ R.width) (k : Nat) :
    R.cls (R.step^[k] c) = R.cls c * R.root ^ k := by
  induction k generalizing c with
  | zero => rw [Function.iterate_zero_apply, pow_zero, mul_one]
  | succ k ih =>
    rw [Function.iterate_succ_apply, ih (R.step_lt c), R.cls_step h, pow_succ]
    ring

theorem feed_arg_lt {c : Nat} (h : c < 2 ^ R.width) (b : UInt8) :
    c ^^^ (b.toNat <<< (R.width - 8)) < 2 ^ R.width := by
  refine Nat.xor_lt_two_pow h ?_
  have hwidth : R.width = 8 + (R.width - 8) := by have := R.width_ge; omega
  rw [Nat.shiftLeft_eq]
  conv_rhs => rw [hwidth, pow_add]
  exact Nat.mul_lt_mul_of_pos_right b.toNat_lt (Nat.two_pow_pos _)

theorem feed_lt {c : Nat} (h : c < 2 ^ R.width) (b : UInt8) : R.feed c b < 2 ^ R.width :=
  R.iterate_step_lt (R.feed_arg_lt h b) 8

theorem run_lt {init : Nat} (h : init < 2 ^ R.width) (bs : Bytes) : R.run init bs < 2 ^ R.width := by
  induction bs generalizing init with
  | nil => exact h
  | cons b bs ih => exact ih (R.feed_lt h b)

theorem cls_feed {c : Nat} (h : c < 2 ^ R.width) (b : UInt8) :
    R.cls (R.feed c b) = R.cls c * R.root ^ 8 + R.cls b.toNat * R.root ^ R.width := by
  have hwidth : R.width = (R.width - 8) + 8 := by have := R.width_ge; omega
  rw [feed, R.cls_iterate_step (R.feed_arg_lt h b), cls_xor, cls_shiftLeft, add_mul, mul_assoc, ← pow_add,
    ← hwidth]

theorem cls_run {init : Nat} (h : init < 2 ^ R.width) (bs : Bytes) :
    R.cls (R.run init bs) =
      R.cls init * R.root ^ (8 * bs.length) + R.cls (BigEndian.decode bs) * R.root ^ R.width := by
  induction bs generalizing init with
  | nil => simp [run, BigEndian.decode]
  | cons b bs ih =>
    have hdecode : R.cls (BigEndian.decode (b :: bs)) =
        R.cls b.toNat * R.root ^ (8 * bs.length) + R.cls (BigEndian.decode bs) := by
      rw [decode_cons, cls_xor, cls_shiftLeft]
    show R.cls (R.run (R.feed init b) bs) = _
    rw [ih (R.feed_lt h b), R.cls_feed h, hdecode, List.length_cons, Nat.mul_succ, pow_add]
    ring

/-- The register holds the remainder of what was fed to it. -/
theorem poly_run {init : Nat} (h : init < 2 ^ R.width) (bs : Bytes) :
    poly (R.run init bs) =
      (poly init * X ^ (8 * bs.length) + poly (BigEndian.decode bs) * X ^ R.width) %ₘ R.generator := by
  have hmk : AdjoinRoot.mk R.generator (poly init * X ^ (8 * bs.length) +
      poly (BigEndian.decode bs) * X ^ R.width) = AdjoinRoot.mk R.generator (poly (R.run init bs)) := by
    rw [map_add, map_mul, map_mul, mk_X_pow, mk_X_pow]
    exact (R.cls_run h bs).symm
  obtain ⟨q, hq⟩ := AdjoinRoot.mk_eq_mk.1 hmk
  have hdegree : (poly (R.run init bs)).degree < R.generator.degree := by
    rw [degree_generator]
    exact degree_poly_lt (R.run_lt h bs)
  have hsum : poly (R.run init bs) + R.generator * q =
      poly init * X ^ (8 * bs.length) + poly (BigEndian.decode bs) * X ^ R.width := by
    rw [← hq, add_sub_cancel]
  exact (div_modByMonic_unique q _ R.monic_generator ⟨hsum, hdegree⟩).2.symm

theorem run_append (init : Nat) (a b : Bytes) : R.run init (a ++ b) = R.run (R.run init a) b :=
  List.foldl_append ..

theorem run_xor {i j : Nat} (hi : i < 2 ^ R.width) (hj : j < 2 ^ R.width) {a b : Bytes}
    (hlen : a.length = b.length) :
    R.run (i ^^^ j) (xorBytes a b) = R.run i a ^^^ R.run j b := by
  have hxor : (xorBytes a b).length = a.length := by simp [xorBytes, hlen]
  have hdecode : R.cls (BigEndian.decode (xorBytes a b)) =
      R.cls (BigEndian.decode a) + R.cls (BigEndian.decode b) := by
    rw [cls, poly_decode_xorBytes hlen, map_add]
    rfl
  refine R.cls_inj (R.run_lt (Nat.xor_lt_two_pow hi hj) _)
    (Nat.xor_lt_two_pow (R.run_lt hi a) (R.run_lt hj b)) ?_
  rw [R.cls_run (Nat.xor_lt_two_pow hi hj), cls_xor, cls_xor, R.cls_run hi, R.cls_run hj, hxor, hdecode,
    hlen]
  ring

/-! ### Strings with their check -/

/-- A string that is fed to an empty register leaves it empty exactly when the generator divides it. -/
theorem run_zero_eq_zero (bs : Bytes) :
    R.run 0 bs = 0 ↔ R.generator ∣ poly (BigEndian.decode bs) := by
  have hrun := R.cls_run (Nat.two_pow_pos _) bs
  rw [cls_zero, zero_mul, zero_add, mul_comm] at hrun
  rw [← AdjoinRoot.mk_eq_zero]
  show _ ↔ R.cls (BigEndian.decode bs) = 0
  rw [← R.root_pow_mul_eq_zero (k := R.width), ← hrun]
  constructor
  · intro hzero
    rw [hzero, cls_zero]
  · intro hcls
    exact R.cls_inj (R.run_lt (Nat.two_pow_pos _) bs) (Nat.two_pow_pos _) (hcls.trans R.cls_zero.symm)

/-- A string with `t` behind it leaves the register at zero exactly when `t` is its check. -/
theorem run_append_eq_zero {init : Nat} (h : init < 2 ^ R.width) (a : Bytes) {t : Bytes}
    (ht : 8 * t.length = R.width) : R.run init (a ++ t) = 0 ↔ R.run init a = BigEndian.decode t := by
  have hlt := R.run_lt h a
  have htlt : BigEndian.decode t < 2 ^ R.width := ht ▸ decode_lt_two_pow t
  have hcls : R.cls (R.run init (a ++ t)) =
      R.root ^ R.width * (R.cls (R.run init a) + R.cls (BigEndian.decode t)) := by
    rw [run_append, R.cls_run hlt, ht]
    ring
  constructor
  · intro hzero
    rw [hzero, cls_zero, eq_comm, root_pow_mul_eq_zero] at hcls
    exact R.cls_inj hlt htlt (add_right_cancel (hcls.trans (R.cls_add_self _).symm))
  · intro heq
    have hzero : R.cls (R.run init a) + R.cls (BigEndian.decode t) = 0 := by rw [heq, cls_add_self]
    rw [hzero, mul_zero] at hcls
    exact R.cls_inj (R.run_lt h _) (Nat.two_pow_pos _) (hcls.trans R.cls_zero.symm)

/-- A change of a string that leaves the register at zero goes unnoticed exactly when the generator
divides its polynomial. -/
theorem run_xorBytes_eq_zero {init : Nat} (h : init < 2 ^ R.width) {bs mask : Bytes}
    (hlen : bs.length = mask.length) (hzero : R.run init bs = 0) :
    R.run init (xorBytes bs mask) = 0 ↔ R.generator ∣ poly (BigEndian.decode mask) := by
  have hxor := R.run_xor h (Nat.two_pow_pos _) hlen
  rw [Nat.xor_zero, hzero, Nat.zero_xor] at hxor
  rw [hxor, run_zero_eq_zero]

/-! ### Which changes go unnoticed -/

theorem dvd_of_dvd_X_pow_mul (k : Nat) {q : (ZMod 2)[X]} (h : R.generator ∣ X ^ k * q) :
    R.generator ∣ q := by
  rw [← AdjoinRoot.mk_eq_zero, map_mul, mk_X_pow, root_pow_mul_eq_zero] at h
  exact AdjoinRoot.mk_eq_zero.1 h

/-- A burst that fits into the register. -/
theorem not_dvd_of_burst {mask : Bytes} (hne : (setBits mask).Nonempty)
    (hburst : ∀ i ∈ setBits mask, ∀ j ∈ setBits mask, j < i + R.width) :
    ¬ R.generator ∣ poly (BigEndian.decode mask) := by
  -- the last bit that is set gives the power of `X` that the others have in common
  obtain ⟨last, hlast, hmax⟩ := (setBits mask).exists_max_image id hne
  set short : (ZMod 2)[X] := ∑ i ∈ setBits mask, X ^ (last - i) with hshort
  have hsplit : poly (BigEndian.decode mask) = X ^ (8 * mask.length - 1 - last) * short := by
    rw [poly_decode_eq_sum, hshort, Finset.mul_sum]
    refine Finset.sum_congr rfl fun i hi => ?_
    have hle : i ≤ last := hmax i hi
    have hlt := (mem_setBits.1 hlast).1
    rw [← pow_add]
    congr 1
    omega
  have hcoeff : short.coeff 0 = 1 := by
    have hterm : ∀ i ∈ setBits mask, ((X : (ZMod 2)[X]) ^ (last - i)).coeff 0 =
        if last = i then 1 else 0 := by
      intro i hi
      have hle : i ≤ last := hmax i hi
      rw [coeff_X_pow]
      refine if_congr ?_ rfl rfl
      omega
    rw [hshort, finsetSum_coeff, Finset.sum_congr rfl hterm, Finset.sum_ite_eq, if_pos hlast]
  have hdegree : short.degree < R.generator.degree := by
    rw [degree_generator, degree_lt_iff_coeff_zero]
    intro m hm
    rw [hshort, finsetSum_coeff]
    refine Finset.sum_eq_zero fun i hi => ?_
    have hnear := hburst i hi last hlast
    have hwidth := R.width_ge
    rw [coeff_X_pow, if_neg (by omega)]
  have hshort_ne : short ≠ 0 := by
    intro h
    rw [h, coeff_zero] at hcoeff
    cases hcoeff
  intro hdvd
  rw [hsplit] at hdvd
  exact R.monic_generator.not_dvd_of_degree_lt hshort_ne hdegree (R.dvd_of_dvd_X_pow_mul _ hdvd)

/-- An odd number of bits, where the generator has an even number of terms. -/
theorem not_dvd_of_odd (heven : R.generator.eval 1 = 0) {mask : Bytes} (hodd : Odd (setBits mask).card) :
    ¬ R.generator ∣ poly (BigEndian.decode mask) := by
  rintro ⟨q, hq⟩
  have heval := congrArg (eval 1) hq
  rw [poly_decode_eq_sum, eval_finsetSum, eval_mul, heven, zero_mul] at heval
  simp only [eval_pow, eval_X, one_pow, Finset.sum_const, nsmul_eq_mul, mul_one] at heval
  rw [ZMod.natCast_eq_zero_iff] at heval
  exact Nat.not_even_iff_odd.2 hodd (even_iff_two_dvd.2 heval)

theorem dvd_two_bits {mask : Bytes} {i j : Nat} (hij : i < j) (hset : setBits mask = {i, j}) :
    R.generator ∣ poly (BigEndian.decode mask) ↔ orderOf R.root ∣ j - i := by
  have hlt : j < 8 * mask.length := by
    have hj : j ∈ setBits mask := by rw [hset]; simp
    exact (mem_setBits.1 hj).1
  have hsum : poly (BigEndian.decode mask) = X ^ (8 * mask.length - 1 - j) * (X ^ (j - i) - 1) := by
    have htwo : (1 : (ZMod 2)[X]) + 1 = 0 := CharTwo.add_self_eq_zero 1
    have hpow : 8 * mask.length - 1 - i = (8 * mask.length - 1 - j) + (j - i) := by omega
    rw [poly_decode_eq_sum, hset, Finset.sum_pair hij.ne, hpow, pow_add]
    linear_combination X ^ (8 * mask.length - 1 - j) * htwo
  rw [hsum, ← AdjoinRoot.mk_eq_zero, map_mul, mk_X_pow, root_pow_mul_eq_zero, map_sub, mk_X_pow, map_one,
    sub_eq_zero, orderOf_dvd_iff_pow_eq_one]

/-! ### Powers of `X` -/

/-- The product of `a` with the low `k` bits of `b`. -/
def mul (a : Nat) : Nat → Nat → Nat
  | 0, _ => 0
  | k + 1, b => R.step (mul a k (b / 2)) ^^^ (if b % 2 = 1 then a else 0)

/-- `X ^ e`, for an exponent of at most `k` bits. -/
def pow : Nat → Nat → Nat
  | 0, _ => 1
  | k + 1, e =>
    let half := pow k (e / 2)
    let square := R.mul half R.width half
    if e % 2 = 1 then R.step square else square

theorem mul_lt {a : Nat} (h : a < 2 ^ R.width) (k b : Nat) : R.mul a k b < 2 ^ R.width := by
  cases k with
  | zero => exact Nat.two_pow_pos _
  | succ k =>
    refine Nat.xor_lt_two_pow (R.step_lt _) ?_
    split_ifs
    · exact h
    · exact Nat.two_pow_pos _

theorem cls_mul {a : Nat} (h : a < 2 ^ R.width) {k b : Nat} (hb : b < 2 ^ k) :
    R.cls (R.mul a k b) = R.cls a * R.cls b := by
  induction k generalizing b with
  | zero =>
    obtain rfl : b = 0 := by simpa using hb
    rw [mul, cls_zero, mul_zero]
  | succ k ih =>
    have hhalf : b / 2 < 2 ^ k := by
      rw [pow_succ] at hb
      omega
    have hsplit : R.cls b = R.cls (b / 2) * R.root + if b % 2 = 1 then 1 else 0 := by
      have hbits : b = (b / 2) <<< 1 ^^^ b % 2 := by
        have hlow : b % 2 < 2 ^ 1 := Nat.mod_lt b Nat.two_pos
        rw [xor_eq_add hlow]
        omega
      conv_lhs => rw [hbits, cls_xor, cls_shiftLeft, pow_one]
      rcases Nat.mod_two_eq_zero_or_one b with h0 | h1
      · rw [h0, if_neg (by decide), cls_zero]
      · rw [h1, if_pos rfl, cls_one]
    rw [mul, cls_xor, R.cls_step (R.mul_lt h _ _), ih hhalf, hsplit]
    split_ifs
    · ring
    · rw [cls_zero]
      ring

theorem pow_spec {k e : Nat} (he : e < 2 ^ k) :
    R.pow k e < 2 ^ R.width ∧ R.cls (R.pow k e) = R.root ^ e := by
  induction k generalizing e with
  | zero =>
    obtain rfl : e = 0 := by simpa using he
    refine ⟨?_, by rw [pow, cls_one, pow_zero]⟩
    exact Nat.one_lt_two_pow (by have := R.width_ge; omega)
  | succ k ih =>
    have hhalf : e / 2 < 2 ^ k := by
      rw [pow_succ] at he
      omega
    obtain ⟨hlt, hcls⟩ := ih hhalf
    have hsquare : R.cls (R.mul (R.pow k (e / 2)) R.width (R.pow k (e / 2))) = R.root ^ (e / 2 + e / 2) := by
      rw [R.cls_mul hlt hlt, hcls, pow_add]
    rw [pow]
    rcases Nat.mod_two_eq_zero_or_one e with h0 | h1
    · rw [if_neg (by omega), hsquare]
      exact ⟨R.mul_lt hlt _ _, by congr 1; omega⟩
    · rw [if_pos h1, R.cls_step (R.mul_lt hlt _ _), hsquare, ← pow_succ]
      exact ⟨R.step_lt _, by congr 1; omega⟩

theorem root_pow_eq_one {k e : Nat} (he : e < 2 ^ k) : R.root ^ e = 1 ↔ R.pow k e = 1 := by
  obtain ⟨hlt, hcls⟩ := R.pow_spec he
  constructor
  · intro h
    have hone : 1 < 2 ^ R.width := Nat.one_lt_two_pow (by have := R.width_ge; omega)
    exact R.cls_inj hlt hone (by rw [hcls, h, cls_one])
  · intro h
    rw [← hcls, h, cls_one]

end Register
