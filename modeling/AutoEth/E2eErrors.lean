import AutoEth.E2e
import AutoEth.Lib.Crc
import Mathlib.Data.Nat.Bitwise
import Mathlib.Tactic.NormNum.Prime

/-!
# Which errors the E2E trailer finds

`crc16_ccitt_false` is the register `ccitt` (`crc16CcittFalse_eq_run`), which holds a polynomial remainder
(`poly_crc16CcittFalse`). So a frame of four bytes or more is accepted exactly when its CRC is zero
(`unwrap_isOk_iff`), and a frame that `wrap` built is refused after a change exactly when the generator
does not divide the change (`unwrap_xorBytes_raises`).
From this follow the bursts and the small numbers of bits that are always found. `X` has the order
32767 modulo the generator (`orderOf_root_ccitt`), which is the distance of two bits that are not.
-/

namespace AutoEth
open BigEndian (encodeInt field)
open Gf2 (xorBytes setBits)
open Polynomial

/-- The register of `crc16_ccitt_false`. -/
def ccitt : Register where
  width := 16
  taps := 0x1021
  width_ge := by decide
  taps_lt := by decide
  taps_odd := by decide

theorem crcShift_eq_step (crc : Nat) : crcShift crc = ccitt.step crc := by
  have htop : (crc &&& 0x8000 ≠ 0) ↔ crc.testBit 15 = true := by
    show crc &&& 2 ^ 15 ≠ 0 ↔ _
    rw [Nat.and_two_pow]
    cases crc.testBit 15 <;> simp
  have hmask (n : Nat) : n &&& 0xFFFF = n % 2 ^ 16 := Nat.and_two_pow_sub_one_eq_mod n 16
  unfold crcShift Register.step
  rw [hmask, hmask]
  exact if_congr htop rfl rfl

theorem crcByte_eq_feed (crc : Nat) (b : UInt8) : crcByte crc b = ccitt.feed crc b := by
  have hshift : crcShift = ccitt.step := funext crcShift_eq_step
  rw [crcByte, hshift]
  rfl

theorem crc16CcittFalse_eq_run (data : Bytes) {init : Nat} (h : init < 65536) :
    crc16CcittFalse data init = ccitt.run init data := by
  have hmask {n : Nat} (hn : n < 65536) : n &&& 0xFFFF = n := by
    rw [Nat.and_two_pow_sub_one_eq_mod n 16, Nat.mod_eq_of_lt hn]
  have hfeed : crcByte = ccitt.feed := funext fun crc => funext fun b => crcByte_eq_feed crc b
  rw [crc16CcittFalse, hmask h, hfeed]
  exact hmask (ccitt.run_lt h data)

/-! ### The remainder -/

theorem generator_ccitt : ccitt.generator = X ^ 16 + (X ^ 12 + X ^ 5 + 1) := by
  have htaps : ccitt.taps = 2 ^ 12 ^^^ 2 ^ 5 ^^^ 2 ^ 0 := by decide
  rw [Register.generator, htaps, Gf2.poly_xor, Gf2.poly_xor, Gf2.poly_two_pow, Gf2.poly_two_pow,
    Gf2.poly_two_pow, pow_zero]
  rfl

theorem poly_crc16CcittFalse (data : Bytes) {init : Nat} (h : init < 65536) :
    Gf2.poly (crc16CcittFalse data init) =
      (Gf2.poly init * X ^ (8 * data.length) + (∑ j ∈ setBits data, X ^ (8 * data.length - 1 - j)) * X ^ 16) %ₘ
        (X ^ 16 + X ^ 12 + X ^ 5 + 1) := by
  have hgen : (X : (ZMod 2)[X]) ^ 16 + X ^ 12 + X ^ 5 + 1 = ccitt.generator := by
    rw [generator_ccitt, add_assoc, add_assoc, add_assoc]
  rw [crc16CcittFalse_eq_run data h, hgen, ← Gf2.poly_decode_eq_sum]
  exact ccitt.poly_run h data

/-- The CRC is the remainder of the initial value with the message behind it; the polynomial of the message
has one term for each of its bits that is set. -/
theorem crc16CcittFalse_remainder {init : Nat} (h : init < 65536) :
    (∀ data : Bytes, crc16CcittFalse data init < 65536 ∧ ∀ i,
      ((Gf2.poly init * X ^ (8 * data.length) +
          (∑ j ∈ setBits data, X ^ (8 * data.length - 1 - j)) * X ^ 16) %ₘ
        (X ^ 16 + X ^ 12 + X ^ 5 + 1)).coeff i = if (crc16CcittFalse data init).testBit i then 1 else 0) ∧
    (∀ a b : Bytes, crc16CcittFalse (a ++ b) init = crc16CcittFalse b (crc16CcittFalse a init)) ∧
    ∀ a b c : Bytes, a.length = b.length → b.length = c.length →
      crc16CcittFalse (xorBytes (xorBytes a b) c) init =
        crc16CcittFalse a init ^^^ crc16CcittFalse b init ^^^ crc16CcittFalse c init := by
  refine ⟨fun data => ⟨crc16CcittFalse_lt data init, fun i => ?_⟩, fun a b => ?_, fun a b c hab hbc => ?_⟩
  · rw [← poly_crc16CcittFalse data h, Gf2.coeff_poly]
  · rw [crc16CcittFalse_eq_run _ h, crc16CcittFalse_eq_run b (crc16CcittFalse_lt a init),
      crc16CcittFalse_eq_run a h, ccitt.run_append]
  · have hxor : (xorBytes a b).length = c.length := by simp [xorBytes, hab, hbc]
    -- the initial value is added three times, which is once
    have hinit : init = init ^^^ init ^^^ init := by rw [Nat.xor_self, Nat.zero_xor]
    have htwo : init ^^^ init < 2 ^ ccitt.width := Nat.xor_lt_two_pow h h
    rw [crc16CcittFalse_eq_run _ h, crc16CcittFalse_eq_run a h, crc16CcittFalse_eq_run b h,
      crc16CcittFalse_eq_run c h]
    calc ccitt.run init (xorBytes (xorBytes a b) c)
        = ccitt.run (init ^^^ init ^^^ init) (xorBytes (xorBytes a b) c) := by rw [← hinit]
      _ = ccitt.run (init ^^^ init) (xorBytes a b) ^^^ ccitt.run init c := ccitt.run_xor htwo h hxor
      _ = ccitt.run init a ^^^ ccitt.run init b ^^^ ccitt.run init c := by rw [ccitt.run_xor h h hab]

theorem crc16CcittFalse_remainder_example :
    let one : Bytes := [0x31]
    ((Gf2.poly 0xFFFF * X ^ (8 * one.length) + (∑ j ∈ setBits one, X ^ (8 * one.length - 1 - j)) * X ^ 16) %ₘ
      (X ^ 16 + X ^ 12 + X ^ 5 + 1)).coeff 15 = 1 ∧
    crc16CcittFalse [0x31, 0x32] 0xFFFF = crc16CcittFalse [0x32] (crc16CcittFalse one 0xFFFF) ∧
    crc16CcittFalse [0x31 ^^^ 0x32 ^^^ 0x33] 0xFFFF =
      crc16CcittFalse one 0xFFFF ^^^ crc16CcittFalse [0x32] 0xFFFF ^^^ crc16CcittFalse [0x33] 0xFFFF := by
  intro one
  obtain ⟨hcoeff, happend, hxor⟩ := crc16CcittFalse_remainder (show 0xFFFF < 65536 by decide)
  have hbit : (crc16CcittFalse one 0xFFFF).testBit 15 = true := by decide
  have h := (hcoeff one).2 15
  rw [hbit, if_pos rfl] at h
  exact ⟨h, happend one [0x32], hxor one [0x32] [0x33] rfl rfl⟩

/-! ### What is accepted -/

theorem unwrap_error {b : Bytes} {e : PyErr} (h : unwrap b = .error e) : ∃ msg, e = .valueError msg := by
  unfold unwrap raiseIf at h
  split_ifs at h
  · cases h
    exact ⟨_, rfl⟩
  · simp only [Except.ok_bind] at h
    split_ifs at h
    · cases h
      exact ⟨_, rfl⟩
    · cases h

theorem unwrap_raises_iff {b : Bytes} :
    (∃ msg, unwrap b = .error (.valueError msg)) ↔ ¬ ∃ p c, unwrap b = .ok (p, c) := by
  rcases h : unwrap b with e | ⟨p, c⟩
  · obtain ⟨msg, rfl⟩ := unwrap_error h
    simp
  · simp

theorem eq_wrap_of_unwrap {b p : Bytes} {c : Int} (h : unwrap b = .ok (p, c)) :
    0 ≤ c ∧ c ≤ 65535 ∧ b = wrap p c := by
  obtain ⟨hlen, hcore, hcounter, hcrc⟩ := unwrap_eq_ok.1 h
  have hfield := BigEndian.field_lt b p.length 2
  have hdata : p ++ encodeInt 2 c = b.take (p.length + 2) := by
    rw [← hcounter, BigEndian.encodeInt_field (by omega), List.take_add, ← hcore]
  have htrailer : encodeInt 2 (crc16CcittFalse (b.take (p.length + 2)) 0xFFFF) =
      b.drop (p.length + 2) := by
    rw [← hcrc, BigEndian.encodeInt_field (by omega), List.take_of_length_le (by simp; omega)]
  refine ⟨by omega, by omega, ?_⟩
  rw [wrap, hdata, htrailer, List.take_append_drop]

theorem unwrap_eq_ok_iff {b p : Bytes} {c : Int} :
    unwrap b = .ok (p, c) ↔ 0 ≤ c ∧ c ≤ 65535 ∧ b = wrap p c := by
  refine ⟨eq_wrap_of_unwrap, ?_⟩
  rintro ⟨h₀, h₁, rfl⟩
  rw [unwrap_wrap, Int.emod_eq_of_lt h₀ (by omega)]

/-- The CRC over a whole frame, its own CRC included, is zero. -/
theorem unwrap_isOk_iff {b : Bytes} (hlen : 4 ≤ b.length) :
    (∃ p c, unwrap b = .ok (p, c)) ↔ crc16CcittFalse b 0xFFFF = 0 := by
  have htrailer : 8 * (b.drop (b.length - 2)).length = ccitt.width := by
    show _ = 16
    rw [List.length_drop]
    omega
  have hzero := ccitt.run_append_eq_zero (show 0xFFFF < 2 ^ ccitt.width by decide) (b.take (b.length - 2)) htrailer
  rw [List.take_append_drop] at hzero
  have hfield : BigEndian.decode (b.drop (b.length - 2)) = field b (b.length - 2) 2 := by
    rw [field, List.take_of_length_le (by rw [List.length_drop]; omega)]
  rw [crc16CcittFalse_eq_run b (by decide), hzero, ← crc16CcittFalse_eq_run _ (by decide), hfield]
  constructor
  · rintro ⟨p, c, h⟩
    obtain ⟨hp, -, -, hcrc⟩ := unwrap_eq_ok.1 h
    have htwo : b.length - 2 = p.length + 2 := by omega
    rw [htwo]
    exact hcrc.symm
  · intro hcrc
    refine ⟨b.take (b.length - 4), field b (b.length - 4) 2, unwrap_eq_ok.2 ?_⟩
    have hcore : (b.take (b.length - 4)).length = b.length - 4 := by
      rw [List.length_take]
      omega
    have htwo : b.length - 4 + 2 = b.length - 2 := by omega
    rw [hcore, htwo]
    exact ⟨by omega, rfl, rfl, hcrc.symm⟩

/-- `unwrap` is the inverse of `wrap`, and accepts nothing else. -/
theorem unwrap_exact (b p : Bytes) (c k : Int) :
    (unwrap b = .ok (p, c) ↔ 0 ≤ c ∧ c ≤ 65535 ∧ b = wrap p c) ∧
    ((∀ p c, 0 ≤ c → c ≤ 65535 → b ≠ wrap p c) → ∃ msg, unwrap b = .error (.valueError msg)) ∧
    unwrap (wrap p k) = .ok (p, k % 65536) ∧
    (4 ≤ b.length → ((∃ p c, unwrap b = .ok (p, c)) ↔ crc16CcittFalse b 0xFFFF = 0)) := by
  refine ⟨unwrap_eq_ok_iff, fun hno => ?_, unwrap_wrap p k, unwrap_isOk_iff⟩
  rw [unwrap_raises_iff]
  rintro ⟨p', c', h⟩
  obtain ⟨h₀, h₁, heq⟩ := unwrap_eq_ok_iff.1 h
  exact hno p' c' h₀ h₁ heq

/-! ### Changed frames -/

section
variable {payload mask : Bytes} {counter : Int}

/-- A changed frame is accepted when the generator divides the change. -/
theorem unwrap_xorBytes_raises (hlen : mask.length = (wrap payload counter).length) :
    (∃ msg, unwrap (xorBytes (wrap payload counter) mask) = .error (.valueError msg)) ↔
      ¬ ccitt.generator ∣ Gf2.poly (BigEndian.decode mask) := by
  have hfour : 4 ≤ (wrap payload counter).length := by
    rw [length_wrap]
    omega
  have hfour' : 4 ≤ (xorBytes (wrap payload counter) mask).length := by
    rw [xorBytes, List.length_zipWith]
    omega
  have hzero := (unwrap_isOk_iff hfour).1 ⟨_, _, unwrap_wrap payload counter⟩
  rw [crc16CcittFalse_eq_run _ (by decide)] at hzero
  rw [unwrap_raises_iff, unwrap_isOk_iff hfour', crc16CcittFalse_eq_run _ (by decide),
    ccitt.run_xorBytes_eq_zero (by decide) hlen.symm hzero]

/-- A burst of sixteen bits or less is found. -/
theorem unwrap_burst (hlen : mask.length = (wrap payload counter).length)
    (hne : (setBits mask).Nonempty) (hburst : ∃ k, ∀ i ∈ setBits mask, k ≤ i ∧ i < k + 16) :
    ∃ msg, unwrap (xorBytes (wrap payload counter) mask) = .error (.valueError msg) := by
  obtain ⟨k, hk⟩ := hburst
  rw [unwrap_xorBytes_raises hlen]
  refine ccitt.not_dvd_of_burst hne fun i hi j hj => ?_
  have hi := hk i hi
  have hj := hk j hj
  show j < i + 16
  omega

end

/-- The bits 0 of the last byte of a wrapped payload and 7 of the first byte of its CRC. -/
theorem unwrap_burst_example :
    let frame := wrap [0x32] 1
    let mask : Bytes := [0, 0, 0x01, 0x80, 0]
    ∃ msg, unwrap (xorBytes frame mask) = .error (.valueError msg) := by
  intro frame mask
  have hne : (setBits mask).Nonempty := ⟨23, by decide⟩
  exact unwrap_burst (by decide) hne ⟨23, by decide⟩

/-! ### A few bits -/

theorem eval_generator_ccitt : ccitt.generator.eval 1 = 0 := by
  rw [generator_ccitt]
  simp only [eval_add, eval_pow, eval_X, eval_one, one_pow]
  decide

/-- 32767 is 7 * 31 * 151. -/
theorem orderOf_root_ccitt : orderOf ccitt.root = 32767 := by
  have hone : ccitt.root ^ 32767 = 1 := by
    rw [ccitt.root_pow_eq_one (k := 15) (by decide)]
    decide +kernel
  refine orderOf_eq_of_pow_and_pow_div_prime (by decide) hone fun p hp hdvd => ?_
  have hprime : p = 7 ∨ p = 31 ∨ p = 151 := by
    have hfactors : p ∣ 7 * 31 * 151 := hdvd
    rw [hp.dvd_mul, hp.dvd_mul, Nat.prime_dvd_prime_iff_eq hp (by norm_num),
      Nat.prime_dvd_prime_iff_eq hp (by norm_num), Nat.prime_dvd_prime_iff_eq hp (by norm_num),
      or_assoc] at hfactors
    exact hfactors
  rcases hprime with rfl | rfl | rfl
  · rw [Ne, ccitt.root_pow_eq_one (k := 15) (by decide)]
    decide +kernel
  · rw [Ne, ccitt.root_pow_eq_one (k := 15) (by decide)]
    decide +kernel
  · rw [Ne, ccitt.root_pow_eq_one (k := 15) (by decide)]
    decide +kernel

/-- Changes of an odd number of bits, of two bits, and of at most three bits. -/
theorem unwrap_few_bits {payload mask : Bytes} {counter : Int}
    (hlen : mask.length = (wrap payload counter).length) :
    (Odd (setBits mask).card →
      ∃ msg, unwrap (xorBytes (wrap payload counter) mask) = .error (.valueError msg)) ∧
    (∀ i j, i < j → setBits mask = {i, j} →
      ((∃ msg, unwrap (xorBytes (wrap payload counter) mask) = .error (.valueError msg)) ↔
        ¬ 32767 ∣ j - i)) ∧
    (1 ≤ (setBits mask).card → (setBits mask).card ≤ 3 → 8 * (wrap payload counter).length < 32768 →
      ∃ msg, unwrap (xorBytes (wrap payload counter) mask) = .error (.valueError msg)) := by
  have hodd (h : Odd (setBits mask).card) :
      ∃ msg, unwrap (xorBytes (wrap payload counter) mask) = .error (.valueError msg) :=
    (unwrap_xorBytes_raises hlen).2 (ccitt.not_dvd_of_odd eval_generator_ccitt h)
  have htwo (i j : Nat) (hij : i < j) (hset : setBits mask = {i, j}) :
      (∃ msg, unwrap (xorBytes (wrap payload counter) mask) = .error (.valueError msg)) ↔
        ¬ 32767 ∣ j - i := by
    rw [unwrap_xorBytes_raises hlen, ccitt.dvd_two_bits hij hset, orderOf_root_ccitt]
  refine ⟨hodd, htwo, fun hpos hthree hshort => ?_⟩
  rcases Nat.even_or_odd (setBits mask).card with heven | h
  · -- two bits, which are too near to each other
    have hcard : (setBits mask).card = 2 := by
      obtain ⟨k, hk⟩ := heven
      omega
    obtain ⟨i, j, hne, hset⟩ := Finset.card_eq_two.1 hcard
    have hi : i < 8 * mask.length := (Gf2.mem_setBits.1 (hset ▸ Finset.mem_insert_self i {j})).1
    have hj : j < 8 * mask.length :=
      (Gf2.mem_setBits.1 (hset ▸ Finset.mem_insert_of_mem (Finset.mem_singleton_self j))).1
    rw [hlen] at hi hj
    rcases Nat.lt_or_gt_of_ne hne with hlt | hgt
    · exact (htwo i j hlt hset).2 (Nat.not_dvd_of_pos_of_lt (by omega) (by omega))
    · rw [Finset.pair_comm] at hset
      exact (htwo j i hgt hset).2 (Nat.not_dvd_of_pos_of_lt (by omega) (by omega))
  · exact hodd h

theorem unwrap_few_bits_example :
    let frame := wrap [0x32] 1
    let mask : Bytes := [0x80, 0, 0, 0, 0x01]
    (∃ msg, unwrap (xorBytes frame mask) = .error (.valueError msg)) ∧
      ∃ msg, unwrap (xorBytes frame [0x80, 0, 0, 0, 0x03]) = .error (.valueError msg) := by
  intro frame mask
  have htwo : setBits mask = {0, 39} := by decide
  have hodd : Odd (setBits [0x80, 0, 0, 0, 0x03]).card := ⟨1, by decide⟩
  exact ⟨((unwrap_few_bits (by decide)).2.1 0 39 (by decide) htwo).2 (by decide),
    (unwrap_few_bits (by decide)).1 hodd⟩

end AutoEth
