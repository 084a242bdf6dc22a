import Mathlib.Algebra.Order.Ring.Int
import Mathlib.Data.Nat.ModEq
import Mathlib.Tactic.Ring
import Mathlib.Tactic.Linarith

/-!
# Fixed-width integers in network byte order

`encode w n` are the `w` low bytes of `n`, most significant first, and `decode` reads a byte string
back; they are inverse up to reduction modulo `256 ^ w` (`decode_encode`, `encode_decode`).
`encodeInt` does the same for a possibly negative integer (two's complement), `signed` reads the
two's complement back. `field bs off w` is the integer that stands at offset `off` in a record; the
`field_append_*` lemmas find a field in a record that is a concatenation of encoded integers.
-/

abbrev Bytes := List UInt8

namespace BigEndian

def encode : Nat → Nat → Bytes
  | 0, _ => []
  | w + 1, n => UInt8.ofNat (n / 256 ^ w) :: encode w n

def decode (bs : Bytes) : Nat := bs.foldl (fun a b => a * 256 + b.toNat) 0

/-- `n` read as a two's complement number of `w` bytes. -/
def signed (w n : Nat) : Int := if 2 * n < 256 ^ w then n else (n : Int) - 256 ^ w

def encodeInt (w : Nat) (x : Int) : Bytes := encode w (x % 256 ^ w).toNat

def field (bs : Bytes) (off w : Nat) : Nat := decode ((bs.drop off).take w)

@[simp] theorem length_encode (w n : Nat) : (encode w n).length = w := by
  induction w with
  | zero => rfl
  | succ w ih => simp [encode, ih]

@[simp] theorem length_encodeInt (w : Nat) (x : Int) : (encodeInt w x).length = w :=
  length_encode _ _

theorem foldl_decode (a : Nat) (bs : Bytes) :
    bs.foldl (fun a b => a * 256 + b.toNat) a = a * 256 ^ bs.length + decode bs := by
  induction bs generalizing a with
  | nil => simp [decode]
  | cons b bs ih =>
    simp only [decode, List.foldl_cons, List.length_cons]
    rw [ih, ih (0 * 256 + b.toNat), pow_succ]
    ring

theorem decode_cons (b : UInt8) (bs : Bytes) :
    decode (b :: bs) = b.toNat * 256 ^ bs.length + decode bs := by
  rw [decode, List.foldl_cons, foldl_decode]; simp

theorem decode_lt (bs : Bytes) : decode bs < 256 ^ bs.length := by
  induction bs with
  | nil => simp [decode]
  | cons b bs ih =>
    have hb := b.toNat_lt
    rw [decode_cons, List.length_cons, pow_succ]
    nlinarith

theorem decode_encode (w n : Nat) : decode (encode w n) = n % 256 ^ w := by
  induction w with
  | zero => simp [encode, decode, Nat.mod_one]
  | succ w ih =>
    have hb : (UInt8.ofNat (n / 256 ^ w)).toNat = n / 256 ^ w % 256 := UInt8.toNat_ofNat'
    rw [encode, decode_cons, ih, length_encode, hb, pow_succ, Nat.mod_mul, Nat.mul_comm,
      Nat.add_comm]

theorem encode_mod (w k n : Nat) (h : w ≤ k) : encode w (n % 256 ^ k) = encode w n := by
  induction w with
  | zero => rfl
  | succ w ih =>
    rw [encode, encode, ih (by omega)]
    congr 1
    apply UInt8.toNat_inj.1
    rw [UInt8.toNat_ofNat', UInt8.toNat_ofNat']
    obtain ⟨j, rfl⟩ := Nat.exists_eq_add_of_le h
    rw [show 256 ^ (w + 1 + j) = 256 ^ w * (256 * 256 ^ j) by ring, Nat.mod_mul_right_div_self,
      show 2 ^ 8 = 256 from rfl, Nat.mod_mul_right_mod]

theorem encode_decode (bs : Bytes) : encode bs.length (decode bs) = bs := by
  induction bs with
  | nil => rfl
  | cons b bs ih =>
    have hlt := decode_lt bs
    rw [List.length_cons, encode, decode_cons]
    congr 1
    · rw [Nat.add_comm, Nat.add_mul_div_right _ _ (by positivity), Nat.div_eq_of_lt hlt]
      simp
    · rw [← encode_mod _ _ _ (Nat.le_refl bs.length), Nat.add_comm, Nat.add_mul_mod_self_right,
        Nat.mod_eq_of_lt hlt, ih]

theorem decode_encodeInt (w : Nat) (x : Int) : (decode (encodeInt w x) : Int) = x % 256 ^ w := by
  have h0 : (0 : Int) ≤ x % 256 ^ w := Int.emod_nonneg _ (by positivity)
  have h1 : x % 256 ^ w < 256 ^ w := Int.emod_lt_of_pos _ (by positivity)
  rw [encodeInt, decode_encode]
  push_cast
  rw [Int.toNat_of_nonneg h0, Int.emod_emod_of_dvd _ (dvd_refl _)]

theorem encodeInt_natCast (w n : Nat) : encodeInt w n = encode w n := by
  rw [encodeInt, ← encode_mod w w n (Nat.le_refl w)]
  norm_cast

theorem encodeInt_emod (w : Nat) (x : Int) : encodeInt w (x % 256 ^ w) = encodeInt w x := by
  rw [encodeInt, encodeInt, Int.emod_emod_of_dvd _ (dvd_refl _)]

/-- Two's complement: a value of the signed range survives encoding. -/
theorem signed_decode_encodeInt {w : Nat} {x : Int} (hlo : -(256 ^ w) ≤ 2 * x)
    (hhi : 2 * x < 256 ^ w) : signed w (decode (encodeInt w x)) = x := by
  have h := decode_encodeInt w x
  have hp : (0 : Int) < 256 ^ w := by positivity
  have hcast : ((256 ^ w : Nat) : Int) = 256 ^ w := by push_cast; rfl
  unfold signed
  rcases lt_or_ge x 0 with hx | hx
  · have hmod : x % 256 ^ w = x + 256 ^ w := by
      rw [← Int.add_emod_right, Int.emod_eq_of_lt (by linarith) (by linarith)]
    rw [hmod] at h
    rw [if_neg (by omega), h]; ring
  · rw [Int.emod_eq_of_lt hx (by linarith)] at h
    rw [if_pos (by omega), h]

theorem decode_encodeInt_of_mem {w : Nat} {x : Int} (h0 : 0 ≤ x) (hhi : x < 256 ^ w) :
    (decode (encodeInt w x) : Int) = x := by
  rw [decode_encodeInt, Int.emod_eq_of_lt h0 hhi]

theorem encodeInt_decode (bs : Bytes) : encodeInt bs.length (decode bs) = bs := by
  rw [encodeInt_natCast, encode_decode]

/-- Two's complement: encoding the value that was read gives the bytes back. -/
theorem encodeInt_signed (bs : Bytes) : encodeInt bs.length (signed bs.length (decode bs)) = bs := by
  unfold signed
  split_ifs
  · exact encodeInt_decode bs
  · rw [← encodeInt_emod, Int.sub_emod_right, encodeInt_emod, encodeInt_decode]

theorem signed_decode_mem (bs : Bytes) :
    -(256 ^ bs.length) ≤ 2 * signed bs.length (decode bs) ∧
      2 * signed bs.length (decode bs) < 256 ^ bs.length := by
  have hlt : (decode bs : Int) < 256 ^ bs.length := by exact_mod_cast decode_lt bs
  have hcast : ((256 ^ bs.length : Nat) : Int) = 256 ^ bs.length := by push_cast; rfl
  unfold signed
  split_ifs <;> constructor <;> omega

/-! ### Fields of a record -/

theorem field_lt (bs : Bytes) (off w : Nat) : field bs off w < 256 ^ w :=
  lt_of_lt_of_le (decode_lt _) (Nat.pow_le_pow_right (by decide) (by simp))

theorem field_take (bs : Bytes) {off w k : Nat} (h : off + w ≤ k) :
    field (bs.take k) off w = field bs off w := by
  rw [field, field, List.drop_take, List.take_take, Nat.min_eq_left (by omega)]

theorem field_drop (bs : Bytes) (k off w : Nat) : field (bs.drop k) off w = field bs (k + off) w := by
  rw [field, field, List.drop_drop]

theorem field_append_left (a b : Bytes) {off w : Nat} (h : off + w ≤ a.length) :
    field (a ++ b) off w = field a off w := by
  rw [← field_take (a ++ b) h, List.take_left']
  rfl

theorem field_append_right (a b : Bytes) {off : Nat} (w : Nat) (h : a.length ≤ off) :
    field (a ++ b) off w = field b (off - a.length) w := by
  conv_lhs => rw [show off = a.length + (off - a.length) by omega, ← field_drop, List.drop_left']

theorem field_append_add (a b : Bytes) (off w : Nat) : field (a ++ b) (a.length + off) w = field b off w := by
  rw [field_append_right _ _ _ (Nat.le_add_right ..), Nat.add_sub_cancel_left]

@[simp] theorem field_encodeInt_zero (w : Nat) (x : Int) (b : Bytes) :
    (field (encodeInt w x ++ b) 0 w : Int) = x % 256 ^ w := by
  rw [field_append_left _ _ (by simp), field, List.drop_zero,
    List.take_of_length_le (by simp), decode_encodeInt]

@[simp] theorem field_encodeInt_self (w : Nat) (x : Int) :
    (field (encodeInt w x) 0 w : Int) = x % 256 ^ w := by
  simpa using field_encodeInt_zero w x []

theorem field_encodeInt_skip (w : Nat) (x : Int) (b : Bytes) {off : Nat} (w' : Nat) (h : w ≤ off) :
    field (encodeInt w x ++ b) off w' = field b (off - w) w' := by
  rw [field_append_right _ _ _ (by simpa using h), length_encodeInt]

theorem encodeInt_field {bs : Bytes} {off w : Nat} (h : off + w ≤ bs.length) :
    encodeInt w (field bs off w) = (bs.drop off).take w := by
  have hlen : ((bs.drop off).take w).length = w := by
    rw [List.length_take, List.length_drop]
    omega
  have := encode_decode ((bs.drop off).take w)
  rw [hlen] at this
  rw [encodeInt_natCast, field, this]

end BigEndian
