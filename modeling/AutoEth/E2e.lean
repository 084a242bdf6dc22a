import AutoEth.Py
import AutoEth.Lib.BigEndian

/-!
# The E2E trailer

`wrap` appends a 16-bit counter and the CRC of payload and counter; `unwrap` checks and strips them.
-/

namespace AutoEth
open BigEndian (encodeInt field)

/-- One turn of the inner loop of `crc16_ccitt_false`. -/
def crcShift (crc : Nat) : Nat :=
  if crc &&& 0x8000 ≠ 0 then ((crc <<< 1) ^^^ 0x1021) &&& 0xFFFF else (crc <<< 1) &&& 0xFFFF

def crcByte (crc : Nat) (b : UInt8) : Nat := crcShift^[8] (crc ^^^ (b.toNat <<< 8))

def crc16CcittFalse (data : Bytes) (init : Nat) : Nat :=
  data.foldl crcByte (init &&& 0xFFFF) &&& 0xFFFF

theorem crc16CcittFalse_lt (data : Bytes) (init : Nat) : crc16CcittFalse data init < 65536 := by
  rw [crc16CcittFalse, Nat.and_two_pow_sub_one_eq_mod _ 16]
  exact Nat.mod_lt _ (by decide)

def wrap (payload : Bytes) (counter : Int) : Bytes :=
  let dataNoCrc := payload ++ encodeInt 2 counter
  dataNoCrc ++ encodeInt 2 (crc16CcittFalse dataNoCrc 0xFFFF)

def unwrap (payload : Bytes) : Except PyErr (Bytes × Int) := do
  raiseIf (payload.length < 4) (.valueError "E2E: payload too short for trailer")
  let counter : Int := field payload (payload.length - 4) 2
  let rxCrc := field payload (payload.length - 2) 2
  let calcCrc := crc16CcittFalse (payload.take (payload.length - 2)) 0xFFFF
  raiseIf (calcCrc ≠ rxCrc)
    (.valueError s!"E2E: CRC mismatch calc=0x{hex4 calcCrc} rx=0x{hex4 rxCrc}")
  return (payload.take (payload.length - 4), counter)

theorem length_wrap (payload : Bytes) (counter : Int) :
    (wrap payload counter).length = payload.length + 4 := by
  simp [wrap]

theorem unwrap_wrap (payload : Bytes) (counter : Int) :
    unwrap (wrap payload counter) = .ok (payload, counter % 65536) := by
  have hlen := length_wrap payload counter
  set crc := crc16CcittFalse (payload ++ encodeInt 2 counter) 0xFFFF with hcrc
  have hw : wrap payload counter = payload ++ (encodeInt 2 counter ++ encodeInt 2 crc) := by
    rw [wrap, List.append_assoc]
  have hcounter : (field (wrap payload counter) payload.length 2 : Int) = counter % 65536 := by
    rw [hw, BigEndian.field_append_right _ _ _ (Nat.le_refl _), Nat.sub_self,
      BigEndian.field_encodeInt_zero]
    rfl
  have hrx : field (wrap payload counter) (payload.length + 2) 2 = crc := by
    rw [hw, BigEndian.field_append_right _ _ _ (by omega), Nat.add_sub_cancel_left,
      BigEndian.field_encodeInt_skip _ _ _ _ (by decide), Nat.sub_self]
    have := BigEndian.field_encodeInt_self 2 crc
    have hlt := crc16CcittFalse_lt (payload ++ encodeInt 2 counter) 0xFFFF
    rw [← hcrc] at hlt
    rw [Int.emod_eq_of_lt (by positivity) (by norm_num; omega)] at this
    exact_mod_cast this
  have htake₂ : (wrap payload counter).take (payload.length + 2) = payload ++ encodeInt 2 counter := by
    rw [hw, ← List.append_assoc, List.take_left']
    simp
  have htake₀ : (wrap payload counter).take payload.length = payload := by rw [hw, List.take_left']; rfl
  simp only [unwrap, hlen, Nat.add_sub_cancel, show payload.length + 4 - 2 = payload.length + 2 by omega,
    hcounter, hrx, htake₂, htake₀, ← hcrc]
  rw [raiseIf_neg (by omega), raiseIf_neg (by simp)]
  rfl

/-- What `unwrap` accepts: the core is followed by its counter and the CRC of both. -/
theorem unwrap_eq_ok {payload core : Bytes} {counter : Int} :
    unwrap payload = .ok (core, counter) ↔
      payload.length = core.length + 4 ∧ core = payload.take core.length ∧
        (field payload core.length 2 : Int) = counter ∧
        field payload (core.length + 2) 2 =
          crc16CcittFalse (payload.take (core.length + 2)) 0xFFFF := by
  simp only [unwrap, Except.bind_eq_ok, raiseIf_eq_ok, Except.pure_eq_ok, Except.ok.injEq,
    Prod.mk.injEq, not_lt, not_not]
  constructor
  · rintro ⟨-, hlen, -, hcrc, rfl, rfl⟩
    have hcore : (payload.take (payload.length - 4)).length = payload.length - 4 := by
      rw [List.length_take]; omega
    have htwo : payload.length - 4 + 2 = payload.length - 2 := by omega
    rw [hcore, htwo]
    exact ⟨by omega, rfl, rfl, hcrc.symm⟩
  · rintro ⟨hlen, hcore, hcounter, hcrc⟩
    have hfour : payload.length - 4 = core.length := by omega
    have htwo : payload.length - 2 = core.length + 2 := by omega
    rw [hfour, htwo]
    exact ⟨⟨⟩, by omega, ⟨⟩, hcrc.symm, hcore.symm, hcounter⟩

end AutoEth
