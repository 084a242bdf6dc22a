import AutoEth.SdRoundTrip

/-!
# Sockets

What the arguments of a socket call can make it raise: `bind` and `sendto` take a port of 16 bits,
`join_multicast` two addresses that `inet_aton` reads, `make_socket` the name of its interface as text. What
the operating system makes of a call is not modelled: it is taken to succeed.
-/

namespace AutoEth

/-- The port in an argument of `call`. -/
def socketPort (call : String) (port : Int) : Except PyErr Unit :=
  raiseIf (port < 0 ∨ 65535 < port) (.overflowError s!"{call}(): port must be 0-65535.")

/-- `join_multicast`. -/
def joinMulticast (group ifaceIp : String) : Except PyErr Unit := do
  let _ ← ipToU32 group
  let _ ← ipToU32 ifaceIp
  return ()

/-- `make_socket`, whose `iface` is encoded if it is truthy. -/
def makeSocket (iface : Value) : Except PyErr Unit :=
  if iface.truthy = false then .ok ()
  else
    match iface with
    | .str _ => .ok ()
    | v => .error (.attributeError s!"'{v.typeName}' object has no attribute 'encode'")

/-- The host of an address as `sendto` takes it. -/
def hostOf : Value → Except PyErr String
  | .str s => .ok s
  | v => .error (.typeError s!"str, bytes or bytearray expected, not {v.typeName}")

theorem socketPort_eq_ok {call : String} {port : Int} :
    socketPort call port = .ok () ↔ FitsBits 16 port := by
  rw [socketPort, raiseIf_eq_ok]
  unfold FitsBits
  omega

theorem ipToU32_isOk {ip : String} : (∃ v, ipToU32 ip = .ok v) ↔ (Inet.aton ip).isSome := by
  unfold ipToU32
  cases Inet.aton ip <;> simp

theorem joinMulticast_eq_ok {group ifaceIp : String} :
    joinMulticast group ifaceIp = .ok () ↔ (Inet.aton group).isSome ∧ (Inet.aton ifaceIp).isSome := by
  rw [← ipToU32_isOk, ← ipToU32_isOk, joinMulticast]
  simp [Except.bind_eq_ok]

theorem makeSocket_eq_ok {iface : Value} {u : Unit} :
    makeSocket iface = .ok u ↔ (iface.truthy = true → ∃ s, iface = .str s) := by
  unfold makeSocket
  cases htruthy : iface.truthy with
  | false => simp
  | true => cases iface <;> simp

end AutoEth
