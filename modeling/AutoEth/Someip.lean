import AutoEth.Py
import AutoEth.Lib.BigEndian
import AutoEth.Lib.Stream

/-!
# SOME/IP messages

The 16-byte header, `build_message` and `parse_message`, and `recv_someip`, which reads one message
from a connection. A `Frame` is a message as it stands on the wire: a header whose fields have their
widths and whose length field counts the payload. `recvSomeip_frame` and `recvSomeip_oversize` say
what one call reads from a connection that starts with a frame.
-/

namespace AutoEth
open BigEndian (encodeInt field)
open Stream (Chunks readExact)

def hdrSize : Nat := 16

/-! ### Message types and return codes -/

def mtRequest : Int := 0x00
def mtNotification : Int := 0x02
def mtResponse : Int := 0x80
def mtError : Int := 0x81
def rcOk : Int := 0x00
def rcNotOk : Int := 0x01
def protoVer : Int := 0x01

structure SomeIpHeader where
  serviceId : Int
  methodId : Int
  length : Int
  clientId : Int
  sessionId : Int
  protoVer : Int
  ifaceVer : Int
  msgType : Int
  returnCode : Int
deriving DecidableEq

namespace SomeIpHeader

/-- Every field masked to its width, in network byte order (`!HHIHHBBBB`). -/
def pack (h : SomeIpHeader) : Bytes :=
  encodeInt 2 h.serviceId ++ encodeInt 2 h.methodId ++ encodeInt 4 h.length ++
    encodeInt 2 h.clientId ++ encodeInt 2 h.sessionId ++ encodeInt 1 h.protoVer ++
    encodeInt 1 h.ifaceVer ++ encodeInt 1 h.msgType ++ encodeInt 1 h.returnCode

def unpack (data : Bytes) : Except PyErr SomeIpHeader :=
  if data.length < hdrSize then .error (.valueError "SOME/IP header too short")
  else .ok {
    serviceId := field data 0 2
    methodId := field data 2 2
    length := field data 4 4
    clientId := field data 8 2
    sessionId := field data 10 2
    protoVer := field data 12 1
    ifaceVer := field data 13 1
    msgType := field data 14 1
    returnCode := field data 15 1 }

/-- The header with every field reduced to its width. -/
def masked (h : SomeIpHeader) : SomeIpHeader where
  serviceId := h.serviceId % 2 ^ 16
  methodId := h.methodId % 2 ^ 16
  length := h.length % 2 ^ 32
  clientId := h.clientId % 2 ^ 16
  sessionId := h.sessionId % 2 ^ 16
  protoVer := h.protoVer % 2 ^ 8
  ifaceVer := h.ifaceVer % 2 ^ 8
  msgType := h.msgType % 2 ^ 8
  returnCode := h.returnCode % 2 ^ 8

@[simp] theorem length_pack (h : SomeIpHeader) : h.pack.length = 16 := by simp [pack]

theorem unpack_pack_append (h : SomeIpHeader) (b : Bytes) : unpack (h.pack ++ b) = .ok h.masked := by
  have hlen : ¬ (h.pack ++ b).length < hdrSize := by simp [hdrSize]
  unfold unpack
  rw [if_neg hlen]
  simp only [pack, List.append_assoc, BigEndian.field_encodeInt_zero, masked,
    BigEndian.field_encodeInt_skip, Nat.reduceLeDiff, Nat.reduceSub, Nat.sub_self, Nat.le_refl]
  rfl

end SomeIpHeader

/-- The keyword arguments of `build_message`. -/
structure MessageArgs where
  serviceId : Int
  methodId : Int
  clientId : Int
  sessionId : Int
  ifaceVer : Int
  msgType : Int
  payload : Bytes
  returnCode : Int

/-- The header that `build_message` packs; the length field counts the second half of the header. -/
def MessageArgs.header (m : MessageArgs) : SomeIpHeader where
  serviceId := m.serviceId
  methodId := m.methodId
  length := 8 + m.payload.length
  clientId := m.clientId
  sessionId := m.sessionId
  protoVer := AutoEth.protoVer
  ifaceVer := m.ifaceVer
  msgType := m.msgType
  returnCode := m.returnCode

def buildMessage (m : MessageArgs) : Bytes := m.header.pack ++ m.payload

def parseMessage (data : Bytes) : Except PyErr (SomeIpHeader × Bytes) := do
  let hdr ← SomeIpHeader.unpack data
  let expected := hdr.length - 8
  raiseIf (expected < 0) (.valueError "SOME/IP invalid length")
  raiseIf (data.length < hdrSize + expected) (.valueError "SOME/IP truncated payload")
  return (hdr, (data.drop hdrSize).take expected.toNat)

theorem parseMessage_ok {data pl : Bytes} {hdr : SomeIpHeader} (h : parseMessage data = .ok (hdr, pl)) :
    SomeIpHeader.unpack data = .ok hdr ∧ 0 ≤ hdr.length - 8 ∧
      hdrSize + (hdr.length - 8) ≤ data.length ∧
      pl = (data.drop hdrSize).take (hdr.length - 8).toNat := by
  simp only [parseMessage, Except.bind_eq_ok, raiseIf_eq_ok, Except.pure_eq_ok, Except.ok.injEq,
    Prod.mk.injEq, not_lt] at h
  obtain ⟨hdr', hu, -, h₀, -, hlen, rfl, rfl⟩ := h
  exact ⟨hu, h₀, hlen, rfl⟩

theorem SomeIpHeader.length_of_unpack {data : Bytes} {hdr : SomeIpHeader} (h : unpack data = .ok hdr) :
    hdr.length = field data 4 4 := by
  unfold unpack at h
  split at h
  · cases h
  · cases h
    rfl

theorem parseMessage_isOk_iff {data : Bytes} : (∃ hdr pl, parseMessage data = .ok (hdr, pl)) ↔
    16 ≤ data.length ∧ 8 ≤ field data 4 4 ∧ field data 4 4 + 8 ≤ data.length := by
  constructor
  · rintro ⟨hdr, pl, h⟩
    obtain ⟨hu, hpos, hlen, -⟩ := parseMessage_ok h
    have hL := SomeIpHeader.length_of_unpack hu
    unfold hdrSize at hlen
    omega
  · rintro ⟨h16, h8, hlen⟩
    have hshort : ¬ data.length < hdrSize := by unfold hdrSize; omega
    rw [parseMessage, SomeIpHeader.unpack, if_neg hshort, Except.ok_bind]
    dsimp only
    rw [raiseIf_neg (by omega), raiseIf_neg (by unfold hdrSize; omega)]
    exact ⟨_, _, rfl⟩

/-! ### Reading from a connection -/

abbrev Sock := Chunks UInt8

def recvExact (n : Nat) (sock : Sock) : Except PyErr Bytes × Sock :=
  match readExact n sock with
  | (some bs, sock) => (.ok bs, sock)
  | (none, sock) => (.error (.connectionError "socket closed"), sock)

/-- `recv_someip`: the result and what is left of the connection, also after an error. -/
def recvSomeip (maxPayload : Nat) (sock : Sock) : Except PyErr (SomeIpHeader × Bytes) × Sock :=
  match recvExact hdrSize sock with
  | (.error e, sock) => (.error e, sock)
  | (.ok hdrBytes, sock) =>
    match SomeIpHeader.unpack hdrBytes with
    | .error e => (.error e, sock)
    | .ok hdr =>
      let payloadLen := hdr.length - 8
      if payloadLen < 0 then (.error (.valueError "SOME/IP invalid length"), sock)
      else if maxPayload < payloadLen then
        (.error (.valueError s!"SOME/IP payload too large: {payloadLen} > {maxPayload}"), sock)
      else
        match (if payloadLen ≠ 0 then recvExact payloadLen.toNat sock else (.ok [], sock)) with
        | (.error e, sock) => (.error e, sock)
        | (.ok payload, sock) => (parseMessage (hdrBytes ++ payload), sock)

theorem recvExact_of_le {n : Nat} {sock : Sock} (h : n ≤ sock.all.length) :
    ∃ sock', recvExact n sock = (.ok (sock.all.take n), sock') ∧ sock'.all = sock.all.drop n := by
  obtain ⟨sock', hread, hall⟩ := Stream.readExact_of_le h
  exact ⟨sock', by rw [recvExact, hread], hall⟩

theorem recvExact_of_lt {n : Nat} {sock : Sock} (h : sock.all.length < n) :
    ∃ sock', recvExact n sock = (.error (.connectionError "socket closed"), sock') ∧
      sock'.all = [] := by
  obtain ⟨sock', hread, hall⟩ := Stream.readExact_of_lt h
  exact ⟨sock', by rw [recvExact, hread], hall⟩

theorem recvSomeip_of_le (maxPayload : Nat) {sock : Sock} (h : hdrSize ≤ sock.all.length) :
    ∃ hdr sock', SomeIpHeader.unpack (sock.all.take hdrSize) = .ok hdr ∧
      sock'.all = sock.all.drop hdrSize ∧
      recvSomeip maxPayload sock =
        let payloadLen := hdr.length - 8
        if payloadLen < 0 then (.error (.valueError "SOME/IP invalid length"), sock')
        else if maxPayload < payloadLen then
          (.error (.valueError s!"SOME/IP payload too large: {payloadLen} > {maxPayload}"), sock')
        else
          ((recvExact payloadLen.toNat sock').1 >>= fun payload =>
            parseMessage (sock.all.take hdrSize ++ payload), (recvExact payloadLen.toNat sock').2) := by
  obtain ⟨sock', hread, hall⟩ := recvExact_of_le h
  obtain ⟨hdr, hu⟩ : ∃ hdr, SomeIpHeader.unpack (sock.all.take hdrSize) = .ok hdr := by
    have hlen : ¬ (sock.all.take hdrSize).length < hdrSize := by
      rw [List.length_take]
      omega
    unfold SomeIpHeader.unpack
    rw [if_neg hlen]
    exact ⟨_, rfl⟩
  -- reading no payload is reading a payload of no bytes
  have hzero : (if hdr.length - 8 ≠ 0 then recvExact (hdr.length - 8).toNat sock' else (.ok [], sock')) =
      recvExact (hdr.length - 8).toNat sock' := by
    split_ifs with h0
    · rfl
    · rw [not_not.1 h0]
      rfl
  refine ⟨hdr, sock', hu, hall, ?_⟩
  simp only [recvSomeip, hread, hu, hzero]
  rcases recvExact (hdr.length - 8).toNat sock' with ⟨e | payload, rest⟩ <;> rfl

/-- Even when it raises, `recv_someip` takes at least a header off the connection or ends it. -/
theorem recvSomeip_length_lt {maxPayload : Nat} {sock sock' : Sock}
    {r : Except PyErr (SomeIpHeader × Bytes)} (h : recvSomeip maxPayload sock = (r, sock')) :
    (∃ msg, r = .error (.connectionError msg)) ∨ sock'.all.length < sock.all.length := by
  rcases Nat.lt_or_ge sock.all.length hdrSize with hlt | hge
  · obtain ⟨s₁, h₁, -⟩ := recvExact_of_lt hlt
    rw [recvSomeip, h₁] at h
    cases h
    exact .inl ⟨_, rfl⟩
  · obtain ⟨hdr, s₁, -, hall₁, hrecv⟩ := recvSomeip_of_le maxPayload hge
    have hlen₁ : s₁.all.length < sock.all.length := by
      rw [hall₁, List.length_drop]
      unfold hdrSize at hge ⊢
      omega
    rw [hrecv] at h
    dsimp only at h
    split_ifs at h
    · cases h
      exact .inr hlen₁
    · cases h
      exact .inr hlen₁
    · rcases Nat.lt_or_ge s₁.all.length (hdr.length - 8).toNat with hlt' | hge'
      · obtain ⟨s₂, hr, -⟩ := recvExact_of_lt hlt'
        rw [hr] at h
        cases h
        exact .inl ⟨_, rfl⟩
      · obtain ⟨s₂, hr, hall₂⟩ := recvExact_of_le hge'
        rw [hr] at h
        cases h
        refine .inr ?_
        rw [hall₂, List.length_drop]
        omega

/-! ### Frames -/

/-- Every field has its width. -/
structure SomeIpHeader.OnWire (h : SomeIpHeader) : Prop where
  masked_eq : h.masked = h

theorem SomeIpHeader.onWire_masked (h : SomeIpHeader) : h.masked.OnWire := by
  constructor
  simp only [masked, Int.emod_emod_of_dvd _ (dvd_refl _)]

theorem SomeIpHeader.pack_masked (h : SomeIpHeader) : h.masked.pack = h.pack := by
  have hw (w : Nat) (k x : Int) (hk : k = 256 ^ w) : encodeInt w (x % k) = encodeInt w x := by
    rw [hk, BigEndian.encodeInt_emod]
  simp only [pack, masked, hw 2 (2 ^ 16) _ rfl, hw 4 (2 ^ 32) _ rfl, hw 1 (2 ^ 8) _ rfl]

theorem SomeIpHeader.unpack_ok {data : Bytes} {hdr : SomeIpHeader} (h : unpack data = .ok hdr) :
    hdr.OnWire ∧ hdr.pack = data.take hdrSize := by
  unfold unpack at h
  split at h
  · cases h
  rename_i hlen
  unfold hdrSize at hlen
  cases h
  have hpack : (SomeIpHeader.mk (field data 0 2) (field data 2 2) (field data 4 4) (field data 8 2)
      (field data 10 2) (field data 12 1) (field data 13 1) (field data 14 1) (field data 15 1)).pack =
        data.take hdrSize := by
    have htake : data.take hdrSize = data.take (0 + 2 + 2 + 4 + 2 + 2 + 1 + 1 + 1 + 1) := rfl
    rw [htake]
    simp only [pack, List.take_add, List.take_zero, List.nil_append]
    repeat rw [BigEndian.encodeInt_field (by omega)]
  refine ⟨⟨?_⟩, hpack⟩
  have hf (off w : Nat) (k : Int) (hk : k = 256 ^ w) : (field data off w : Int) % k = field data off w :=
    Int.emod_eq_of_lt (by positivity) (by rw [hk]; exact_mod_cast BigEndian.field_lt data off w)
  simp only [masked, hf _ 2 (2 ^ 16) rfl, hf _ 4 (2 ^ 32) rfl, hf _ 1 (2 ^ 8) rfl]

theorem SomeIpHeader.unpack_take_append {data : Bytes} {hdr : SomeIpHeader} (h : unpack data = .ok hdr)
    (b : Bytes) : unpack (data.take hdrSize ++ b) = .ok hdr := by
  obtain ⟨hwire, hpack⟩ := unpack_ok h
  rw [← hpack, SomeIpHeader.unpack_pack_append, hwire.masked_eq]

/-- A message as it stands on the wire. -/
structure Frame where
  hdr : SomeIpHeader
  payload : Bytes
  onWire : hdr.OnWire
  length_eq : hdr.length = 8 + payload.length

namespace Frame

variable (f : Frame)

def bytes : Bytes := f.hdr.pack ++ f.payload

theorem unpack_bytes_append (b : Bytes) : SomeIpHeader.unpack (f.bytes ++ b) = .ok f.hdr := by
  rw [bytes, List.append_assoc, SomeIpHeader.unpack_pack_append, f.onWire.masked_eq]

theorem parseMessage_append (b : Bytes) : parseMessage (f.bytes ++ b) = .ok (f.hdr, f.payload) := by
  have hu := f.unpack_bytes_append b
  have hexp : f.hdr.length - 8 = f.payload.length := by rw [f.length_eq]; omega
  have hdrop : (f.bytes ++ b).drop hdrSize = f.payload ++ b := by
    rw [bytes, List.append_assoc, List.drop_left']
    simp [hdrSize]
  have hlen : (f.bytes ++ b).length = hdrSize + (f.payload.length + b.length) := by simp [bytes, hdrSize]
  simp only [parseMessage, hu, Except.ok_bind, hexp, hdrop, hlen]
  rw [raiseIf_neg (by omega), raiseIf_neg (by omega)]
  simp

theorem parseMessage_bytes : parseMessage f.bytes = .ok (f.hdr, f.payload) := by
  simpa using f.parseMessage_append []

theorem recvSomeip_header (maxPayload : Nat) {sock : Sock} {rest : Bytes}
    (h : sock.all = f.hdr.pack ++ rest) :
    ∃ sock', sock'.all = rest ∧
      recvSomeip maxPayload sock =
        if maxPayload < f.payload.length then (.error (.valueError
          s!"SOME/IP payload too large: {(f.payload.length : Int)} > {maxPayload}"), sock')
        else
          ((recvExact f.payload.length sock').1 >>= fun payload => parseMessage (f.hdr.pack ++ payload),
            (recvExact f.payload.length sock').2) := by
  have hwhole : hdrSize ≤ sock.all.length := by
    rw [h]
    simp [hdrSize]
  obtain ⟨hdr, sock', hu, hall, hrecv⟩ := recvSomeip_of_le maxPayload hwhole
  rw [h, List.take_left' (by simp [hdrSize])] at hu hrecv
  rw [h, List.drop_left' (by simp [hdrSize])] at hall
  have hu' := SomeIpHeader.unpack_pack_append f.hdr []
  rw [List.append_nil, f.onWire.masked_eq, hu] at hu'
  have hexp : hdr.length - 8 = f.payload.length := by
    rw [Except.ok.inj hu', f.length_eq]
    omega
  simp only [hexp, Int.toNat_natCast] at hrecv
  rw [if_neg (by omega)] at hrecv
  refine ⟨sock', hall, hrecv.trans (if_congr ?_ rfl rfl)⟩
  exact Int.ofNat_lt

theorem recvSomeip_frame {maxPayload : Nat} (hmax : f.payload.length ≤ maxPayload) {sock : Sock}
    {rest : Bytes} (h : sock.all = f.bytes ++ rest) :
    ∃ sock', recvSomeip maxPayload sock = (.ok (f.hdr, f.payload), sock') ∧ sock'.all = rest := by
  rw [bytes, List.append_assoc] at h
  obtain ⟨s₁, hall₁, hrecv⟩ := f.recvSomeip_header maxPayload h
  have hlen₁ : f.payload.length ≤ s₁.all.length := by
    rw [hall₁]
    simp
  obtain ⟨s₂, hread, hall₂⟩ := recvExact_of_le hlen₁
  rw [hall₁, List.take_left' rfl] at hread
  rw [hall₁, List.drop_left' rfl] at hall₂
  have hparse : parseMessage (f.hdr.pack ++ f.payload) = .ok (f.hdr, f.payload) := f.parseMessage_bytes
  refine ⟨s₂, ?_, hall₂⟩
  rw [hrecv, if_neg (by omega), hread, Except.ok_bind, hparse]

/-- A frame that is too large is refused with its payload still unread. -/
theorem recvSomeip_oversize {maxPayload : Nat} (hmax : maxPayload < f.payload.length) {sock : Sock}
    {rest : Bytes} (h : sock.all = f.bytes ++ rest) :
    ∃ msg sock', recvSomeip maxPayload sock = (.error (.valueError msg), sock') ∧
      sock'.all = f.payload ++ rest := by
  rw [bytes, List.append_assoc] at h
  obtain ⟨s₁, hall₁, hrecv⟩ := f.recvSomeip_header maxPayload h
  exact ⟨_, s₁, by rw [hrecv, if_pos hmax], hall₁⟩

end Frame

/-- The message that `build_message` builds. -/
def MessageArgs.frame (m : MessageArgs) (h : 8 + m.payload.length < 2 ^ 32) : Frame where
  hdr := m.header.masked
  payload := m.payload
  onWire := m.header.onWire_masked
  length_eq := by
    show (8 + (m.payload.length : Int)) % 2 ^ 32 = 8 + m.payload.length
    omega

theorem MessageArgs.frame_bytes (m : MessageArgs) (h : 8 + m.payload.length < 2 ^ 32) :
    (m.frame h).bytes = buildMessage m := by
  rw [Frame.bytes, frame, m.header.pack_masked]
  rfl

theorem parseMessage_buildMessage (m : MessageArgs) (h : 8 + m.payload.length < 2 ^ 32) :
    parseMessage (buildMessage m) = .ok (m.header.masked, m.payload) := by
  rw [← m.frame_bytes h]
  exact (m.frame h).parseMessage_bytes

theorem exists_frame_of_parseMessage {data pl : Bytes} {hdr : SomeIpHeader}
    (h : parseMessage data = .ok (hdr, pl)) :
    ∃ f : Frame, f.hdr = hdr ∧ f.payload = pl ∧ ∃ rest, data = f.bytes ++ rest := by
  obtain ⟨hu, hpos, hlen, rfl⟩ := parseMessage_ok h
  obtain ⟨hwire, hpack⟩ := SomeIpHeader.unpack_ok hu
  have hpl : ((data.drop hdrSize).take (hdr.length - 8).toNat).length = (hdr.length - 8).toNat := by
    rw [List.length_take, List.length_drop]
    omega
  refine ⟨⟨hdr, _, hwire, by rw [hpl]; omega⟩, rfl, rfl,
    (data.drop hdrSize).drop (hdr.length - 8).toNat, ?_⟩
  rw [Frame.bytes, hpack, List.append_assoc, List.take_append_drop, List.take_append_drop]

/-- A message that was read is a frame that the connection started with. -/
theorem recvSomeip_ok {maxPayload : Nat} {sock sock' : Sock} {hdr : SomeIpHeader} {pl : Bytes}
    (h : recvSomeip maxPayload sock = (.ok (hdr, pl), sock')) :
    ∃ f : Frame, f.hdr = hdr ∧ f.payload = pl ∧ pl.length ≤ maxPayload ∧
      sock.all = f.bytes ++ sock'.all := by
  rcases Nat.lt_or_ge sock.all.length hdrSize with hlt | hge
  · obtain ⟨s₁, h₁, -⟩ := recvExact_of_lt hlt
    rw [recvSomeip, h₁] at h
    cases h
  obtain ⟨hdr₀, s₁, hu, hall₁, hrecv⟩ := recvSomeip_of_le maxPayload hge
  obtain ⟨hwire, hpack⟩ := SomeIpHeader.unpack_ok hu
  rw [List.take_take, Nat.min_self] at hpack
  rw [hrecv] at h
  dsimp only at h
  split_ifs at h with h₂ h₃
  · cases h
  · cases h
  rcases Nat.lt_or_ge s₁.all.length (hdr₀.length - 8).toNat with hlt' | hge'
  · obtain ⟨s₂, hr, -⟩ := recvExact_of_lt hlt'
    rw [hr] at h
    cases h
  obtain ⟨s₂, hr, hall₂⟩ := recvExact_of_le hge'
  rw [hr] at h
  obtain ⟨hparse, rfl⟩ := Prod.ext_iff.1 h
  set payload := s₁.all.take (hdr₀.length - 8).toNat with hpayload
  have hlen : payload.length = hdr₀.length - 8 := by
    rw [hpayload, List.length_take]
    omega
  obtain ⟨hu', -, -, rfl⟩ := parseMessage_ok hparse
  have heq : hdr = hdr₀ := by
    have := SomeIpHeader.unpack_take_append hu payload
    rw [List.take_take, Nat.min_self, hu'] at this
    exact Except.ok.inj this
  subst heq
  have hpl : ((sock.all.take hdrSize ++ payload).drop hdrSize).take (hdr.length - 8).toNat = payload := by
    rw [List.drop_left' (by rw [List.length_take]; omega), List.take_of_length_le (by omega)]
  rw [hpl]
  refine ⟨⟨hdr, payload, hwire, by omega⟩, rfl, rfl, by omega, ?_⟩
  rw [Frame.bytes, hpack, List.append_assoc, hall₂, List.take_append_drop, hall₁, List.take_append_drop]

/-- What `parse_message` accepts, what it returns, and what it makes of a message that was built. -/
theorem parseMessage_exact :
    (∀ data : Bytes,
      ((∃ hdr pl, parseMessage data = .ok (hdr, pl)) ↔
        16 ≤ data.length ∧ 8 ≤ field data 4 4 ∧ field data 4 4 + 8 ≤ data.length) ∧
      ∀ hdr pl, parseMessage data = .ok (hdr, pl) → hdr.pack ++ pl = data.take (field data 4 4 + 8)) ∧
    ∀ (m : MessageArgs) (trailing : Bytes), m.payload.length < 2 ^ 32 - 8 →
      parseMessage (buildMessage m ++ trailing) = .ok ({
        serviceId := m.serviceId % 2 ^ 16
        methodId := m.methodId % 2 ^ 16
        length := 8 + m.payload.length
        clientId := m.clientId % 2 ^ 16
        sessionId := m.sessionId % 2 ^ 16
        protoVer := 1
        ifaceVer := m.ifaceVer % 2 ^ 8
        msgType := m.msgType % 2 ^ 8
        returnCode := m.returnCode % 2 ^ 8 }, m.payload) := by
  refine ⟨fun data => ⟨parseMessage_isOk_iff, fun hdr pl h => ?_⟩, fun m trailing h => ?_⟩
  · obtain ⟨f, rfl, rfl, rest, rfl⟩ := exists_frame_of_parseMessage h
    have hlength := SomeIpHeader.length_of_unpack (f.unpack_bytes_append rest)
    have hsize : f.bytes.length = 16 + f.payload.length := by simp [Frame.bytes]
    have hbytes : f.bytes.length = field (f.bytes ++ rest) 4 4 + 8 := by
      rw [f.length_eq] at hlength
      omega
    rw [List.take_left' hbytes, Frame.bytes]
  · have hfits : 8 + m.payload.length < 2 ^ 32 := by omega
    have hparse := (m.frame hfits).parseMessage_append trailing
    have hhdr : (m.frame hfits).hdr.length = 8 + m.payload.length := (m.frame hfits).length_eq
    rw [m.frame_bytes] at hparse
    rw [hparse, ← hhdr]
    rfl

theorem parseMessage_exact_example :
    let m : MessageArgs := ⟨0x11002, 1, 1, 7, 1, mtRequest, [50], rcOk⟩
    parseMessage (buildMessage m ++ [9]) = .ok (⟨0x1002, 1, 9, 1, 7, 1, 1, 0, 0⟩, [50]) := by
  intro m
  exact parseMessage_exact.2 m [9] (by decide)

theorem recvSomeip_nil (maxPayload : Nat) {sock : Sock} (h : sock.all = []) :
    ∃ msg sock', recvSomeip maxPayload sock = (.error (.connectionError msg), sock') := by
  have hlen : sock.all.length < hdrSize := by
    rw [h]
    decide
  obtain ⟨s₁, h₁, -⟩ := recvExact_of_lt hlen
  exact ⟨_, s₁, by rw [recvSomeip, h₁]⟩

end AutoEth
