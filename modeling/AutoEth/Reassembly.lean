import AutoEth.Someip
import AutoEth.Lib.Units

/-!
# Reassembling a stream of messages

Successive calls of `recv_someip` on a connection. However the messages that `build_message` built are
cut into pieces on the way, the calls return them one by one and leave what follows the last of them
(`recvMessages_flatMap`); where the connection ends inside a message, the call that reaches it raises
(`Frame.recvSomeip_cut`).
-/

namespace AutoEth
open Stream (Reads readN)

/-- The results of `n` successive calls of `recv_someip`, and what they leave of the connection. -/
def recvMessages (maxPayload n : Nat) (sock : Sock) : List (Except PyErr (SomeIpHeader × Bytes)) × Sock :=
  readN (recvSomeip maxPayload) n sock

section
variable {maxPayload : Nat}

theorem recvMessages_flatMap (hwidth : maxPayload + 8 < 2 ^ 32) {ms : List MessageArgs}
    (hmax : ∀ m ∈ ms, m.payload.length ≤ maxPayload) {sock : Sock} {rest : Bytes}
    (h : sock.all = ms.flatMap buildMessage ++ rest) :
    ∃ sock', recvMessages maxPayload ms.length sock =
      (ms.map fun m => .ok (m.header.masked, m.payload), sock') ∧ sock'.all = rest := by
  have hread : ∀ m ∈ ms, Reads (recvSomeip maxPayload) (buildMessage m)
      (.ok (m.header.masked, m.payload)) := by
    intro m hm s rest hs
    have hfits : 8 + m.payload.length < 2 ^ 32 := by
      have := hmax m hm
      omega
    rw [← m.frame_bytes hfits] at hs
    exact (m.frame hfits).recvSomeip_frame (hmax m hm) hs
  exact Stream.readN_flatMap hread h

/-- A connection that ends inside a frame. -/
theorem Frame.recvSomeip_cut (f : Frame) (hmax : f.payload.length ≤ maxPayload) {k : Nat}
    (hk : k < f.bytes.length) {sock : Sock} (h : sock.all = f.bytes.take k) :
    ∃ msg sock', recvSomeip maxPayload sock = (.error (.connectionError msg), sock') ∧
      sock'.all = [] := by
  have hbytes : f.bytes.length = hdrSize + f.payload.length := by simp [Frame.bytes, hdrSize]
  rcases Nat.lt_or_ge k hdrSize with hlt | hge
  · -- the header is cut
    have hshort : sock.all.length < hdrSize := by
      rw [h, List.length_take]
      omega
    obtain ⟨s₁, h₁, hall⟩ := recvExact_of_lt hshort
    exact ⟨_, s₁, by rw [recvSomeip, h₁], hall⟩
  · -- the header is whole, the payload is cut
    have hsplit : f.bytes.take k = f.hdr.pack ++ f.payload.take (k - hdrSize) := by
      have hpack : f.hdr.pack.length = hdrSize := f.hdr.length_pack
      rw [Frame.bytes, List.take_append, List.take_of_length_le (hpack ▸ hge), hpack]
    rw [hsplit] at h
    obtain ⟨s₁, hall₁, hrecv⟩ := f.recvSomeip_header maxPayload h
    have hshort : s₁.all.length < f.payload.length := by
      rw [hall₁, List.length_take]
      omega
    obtain ⟨s₂, h₂, hall₂⟩ := recvExact_of_lt hshort
    refine ⟨"socket closed", s₂, ?_, hall₂⟩
    rw [hrecv, if_neg (by omega), h₂]
    rfl

end

/-- Messages that were built, on a connection that goes on after them or ends inside one. -/
theorem recvMessages_buildMessage {maxPayload : Nat} (hwidth : maxPayload + 8 < 2 ^ 32)
    {ms : List MessageArgs} (hmax : ∀ m ∈ ms, m.payload.length ≤ maxPayload) :
    (∀ (sock : Sock) (rest : Bytes), sock.all = ms.flatMap buildMessage ++ rest →
      ∃ sock', recvMessages maxPayload ms.length sock =
        (ms.map fun m => .ok (m.header.masked, m.payload), sock') ∧ sock'.all = rest) ∧
    ∀ (m : MessageArgs) (k : Nat) (sock : Sock), m.payload.length ≤ maxPayload →
      k < (buildMessage m).length → sock.all = ms.flatMap buildMessage ++ (buildMessage m).take k →
      ∃ msg sock', recvMessages maxPayload (ms.length + 1) sock =
        ((ms.map fun m => .ok (m.header.masked, m.payload)) ++ [.error (.connectionError msg)],
          sock') := by
  refine ⟨fun sock rest h => recvMessages_flatMap hwidth hmax h, fun m k sock hm hk h => ?_⟩
  have hfits : 8 + m.payload.length < 2 ^ 32 := by omega
  obtain ⟨s₁, hfirst, hall⟩ := recvMessages_flatMap hwidth hmax h
  rw [← m.frame_bytes hfits] at hk hall
  obtain ⟨msg, s₂, hcut, -⟩ := (m.frame hfits).recvSomeip_cut hm hk hall
  refine ⟨msg, s₂, ?_⟩
  unfold recvMessages at hfirst ⊢
  rw [Stream.readN_add, hfirst, Stream.readN_succ hcut]
  rfl

theorem recvMessages_buildMessage_example :
    let m : MessageArgs := ⟨0x1002, 1, 1, 7, 1, mtRequest, [50], rcOk⟩
    let empty : MessageArgs := ⟨0x1002, 4, 1, 8, 1, mtRequest, [], rcOk⟩
    ∃ sock' msg sock'', recvMessages 4096 2 (Stream.whole (buildMessage m ++ (buildMessage empty ++ [9]))) =
        ([.ok (m.header.masked, [50]), .ok (empty.header.masked, [])], sock') ∧ sock'.all = [9] ∧
      recvMessages 4096 2 (Stream.whole (buildMessage empty ++ (buildMessage m).take 16)) =
        ([.ok (empty.header.masked, []), .error (.connectionError msg)], sock'') := by
  intro m empty
  have hwidth : 4096 + 8 < 2 ^ 32 := by decide
  have hboth : ∀ a ∈ [m, empty], a.payload.length ≤ 4096 := by decide
  have hempty : ∀ a ∈ [empty], a.payload.length ≤ 4096 := by decide
  have hwire : buildMessage m ++ (buildMessage empty ++ [9]) = [m, empty].flatMap buildMessage ++ [9] := by
    simp only [List.flatMap_cons, List.flatMap_nil, List.append_assoc, List.nil_append]
  have hwire' : buildMessage empty ++ (buildMessage m).take 16 =
      [empty].flatMap buildMessage ++ (buildMessage m).take 16 := by
    rw [List.flatMap_singleton]
  obtain ⟨sock', hread, hall⟩ := (recvMessages_buildMessage hwidth hboth).1 _ [9] (Stream.all_whole _)
  obtain ⟨msg, sock'', hcut⟩ :=
    (recvMessages_buildMessage hwidth hempty).2 m 16 _ (by decide) (by decide) (Stream.all_whole _)
  rw [hwire, hwire']
  exact ⟨sock', msg, sock'', hread, hall, hcut⟩

end AutoEth
