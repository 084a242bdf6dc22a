import AutoEth.Py
import AutoEth.Lib.BigEndian
import AutoEth.Lib.Except
import AutoEth.Lib.Units

/-!
# Length-prefixed frames

`send_frame` puts a payload behind its length, and `recv_frame` reads one payload with each call. Frames
that arrive whole are read in order, however the connection is cut into chunks (`recvFrames_take`). Where
the connection ends, between two frames or inside one, `recv_frame` returns the empty payload
(`recvFrame_cut`), which is also what it returns for the frame of an empty payload. Any other payload that
it returns stood on the connection (`recvFrame_eq_ok_iff`), and a frame that is too large is refused with
its body still unread (`recvFrame_oversize`).
-/

namespace AutoEth.Tcp
open BigEndian (encodeInt)
open Stream (Chunks Reads readExact readN arrived)

def lenSize : Nat := 4

/-- `_LEN.pack(n)`. -/
def packLen (n : Nat) : Except PyErr Bytes :=
  if n < 2 ^ 32 then .ok (encodeInt lenSize n)
  else .error (.structError "'I' format requires 0 <= number <= 4294967295")

/-- What `send_frame` puts on the connection. -/
def sendFrame (payload : Bytes) : Except PyErr Bytes := do
  return (← packLen payload.length) ++ payload

def sendFrames (ps : List Bytes) : Except PyErr Bytes := do
  return (← ps.mapM sendFrame).flatten

/-- The default of `max_len`. -/
def defaultMaxLen : Int := 1024 * 1024

/-- The end of the connection gives no bytes, and those that were read before it are lost. -/
def recvExact (n : Nat) (sock : Chunks UInt8) : Bytes × Chunks UInt8 :=
  match readExact n sock with
  | (some bs, sock) => (bs, sock)
  | (none, sock) => ([], sock)

/-- `recv_frame`: the result and what is left of the connection, also after an error. -/
def recvFrame (maxLen : Int) (sock : Chunks UInt8) : Except PyErr Bytes × Chunks UInt8 :=
  match recvExact lenSize sock with
  | ([], sock) => (.ok [], sock)
  | (hdr, sock) =>
    let n : Int := BigEndian.decode hdr
    if n < 0 ∨ maxLen < n then (.error (.valueError s!"frame too large: {n}"), sock)
    else
      let (payload, sock) := recvExact n.toNat sock
      (.ok payload, sock)

/-- The results of `n` successive calls of `recv_frame`, and what they leave of the connection. -/
def recvFrames (maxLen : Int) (n : Nat) (sock : Chunks UInt8) :
    List (Except PyErr Bytes) × Chunks UInt8 :=
  readN (recvFrame maxLen) n sock

/-! ### Sending -/

/-- A payload as it stands on the connection. -/
def frame (payload : Bytes) : Bytes := encodeInt lenSize payload.length ++ payload

@[simp] theorem length_frame (p : Bytes) : (frame p).length = lenSize + p.length := by simp [frame]

theorem sendFrame_eq_ok {p w : Bytes} : sendFrame p = .ok w ↔ p.length < 2 ^ 32 ∧ frame p = w := by
  unfold sendFrame packLen
  rcases Nat.lt_or_ge p.length (2 ^ 32) with hlt | hge
  · rw [if_pos hlt, and_iff_right hlt]
    show Except.ok (frame p) = Except.ok w ↔ _
    rw [Except.ok.injEq]
  · have hwide : ¬ p.length < 2 ^ 32 := Nat.not_lt.2 hge
    rw [if_neg hwide]
    refine iff_of_false ?_ fun h => hwide h.1
    intro h
    cases h

theorem sendFrames_eq_ok {ps : List Bytes} {wire : Bytes} :
    sendFrames ps = .ok wire ↔ (∀ p ∈ ps, p.length < 2 ^ 32) ∧ ps.flatMap frame = wire := by
  simp only [sendFrames, Except.bind_eq_ok, Except.pure_eq_ok, Except.ok.injEq]
  constructor
  · rintro ⟨ws, hws, rfl⟩
    rw [Except.mapM_eq_ok] at hws
    have hframes : ps.map frame = ws := (hws.flip.imp fun w p h => (sendFrame_eq_ok.1 h).2).map_eq
    refine ⟨fun p hp => ?_, by rw [List.flatMap_def, hframes]⟩
    obtain ⟨w, -, hw⟩ := hws.exists_right hp
    exact (sendFrame_eq_ok.1 hw).1
  · rintro ⟨hlen, rfl⟩
    refine ⟨ps.map frame, Except.mapM_ok_of_forall frame fun p hp => ?_, List.flatMap_def.symm⟩
    exact sendFrame_eq_ok.2 ⟨hlen p hp, rfl⟩

/-! ### Receiving -/

theorem recvExact_of_le {n : Nat} {sock : Chunks UInt8} (h : n ≤ sock.all.length) :
    ∃ sock', recvExact n sock = (sock.all.take n, sock') ∧ sock'.all = sock.all.drop n := by
  obtain ⟨sock', hread, hall⟩ := Stream.readExact_of_le h
  exact ⟨sock', by rw [recvExact, hread], hall⟩

theorem recvExact_of_lt {n : Nat} {sock : Chunks UInt8} (h : sock.all.length < n) :
    ∃ sock', recvExact n sock = ([], sock') ∧ sock'.all = [] := by
  obtain ⟨sock', hread, hall⟩ := Stream.readExact_of_lt h
  exact ⟨sock', by rw [recvExact, hread], hall⟩

section
variable {maxLen : Int} {p : Bytes} {sock : Chunks UInt8}

theorem recvFrame_of_le (maxLen : Int) (h : lenSize ≤ sock.all.length) :
    ∃ sock', sock'.all = sock.all.drop lenSize ∧
      recvFrame maxLen sock =
        let n : Int := BigEndian.decode (sock.all.take lenSize)
        if maxLen < n then (.error (.valueError s!"frame too large: {n}"), sock')
        else (.ok (recvExact n.toNat sock').1, (recvExact n.toNat sock').2) := by
  obtain ⟨sock', hread, hall⟩ := recvExact_of_le h
  refine ⟨sock', hall, ?_⟩
  unfold recvFrame
  rw [hread]
  split
  · rename_i hnil
    obtain ⟨htake, -⟩ := Prod.mk.inj hnil
    have hlength : (sock.all.take lenSize).length = 0 := by rw [htake, List.length_nil]
    rw [List.length_take, Nat.min_eq_left h] at hlength
    cases hlength
  · rename_i hhdr
    cases hhdr
    -- an unsigned length is not negative
    refine if_congr ?_ rfl rfl
    rw [or_iff_right (by omega)]

theorem recvFrame_header (maxLen : Int) {rest : Bytes} (hlen : p.length < 2 ^ 32)
    (h : sock.all = encodeInt lenSize p.length ++ rest) :
    ∃ sock', sock'.all = rest ∧
      recvFrame maxLen sock =
        if maxLen < p.length then (.error (.valueError s!"frame too large: {(p.length : Int)}"), sock')
        else (.ok (recvExact p.length sock').1, (recvExact p.length sock').2) := by
  obtain ⟨sock', hall, hrecv⟩ := recvFrame_of_le maxLen (show lenSize ≤ sock.all.length by rw [h]; simp)
  have hdecode : (BigEndian.decode (encodeInt lenSize p.length) : Int) = p.length :=
    BigEndian.decode_encodeInt_of_mem (Int.natCast_nonneg _) (by unfold lenSize; omega)
  rw [h, List.drop_left' (by simp)] at hall
  rw [h, List.take_left' (by simp), hdecode] at hrecv
  exact ⟨sock', hall, hrecv⟩

theorem recvFrame_frame (hlen : p.length < 2 ^ 32) (hmax : (p.length : Int) ≤ maxLen) :
    Reads (recvFrame maxLen) (frame p) (.ok p) := by
  intro sock rest h
  rw [frame, List.append_assoc] at h
  obtain ⟨s₁, hall₁, hrecv⟩ := recvFrame_header maxLen hlen h
  rw [if_neg (by omega)] at hrecv
  have hbody : p.length ≤ s₁.all.length := by rw [hall₁]; simp
  obtain ⟨s₂, hread, hall₂⟩ := recvExact_of_le hbody
  rw [hall₁, List.take_left' rfl] at hread
  rw [hall₁, List.drop_left' rfl] at hall₂
  exact ⟨s₂, by rw [hrecv, hread], hall₂⟩

theorem recvFrame_cut (hlen : p.length < 2 ^ 32) (hmax : (p.length : Int) ≤ maxLen) {j : Nat}
    (hj : j < (frame p).length) (h : sock.all = (frame p).take j) :
    ∃ sock', recvFrame maxLen sock = (.ok [], sock') ∧ sock'.all = [] := by
  rw [length_frame] at hj
  rcases Nat.lt_or_ge j lenSize with hlt | hge
  · -- the length prefix is cut
    have hshort : sock.all.length < lenSize := by
      rw [h, List.length_take]
      omega
    obtain ⟨s₁, hread, hall⟩ := recvExact_of_lt hshort
    exact ⟨s₁, by rw [recvFrame, hread], hall⟩
  · -- the length prefix is whole, the body is cut
    have hsplit : (frame p).take j = encodeInt lenSize p.length ++ p.take (j - lenSize) := by
      rw [frame, List.take_append, List.take_of_length_le (by simpa using hge), BigEndian.length_encodeInt]
    rw [hsplit] at h
    obtain ⟨s₁, hall₁, hrecv⟩ := recvFrame_header maxLen hlen h
    rw [if_neg (by omega)] at hrecv
    have hshort : s₁.all.length < p.length := by
      rw [hall₁, List.length_take]
      omega
    obtain ⟨s₂, hread, hall₂⟩ := recvExact_of_lt hshort
    exact ⟨s₂, by rw [hrecv, hread], hall₂⟩

/-- A frame that is too large is refused with its body still unread. -/
theorem recvFrame_oversize (hlen : p.length < 2 ^ 32) (hmax : maxLen < p.length) {rest : Bytes}
    (h : sock.all = frame p ++ rest) :
    ∃ sock', recvFrame maxLen sock =
      (.error (.valueError s!"frame too large: {(p.length : Int)}"), sock') ∧ sock'.all = p ++ rest := by
  rw [frame, List.append_assoc] at h
  obtain ⟨sock', hall, hrecv⟩ := recvFrame_header maxLen hlen h
  exact ⟨sock', by rw [hrecv, if_pos hmax], hall⟩

theorem frame_body {bs : Bytes} {n : Nat} (hn : BigEndian.decode (bs.take lenSize) = n)
    (h : lenSize + n ≤ bs.length) :
    n < 2 ^ 32 ∧ ((bs.drop lenSize).take n).length = n ∧
      frame ((bs.drop lenSize).take n) = bs.take (lenSize + n) := by
  have hhdr : (bs.take lenSize).length = lenSize := by
    rw [List.length_take]
    omega
  have hbody : ((bs.drop lenSize).take n).length = n := by
    rw [List.length_take, List.length_drop]
    omega
  have hencode := BigEndian.encodeInt_decode (bs.take lenSize)
  have hlt := BigEndian.decode_lt (bs.take lenSize)
  rw [hn, hhdr] at hencode hlt
  refine ⟨hlt, hbody, ?_⟩
  rw [frame, hbody, hencode, List.take_add]

theorem recvFrame_eq_ok_iff (hne : p ≠ []) :
    (recvFrame maxLen sock).1 = .ok p ↔
      p.length < 2 ^ 32 ∧ (p.length : Int) ≤ maxLen ∧ frame p <+: sock.all := by
  constructor
  · intro h
    -- what is cut comes back empty
    rcases Nat.lt_or_ge sock.all.length lenSize with hlt | hge
    · obtain ⟨s₁, hread, -⟩ := recvExact_of_lt hlt
      rw [recvFrame, hread] at h
      cases h
      exact absurd rfl hne
    obtain ⟨s₁, hall, hrecv⟩ := recvFrame_of_le maxLen hge
    rw [hrecv] at h
    set n := BigEndian.decode (sock.all.take lenSize) with hn
    dsimp only at h
    split_ifs at h with hmax
    rw [Int.toNat_natCast] at h
    rcases Nat.lt_or_ge s₁.all.length n with hshort | hwhole
    · obtain ⟨s₂, hread, -⟩ := recvExact_of_lt hshort
      rw [hread] at h
      cases h
      exact absurd rfl hne
    · obtain ⟨s₂, hread, -⟩ := recvExact_of_le hwhole
      rw [hread] at h
      cases h
      rw [hall, List.length_drop] at hwhole
      obtain ⟨hlt, hbody, hframe⟩ := frame_body hn.symm (by omega)
      rw [hall, hbody, hframe]
      exact ⟨hlt, by omega, List.take_prefix ..⟩
  · rintro ⟨hlen, hmax, rest, hrest⟩
    obtain ⟨sock', hrecv, -⟩ := recvFrame_frame hlen hmax sock rest hrest.symm
    rw [hrecv]

end

/-! ### Connections that are cut off -/

/-- The outcome of the call behind those for the payloads that arrived whole. -/
def nextOutcome (maxLen : Int) (ps : List Bytes) (k : Nat) (sock : Chunks UInt8) : Except PyErr Bytes :=
  (recvFrame maxLen (recvFrames maxLen (arrived frame k ps).length sock).2).1

/-- What a reader can rely on, where `ps` were sent and the first `k` bytes arrive. -/
structure Delivers (maxLen : Int) (ps : List Bytes) (k : Nat) (sock : Chunks UInt8) : Prop where
  inOrder : (recvFrames maxLen (arrived frame k ps).length sock).1 = (arrived frame k ps).map .ok
  /-- The next call ends in another way than a call that reads a complete frame. -/
  endTold : ∀ p ∈ ps, ∀ (other : Chunks UInt8) (rest : Bytes), other.all = frame p ++ rest →
    (recvFrame maxLen other).1 ≠ nextOutcome maxLen ps k sock

section
variable {maxLen : Int} {ps : List Bytes} {k : Nat} {sock : Chunks UInt8}

theorem recvFrames_take (hlen : ∀ p ∈ ps, p.length < 2 ^ 32)
    (hmax : ∀ p ∈ ps, (p.length : Int) ≤ maxLen) (h : sock.all = (ps.flatMap frame).take k) :
    (recvFrames maxLen (arrived frame k ps).length sock).1 = (arrived frame k ps).map .ok ∧
      nextOutcome maxLen ps k sock = .ok [] := by
  obtain ⟨sock', hreads, htail⟩ :=
    Stream.readN_take (fun p hp => recvFrame_frame (hlen p hp) (hmax p hp)) h
  have hrecv : (recvFrame maxLen sock').1 = .ok [] := by
    rcases htail with hend | ⟨p, hp, j, hj, hcut⟩
    · obtain ⟨s₁, hread, -⟩ := recvExact_of_lt (show sock'.all.length < lenSize by rw [hend]; decide)
      rw [recvFrame, hread]
    · obtain ⟨s₁, hcut, -⟩ := recvFrame_cut (hlen p hp) (hmax p hp) hj hcut
      rw [hcut]
  unfold nextOutcome recvFrames
  rw [hreads]
  exact ⟨rfl, hrecv⟩

end

/-- The end of the connection is told from every frame exactly when no payload is empty. -/
theorem delivers_iff {maxLen : Int} {ps : List Bytes} {wire : Bytes} (hsent : sendFrames ps = .ok wire)
    (hmax : ∀ p ∈ ps, (p.length : Int) ≤ maxLen) (k : Nat) (sock : Chunks UInt8)
    (hsock : sock.all = wire.take k) :
    (Delivers maxLen ps k sock ↔ [] ∉ ps) ∧
    (recvFrames maxLen (arrived frame k ps).length sock).1 = (arrived frame k ps).map .ok ∧
    ∀ (q w rest : Bytes) (other : Chunks UInt8), sendFrame q = .ok w → (q.length : Int) ≤ maxLen →
      other.all = w ++ rest → ((recvFrame maxLen other).1 = nextOutcome maxLen ps k sock ↔ q = []) := by
  obtain ⟨hlen, rfl⟩ := sendFrames_eq_ok.1 hsent
  obtain ⟨hinOrder, hnext⟩ := recvFrames_take hlen hmax hsock
  have houtcome (q rest : Bytes) (other : Chunks UInt8) (hq : q.length < 2 ^ 32)
      (hqmax : (q.length : Int) ≤ maxLen) (hother : other.all = frame q ++ rest) :
      (recvFrame maxLen other).1 = nextOutcome maxLen ps k sock ↔ q = [] := by
    obtain ⟨other', hrecv, -⟩ := recvFrame_frame hq hqmax other rest hother
    rw [hrecv, hnext, Except.ok.injEq]
  refine ⟨⟨fun h hmem => ?_, fun hno => ⟨hinOrder, fun p hp other rest hother heq => ?_⟩⟩, hinOrder,
    fun q w rest other hq hqmax hother => ?_⟩
  · refine h.endTold [] hmem (Stream.whole (frame [])) [] ?_ ?_
    · rw [Stream.all_whole, List.append_nil]
    · refine (houtcome [] [] _ (hlen [] hmem) (hmax [] hmem) ?_).2 rfl
      rw [Stream.all_whole, List.append_nil]
  · obtain rfl := (houtcome p rest other (hlen p hp) (hmax p hp) hother).1 heq
    exact hno hp
  · obtain ⟨hqlen, rfl⟩ := sendFrame_eq_ok.1 hq
    exact houtcome q rest other hqlen hqmax hother

/-- The second frame is cut and comes back as the first one did. -/
theorem cut_frame_like_empty :
    let ps : List Bytes := [[], [0x61]]
    ∃ wire, sendFrames ps = .ok wire ∧ (∀ p ∈ ps, (p.length : Int) ≤ defaultMaxLen) ∧
      ¬ Delivers defaultMaxLen ps 6 (Stream.whole (wire.take 6)) := by
  intro ps
  have hlen : ∀ p ∈ ps, p.length < 2 ^ 32 := by decide
  have hmax : ∀ p ∈ ps, (p.length : Int) ≤ defaultMaxLen := by decide
  refine ⟨_, sendFrames_eq_ok.2 ⟨hlen, rfl⟩, hmax, fun h => ?_⟩
  obtain ⟨-, hnext⟩ := recvFrames_take (k := 6) hlen hmax (Stream.all_whole _)
  have hread : Reads (recvFrame defaultMaxLen) (frame []) (.ok []) := recvFrame_frame (by decide) (by decide)
  have hempty : (Stream.whole (frame [])).all = frame [] ++ [] := by rw [Stream.all_whole, List.append_nil]
  obtain ⟨_, hrecv, -⟩ := hread _ [] hempty
  refine h.endTold [] (by simp [ps]) _ [] hempty ?_
  rw [hrecv, hnext]

theorem delivers_iff_example :
    let ps : List Bytes := [[0x61], [0x62, 0x63]]
    let sock := Stream.whole [0, 0, 0, 1, 0x61, 0, 0, 0, 2, 0x62]
    Delivers defaultMaxLen ps 10 sock ∧ (recvFrames defaultMaxLen 1 sock).1 = [.ok [0x61]] := by
  intro ps sock
  have hsent : sendFrames ps = .ok [0, 0, 0, 1, 0x61, 0, 0, 0, 2, 0x62, 0x63] :=
    sendFrames_eq_ok.2 ⟨by decide, by decide⟩
  have hmax : ∀ p ∈ ps, (p.length : Int) ≤ defaultMaxLen := by decide
  obtain ⟨hiff, hinOrder, -⟩ := delivers_iff hsent hmax 10 sock (Stream.all_whole _)
  exact ⟨hiff.2 (by decide), hinOrder⟩

end AutoEth.Tcp
