import AutoEth.SdRoundTrip

/-!
# Datagrams as arrays

A datagram carries an array of options and an array of 16-byte entries, both of any kinds. What an entry
says is read from its 16 bytes (`WireEntry.read`), and its options are those at the positions that it
names, of which only the IPv4 options count (`WireOption.read`). `parseSdMessage_resolves`: this is
what the parser returns, whatever else stands in the arrays.
-/

namespace AutoEth
open BigEndian (encodeInt field)

/-! ### Options and entries -/

/-- An option of any type: a length, a type, and as many bytes. -/
structure WireOption where
  optType : UInt8
  content : Bytes
  length_lt : content.length < 2 ^ 16

def WireOption.bytes (o : WireOption) : Bytes := encodeInt 2 o.content.length ++ (o.optType :: o.content)

/-- The IPv4 option that the bytes stand for, if they do. -/
def WireOption.read (o : WireOption) : Option SdOption :=
  if o.content.length = 9 then
    let address := Inet.ntoa (field o.content 1 4)
    let port : Int := field o.content 7 2
    if o.optType = 0x04 then some (.ipv4Endpoint address port (field o.content 6 1))
    else if o.optType = 0x14 then some (.ipv4Multicast address port)
    else none
  else none

/-- An entry of any type. -/
structure WireEntry where
  bytes : Bytes
  length_eq : bytes.length = 16

namespace WireEntry

variable (e : WireEntry)

def entryType : Nat := field e.bytes 0 1
def idx1 : Nat := field e.bytes 1 1
/-- The high nibble of the count byte. -/
def numOpt1 : Nat := field e.bytes 3 1 / 16
def last32 : Nat := field e.bytes 12 4

/-- The options at the positions `idx1` to `idx1 + numOpt1 - 1`. -/
def options (opts : List WireOption) : List SdOption :=
  ((opts.drop e.idx1).take e.numOpt1).filterMap WireOption.read

/-- The entry that the bytes stand for, if their type is known. -/
def read (opts : List WireOption) : Option SdEntry :=
  if e.entryType = 0x00 ∨ e.entryType = 0x01 then
    some (.service {
      entryType := e.entryType
      serviceId := field e.bytes 4 2
      instanceId := field e.bytes 6 2
      majorVersion := field e.bytes 8 1
      minorVersion := e.last32
      ttl := field e.bytes 9 3
      options := e.options opts })
  else if e.entryType = 0x06 ∨ e.entryType = 0x07 then
    some (.eventgroup {
      entryType := e.entryType
      serviceId := field e.bytes 4 2
      instanceId := field e.bytes 6 2
      majorVersion := field e.bytes 8 1
      eventgroupId := (e.last32 % 2 ^ 16 : Nat)
      counter := (e.last32 / 2 ^ 16 % 2 ^ 4 : Nat)
      ttl := field e.bytes 9 3
      initialDataReq := e.last32.testBit 20
      options := e.options opts })
  else none

end WireEntry

/-! ### Reading them -/

theorem WireOption.length_bytes (o : WireOption) : o.bytes.length = 3 + o.content.length := by
  simp [bytes]
  omega

theorem WireOption.fields (o : WireOption) (pre post : Bytes) :
    let data := pre ++ (o.bytes ++ post)
    field data pre.length 2 = o.content.length ∧ field data (pre.length + 2) 1 = o.optType.toNat ∧
      ∀ off w, off + w ≤ o.content.length → field data (pre.length + (3 + off)) w = field o.content off w := by
  intro data
  have hdata : data = pre ++ (encodeInt 2 o.content.length ++ ([o.optType] ++ (o.content ++ post))) := by
    simp only [data, bytes, List.append_assoc, List.cons_append, List.nil_append]
  have hlt := o.length_lt
  refine ⟨?_, ?_, fun off w h => ?_⟩
  · have hfield := BigEndian.field_encodeInt_zero 2 o.content.length ([o.optType] ++ (o.content ++ post))
    have hadd := BigEndian.field_append_add pre
      (encodeInt 2 o.content.length ++ ([o.optType] ++ (o.content ++ post))) 0 2
    rw [Nat.add_zero] at hadd
    rw [hdata, hadd]
    omega
  · rw [hdata, BigEndian.field_append_add, BigEndian.field_encodeInt_skip _ _ _ _ (Nat.le_refl _)]
    simp [field, BigEndian.decode]
  · have hskip : 3 + off - 2 = [o.optType].length + off := by
      rw [List.length_singleton]
      omega
    rw [hdata, BigEndian.field_append_add, BigEndian.field_encodeInt_skip _ _ _ _ (by omega), hskip,
      BigEndian.field_append_add, BigEndian.field_append_left _ _ h]

theorem WireOption.reads (o : WireOption) : OptionReads o.bytes o.read := by
  have hlen := o.length_bytes
  refine ⟨List.ne_nil_of_length_pos (by omega), fun pre post => ?_⟩
  obtain ⟨hlength, htype, hcontent⟩ := o.fields pre post
  have htotal : pre.length + (2 + 1 + o.content.length) = pre.length + o.bytes.length := by omega
  have hlast : (pre ++ (o.bytes ++ post)).length = pre.length + o.bytes.length + post.length := by
    rw [List.length_append, List.length_append, Nat.add_assoc]
  generalize pre ++ (o.bytes ++ post) = data at *
  unfold parseOption unpackFrom byteAt
  rw [if_neg (by omega), raiseIf_neg (by omega), Except.ok_bind, raiseIf_neg (by omega)]
  simp only [Except.ok_bind, Except.pure_eq_ok]
  rw [hlength, htype, htotal, if_neg (by omega)]
  unfold WireOption.read
  by_cases hnine : o.content.length = 9
  · have haddr := hcontent 1 4 (by omega)
    have hl4 := hcontent 6 1 (by omega)
    have hport := hcontent 7 2 (by omega)
    simp only [Nat.reduceAdd] at haddr hl4 hport
    have hendpoint : ((o.optType.toNat : Int) = otIpv4Endpoint) ↔ o.optType = 0x04 := by
      rw [← UInt8.toNat_inj, otIpv4Endpoint]
      exact Int.natCast_inj
    have hmulticast : ((o.optType.toNat : Int) = otIpv4Multicast) ↔ o.optType = 0x14 := by
      rw [← UInt8.toNat_inj, otIpv4Multicast]
      exact Int.natCast_inj
    have hsize : 2 + 1 + o.content.length = optSize := by rw [hnine, optSize]
    rw [if_pos hnine, haddr, hl4, hport, raiseIf_neg (by unfold optSize; omega), Except.ok_bind]
    simp only [hendpoint, hmulticast, hsize, and_true]
    by_cases h4 : o.optType = 0x04
    · rw [if_pos (.inl h4), if_pos h4, if_pos h4]
      rfl
    · rw [if_neg h4, if_neg h4]
      by_cases h14 : o.optType = 0x14
      · rw [if_pos (.inr h14), if_pos h14]
        rfl
      · rw [if_neg (not_or.2 ⟨h4, h14⟩), if_neg h14]
  · rw [if_neg hnine, if_neg fun h => hnine (by have := h.2; unfold optSize at this; omega)]

theorem WireEntry.entryOptions_read (e : WireEntry) (opts : List WireOption) :
    entryOptions (opts.map WireOption.read) e.idx1 (e.numOpt1 % 16) = e.options opts := by
  have hcount : e.numOpt1 % 16 = e.numOpt1 := by
    have hbyte := BigEndian.field_lt e.bytes 3 1
    exact Nat.mod_eq_of_lt (by unfold numOpt1; omega)
  rw [hcount, options, entryOptions_eq, ← List.map_drop, ← List.map_take, List.filterMap_map]
  rfl

theorem WireEntry.reads (e : WireEntry) (opts : List WireOption) :
    EntryReads (opts.map WireOption.read) e.bytes (e.read opts) := by
  refine ⟨e.length_eq, fun pre post => ?_⟩
  have hfield (off w : Nat) (h : off + w ≤ 16) :
      field (pre ++ (e.bytes ++ post)) (pre.length + off) w = field e.bytes off w := by
    rw [BigEndian.field_append_add, BigEndian.field_append_left _ _ (by rw [e.length_eq]; exact h)]
  have hlen : ¬ (pre ++ (e.bytes ++ post)).length < pre.length + entrySize := by
    rw [List.length_append, List.length_append, e.length_eq, entrySize]
    omega
  have hfirst := hfield 0 1 (by decide)
  rw [Nat.add_zero] at hfirst
  generalize pre ++ (e.bytes ++ post) = data at *
  unfold parseEntry unpackFrom
  rw [raiseIf_neg hlen, Except.ok_bind]
  simp only [hfirst, hfield 1 1 (by decide), hfield 3 1 (by decide), hfield 4 2 (by decide), hfield 6 2 (by decide),
    hfield 8 1 (by decide), hfield 9 3 (by decide), hfield 12 4 (by decide)]
  have hopts := e.entryOptions_read opts
  unfold WireEntry.idx1 WireEntry.numOpt1 at hopts
  rw [hopts]
  unfold WireEntry.read WireEntry.entryType
  have hservice : ((field e.bytes 0 1 : Int) = etOfferService ∨ (field e.bytes 0 1 : Int) = etFindService) ↔
      field e.bytes 0 1 = 0x00 ∨ field e.bytes 0 1 = 0x01 := by
    unfold etOfferService etFindService
    omega
  have heventgroup : ((field e.bytes 0 1 : Int) = etSubscribeEventgroup ∨
      (field e.bytes 0 1 : Int) = etSubscribeEventgroupAck) ↔
      field e.bytes 0 1 = 0x06 ∨ field e.bytes 0 1 = 0x07 := by
    unfold etSubscribeEventgroup etSubscribeEventgroupAck
    omega
  simp only [hservice, heventgroup]
  split_ifs
  · rfl
  · have hflag : decide (field e.bytes 12 4 / 2 ^ 20 % 2 = 1) = e.last32.testBit 20 :=
      Nat.testBit_eq_decide_div_mod_eq.symm
    rw [hflag]
    rfl
  · rfl

/-- The parser resolves the positions that every entry names, in any mix of options and entries. -/
theorem parseSdMessage_resolves {data : Bytes} (h : Sd.Passes data) {entries : List WireEntry}
    {options : List WireOption} (hentries : Sd.entriesData data = entries.flatMap WireEntry.bytes)
    (hoptions : Sd.optionsData data = options.flatMap WireOption.bytes) :
    parseSdMessage data = .ok (some {
      sessionId := field data 10 2
      flags := field data 16 1
      entries := entries.filterMap fun e => e.read options }) := by
  have hopts : parseOptions (Sd.optionsData data) = .ok (options.map WireOption.read) := by
    rw [hoptions, List.flatMap]
    refine parseOptions_flatten (List.forall₂_map_left_iff.2 (List.forall₂_map_right_iff.2 ?_))
    exact List.forall₂_same.2 fun o _ => o.reads
  have hreads : parseEntries (options.map WireOption.read) (Sd.entriesData data) =
      .ok ((entries.map fun e => e.read options).flatMap Option.toList) := by
    rw [hentries, List.flatMap]
    refine parseEntries_flatten (List.forall₂_map_left_iff.2 (List.forall₂_map_right_iff.2 ?_))
    exact List.forall₂_same.2 fun e _ => e.reads options
  rw [parseSdMessage_of_passes h hopts hreads, List.flatMap_map]
  congr 3
  rw [List.filterMap_eq_flatMap_toList]

/-- A load-balancing option between two endpoints, and an endpoint of length 21 behind them. -/
def mixedOptions : List WireOption :=
  [⟨0x04, [0, 127, 0, 0, 1, 0, 17, 0x77, 0x30], by decide⟩, ⟨0x02, [0, 0, 1, 0, 2], by decide⟩,
    ⟨0x14, [0, 239, 255, 1, 2, 0, 17, 0x77, 0x31], by decide⟩, ⟨0x04, List.replicate 21 0, by decide⟩]

/-- A subscribe that points to the middle of the array, an entry of unknown type, and an offer that
points past its end. -/
def mixedEntries : List WireEntry :=
  [⟨[6, 1, 0, 0x20, 0x10, 2, 0, 1, 1, 0xFF, 0xFF, 0xFF, 0, 0x13, 0, 5], by decide⟩,
    ⟨[2, 0, 0, 0x40, 0x10, 2, 0, 1, 1, 0, 0, 3, 0, 0, 0, 0], by decide⟩,
    ⟨[1, 2, 0, 0xF0, 0x10, 2, 0, 1, 1, 0, 0, 3, 0, 0, 0, 7], by decide⟩]

def mixedDatagram : Bytes :=
  (sdHeader 9 124).pack ++ sdBodyBytes 0x40 (mixedEntries.flatMap WireEntry.bytes)
    (mixedOptions.flatMap WireOption.bytes)

theorem parseSdMessage_resolves_example :
    parseSdMessage mixedDatagram = .ok (some {
      sessionId := 9
      flags := 0x40
      entries := [
        .eventgroup {
          entryType := etSubscribeEventgroup, serviceId := 0x1002, instanceId := 1, majorVersion := 1
          eventgroupId := 5, counter := 3, ttl := ttlDefault, initialDataReq := true
          options := [.ipv4Multicast "239.255.1.2" 30513] },
        .service {
          entryType := etOfferService, serviceId := 0x1002, instanceId := 1, majorVersion := 1
          minorVersion := 7, ttl := 3, options := [.ipv4Multicast "239.255.1.2" 30513] }] }) := by
  rw [@parseSdMessage_resolves mixedDatagram (by decide +kernel) mixedEntries mixedOptions
    (by decide +kernel) (by decide +kernel)]
  exact congrArg (fun m => Except.ok (some m)) (by decide +kernel)

end AutoEth
