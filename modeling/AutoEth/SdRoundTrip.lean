import AutoEth.Sd

/-!
# SD round trip

`parseSdMessage_build`: whatever `build_sd_message` builds from offers, finds, subscribes and acks is
parsed, and the entries come back as the wire carries them (`SdEntry.onWire`): every field cut to its
width, and the options replaced by the window of the shared list that the 8-bit index and the 4-bit
number select. Entries that fit their fields come back as they are (`parseSdMessage_build_fits`).
-/

namespace AutoEth
open BigEndian (encodeInt field)

/-! ### Options -/

/-- An address as it comes back from the wire. -/
def canonicalIp (ip : String) : String := ((Inet.aton ip).map Inet.ntoa).getD ip

def SdOption.onWire : SdOption → SdOption
  | .ipv4Endpoint address port l4Proto => .ipv4Endpoint (canonicalIp address) (port % 2 ^ 16) l4Proto
  | .ipv4Multicast address port => .ipv4Multicast (canonicalIp address) (port % 2 ^ 16)

theorem packUInt_eq_ok {w : Nat} {x : Int} {bs : Bytes} :
    packUInt w x = .ok bs ↔ (0 ≤ x ∧ x < 256 ^ w) ∧ encodeInt w x = bs := by
  unfold packUInt
  split_ifs with h
  · simp [h]
  · simp [h]

theorem ipToU32_eq_ok {ip : String} {x : Int} :
    ipToU32 ip = .ok x ↔ ∃ v : Nat, x = v ∧ v < 2 ^ 32 ∧ Inet.ntoa v = canonicalIp ip ∧
      Inet.aton ip = some v := by
  unfold ipToU32
  cases h : Inet.aton ip with
  | none => simp
  | some v =>
    have hlt := Inet.aton_lt h
    constructor
    · rintro ⟨⟩
      exact ⟨v, rfl, hlt, by simp [canonicalIp, h], rfl⟩
    · rintro ⟨w, rfl, -, -, hw⟩
      cases hw
      rfl

theorem length_packIpv4 {otype ip l4 port : Int} {bs : Bytes} (h : packIpv4 otype ip l4 port = .ok bs) :
    bs.length = optSize := by
  obtain ⟨l4bs, hl4, h⟩ := Except.bind_eq_ok.1 h
  obtain ⟨-, rfl⟩ := packUInt_eq_ok.1 hl4
  cases h
  simp [optSize]

theorem packIpv4_fields {otype ip l4 port : Int} {bs : Bytes} (h : packIpv4 otype ip l4 port = .ok bs)
    (pre post : Bytes) :
    let data := pre ++ (bs ++ post)
    field data pre.length 2 = 9 ∧ (field data (pre.length + 2) 1 : Int) = otype % 2 ^ 8 ∧
      (field data (pre.length + 4) 4 : Int) = ip % 2 ^ 32 ∧
      (field data (pre.length + 9) 1 : Int) = l4 ∧
      (field data (pre.length + 10) 2 : Int) = port % 2 ^ 16 := by
  obtain ⟨l4bs, hl4, h⟩ := Except.bind_eq_ok.1 h
  obtain ⟨⟨h0, h1⟩, rfl⟩ := packUInt_eq_ok.1 hl4
  cases h
  intro data
  have hdata : data = pre ++ (encodeInt 2 0x0009 ++ (encodeInt 1 otype ++ (encodeInt 1 0 ++
      (encodeInt 4 ip ++ (encodeInt 1 0 ++ (encodeInt 1 l4 ++ (encodeInt 2 port ++ post))))))) := by
    simp only [data, List.append_assoc]
  have h9 : (field data (pre.length + 0) 2 : Int) = 9 := by
    rw [hdata, BigEndian.field_append_add, BigEndian.field_encodeInt_zero]
    rfl
  refine ⟨by exact_mod_cast h9, ?_, ?_, ?_, ?_⟩
  all_goals
    rw [hdata, BigEndian.field_append_add]
    simp only [BigEndian.field_encodeInt_zero, BigEndian.field_encodeInt_skip, Nat.reduceLeDiff,
      Nat.reduceSub, Nat.sub_self, Nat.le_refl]
  · norm_num
  · norm_num
  · exact Int.emod_eq_of_lt h0 h1
  · norm_num

theorem parseOption_packIpv4 {otype ip l4 port : Int} {bs : Bytes}
    (h : packIpv4 otype ip l4 port = .ok bs) (htype : otype = otIpv4Endpoint ∨ otype = otIpv4Multicast)
    {v : Nat} (hip : ip = v) (hv : v < 2 ^ 32) (pre post : Bytes) :
    parseOption (pre ++ (bs ++ post)) pre.length = .ok (some (if otype = otIpv4Endpoint then
      .ipv4Endpoint (Inet.ntoa v) (port % 2 ^ 16) l4 else .ipv4Multicast (Inet.ntoa v) (port % 2 ^ 16)),
      pre.length + optSize) := by
  have hlen : (pre ++ (bs ++ post)).length = pre.length + 12 + post.length := by
    rw [List.length_append, List.length_append, length_packIpv4 h, optSize]
    omega
  obtain ⟨hlenField, htypeField, hipField, hl4, hport⟩ := packIpv4_fields h pre post
  have ht : (field (pre ++ (bs ++ post)) (pre.length + 2) 1 : Int) = otype := by
    rw [htypeField]
    rcases htype with rfl | rfl <;> rfl
  have haddr : field (pre ++ (bs ++ post)) (pre.length + 4) 4 = v := by
    rw [hip] at hipField
    omega
  generalize pre ++ (bs ++ post) = data at *
  unfold parseOption unpackFrom byteAt
  rw [if_neg (by omega), raiseIf_neg (by omega), Except.ok_bind, raiseIf_neg (by omega)]
  simp only [Except.ok_bind, Except.pure_eq_ok, hlenField, haddr, hl4, hport, ht, u32ToIp]
  rw [if_neg (by omega), if_pos ⟨htype, rfl⟩, raiseIf_neg (by unfold optSize; omega), Except.ok_bind]
  split_ifs <;> rfl

theorem parseOption_packOption {o : SdOption} {bs : Bytes} (h : packOption o = .ok bs)
    (pre post : Bytes) :
    parseOption (pre ++ (bs ++ post)) pre.length = .ok (some o.onWire, pre.length + optSize) := by
  cases o with
  | ipv4Endpoint address port l4 =>
    obtain ⟨ip, hip, h⟩ := Except.bind_eq_ok.1 h
    obtain ⟨v, hipv, hv, hcanon, -⟩ := ipToU32_eq_ok.1 hip
    rw [parseOption_packIpv4 h (.inl rfl) hipv hv, if_pos rfl, hcanon]
    rfl
  | ipv4Multicast address port =>
    obtain ⟨ip, hip, h⟩ := Except.bind_eq_ok.1 h
    obtain ⟨v, hipv, hv, hcanon, -⟩ := ipToU32_eq_ok.1 hip
    rw [parseOption_packIpv4 h (.inr rfl) hipv hv, if_neg (by decide), hcanon]
    rfl

theorem length_packOption {o : SdOption} {bs : Bytes} (h : packOption o = .ok bs) :
    bs.length = optSize := by
  cases o with
  | ipv4Endpoint address port l4 =>
    obtain ⟨ip, -, h⟩ := Except.bind_eq_ok.1 h
    exact length_packIpv4 h
  | ipv4Multicast address port =>
    obtain ⟨ip, -, h⟩ := Except.bind_eq_ok.1 h
    exact length_packIpv4 h

theorem parseOptions_packOption {os : List SdOption} {bss : List Bytes} (h : os.mapM packOption = .ok bss) :
    parseOptions bss.flatten = .ok (os.map fun o => some o.onWire) := by
  refine parseOptions_flatten (List.forall₂_map_right_iff.2 ?_)
  refine (Except.mapM_eq_ok.1 h).flip.imp fun bs o ho => ⟨?_, fun pre post => ?_⟩
  · rintro rfl
    exact absurd (length_packOption ho) (by decide)
  · rw [parseOption_packOption ho, length_packOption ho]

/-! ### Entries -/

/-- The options that an entry gets back: a window of all options of the message. -/
def optionWindow (all : List SdOption) (start count : Nat) : List SdOption :=
  ((all.map SdOption.onWire).drop (start % 256)).take (count % 16)

/-- The kind of entry and its type agree. -/
def SdEntry.TypeOk : SdEntry → Prop
  | .service e => e.entryType = etOfferService ∨ e.entryType = etFindService
  | .eventgroup e => e.entryType = etSubscribeEventgroup ∨ e.entryType = etSubscribeEventgroupAck

/-- An entry as it comes back from the wire, where `all` are the options of the message and `start` is
the number of those before its own. -/
def SdEntry.onWire (all : List SdOption) (start : Nat) : SdEntry → SdEntry
  | .service e => .service {
      entryType := e.entryType
      serviceId := e.serviceId % 2 ^ 16
      instanceId := e.instanceId % 2 ^ 16
      majorVersion := e.majorVersion % 2 ^ 8
      minorVersion := e.minorVersion % 2 ^ 32
      ttl := max 0 (min e.ttl 0xFFFFFF)
      options := optionWindow all start e.options.length }
  | .eventgroup e => .eventgroup {
      entryType := e.entryType
      serviceId := e.serviceId % 2 ^ 16
      instanceId := e.instanceId % 2 ^ 16
      majorVersion := e.majorVersion % 2 ^ 8
      eventgroupId := e.eventgroupId % 2 ^ 16
      counter := e.counter % 16
      ttl := max 0 (min e.ttl 0xFFFFFF)
      initialDataReq := e.initialDataReq
      options := optionWindow all start e.options.length }

def entriesOnWire (all : List SdOption) : Nat → List SdEntry → List SdEntry
  | _, [] => []
  | start, e :: es => e.onWire all start :: entriesOnWire all (start + e.options.length) es

theorem entryOptions_some (l : List SdOption) (idx n : Nat) :
    entryOptions (l.map some) idx n = (l.drop idx).take n := by
  rw [entryOptions_eq, ← List.map_drop, ← List.map_take, List.filterMap_map]
  exact List.filterMap_some

theorem length_packRecord (entryType idx1 numOpts serviceId instanceId majorVersion ttl last32 : Int) :
    (packRecord entryType idx1 numOpts serviceId instanceId majorVersion ttl last32).length =
      entrySize := by
  simp [packRecord, entrySize]

theorem length_packEntry (idx1 : Nat) (e : SdEntry) : (packEntry idx1 e).length = entrySize := by
  cases e <;> exact length_packRecord ..

theorem packRecord_fields (entryType idx1 numOpts serviceId instanceId majorVersion ttl last32 : Int)
    (pre post : Bytes) :
    let data := pre ++
      (packRecord entryType idx1 numOpts serviceId instanceId majorVersion ttl last32 ++ post)
    (field data (pre.length + 0) 1 : Int) = entryType % 2 ^ 8 ∧
      (field data (pre.length + 1) 1 : Int) = idx1 % 2 ^ 8 ∧
      (field data (pre.length + 3) 1 : Int) = numOpts % 16 * 16 ∧
      (field data (pre.length + 4) 2 : Int) = serviceId % 2 ^ 16 ∧
      (field data (pre.length + 6) 2 : Int) = instanceId % 2 ^ 16 ∧
      (field data (pre.length + 8) 1 : Int) = majorVersion % 2 ^ 8 ∧
      (field data (pre.length + 9) 3 : Int) = max 0 (min ttl 0xFFFFFF) ∧
      (field data (pre.length + 12) 4 : Int) = last32 % 2 ^ 32 := by
  intro data
  have hdata : data = pre ++ (encodeInt 1 entryType ++ (encodeInt 1 idx1 ++ (encodeInt 1 0 ++
      (encodeInt 1 (numOpts % 16 * 16) ++ (encodeInt 2 serviceId ++ (encodeInt 2 instanceId ++
        (encodeInt 1 majorVersion ++ (encodeInt 3 (max 0 (min ttl 0xFFFFFF)) ++
          (encodeInt 4 last32 ++ post))))))))) := by
    simp only [data, packRecord, List.append_assoc]
  refine ⟨?_, ?_, ?_, ?_, ?_, ?_, ?_, ?_⟩
  all_goals
    rw [hdata, BigEndian.field_append_add]
    simp only [BigEndian.field_encodeInt_zero, BigEndian.field_encodeInt_skip, Nat.reduceLeDiff,
      Nat.reduceSub, Nat.sub_self, Nat.le_refl]
    norm_num
  · omega
  · omega

theorem entryOptions_onWire (os : List SdOption) (idx n : Nat) :
    entryOptions (os.map fun o => some o.onWire) idx n = ((os.map SdOption.onWire).drop idx).take n := by
  rw [← entryOptions_some, List.map_map]
  rfl

theorem parseEntry_packService {os : List SdOption} {e : ServiceEntry} (htype : (SdEntry.service e).TypeOk)
    (start : Nat) (pre post : Bytes) :
    parseEntry (os.map fun o => some o.onWire) (pre ++ (packEntry start (.service e) ++ post)) pre.length =
      .ok (some ((SdEntry.service e).onWire os start)) := by
  obtain ⟨h0, h1, h3, h4, h6, h8, h9, h12⟩ := packRecord_fields e.entryType start
    e.options.length e.serviceId e.instanceId e.majorVersion e.ttl e.minorVersion pre post
  have hlen : ¬ (pre ++ (packEntry start (.service e) ++ post)).length < pre.length + entrySize := by
    rw [List.length_append, List.length_append, length_packEntry]
    omega
  have htype' : e.entryType = etOfferService ∨ e.entryType = etFindService := htype
  have h0' : e.entryType % 2 ^ 8 = e.entryType := by rcases htype' with h | h <;> rw [h] <;> rfl
  rw [h0', Nat.add_zero] at h0
  simp only [packEntry] at hlen ⊢
  generalize pre ++ (packRecord e.entryType start e.options.length e.serviceId e.instanceId
    e.majorVersion e.ttl e.minorVersion ++ post) = data at *
  have hidx : field data (pre.length + 1) 1 = start % 256 := by omega
  have hnum : field data (pre.length + 3) 1 / 16 % 16 = e.options.length % 16 := by omega
  unfold parseEntry unpackFrom
  rw [raiseIf_neg hlen, Except.ok_bind]
  simp only [h0, hidx, hnum, h4, h6, h8, h9, h12, entryOptions_onWire]
  rw [if_pos htype']
  rfl

theorem eventgroupWord_fields {w : Nat} {eventgroupId counter : Int} {initialDataReq : Bool}
    (h : (w : Int) =
      (eventgroupId % 2 ^ 16 + counter % 16 * 2 ^ 16 + if initialDataReq then 2 ^ 20 else 0) % 2 ^ 32) :
    ((w % 2 ^ 16 : Nat) : Int) = eventgroupId % 2 ^ 16 ∧ ((w / 2 ^ 16 % 16 : Nat) : Int) = counter % 16 ∧
      decide (w / 2 ^ 20 % 2 = 1) = initialDataReq := by
  cases initialDataReq with
  | true =>
    rw [if_pos rfl] at h
    exact ⟨by omega, by omega, decide_eq_true (by omega)⟩
  | false =>
    rw [if_neg (by decide)] at h
    exact ⟨by omega, by omega, decide_eq_false (by omega)⟩

theorem parseEntry_packEventgroup {os : List SdOption} {e : EventgroupEntry}
    (htype : (SdEntry.eventgroup e).TypeOk) (start : Nat) (pre post : Bytes) :
    parseEntry (os.map fun o => some o.onWire) (pre ++ (packEntry start (.eventgroup e) ++ post)) pre.length =
      .ok (some ((SdEntry.eventgroup e).onWire os start)) := by
  obtain ⟨h0, h1, h3, h4, h6, h8, h9, h12⟩ := packRecord_fields e.entryType start
    e.options.length e.serviceId e.instanceId e.majorVersion e.ttl
    (e.eventgroupId % 2 ^ 16 + e.counter % 16 * 2 ^ 16 + if e.initialDataReq then 2 ^ 20 else 0)
    pre post
  have hlen : ¬ (pre ++ (packEntry start (.eventgroup e) ++ post)).length < pre.length + entrySize := by
    rw [List.length_append, List.length_append, length_packEntry]
    omega
  have htype' : e.entryType = etSubscribeEventgroup ∨ e.entryType = etSubscribeEventgroupAck := htype
  have h0' : e.entryType % 2 ^ 8 = e.entryType := by rcases htype' with h | h <;> rw [h] <;> rfl
  have hno : ¬ (e.entryType = etOfferService ∨ e.entryType = etFindService) := by
    rcases htype' with h | h <;> rw [h] <;> decide
  rw [h0', Nat.add_zero] at h0
  simp only [packEntry] at hlen ⊢
  generalize pre ++ (packRecord e.entryType start e.options.length e.serviceId e.instanceId
    e.majorVersion e.ttl (e.eventgroupId % 2 ^ 16 + e.counter % 16 * 2 ^ 16 +
      if e.initialDataReq then 2 ^ 20 else 0) ++ post) = data at *
  have hidx : field data (pre.length + 1) 1 = start % 256 := by omega
  have hnum : field data (pre.length + 3) 1 / 16 % 16 = e.options.length % 16 := by omega
  obtain ⟨hegid, hcounter, hinit⟩ := eventgroupWord_fields h12
  unfold parseEntry unpackFrom
  rw [raiseIf_neg hlen, Except.ok_bind]
  simp only [h0, hidx, hnum, h4, h6, h8, h9, entryOptions_onWire, hegid, hcounter, hinit]
  rw [if_neg hno, if_pos htype']
  rfl

theorem parseEntry_packEntry {os : List SdOption} {e : SdEntry} (htype : e.TypeOk) (start : Nat)
    (pre post : Bytes) :
    parseEntry (os.map fun o => some o.onWire) (pre ++ (packEntry start e ++ post)) pre.length =
      .ok (some (e.onWire os start)) := by
  cases e with
  | service e => exact parseEntry_packService htype start pre post
  | eventgroup e => exact parseEntry_packEventgroup htype start pre post

theorem exists_packedEntries {os : List SdOption} {entries : List SdEntry}
    (htype : ∀ e ∈ entries, e.TypeOk) (start : Nat) :
    ∃ bss, bss.flatten = packEntries start entries ∧
      List.Forall₂ (EntryReads (os.map fun o => some o.onWire)) bss ((entriesOnWire os start entries).map some) := by
  induction entries generalizing start with
  | nil => exact ⟨[], rfl, .nil⟩
  | cons e es ih =>
    obtain ⟨bss, hbss, hreads⟩ :=
      ih (fun e' he' => htype e' (List.mem_cons_of_mem _ he')) (start + e.options.length)
    refine ⟨packEntry start e :: bss, by rw [List.flatten_cons, hbss, packEntries], .cons ?_ hreads⟩
    exact ⟨length_packEntry start e, parseEntry_packEntry (htype e (List.mem_cons_self ..)) start⟩

theorem parseEntries_packEntries {os : List SdOption} {entries : List SdEntry}
    (htype : ∀ e ∈ entries, e.TypeOk) :
    parseEntries (os.map fun o => some o.onWire) (packEntries 0 entries) =
      .ok (entriesOnWire os 0 entries) := by
  obtain ⟨bss, hbss, hreads⟩ := @exists_packedEntries os entries htype 0
  rw [← hbss, parseEntries_flatten hreads, List.flatMap_map]
  exact congrArg Except.ok (List.flatMap_singleton' _)

/-! ### Messages -/

/-- The body: flags, lengths and arrays. -/
def sdBodyBytes (flags : Int) (entriesBuf optsBytes : Bytes) : Bytes :=
  encodeInt 1 flags ++ ([0, 0, 0] ++ (encodeInt 4 entriesBuf.length ++ (entriesBuf ++
    (encodeInt 4 optsBytes.length ++ optsBytes))))

theorem length_sdBodyBytes (flags : Int) (ebuf obuf : Bytes) :
    (sdBodyBytes flags ebuf obuf).length = 12 + ebuf.length + obuf.length := by
  simp [sdBodyBytes]
  omega

theorem packUInt_length_eq_ok {n : Nat} {bs : Bytes} :
    packUInt 4 n = .ok bs ↔ n < 2 ^ 32 ∧ encodeInt 4 n = bs := by
  rw [packUInt_eq_ok]
  refine and_congr_left fun _ => ?_
  omega

theorem sdBody_eq_ok {flags : Int} {ebuf obuf body : Bytes} :
    sdBody flags ebuf obuf = .ok body ↔
      ebuf.length < 2 ^ 32 ∧ obuf.length < 2 ^ 32 ∧ sdBodyBytes flags ebuf obuf = body := by
  simp only [sdBody, Except.bind_eq_ok, packUInt_length_eq_ok, Except.pure_eq_ok, Except.ok.injEq]
  constructor
  · rintro ⟨_, ⟨he, rfl⟩, _, ⟨ho, rfl⟩, rfl⟩
    exact ⟨he, ho, rfl⟩
  · rintro ⟨he, ho, rfl⟩
    exact ⟨_, ⟨he, rfl⟩, _, ⟨ho, rfl⟩, rfl⟩

theorem buildSdMessage_eq_ok {sessionId flags : Int} {entries : List SdEntry} {data : Bytes} :
    buildSdMessage sessionId entries flags = .ok data ↔
      ∃ bss, (entries.flatMap SdEntry.options).mapM packOption = .ok bss ∧
        let body := sdBodyBytes flags (packEntries 0 entries) bss.flatten
        8 + body.length < 2 ^ 32 ∧ (sdHeader sessionId (8 + body.length)).pack ++ body = data := by
  have hcast (n : Nat) : (8 + n : Int) = ((8 + n : Nat) : Int) := by push_cast; rfl
  simp only [buildSdMessage, Except.bind_eq_ok, sdBody_eq_ok, Except.pure_eq_ok, Except.ok.injEq]
  constructor
  · rintro ⟨bss, hbss, body, ⟨-, -, rfl⟩, _, hlen, rfl⟩
    rw [hcast, packUInt_length_eq_ok] at hlen
    exact ⟨bss, hbss, hlen.1, rfl⟩
  · rintro ⟨bss, hbss, hlen, rfl⟩
    have hparts := length_sdBodyBytes flags (packEntries 0 entries) bss.flatten
    have hsum := packUInt_length_eq_ok.2 ⟨hlen, rfl⟩
    rw [← hcast] at hsum
    exact ⟨bss, hbss, _, ⟨by omega, by omega, rfl⟩, _, hsum, rfl⟩

theorem sdHeader_fields (sessionId length : Int) (body : Bytes) :
    let data := (sdHeader sessionId length).pack ++ body
    (field data 0 2 : Int) = sdServiceId ∧ (field data 2 2 : Int) = sdMethodId ∧
      (field data 4 4 : Int) = length % 2 ^ 32 ∧ (field data 10 2 : Int) = sessionId % 2 ^ 16 ∧
      data.drop hdrSize = body := by
  intro data
  refine ⟨?_, ?_, ?_, ?_, List.drop_left' (SomeIpHeader.length_pack _)⟩
  all_goals
    simp only [data, SomeIpHeader.pack, List.append_assoc, BigEndian.field_encodeInt_zero,
      BigEndian.field_encodeInt_skip, Nat.reduceLeDiff, Nat.reduceSub, Nat.le_refl, Nat.sub_self]
    rfl

theorem sdBodyBytes_fields {flags : Int} {ebuf obuf : Bytes}
    (hlen : (sdBodyBytes flags ebuf obuf).length < 2 ^ 32) :
    let body := sdBodyBytes flags ebuf obuf
    (field body 0 1 : Int) = flags % 2 ^ 8 ∧ field body 4 4 = ebuf.length ∧
      (body.drop 8).take ebuf.length = ebuf ∧ field body (8 + ebuf.length) 4 = obuf.length ∧
      (body.drop (8 + ebuf.length + 4)).take obuf.length = obuf := by
  intro body
  rw [length_sdBodyBytes] at hlen
  have hzeros : ([0, 0, 0] : Bytes) = encodeInt 3 0 := by decide
  have hfront : body = (encodeInt 1 flags ++ (encodeInt 3 0 ++ encodeInt 4 ebuf.length)) ++
      (ebuf ++ (encodeInt 4 obuf.length ++ obuf)) := by
    simp only [body, sdBodyBytes, hzeros, List.append_assoc]
  have hbody8 : body.drop 8 = ebuf ++ (encodeInt 4 obuf.length ++ obuf) := by
    rw [hfront, List.drop_left']
    simp
  have hrest : body.drop (8 + ebuf.length) = encodeInt 4 obuf.length ++ obuf := by
    rw [← List.drop_drop, hbody8, List.drop_left']
    rfl
  refine ⟨?_, ?_, by rw [hbody8, List.take_left' rfl], ?_, ?_⟩
  · simp only [body, sdBodyBytes, BigEndian.field_encodeInt_zero]
    norm_num
  · have hlt : (ebuf.length : Int) < 256 ^ 4 := by norm_num; omega
    have hfield : (field body 4 4 : Int) = ebuf.length := by
      simp only [body, sdBodyBytes, hzeros, BigEndian.field_encodeInt_skip, BigEndian.field_encodeInt_zero,
        Nat.reduceLeDiff, Nat.reduceSub, Nat.le_refl, Nat.sub_self]
      exact Int.emod_eq_of_lt (by positivity) hlt
    exact_mod_cast hfield
  · have hlt : (obuf.length : Int) < 256 ^ 4 := by norm_num; omega
    have hfield : (field (body.drop (8 + ebuf.length)) 0 4 : Int) = obuf.length := by
      rw [hrest, BigEndian.field_encodeInt_zero]
      exact Int.emod_eq_of_lt (by positivity) hlt
    rw [BigEndian.field_drop, Nat.add_zero] at hfield
    exact_mod_cast hfield
  · rw [← List.drop_drop, hrest, List.drop_left' (by simp), List.take_of_length_le (Nat.le_refl _)]

/-- The datagram passes the checks, its declared lengths are the real ones, and these are its arrays. -/
structure Sd.Holds (data ebuf obuf : Bytes) : Prop where
  passes : Sd.Passes data
  length : field data 4 4 + 8 = data.length
  entriesLength : Sd.entriesLength data = ebuf.length
  entriesData : Sd.entriesData data = ebuf
  optionsLength : Sd.optionsLength data = obuf.length
  optionsData : Sd.optionsData data = obuf

theorem buildSdMessage_holds {sessionId flags : Int} {entries : List SdEntry} {data : Bytes}
    (h : buildSdMessage sessionId entries flags = .ok data) :
    ∃ bss, (entries.flatMap SdEntry.options).mapM packOption = .ok bss ∧
      Sd.Holds data (packEntries 0 entries) bss.flatten ∧
      (field data 10 2 : Int) = sessionId % 2 ^ 16 ∧ (field data 16 1 : Int) = flags % 2 ^ 8 := by
  obtain ⟨bss, hbss, hlen, rfl⟩ := buildSdMessage_eq_ok.1 h
  refine ⟨bss, hbss, ?_⟩
  generalize packEntries 0 entries = ebuf at *
  generalize bss.flatten = obuf at *
  obtain ⟨hflags, hentriesLen, hentries, hoptsLen, hopts⟩ :=
    sdBodyBytes_fields (show (sdBodyBytes flags ebuf obuf).length < 2 ^ 32 by omega)
  have hbodylen := length_sdBodyBytes flags ebuf obuf
  generalize sdBodyBytes flags ebuf obuf = body at *
  obtain ⟨hsvc, hmethod, hlength, hsession, hdrop⟩ := sdHeader_fields sessionId (8 + body.length) body
  have hdatalen : ((sdHeader sessionId (8 + body.length)).pack ++ body).length = 16 + body.length := by
    rw [List.length_append, SomeIpHeader.length_pack]
  generalize (sdHeader sessionId (8 + body.length)).pack ++ body = data at *
  have hentriesLength : Sd.entriesLength data = ebuf.length := by
    rw [← Sd.field_payload_entries, hdrop, hentriesLen]
  have hoptionsLength : Sd.optionsLength data = obuf.length := by
    rw [← Sd.field_payload_options, hdrop, hentriesLength, hoptsLen]
  refine ⟨⟨⟨?_, ?_, by omega⟩, by omega, hentriesLength, ?_, hoptionsLength, ?_⟩, hsession, ?_⟩
  · unfold sdServiceId at hsvc
    omega
  · unfold sdMethodId at hmethod
    omega
  · rw [← Sd.payload_entries, hdrop, hentriesLength, hentries]
  · rw [← Sd.payload_options, hdrop, hentriesLength, hoptionsLength, hopts]
  · rw [← hflags, ← hdrop, BigEndian.field_drop]
    rfl

/-- Whatever was built from entries of the four types is parsed, and comes back as on the wire. -/
theorem parseSdMessage_build {sessionId flags : Int} {entries : List SdEntry} {data : Bytes}
    (h : buildSdMessage sessionId entries flags = .ok data) (htype : ∀ e ∈ entries, e.TypeOk) :
    parseSdMessage data = .ok (some {
      sessionId := sessionId % 2 ^ 16
      flags := flags % 2 ^ 8
      entries := entriesOnWire (entries.flatMap SdEntry.options) 0 entries }) := by
  obtain ⟨bss, hbss, hholds, hsession, hflags⟩ := buildSdMessage_holds h
  have hopts := parseOptions_packOption hbss
  rw [← hholds.optionsData] at hopts
  have hentries := @parseEntries_packEntries (entries.flatMap SdEntry.options) entries htype
  rw [← hholds.entriesData] at hentries
  rw [parseSdMessage_of_passes hholds.passes hopts hentries, hsession, hflags]

/-! ### Messages that fit -/

def FitsBits (w : Nat) (x : Int) : Prop := 0 ≤ x ∧ x < 2 ^ w

instance (w : Nat) (x : Int) : Decidable (FitsBits w x) := by unfold FitsBits; infer_instance

theorem FitsBits.emod_eq {w : Nat} {x : Int} (h : FitsBits w x) : x % 2 ^ w = x :=
  Int.emod_eq_of_lt h.1 h.2

theorem FitsBits.of_emod_eq {w : Nat} {x : Int} (h : x % 2 ^ w = x) : FitsBits w x := by
  rw [← h]
  exact ⟨Int.emod_nonneg x (by positivity), Int.emod_lt_of_pos x (by positivity)⟩

def SdOption.Fits : SdOption → Prop
  | .ipv4Endpoint address port l4Proto => Inet.Canonical address ∧ FitsBits 16 port ∧ FitsBits 8 l4Proto
  | .ipv4Multicast address port => Inet.Canonical address ∧ FitsBits 16 port

structure ServiceEntry.Fits (e : ServiceEntry) : Prop where
  entryType : e.entryType = etOfferService ∨ e.entryType = etFindService
  serviceId : FitsBits 16 e.serviceId
  instanceId : FitsBits 16 e.instanceId
  majorVersion : FitsBits 8 e.majorVersion
  minorVersion : FitsBits 32 e.minorVersion
  ttl : FitsBits 24 e.ttl

structure EventgroupEntry.Fits (e : EventgroupEntry) : Prop where
  entryType : e.entryType = etSubscribeEventgroup ∨ e.entryType = etSubscribeEventgroupAck
  serviceId : FitsBits 16 e.serviceId
  instanceId : FitsBits 16 e.instanceId
  majorVersion : FitsBits 8 e.majorVersion
  eventgroupId : FitsBits 16 e.eventgroupId
  counter : FitsBits 4 e.counter
  ttl : FitsBits 24 e.ttl

def SdEntry.FieldsFit : SdEntry → Prop
  | .service e => e.Fits
  | .eventgroup e => e.Fits

/-- The fields of an entry and of its options have their widths, and so does the number of options. -/
structure SdEntry.Fits (e : SdEntry) : Prop where
  fields : e.FieldsFit
  options : ∀ o ∈ e.options, o.Fits
  count : e.options.length ≤ 15

theorem SdEntry.Fits.typeOk {e : SdEntry} (h : e.Fits) : e.TypeOk := by
  cases e with
  | service e => exact ServiceEntry.Fits.entryType h.fields
  | eventgroup e => exact EventgroupEntry.Fits.entryType h.fields

theorem canonicalIp_of_canonical {ip : String} (h : Inet.Canonical ip) : canonicalIp ip = ip := by
  obtain ⟨v, -, hv, hs⟩ := h.exists_aton
  rw [canonicalIp, hv]
  exact hs

theorem SdOption.Fits.onWire_eq {o : SdOption} (h : o.Fits) : o.onWire = o := by
  cases o with
  | ipv4Endpoint address port l4 =>
    obtain ⟨hip, hport, -⟩ := h
    rw [onWire, canonicalIp_of_canonical hip, hport.emod_eq]
  | ipv4Multicast address port =>
    obtain ⟨hip, hport⟩ := h
    rw [onWire, canonicalIp_of_canonical hip, hport.emod_eq]

theorem exists_packOption_endpoint_iff {address : String} {port l4Proto : Int} (hl4 : FitsBits 8 l4Proto) :
    (∃ bs, packOption (.ipv4Endpoint address port l4Proto) = .ok bs) ↔ (Inet.aton address).isSome := by
  have hl : packUInt 1 l4Proto = .ok (encodeInt 1 l4Proto) := packUInt_eq_ok.2 ⟨hl4, rfl⟩
  rw [packOption, ipToU32]
  cases Inet.aton address with
  | none => simp
  | some v => exact iff_of_true ⟨_, by rw [Except.ok_bind, packIpv4, hl]; rfl⟩ rfl

theorem exists_packOption_multicast_iff {address : String} {port : Int} :
    (∃ bs, packOption (.ipv4Multicast address port) = .ok bs) ↔ (Inet.aton address).isSome := by
  rw [packOption, ipToU32]
  cases Inet.aton address with
  | none => simp
  | some v => exact iff_of_true ⟨_, rfl⟩ rfl

theorem SdOption.Fits.packOption_ok {o : SdOption} (h : o.Fits) : ∃ bs, packOption o = .ok bs := by
  cases o with
  | ipv4Endpoint address port l4 => exact (exists_packOption_endpoint_iff h.2.2).2 h.1.isSome_aton
  | ipv4Multicast address port => exact exists_packOption_multicast_iff.2 h.1.isSome_aton

/-- The window of an entry that starts within reach of its index are its own options. -/
theorem optionWindow_own {pre own post : List SdOption} (hcount : own.length ≤ 15)
    (hstart : own ≠ [] → pre.length ≤ 255) :
    optionWindow (pre ++ (own ++ post)) pre.length own.length = own.map SdOption.onWire := by
  by_cases hown : own = []
  · subst hown
    exact List.take_zero
  · have hlen := hstart hown
    rw [optionWindow, Nat.mod_eq_of_lt (by omega), Nat.mod_eq_of_lt (by omega), List.map_append,
      List.map_append, List.drop_left' (by simp), List.take_left' (by simp)]

theorem optionWindow_eq {pre own post : List SdOption} (hfits : ∀ o ∈ own, o.Fits)
    (hcount : own.length ≤ 15) (hstart : own ≠ [] → pre.length ≤ 255) :
    optionWindow (pre ++ (own ++ post)) pre.length own.length = own := by
  rw [optionWindow_own hcount hstart]
  conv_rhs => rw [← List.map_id own]
  exact List.map_congr_left fun o ho => (hfits o ho).onWire_eq

/-- The entry with other options. -/
def SdEntry.withOptions (options : List SdOption) : SdEntry → SdEntry
  | .service e => .service { e with options }
  | .eventgroup e => .eventgroup { e with options }

theorem SdEntry.FieldsFit.onWire_eq {e : SdEntry} (h : e.FieldsFit) (all : List SdOption) (start : Nat) :
    e.onWire all start = e.withOptions (optionWindow all start e.options.length) := by
  cases e with
  | service e =>
    have hf : e.Fits := h
    have httl := hf.ttl
    unfold FitsBits at httl
    simp only [SdEntry.onWire, SdEntry.withOptions, SdEntry.options]
    rw [hf.serviceId.emod_eq, hf.instanceId.emod_eq, hf.majorVersion.emod_eq, hf.minorVersion.emod_eq,
      show max 0 (min e.ttl 0xFFFFFF) = e.ttl by omega]
  | eventgroup e =>
    have hf : e.Fits := h
    have httl := hf.ttl
    unfold FitsBits at httl
    have hcounter : e.counter % 16 = e.counter := hf.counter.emod_eq
    simp only [SdEntry.onWire, SdEntry.withOptions, SdEntry.options]
    rw [hf.serviceId.emod_eq, hf.instanceId.emod_eq, hf.majorVersion.emod_eq, hf.eventgroupId.emod_eq,
      hcounter, show max 0 (min e.ttl 0xFFFFFF) = e.ttl by omega]

theorem SdEntry.withOptions_self (e : SdEntry) : e.withOptions e.options = e := by cases e <;> rfl

theorem SdEntry.Fits.onWire_eq {e : SdEntry} (h : e.Fits) {pre post : List SdOption}
    (hstart : e.options ≠ [] → pre.length ≤ 255) :
    e.onWire (pre ++ (e.options ++ post)) pre.length = e := by
  rw [h.fields.onWire_eq, optionWindow_eq h.options h.count hstart, e.withOptions_self]

/-- Every entry with options starts within reach of its 8-bit index. -/
def StartsFit (entries : List SdEntry) : Prop :=
  ∀ pre e post, entries = pre ++ e :: post → e.options ≠ [] →
    (pre.flatMap SdEntry.options).length ≤ 255

theorem StartsFit.of_length {entries : List SdEntry}
    (h : (entries.flatMap SdEntry.options).length ≤ 255) : StartsFit entries := by
  rintro pre e post rfl -
  rw [List.flatMap_append, List.length_append] at h
  omega

theorem entriesOnWire_eq {done entries : List SdEntry} (hfits : ∀ e ∈ entries, e.Fits)
    (hstart : StartsFit (done ++ entries)) :
    entriesOnWire ((done ++ entries).flatMap SdEntry.options)
      (done.flatMap SdEntry.options).length entries = entries := by
  induction entries generalizing done with
  | nil => rfl
  | cons e es ih =>
    have hsplit : done ++ e :: es = (done ++ [e]) ++ es := by simp
    have hopts : (done ++ e :: es).flatMap SdEntry.options =
        done.flatMap SdEntry.options ++ (e.options ++ es.flatMap SdEntry.options) := by simp
    have hnext : (done.flatMap SdEntry.options).length + e.options.length =
        ((done ++ [e]).flatMap SdEntry.options).length := by simp
    rw [entriesOnWire, hnext, hsplit, ih (fun e' he' => hfits e' (List.mem_cons_of_mem _ he'))
      (hsplit ▸ hstart), ← hsplit, hopts,
      (hfits e (List.mem_cons_self ..)).onWire_eq fun hne => hstart done e es rfl hne]

theorem length_packEntries (start : Nat) (entries : List SdEntry) :
    (packEntries start entries).length = 16 * entries.length := by
  induction entries generalizing start with
  | nil => rfl
  | cons e es ih =>
    rw [packEntries, List.length_append, length_packEntry, ih, List.length_cons, entrySize]
    omega

theorem length_flatten_packOption {os : List SdOption} {bss : List Bytes}
    (h : os.mapM packOption = .ok bss) : bss.flatten.length = 12 * os.length := by
  have hall := Except.mapM_eq_ok.1 h
  clear h
  induction hall with
  | nil => rfl
  | cons ho _ ih =>
    rw [List.flatten_cons, List.length_append, length_packOption ho, ih, List.length_cons, optSize]
    omega

theorem length_buildSdMessage {sessionId flags : Int} {entries : List SdEntry} {data : Bytes}
    (h : buildSdMessage sessionId entries flags = .ok data) :
    data.length = 28 + 16 * entries.length + 12 * (entries.flatMap SdEntry.options).length := by
  obtain ⟨bss, hbss, -, rfl⟩ := buildSdMessage_eq_ok.1 h
  have he := length_packEntries 0 entries
  have ho := length_flatten_packOption hbss
  have hlen := length_sdBodyBytes flags (packEntries 0 entries) bss.flatten
  rw [List.length_append, SomeIpHeader.length_pack]
  omega

/-- The builder succeeds on options that can be packed, up to the size of the length fields. -/
theorem exists_buildSdMessage {sessionId flags : Int} {entries : List SdEntry}
    (hopts : ∀ o ∈ entries.flatMap SdEntry.options, ∃ bs, packOption o = .ok bs)
    (hsize : 20 + 16 * entries.length + 12 * (entries.flatMap SdEntry.options).length < 2 ^ 32) :
    ∃ data, buildSdMessage sessionId entries flags = .ok data := by
  obtain ⟨bss, hbss⟩ := Except.exists_mapM_ok hopts
  have he := length_packEntries 0 entries
  have ho := length_flatten_packOption hbss
  have hlen := length_sdBodyBytes flags (packEntries 0 entries) bss.flatten
  exact ⟨_, buildSdMessage_eq_ok.2 ⟨bss, hbss, by omega, rfl⟩⟩

theorem buildSdMessage_size {sessionId flags : Int} {entries : List SdEntry} {data : Bytes}
    (h : buildSdMessage sessionId entries flags = .ok data) :
    20 + 16 * entries.length + 12 * (entries.flatMap SdEntry.options).length < 2 ^ 32 := by
  obtain ⟨bss, hbss, hbody, -⟩ := buildSdMessage_eq_ok.1 h
  have he := length_packEntries 0 entries
  have ho := length_flatten_packOption hbss
  have hlen := length_sdBodyBytes flags (packEntries 0 entries) bss.flatten
  omega

theorem parseMessage_build {sessionId flags : Int} {entries : List SdEntry} {data : Bytes}
    (h : buildSdMessage sessionId entries flags = .ok data) :
    ∃ hdr, parseMessage data = .ok (hdr, data.drop hdrSize) := by
  obtain ⟨bss, -, hlen, hdata⟩ := buildSdMessage_eq_ok.1 h
  replace hdata := hdata.symm
  generalize sdBodyBytes flags (packEntries 0 entries) bss.flatten = body at hlen hdata
  let f : Frame := {
    hdr := (sdHeader sessionId (8 + body.length)).masked
    payload := body
    onWire := SomeIpHeader.onWire_masked _
    length_eq := by
      show (8 + (body.length : Int)) % 2 ^ 32 = 8 + body.length
      omega }
  have hbytes : f.bytes = data := by
    rw [hdata, Frame.bytes, SomeIpHeader.pack_masked]
  have hdrop : data.drop hdrSize = body := by
    rw [hdata, List.drop_left']
    simp [hdrSize]
  rw [hdrop, ← hbytes]
  exact ⟨f.hdr, f.parseMessage_bytes⟩

/-- Decoding undoes encoding on messages that fit. -/
theorem parseSdMessage_build_fits {sessionId flags : Int} {entries : List SdEntry}
    (hsession : FitsBits 16 sessionId) (hflags : FitsBits 8 flags) (hfits : ∀ e ∈ entries, e.Fits)
    (hstart : StartsFit entries)
    (hsize : 28 + 16 * entries.length + 12 * (entries.flatMap SdEntry.options).length < 2 ^ 32) :
    ∃ data, buildSdMessage sessionId entries flags = .ok data ∧
      data.length = 28 + 16 * entries.length + 12 * (entries.flatMap SdEntry.options).length ∧
      parseSdMessage data = .ok (some ⟨sessionId, flags, entries⟩) ∧
      ∃ hdr, parseMessage data = .ok (hdr, data.drop hdrSize) := by
  have hopts : ∀ o ∈ entries.flatMap SdEntry.options, o.Fits := by
    intro o ho
    obtain ⟨e, he, ho⟩ := List.mem_flatMap.1 ho
    exact (hfits e he).options o ho
  obtain ⟨data, hbuild⟩ := exists_buildSdMessage (fun o ho => (hopts o ho).packOption_ok)
    (show 20 + 16 * entries.length + 12 * (entries.flatMap SdEntry.options).length < 2 ^ 32 by omega)
  have hwire := @entriesOnWire_eq [] entries hfits hstart
  refine ⟨data, hbuild, length_buildSdMessage hbuild, ?_, parseMessage_build hbuild⟩
  rw [parseSdMessage_build hbuild fun e he => (hfits e he).typeOk, hsession.emod_eq, hflags.emod_eq]
  rw [show entriesOnWire (entries.flatMap SdEntry.options) 0 entries = entries from hwire]

/-- A subscribe and an offer with one option each. -/
def exampleEntries : List SdEntry :=
  [.eventgroup {
      entryType := etSubscribeEventgroup, serviceId := 0x1002, instanceId := 1, majorVersion := 1
      eventgroupId := 1, counter := 0, ttl := ttlDefault, initialDataReq := false
      options := [.ipv4Endpoint "127.0.0.1" 30512 l4Udp] },
    .service {
      entryType := etOfferService, serviceId := 0x1002, instanceId := 1, majorVersion := 1
      minorVersion := 0, ttl := ttlDefault, options := [.ipv4Multicast "239.255.1.2" 30512] }]

theorem parseSdMessage_build_example :
    ∃ data, buildSdMessage 1 exampleEntries sdFlagUnicast = .ok data ∧ data.length = 84 ∧
      parseSdMessage data = .ok (some ⟨1, sdFlagUnicast, exampleEntries⟩) ∧
      ∃ hdr, parseMessage data = .ok (hdr, data.drop hdrSize) := by
  have hip : Inet.Canonical "127.0.0.1" := ⟨0x7f000001, by decide, by decide⟩
  have hgroup : Inet.Canonical "239.255.1.2" := ⟨0xefff0102, by decide, by decide⟩
  have hsub : SdOption.Fits (.ipv4Endpoint "127.0.0.1" 30512 l4Udp) := ⟨hip, by decide, by decide⟩
  have hoffer : SdOption.Fits (.ipv4Multicast "239.255.1.2" 30512) := ⟨hgroup, by decide⟩
  refine parseSdMessage_build_fits (by decide) (by decide) ?_ (.of_length (by decide)) (by decide)
  intro e he
  simp only [exampleEntries, List.mem_cons, List.not_mem_nil, or_false] at he
  rcases he with rfl | rfl
  · refine ⟨⟨.inl rfl, by decide, by decide, by decide, by decide, by decide, by decide⟩, ?_, by decide⟩
    intro o ho
    rw [List.mem_singleton.1 ho]
    exact hsub
  · refine ⟨⟨.inl rfl, by decide, by decide, by decide, by decide, by decide⟩, ?_, by decide⟩
    intro o ho
    rw [List.mem_singleton.1 ho]
    exact hoffer

end AutoEth
