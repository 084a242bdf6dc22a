import AutoEth.Someip
import AutoEth.Lib.Inet
import AutoEth.Lib.Loop

/-!
# SOME/IP-SD datagrams

`build_sd_message` and `parse_sd_message`. The builder writes every entry as a 16-byte record that
points into one list of options, by the index of its first option and their number; the parser reads
options and entries with two loops. Both check the ranges that `struct` checks, so that all of their
exceptions are explicit. Fields of one integer that the source puts together with `|` do not overlap,
and stand here as a sum.
-/

namespace AutoEth
open BigEndian (encodeInt field)

/-! ### Constants -/

def sdServiceId : Int := 0xFFFF
def sdMethodId : Int := 0x8100
def sdClientId : Int := 0x0000
def sdIfaceVer : Int := 0x01
def sdFlagReboot : Int := 0x80
def sdFlagUnicast : Int := 0x40
def etFindService : Int := 0x00
def etOfferService : Int := 0x01
def etSubscribeEventgroup : Int := 0x06
def etSubscribeEventgroupAck : Int := 0x07
def otIpv4Endpoint : Int := 0x04
def otIpv4Multicast : Int := 0x14
def l4Tcp : Int := 0x06
def l4Udp : Int := 0x11
def ttlStop : Int := 0x000000
def ttlDefault : Int := 0xFFFFFF
def entrySize : Nat := 16
def optSize : Nat := 12

/-! ### Messages -/

inductive SdOption where
  | ipv4Endpoint (address : String) (port l4Proto : Int)
  | ipv4Multicast (address : String) (port : Int)
deriving DecidableEq

structure ServiceEntry where
  entryType : Int
  serviceId : Int
  instanceId : Int
  majorVersion : Int
  minorVersion : Int
  ttl : Int
  options : List SdOption
deriving DecidableEq

structure EventgroupEntry where
  entryType : Int
  serviceId : Int
  instanceId : Int
  majorVersion : Int
  eventgroupId : Int
  counter : Int
  ttl : Int
  initialDataReq : Bool
  options : List SdOption
deriving DecidableEq

inductive SdEntry where
  | service (e : ServiceEntry)
  | eventgroup (e : EventgroupEntry)
deriving DecidableEq

def SdEntry.options : SdEntry → List SdOption
  | service e => e.options
  | eventgroup e => e.options

structure SdMessage where
  sessionId : Int
  flags : Int
  entries : List SdEntry
deriving DecidableEq

/-! ### Building -/

/-- The range check of `struct.pack` for an unsigned field of `w` bytes. -/
def packUInt (w : Nat) (x : Int) : Except PyErr Bytes :=
  if 0 ≤ x ∧ x < 256 ^ w then .ok (encodeInt w x) else .error (.structError "argument out of range")

def ipToU32 (ip : String) : Except PyErr Int :=
  match Inet.aton ip with
  | some v => .ok v
  | none => .error (.osError "illegal IP address string passed to inet_aton")

def u32ToIp (v : Nat) : String := Inet.ntoa v

/-- The layout that both options share. -/
def packIpv4 (otype ip l4 port : Int) : Except PyErr Bytes := do
  let l4 ← packUInt 1 l4
  return encodeInt 2 0x0009 ++ (encodeInt 1 otype ++ (encodeInt 1 0 ++ (encodeInt 4 ip ++
    (encodeInt 1 0 ++ (l4 ++ encodeInt 2 port)))))

def packOption : SdOption → Except PyErr Bytes
  | .ipv4Endpoint address port l4Proto => do packIpv4 otIpv4Endpoint (← ipToU32 address) l4Proto port
  | .ipv4Multicast address port => do packIpv4 otIpv4Multicast (← ipToU32 address) l4Udp port

/-- A 16-byte entry; `ttl` is cut to its 24 bits, every other field is masked. -/
def packRecord (entryType idx1 numOpts serviceId instanceId majorVersion ttl last32 : Int) : Bytes :=
  encodeInt 1 entryType ++ (encodeInt 1 idx1 ++ (encodeInt 1 0 ++ (encodeInt 1 (numOpts % 16 * 16) ++
    (encodeInt 2 serviceId ++ (encodeInt 2 instanceId ++ (encodeInt 1 majorVersion ++
      (encodeInt 3 (max 0 (min ttl 0xFFFFFF)) ++ encodeInt 4 last32)))))))

def packEntry (idx1 : Nat) : SdEntry → Bytes
  | .service e =>
    packRecord e.entryType idx1 e.options.length e.serviceId e.instanceId e.majorVersion e.ttl
      e.minorVersion
  | .eventgroup e =>
    packRecord e.entryType idx1 e.options.length e.serviceId e.instanceId e.majorVersion e.ttl
      (e.eventgroupId % 2 ^ 16 + e.counter % 16 * 2 ^ 16 + if e.initialDataReq then 2 ^ 20 else 0)

/-- The entries with the index of their first option, from `start` on. -/
def packEntries : Nat → List SdEntry → Bytes
  | _, [] => []
  | start, e :: es => packEntry start e ++ packEntries (start + e.options.length) es

def sdBody (flags : Int) (entriesBuf optsBytes : Bytes) : Except PyErr Bytes := do
  let entriesLen ← packUInt 4 entriesBuf.length
  let optsLen ← packUInt 4 optsBytes.length
  return encodeInt 1 flags ++ ([0, 0, 0] ++ (entriesLen ++ (entriesBuf ++ (optsLen ++ optsBytes))))

def sdHeader (sessionId length : Int) : SomeIpHeader where
  serviceId := sdServiceId
  methodId := sdMethodId
  length := length
  clientId := sdClientId
  sessionId := sessionId
  protoVer := protoVer
  ifaceVer := sdIfaceVer
  msgType := mtNotification
  returnCode := rcOk

def buildSdMessage (sessionId : Int) (entries : List SdEntry) (flags : Int) : Except PyErr Bytes := do
  let allOptions := entries.flatMap SdEntry.options
  let opts ← allOptions.mapM packOption
  let body ← sdBody flags (packEntries 0 entries) opts.flatten
  let _ ← packUInt 4 (8 + body.length)
  return (sdHeader sessionId (8 + body.length)).pack ++ body

/-! ### Parsing -/

/-- The range check of `struct.unpack_from` for a record of `size` bytes. -/
def unpackFrom (data : Bytes) (off size : Nat) : Except PyErr Unit :=
  raiseIf (data.length < off + size) (.structError s!"unpack_from requires a buffer of {off + size} bytes")

/-- `data[i]`. -/
def byteAt (data : Bytes) (i : Nat) : Except PyErr Nat := do
  raiseIf (data.length ≤ i) (.indexError "index out of range")
  return field data i 1

/-- The option at an offset, `none` where it is of no known kind, and the offset behind it. -/
def parseOption (data : Bytes) (off : Nat) : Except PyErr (Option SdOption × Nat) :=
  if data.length < off + 3 then .ok (none, data.length)
  else do
    unpackFrom data off 2
    let optType ← byteAt data (off + 2)
    let total := 2 + 1 + field data off 2
    let nextOff := off + total
    if data.length < nextOff then return (none, nextOff)
    else if (optType = otIpv4Endpoint ∨ optType = otIpv4Multicast) ∧ total = optSize then
      unpackFrom data off optSize
      let addr := u32ToIp (field data (off + 4) 4)
      let l4 := field data (off + 9) 1
      let port := field data (off + 10) 2
      if optType = otIpv4Endpoint then return (some (.ipv4Endpoint addr port l4), nextOff)
      else return (some (.ipv4Multicast addr port), nextOff)
    else return (none, nextOff)

theorem parseOption_lt {data : Bytes} {off next : Nat} {o : Option SdOption} (hoff : off < data.length)
    (h : parseOption data off = .ok (o, next)) : off < next := by
  unfold parseOption at h
  split at h
  · cases h
    exact hoff
  · obtain ⟨_, -, h⟩ := Except.bind_eq_ok.1 h
    obtain ⟨optType, -, h⟩ := Except.bind_eq_ok.1 h
    dsimp only at h
    split_ifs at h
    · cases h
      omega
    · obtain ⟨_, -, h⟩ := Except.bind_eq_ok.1 h
      cases h
      omega
    · obtain ⟨_, -, h⟩ := Except.bind_eq_ok.1 h
      cases h
      omega
    · cases h
      omega

/-- The loop over the options: the offset and the options so far. -/
def optionsLoop (data : Bytes) :
    Loop (Nat × List (Option SdOption)) (Except PyErr (List (Option SdOption))) where
  step s :=
    if data.length ≤ s.1 then .leave (.ok s.2)
    else
      match parseOption data s.1 with
      | .error e => .leave (.error e)
      | .ok (opt, pos) => .again (pos, s.2 ++ [opt])
  size s := data.length - s.1
  size_lt := by
    rintro ⟨pos, opts⟩ s' h
    dsimp only at h
    split at h
    · cases h
    · split at h
      · cases h
      · rename_i opt next hopt
        cases h
        have := parseOption_lt (by omega) hopt
        dsimp only
        omega

def parseOptions (data : Bytes) : Except PyErr (List (Option SdOption)) := (optionsLoop data).result (0, [])

/-- `[all_opts[k] for k in range(idx1, idx1 + num_opt1) if k < len(all_opts) and …]`. -/
def entryOptions (allOpts : List (Option SdOption)) (idx1 numOpt1 : Nat) : List SdOption :=
  (List.range' idx1 numOpt1).filterMap fun k => (allOpts[k]?).join

/-- The entry at an offset, `none` where it is of no known type. -/
def parseEntry (allOpts : List (Option SdOption)) (data : Bytes) (off : Nat) :
    Except PyErr (Option SdEntry) := do
  unpackFrom data off entrySize
  let entryType : Int := field data off 1
  let idx1 := field data (off + 1) 1
  let numByte := field data (off + 3) 1
  let serviceId := field data (off + 4) 2
  let instanceId := field data (off + 6) 2
  let majorVersion := field data (off + 8) 1
  let ttl := field data (off + 9) 3
  let last32 := field data (off + 12) 4
  let options := entryOptions allOpts idx1 (numByte / 16 % 16)
  if entryType = etOfferService ∨ entryType = etFindService then
    return some (.service {
      entryType, serviceId, instanceId, majorVersion, minorVersion := last32, ttl, options })
  else if entryType = etSubscribeEventgroup ∨ entryType = etSubscribeEventgroupAck then
    return some (.eventgroup {
      entryType, serviceId, instanceId, majorVersion
      eventgroupId := (last32 % 2 ^ 16 : Nat), counter := (last32 / 2 ^ 16 % 16 : Nat), ttl
      initialDataReq := last32 / 2 ^ 20 % 2 = 1, options })
  else return none

/-- The loop over the entries: the offset and the entries so far. -/
def entriesLoop (allOpts : List (Option SdOption)) (data : Bytes) :
    Loop (Nat × List SdEntry) (Except PyErr (List SdEntry)) where
  step s :=
    if data.length < s.1 + entrySize then .leave (.ok s.2)
    else
      match parseEntry allOpts data s.1 with
      | .error e => .leave (.error e)
      | .ok entry => .again (s.1 + entrySize, s.2 ++ entry.toList)
  size s := data.length - s.1
  size_lt := by
    rintro ⟨pos, entries⟩ s' h
    dsimp only at h
    split at h
    · cases h
    · split at h
      · cases h
      · cases h
        unfold entrySize at *
        dsimp only
        omega

def parseEntries (allOpts : List (Option SdOption)) (data : Bytes) : Except PyErr (List SdEntry) :=
  (entriesLoop allOpts data).result (0, [])

def parseSdMessage (data : Bytes) : Except PyErr (Option SdMessage) :=
  if data.length < hdrSize + 8 then .ok none
  else do
    unpackFrom data 0 hdrSize
    if field data 0 2 ≠ sdServiceId ∨ field data 2 2 ≠ sdMethodId then return none
    else
      let payload := data.drop hdrSize
      if payload.length < 8 then return none
      else
        let flags ← byteAt payload 0
        unpackFrom payload 4 4
        let entriesLen := field payload 4 4
        let pos := 8
        if payload.length < pos + entriesLen then return none
        else
          let entriesData := (payload.drop pos).take entriesLen
          let pos := pos + entriesLen
          if payload.length < pos + 4 then return none
          else
            unpackFrom payload pos 4
            let optsLen := field payload pos 4
            let optsData := (payload.drop (pos + 4)).take optsLen
            let allOpts ← parseOptions optsData
            let entries ← parseEntries allOpts entriesData
            return some { sessionId := field data 10 2, flags, entries }

/-! ### Arrays that are read piece by piece -/

/-- The window of the array that an entry points to, less what is no known option. -/
theorem entryOptions_eq (l : List (Option SdOption)) (idx n : Nat) :
    entryOptions l idx n = ((l.drop idx).take n).filterMap id := by
  unfold entryOptions
  induction n generalizing idx with
  | zero => simp
  | succ n ih =>
    rw [List.range'_succ, List.filterMap_cons, ih (idx + 1)]
    rcases Nat.lt_or_ge idx l.length with hlt | hge
    · rw [List.getElem?_eq_getElem hlt, List.drop_eq_getElem_cons hlt, List.take_succ_cons,
        List.filterMap_cons]
      rfl
    · rw [List.getElem?_eq_none hge, List.drop_of_length_le hge,
        List.drop_of_length_le (Nat.le_succ_of_le hge), List.take_nil]
      rfl

/-- The bytes are read as one option, wherever they stand. -/
structure OptionReads (bs : Bytes) (o : Option SdOption) : Prop where
  ne_nil : bs ≠ []
  reads : ∀ pre post : Bytes, parseOption (pre ++ (bs ++ post)) pre.length = .ok (o, pre.length + bs.length)

/-- The bytes are read as one entry, wherever they stand. -/
structure EntryReads (allOpts : List (Option SdOption)) (bs : Bytes) (e : Option SdEntry) : Prop where
  length_eq : bs.length = entrySize
  reads : ∀ pre post : Bytes, parseEntry allOpts (pre ++ (bs ++ post)) pre.length = .ok e

theorem optionsLoop_flatten {bss : List Bytes} {os : List (Option SdOption)}
    (h : List.Forall₂ OptionReads bss os) (pre : Bytes) (acc : List (Option SdOption)) :
    (optionsLoop (pre ++ bss.flatten)).result (pre.length, acc) = .ok (acc ++ os) := by
  induction h generalizing pre acc with
  | nil =>
    rw [List.flatten_nil, List.append_nil, List.append_nil]
    exact Loop.result_leave (if_pos (Nat.le_refl _))
  | @cons bs o bss os ho hos ih =>
    have hpos := List.length_pos_of_ne_nil ho.ne_nil
    have hstep : (optionsLoop (pre ++ (bs :: bss).flatten)).step (pre.length, acc) =
        .again ((pre ++ bs).length, acc ++ [o]) := by
      have hmore : ¬ (pre ++ (bs :: bss).flatten).length ≤ pre.length := by
        rw [List.flatten_cons, List.length_append, List.length_append]
        omega
      simp only [optionsLoop]
      rw [if_neg hmore, List.flatten_cons, ho.reads, List.length_append]
    rw [Loop.result_again hstep, List.flatten_cons, ← List.append_assoc, ih (pre ++ bs), List.append_assoc]
    rfl

theorem parseOptions_flatten {bss : List Bytes} {os : List (Option SdOption)}
    (h : List.Forall₂ OptionReads bss os) : parseOptions bss.flatten = .ok os := by
  simpa [parseOptions] using optionsLoop_flatten h [] []

theorem entriesLoop_flatten {allOpts : List (Option SdOption)} {bss : List Bytes} {es : List (Option SdEntry)}
    (h : List.Forall₂ (EntryReads allOpts) bss es) (pre : Bytes) (acc : List SdEntry) :
    (entriesLoop allOpts (pre ++ bss.flatten)).result (pre.length, acc) =
      .ok (acc ++ es.flatMap Option.toList) := by
  induction h generalizing pre acc with
  | nil =>
    rw [List.flatten_nil, List.append_nil, List.flatMap_nil, List.append_nil]
    exact Loop.result_leave (if_pos (by unfold entrySize; omega))
  | @cons bs e bss es he hes ih =>
    have hlen : (pre ++ bs).length = pre.length + entrySize := by rw [List.length_append, he.length_eq]
    have hstep : (entriesLoop allOpts (pre ++ (bs :: bss).flatten)).step (pre.length, acc) =
        .again ((pre ++ bs).length, acc ++ e.toList) := by
      have hmore : ¬ (pre ++ (bs :: bss).flatten).length < pre.length + entrySize := by
        rw [List.flatten_cons, ← List.append_assoc, List.length_append, hlen]
        omega
      simp only [entriesLoop]
      rw [if_neg hmore, List.flatten_cons, he.reads, hlen]
    rw [Loop.result_again hstep, List.flatten_cons, ← List.append_assoc, ih (pre ++ bs), List.append_assoc,
      List.flatMap_cons]

theorem parseEntries_flatten {allOpts : List (Option SdOption)} {bss : List Bytes}
    {es : List (Option SdEntry)} (h : List.Forall₂ (EntryReads allOpts) bss es) :
    parseEntries allOpts bss.flatten = .ok (es.flatMap Option.toList) := by
  simpa [parseEntries] using entriesLoop_flatten h [] []

/-! ### The parser never raises

Every access is guarded by the length checks before it.
-/

theorem exists_parseOption (data : Bytes) (off : Nat) : ∃ r, parseOption data off = .ok r := by
  unfold parseOption unpackFrom byteAt
  by_cases hshort : data.length < off + 3
  · exact ⟨_, if_pos hshort⟩
  · rw [if_neg hshort, raiseIf_neg (by omega), raiseIf_neg (by omega)]
    simp only [Except.ok_bind, Except.pure_eq_ok]
    split_ifs with hlen hkind hendpoint
    · exact ⟨_, rfl⟩
    · rw [raiseIf_neg (by omega)]
      exact ⟨_, rfl⟩
    · rw [raiseIf_neg (by omega)]
      exact ⟨_, rfl⟩
    · exact ⟨_, rfl⟩

theorem exists_parseOptions (data : Bytes) : ∃ os, parseOptions data = .ok os := by
  unfold parseOptions
  refine (optionsLoop data).result_inv (I := fun _ => True) (R := fun t => ∃ os, t = .ok os) ?_ ?_ _
    trivial
  · exact fun _ _ _ _ => trivial
  · intro s t _ h
    obtain ⟨r, hr⟩ := exists_parseOption data s.1
    simp only [optionsLoop, hr] at h
    split at h
    · cases h
      exact ⟨_, rfl⟩
    · cases h

theorem exists_parseEntry (allOpts : List (Option SdOption)) {data : Bytes} {off : Nat}
    (h : off + entrySize ≤ data.length) : ∃ e, parseEntry allOpts data off = .ok e := by
  unfold parseEntry unpackFrom
  rw [raiseIf_neg (by omega), Except.ok_bind]
  dsimp only
  split_ifs
  · exact ⟨_, rfl⟩
  · exact ⟨_, rfl⟩
  · exact ⟨_, rfl⟩

theorem exists_parseEntries (allOpts : List (Option SdOption)) (data : Bytes) :
    ∃ es, parseEntries allOpts data = .ok es := by
  unfold parseEntries
  refine (entriesLoop allOpts data).result_inv (I := fun _ => True) (R := fun t => ∃ es, t = .ok es)
    ?_ ?_ _ trivial
  · exact fun _ _ _ _ => trivial
  · intro s t _ h
    simp only [entriesLoop] at h
    split at h
    · cases h
      exact ⟨_, rfl⟩
    · rename_i hlen
      obtain ⟨e, he⟩ := exists_parseEntry allOpts (Nat.le_of_not_lt hlen)
      rw [he] at h
      cases h

/-! ### The two arrays of a datagram -/

namespace Sd

/-- The declared length of the entries array. -/
def entriesLength (data : Bytes) : Nat := field data 20 4

def entriesData (data : Bytes) : Bytes := (data.drop 24).take (entriesLength data)

/-- The declared length of the options array. -/
def optionsLength (data : Bytes) : Nat := field data (24 + entriesLength data) 4

/-- The options array, as far as it lies in the datagram. -/
def optionsData (data : Bytes) : Bytes := (data.drop (28 + entriesLength data)).take (optionsLength data)

/-- What the parser checks: the ids, and that the entries and the length of the options lie inside. -/
structure Passes (data : Bytes) : Prop where
  serviceId : field data 0 2 = 0xFFFF
  methodId : field data 2 2 = 0x8100
  length_le : 28 + entriesLength data ≤ data.length

instance (data : Bytes) : Decidable (Passes data) :=
  decidable_of_iff (field data 0 2 = 0xFFFF ∧ field data 2 2 = 0x8100 ∧ 28 + entriesLength data ≤ data.length)
    ⟨fun ⟨hsvc, hmethod, hlen⟩ => ⟨hsvc, hmethod, hlen⟩, fun h => ⟨h.serviceId, h.methodId, h.length_le⟩⟩

/-! The same read from the payload, behind the SOME/IP header. -/

theorem field_payload_entries (data : Bytes) : field (data.drop hdrSize) 4 4 = entriesLength data :=
  BigEndian.field_drop ..

theorem payload_entries (data : Bytes) :
    ((data.drop hdrSize).drop 8).take (entriesLength data) = entriesData data := by
  rw [List.drop_drop]
  rfl

theorem field_payload_options (data : Bytes) :
    field (data.drop hdrSize) (8 + entriesLength data) 4 = optionsLength data := by
  rw [BigEndian.field_drop, optionsLength, ← Nat.add_assoc]
  rfl

theorem payload_options (data : Bytes) :
    ((data.drop hdrSize).drop (8 + entriesLength data + 4)).take (optionsLength data) = optionsData data := by
  rw [List.drop_drop, optionsData]
  congr 2
  unfold hdrSize
  omega

end Sd

/-- The parser reads the two arrays of the datagrams that pass its checks. -/
theorem parseSdMessage_eq (data : Bytes) : parseSdMessage data =
    if Sd.Passes data then do
      let opts ← parseOptions (Sd.optionsData data)
      let entries ← parseEntries opts (Sd.entriesData data)
      return some { sessionId := field data 10 2, flags := field data 16 1, entries }
    else .ok none := by
  have hlen : (data.drop hdrSize).length = data.length - 16 := List.length_drop
  have hflags : field (data.drop hdrSize) 0 1 = field data 16 1 := BigEndian.field_drop ..
  have hids : (field data 0 2 : Int) ≠ sdServiceId ∨ (field data 2 2 : Int) ≠ sdMethodId ↔
      ¬ (field data 0 2 = 0xFFFF ∧ field data 2 2 = 0x8100) := by
    unfold sdServiceId sdMethodId
    omega
  unfold parseSdMessage unpackFrom byteAt
  by_cases hshort : data.length < 24
  · have hno : ¬ Sd.Passes data := fun h => by
      have := h.length_le
      omega
    rw [if_pos (by unfold hdrSize; omega), if_neg hno]
  rw [if_neg (by unfold hdrSize; omega), raiseIf_neg (by unfold hdrSize; omega), Except.ok_bind]
  simp only [hids]
  by_cases hwrong : ¬ (field data 0 2 = 0xFFFF ∧ field data 2 2 = 0x8100)
  · rw [if_pos hwrong, if_neg fun h => hwrong ⟨h.serviceId, h.methodId⟩]
    rfl
  obtain ⟨hsvc, hmethod⟩ := not_not.1 hwrong
  rw [if_neg hwrong, if_neg (by omega), raiseIf_neg (by omega), Except.ok_bind, Except.pure_eq_ok,
    Except.ok_bind, raiseIf_neg (by omega), Except.ok_bind, Sd.field_payload_entries,
    Sd.field_payload_options, Sd.payload_entries, Sd.payload_options, hflags, hlen]
  by_cases hfits : 28 + Sd.entriesLength data ≤ data.length
  · rw [if_neg (by omega), if_neg (by omega), raiseIf_neg (by omega), Except.ok_bind,
      if_pos ⟨hsvc, hmethod, hfits⟩]
  · rw [if_neg (c := Sd.Passes data) fun h => hfits h.length_le]
    by_cases hrun : data.length - 16 < 8 + Sd.entriesLength data
    · rw [if_pos hrun]
      rfl
    · rw [if_neg hrun, if_pos (by omega)]
      rfl

theorem parseSdMessage_of_passes {data : Bytes} (h : Sd.Passes data) {opts : List (Option SdOption)}
    (hopts : parseOptions (Sd.optionsData data) = .ok opts) {entries : List SdEntry}
    (hentries : parseEntries opts (Sd.entriesData data) = .ok entries) :
    parseSdMessage data = .ok (some { sessionId := field data 10 2, flags := field data 16 1, entries }) := by
  rw [parseSdMessage_eq, if_pos h, hopts, Except.ok_bind, hentries]
  rfl

theorem parseSdMessage_of_not_passes {data : Bytes} (h : ¬ Sd.Passes data) : parseSdMessage data = .ok none := by
  rw [parseSdMessage_eq, if_neg h]

theorem exists_parseSdMessage (data : Bytes) : ∃ msg, parseSdMessage data = .ok msg := by
  by_cases h : Sd.Passes data
  · obtain ⟨opts, hopts⟩ := exists_parseOptions (Sd.optionsData data)
    obtain ⟨entries, hentries⟩ := exists_parseEntries opts (Sd.entriesData data)
    exact ⟨_, parseSdMessage_of_passes h hopts hentries⟩
  · exact ⟨_, parseSdMessage_of_not_passes h⟩

end AutoEth
