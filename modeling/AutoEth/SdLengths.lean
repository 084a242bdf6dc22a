import AutoEth.SdRoundTrip

/-!
# Declared lengths

An SD datagram declares its length three times: in the SOME/IP header, for the entries and for the
options. The parser compares only the length of the entries with the bytes it has.
`parseSdMessage_lengths_iff` names the datagrams that it accepts although their lengths disagree, and
the cuts of a built datagram that it notices: those that lose a byte of the entries or of the length
of the options, and never one that loses only options.
-/

namespace AutoEth
open BigEndian (field)

namespace Sd

/-- The declared lengths agree with the bytes. -/
structure LengthsAgree (data : Bytes) : Prop where
  length : field data 4 4 + 8 ≤ data.length
  entriesWhole : entrySize ∣ entriesLength data
  entriesInside : 24 + entriesLength data ≤ data.length
  optionsInside : 28 + entriesLength data + optionsLength data ≤ data.length

/-- The datagram passes the checks, and a length that they leave out is wrong. -/
structure Unnoticed (data : Bytes) : Prop where
  passes : Passes data
  wrong : data.length < field data 4 4 + 8 ∨ ¬ entrySize ∣ entriesLength data ∨
    data.length < 28 + entriesLength data + optionsLength data

end Sd

theorem exists_parseSdMessage_some_iff {data : Bytes} :
    (∃ msg, parseSdMessage data = .ok (some msg)) ↔ Sd.Passes data := by
  constructor
  · rintro ⟨msg, hmsg⟩
    by_contra hno
    rw [parseSdMessage_of_not_passes hno] at hmsg
    cases hmsg
  · intro h
    obtain ⟨opts, hopts⟩ := exists_parseOptions (Sd.optionsData data)
    obtain ⟨entries, hentries⟩ := exists_parseEntries opts (Sd.entriesData data)
    exact ⟨_, parseSdMessage_of_passes h hopts hentries⟩

theorem parseSdMessage_eq_none_iff {data : Bytes} : parseSdMessage data = .ok none ↔ ¬ Sd.Passes data := by
  refine ⟨fun h hpasses => ?_, parseSdMessage_of_not_passes⟩
  obtain ⟨msg, hmsg⟩ := exists_parseSdMessage_some_iff.2 hpasses
  rw [h] at hmsg
  cases hmsg

/-- A cut that keeps the fields which the parser checks. -/
theorem Sd.passes_take_iff {data : Bytes} (h : Passes data) {k : Nat} (hk : k ≤ data.length) :
    Passes (data.take k) ↔ 28 + entriesLength data ≤ k := by
  have hlen : (data.take k).length = k := List.length_take_of_le hk
  have hentries (hfull : 24 ≤ k) : entriesLength (data.take k) = entriesLength data :=
    BigEndian.field_take data hfull
  constructor
  · intro hcut
    have hle := hcut.length_le
    rw [hlen] at hle
    rwa [hentries (by omega)] at hle
  · intro hle
    refine ⟨?_, ?_, by rw [hlen, hentries (by omega)]; exact hle⟩
    · rw [BigEndian.field_take _ (by omega)]
      exact h.serviceId
    · rw [BigEndian.field_take _ (by omega)]
      exact h.methodId

theorem parseSdMessage_take_eq_none_iff {sessionId flags : Int} {entries : List SdEntry} {data : Bytes}
    (h : buildSdMessage sessionId entries flags = .ok data) {k : Nat} (hk : k < data.length) :
    parseSdMessage (data.take k) = .ok none ↔ k < 28 + 16 * entries.length := by
  obtain ⟨bss, -, hholds, -, -⟩ := buildSdMessage_holds h
  rw [parseSdMessage_eq_none_iff, Sd.passes_take_iff hholds.passes hk.le, hholds.entriesLength,
    length_packEntries]
  omega

/-- A datagram that is accepted has the right lengths unless it is one of those that the parser does not
notice; of the cuts of a built datagram it notices those before the options. -/
theorem parseSdMessage_lengths_iff (data : Bytes) :
    (((∃ msg, parseSdMessage data = .ok (some msg)) → Sd.LengthsAgree data) ↔ ¬ Sd.Unnoticed data) ∧
    ∀ sessionId flags entries, buildSdMessage sessionId entries flags = .ok data →
      ∀ k < data.length, parseSdMessage (data.take k) = .ok none ↔ k < 28 + 16 * entries.length := by
  refine ⟨?_, fun _ _ _ h _ hk => parseSdMessage_take_eq_none_iff h hk⟩
  rw [exists_parseSdMessage_some_iff]
  constructor
  · intro h hun
    have hagree := h hun.passes
    rcases hun.wrong with hlength | hwhole | hoptions
    · exact absurd hagree.length (by omega)
    · exact hwhole hagree.entriesWhole
    · exact absurd hagree.optionsInside (by omega)
  · intro hno hpasses
    have hinside := hpasses.length_le
    have hright := not_or.1 fun hwrong => hno ⟨hpasses, hwrong⟩
    obtain ⟨hlength, hrest⟩ := hright
    obtain ⟨hwhole, hoptions⟩ := not_or.1 hrest
    exact ⟨by omega, not_not.1 hwhole, by omega, by omega⟩

/-- A subscribe to an endpoint. -/
def subscribeEntries (options : List SdOption) : List SdEntry :=
  [.eventgroup {
    entryType := etSubscribeEventgroup, serviceId := 0x1002, instanceId := 1, majorVersion := 1
    eventgroupId := 1, counter := 0, ttl := ttlDefault, initialDataReq := false, options }]

/-- The datagram without its last 12 bytes is a subscribe without an endpoint. -/
theorem truncated_subscribe : ∃ data,
    buildSdMessage 1 (subscribeEntries [.ipv4Endpoint "127.0.0.1" 30512 l4Udp]) sdFlagUnicast = .ok data ∧
    data.length = 56 ∧ ¬ Sd.LengthsAgree (data.take 44) ∧
    parseSdMessage (data.take 44) = .ok (some ⟨1, sdFlagUnicast, subscribeEntries []⟩) := by
  refine ⟨_, Except.eq_ok_get (by decide +kernel), by decide +kernel, fun h => ?_, ?_⟩
  · exact absurd h.length (by decide +kernel)
  · rfl

end AutoEth
