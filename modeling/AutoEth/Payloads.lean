import AutoEth.Routes

/-!
# Which payloads survive decoding

`decode` gives a map by name, the wire carries the signals by position: a payload is a list of slices
(`slices`), and a name that stands at two positions keeps the value of the last one. `decode_keeps_iff`
says which payloads come back when the map is encoded again, and that all of them do exactly when no
signal is listed twice.
-/

namespace AutoEth
open BigEndian (encodeInt length_encodeInt)

/-! ### Slices -/

/-- The bytes of each signal. -/
def slices : List SignalDef → Bytes → List Bytes
  | [], _ => []
  | s :: sigs, p => p.take s.size :: slices sigs (p.drop s.size)

/-- The signals with their bytes. -/
def sliced (sigs : List SignalDef) (p : Bytes) : List (SignalDef × Bytes) := sigs.zip (slices sigs p)

/-- Positions with one name carry the same bytes. -/
def CopiesAgree (sigs : List SignalDef) (p : Bytes) : Prop :=
  ∀ e ∈ sliced sigs p, ∀ e' ∈ sliced sigs p, e.1.name = e'.1.name → e.2 = e'.2

/-- The payload is read, and the values are encoded as the payload. -/
def RoundTrips (sigs : List SignalDef) (p : Bytes) : Prop :=
  ∃ values, decode sigs p = .ok values ∧ encode sigs values = .ok p

/-- Maps with the same values. -/
def SameValues (values values' : Dict String ℚ) : Prop := ∀ name, values.get? name = values'.get? name

/-- Payloads of this size that are read as the same values are the same. -/
def DecodesInjectively (sigs : List SignalDef) (size : Nat) : Prop :=
  ∀ p p' values values', p.length = size → p'.length = size →
    decode sigs p = .ok values → decode sigs p' = .ok values' → SameValues values values' → p = p'

section
variable {sigs : List SignalDef} {p : Bytes}

theorem sizeOf_cons (s : SignalDef) (sigs : List SignalDef) : sizeOf (s :: sigs) = s.size + sizeOf sigs := by
  simp [sizeOf]

theorem sliced_cons (s : SignalDef) (sigs : List SignalDef) (p : Bytes) :
    sliced (s :: sigs) p = (s, p.take s.size) :: sliced sigs (p.drop s.size) := rfl

theorem sliced_append {s : SignalDef} {b : Bytes} (h : b.length = s.size) (sigs : List SignalDef) (p : Bytes) :
    sliced (s :: sigs) (b ++ p) = (s, b) :: sliced sigs p := by
  rw [sliced_cons, List.take_left' h, List.drop_left' h]

theorem map_fst_sliced (sigs : List SignalDef) (p : Bytes) : (sliced sigs p).map Prod.fst = sigs := by
  induction sigs generalizing p with
  | nil => rfl
  | cons s sigs ih => rw [sliced_cons, List.map_cons, ih]

theorem length_of_mem_sliced (h : p.length = sizeOf sigs) {e : SignalDef × Bytes} (he : e ∈ sliced sigs p) :
    e.2.length = e.1.size := by
  induction sigs generalizing p with
  | nil => cases he
  | cons s sigs ih =>
    rw [sizeOf_cons] at h
    rw [sliced_cons] at he
    rcases List.mem_cons.1 he with rfl | he
    · dsimp only
      rw [List.length_take]
      omega
    · exact ih (by rw [List.length_drop]; omega) he

theorem mem_of_mem_sliced {e : SignalDef × Bytes} (he : e ∈ sliced sigs p) {b : UInt8} (hb : b ∈ e.2) :
    b ∈ p := by
  induction sigs generalizing p with
  | nil => cases he
  | cons s sigs ih =>
    rw [sliced_cons] at he
    rcases List.mem_cons.1 he with rfl | he
    · exact List.mem_of_mem_take hb
    · exact List.mem_of_mem_drop (ih he)

theorem readings_eq (h : p.length = sizeOf sigs) (pre : Bytes) :
    readings (pre ++ p) sigs pre.length =
      (sliced sigs p).map fun e => (e.1.name, e.1.phys (e.1.row.1.unpack e.2)) := by
  induction sigs generalizing pre p with
  | nil => rfl
  | cons s sigs ih =>
    rw [sizeOf_cons] at h
    have hnext : (pre ++ p.take s.size).length = pre.length + s.size := by
      rw [List.length_append, List.length_take]
      omega
    have hrest := ih (p := p.drop s.size) (by rw [List.length_drop]; omega) (pre ++ p.take s.size)
    rw [List.append_assoc, List.take_append_drop, hnext] at hrest
    rw [readings, hrest, sliced_cons, List.map_cons, SignalDef.reading, List.drop_left' rfl]

/-- Encoding gives the payload exactly when it gives every slice. -/
theorem encodedBytes_eq_iff_sliced (h : p.length = sizeOf sigs) (values : Dict String ℚ) :
    encodedBytes sigs values = p ↔ ∀ e ∈ sliced sigs p, encodeInt e.1.size (e.1.raw values) = e.2 := by
  induction sigs generalizing p with
  | nil =>
    have hp : p = [] := List.length_eq_zero_iff.1 h
    exact iff_of_true hp.symm fun e he => nomatch he
  | cons s sigs ih =>
    rw [sizeOf_cons] at h
    have hcons : encodedBytes (s :: sigs) values = encodeInt s.size (s.raw values) ++ encodedBytes sigs values := rfl
    have htake : (encodeInt s.size (s.raw values)).length = (p.take s.size).length := by
      rw [length_encodeInt, List.length_take]
      omega
    rw [sliced_cons, List.forall_mem_cons, ← ih (by rw [List.length_drop]; omega), hcons]
    constructor
    · intro heq
      rw [← List.take_append_drop s.size p] at heq
      exact List.append_inj heq htake
    · rintro ⟨hs, hsigs⟩
      dsimp only at hs
      rw [hs, hsigs, List.take_append_drop]

/-! ### One payload -/

/-- What is read of a payload of the size of the signals. -/
def valuesOf (sigs : List SignalDef) (p : Bytes) : Dict String ℚ :=
  .ofList ((sliced sigs p).map fun e => (e.1.name, e.1.phys (e.1.row.1.unpack e.2)))

theorem decode_eq_valuesOf (hvalid : ∀ s ∈ sigs, s.Valid) (h : p.length = sizeOf sigs) :
    decode sigs p = .ok (valuesOf sigs p) := by
  have hreadings := readings_eq h []
  rw [List.nil_append, List.length_nil] at hreadings
  rw [decode_eq hvalid, if_pos h.ge, hreadings, valuesOf]

theorem roundTrips_iff_encodedBytes (hvalid : ∀ s ∈ sigs, s.Valid) (h : p.length = sizeOf sigs) :
    RoundTrips sigs p ↔ encodedBytes sigs (valuesOf sigs p) = p := by
  unfold RoundTrips
  rw [decode_eq_valuesOf hvalid h]
  simp only [Except.ok.injEq, exists_eq_left', encode_eq hvalid]

theorem fst_mem_of_mem_sliced {e : SignalDef × Bytes} (he : e ∈ sliced sigs p) : e.1 ∈ sigs :=
  map_fst_sliced sigs p ▸ List.mem_map_of_mem he

/-- A payload comes back exactly when it carries the same bytes wherever it carries the same signal. -/
theorem roundTrips_iff (hvalid : ∀ s ∈ sigs, s.Valid) (hone : OneEach sigs) (h : p.length = sizeOf sigs) :
    RoundTrips sigs p ↔ CopiesAgree sigs p := by
  rw [roundTrips_iff_encodedBytes hvalid h, encodedBytes_eq_iff_sliced h]
  constructor
  · intro henc e he e' he' hname
    have hsame : e.1 = e'.1 := hone _ (fst_mem_of_mem_sliced he) _ (fst_mem_of_mem_sliced he') hname
    rw [← henc e he, ← henc e' he', hsame]
  · intro hagree e he
    have hlen : e.2.length = e.1.row.1.size := length_of_mem_sliced h he
    have hget : (valuesOf sigs p).get? e.1.name = some (e.1.phys (e.1.row.1.unpack e.2)) := by
      refine Dict.get?_ofList_map he fun e' he' hname => ?_
      have hsame : e'.1 = e.1 := hone _ (fst_mem_of_mem_sliced he') _ (fst_mem_of_mem_sliced he) hname
      rw [hsame, hagree e' he' e he hname]
    have hraw := (hvalid _ (fst_mem_of_mem_sliced he)).raw_of_phys (Code.fits_unpack hlen) hget
    rw [hraw, SignalDef.size, Code.encodeInt_unpack hlen]

/-! ### All payloads -/

theorem size_pos (s : SignalDef) : 0 < s.size := by
  unfold SignalDef.size
  cases s.row.1 <;> decide

theorem CopiesAgree.tail {s : SignalDef} {b : Bytes} (hlen : b.length = s.size)
    (h : CopiesAgree (s :: sigs) (b ++ p)) : CopiesAgree sigs p := by
  intro e he e' he' hname
  rw [CopiesAgree, sliced_append hlen] at h
  exact h e (List.mem_cons_of_mem _ he) e' (List.mem_cons_of_mem _ he') hname

theorem CopiesAgree.cons {s : SignalDef} (hnot : s.name ∉ sigs.map (·.name))
    (h : CopiesAgree sigs (p.drop s.size)) : CopiesAgree (s :: sigs) p := by
  intro e he e' he' hname
  rw [sliced_cons] at he he'
  rcases List.mem_cons.1 he with rfl | he
  · rcases List.mem_cons.1 he' with rfl | he'
    · rfl
    · exact absurd (List.mem_map.2 ⟨_, fst_mem_of_mem_sliced he', hname.symm⟩) hnot
  · rcases List.mem_cons.1 he' with rfl | he'
    · exact absurd (List.mem_map.2 ⟨_, fst_mem_of_mem_sliced he, hname⟩) hnot
    · exact h e he e' he' hname

/-- Zeros for the first signal and ones for all others disagree where it is copied. -/
theorem not_copiesAgree_of_mem {s : SignalDef} (hmem : s.name ∈ sigs.map (·.name)) :
    ¬ CopiesAgree (s :: sigs) (List.replicate s.size 0 ++ List.replicate (sizeOf sigs) 1) := by
  intro h
  obtain ⟨t, ht, hname⟩ := List.mem_map.1 hmem
  obtain ⟨e, he, rfl⟩ : ∃ e ∈ sliced sigs (List.replicate (sizeOf sigs) 1), e.1 = t := by
    rw [← map_fst_sliced sigs (List.replicate (sizeOf sigs) 1)] at ht
    exact List.mem_map.1 ht
  rw [CopiesAgree, sliced_append List.length_replicate] at h
  have heq := h _ (List.mem_cons_self ..) e (List.mem_cons_of_mem _ he) hname.symm
  have hzero : (0 : UInt8) ∈ e.2 := by
    rw [← heq]
    exact List.mem_replicate.2 ⟨(size_pos s).ne', rfl⟩
  have hone := List.eq_of_mem_replicate (mem_of_mem_sliced he hzero)
  exact absurd hone (by decide)

theorem forall_copiesAgree_iff :
    (∀ p, p.length = sizeOf sigs → CopiesAgree sigs p) ↔ (sigs.map (·.name)).Nodup := by
  induction sigs with
  | nil => exact iff_of_true (fun p _ e he => nomatch he) List.nodup_nil
  | cons s sigs ih =>
    rw [List.map_cons, List.nodup_cons, ← ih]
    constructor
    · intro h
      refine ⟨fun hmem => not_copiesAgree_of_mem hmem (h _ ?_), fun p hp => ?_⟩
      · rw [List.length_append, List.length_replicate, List.length_replicate, sizeOf_cons]
      · have hlen : (List.replicate s.size (0 : UInt8)).length = s.size := List.length_replicate
        refine .tail hlen (h _ ?_)
        rw [List.length_append, hlen, hp, sizeOf_cons]
    · rintro ⟨hnot, htail⟩ p hp
      rw [sizeOf_cons] at hp
      refine .cons hnot (htail _ ?_)
      rw [List.length_drop]
      omega

theorem sameValues_encodedBytes (hvalid : ∀ s ∈ sigs, s.Valid) (hone : OneEach sigs) (h : p.length = sizeOf sigs) :
    SameValues (valuesOf sigs p) (valuesOf sigs (encodedBytes sigs (valuesOf sigs p))) := by
  have hquantize : valuesOf sigs (encodedBytes sigs (valuesOf sigs p)) = quantize sigs (valuesOf sigs p) := by
    have hdec := decode_encodedBytes hvalid (valuesOf sigs p) []
    rw [List.append_nil, decode_eq_valuesOf hvalid (length_encodedBytes ..)] at hdec
    exact Except.ok.inj hdec
  rw [hquantize]
  intro name
  cases hget : (valuesOf sigs p).get? name with
  | none =>
    have hno : name ∉ sigs.map (·.name) := by
      rw [Dict.get?_eq_none, valuesOf, Dict.mem_keys_ofList, List.map_map] at hget
      rw [← map_fst_sliced sigs p, List.map_map]
      exact hget
    refine (Dict.get?_eq_none.2 fun hmem => hno ?_).symm
    rwa [quantize, Dict.mem_keys_ofList, List.map_map] at hmem
  | some v =>
    obtain ⟨e, he, heq⟩ := List.mem_map.1 (Dict.mem_of_get?_ofList hget)
    cases heq
    have hmem := fst_mem_of_mem_sliced he
    have hlen : e.2.length = e.1.row.1.size := length_of_mem_sliced h he
    rw [get?_quantize hone hmem, (hvalid _ hmem).raw_of_phys (Code.fits_unpack hlen) hget]

theorem decodesInjectively_iff (hvalid : ∀ s ∈ sigs, s.Valid) (hone : OneEach sigs) :
    DecodesInjectively sigs (sizeOf sigs) ↔ ∀ p, p.length = sizeOf sigs → RoundTrips sigs p := by
  constructor
  · intro h p hp
    have hlen := length_encodedBytes sigs (valuesOf sigs p)
    have heq := h p _ _ _ hp hlen (decode_eq_valuesOf hvalid hp) (decode_eq_valuesOf hvalid hlen)
      (sameValues_encodedBytes hvalid hone hp)
    rw [roundTrips_iff_encodedBytes hvalid hp, ← heq]
  · intro h p p' values values' hp hp' hdec hdec' hsame
    obtain ⟨v, hv, henc⟩ := h p hp
    obtain ⟨v', hv', henc'⟩ := h p' hp'
    cases hv.symm.trans hdec
    cases hv'.symm.trans hdec'
    rw [encode_eq hvalid] at henc henc'
    rw [← Except.ok.inj henc, ← Except.ok.inj henc']
    refine encodedBytes_congr fun s _ => ?_
    rw [SignalDef.raw, SignalDef.raw, Dict.getD, Dict.getD, hsame]

end

/-- Which payloads of a message survive decoding: those with the same bytes at all positions of a signal,
and thus all of them exactly when no signal is listed twice. -/
theorem decode_keeps_iff {doc : Value} {cat : Catalog} (hload : loadCatalog doc = .ok cat) (m : MessageDef)
    {sigs : List SignalDef} (hsigs : (SignalIndex.fromSignals cat.signals).subset m.signals = .ok sigs)
    {size : Nat} (hsize : encodedSize sigs = .ok size) :
    (∀ p : Bytes, p.length = size → (RoundTrips sigs p ↔ CopiesAgree sigs p)) ∧
      ((∀ p : Bytes, p.length = size → RoundTrips sigs p) ↔ m.signals.Nodup) ∧
      (DecodesInjectively sigs size ↔ m.signals.Nodup) := by
  have hvalid := (Catalog.Valid.of_loadCatalog hload).subset_valid hsigs
  have hone := SignalIndex.subset_oneEach hsigs
  rw [encodedSize_eq hvalid] at hsize
  cases hsize
  have hpayload (p : Bytes) (hp : p.length = sizeOf sigs) := roundTrips_iff hvalid hone hp
  have hall : (∀ p : Bytes, p.length = sizeOf sigs → RoundTrips sigs p) ↔ m.signals.Nodup := by
    rw [← SignalIndex.subset_names hsigs, ← forall_copiesAgree_iff]
    exact forall_congr' fun p => forall_congr' (hpayload p)
  exact ⟨hpayload, hall, (decodesInjectively_iff hvalid hone).trans hall⟩

/-- The event of the example, with two signals. -/
def exampleStatus : MessageDef := (exampleCatalog.messages.find? MessageDef.isUdpEvent).get (by decide +kernel)

def exampleStatusSigs : List SignalDef :=
  ((SignalIndex.fromSignals exampleCatalog.signals).subset exampleStatus.signals).get (by decide +kernel)

theorem decode_keeps_example : exampleStatus.signals = ["throttle_position", "gear_position"] ∧
    RoundTrips exampleStatusSigs [7, 255] ∧ DecodesInjectively exampleStatusSigs 2 := by
  have hsize : encodedSize exampleStatusSigs = .ok 2 := by decide +kernel
  have hnodup : exampleStatus.signals.Nodup := by decide +kernel
  obtain ⟨-, hall, hinjective⟩ :=
    decode_keeps_iff loadCatalog_example exampleStatus (Except.eq_ok_get _) hsize
  exact ⟨by decide +kernel, hall.2 hnodup [7, 255] rfl, hinjective.2 hnodup⟩

/-! ### A message that lists a signal twice -/

def repeatedDoc : Value :=
  .dict [
    ("version", .int 1),
    ("discovery", .dict [("group", .str "239.0.0.2"), ("port", .int 30490), ("ttl", .int 1),
      ("iface", .str "eth0")]),
    ("signals", .list [.dict [("name", .str "throttle_position"), ("type", .str "u8")]]),
    ("services", .list [
      .dict [("name", .str "powertrain_service"), ("service_id", .int 0x1002),
        ("instance_id", .int 1)]]),
    ("messages", .list [
      .dict [("name", .str "set_throttle"), ("msg_id", .int 20), ("kind", .str "method"),
        ("transport", .str "tcp"), ("tcp", .dict [("port", .int 30502)]),
        ("someip", .dict [("service", .str "powertrain_service"), ("method_id", .int 1)]),
        ("signals", .list [.str "throttle_position", .str "throttle_position"])]])]

def repeatedCatalog : Catalog := (loadCatalog repeatedDoc).get (by decide +kernel)

def repeatedMethod : MessageDef := repeatedCatalog.messages.head (by decide +kernel)

def repeatedSigs : List SignalDef :=
  ((SignalIndex.fromSignals repeatedCatalog.signals).subset repeatedMethod.signals).get (by decide +kernel)

/-- The payload 1, 2 is read as 2 and comes back as 2, 2. -/
theorem repeated_signal_lost : ¬ ∀ (doc : Value) (cat : Catalog), loadCatalog doc = .ok cat →
    ∀ m ∈ cat.messages, ∀ sigs size, (SignalIndex.fromSignals cat.signals).subset m.signals = .ok sigs →
      encodedSize sigs = .ok size → ∀ p : Bytes, p.length = size → RoundTrips sigs p := by
  intro h
  have hsize : encodedSize repeatedSigs = .ok 2 := by decide +kernel
  obtain ⟨values, hdec, henc⟩ := h repeatedDoc repeatedCatalog (Except.eq_ok_get _) repeatedMethod
    (List.head_mem _) repeatedSigs 2 (Except.eq_ok_get _) hsize [1, 2] rfl
  have hback : (decode repeatedSigs [1, 2] >>= encode repeatedSigs) = .ok [2, 2] := by decide +kernel
  rw [hdec, Except.ok_bind, henc] at hback
  exact absurd (Except.ok.inj hback) (by decide)

end AutoEth
