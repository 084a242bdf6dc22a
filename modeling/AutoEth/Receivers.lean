import AutoEth.EventStream
import AutoEth.UdpSubscribe
import AutoEth.Lib.Consume

/-!
# The two event receivers

`_udp_subscribe` and `EventSubscription.run` read the same datagrams by the same filter. One raises
where the other skips, which is all that they differ in: they are the strict and the skipping consumer
of the values in a datagram (`EventReceiver.loop_eq`, `EventSubscription.deliveries_eq`).
`receivers_agree_iff` says on which datagrams they agree. Neither compares the counter of an E2E trailer
with the session id, and `receivers_proper_iff` says which datagrams that lets in.
-/

namespace AutoEth

/-! ### What each of them delivers -/

/-- The datagram with its values, as a delivery. -/
def EventReceiver.read (r : EventReceiver) (d : Bytes) : Except PyErr (Option Delivery) :=
  (r.deliver (recvUdp d)).map (Option.map fun vals => (recvUdp d, vals))

namespace EventSubscription

def receiver (sub : EventSubscription) : EventReceiver := ⟨sub.event, sub.svcId, sub.eid, sub.sigs⟩

/-- The values that the loop prints, each with its datagram. -/
def deliveries (sub : EventSubscription) : List Bytes → Except PyErr (List Delivery)
  | [] => .ok []
  | d :: ds => do
    let vals ← sub.deliver (recvUdp d)
    let rest ← deliveries sub ds
    return (vals.map fun vals => (recvUdp d, vals)).toList ++ rest

variable {sub : EventSubscription} {e2e : Bool}

theorem foldlM_receive {ds : List Bytes} {xs : List Delivery} (h : sub.deliveries ds = .ok xs) (r : Received) :
    ds.foldlM sub.receive r = .ok ⟨r.count + xs.length, (xs.getLast?.map Prod.snd).or r.lastValues⟩ := by
  induction ds generalizing xs r with
  | nil =>
    cases h
    rfl
  | cons d ds ih =>
    obtain ⟨vals, hvals, h⟩ := Except.bind_eq_ok.1 h
    obtain ⟨rest, hrest, h⟩ := Except.bind_eq_ok.1 h
    cases h
    have hreceive : sub.deliver (d.take recvSize) = .ok vals := hvals
    rw [List.foldlM_cons, receive, hreceive, Except.ok_bind]
    cases vals with
    | none => exact ih hrest r
    | some vals =>
      have hlength : r.count + 1 + rest.length = r.count + (rest.length + 1) := by omega
      have hlast : (((recvUdp d, vals) :: rest).getLast?.map Prod.snd).or r.lastValues =
          (rest.getLast?.map Prod.snd).or (some vals) := by
        rw [List.getLast?_cons]
        cases rest.getLast? <;> rfl
      refine (ih hrest ⟨r.count + 1, some vals⟩).trans ?_
      rw [hlength, ← hlast]
      rfl

theorem loop_of_deliveries {ds : List Bytes} {xs : List Delivery} (h : sub.deliveries ds = .ok xs) :
    sub.loop ds = .ok ⟨xs.length, xs.getLast?.map Prod.snd⟩ := by
  rw [loop, foldlM_receive h, Nat.zero_add, Option.or_none]

theorem deliver_of_matches (h : e2eEnabled sub.event = .ok e2e) {data payload : Bytes} {hdr : SomeIpHeader}
    (hparse : parseMessage data = .ok (hdr, payload)) (hmatches : sub.receiver.Matches hdr) :
    sub.deliver data = .ok (sub.receiver.values payload).toOption := by
  obtain ⟨hsvc, heid, htype⟩ := hmatches
  have hids : ¬ (hdr.serviceId ≠ sub.svcId ∨ hdr.methodId ≠ sub.eid) := not_or.2 ⟨not_not.2 hsvc, not_not.2 heid⟩
  rw [deliver, hparse]
  dsimp only
  rw [if_neg hids, if_neg (not_not.2 htype), h, EventReceiver.values, show sub.receiver.event = sub.event from rfl, h]
  cases e2e with
  | false => rfl
  | true => cases unwrap payload <;> rfl

theorem deliver_of_not_matches {data payload : Bytes} {hdr : SomeIpHeader}
    (hparse : parseMessage data = .ok (hdr, payload)) (hno : ¬ sub.receiver.Matches hdr) :
    sub.deliver data = .ok none := by
  rw [deliver, hparse]
  dsimp only
  split_ifs with hids htype
  · rfl
  · rfl
  · exact absurd ⟨not_not.1 (not_or.1 hids).1, not_not.1 (not_or.1 hids).2, not_not.1 htype⟩ hno

/-- The tolerant loop delivers what the other one does, and skips where that raises. -/
theorem deliver_eq (h : e2eEnabled sub.event = .ok e2e) (data : Bytes) :
    sub.deliver data = .ok (sub.receiver.deliver data).toOption.join := by
  cases hparse : parseMessage data with
  | error e =>
    rw [EventReceiver.deliver_of_error hparse, deliver, hparse]
    rfl
  | ok p =>
    obtain ⟨hdr, payload⟩ := p
    by_cases hmatches : sub.receiver.Matches hdr
    · rw [deliver_of_matches h hparse hmatches, EventReceiver.deliver_of_matches hparse hmatches]
      cases sub.receiver.values payload <;> rfl
    · rw [deliver_of_not_matches hparse hmatches, EventReceiver.deliver_of_not_matches hparse hmatches]
      rfl

theorem deliveries_eq (h : e2eEnabled sub.event = .ok e2e) (ds : List Bytes) :
    sub.deliveries ds = .ok (Consume.skipping sub.receiver.read ds) := by
  induction ds with
  | nil => rfl
  | cons d ds ih =>
    rw [deliveries, deliver_eq h, Except.ok_bind, ih, Except.ok_bind]
    rcases hd : sub.receiver.deliver (recvUdp d) with e | _ | vals
    · rw [Consume.skipping_cons_error (by rw [EventReceiver.read, hd]; rfl)]
      rfl
    · rw [Consume.skipping_cons_none (by rw [EventReceiver.read, hd]; rfl)]
      rfl
    · rw [Consume.skipping_cons_some (by rw [EventReceiver.read, hd]; rfl)]
      rfl

end EventSubscription

namespace EventReceiver

variable {r : EventReceiver}

theorem loop_eq (count got : Int) (ds : List Bytes) :
    r.loop count got ds = Consume.strict r.read (count - got).toNat ds := by
  induction ds generalizing got with
  | nil =>
    unfold loop
    cases (count - got).toNat <;> rfl
  | cons d ds ih =>
    unfold loop
    by_cases hmore : got < count
    · obtain ⟨n, hn⟩ : ∃ n, (count - got).toNat = n + 1 := ⟨(count - got).toNat - 1, by omega⟩
      rw [if_pos hmore, hn]
      rcases h : r.deliver (recvUdp d) with e | _ | vals
      · exact (Consume.strict_cons_error (by rw [read, h]; rfl)).symm
      · dsimp only
        rw [Consume.strict_cons_none (by rw [read, h]; rfl), ih, hn]
      · have hnext : (count - (got + 1)).toNat = n := by omega
        dsimp only
        rw [Consume.strict_cons_some (by rw [read, h]; rfl), ih, hnext]
    · have hzero : (count - got).toNat = 0 := by omega
      rw [if_neg hmore, hzero, Consume.strict_zero]

theorem read_eq_some_iff {d : Bytes} {x : Delivery} :
    r.read d = .ok (some x) ↔ x.1 = recvUdp d ∧ r.deliver (recvUdp d) = .ok (some x.2) := by
  obtain ⟨data, vals⟩ := x
  rw [read]
  rcases r.deliver (recvUdp d) with e | _ | vals'
  · exact iff_of_false nofun fun h => nomatch h.2
  · exact iff_of_false nofun fun h => nomatch h.2
  · simp only [Except.map, Option.map_some, Except.ok.injEq, Option.some.injEq, Prod.mk.injEq,
      eq_comm (a := data)]

theorem isOk_read {d : Bytes} : (r.read d).isOk = (r.deliver (recvUdp d)).isOk := by
  rw [read]
  cases r.deliver (recvUdp d) <;> rfl

end EventReceiver

theorem receiver_eq {a : UdpSubscribe} {ifaceIp : String} {sub : EventSubscription} {sent : List Packet} {r : EventReceiver}
    (hsub : EventSubscription.create a.cat a.sigIndex a.event ifaceIp = .ok sub) (hstart : a.start = .ok (sent, r)) :
    sub.receiver = r ∧ r.event = a.event := by
  simp only [EventSubscription.create, Except.bind_eq_ok, Except.pure_eq_ok, Except.ok.injEq] at hsub
  simp only [UdpSubscribe.start, Except.bind_eq_ok, Except.pure_eq_ok, Except.ok.injEq, Prod.mk.injEq] at hstart
  obtain ⟨_, -, _, -, _, -, ids, hids, sigs, hsigs, rfl⟩ := hsub
  obtain ⟨_, -, _, -, _, -, _, -, ids', hids', _, -, _, -, sigs', hsigs', _, -, -, rfl⟩ := hstart
  cases hids.symm.trans hids'
  cases hsigs.symm.trans hsigs'
  exact ⟨rfl, rfl⟩

/-! ### Where they agree -/

namespace EventReceiver

/-- A notification of the event whose values can be read. -/
def deliverable (r : EventReceiver) (data : Bytes) : Bool :=
  match parseMessage data with
  | .error _ => false
  | .ok (hdr, payload) => r.Matches hdr && (r.values payload).isOk

/-- No message, or a notification of the event whose values cannot be read. -/
def malformed (r : EventReceiver) (data : Bytes) : Bool :=
  match parseMessage data with
  | .error _ => true
  | .ok (hdr, payload) => r.Matches hdr && !(r.values payload).isOk

variable {r : EventReceiver}

theorem isOk_deliver (data : Bytes) : (r.deliver data).isOk = true ↔ r.malformed data = false := by
  unfold malformed
  cases hparse : parseMessage data with
  | error e =>
    rw [deliver_of_error hparse]
    exact iff_of_false nofun nofun
  | ok p =>
    obtain ⟨hdr, payload⟩ := p
    dsimp only
    by_cases hmatches : r.Matches hdr
    · rw [deliver_of_matches hparse hmatches, decide_eq_true hmatches]
      cases r.values payload <;> simp [Except.map, Except.isOk, Except.toBool]
    · rw [deliver_of_not_matches hparse hmatches, decide_eq_false hmatches]
      exact iff_of_true rfl rfl

theorem isSome_deliver (data : Bytes) : (r.deliver data).toOption.join.isSome = r.deliverable data := by
  unfold deliverable
  cases hparse : parseMessage data with
  | error e =>
    rw [deliver_of_error hparse]
    rfl
  | ok p =>
    obtain ⟨hdr, payload⟩ := p
    dsimp only
    by_cases hmatches : r.Matches hdr
    · rw [deliver_of_matches hparse hmatches, decide_eq_true hmatches]
      cases r.values payload <;> rfl
    · rw [deliver_of_not_matches hparse hmatches, decide_eq_false hmatches]
      rfl

theorem length_skipping (ds : List Bytes) :
    (Consume.skipping r.read ds).length = ds.countP fun d => r.deliverable (recvUdp d) := by
  rw [Consume.skipping, List.length_filterMap_eq_countP]
  refine List.countP_congr fun d _ => ?_
  rw [← isSome_deliver, read]
  rcases r.deliver (recvUdp d) with e | _ | vals
  · exact Iff.rfl
  · exact Iff.rfl
  · exact Iff.rfl

/-- The client of `count` delivers the first `count` deliveries of the other loop, and neither raises. -/
structure AgreesWith (r : EventReceiver) (sub : EventSubscription) (count : Int) (ds : List Bytes) : Prop where
  delivered : ∃ xs, sub.deliveries ds = .ok xs ∧ (r.run count ds).1 = xs.take count.toNat
  raised : (r.run count ds).2 = none

end EventReceiver

/-- The receivers of an event agree exactly on the datagrams of which no malformed one comes before the
client has its number of deliverable ones. -/
theorem receivers_agree_iff {doc : Value} {a : UdpSubscribe} (hload : loadCatalog doc = .ok a.cat)
    (hevent : a.event ∈ a.cat.messages) {ifaceIp : String} {sub : EventSubscription}
    (hsub : EventSubscription.create a.cat a.sigIndex a.event ifaceIp = .ok sub) {sent : List Packet}
    {r : EventReceiver} (hstart : a.start = .ok (sent, r)) (count : Int) (ds : List Bytes) :
    r.AgreesWith sub count ds ↔ ∀ pre d post, ds = pre ++ d :: post →
      (pre.countP fun d => r.deliverable (recvUdp d)) < count → r.malformed (recvUdp d) = false := by
  obtain ⟨e2e, he⟩ := (Catalog.Valid.of_loadCatalog hload).e2eEnabled_ok hevent
  obtain ⟨rfl, hr⟩ := receiver_eq hsub hstart
  have hdeliveries := @EventSubscription.deliveries_eq sub e2e (by rw [← he, ← hr]; rfl) ds
  have hrun : sub.receiver.run count ds = Consume.strict sub.receiver.read count.toNat ds := by
    rw [EventReceiver.run, EventReceiver.loop_eq, Int.sub_zero]
  have hagrees : sub.receiver.AgreesWith sub count ds ↔
      (Consume.strict sub.receiver.read count.toNat ds).1 =
        (Consume.skipping sub.receiver.read ds).take count.toNat ∧
      (Consume.strict sub.receiver.read count.toNat ds).2 = none := by
    rw [← hrun]
    constructor
    · rintro ⟨⟨xs, hxs, hdelivered⟩, hraised⟩
      cases hdeliveries.symm.trans hxs
      exact ⟨hdelivered, hraised⟩
    · exact fun ⟨hdelivered, hraised⟩ => ⟨⟨_, hdeliveries, hdelivered⟩, hraised⟩
  rw [hagrees, Consume.strict_eq_skipping_iff]
  refine forall_congr' fun pre => forall_congr' fun d => forall_congr' fun post => forall_congr' fun _ => ?_
  rw [EventReceiver.length_skipping, EventReceiver.isOk_read, EventReceiver.isOk_deliver]
  refine imp_congr_left ?_
  omega

/-! ### The E2E counter -/

namespace EventReceiver

/-- A delivery as the data format allows it: a notification of the event, with a trailer that verifies and
counts with the session id. -/
def Proper (r : EventReceiver) (x : Delivery) : Prop :=
  ∃ hdr payload core, parseMessage x.1 = .ok (hdr, payload) ∧ r.Matches hdr ∧
    unwrap payload = .ok (core, hdr.sessionId) ∧ decode r.sigs core = .ok x.2

/-- A notification of the event that can be read, with a trailer that verifies and another counter than
the session id. -/
def Forged (r : EventReceiver) (data : Bytes) : Prop :=
  ∃ hdr payload core counter vals, parseMessage data = .ok (hdr, payload) ∧ r.Matches hdr ∧
    unwrap payload = .ok (core, counter) ∧ decode r.sigs core = .ok vals ∧ counter ≠ hdr.sessionId

variable {r : EventReceiver}

theorem values_eq_ok_iff (he : e2eEnabled r.event = .ok true) {payload : Bytes} {vals : Dict String ℚ} :
    r.values payload = .ok vals ↔
      ∃ core counter, unwrap payload = .ok (core, counter) ∧ decode r.sigs core = .ok vals := by
  rw [values, he]
  rcases unwrap payload with e | ⟨core, counter⟩
  · exact iff_of_false nofun nofun
  · constructor
    · exact fun h => ⟨core, counter, rfl, h⟩
    · rintro ⟨_, _, ⟨⟩, h⟩
      exact h

theorem deliver_eq_some_iff (he : e2eEnabled r.event = .ok true) {data : Bytes} {vals : Dict String ℚ} :
    r.deliver data = .ok (some vals) ↔ ∃ hdr payload core counter, parseMessage data = .ok (hdr, payload) ∧
      r.Matches hdr ∧ unwrap payload = .ok (core, counter) ∧ decode r.sigs core = .ok vals := by
  constructor
  · intro h
    cases hparse : parseMessage data with
    | error e => exact nomatch (deliver_of_error hparse).symm.trans h
    | ok p =>
      obtain ⟨hdr, payload⟩ := p
      by_cases hmatches : r.Matches hdr
      · rw [deliver_of_matches hparse hmatches] at h
        cases hvals : r.values payload with
        | error e =>
          rw [hvals] at h
          cases h
        | ok vals' =>
          rw [hvals] at h
          cases h
          obtain ⟨core, counter, hunwrap, hdecode⟩ := (values_eq_ok_iff he).1 hvals
          exact ⟨hdr, payload, core, counter, rfl, hmatches, hunwrap, hdecode⟩
      · exact nomatch (deliver_of_not_matches hparse hmatches).symm.trans h
  · rintro ⟨hdr, payload, core, counter, hparse, hmatches, hunwrap, hdecode⟩
    rw [deliver_of_matches hparse hmatches, (values_eq_ok_iff he).2 ⟨core, counter, hunwrap, hdecode⟩]
    rfl

theorem skipping_proper_iff (he : e2eEnabled r.event = .ok true) (ds : List Bytes) :
    (∀ x ∈ Consume.skipping r.read ds, r.Proper x) ↔ ∀ d ∈ ds, ¬ r.Forged (recvUdp d) := by
  constructor
  · rintro h d hd ⟨hdr, payload, core, counter, vals, hparse, hmatches, hunwrap, hdecode, hne⟩
    have hdeliver := (deliver_eq_some_iff he).2 ⟨hdr, payload, core, counter, hparse, hmatches, hunwrap, hdecode⟩
    obtain ⟨hdr', payload', core', hparse', -, hunwrap', -⟩ :=
      h (recvUdp d, vals) (Consume.mem_skipping.2 ⟨d, hd, read_eq_some_iff.2 ⟨rfl, hdeliver⟩⟩)
    cases hparse.symm.trans hparse'
    cases hunwrap.symm.trans hunwrap'
    exact hne rfl
  · rintro h ⟨data, vals⟩ hx
    obtain ⟨d, hd, hread⟩ := Consume.mem_skipping.1 hx
    obtain ⟨hdata, hdeliver⟩ := read_eq_some_iff.1 hread
    obtain ⟨hdr, payload, core, counter, hparse, hmatches, hunwrap, hdecode⟩ := (deliver_eq_some_iff he).1 hdeliver
    have hcounter : counter = hdr.sessionId := by
      by_contra hne
      exact h d hd ⟨hdr, payload, core, counter, vals, hparse, hmatches, hunwrap, hdecode, hne⟩
    dsimp only at hdata
    rw [hcounter] at hunwrap
    exact ⟨hdr, payload, core, hdata ▸ hparse, hmatches, hunwrap, hdecode⟩

end EventReceiver

/-- The receivers of an E2E event deliver proper datagrams only, exactly where no datagram is forged. -/
theorem receivers_proper_iff {a : UdpSubscribe} (he : e2eEnabled a.event = .ok true) {ifaceIp : String}
    {sub : EventSubscription} (hsub : EventSubscription.create a.cat a.sigIndex a.event ifaceIp = .ok sub)
    {sent : List Packet} {r : EventReceiver} (hstart : a.start = .ok (sent, r)) (count : Int) (ds : List Bytes) :
    (∀ x ∈ (r.run count ds).1, r.Proper x) ∧ (∃ xs, sub.deliveries ds = .ok xs ∧ ∀ x ∈ xs, r.Proper x) ↔
      ∀ d ∈ ds, ¬ r.Forged (recvUdp d) := by
  obtain ⟨rfl, hr⟩ := receiver_eq hsub hstart
  rw [← hr] at he
  have hdeliveries := EventSubscription.deliveries_eq he ds
  rw [← EventReceiver.skipping_proper_iff he]
  constructor
  · rintro ⟨-, xs, hxs, hproper⟩
    cases hdeliveries.symm.trans hxs
    exact hproper
  · intro hproper
    refine ⟨fun x hx => ?_, _, hdeliveries, hproper⟩
    rw [EventReceiver.run, EventReceiver.loop_eq] at hx
    exact hproper x ((Consume.strict_prefix _ ds).subset hx)

/-! ### An example -/

/-- A catalog with an E2E event. -/
def statusDoc : Value :=
  .dict [
    ("discovery", .dict [("group", .str "239.0.0.2"), ("port", .int 30490), ("ttl", .int 1),
      ("iface", .str "eth0")]),
    ("signals", .list [.dict [("name", .str "throttle_position"), ("type", .str "u8")]]),
    ("services", .list [.dict [("name", .str "powertrain_service"), ("service_id", .int 0x1002),
      ("instance_id", .int 1)]]),
    ("messages", .list [
      .dict [("name", .str "powertrain_status_event"), ("msg_id", .int 30), ("kind", .str "event"),
        ("transport", .str "udp"), ("period_ms", .int 25), ("udp", .dict [("port", .int 30512)]),
        ("someip", .dict [("service", .str "powertrain_service"), ("event_id", .int 0x8001),
          ("eventgroup_id", .int 1)]),
        ("signals", .list [.str "throttle_position"]), ("e2e", .dict [("enabled", .bool true)])]])]

def statusCatalog : Catalog := (loadCatalog statusDoc).get (by decide +kernel)

def statusSubscribe : UdpSubscribe where
  cat := statusCatalog
  event := statusCatalog.messages.head (by decide +kernel)
  sigIndex := .fromSignals statusCatalog.signals
  bindIp := "0.0.0.0"
  sdGroup := none
  sdPort := none

def statusSubscription : EventSubscription :=
  (EventSubscription.create statusCatalog statusSubscribe.sigIndex statusSubscribe.event "0.0.0.0").get
    (by decide +kernel)

def statusReceiver : EventReceiver := (statusSubscribe.start.get (by decide +kernel)).2

/-- A notification with the session id and the counter. -/
def statusDatagram (sessionId counter : Int) : Bytes :=
  buildMessage {
    serviceId := 0x1002, methodId := 0x8001, clientId := 0, sessionId, ifaceVer := 1
    msgType := mtNotification, payload := wrap [42] counter, returnCode := rcOk }

theorem loadCatalog_status : loadCatalog statusDoc = .ok statusCatalog := Except.eq_ok_get _

theorem statusEvent_mem : statusSubscribe.event ∈ statusCatalog.messages :=
  List.head_mem (l := statusCatalog.messages) (by decide +kernel)

theorem create_status : EventSubscription.create statusSubscribe.cat statusSubscribe.sigIndex
    statusSubscribe.event "0.0.0.0" = .ok statusSubscription := Except.eq_ok_get _

theorem start_status : statusSubscribe.start = .ok ([], statusReceiver) := rfl

theorem e2eEnabled_status : e2eEnabled statusSubscribe.event = .ok true := by decide +kernel

theorem receivers_agree_example : statusReceiver.AgreesWith statusSubscription 1 [statusDatagram 8 8, [0]] := by
  refine (receivers_agree_iff loadCatalog_status statusEvent_mem create_status start_status 1 _).2
    fun pre d post hsplit hbefore => ?_
  have hfirst : statusReceiver.deliverable (recvUdp (statusDatagram 8 8)) = true := by decide +kernel
  cases pre with
  | nil =>
    cases hsplit
    decide +kernel
  | cons d' pre =>
    obtain ⟨rfl, -⟩ := List.cons.inj hsplit
    rw [List.countP_cons, hfirst] at hbefore
    exact absurd hbefore (by simp)

/-- A datagram of one byte ends the client before the notification that the other loop delivers. -/
theorem short_datagram_ends_client :
    loadCatalog statusDoc = .ok statusSubscribe.cat ∧ statusSubscribe.event ∈ statusSubscribe.cat.messages ∧
    EventSubscription.create statusSubscribe.cat statusSubscribe.sigIndex statusSubscribe.event "0.0.0.0" =
      .ok statusSubscription ∧
    statusSubscribe.start = .ok ([], statusReceiver) ∧
    (∃ x, statusSubscription.deliveries [[0], statusDatagram 8 8] = .ok [x]) ∧
    (statusReceiver.run 1 [[0], statusDatagram 8 8]).1 = [] ∧
    ¬ statusReceiver.AgreesWith statusSubscription 1 [[0], statusDatagram 8 8] := by
  have hlength : (Consume.skipping statusReceiver.read [[0], statusDatagram 8 8]).length = 1 := by decide +kernel
  obtain ⟨x, hx⟩ := List.length_eq_one_iff.1 hlength
  have hraised : (statusReceiver.run 1 [[0], statusDatagram 8 8]).2 ≠ none := by decide +kernel
  refine ⟨loadCatalog_status, statusEvent_mem, create_status, start_status, ⟨x, ?_⟩, by decide +kernel,
    fun h => hraised h.raised⟩
  rw [← hx]
  exact EventSubscription.deliveries_eq e2eEnabled_status _

theorem parseMessage_statusDatagram (sessionId counter : Int) : ∃ hdr,
    parseMessage (recvUdp (statusDatagram sessionId counter)) = .ok (hdr, wrap [42] counter) ∧
      statusReceiver.Matches hdr ∧ hdr.sessionId = sessionId % 2 ^ 16 := by
  have hwhole : recvUdp (statusDatagram sessionId counter) = statusDatagram sessionId counter := by
    refine List.take_of_length_le ?_
    rw [statusDatagram, buildMessage, List.length_append, SomeIpHeader.length_pack]
    dsimp only
    rw [length_wrap]
    decide
  rw [hwhole]
  refine ⟨_, parseMessage_buildMessage _ ?_, ⟨?_, ?_, rfl⟩, rfl⟩
  · dsimp only
    rw [length_wrap]
    decide
  · rw [show statusReceiver.svcId = 0x1002 by decide +kernel]
    rfl
  · rw [show statusReceiver.eventId = 0x8001 by decide +kernel]
    rfl

theorem receivers_proper_example :
    (∀ x ∈ (statusReceiver.run 1 [statusDatagram 8 8]).1, statusReceiver.Proper x) ∧
      ∃ xs, statusSubscription.deliveries [statusDatagram 8 8] = .ok xs ∧ ∀ x ∈ xs, statusReceiver.Proper x := by
  refine (receivers_proper_iff e2eEnabled_status create_status start_status 1 _).2 fun d hd => ?_
  rw [List.mem_singleton.1 hd]
  rintro ⟨hdr, payload, core, counter, vals, hparse, -, hunwrap, -, hne⟩
  obtain ⟨hdr', hparse', -, hsession⟩ := parseMessage_statusDatagram 8 8
  cases hparse.symm.trans hparse'
  rw [unwrap_wrap] at hunwrap
  cases hunwrap
  exact hne hsession.symm

/-- Both deliver a datagram with the session id 8 and the counter 7. -/
theorem forged_counter_delivered :
    loadCatalog statusDoc = .ok statusSubscribe.cat ∧ statusSubscribe.event ∈ statusSubscribe.cat.messages ∧
    e2eEnabled statusSubscribe.event = .ok true ∧
    EventSubscription.create statusSubscribe.cat statusSubscribe.sigIndex statusSubscribe.event "0.0.0.0" =
      .ok statusSubscription ∧
    statusSubscribe.start = .ok ([], statusReceiver) ∧
    (¬ ∀ x ∈ (statusReceiver.run 1 [statusDatagram 8 7]).1, statusReceiver.Proper x) ∧
    ∃ xs, statusSubscription.deliveries [statusDatagram 8 7] = .ok xs ∧ ¬ ∀ x ∈ xs, statusReceiver.Proper x := by
  have he : e2eEnabled statusReceiver.event = .ok true := e2eEnabled_status
  obtain ⟨hdr, hparse, hmatches, hsession⟩ := parseMessage_statusDatagram 8 7
  have hdecode : decode statusReceiver.sigs [42] = .ok _ := Except.eq_ok_get (by decide +kernel)
  have hdeliver := (EventReceiver.deliver_eq_some_iff he).2 ⟨hdr, _, _, _, hparse, hmatches, unwrap_wrap _ _, hdecode⟩
  have hread := EventReceiver.read_eq_some_iff (x := (_, _)).2 ⟨rfl, hdeliver⟩
  have hskipping : ¬ ∀ x ∈ Consume.skipping statusReceiver.read [statusDatagram 8 7], statusReceiver.Proper x := by
    rw [EventReceiver.skipping_proper_iff he]
    intro h
    refine h _ (List.mem_singleton_self _) ⟨hdr, _, _, _, _, hparse, hmatches, unwrap_wrap _ _, hdecode, ?_⟩
    rw [hsession]
    decide
  refine ⟨loadCatalog_status, statusEvent_mem, e2eEnabled_status, create_status, start_status, ?_, _,
    EventSubscription.deliveries_eq e2eEnabled_status _, hskipping⟩
  rw [Consume.skipping_cons_some hread] at hskipping
  rw [EventReceiver.run, EventReceiver.loop_eq, show ((1 : Int) - 0).toNat = 0 + 1 from rfl,
    Consume.strict_cons_some hread]
  exact hskipping

end AutoEth
