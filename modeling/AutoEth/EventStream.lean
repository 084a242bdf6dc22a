import AutoEth.Publisher
import AutoEth.Subscription

/-!
# Event streams

The receiving loop of `EventSubscription`, and the stream of datagrams from a publisher to it. A
datagram that a publisher built is delivered with its session id and its values
(`Takes.deliver_notification`); `eventStream` follows both loops over runs of any length, in which the
sequence number wraps any number of times.
-/

namespace AutoEth

/-! ### The receiving loop -/

namespace EventSubscription

/-- What the loop has delivered. -/
structure Received where
  count : Nat
  lastValues : Option (Dict String ℚ)

def recvSize : Nat := 2048

/-- The values of a datagram; `none` where the loop skips it. -/
def deliver (sub : EventSubscription) (data : Bytes) : Except PyErr (Option (Dict String ℚ)) :=
  match parseMessage data with
  | .error _ => .ok none
  | .ok (hdr, payload) =>
    if hdr.serviceId ≠ sub.svcId ∨ hdr.methodId ≠ sub.eid then .ok none
    else if hdr.msgType ≠ mtNotification then .ok none
    else do
      let core := if (← e2eEnabled sub.event) then (unwrap payload).toOption.map Prod.fst else some payload
      return core.bind fun core => (decode sub.sigs core).toOption

/-- One turn of the loop; `recvfrom` cuts a longer datagram. -/
def receive (sub : EventSubscription) (r : Received) (datagram : Bytes) : Except PyErr Received := do
  match ← sub.deliver (datagram.take recvSize) with
  | none => return r
  | some vals => return ⟨r.count + 1, some vals⟩

/-- The loop on the datagrams that come in. -/
def loop (sub : EventSubscription) (datagrams : List Bytes) : Except PyErr Received :=
  datagrams.foldlM sub.receive ⟨0, none⟩

/-- What comes before the loop: the socket is bound, and joins the group of a multicast event. -/
def listen (sub : EventSubscription) : Except PyErr Unit := do
  socketPort "bind" sub.port
  if sub.mode = "multicast" ∧ sub.group ≠ "" then joinMulticast sub.group sub.ifaceIp

def run (sub : EventSubscription) (datagrams : List Bytes) : Except PyErr Received := do
  sub.listen
  sub.loop datagrams

section
variable {cat : Catalog} {sigIndex : SignalIndex} {event : MessageDef} {ifaceIp : String} {sub : EventSubscription}

/-- A loop that raises nothing leaves the exceptions of the socket. -/
theorem run_of_loop {datagrams : List Bytes} {r : Received} (h : sub.loop datagrams = .ok r) :
    sub.run datagrams = sub.listen.map fun _ => r := by
  rw [run, h]
  cases sub.listen <;> rfl

theorem create_ok (h : create cat sigIndex event ifaceIp = .ok sub) :
    portOf event.udp = .ok sub.port ∧ modeOf event.udp = .ok sub.mode := by
  simp only [create, Except.bind_eq_ok, Except.pure_eq_ok, Except.ok.injEq] at h
  obtain ⟨port, hport, mode, hmode, v, -, ids, -, sigs, -, rfl⟩ := h
  exact ⟨hport, hmode⟩

theorem listen_unicast (hmode : sub.mode ≠ "multicast") (hport : FitsBits 16 sub.port) : sub.listen = .ok () := by
  rw [listen, socketPort_eq_ok.2 hport, Except.ok_bind, if_neg fun h => hmode h.1]
  rfl

end

end EventSubscription

/-! ### From a publisher to a subscriber -/

/-- A subscriber to the event of a route. -/
structure SubscribesTo (sub : EventSubscription) (route : EventRoute) : Prop where
  event : sub.event = route.msg
  svcId : sub.svcId = route.svcId
  eid : sub.eid = route.eventId
  sigs : sub.sigs = route.sigs

theorem exists_subscribesTo {cat : Catalog} {events : UdpEvents} (hcat : cat.Valid)
    (hevents : buildUdpEvents cat (.fromSignals cat.signals) = .ok events) {route : EventRoute}
    (hroute : route ∈ events.values) (ifaceIp : String) :
    ∃ sub, EventSubscription.create cat (.fromSignals cat.signals) route.msg ifaceIp = .ok sub ∧
      SubscribesTo sub route := by
  obtain ⟨hmem, hkind, hevent⟩ := isUdpEvent_of_mem hcat hevents hroute
  obtain ⟨mode, svcId, egid, port, hreads, -⟩ := exists_readsEvent hcat hevents hmem hkind 0
  obtain ⟨sub, hsub⟩ := hreads.create ifaceIp
  refine ⟨sub, hsub, ?_⟩
  simp only [EventSubscription.create, hevent.resolve, hevent.sigs, Except.bind_eq_ok, Except.ok.injEq,
    Except.pure_eq_ok] at hsub
  obtain ⟨_, -, _, -, _, -, _, rfl, _, rfl, rfl⟩ := hsub
  exact ⟨rfl, rfl, rfl, rfl⟩

/-- The subscriber's filter and buffer take the datagrams of the route. -/
structure Takes (sub : EventSubscription) (route : EventRoute) (e2e : Bool) : Prop where
  subscribes : SubscribesTo sub route
  ok : route.Ok
  e2eEnabled_eq : e2eEnabled route.msg = .ok e2e
  svcId : 0 ≤ route.svcId ∧ route.svcId < 65536
  eventId : 0 ≤ route.eventId ∧ route.eventId < 65536
  size_le : 16 + sizeOf route.sigs + (if e2e then 4 else 0) ≤ 2048

section
variable {route : EventRoute} {sub : EventSubscription} {e2e : Bool}

theorem length_notificationArgs_encodedBytes (seq : Int) (vals : Dict String ℚ) :
    (notificationArgs route seq e2e (encodedBytes route.sigs vals)).payload.length =
      sizeOf route.sigs + if e2e then 4 else 0 := by
  rw [length_notificationArgs, length_encodedBytes]

namespace Takes

theorem parseMessage_notification (h : Takes sub route e2e) (seq : Int) (vals : Dict String ℚ) :
    let args := notificationArgs route seq e2e (encodedBytes route.sigs vals)
    parseMessage (buildMessage args) = .ok (args.header.masked, args.payload) := by
  refine parseMessage_buildMessage _ ?_
  have := h.size_le
  rw [length_notificationArgs_encodedBytes]
  omega

theorem deliver_notification (h : Takes sub route e2e) (seq : Int) (vals : Dict String ℚ) :
    sub.deliver (buildMessage (notificationArgs route seq e2e (encodedBytes route.sigs vals))) =
      .ok (some (quantize route.sigs vals)) := by
  have hparse := h.parseMessage_notification seq vals
  set args := notificationArgs route seq e2e (encodedBytes route.sigs vals) with hargs
  have hs : args.header.masked.serviceId = sub.svcId := by
    rw [h.subscribes.svcId]
    exact Int.emod_eq_of_lt h.svcId.1 h.svcId.2
  have hm : args.header.masked.methodId = sub.eid := by
    rw [h.subscribes.eid]
    exact Int.emod_eq_of_lt h.eventId.1 h.eventId.2
  have htype : args.header.masked.msgType = mtNotification := rfl
  have hdec : decode sub.sigs (encodedBytes route.sigs vals) = .ok (quantize route.sigs vals) := by
    rw [h.subscribes.sigs]
    simpa using decode_encodedBytes h.ok.sigs_valid vals []
  rw [EventSubscription.deliver, hparse]
  dsimp only
  rw [if_neg (by simp [hs, hm]), if_neg (not_not.2 htype), h.subscribes.event, h.e2eEnabled_eq]
  cases e2e with
  | true =>
    have hunwrap : unwrap args.payload = .ok (encodedBytes route.sigs vals, seq % 65536) :=
      unwrap_wrap _ seq
    simp only [Except.ok_bind, if_true, hunwrap, Except.toOption, Option.map_some, Option.bind_some, hdec]
    rfl
  | false =>
    have hpayload : args.payload = encodedBytes route.sigs vals := rfl
    simp only [Except.ok_bind, Bool.false_eq_true, if_false, hpayload, Option.bind_some, hdec]
    rfl

theorem receive_notification (h : Takes sub route e2e) (seq : Int) (vals : Dict String ℚ)
    (r : EventSubscription.Received) :
    sub.receive r (buildMessage (notificationArgs route seq e2e (encodedBytes route.sigs vals))) =
      .ok ⟨r.count + 1, some (quantize route.sigs vals)⟩ := by
  have hwhole : (buildMessage (notificationArgs route seq e2e (encodedBytes route.sigs vals))).take
      EventSubscription.recvSize =
        buildMessage (notificationArgs route seq e2e (encodedBytes route.sigs vals)) := by
    refine List.take_of_length_le ?_
    have := h.size_le
    rw [buildMessage, List.length_append, SomeIpHeader.length_pack, length_notificationArgs_encodedBytes,
      EventSubscription.recvSize]
    omega
  rw [EventSubscription.receive, hwhole, h.deliver_notification, Except.ok_bind]
  rfl

end Takes

end

/-- The datagrams of a publisher that took these snapshots, and what the subscriber makes of them. -/
structure Streams (route : EventRoute) (sub : EventSubscription) (snapshots : List (Dict String ℚ))
    (datagrams : List Bytes) : Prop where
  length_eq : datagrams.length = snapshots.length
  /-- The session id and the E2E counter of the datagram number `n + 1`. -/
  numbered : ∀ n d, datagrams[n]? = some d → ∃ hdr pl, parseMessage d = .ok (hdr, pl) ∧
    hdr.sessionId = ((n + 1 : Nat) : Int) % 65536 ∧
    (e2eEnabled route.msg = .ok true → ∃ core, unwrap pl = .ok (core, ((n + 1 : Nat) : Int) % 65536))
  /-- What the loop has delivered after `n + 1` datagrams. -/
  received : ∀ n vals, snapshots[n]? = some vals → ∃ enc dec, encode route.sigs vals = .ok enc ∧
    decode route.sigs enc = .ok dec ∧ sub.loop (datagrams.take (n + 1)) = .ok ⟨n + 1, some dec⟩

section
variable {route : EventRoute} {sub : EventSubscription} {e2e : Bool}

/-- The datagrams of a publisher, as `publish_eq` lists them. -/
def notifications (route : EventRoute) (e2e : Bool) (snapshots : List (Dict String ℚ)) : List Bytes :=
  snapshots.mapIdx fun n vals => buildMessage
    (notificationArgs route (((n + 1 : Nat) : Int) % 2 ^ 16) e2e (encodedBytes route.sigs vals))

theorem notifications_concat (snapshots : List (Dict String ℚ)) (vals : Dict String ℚ) :
    notifications route e2e (snapshots ++ [vals]) = notifications route e2e snapshots ++
      [buildMessage (notificationArgs route (((snapshots.length + 1 : Nat) : Int) % 2 ^ 16) e2e
        (encodedBytes route.sigs vals))] :=
  List.mapIdx_concat

theorem EventRoute.Ok.publish_eq_notifications {σ : Type} (hok : route.Ok)
    (he : e2eEnabled route.msg = .ok e2e) (snapshot : σ → List SignalDef → Dict String ℚ)
    (states : List σ) : publish snapshot route 0 states =
      .ok (notifications route e2e (states.map fun state => snapshot state route.sigs)) := by
  rw [hok.publish_eq he, notifications]
  simp only [Int.zero_add]

theorem Takes.loop_notifications (h : Takes sub route e2e) (snapshots : List (Dict String ℚ)) :
    sub.loop (notifications route e2e snapshots) =
      .ok ⟨snapshots.length, snapshots.getLast?.map (quantize route.sigs)⟩ := by
  induction snapshots using List.reverseRecOn with
  | nil => rfl
  | append_singleton snapshots vals ih =>
    rw [EventSubscription.loop] at ih ⊢
    rw [notifications_concat, List.foldlM_append, ih, Except.ok_bind, List.foldlM_cons,
      h.receive_notification, Except.ok_bind, List.length_append, List.getLast?_concat]
    rfl

theorem Takes.streams_notifications (h : Takes sub route e2e) (snapshots : List (Dict String ℚ)) :
    Streams route sub snapshots (notifications route e2e snapshots) := by
  refine ⟨List.length_mapIdx, fun n d hd => ?_, fun n vals hvals => ?_⟩
  · rw [notifications, List.getElem?_mapIdx] at hd
    obtain ⟨vals, -, rfl⟩ := Option.map_eq_some_iff.1 hd
    refine ⟨_, _, h.parseMessage_notification _ vals, Int.emod_emod_of_dvd _ (dvd_refl _), fun he => ?_⟩
    obtain rfl : e2e = true := Except.ok.inj (h.e2eEnabled_eq.symm.trans he)
    refine ⟨encodedBytes route.sigs vals, ?_⟩
    show unwrap (wrap _ _) = _
    rw [unwrap_wrap, Int.emod_emod_of_dvd _ (by norm_num)]
  · have hn : n < snapshots.length := (List.getElem?_eq_some_iff.1 hvals).1
    have htake : (notifications route e2e snapshots).take (n + 1) =
        notifications route e2e (snapshots.take (n + 1)) := by
      conv_lhs => rw [← List.take_append_drop (n + 1) snapshots, notifications, List.mapIdx_append]
      rw [List.take_left']
      · rfl
      · rw [List.length_mapIdx, List.length_take]
        omega
    have hlast : (snapshots.take (n + 1)).getLast? = some vals := by
      rw [List.take_add_one, hvals, Option.toList_some, List.getLast?_concat]
    have hlength : (snapshots.take (n + 1)).length = n + 1 := by
      rw [List.length_take]
      omega
    refine ⟨_, quantize route.sigs vals, encode_eq h.ok.sigs_valid vals, ?_, ?_⟩
    · simpa using decode_encodedBytes h.ok.sigs_valid vals []
    · rw [htake, h.loop_notifications, hlength, hlast]
      rfl

end

/-- The event stream end to end, for both publishers. -/
theorem eventStream {doc : Value} {cat : Catalog} {events : UdpEvents} (hload : loadCatalog doc = .ok cat)
    (hevents : buildUdpEvents cat (.fromSignals cat.signals) = .ok events) {route : EventRoute}
    (hroute : route ∈ events.values) (hsvc : 0 ≤ route.svcId ∧ route.svcId < 65536)
    (hevent : 0 ≤ route.eventId ∧ route.eventId < 65536) {size : Nat} {e2e : Bool}
    (hsize : encodedSize route.sigs = .ok size) (he : e2eEnabled route.msg = .ok e2e)
    (hlen : 16 + size + (if e2e then 4 else 0) ≤ 2048) (ifaceIp : String) :
    ∃ sub, EventSubscription.create cat (.fromSignals cat.signals) route.msg ifaceIp = .ok sub ∧
      (∀ states, ∃ datagrams, udpEventPublisher route states = .ok datagrams ∧
        Streams route sub (states.map fun state => stateSnapshot state route.sigs) datagrams) ∧
      ∀ dbs, ∃ datagrams, udpEventPublisherWithDb route dbs = .ok datagrams ∧
        Streams route sub (dbs.map fun db => dbSnapshot db route.sigs) datagrams := by
  have hcat := Catalog.Valid.of_loadCatalog hload
  have hok := EventRoute.Ok.of_buildUdpEvents hcat hevents hroute
  obtain ⟨sub, hcreate, hsub⟩ := exists_subscribesTo hcat hevents hroute ifaceIp
  rw [encodedSize_eq hok.sigs_valid] at hsize
  cases hsize
  have htakes : Takes sub route e2e := ⟨hsub, hok, he, hsvc, hevent, hlen⟩
  refine ⟨sub, hcreate, fun states => ?_, fun dbs => ?_⟩
  · exact ⟨_, hok.publish_eq_notifications he stateSnapshot states, htakes.streams_notifications _⟩
  · exact ⟨_, hok.publish_eq_notifications he dbSnapshot dbs, htakes.streams_notifications _⟩

theorem eventStream_example :
    ∃ route ∈ exampleEvents.values, ∃ sub datagrams,
      udpEventPublisher route [initState exampleCatalog.signals, ∅] = .ok datagrams ∧
        Streams route sub ([initState exampleCatalog.signals, ∅].map fun state =>
          stateSnapshot state route.sigs) datagrams := by
  have hroute := List.head_mem (l := exampleEvents.values) (by decide +kernel)
  obtain ⟨sub, -, hnode, -⟩ := eventStream loadCatalog_example buildUdpEvents_example hroute
    (by decide +kernel) (by decide +kernel) (Except.eq_ok_get (by decide +kernel))
    (Except.eq_ok_get (by decide +kernel)) (by decide +kernel) "0.0.0.0"
  obtain ⟨datagrams, hrun, hstreams⟩ := hnode [initState exampleCatalog.signals, ∅]
  exact ⟨_, hroute, sub, datagrams, hrun, hstreams⟩

end AutoEth
