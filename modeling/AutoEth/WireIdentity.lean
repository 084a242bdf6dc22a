import AutoEth.Call
import AutoEth.Publisher

/-!
# Messages that keep their identity on the wire

The node looks methods up and subscribers filter events by the ids of the catalog, which are integers
of any size; the header carries them cut to 16 bits, and the receivers bound what they take.
`wireIdentity_iff` says for which catalogs every request still reaches the route of its own method, and
every datagram the subscribers of its own event and no others: those whose messages fit
(`MessageFits`).
-/

namespace AutoEth

/-! ### The property -/

/-- A request is received as one message, and the route table gives it to the method. -/
def ReachesMethod (routes : Routes) (m : MessageDef) (req : Bytes) : Prop :=
  ∀ sock : Sock, sock.all = req → ∃ hdr pl sock' route,
    recvSomeip maxPayload sock = (.ok (hdr, pl), sock') ∧ sock'.all = [] ∧
      routes.get? (hdr.serviceId, hdr.methodId) = some route ∧ route.msg = m

/-- The test of a subscriber to the event with these ids. -/
def PassesFilter (svcId eventId : Int) (d : Bytes) : Prop :=
  ∃ hdr pl, parseMessage d = .ok (hdr, pl) ∧ hdr.serviceId = svcId ∧ hdr.methodId = eventId

/-- A datagram of one of the publishers of an event. -/
def Publishes (route : EventRoute) (d : Bytes) : Prop :=
  (∃ states ds, udpEventPublisher route states = .ok ds ∧ d ∈ ds) ∨
    ∃ dbs ds, udpEventPublisherWithDb route dbs = .ok ds ∧ d ∈ ds

structure WireIdentity (cat : Catalog) (routes : Routes) (events : UdpEvents) : Prop where
  method : ∀ m ∈ cat.messages, m.isTcpMethod = true → ∀ tcpPort values timeoutMs sigs req,
    tcpCallSend cat m (.fromSignals cat.signals) tcpPort values timeoutMs = .ok (sigs, req) →
      ReachesMethod routes m req
  event : ∀ route ∈ events.values, ∀ d, Publishes route d → d.length ≤ 2048 ∧
    ∀ e ∈ cat.messages, e.isUdpEvent = true → ∀ svcId v eventId,
      resolveSomeip cat e = .ok (svcId, v, eventId) → (PassesFilter svcId eventId d ↔ e = route.msg)

/-! ### The condition -/

/-- The ids of a message have 16 bits, and its payload at most `limit` bytes. -/
def MessageFits (cat : Catalog) (m : MessageDef) (limit : Nat) : Prop :=
  ∃ svcId v id sigs size e2e, resolveSomeip cat m = .ok (svcId, v, id) ∧
    (SignalIndex.fromSignals cat.signals).subset m.signals = .ok sigs ∧
    encodedSize sigs = .ok size ∧ e2eEnabled m = .ok e2e ∧
    (0 ≤ svcId ∧ svcId < 65536) ∧ (0 ≤ id ∧ id < 65536) ∧ size + (if e2e then 4 else 0) ≤ limit

/-- The test of `MessageFits`. -/
def messageFits (cat : Catalog) (m : MessageDef) (limit : Nat) : Except PyErr Bool := do
  let (svcId, _, id) ← resolveSomeip cat m
  let sigs ← (SignalIndex.fromSignals cat.signals).subset m.signals
  let size ← encodedSize sigs
  let e2e ← e2eEnabled m
  return (0 ≤ svcId ∧ svcId < 65536) ∧ (0 ≤ id ∧ id < 65536) ∧ size + (if e2e then 4 else 0) ≤ limit

theorem messageFits_iff {cat : Catalog} {m : MessageDef} {limit : Nat} :
    (messageFits cat m limit).toOption = some true ↔ MessageFits cat m limit := by
  have htrue : (messageFits cat m limit).toOption = some true ↔ messageFits cat m limit = .ok true := by
    cases messageFits cat m limit <;> simp [Except.toOption]
  rw [htrue]
  simp only [messageFits, Except.bind_eq_ok, Except.pure_eq_ok, Except.ok.injEq, decide_eq_true_eq]
  constructor
  · rintro ⟨⟨svcId, v, id⟩, hresolve, sigs, hsigs, size, hsize, e2e, he, h⟩
    exact ⟨svcId, v, id, sigs, size, e2e, hresolve, hsigs, hsize, he, h⟩
  · rintro ⟨svcId, v, id, sigs, size, e2e, hresolve, hsigs, hsize, he, h⟩
    exact ⟨(svcId, v, id), hresolve, sigs, hsigs, size, hsize, e2e, he, h⟩

instance (cat : Catalog) (m : MessageDef) (limit : Nat) : Decidable (MessageFits cat m limit) :=
  decidable_of_iff _ messageFits_iff

/-- A call of the method gets to sending: the timeout of the catalog, if any, is a number. -/
def Callable (m : MessageDef) : Prop :=
  ∃ timeoutMs t n, m.tcp.orEmpty.getD "timeout_ms" (.int timeoutMs) = .ok t ∧ t.toInt = .ok n

/-! ### Messages that are built and read again -/

theorem recvSomeip_buildMessage {args : MessageArgs} {limit : Nat} {sock sock' : Sock}
    {hdr : SomeIpHeader} {pl : Bytes} (hall : sock.all = buildMessage args)
    (h : recvSomeip limit sock = (.ok (hdr, pl), sock')) (hrest : sock'.all = []) :
    hdr = args.header.masked ∧ args.payload.length ≤ limit := by
  obtain ⟨f, rfl, rfl, hlen, hbytes⟩ := recvSomeip_ok h
  rw [hall, hrest, List.append_nil, buildMessage, Frame.bytes] at hbytes
  obtain ⟨hpack, hpayload⟩ := List.append_inj hbytes (by simp)
  refine ⟨?_, hpayload ▸ hlen⟩
  have h₁ := SomeIpHeader.unpack_pack_append args.header []
  have h₂ := SomeIpHeader.unpack_pack_append f.hdr []
  rw [hpack, h₂, f.onWire.masked_eq] at h₁
  exact Except.ok.inj h₁

section
variable {cat : Catalog} {routes : Routes} {events : UdpEvents}

/-! ### Methods -/

theorem callable_of_tcpCallSend {m : MessageDef} {idx : SignalIndex} {tcpPort : Option Int}
    {values : Dict String ℚ} {timeoutMs : Int} {r : List SignalDef × Bytes}
    (h : tcpCallSend cat m idx tcpPort values timeoutMs = .ok r) : Callable m := by
  simp only [tcpCallSend, Except.bind_eq_ok] at h
  obtain ⟨_, -, _, -, _, -, t, ht, n, hn, -⟩ := h
  exact ⟨timeoutMs, t, n, ht, hn⟩

theorem reachesMethod_of_fits (hcat : cat.Valid)
    (hroutes : buildTcpRoutes cat (.fromSignals cat.signals) = .ok routes) {m : MessageDef}
    (hm : m ∈ cat.messages) (hkind : m.isTcpMethod = true) (hfits : MessageFits cat m maxPayload)
    {tcpPort : Option Int} {values : Dict String ℚ} {timeoutMs : Int} {sigs : List SignalDef} {req : Bytes}
    (h : tcpCallSend cat m (.fromSignals cat.signals) tcpPort values timeoutMs = .ok (sigs, req)) :
    ReachesMethod routes m req := by
  obtain ⟨svcId, v, id, sigs', size, e2e, hresolve, hsigs, hsize, he, hsvc, hid, hlen⟩ := hfits
  have hvalid := hcat.subset_valid hsigs
  rw [encodedSize_eq hvalid] at hsize
  cases hsize
  obtain ⟨-, rfl⟩ := tcpCallSend_ok hresolve hsigs hvalid he h
  obtain ⟨route, hget, hmsg, -, -⟩ := get?_of_resolveSomeip hroutes hm hkind hresolve hsigs
  intro sock hsock
  have hpayload : (requestArgs svcId v id e2e (encodedBytes sigs' values)).payload.length ≤ maxPayload := by
    rw [length_requestArgs, length_encodedBytes]
    exact hlen
  have hwidth : 8 + (requestArgs svcId v id e2e (encodedBytes sigs' values)).payload.length < 2 ^ 32 := by
    unfold maxPayload at hpayload
    omega
  rw [← List.append_nil (buildMessage _), ← MessageArgs.frame_bytes _ hwidth] at hsock
  obtain ⟨sock', hrecv, hrest⟩ := (MessageArgs.frame _ hwidth).recvSomeip_frame hpayload hsock
  refine ⟨_, _, sock', route, hrecv, hrest, ?_, hmsg⟩
  have hs : svcId % 2 ^ 16 = svcId := Int.emod_eq_of_lt hsvc.1 hsvc.2
  have hi : id % 2 ^ 16 = id := Int.emod_eq_of_lt hid.1 hid.2
  show routes.get? (svcId % 2 ^ 16, id % 2 ^ 16) = some route
  rw [hs, hi, hget]

theorem fits_of_reachesMethod (hcat : cat.Valid)
    (hroutes : buildTcpRoutes cat (.fromSignals cat.signals) = .ok routes) {m : MessageDef}
    (hm : m ∈ cat.messages) (hkind : m.isTcpMethod = true) (hcall : Callable m)
    (h : ∀ tcpPort values timeoutMs sigs req,
      tcpCallSend cat m (.fromSignals cat.signals) tcpPort values timeoutMs = .ok (sigs, req) →
        ReachesMethod routes m req) : MessageFits cat m maxPayload := by
  obtain ⟨⟨⟨svcId, id⟩, route⟩, hroute, -⟩ := get?_of_isTcpMethod hroutes hm hkind
  obtain ⟨timeoutMs, t, n, ht, hn⟩ := hcall
  obtain ⟨e2e, he⟩ := hcat.e2eEnabled_ok hm
  have hvalid := hcat.subset_valid hroute.sigs
  obtain ⟨v, p, hport, htrue, hp⟩ := hcat.callPort_ok hm hkind (show some 1 ≠ some 0 by decide)
  have hreaches := h (some 1) ∅ timeoutMs _ _
    (tcpCallSend_eq hport htrue hp ht hn hroute.resolve hroute.sigs hvalid he)
  obtain ⟨hdr, pl, sock', route', hrecv, hrest, hget, hmsg⟩ := hreaches (Stream.whole _) (Stream.all_whole _)
  obtain ⟨rfl, hpayload⟩ := recvSomeip_buildMessage (Stream.all_whole _) hrecv hrest
  rw [length_requestArgs, length_encodedBytes] at hpayload
  -- the route that was found is that of the ids on the wire
  obtain ⟨m', -, -, hroute'⟩ := isTcpRoute_of_get? hroutes hget
  have hm' : m' = m := hroute'.msg.symm.trans hmsg
  have hids := hroute'.resolve
  rw [hm', hroute.resolve] at hids
  simp only [Except.ok.injEq, Prod.mk.injEq] at hids
  have hs : svcId % 2 ^ 16 = svcId := hids.1.symm
  have hi : id % 2 ^ 16 = id := hids.2.2.symm
  exact ⟨svcId, _, id, _, _, e2e, hroute.resolve, hroute.sigs, encodedSize_eq hvalid, he, by omega,
    by omega, hpayload⟩

/-! ### Events -/

theorem mem_values_of_isUdpEvent (hcat : cat.Valid)
    (hevents : buildUdpEvents cat (.fromSignals cat.signals) = .ok events) {e : MessageDef}
    (he : e ∈ cat.messages) (hkind : e.isUdpEvent = true) :
    ∃ route ∈ events.values, route.msg = e ∧
      IsUdpEvent cat (.fromSignals cat.signals) e (e.name, route) := by
  obtain ⟨⟨name, route⟩, hmem, hevent⟩ :=
    List.Forall₂.exists_right (buildUdpEvents_entries hcat hevents) (List.mem_filter.2 ⟨he, hkind⟩)
  obtain rfl : name = e.name := hevent.name
  exact ⟨route, List.mem_map.2 ⟨_, hmem, rfl⟩, hevent.msg, hevent⟩

theorem EventRoute.Ok.of_publishes {route : EventRoute} (hok : route.Ok) {e2e : Bool}
    (he : e2eEnabled route.msg = .ok e2e) {d : Bytes} (h : Publishes route d) :
    ∃ seq vals, d = buildMessage (notificationArgs route seq e2e (encodedBytes route.sigs vals)) := by
  rcases h with ⟨states, ds, hrun, hd⟩ | ⟨dbs, ds, hrun, hd⟩
  all_goals
    first | rw [udpEventPublisher, hok.publish_eq he] at hrun
          | rw [udpEventPublisherWithDb, hok.publish_eq he] at hrun
    cases hrun
    obtain ⟨n, hn, rfl⟩ := List.mem_mapIdx.1 hd
    exact ⟨_, _, rfl⟩

theorem event_of_fits (hcat : cat.Valid)
    (hevents : buildUdpEvents cat (.fromSignals cat.signals) = .ok events) {route : EventRoute}
    (hroute : route ∈ events.values) (hfits : MessageFits cat route.msg (2048 - 16)) {d : Bytes}
    (hd : Publishes route d) : d.length ≤ 2048 ∧
      ∀ e ∈ cat.messages, e.isUdpEvent = true → ∀ svcId v eventId,
        resolveSomeip cat e = .ok (svcId, v, eventId) → (PassesFilter svcId eventId d ↔ e = route.msg) := by
  obtain ⟨svcId₀, v₀, id₀, sigs, size, e2e, hresolve₀, hsigs, hsize, he, hsvc, hid, hlen⟩ := hfits
  obtain ⟨hmem, hkind, hevent⟩ := isUdpEvent_of_mem hcat hevents hroute
  have hok := EventRoute.Ok.of_buildUdpEvents hcat hevents hroute
  obtain ⟨seq, vals, rfl⟩ := hok.of_publishes he hd
  cases hevent.sigs.symm.trans hsigs
  rw [encodedSize_eq hok.sigs_valid] at hsize
  cases hsize
  cases hevent.resolve.symm.trans hresolve₀
  set args := notificationArgs route seq e2e (encodedBytes route.sigs vals) with hargs
  have hpayload : args.payload.length = sizeOf route.sigs + if e2e then 4 else 0 := by
    rw [hargs, length_notificationArgs, length_encodedBytes]
  have hs : args.header.masked.serviceId = route.svcId := Int.emod_eq_of_lt hsvc.1 hsvc.2
  have hi : args.header.masked.methodId = route.eventId := Int.emod_eq_of_lt hid.1 hid.2
  have hparse := parseMessage_buildMessage args (by omega)
  refine ⟨?_, fun e hmem' hkind' svcId v eventId hresolve => ⟨?_, ?_⟩⟩
  · rw [buildMessage, List.length_append, SomeIpHeader.length_pack]
    omega
  · rintro ⟨hdr, pl, hread, rfl, rfl⟩
    cases hparse.symm.trans hread
    rw [hs, hi] at hresolve
    -- two events of the table with the same ids are one
    obtain ⟨route', hroute', rfl, hevent'⟩ := mem_values_of_isUdpEvent hcat hevents hmem' hkind'
    have hids : route'.ids = route.ids := by
      have := hevent'.resolve.symm.trans hresolve
      simp only [Except.ok.injEq, Prod.mk.injEq] at this
      exact Prod.ext this.1 this.2.2
    rw [List.inj_on_of_nodup_map (buildUdpEvents_ids_nodup hcat hevents) hroute' hroute hids]
  · rintro rfl
    cases hevent.resolve.symm.trans hresolve
    exact ⟨_, _, hparse, hs, hi⟩

theorem fits_of_event (hcat : cat.Valid)
    (hevents : buildUdpEvents cat (.fromSignals cat.signals) = .ok events) {route : EventRoute}
    (hroute : route ∈ events.values)
    (h : ∀ d, Publishes route d → d.length ≤ 2048 ∧
      ∀ e ∈ cat.messages, e.isUdpEvent = true → ∀ svcId v eventId,
        resolveSomeip cat e = .ok (svcId, v, eventId) → (PassesFilter svcId eventId d ↔ e = route.msg)) :
    MessageFits cat route.msg (2048 - 16) := by
  obtain ⟨hmem, hkind, hevent⟩ := isUdpEvent_of_mem hcat hevents hroute
  have hok := EventRoute.Ok.of_buildUdpEvents hcat hevents hroute
  obtain ⟨e2e, he⟩ := hok.e2eEnabled_ok
  have hrun := hok.publish_eq he stateSnapshot 0 [∅]
  set args := notificationArgs route ((0 + (0 + 1 : Nat)) % 2 ^ 16) e2e
    (encodedBytes route.sigs (stateSnapshot ∅ route.sigs)) with hargs
  have hpayload : args.payload.length = sizeOf route.sigs + if e2e then 4 else 0 := by
    rw [hargs, length_notificationArgs, length_encodedBytes]
  obtain ⟨hlen, hfilter⟩ := h (buildMessage args) (.inl ⟨[∅], _, hrun, List.mem_singleton.2 rfl⟩)
  rw [buildMessage, List.length_append, SomeIpHeader.length_pack] at hlen
  obtain ⟨hdr, pl, hread, hs, hi⟩ := (hfilter _ hmem hkind _ _ _ hevent.resolve).2 rfl
  rw [parseMessage_buildMessage args (by omega)] at hread
  cases hread
  have hs : route.svcId % 2 ^ 16 = route.svcId := hs
  have hi : route.eventId % 2 ^ 16 = route.eventId := hi
  exact ⟨route.svcId, route.ifaceVer, route.eventId, route.sigs, _, e2e, hevent.resolve, hevent.sigs,
    encodedSize_eq hok.sigs_valid, he, by omega, by omega, by omega⟩

end

/-- Every message keeps its identity exactly when the messages of the catalog fit. -/
theorem wireIdentity_iff {doc : Value} {cat : Catalog} {routes : Routes} {events : UdpEvents}
    (hload : loadCatalog doc = .ok cat)
    (hroutes : buildTcpRoutes cat (.fromSignals cat.signals) = .ok routes)
    (hevents : buildUdpEvents cat (.fromSignals cat.signals) = .ok events) :
    WireIdentity cat routes events ↔
      (∀ m ∈ cat.messages, m.isTcpMethod = true → Callable m → MessageFits cat m 4096) ∧
      ∀ e ∈ cat.messages, e.isUdpEvent = true → MessageFits cat e (2048 - 16) := by
  have hcat := Catalog.Valid.of_loadCatalog hload
  constructor
  · intro h
    refine ⟨fun m hm hkind hcall => fits_of_reachesMethod hcat hroutes hm hkind hcall (h.method m hm hkind),
      fun e he hkind => ?_⟩
    obtain ⟨route, hroute, rfl, -⟩ := mem_values_of_isUdpEvent hcat hevents he hkind
    exact fits_of_event hcat hevents hroute (h.event route hroute)
  · rintro ⟨hmethods, hudp⟩
    refine ⟨fun m hm hkind tcpPort values timeoutMs sigs req hreq => ?_, fun route hroute d hd => ?_⟩
    · exact reachesMethod_of_fits hcat hroutes hm hkind
        (hmethods m hm hkind (callable_of_tcpCallSend hreq)) hreq
    · obtain ⟨hmem, hkind, -⟩ := isUdpEvent_of_mem hcat hevents hroute
      exact event_of_fits hcat hevents hroute (hudp _ hmem hkind) hd

theorem wireIdentity_example : WireIdentity exampleCatalog exampleRoutes exampleEvents := by
  have hmethods : ∀ m ∈ exampleCatalog.messages, m.isTcpMethod = true →
      MessageFits exampleCatalog m 4096 := by decide +kernel
  have hevents : ∀ e ∈ exampleCatalog.messages, e.isUdpEvent = true →
      MessageFits exampleCatalog e (2048 - 16) := by decide +kernel
  exact (wireIdentity_iff loadCatalog_example buildTcpRoutes_example buildUdpEvents_example).2
    ⟨fun m hm hkind _ => hmethods m hm hkind, hevents⟩

/-! ### An id of more than 16 bits -/

/-- Two methods whose ids differ above the 16 bits of the header. -/
def wideDoc : Value :=
  .dict [
    ("discovery", .dict [("group", .str "239.0.0.2"), ("port", .int 30490), ("ttl", .int 1),
      ("iface", .str "eth0")]),
    ("signals", .list [
      .dict [("name", .str "throttle_position"), ("type", .str "u8")],
      .dict [("name", .str "gear_position"), ("type", .str "i8")]]),
    ("services", .list [
      .dict [("name", .str "powertrain_service"), ("service_id", .int 0x1002),
        ("instance_id", .int 1)]]),
    ("messages", .list [
      .dict [("name", .str "set_throttle"), ("msg_id", .int 20), ("kind", .str "method"),
        ("transport", .str "tcp"), ("tcp", .dict [("port", .int 30502)]),
        ("someip", .dict [("service", .str "powertrain_service"), ("method_id", .int 1)]),
        ("signals", .list [.str "throttle_position"])],
      .dict [("name", .str "set_gear"), ("msg_id", .int 23), ("kind", .str "method"),
        ("transport", .str "tcp"), ("tcp", .dict [("port", .int 30502)]),
        ("someip", .dict [("service", .str "powertrain_service"), ("method_id", .int 0x10001)]),
        ("signals", .list [.str "gear_position"])],
      .dict [("name", .str "powertrain_status_event"), ("msg_id", .int 30), ("kind", .str "event"),
        ("transport", .str "udp"), ("period_ms", .int 25), ("udp", .dict [("port", .int 30512)]),
        ("someip", .dict [("service", .str "powertrain_service"), ("event_id", .int 0x8001)]),
        ("signals", .list [.str "throttle_position"])]])]

def wideCatalog : Catalog := (loadCatalog wideDoc).get (by decide +kernel)

def wideRoutes : Routes :=
  (buildTcpRoutes wideCatalog (.fromSignals wideCatalog.signals)).get (by decide +kernel)

def wideEvents : UdpEvents :=
  (buildUdpEvents wideCatalog (.fromSignals wideCatalog.signals)).get (by decide +kernel)

/-- The method `set_gear`. -/
def wideMethod : MessageDef := (wideCatalog.messages.drop 1).head (by decide +kernel)

/-- A call of `set_gear`: its signals and the request. -/
def wideCall : List SignalDef × Bytes :=
  (tcpCallSend wideCatalog wideMethod (.fromSignals wideCatalog.signals) none
    (Dict.ofList [("gear_position", 3)]) 500).get (by decide +kernel)

/-- A request for `set_gear` is given to `set_throttle`. -/
theorem wideMethod_reaches_another :
    loadCatalog wideDoc = .ok wideCatalog ∧
    buildTcpRoutes wideCatalog (.fromSignals wideCatalog.signals) = .ok wideRoutes ∧
    buildUdpEvents wideCatalog (.fromSignals wideCatalog.signals) = .ok wideEvents ∧
    ¬ WireIdentity wideCatalog wideRoutes wideEvents := by
  refine ⟨Except.eq_ok_get _, Except.eq_ok_get _, Except.eq_ok_get _, fun h => ?_⟩
  have hmem : wideMethod ∈ wideCatalog.messages := List.mem_of_mem_drop (List.head_mem _)
  have hsend : tcpCallSend wideCatalog wideMethod (.fromSignals wideCatalog.signals) none
      (Dict.ofList [("gear_position", 3)]) 500 = .ok (wideCall.1, wideCall.2) := Except.eq_ok_get _
  obtain ⟨hdr, pl, sock', route, hrecv, -, hget, hmsg⟩ :=
    h.method wideMethod hmem (by decide +kernel) _ _ _ _ _ hsend (Stream.whole wideCall.2)
      (Stream.all_whole _)
  have hfound : ((recvSomeip maxPayload (Stream.whole wideCall.2)).1.toOption.bind fun r =>
      (wideRoutes.get? (r.1.serviceId, r.1.methodId)).map fun route => route.msg.name) =
        some "set_throttle" := by decide +kernel
  rw [hrecv] at hfound
  simp only [Except.toOption, Option.bind_some, hget, Option.map_some, hmsg] at hfound
  exact absurd hfound (by decide +kernel)

end AutoEth
