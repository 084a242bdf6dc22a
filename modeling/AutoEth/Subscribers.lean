import AutoEth.Delivery
import AutoEth.Receivers
import AutoEth.Confirmation

/-!
# What a subscriber shows

From the requests that a server accepts to the values at a subscriber of an event. The datagrams that reach
the subscriber are those of any ticks of any publishers, in any order, some lost and some twice; the ids
tell the event apart, so that the others leave nothing (`subscriber_counts_own`). The values of a signal
are those of its last write before the snapshot of the last such tick, unchanged by the way through the
two encodings, or its default (`subscriber_shows_last_write`).
-/

namespace AutoEth

/-! ### Datagrams of other events -/

theorem parseMessage_take_buildMessage {args : MessageArgs} {n : Nat} {hdr : SomeIpHeader} {pl : Bytes}
    (hn : hdrSize ≤ n) (h : parseMessage ((buildMessage args).take n) = .ok (hdr, pl)) : hdr = args.header.masked := by
  obtain ⟨hunpack, -⟩ := parseMessage_ok h
  have htake : (buildMessage args).take n = args.header.pack ++ args.payload.take (n - 16) := by
    rw [buildMessage, List.take_append, SomeIpHeader.length_pack, List.take_of_length_le]
    rw [SomeIpHeader.length_pack]
    exact hn
  rw [htake, SomeIpHeader.unpack_pack_append] at hunpack
  exact (Except.ok.inj hunpack).symm

theorem EventSubscription.receive_of_other {sub : EventSubscription} {args : MessageArgs} (r : Received)
    (h : (args.serviceId % 2 ^ 16, args.methodId % 2 ^ 16) ≠ (sub.svcId, sub.eid)) :
    sub.receive r (buildMessage args) = .ok r := by
  have hdeliver : sub.deliver ((buildMessage args).take recvSize) = .ok none := by
    cases hparse : parseMessage ((buildMessage args).take recvSize) with
    | error e => rw [deliver, hparse]
    | ok p =>
      obtain ⟨hdr, pl⟩ := p
      obtain rfl := parseMessage_take_buildMessage (by decide) hparse
      refine deliver_of_not_matches hparse fun hmatches => h ?_
      exact Prod.ext hmatches.1 hmatches.2.1
  rw [receive, hdeliver, Except.ok_bind]
  rfl

section
variable {σ : Type} {ι : Type}

/-- A publisher of the world has made the tick. -/
def Sends (w : World (ServerContext σ) Update ServerThread ι) (p : Publishing) (tick : Tick) : Prop :=
  ∃ i t, w.threads i = .publisher t ∧ w.store.threads[t.number]? = some p ∧ tick ∈ t.ticks

/-- Those of the datagrams that are of the event. -/
def ownTicks (route : EventRoute) (deliveries : List (Publishing × Tick)) : List Tick :=
  (deliveries.filter fun d => d.1.pub.route.msg.name = route.msg.name).map Prod.snd

theorem ownTicks_concat (route : EventRoute) (deliveries : List (Publishing × Tick)) (d : Publishing × Tick) :
    ownTicks route (deliveries ++ [d]) =
      ownTicks route deliveries ++ if d.1.pub.route.msg.name = route.msg.name then [d.2] else [] := by
  rw [ownTicks, List.filter_append, List.map_append, ownTicks]
  split_ifs with h
  · simp [h]
  · simp [h]

/-- The events of the table have ids that a header can carry. -/
def UdpEvents.Wired (events : UdpEvents) : Prop :=
  ∀ route ∈ events.values, 0 ≤ route.svcId ∧ route.svcId < 65536 ∧ 0 ≤ route.eventId ∧ route.eventId < 65536

variable {cat : Catalog} {events : UdpEvents} {route : EventRoute} {sub : EventSubscription} {e2e : Bool}

theorem exists_takes (hcat : cat.Valid) (hevents : buildUdpEvents cat (.fromSignals cat.signals) = .ok events)
    (hwired : events.Wired) (hroute : route ∈ events.values) {size : Nat} (hsize : encodedSize route.sigs = .ok size)
    (he : e2eEnabled route.msg = .ok e2e) (hlen : 16 + size + (if e2e then 4 else 0) ≤ 2048) (ifaceIp : String) :
    ∃ sub, EventSubscription.create cat (.fromSignals cat.signals) route.msg ifaceIp = .ok sub ∧
      Takes sub route e2e := by
  have hok := EventRoute.Ok.of_buildUdpEvents hcat hevents hroute
  obtain ⟨sub, hcreate, hsub⟩ := exists_subscribesTo hcat hevents hroute ifaceIp
  rw [encodedSize_eq hok.sigs_valid] at hsize
  cases hsize
  obtain ⟨hs, hs', hid, hid'⟩ := hwired route hroute
  exact ⟨sub, hcreate, hsub, hok, he, ⟨hs, hs'⟩, ⟨hid, hid'⟩, hlen⟩

theorem Publishing.Ok.route_eq {p : Publishing} (hp : Publishing.Ok events p) (hcat : cat.Valid)
    (hevents : buildUdpEvents cat (.fromSignals cat.signals) = .ok events) (hroute : route ∈ events.values)
    (hname : p.pub.route.msg.name = route.msg.name) : p.pub.route = route := by
  obtain ⟨⟨name, r⟩, hr, rfl⟩ := List.mem_map.1 hroute
  have hget := Dict.get?_of_mem_entries hr
  have hnamed := UdpEvents.Named.of_build hcat hevents name r hget
  have hget' := hp.route
  rw [hname, hnamed, hget] at hget'
  exact (Option.some.inj hget').symm

theorem Takes.receive_sent (h : Takes sub route e2e) (hcat : cat.Valid)
    (hevents : buildUdpEvents cat (.fromSignals cat.signals) = .ok events) (hwired : events.Wired)
    (hroute : route ∈ events.values) {log : List Update} {p : Publishing} {n : Nat} {tick : Tick}
    (hp : Publishing.Ok events p) (hsent : tick.Sent log p.pub n) (r : EventSubscription.Received) :
    sub.receive r tick.data = .ok
      (if p.pub.route.msg.name = route.msg.name then ⟨r.count + 1, some (quantize route.sigs tick.vals)⟩ else r) := by
  obtain ⟨e2e', enc, he, henc, hdata⟩ := hsent.data
  have hvalue := Dict.mem_values_of_get? hp.route
  rw [hdata]
  split_ifs with hname
  · have hsame := hp.route_eq hcat hevents hroute hname
    rw [hsame] at he henc ⊢
    cases he.symm.trans h.e2eEnabled_eq
    cases henc.symm.trans (encode_eq h.ok.sigs_valid tick.vals)
    exact h.receive_notification _ _ r
  · refine EventSubscription.receive_of_other r fun heq => hname ?_
    obtain ⟨hs, hs', he, he'⟩ := hwired _ hvalue
    have hids : p.pub.route.ids = route.ids := by
      rw [Prod.mk.injEq] at heq
      refine Prod.ext ?_ ?_
      · show p.pub.route.svcId = route.svcId
        rw [← h.subscribes.svcId, ← heq.1]
        exact (Int.emod_eq_of_lt hs hs').symm
      · show p.pub.route.eventId = route.eventId
        rw [← h.subscribes.eid, ← heq.2]
        exact (Int.emod_eq_of_lt he he').symm
    rw [List.inj_on_of_nodup_map (buildUdpEvents_ids_nodup hcat hevents) hvalue hroute hids]

theorem Takes.loop_sent (h : Takes sub route e2e) (hcat : cat.Valid)
    (hevents : buildUdpEvents cat (.fromSignals cat.signals) = .ok events) (hwired : events.Wired)
    (hroute : route ∈ events.values) {log : List Update} {deliveries : List (Publishing × Tick)}
    (hsent : ∀ d ∈ deliveries, Publishing.Ok events d.1 ∧ ∃ n, d.2.Sent log d.1.pub n) :
    sub.loop (deliveries.map fun d => d.2.data) = .ok ⟨(ownTicks route deliveries).length,
      (ownTicks route deliveries).getLast?.map fun tick => quantize route.sigs tick.vals⟩ := by
  induction deliveries using List.reverseRecOn with
  | nil => rfl
  | append_singleton deliveries d ih =>
    have hrun := ih fun d hd => hsent d (List.mem_append_left _ hd)
    obtain ⟨hp, n, hd⟩ := hsent d (List.mem_append_right _ (List.mem_singleton_self d))
    rw [EventSubscription.loop] at hrun ⊢
    rw [List.map_append, List.foldlM_append, hrun, Except.ok_bind, List.map_singleton, List.foldlM_cons,
      h.receive_sent hcat hevents hwired hroute hp hd, Except.ok_bind, ownTicks_concat]
    split_ifs
    · rw [List.length_append, List.getLast?_concat]
      rfl
    · rw [List.append_nil]
      rfl

/-- What a publisher of a run sends. -/
theorem Sends.tick_ok {P : ServerProgram σ} {init : ServerContext σ} (hnamed : UdpEvents.Named P.events)
    (hinit : init.Ok P.events) [DecidableEq ι] {threads : ι → ServerThread} (hnew : ∀ i, (threads i).New)
    {schedule : List ι} {w : World (ServerContext σ) Update ServerThread ι}
    (hw : w ∈ Run.states P.threads.step (Threads.start init threads) schedule) {p : Publishing} {tick : Tick}
    (h : Sends w p tick) : Publishing.Ok P.events p ∧ ∃ n, tick.Ok P init w.log p.pub n := by
  obtain ⟨i, t, ht, hp, hmem⟩ := h
  obtain ⟨n, hn⟩ := List.getElem?_of_mem hmem
  obtain ⟨p', hp', hok, htick⟩ := ticks_ok hnamed hinit hnew hw ht hn
  cases hp.symm.trans hp'
  exact ⟨hok, n, htick⟩

theorem Sends.sent {P : ServerProgram σ} {database : σ} (hcat : cat.Valid)
    (hevents : buildUdpEvents cat (.fromSignals cat.signals) = .ok P.events) [DecidableEq ι]
    {threads : ι → ServerThread} (hnew : ∀ i, (threads i).New) {schedule : List ι}
    {w : World (ServerContext σ) Update ServerThread ι}
    (hw : w ∈ Run.states P.threads.step (Threads.start (.init database) threads) schedule) {p : Publishing}
    {tick : Tick} (h : Sends w p tick) : Publishing.Ok P.events p ∧ ∃ n, tick.Sent w.log p.pub n := by
  obtain ⟨hp, n, htick⟩ := h.tick_ok (.of_build hcat hevents) (.init P.events database) hnew hw
  exact ⟨hp, n, htick.sent hp hcat hevents⟩

/-- The values that are shown are those of the tick after its encoding. -/
theorem Takes.decodes (h : Takes sub route e2e) (vals : Dict String ℚ) :
    ∃ enc, encode route.sigs vals = .ok enc ∧ decode route.sigs enc = .ok (quantize route.sigs vals) := by
  refine ⟨_, encode_eq h.ok.sigs_valid vals, ?_⟩
  simpa using decode_encodedBytes h.ok.sigs_valid vals []

theorem Takes.run_sent (h : Takes sub route e2e) (hcat : cat.Valid)
    (hevents : buildUdpEvents cat (.fromSignals cat.signals) = .ok events) (hwired : events.Wired)
    (hroute : route ∈ events.values) {log : List Update} {deliveries : List (Publishing × Tick)}
    (hsent : ∀ d ∈ deliveries, Publishing.Ok events d.1 ∧ ∃ n, d.2.Sent log d.1.pub n) : ∃ last,
    (sub.run (deliveries.map fun d => d.2.data) =
      sub.listen.map fun _ => ⟨(ownTicks route deliveries).length, last⟩) ∧
    (last = none ↔ ownTicks route deliveries = []) ∧
    ∀ tick ∈ (ownTicks route deliveries).getLast?, ∃ enc dec, encode route.sigs tick.vals = .ok enc ∧
      decode route.sigs enc = .ok dec ∧ last = some dec := by
  have hloop := h.loop_sent hcat hevents hwired hroute hsent
  refine ⟨_, EventSubscription.run_of_loop hloop, ?_, fun tick htick => ?_⟩
  · rw [Option.map_eq_none_iff, List.getLast?_eq_none_iff]
  · have htick : (ownTicks route deliveries).getLast? = some tick := htick
    obtain ⟨enc, henc, hdec⟩ := h.decodes tick.vals
    exact ⟨enc, _, henc, hdec, by rw [htick]; rfl⟩

end

/-- Of all datagrams that publishers of a run have sent, in whatever order and number they arrive, a subscriber
that can listen counts those of its event, and shows the values of the last of them. -/
theorem subscriber_counts_own {doc : Value} {cat : Catalog} {events : UdpEvents} (hload : loadCatalog doc = .ok cat)
    (hevents : buildUdpEvents cat (.fromSignals cat.signals) = .ok events) (hwired : events.Wired) {σ : Type}
    (server : Server σ) (routes : Routes) (sdPort : Int) (database : σ) {ι : Type} [DecidableEq ι]
    (threads : ι → ServerThread) (hnew : ∀ i, (threads i).New) (schedule : List ι) {route : EventRoute}
    (hroute : route ∈ events.values) {size : Nat} {e2e : Bool} (hsize : encodedSize route.sigs = .ok size)
    (he : e2eEnabled route.msg = .ok e2e) (hlen : 16 + size + (if e2e then 4 else 0) ≤ 2048) (ifaceIp : String) :
    let P : ServerProgram σ := ⟨server, routes, events, sdPort⟩
    ∃ sub, EventSubscription.create cat (.fromSignals cat.signals) route.msg ifaceIp = .ok sub ∧
      ∀ w ∈ Run.states P.threads.step (Threads.start (.init database) threads) schedule,
        ∀ deliveries, (∀ d ∈ deliveries, Sends w d.1 d.2) → ∃ last,
          (sub.run (deliveries.map fun d => d.2.data) =
            sub.listen.map fun _ => ⟨(ownTicks route deliveries).length, last⟩) ∧
          (last = none ↔ ownTicks route deliveries = []) ∧
          ∀ tick ∈ (ownTicks route deliveries).getLast?, ∃ enc dec, encode route.sigs tick.vals = .ok enc ∧
            decode route.sigs enc = .ok dec ∧ last = some dec := by
  intro P
  have hcat := Catalog.Valid.of_loadCatalog hload
  obtain ⟨sub, hcreate, htakes⟩ := exists_takes hcat hevents hwired hroute hsize he hlen ifaceIp
  refine ⟨sub, hcreate, fun w hw deliveries hdeliveries => ?_⟩
  have hsent : ∀ d ∈ deliveries, Publishing.Ok events d.1 ∧ ∃ n, d.2.Sent w.log d.1.pub n :=
    fun d hd => (hdeliveries d hd).sent (P := P) hcat hevents hnew hw
  exact htakes.run_sent hcat hevents hwired hroute hsent

/-- The event of the example catalog. -/
def exampleRoute : EventRoute := exampleEvents.values.get ⟨0, by decide +kernel⟩

theorem exampleRoute_mem : exampleRoute ∈ exampleEvents.values := List.get_mem ..

theorem exampleEvents_wired : exampleEvents.Wired := by
  unfold UdpEvents.Wired
  decide +kernel

theorem listen_exampleRoute {sub : EventSubscription}
    (h : EventSubscription.create exampleCatalog (.fromSignals exampleCatalog.signals) exampleRoute.msg "0.0.0.0" =
      .ok sub) : sub.listen = .ok () := by
  obtain ⟨hport, hmode⟩ := EventSubscription.create_ok h
  have hport' : portOf exampleRoute.msg.udp = .ok 30512 := by decide +kernel
  have hmode' : modeOf exampleRoute.msg.udp = .ok "unicast" := by decide +kernel
  refine EventSubscription.listen_unicast ?_ ?_
  · rw [← Except.ok.inj (hmode'.symm.trans hmode)]
    decide
  · rw [← Except.ok.inj (hport'.symm.trans hport)]
    decide

theorem exists_sends_exampleWorld : ∃ p tick, Sends exampleWorld p tick ∧ p.pub.route.msg.name = exampleRoute.msg.name := by
  obtain ⟨t, tick, ht, hnumber, htick⟩ := exists_tick_exampleWorld
  have hname : exampleWorld.store.threads[0]?.map (fun p => p.pub.route.msg.name) = some exampleRoute.msg.name := by
    decide +kernel
  obtain ⟨p, hp, hname⟩ := Option.map_eq_some_iff.1 hname
  exact ⟨p, tick, ⟨3, t, ht, by rw [hnumber, hp], by rw [htick]; exact List.mem_singleton_self _⟩, hname⟩

/-- The datagram of a tick comes twice. -/
theorem subscriber_counts_own_example : ∃ (tick : Tick) (sub : EventSubscription) (last : Option (Dict String ℚ)),
    sub.run [tick.data, tick.data] = .ok ⟨2, last⟩ ∧
      EventSubscription.create exampleCatalog (.fromSignals exampleCatalog.signals) exampleRoute.msg "0.0.0.0" =
        .ok sub := by
  obtain ⟨sub, hcreate, hrun⟩ := subscriber_counts_own loadCatalog_example buildUdpEvents_example exampleEvents_wired
    dbServer exampleRoutes 30490 (.ofSignals exampleCatalog.signals) exampleServerThreads exampleServerThreads_new
    _ exampleRoute_mem (Except.eq_ok_get (by decide +kernel)) (Except.eq_ok_get (by decide +kernel)) (by decide +kernel)
    "0.0.0.0"
  obtain ⟨p, tick, hsends, hname⟩ := exists_sends_exampleWorld
  obtain ⟨last, hlast, -⟩ := hrun exampleWorld exampleWorld_mem [(p, tick), (p, tick)] fun d hd => by
    rcases List.mem_pair.1 hd with rfl | rfl
    · exact hsends
    · exact hsends
  refine ⟨tick, sub, last, ?_, hcreate⟩
  rw [listen_exampleRoute hcreate] at hlast
  simpa [ownTicks, hname, Except.map] using hlast

/-! ### From requests to values -/

/-- The two servers, each with the values that it starts with. -/
inductive Server.Starts (signals : List SignalDef) : {σ : Type} → Server σ → σ → Prop where
  | node : Starts signals nodeServer (initState signals)
  | db : Starts signals dbServer (.ofSignals signals)

section
variable {signals sigs : List SignalDef} {routes : Routes} {jobs : List Job} {s : SignalDef}

theorem get?_stateAfter_signal (hnames : (signals.map (·.name)).Nodup) (jobs : List Job) (hs : s ∈ signals) :
    (stateAfter signals jobs).get? s.name = some ((lastWrite jobs s.name).getD s.default) := by
  have hinit : (initState signals).get? s.name = some s.default := by
    unfold initState
    refine Dict.get?_ofList_map hs fun t ht hname => ?_
    rw [List.inj_on_of_nodup_map hnames ht hs hname]
  rw [get?_stateAfter, hinit]
  cases lastWrite jobs s.name with
  | none => rfl
  | some v => rfl

/-- What a snapshot shows for a signal: the value that was written last, or the default. -/
theorem Server.Starts.get?_snapshot {σ : Type} {server : Server σ} {database : σ}
    (h : server.Starts signals database) (hof : RoutesOf signals routes) (hjobs : ∀ job ∈ jobs, job.Decodes routes)
    (hnames : (signals.map (·.name)).Nodup) (hsigs : ∀ s ∈ sigs, s ∈ signals) (hs : s ∈ sigs) :
    (server.snapshot (jobs.foldl (fun database job => server.write database job.values) database) sigs).get? s.name =
      some ((lastWrite jobs s.name).getD s.default) := by
  cases h with
  | node =>
    have hget : (stateSnapshot (stateAfter signals jobs) sigs).get? s.name =
        some ((stateAfter signals jobs).getD s.name s.default) := by
      unfold stateSnapshot
      refine Dict.get?_ofList_map hs fun t ht hname => ?_
      rw [List.inj_on_of_nodup_map hnames (hsigs t ht) (hsigs s hs) hname]
    show (stateSnapshot (stateAfter signals jobs) sigs).get? s.name = _
    rw [hget, Dict.getD, get?_stateAfter_signal hnames jobs (hsigs s hs)]
    rfl
  | db =>
    have hreplay : jobs.foldl (fun database job => dbServer.write database job.values) (.ofSignals signals) =
        ⟨stateAfter signals jobs⟩ := (replay_dbServer hof hjobs).1
    rw [hreplay]
    show (SignalDatabase.getSubset ⟨stateAfter signals jobs⟩ _).get? s.name = _
    rw [SignalDatabase.get?_getSubset _ (List.mem_map_of_mem hs), Dict.getD,
      get?_stateAfter_signal hnames jobs (hsigs s hs)]
    rfl

theorem fits_of_mem_readings {payload : Bytes} {off : Nat} {name : String} {v : ℚ}
    (hlen : off + sizeOf sigs ≤ payload.length) (h : (name, v) ∈ readings payload sigs off) :
    ∃ s ∈ sigs, s.name = name ∧ ∃ x, s.row.1.Fits x ∧ v = s.phys x := by
  induction sigs generalizing off with
  | nil => cases h
  | cons s sigs ih =>
    have hsize : sizeOf (s :: sigs) = s.size + sizeOf sigs := List.sum_cons
    rcases List.mem_cons.1 h with h | h
    · cases h
      refine ⟨s, List.mem_cons_self .., rfl, _, Code.fits_unpack ?_, rfl⟩
      rw [List.length_take, List.length_drop]
      show min s.size _ = s.size
      omega
    · obtain ⟨t, ht, hv⟩ := ih (by omega) h
      exact ⟨t, List.mem_cons_of_mem _ ht, hv⟩

theorem fits_of_decode (hvalid : ∀ s ∈ sigs, s.Valid) {core : Bytes} {values : Dict String ℚ}
    (hdec : decode sigs core = .ok values) {name : String} {v : ℚ} (h : values.get? name = some v) :
    ∃ s ∈ sigs, s.name = name ∧ ∃ x, s.row.1.Fits x ∧ v = s.phys x := by
  rw [decode_eq hvalid] at hdec
  split_ifs at hdec with hlen
  cases hdec
  exact fits_of_mem_readings (by omega) (Dict.mem_of_get?_ofList h)

theorem fits_of_lastWrite (hof : RoutesOf signals routes) (hjobs : ∀ job ∈ jobs, job.Decodes routes)
    (hnames : (signals.map (·.name)).Nodup) (hs : s ∈ signals) {v : ℚ} (h : lastWrite jobs s.name = some v) :
    ∃ x, s.row.1.Fits x ∧ v = s.phys x := by
  induction jobs using List.reverseRecOn with
  | nil => cases h
  | append_singleton jobs job ih =>
    rw [lastWrite_concat] at h
    cases hget : job.values.get? s.name with
    | none =>
      rw [hget, Option.none_or] at h
      exact ih (fun j hj => hjobs j (List.mem_append_left _ hj)) h
    | some v' =>
      rw [hget, Option.some_or] at h
      cases h
      obtain ⟨core, hr, hdec⟩ := hjobs job (List.mem_append_right _ (List.mem_singleton_self job))
      obtain ⟨t, ht, hname, hfits⟩ := fits_of_decode (hof.sigs_valid hr.get?_eq) hdec hget
      have hmem := hof.mem_signals hr.get?_eq t ht
      rwa [List.inj_on_of_nodup_map hnames hmem hs hname] at hfits

end

/-- What a subscriber shows for a signal after these requests: the value that was written last, or the default
as the signal can represent it. -/
def shownValue (jobs : List Job) (s : SignalDef) : ℚ :=
  (lastWrite jobs s.name).getD (s.phys (s.rawOf s.default))

theorem get?_quantize_shownValue {signals sigs : List SignalDef} {routes : Routes} {jobs : List Job} {s : SignalDef}
    (hof : RoutesOf signals routes) (hjobs : ∀ job ∈ jobs, job.Decodes routes)
    (hnames : (signals.map (·.name)).Nodup) (hone : OneEach sigs) (hs : s ∈ sigs) (hmem : s ∈ signals)
    (hvalid : s.Valid) {vals : Dict String ℚ}
    (hvals : vals.get? s.name = some ((lastWrite jobs s.name).getD s.default)) :
    (quantize sigs vals).get? s.name = some (shownValue jobs s) := by
  rw [get?_quantize hone hs, shownValue]
  cases hlast : lastWrite jobs s.name with
  | none =>
    rw [hlast] at hvals
    rw [SignalDef.raw, Dict.getD, hvals]
    rfl
  | some v =>
    obtain ⟨x, hx, rfl⟩ := fits_of_lastWrite hof hjobs hnames hmem hlast
    rw [hlast] at hvals
    rw [hvalid.raw_of_phys hx hvals]
    rfl

theorem decodes_of_mem_jobsOf {σ : Type} {P : ServerProgram σ} {init : ServerContext σ} {ι : Type} [DecidableEq ι]
    {threads : ι → ServerThread} (hnew : ∀ i, (threads i).New) {schedule : List ι}
    {w : World (ServerContext σ) Update ServerThread ι}
    (hw : w ∈ Run.states P.threads.step (Threads.start init threads) schedule) :
    ∀ job ∈ jobsOf w.log, job.Decodes P.routes := by
  intro job hjob
  obtain ⟨u, hu, hjob⟩ := List.mem_filterMap.1 hjob
  have hok : u.Ok P.routes := Threads.log_states (ServerThread.ok_inductive P init)
    (fun _ _ _ hth hact => ServerThread.update_ok hth hact) (fun i => (hnew i).ok P init) schedule w hw u hu
  cases u with
  | wrote job' =>
    cases hjob
    exact hok
  | _ => cases hjob

section
variable {doc : Value} {cat : Catalog} {routes : Routes} {events : UdpEvents} {route : EventRoute}
  {sub : EventSubscription} {e2e : Bool} {σ : Type} {server : Server σ} {database : σ} {sdPort : Int}
  {ι : Type} [DecidableEq ι] {threads : ι → ServerThread} {schedule : List ι}

theorem Takes.shows_last (htakes : Takes sub route e2e) (hcat : cat.Valid)
    (hroutes : buildTcpRoutes cat (.fromSignals cat.signals) = .ok routes)
    (hevents : buildUdpEvents cat (.fromSignals cat.signals) = .ok events) (hwired : events.Wired)
    (hserver : server.Starts cat.signals database) (hnew : ∀ i, (threads i).New) (hroute : route ∈ events.values)
    {w : World (ServerContext σ) Update ServerThread ι}
    (hw : w ∈ Run.states (⟨server, routes, events, sdPort⟩ : ServerProgram σ).threads.step
      (Threads.start (.init database) threads) schedule)
    {deliveries : List (Publishing × Tick)} (hdeliveries : ∀ d ∈ deliveries, Sends w d.1 d.2) {tick : Tick}
    (hlast : (ownTicks route deliveries).getLast? = some tick) :
    ∃ vals, (sub.run (deliveries.map fun d => d.2.data) =
        sub.listen.map fun _ => ⟨(ownTicks route deliveries).length, some vals⟩) ∧
      ∀ s ∈ route.sigs, vals.get? s.name = some (shownValue (jobsOf (w.log.take tick.sampled)) s) := by
  let P : ServerProgram σ := ⟨server, routes, events, sdPort⟩
  have hof := RoutesOf.of_buildTcpRoutes hcat hroutes
  have hsent : ∀ d ∈ deliveries, Publishing.Ok events d.1 ∧ ∃ n, d.2.Sent w.log d.1.pub n :=
    fun d hd => (hdeliveries d hd).sent (P := P) hcat hevents hnew hw
  refine ⟨quantize route.sigs tick.vals, ?_, fun s hs => ?_⟩
  · rw [EventSubscription.run_of_loop (htakes.loop_sent hcat hevents hwired hroute hsent), hlast]
    rfl
  -- the tick is one of a publisher of this event, with its snapshot
  obtain ⟨d, hd, rfl⟩ := List.mem_map.1 (List.mem_of_getLast? hlast)
  obtain ⟨hd, hname⟩ := List.mem_filter.1 hd
  obtain ⟨hp, n, htick⟩ :=
    (hdeliveries d hd).tick_ok (P := P) (.of_build hcat hevents) (.init events database) hnew hw
  have hsame := hp.route_eq hcat hevents hroute (of_decide_eq_true hname)
  have hjobs : ∀ job ∈ jobsOf (w.log.take d.2.sampled), job.Decodes routes := by
    intro job hjob
    exact decodes_of_mem_jobsOf (P := P) hnew hw job (((List.take_sublist _ _).filterMap _).subset hjob)
  have hsigs : ∀ s ∈ route.sigs, s ∈ cat.signals := fun s hs => by
    obtain ⟨-, -, hevent⟩ := isUdpEvent_of_mem hcat hevents hroute
    exact SignalIndex.subset_mem hevent.sigs hs
  have hvals := htick.samples.vals_eq
  rw [hsame, Threads.storeAt, replay_database] at hvals
  refine get?_quantize_shownValue hof hjobs hcat.signal_names htakes.ok.oneEach hs (hsigs s hs)
    (htakes.ok.sigs_valid s hs) ?_
  rw [hvals]
  exact hserver.get?_snapshot hof hjobs hcat.signal_names hsigs hs

end

/-- The writes of a run are accepted requests, and the last datagram of its event at a subscriber shows what they
wrote last to each signal before its snapshot. -/
theorem subscriber_shows_last_write {doc : Value} {cat : Catalog} {routes : Routes} {events : UdpEvents}
    (hload : loadCatalog doc = .ok cat) (hroutes : buildTcpRoutes cat (.fromSignals cat.signals) = .ok routes)
    (hevents : buildUdpEvents cat (.fromSignals cat.signals) = .ok events) (hwired : events.Wired) {σ : Type}
    {server : Server σ} {database : σ} (hserver : server.Starts cat.signals database) (sdPort : Int)
    {ι : Type} [DecidableEq ι] (threads : ι → ServerThread) (hnew : ∀ i, (threads i).New) (schedule : List ι)
    {route : EventRoute} (hroute : route ∈ events.values) {size : Nat} {e2e : Bool}
    (hsize : encodedSize route.sigs = .ok size) (he : e2eEnabled route.msg = .ok e2e)
    (hlen : 16 + size + (if e2e then 4 else 0) ≤ 2048) (ifaceIp : String) :
    let P : ServerProgram σ := ⟨server, routes, events, sdPort⟩
    ∃ sub, EventSubscription.create cat (.fromSignals cat.signals) route.msg ifaceIp = .ok sub ∧
      ∀ w ∈ Run.states P.threads.step (Threads.start (.init database) threads) schedule,
        (∀ job ∈ jobsOf w.log, ∃ core, Accepts routes job.hdr job.pl job.route core ∧
          decode job.route.sigs core = .ok job.values) ∧
        ∀ deliveries, (∀ d ∈ deliveries, Sends w d.1 d.2) → ∀ tick ∈ (ownTicks route deliveries).getLast?,
          ∃ vals, (sub.run (deliveries.map fun d => d.2.data) =
              sub.listen.map fun _ => ⟨(ownTicks route deliveries).length, some vals⟩) ∧
            ∀ s ∈ route.sigs, vals.get? s.name = some (shownValue (jobsOf (w.log.take tick.sampled)) s) := by
  intro P
  have hcat := Catalog.Valid.of_loadCatalog hload
  have hof := RoutesOf.of_buildTcpRoutes hcat hroutes
  obtain ⟨sub, hcreate, htakes⟩ := exists_takes hcat hevents hwired hroute hsize he hlen ifaceIp
  refine ⟨sub, hcreate, fun w hw => ⟨fun job hjob => ?_, fun deliveries hdeliveries tick htick => ?_⟩⟩
  · exact hof.toRoutesOk.accepts_of_decodes (decodes_of_mem_jobsOf (P := P) hnew hw job hjob)
  · exact htakes.shows_last hcat hroutes hevents hwired hserver hnew hroute hw hdeliveries htick

/-- The subscriber shows the gear that was set before the tick. -/
theorem subscriber_shows_last_write_example : ∃ (tick : Tick) (sub : EventSubscription) (vals : Dict String ℚ),
    sub.run [tick.data] = .ok ⟨1, some vals⟩ ∧
    EventSubscription.create exampleCatalog (.fromSignals exampleCatalog.signals) exampleRoute.msg "0.0.0.0" =
      .ok sub ∧
    ∀ s ∈ exampleRoute.sigs, vals.get? s.name = some (shownValue (jobsOf (exampleWorld.log.take tick.sampled)) s) := by
  obtain ⟨sub, hcreate, hrun⟩ := subscriber_shows_last_write loadCatalog_example buildTcpRoutes_example
    buildUdpEvents_example exampleEvents_wired .db 30490 exampleServerThreads exampleServerThreads_new
    _ exampleRoute_mem (Except.eq_ok_get (by decide +kernel)) (Except.eq_ok_get (by decide +kernel)) (by decide +kernel)
    "0.0.0.0"
  obtain ⟨p, tick, hsends, hname⟩ := exists_sends_exampleWorld
  have hdeliveries : ∀ d ∈ [(p, tick)], Sends exampleWorld d.1 d.2 := fun d hd => by
    rw [List.mem_singleton.1 hd]
    exact hsends
  have hown : ownTicks exampleRoute [(p, tick)] = [tick] := by simp [ownTicks, hname]
  obtain ⟨vals, hvals, hshows⟩ := (hrun exampleWorld exampleWorld_mem).2 _ hdeliveries tick (by rw [hown]; rfl)
  rw [hown, listen_exampleRoute hcreate] at hvals
  exact ⟨tick, sub, vals, hvals, hcreate, hshows⟩

end AutoEth
