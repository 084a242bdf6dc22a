import AutoEth.Subscribers
import AutoEth.SubscriptionRuns

/-!
# A client that has subscribed

From the toggle of a client to the values that it shows. The request that the client sends reaches the listener
of a server as one entry; when this was handled, an ack has been sent that the client accepts, and from then
on every tick of the event that looks for its destinations goes to the endpoint that the request names, until
another entry for it is handled (`subscription_served`). The socket that counts the ticks opens when the client
has its ack or has waited in vain, so that the first of them may be lost.
-/

namespace AutoEth

/-! ### The request at the listener -/

theorem SubscribeCall.isFor_of_received {c : SubscribeCall} {data : Bytes} (h : c.request = .ok data)
    (hport : c.wireEndpoint.2 ≠ 0) {addr : Endpoint} {e : SdEntry × Endpoint}
    (he : e ∈ SdListener.received ⟨data, addr⟩) : ∃ entry, e = (.eventgroup entry, addr) ∧ entry.ttl = ttlDefault ∧
      entry.IsFor c.wireKey.1 c.wireKey.2 c.wireEndpoint := by
  obtain ⟨entry, hentries, hkey, httl, hsub⟩ := sdEntries_request h
  rw [SdListener.received, hentries, List.map_singleton, List.mem_singleton] at he
  refine ⟨entry, he, httl, hkey, ?_, hport⟩
  cases hep : entry.endpoint? with
  | none =>
    have hzero : (entry.subscriber addr).2 = 0 := EventgroupEntry.subscriber_of_no_endpoint hep
    rw [hsub] at hzero
    exact absurd hzero hport
  | some ep => rw [← hsub addr, EventgroupEntry.subscriber_of_endpoint? hep]

theorem SdListener.mem_sent_handleSubscribes {l : SdListener} {s : SdListener.State} {p : Packet} (h : p ∈ s.sent)
    (es : List (EventgroupEntry × Endpoint)) : p ∈ (l.handleSubscribes s es).sent := by
  induction es generalizing s with
  | nil => exact h
  | cons e es ih =>
    refine ih ?_
    rw [sent_handleSubscribe]
    exact List.mem_append_left _ h

theorem SdListener.exists_ack_handleSubscribes {l : SdListener} {s : SdListener.State} {entry : EventgroupEntry}
    {addr : Endpoint} (hserves : l.Serves entry.key) (hstart : entry.ttl ≠ ttlStop)
    (es es' : List (EventgroupEntry × Endpoint)) :
    ∃ seq, ⟨(addr.1, l.sdPort), ackMessage seq entry⟩ ∈ (l.handleSubscribes s (es ++ (entry, addr) :: es')).sent := by
  refine ⟨((l.handleSubscribes s es).seq + 1) % 2 ^ 16, ?_⟩
  have hsplit : l.handleSubscribes s (es ++ (entry, addr) :: es') =
      l.handleSubscribes (l.handleSubscribe (l.handleSubscribes s es) entry addr) es' := by
    rw [handleSubscribes, List.foldl_append, List.foldl_cons]
    rfl
  rw [hsplit]
  refine mem_sent_handleSubscribes ?_ es'
  rw [sent_handleSubscribe, if_pos ⟨hserves, hstart⟩]
  exact List.mem_append_right _ (List.mem_singleton_self _)

theorem ClientContext.ctx_toggleSub {c ctx : ClientContext} {e : MessageDef} {sub : EventSubscription}
    {sent : List Packet} (hoff : c.isSubscribed e.name = false)
    (hcreate : EventSubscription.create c.cat c.sigIndex e c.ifaceIp = .ok sub) (h : c.toggleSub e = ⟨ctx, sent, .ok true⟩) :
    ctx = { c with subs := c.subs.set e.name sub } := by
  rw [toggleSub, hoff, if_neg (by decide)] at h
  cases hstart : c.startSubscribe e with
  | error err =>
    rw [hstart] at h
    cases h
  | ok pkts =>
    rw [hstart, hcreate] at h
    cases h
    rfl

section
variable {cat : Catalog} {events : UdpEvents} {route : EventRoute} {port : Int}

theorem ClientContext.wireEndpoint_subscribeCall {c : ClientContext} (hport : FitsBits 16 port) (svcId egid : Int) :
    (c.subscribeCall svcId egid port).wireEndpoint = c.namedEndpoint port := by
  show (canonicalIp c.clientIp, port % 2 ^ 16) = (canonicalIp c.clientIp, port)
  rw [hport.emod_eq]

variable {σ : Type} {P : ServerProgram σ} {log before after : List Update} {addr ep : Endpoint}
  {entry : EventgroupEntry}

/-- A tick that has looked after the entry for an endpoint goes to it, while no other entry for it comes. -/
theorem Tick.Sent.mem_dests {pub : UdpPublisher} {n : Nat} {tick : Tick} (h : tick.Sent log pub n)
    (hmode : pub.mode ≠ "multicast") (hlog : log = before ++ .heard (.eventgroup entry, addr) :: after)
    (hfor : entry.IsFor pub.route.svcId pub.route.eventgroupId ep) (hstart : entry.ttl ≠ ttlStop)
    (hafter : ∀ e ∈ entriesOf after, ¬ e.1.IsFor pub.route.svcId pub.route.eventgroupId ep)
    (hlt : before.length < tick.looked) : ep ∈ tick.dests := by
  rw [h.unicast hmode, hlog]
  exact (registered_take hfor hafter hlt).2 hstart

/-- In a run, the ack for an entry that the listener has heard. -/
theorem ServerProgram.exists_ack {database : σ} {ι : Type} [DecidableEq ι] {threads : ι → ServerThread}
    (hnew : ∀ i, (threads i).New) {schedule : List ι} {w : World (ServerContext σ) Update ServerThread ι}
    (hw : w ∈ Run.states P.threads.step (Threads.start (.init database) threads) schedule)
    (hlog : w.log = before ++ .heard (.eventgroup entry, addr) :: after) (hserves : P.listener.Serves entry.key)
    (hstart : entry.ttl ≠ ttlStop) :
    ∃ seq, ⟨(addr.1, P.listener.sdPort), ackMessage seq entry⟩ ∈ w.store.listener.sent := by
  have hholds := Threads.holds_states (ServerThread.ok_inductive P (.init database)) (fun i => (hnew i).ok P _)
    schedule w hw
  have hentries : entriesOf w.log = entriesOf before ++ (entry, addr) :: entriesOf after := by
    rw [hlog, entriesOf_append]
    rfl
  have hlistener : w.store.listener = P.listener.handleSubscribes .init (entriesOf w.log) := by
    rw [hholds.store_eq, replay_listener]
    rfl
  rw [hlistener, hentries]
  exact SdListener.exists_ack_handleSubscribes hserves hstart _ _

/-- Once a server has handled the request of a client that toggles an event on, and while no other entry for
the endpoint of the request comes, the ack that the client waits for is on its way, and every tick of the event
that looks for its destinations goes to the endpoint; the subscription of the client counts all ticks of the
event that reach it. -/
theorem subscription_served {doc : Value} (hload : loadCatalog doc = .ok cat)
    (hevents : buildUdpEvents cat (.fromSignals cat.signals) = .ok events) (hwired : events.Wired)
    (hroute : route ∈ events.values)
    (hunicast : UnicastEvent cat route.msg route.svcId route.eventgroupId port)
    (hegid : FitsBits 16 route.eventgroupId) (hport : FitsBits 16 port) {size : Nat} {e2e : Bool}
    (hsize : encodedSize route.sigs = .ok size) (he : e2eEnabled route.msg = .ok e2e)
    (hlen : 16 + size + (if e2e then 4 else 0) ≤ 2048) {c : ClientContext} (hc : c.cat = cat)
    (hsig : c.sigIndex = .fromSignals cat.signals) (hcan : c.CanSubscribe)
    (hoff : c.isSubscribed route.msg.name = false) (server : Server σ) (routes : Routes) (sdPort : Int)
    (database : σ) {ι : Type} [DecidableEq ι] (threads : ι → ServerThread) (hnew : ∀ i, (threads i).New)
    (schedule : List ι) :
    let P : ServerProgram σ := ⟨server, routes, events, sdPort⟩
    ∃ sub pkt, c.toggleSub route.msg = ⟨{ c with subs := c.subs.set route.msg.name sub }, [pkt], .ok true⟩ ∧
      ∀ w ∈ Run.states P.threads.step (Threads.start (.init database) threads) schedule,
        ∀ before e addr after, w.log = before ++ .heard e :: after → e ∈ SdListener.received ⟨pkt.data, addr⟩ →
          (∀ e ∈ entriesOf after, ¬ e.1.IsFor route.svcId route.eventgroupId (c.namedEndpoint port)) →
          (∃ ack ∈ w.store.listener.sent, ack.dst = (addr.1, sdPort) ∧
            (c.subscribeCall route.svcId route.eventgroupId port).acceptsAck ack.data = true) ∧
          (∀ p tick, Sends w p tick → p.pub.route.msg.name = route.msg.name → before.length < tick.looked →
            c.namedEndpoint port ∈ tick.dests) ∧
          ∀ deliveries, (∀ d ∈ deliveries, Sends w d.1 d.2) → ∃ last,
            sub.run (deliveries.map fun d => d.2.data) = .ok ⟨(ownTicks route deliveries).length, last⟩ ∧
            ∀ tick ∈ (ownTicks route deliveries).getLast?, ∃ enc dec, encode route.sigs tick.vals = .ok enc ∧
              decode route.sigs enc = .ok dec ∧ last = some dec := by
  intro P
  have hcat := Catalog.Valid.of_loadCatalog hload
  obtain ⟨hs, hs', -, -⟩ := hwired route hroute
  have hsvc : FitsBits 16 route.svcId := ⟨hs, hs'⟩
  obtain ⟨mode, svcId, egid, port', hreads, hpos, hserves⟩ :=
    exists_readsEvent hcat hevents hunicast.mem hunicast.kind sdPort
  have hmode := hunicast.mode_ne hreads
  obtain ⟨rfl, rfl, rfl⟩ := hunicast.unique ⟨hunicast.mem, hunicast.kind, ⟨mode, hreads.mode, hmode⟩, hreads.svcId,
    hreads.egid, hreads.port⟩
  obtain ⟨_, data, hdata, htoggle⟩ := ClientContext.toggleSub_unicast hc hsig hreads hmode hoff hcan
  obtain ⟨sub, hcreate, htakes⟩ := exists_takes hcat hevents hwired hroute hsize he hlen c.ifaceIp
  rw [ClientContext.ctx_toggleSub hoff (by rw [hc, hsig]; exact hcreate) htoggle] at htoggle
  refine ⟨sub, _, htoggle, fun w hw before e addr after hlog hreceived hafter => ?_⟩
  have hendpoint := ClientContext.wireEndpoint_subscribeCall (c := c) hport route.svcId route.eventgroupId
  have hkey : (c.subscribeCall route.svcId route.eventgroupId port).wireKey = (route.svcId, route.eventgroupId) :=
    SubscribeCall.wireKey_eq_key hsvc hegid
  obtain ⟨entry, rfl, httl, hfor⟩ :=
    SubscribeCall.isFor_of_received hdata (by rw [hendpoint]; exact hpos.ne') hreceived
  have hstart : entry.ttl ≠ ttlStop := by
    rw [httl]
    decide
  rw [hkey, hendpoint] at hfor
  refine ⟨?_, fun p tick hsends hname hlt => ?_, fun deliveries hdeliveries => ?_⟩
  · obtain ⟨seq, hack⟩ := ServerProgram.exists_ack (P := P) hnew hw hlog (hfor.1 ▸ hserves) hstart
    refine ⟨_, hack, rfl, SubscribeCall.acceptsAck_ackMessage.2 ?_⟩
    have hmod := SubscribeCall.emod_key (hfor.1.trans hkey.symm)
    rw [hmod, hkey]
    rfl
  · obtain ⟨hok, n, hsent⟩ := hsends.sent (P := P) hcat hevents hnew hw
    have hroute' := hok.route_eq hcat hevents hroute hname
    have hread := (UdpPublisher.create_ok hok.create).2
    rw [hroute', hreads.mode] at hread
    exact hsent.mem_dests (Except.ok.inj hread ▸ hmode) hlog (hroute'.symm ▸ hfor) hstart (hroute'.symm ▸ hafter) hlt
  · have hsent : ∀ d ∈ deliveries, Publishing.Ok events d.1 ∧ ∃ n, d.2.Sent w.log d.1.pub n :=
      fun d hd => (hdeliveries d hd).sent (P := P) hcat hevents hnew hw
    -- the event is not a multicast one, so that its socket is only bound
    obtain ⟨hsubPort, hsubMode⟩ := EventSubscription.create_ok hcreate
    cases hsubPort.symm.trans hreads.port
    cases hsubMode.symm.trans hreads.mode
    obtain ⟨last, hrun, -, hlast⟩ := htakes.run_sent hcat hevents hwired hroute hsent
    rw [EventSubscription.listen_unicast hmode hport] at hrun
    exact ⟨last, hrun, hlast⟩

end

/-- The client of the example subscribes before the tick looks. -/
theorem subscription_served_example : ∃ (sub : EventSubscription) (tick : Tick) (last : Option (Dict String ℚ)),
    ((Sys.exampleSys.clients ()).toggleSub exampleRoute.msg).ctx.subs.get? exampleRoute.msg.name = some sub ∧
      ("127.0.0.1", 30512) ∈ tick.dests ∧ sub.run [tick.data] = .ok ⟨1, last⟩ ∧
      ∃ t, exampleWorld.threads 3 = .publisher t ∧ t.ticks = [tick] := by
  have hendpoint : (Sys.exampleSys.clients ()).namedEndpoint 30512 = ("127.0.0.1", 30512) := by decide +kernel
  have hids : (exampleRoute.svcId, exampleRoute.eventgroupId) = (0x1002, 1) := by decide +kernel
  obtain ⟨hsvc, hegid⟩ := Prod.mk.inj hids
  obtain ⟨hmem, hkind, hevent⟩ :=
    isUdpEvent_of_mem (.of_loadCatalog loadCatalog_example) buildUdpEvents_example exampleRoute_mem
  have hunicast : UnicastEvent exampleCatalog exampleRoute.msg exampleRoute.svcId exampleRoute.eventgroupId 30512 :=
    ⟨hmem, hkind, ⟨"unicast", by decide +kernel, by decide⟩, ⟨_, _, hevent.resolve⟩, hevent.eventgroup,
      by decide +kernel⟩
  obtain ⟨sub, pkt, htoggle, hserved⟩ := subscription_served loadCatalog_example buildUdpEvents_example
    exampleEvents_wired exampleRoute_mem hunicast (by rw [hegid]; decide) (by decide)
    (Except.eq_ok_get (by decide +kernel)) (Except.eq_ok_get (by decide +kernel)) (by decide +kernel)
    (c := Sys.exampleSys.clients ()) rfl rfl Sys.exampleSys_canSubscribe (by decide +kernel) dbServer exampleRoutes 30490
    (.ofSignals exampleCatalog.signals) exampleServerThreads exampleServerThreads_new _
  have hdata : ((Sys.exampleSys.clients ()).toggleSub exampleRoute.msg).sent.map Packet.data =
      [exampleDatagram.data] := by decide +kernel
  rw [htoggle] at hdata
  have hpkt : pkt.data = exampleDatagram.data := (List.cons.inj hdata).1
  obtain ⟨e, hlog, hreceived, -⟩ := exampleWorld_heard
  obtain ⟨t, tick, ht, hnumber, htick⟩ := exists_tick_exampleWorld
  have hname : exampleWorld.store.threads[0]?.map (fun p => p.pub.route.msg.name) = some exampleRoute.msg.name := by
    decide +kernel
  obtain ⟨p, hp, hname⟩ := Option.map_eq_some_iff.1 hname
  have hsends : Sends exampleWorld p tick :=
    ⟨3, t, ht, by rw [hnumber, hp], by rw [htick]; exact List.mem_singleton_self _⟩
  have hdeliveries : ∀ d ∈ [(p, tick)], Sends exampleWorld d.1 d.2 := fun d hd => by
    rw [List.mem_singleton.1 hd]
    exact hsends
  obtain ⟨-, hdests, hcounts⟩ := hserved exampleWorld exampleWorld_mem _ e ("127.0.0.1", 40000) _ hlog
    (by rw [hpkt]; exact hreceived) (by rw [hsvc, hegid, hendpoint]; exact exampleWorld_after)
  obtain ⟨last, hrun, -⟩ := hcounts _ hdeliveries
  have hown : ownTicks exampleRoute [(p, tick)] = [tick] := by simp [ownTicks, hname]
  rw [hown] at hrun
  refine ⟨sub, tick, last, ?_, hendpoint ▸ hdests p tick hsends hname (looked_exampleWorld ht htick), hrun, t, ht, htick⟩
  rw [htoggle]
  exact Dict.get?_set_self ..

end AutoEth
