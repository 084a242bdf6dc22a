import AutoEth.ServerRuns
import AutoEth.RegistryHistory
import AutoEth.EventStream

/-!
# What publishers send, and to whom

A tick of a publisher takes its snapshot at one point of the log and asks for the destinations at a later one.
`Tick.Sent` says what it sends in terms of the log up to these points: the datagram is the notification of
the snapshot with the number of the tick, and a unicast event goes to the endpoints whose last entry before the
look is not a stop. `ticks_sent` has it of every tick in every run, and `registration_takes_effect` what follows
for an endpoint once its registration was handled.
-/

namespace AutoEth

variable {σ : Type} {P : ServerProgram σ} {init : ServerContext σ} {log : List Update}

/-! ### The log -/

def Update.job? : Update → Option Job
  | .wrote job => some job
  | _ => none

def Update.entry? : Update → Option (EventgroupEntry × Endpoint)
  | .heard (.eventgroup entry, addr) => some (entry, addr)
  | _ => none

theorem Update.eq_of_entry? {u : Update} {entry : EventgroupEntry} {addr : Endpoint}
    (h : u.entry? = some (entry, addr)) : u = .heard (.eventgroup entry, addr) := by
  cases u with
  | heard e =>
    obtain ⟨e, addr'⟩ := e
    cases e with
    | eventgroup entry' =>
      cases h
      rfl
    | service e => cases h
  | _ => cases h

/-- The requests that were written. -/
def jobsOf (log : List Update) : List Job := log.filterMap Update.job?

/-- The eventgroup entries that the listener has handled. -/
def entriesOf (log : List Update) : List (EventgroupEntry × Endpoint) := log.filterMap Update.entry?

theorem apply_database (P : ServerProgram σ) (c : ServerContext σ) (u : Update) :
    (P.apply c u).database =
      u.job?.toList.foldl (fun database job => P.server.write database job.values) c.database := by
  cases u with
  | toggled name =>
    obtain ⟨threads, publishers, happly⟩ := P.apply_toggled c name
    rw [happly]
    rfl
  | _ => rfl

theorem apply_listener (P : ServerProgram σ) (c : ServerContext σ) (u : Update) :
    (P.apply c u).listener = P.listener.handleSubscribes c.listener u.entry?.toList := by
  cases u with
  | heard e =>
    obtain ⟨e, addr⟩ := e
    cases e with
    | _ => rfl
  | toggled name =>
    obtain ⟨threads, publishers, happly⟩ := P.apply_toggled c name
    rw [happly]
    rfl
  | _ => rfl

theorem filterMap_cons_toList {α β : Type*} (f : α → Option β) (a : α) (l : List α) :
    (a :: l).filterMap f = (f a).toList ++ l.filterMap f := by
  rw [List.filterMap_cons]
  cases f a with
  | none => rfl
  | some b => rfl

theorem replay_database (P : ServerProgram σ) (init : ServerContext σ) (log : List Update) :
    (P.threads.replay init log).database =
      (jobsOf log).foldl (fun database job => P.server.write database job.values) init.database := by
  induction log generalizing init with
  | nil => rfl
  | cons u log ih =>
    have hlog : P.threads.replay init (u :: log) = P.threads.replay (P.apply init u) log := rfl
    rw [hlog, ih, apply_database, jobsOf, jobsOf, filterMap_cons_toList, List.foldl_append]

theorem replay_listener (P : ServerProgram σ) (init : ServerContext σ) (log : List Update) :
    (P.threads.replay init log).listener = P.listener.handleSubscribes init.listener (entriesOf log) := by
  induction log generalizing init with
  | nil => rfl
  | cons u log ih =>
    have hlog : P.threads.replay init (u :: log) = P.threads.replay (P.apply init u) log := rfl
    rw [hlog, ih, apply_listener, entriesOf, entriesOf, filterMap_cons_toList, SdListener.handleSubscribes,
      SdListener.handleSubscribes, SdListener.handleSubscribes, List.foldl_append]

/-! ### Destinations -/

/-- The last entry for the endpoint in the eventgroup registers it. -/
def Registered (es : List (EventgroupEntry × Endpoint)) (svcId egid : Int) (ep : Endpoint) : Prop :=
  ∃ e ∈ (es.filter fun e => e.1.IsFor svcId egid ep).getLast?, e.1.ttl ≠ ttlStop

/-- The subscribers of a served eventgroup, in a server that has started without any. -/
theorem mem_getSubscribers_storeAt {svcId egid : Int} {ep : Endpoint} {database : σ}
    (hserves : P.listener.Serves (svcId, egid)) (k : Nat) :
    ep ∈ (P.threads.storeAt (.init database) log k).listener.registry.getSubscribers svcId egid ↔
      Registered (entriesOf (log.take k)) svcId egid ep := by
  have hempty : ep ∉ SdListener.State.init.registry.getSubscribers svcId egid := Finset.notMem_empty ep
  rw [Threads.storeAt, replay_listener, SdListener.mem_handleSubscribes hserves, Registered]
  cases ((entriesOf (log.take k)).filter fun e => e.1.IsFor svcId egid ep).getLast? with
  | none =>
    refine iff_of_false hempty ?_
    rintro ⟨e, he, -⟩
    cases he
  | some e => simp

/-- What the publisher's tick number `n + 1` has sent, after the updates of a log. -/
structure Tick.Sent (log : List Update) (pub : UdpPublisher) (n : Nat) (tick : Tick) : Prop where
  data : ∃ e2e enc, e2eEnabled pub.route.msg = .ok e2e ∧ encode pub.route.sigs tick.vals = .ok enc ∧
    tick.data = buildMessage (notificationArgs pub.route (seqAfter (n + 1)) e2e enc)
  unicast : pub.mode ≠ "multicast" → ∀ ep, ep ∈ tick.dests ↔
    Registered (entriesOf (log.take tick.looked)) pub.route.svcId pub.route.eventgroupId ep
  multicast : pub.mode = "multicast" → ∃ group, pub.group = .str group ∧ tick.dests = {(group, pub.port)}
  ports : ∀ ep ∈ tick.dests, FitsBits 16 ep.2
  order : tick.lap.began ≤ tick.sampled ∧ tick.sampled ≤ tick.looked ∧ tick.looked ≤ tick.lap.ended ∧
    tick.lap.ended ≤ log.length

theorem UdpPublisher.create_group {route : EventRoute} {pub : UdpPublisher} (h : create route = .ok pub) :
    route.msg.udp.orEmpty.getD "mcast_group" .null = .ok pub.group := by
  simp only [create, Except.bind_eq_ok, Except.pure_eq_ok, Except.ok.injEq] at h
  obtain ⟨mode, -, group, hgroup, v, -, port, -, w, -, ttl, -, iface, -, -, -, -, -, rfl⟩ := h
  exact hgroup

section
variable {cat : Catalog} {p : Publishing} {dests : Finset Endpoint}

theorem Publishing.Ok.dests_multicast (h : Publishing.Ok P.events p) (hcat : cat.Valid)
    (hevents : buildUdpEvents cat (.fromSignals cat.signals) = .ok P.events) (hmode : p.pub.mode = "multicast")
    {registry : SubscriberRegistry} (hdests : p.pub.dests registry = .ok dests) :
    ∃ group, p.pub.group = .str group ∧ dests = {(group, p.pub.port)} := by
  obtain ⟨-, -, hevent⟩ := isUdpEvent_of_mem hcat hevents (Dict.mem_values_of_get? h.route)
  obtain ⟨mode, group, hmode', hgroup, hnot⟩ := hevent.mode
  cases hmode'.symm.trans (UdpPublisher.create_ok h.create).2
  cases hgroup.symm.trans (UdpPublisher.create_group h.create)
  have htruthy : p.pub.group.truthy = true := by
    by_contra hfalse
    exact hnot ⟨hmode, Bool.not_eq_true _ ▸ hfalse⟩
  rw [UdpPublisher.dests, if_pos hmode, UdpPublisher.mcastHost, if_pos htruthy] at hdests
  obtain ⟨host, hhost, hdests⟩ := Except.bind_eq_ok.1 hdests
  cases hdests
  cases hg : p.pub.group with
  | str group =>
    rw [hg] at hhost
    cases hhost
    exact ⟨host, rfl, rfl⟩
  | _ =>
    rw [hg] at hhost
    cases hhost

theorem Tick.Ok.sent {database : σ} {n : Nat} {tick : Tick} (h : tick.Ok P (.init database) log p.pub n)
    (hok : Publishing.Ok P.events p) (hcat : cat.Valid)
    (hevents : buildUdpEvents cat (.fromSignals cat.signals) = .ok P.events) : tick.Sent log p.pub n := by
  have hroute := EventRoute.Ok.of_buildUdpEvents hcat hevents (Dict.mem_values_of_get? hok.route)
  refine ⟨?_, fun hmode ep => ?_, fun hmode => hok.dests_multicast hcat hevents hmode h.looks.dests_eq,
    h.ports, h.samples.began_le, h.looks.sampled_le, h.looked_le, h.le_length⟩
  · obtain ⟨e2e, he⟩ := hroute.e2eEnabled_ok
    have hdata := h.data_eq
    rw [hroute.eventDatagram_eq he] at hdata
    exact ⟨e2e, _, he, encode_eq hroute.sigs_valid _, (Except.ok.inj hdata).symm⟩
  · have hdests := h.looks.dests_eq
    rw [UdpPublisher.dests_unicast hmode] at hdests
    rw [← Except.ok.inj hdests]
    exact mem_getSubscribers_storeAt (SdListener.serves_ofEvents hok.route) tick.looked

end

/-- Every tick that a publisher has made in a run. -/
theorem ticks_sent {doc : Value} {cat : Catalog} {events : UdpEvents} (hload : loadCatalog doc = .ok cat)
    (hevents : buildUdpEvents cat (.fromSignals cat.signals) = .ok events) (server : Server σ) (routes : Routes)
    (sdPort : Int) (database : σ) {ι : Type} [DecidableEq ι] (threads : ι → ServerThread)
    (hnew : ∀ i, (threads i).New) (schedule : List ι) :
    let P : ServerProgram σ := ⟨server, routes, events, sdPort⟩
    ∀ w ∈ Run.states P.threads.step (Threads.start (.init database) threads) schedule,
      ∀ i t, w.threads i = .publisher t → ∀ n (tick : Tick), t.ticks[n]? = some tick →
        ∃ p, w.store.threads[t.number]? = some p ∧ tick.Sent w.log p.pub n := by
  intro P w hw i t ht n tick hn
  have hcat := Catalog.Valid.of_loadCatalog hload
  obtain ⟨p, hp, hok, htick⟩ := ticks_ok (P := P) (.of_build hcat hevents) (.init events database) hnew hw ht hn
  exact ⟨p, hp, htick.sent hok hcat hevents⟩

theorem ticks_sent_example : ∃ t tick p, exampleWorld.threads 3 = .publisher t ∧ t.ticks = [tick] ∧
    exampleWorld.store.threads[t.number]? = some p ∧ tick.Sent exampleWorld.log p.pub 0 := by
  obtain ⟨t, tick, ht, -, htick⟩ := exists_tick_exampleWorld
  obtain ⟨p, hp, hsent⟩ := ticks_sent loadCatalog_example buildUdpEvents_example dbServer exampleRoutes 30490
    (.ofSignals exampleCatalog.signals) exampleServerThreads exampleServerThreads_new _ exampleWorld
    exampleWorld_mem 3 t ht 0 tick (by rw [htick]; rfl)
  exact ⟨t, tick, p, ht, htick, hp, hsent⟩

/-! ### When a registration takes effect -/

theorem entriesOf_append (log log' : List Update) : entriesOf (log ++ log') = entriesOf log ++ entriesOf log' :=
  List.filterMap_append ..

/-- The last entry for an endpoint decides. -/
theorem registered_concat {es es' : List (EventgroupEntry × Endpoint)} {e : EventgroupEntry × Endpoint}
    {svcId egid : Int} {ep : Endpoint} (he : e.1.IsFor svcId egid ep)
    (hes : ∀ e' ∈ es', ¬ e'.1.IsFor svcId egid ep) :
    Registered (es ++ e :: es') svcId egid ep ↔ e.1.ttl ≠ ttlStop := by
  have hnone : (es'.filter fun e => decide (e.1.IsFor svcId egid ep)) = [] := by
    rw [List.filter_eq_nil_iff]
    exact fun e' he' => by simpa using hes e' he'
  rw [Registered, List.filter_append, List.filter_cons_of_pos (by simpa using he), hnone, List.getLast?_concat]
  simp

theorem registered_take {before after : List Update} {entry : EventgroupEntry} {addr ep : Endpoint}
    {svcId egid : Int} {k : Nat} (hfor : entry.IsFor svcId egid ep)
    (hafter : ∀ e ∈ entriesOf after, ¬ e.1.IsFor svcId egid ep) (hk : before.length < k) :
    Registered (entriesOf ((before ++ .heard (.eventgroup entry, addr) :: after).take k)) svcId egid ep ↔
      entry.ttl ≠ ttlStop := by
  obtain ⟨m, rfl⟩ := Nat.exists_eq_add_of_lt hk
  rw [List.take_append, List.take_of_length_le (by omega), entriesOf_append,
    show before.length + m + 1 - before.length = m + 1 by omega, List.take_succ_cons]
  refine registered_concat (e := (entry, addr)) hfor fun e he => hafter e ?_
  exact ((List.take_sublist m after).filterMap _).subset he

theorem TickThread.Ok.ordered {t : TickThread} (h : t.Ok P init log) :
    t.ticks.Pairwise fun a b => a.lap.ended ≤ b.lap.began :=
  List.pairwise_map.1 h.laps.ordered

/-- Once an entry for an endpoint was handled, and while no other is, every tick that looks goes to the endpoint
if the entry registers it; after a stop, the publisher ends at most one tick that still goes to it. -/
theorem registration_takes_effect {doc : Value} {cat : Catalog} {events : UdpEvents}
    (hload : loadCatalog doc = .ok cat) (hevents : buildUdpEvents cat (.fromSignals cat.signals) = .ok events)
    (server : Server σ) (routes : Routes) (sdPort : Int) (database : σ) {ι : Type} [DecidableEq ι]
    (threads : ι → ServerThread) (hnew : ∀ i, (threads i).New) (schedule : List ι) :
    let P : ServerProgram σ := ⟨server, routes, events, sdPort⟩
    ∀ w ∈ Run.states P.threads.step (Threads.start (.init database) threads) schedule,
      ∀ i t p, w.threads i = .publisher t → w.store.threads[t.number]? = some p → p.pub.mode ≠ "multicast" →
        ∀ before entry addr after ep, w.log = before ++ .heard (.eventgroup entry, addr) :: after →
          entry.IsFor p.pub.route.svcId p.pub.route.eventgroupId ep →
          (∀ e ∈ entriesOf after, ¬ e.1.IsFor p.pub.route.svcId p.pub.route.eventgroupId ep) →
          (∀ tick ∈ t.ticks, before.length < tick.looked → (ep ∈ tick.dests ↔ entry.ttl ≠ ttlStop)) ∧
          (entry.ttl = ttlStop →
            (t.ticks.filter fun tick => before.length < tick.lap.ended ∧ ep ∈ tick.dests).length ≤ 1) := by
  intro P w hw i t p ht hp hmode before entry addr after ep hlog hfor hafter
  have hcat := Catalog.Valid.of_loadCatalog hload
  have hsent : ∀ tick ∈ t.ticks, ∃ n, tick.Sent w.log p.pub n := by
    intro tick htick
    obtain ⟨n, hn⟩ := List.getElem?_of_mem htick
    obtain ⟨p', hp', hok, hok'⟩ := ticks_ok (P := P) (.of_build hcat hevents) (.init events database) hnew hw ht hn
    cases hp.symm.trans hp'
    exact ⟨n, hok'.sent hok hcat hevents⟩
  have hlooked : ∀ tick ∈ t.ticks, before.length < tick.looked → (ep ∈ tick.dests ↔ entry.ttl ≠ ttlStop) := by
    intro tick htick hlt
    obtain ⟨n, hsent⟩ := hsent tick htick
    rw [hsent.unicast hmode, hlog]
    exact registered_take hfor hafter hlt
  refine ⟨hlooked, fun hstop => ?_⟩
  have hthread := (Threads.holds_states (ServerThread.ok_inductive P (.init database)) (fun i => (hnew i).ok P _)
    schedule w hw).thread i
  rw [ht] at hthread
  refine List.length_filter_le_one (TickThread.Ok.ordered hthread) fun a ha b hb hpa hpb horder => ?_
  obtain ⟨hended, -⟩ := of_decide_eq_true hpa
  obtain ⟨-, hdest⟩ := of_decide_eq_true hpb
  -- the later of the two has looked before the stop was handled, so the earlier has ended before that
  obtain ⟨n, hsentb⟩ := hsent b hb
  have hle : b.looked ≤ before.length := by
    by_contra hlt
    exact (hlooked b hb (by omega)).1 hdest hstop
  have horder' := hsentb.order
  omega

theorem exampleWorld_heard : ∃ e : SdEntry × Endpoint,
    exampleWorld.log = exampleWorld.log.take 1 ++ .heard e :: exampleWorld.log.drop 2 ∧
      e ∈ SdListener.received exampleDatagram ∧ ∃ entry addr, e = (.eventgroup entry, addr) ∧
        entry.IsFor 0x1002 1 ("127.0.0.1", 30512) ∧ entry.ttl ≠ ttlStop := by
  have hentry : (exampleWorld.log[1]?.bind Update.entry?).map (fun e =>
      (decide ((SdEntry.eventgroup e.1, e.2) ∈ SdListener.received exampleDatagram),
        decide (e.1.IsFor 0x1002 1 ("127.0.0.1", 30512) ∧ e.1.ttl ≠ ttlStop))) = some (true, true) := by
    decide +kernel
  obtain ⟨⟨entry, addr⟩, he, hentry⟩ := Option.map_eq_some_iff.1 hentry
  obtain ⟨hreceived, hfor⟩ := Prod.mk.inj hentry
  obtain ⟨u, hu, he⟩ := Option.bind_eq_some_iff.1 he
  obtain rfl := Update.eq_of_entry? he
  refine ⟨_, ?_, of_decide_eq_true hreceived, entry, addr, rfl, of_decide_eq_true hfor⟩
  conv_lhs => rw [← List.take_append_drop 1 exampleWorld.log, List.drop_eq_getElem?_toList_append, hu]
  rfl

theorem exampleWorld_after : ∀ e ∈ entriesOf (exampleWorld.log.drop 2), ¬ e.1.IsFor 0x1002 1 ("127.0.0.1", 30512) := by
  have hempty : entriesOf (exampleWorld.log.drop 2) = [] := List.length_eq_zero_iff.1 (by decide +kernel)
  rw [hempty]
  exact List.forall_mem_nil _

theorem looked_exampleWorld {t : TickThread} {tick : Tick} (ht : exampleWorld.threads 3 = .publisher t)
    (htick : t.ticks = [tick]) : (exampleWorld.log.take 1).length < tick.looked := by
  have hlooked : (exampleWorld.threads 3).publisher?.map (fun t => t.ticks.map Tick.looked) = some [5] := by
    decide +kernel
  rw [ht] at hlooked
  have hlooked : t.ticks.map Tick.looked = [5] := Option.some.inj hlooked
  rw [htick] at hlooked
  rw [(List.cons.inj hlooked).1, List.length_take]
  omega

/-- The tick that looks after the subscribe goes to the client. -/
theorem registration_takes_effect_example : ∃ t tick, exampleWorld.threads 3 = .publisher t ∧ t.ticks = [tick] ∧
    ("127.0.0.1", 30512) ∈ tick.dests := by
  obtain ⟨t, tick, ht, hnumber, htick⟩ := exists_tick_exampleWorld
  refine ⟨t, tick, ht, htick, ?_⟩
  have hpub : exampleWorld.store.threads[0]?.map
      (fun p => (p.pub.mode, p.pub.route.svcId, p.pub.route.eventgroupId)) = some ("unicast", 0x1002, 1) := by
    decide +kernel
  obtain ⟨p, hp, hpub⟩ := Option.map_eq_some_iff.1 hpub
  obtain ⟨hmode, hkey⟩ := Prod.mk.inj hpub
  obtain ⟨hsvc, hegid⟩ := Prod.mk.inj hkey
  obtain ⟨e, hlog, -, entry, addr, rfl, hfor, hstart⟩ := exampleWorld_heard
  obtain ⟨heffect, -⟩ := registration_takes_effect loadCatalog_example buildUdpEvents_example dbServer exampleRoutes
    30490 (.ofSignals exampleCatalog.signals) exampleServerThreads exampleServerThreads_new _ exampleWorld
    exampleWorld_mem 3 t p ht (by rw [hnumber, hp]) (by rw [hmode]; decide) _ entry addr _ ("127.0.0.1", 30512) hlog
    (by rw [hsvc, hegid]; exact hfor) (by rw [hsvc, hegid]; exact exampleWorld_after)
  exact (heffect tick (by rw [htick]; exact List.mem_singleton_self _) (looked_exampleWorld ht htick)).2 hstart

end AutoEth
