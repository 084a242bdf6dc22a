import AutoEth.Shared

/-!
# Published snapshots

While any number of handlers and publishers run over the state of the node server, the state is what the
requests written so far make of the defaults, one whole request after another. `Consistent` says that each
datagram of a publisher shows the state at one point of that history, and that the points of successive
datagrams never go back; `snapshots_consistent` has it of every publisher in every world of every run.
-/

namespace AutoEth

/-- The core payload of the datagram is the encoding of `state`. -/
def PublishesState (route : EventRoute) (state : Dict String ℚ) (d : Bytes) : Prop :=
  ∃ seq e2e enc, e2eEnabled route.msg = .ok e2e ∧ encode route.sigs state = .ok enc ∧
    d = buildMessage (notificationArgs route seq e2e enc)

/-- The datagrams of a publisher, after the requests of `log`; each comes with the number of requests that
were written before its snapshot. -/
structure PublisherThread.Consistent (signals : List SignalDef) (log : List Job) (p : PublisherThread) :
    Prop where
  shows : ∀ d ∈ p.sent, d.2 ≤ log.length ∧ PublishesState p.route (stateAfter signals (log.take d.2)) d.1
  ordered : (p.sent.map Prod.snd).Pairwise (· ≤ ·)

/-! ### Publishers -/

theorem EventRoute.Ok.publishesState {route : EventRoute} (hok : route.Ok) {seq : Int} {state : Dict String ℚ}
    {d : Bytes} (h : eventDatagram route seq (stateSnapshot state route.sigs) = .ok d) :
    PublishesState route state d := by
  obtain ⟨e2e, he⟩ := hok.e2eEnabled_ok
  have henc : encodedBytes route.sigs (stateSnapshot state route.sigs) = encodedBytes route.sigs state := by
    refine encodedBytes_congr fun s hs => ?_
    rw [SignalDef.raw, getD_stateSnapshot hok.oneEach state hs, SignalDef.raw]
  rw [hok.eventDatagram_eq he, henc] at h
  cases h
  exact ⟨seq, e2e, _, he, encode_eq hok.sigs_valid state, rfl⟩

theorem PublisherThread.step_route {σ : Type} (server : Server σ) (now : Nat) (store : σ) (p : PublisherThread) :
    (p.step server now store).route = p.route := by
  unfold PublisherThread.step
  cases p.point with
  | counted vals mark =>
    dsimp only
    cases eventDatagram p.route p.seq vals with
    | error e => rfl
    | ok d => rfl
  | _ => rfl

/-- The thread publishes one of the events, if any. -/
def Thread.Publishes (events : UdpEvents) : Thread → Prop
  | .handler _ => True
  | .publisher p => p.route ∈ events.values

theorem Thread.publishes_inductive {σ : Type} (server : Server σ) (routes : Routes) (init : σ)
    (events : UdpEvents) : (server.threads routes).Inductive init fun _ th => th.Publishes events := by
  refine ⟨fun _ _ _ h => h, fun log th h => ?_⟩
  cases th with
  | handler t => trivial
  | publisher p =>
    show (p.step server _ _).route ∈ events.values
    rw [PublisherThread.step_route]
    exact h

theorem Thread.New.publishes {events : UdpEvents} {th : Thread} (h : th.New events) : th.Publishes events := by
  cases h with
  | handler sock => trivial
  | publisher hroute => exact hroute

/-! ### Runs -/

/-- In every run of handlers and publishers over the state, each write is an accepted request, the state is
what these make of the defaults, and the datagrams of every publisher show it. -/
theorem snapshots_consistent {doc : Value} {cat : Catalog} {routes : Routes} {events : UdpEvents}
    (hload : loadCatalog doc = .ok cat)
    (hroutes : buildTcpRoutes cat (.fromSignals cat.signals) = .ok routes)
    (hevents : buildUdpEvents cat (.fromSignals cat.signals) = .ok events)
    {ι : Type} [DecidableEq ι] (threads : ι → Thread) (hnew : ∀ i, (threads i).New events) (schedule : List ι) :
    ∀ w ∈ Run.states (nodeServer.threads routes).step (Threads.start (initState cat.signals) threads) schedule,
      (∀ job ∈ w.log, ∃ core, Accepts routes job.hdr job.pl job.route core ∧
        decode job.route.sigs core = .ok job.values) ∧
      w.store = stateAfter cat.signals w.log ∧
      ∀ i p, w.threads i = .publisher p → p.Consistent cat.signals w.log := by
  have hcat := Catalog.Valid.of_loadCatalog hload
  have hok := RoutesOk.of_buildTcpRoutes hcat hroutes
  have hind := (Thread.ok_inductive nodeServer routes (initState cat.signals)).and
    (Thread.publishes_inductive nodeServer routes (initState cat.signals) events)
  have hstart := fun i => And.intro ((hnew i).ok nodeServer routes (initState cat.signals)) (hnew i).publishes
  have hlog := Threads.log_states hind (fun log th job h => Thread.decodes_of_act _ _ _ h.1) hstart schedule
  intro w hw
  have hholds := Threads.holds_states hind hstart schedule w hw
  refine ⟨fun job hjob => hok.accepts_of_decodes (hlog w hw job hjob), hholds.store_eq, fun i p hp => ?_⟩
  obtain ⟨hthread, hpublishes⟩ := hholds.thread i
  rw [hp] at hthread hpublishes
  have hp : p.Ok nodeServer routes (initState cat.signals) w.log := hthread
  have hroute := EventRoute.Ok.of_buildUdpEvents hcat hevents hpublishes
  refine ⟨fun d hd => ?_, hp.ordered⟩
  obtain ⟨hle, seq, hseq⟩ := hp.sent d hd
  exact ⟨hle, hroute.publishesState hseq⟩

/-- A handler that is sent a request, and a publisher. -/
def exampleThreads : Bool → Thread
  | true => .handler ⟨Stream.whole gearFrame.bytes, .waiting, [], []⟩
  | false => .publisher ⟨exampleEvents.values.head (by decide +kernel), 0, .waiting, []⟩

theorem exampleThreads_new (b : Bool) : (exampleThreads b).New exampleEvents := by
  cases b with
  | true => exact .handler _
  | false => exact .publisher (List.head_mem _)

/-- The request is written between two ticks of the publisher. -/
theorem snapshots_consistent_example :
    let schedule := [true, false, true, false, true, false, false, false]
    let w := schedule.foldl (nodeServer.threads exampleRoutes).step
      (Threads.start (initState exampleCatalog.signals) exampleThreads)
    w.log.length = 1 ∧ w.store = stateAfter exampleCatalog.signals w.log ∧
      ∃ p, w.threads false = .publisher p ∧ p.sent.length = 1 ∧ p.Consistent exampleCatalog.signals w.log := by
  intro schedule w
  obtain ⟨-, hstore, hpublishers⟩ := snapshots_consistent loadCatalog_example buildTcpRoutes_example
    buildUdpEvents_example exampleThreads exampleThreads_new schedule w (Run.foldl_mem_states _)
  have hsent : (match w.threads false with
      | .handler _ => 0
      | .publisher p => p.sent.length) = 1 := by decide +kernel
  refine ⟨by decide +kernel, hstore, ?_⟩
  cases hp : w.threads false with
  | handler t =>
    rw [hp] at hsent
    cases hsent
  | publisher p =>
    rw [hp] at hsent
    exact ⟨p, rfl, hsent, hpublishers false p hp⟩

end AutoEth
