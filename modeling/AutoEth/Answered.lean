import AutoEth.Subscribers

/-!
# What a client sees of its own write

A handler answers a request only after it has written it (`HandlerThread.Logged`). So once a client has its
answer, every snapshot that a publisher takes is of a store with this write, and each publisher ends at most
one tick with an older snapshot (`write_takes_effect`).
-/

namespace AutoEth

/-! ### Answered requests -/

/-- The request of a handler that has written it and not answered it yet. -/
def HandlerPoint.written? : HandlerPoint → Option Job
  | .written job _ => some job
  | .replying job _ _ _ => some job
  | _ => none

/-- The requests that the handler has answered or is about to answer were written. -/
structure HandlerThread.Logged (log : List Update) (t : HandlerThread) : Prop where
  answers : ∀ a ∈ t.answers, a.job ∈ jobsOf log
  point : ∀ job ∈ t.point.written?, job ∈ jobsOf log

def ServerThread.Logged (log : List Update) : ServerThread → Prop
  | .handler t => t.Logged log
  | _ => True

/-- The responses that the thread has sent. -/
def ServerThread.answers : ServerThread → List Answer
  | .handler t => t.answers
  | _ => []

theorem jobsOf_append (log log' : List Update) : jobsOf (log ++ log') = jobsOf log ++ jobsOf log' :=
  List.filterMap_append ..

namespace HandlerThread

variable {t : HandlerThread} {log : List Update}

theorem Logged.append (h : t.Logged log) (log' : List Update) : t.Logged (log ++ log') := by
  refine ⟨fun a ha => ?_, fun job hjob => ?_⟩
  · rw [jobsOf_append]
    exact List.mem_append_left _ (h.answers a ha)
  · rw [jobsOf_append]
    exact List.mem_append_left _ (h.point job hjob)

theorem written?_take (routes : Routes) (t : HandlerThread) (hdr : SomeIpHeader) (pl : Bytes) :
    (t.take routes hdr pl).point.written? = none := by
  rcases t.take_cases nodeServer routes hdr pl with ⟨-, hserves⟩ | ⟨job, -, htake, -⟩
  · rw [(hserves ∅).point]
    split
    · rfl
    · rfl
  · rw [htake]
    rfl

theorem Logged.at (h : t.Logged log) {t' : HandlerThread} (hanswers : t'.answers = t.answers)
    (hpoint : t'.point.written? = none) : t'.Logged log := by
  refine ⟨fun a ha => h.answers a (hanswers ▸ ha), fun job hjob => ?_⟩
  rw [hpoint] at hjob
  cases hjob

theorem Logged.step {σ : Type} (h : t.Logged log) (server : Server σ) (routes : Routes) (now : Nat) (store : σ) :
    (t.step server routes now store).Logged (log ++ (t.writes.map Update.wrote).toList) := by
  have hpoint := h.point
  have hnone : log ++ ((none : Option Job).map Update.wrote).toList = log := List.append_nil log
  unfold HandlerThread.step HandlerThread.writes
  cases ht : t.point with
  | waiting =>
    rw [hnone]
    dsimp only
    split
    · exact h.at rfl rfl
    · exact h.at rfl rfl
    · exact h.at rfl rfl
  | received hdr pl =>
    rw [hnone]
    exact h.at (answers_take ..) (written?_take ..)
  | decoded job =>
    refine ⟨(h.append _).answers, ?_⟩
    rintro _ ⟨⟩
    rw [jobsOf_append]
    exact List.mem_append_right _ (List.mem_singleton_self job)
  | written job mark =>
    rw [ht] at hpoint
    rw [hnone]
    refine ⟨h.answers, ?_⟩
    rintro _ ⟨⟩
    exact hpoint job rfl
  | replying job mark read vals =>
    rw [ht] at hpoint
    rw [hnone]
    dsimp only
    split
    · exact h.at rfl rfl
    · refine ⟨fun a ha => ?_, ?_⟩
      · rcases List.mem_append.1 ha with ha | ha
        · exact h.answers a ha
        · rw [List.mem_singleton.1 ha]
          exact hpoint job rfl
      · rintro _ ⟨⟩
  | ended raised =>
    rw [hnone]
    exact h

end HandlerThread

theorem ServerThread.logged_inductive {σ : Type} (P : ServerProgram σ) (init : ServerContext σ) :
    P.threads.Inductive init ServerThread.Logged := by
  refine ⟨fun log u th h => ?_, fun log th h => ?_⟩
  · cases th with
    | handler t => exact HandlerThread.Logged.append h [u]
    | _ => trivial
  · cases th with
    | handler t => exact HandlerThread.Logged.step h P.server P.routes log.length _
    | _ => trivial

theorem ServerThread.Logged.mem_jobsOf {log : List Update} {th : ServerThread} (h : th.Logged log) :
    ∀ a ∈ th.answers, a.job ∈ jobsOf log := by
  cases th with
  | handler t => exact HandlerThread.Logged.answers h
  | _ => exact List.forall_mem_nil _

theorem ServerThread.New.logged {th : ServerThread} (h : th.New) : th.Logged [] := by
  cases h with
  | handler sock => exact ⟨List.forall_mem_nil _, by rintro _ ⟨⟩⟩
  | _ => trivial

/-! ### Ticks after an answer -/

section
variable {σ : Type} {P : ServerProgram σ} {init : ServerContext σ} {log : List Update}

/-- At most one tick has an older snapshot and ends later. -/
theorem TickThread.Ok.length_stale_le {t : TickThread} (h : t.Ok P init log) (k : Nat) :
    (t.ticks.filter fun tick => tick.sampled < k ∧ k ≤ tick.lap.ended).length ≤ 1 := by
  refine List.length_filter_le_one h.ordered fun a _ b hb ha hb' horder => ?_
  have hended : k ≤ a.lap.ended := (of_decide_eq_true ha).2
  have hsampled : b.sampled < k := (of_decide_eq_true hb').1
  obtain ⟨pub, hworks⟩ : ∃ pub, t.Works P init log pub := by
    rcases h with hfresh | hworks
    · rw [hfresh] at hb
      cases hb
    · exact hworks
  obtain ⟨n, hn⟩ := List.getElem?_of_mem hb
  have hbegan : b.lap.began ≤ b.sampled := (hworks.ticks n b hn).samples.began_le
  omega

theorem shownValue_append_cons {before after : List Job} {job : Job} {s : SignalDef} {v : ℚ}
    (hv : job.values.get? s.name = some v) :
    shownValue (before ++ job :: after) s = (lastWrite after s.name).getD v := by
  have hconcat : before ++ job :: after = (before ++ [job]) ++ after := by simp
  rw [shownValue, hconcat, lastWrite_append, lastWrite_concat, hv, Option.some_or]
  cases lastWrite after s.name with
  | none => rfl
  | some v' => rfl

end

/-- Once the handler of a connection has answered a request, each publisher ends at most one tick whose snapshot
is older; a subscriber whose last datagram of its event has a later one shows the values of the request, or
of one that was written after it. -/
theorem write_takes_effect {doc : Value} {cat : Catalog} {routes : Routes} {events : UdpEvents}
    (hload : loadCatalog doc = .ok cat) (hroutes : buildTcpRoutes cat (.fromSignals cat.signals) = .ok routes)
    (hevents : buildUdpEvents cat (.fromSignals cat.signals) = .ok events) (hwired : events.Wired) {σ : Type}
    {server : Server σ} {database : σ} (hserver : server.Starts cat.signals database) (sdPort : Int)
    {ι : Type} [DecidableEq ι] (threads : ι → ServerThread) (hnew : ∀ i, (threads i).New)
    {route : EventRoute} (hroute : route ∈ events.values) {size : Nat} {e2e : Bool}
    (hsize : encodedSize route.sigs = .ok size) (he : e2eEnabled route.msg = .ok e2e)
    (hlen : 16 + size + (if e2e then 4 else 0) ≤ 2048) (ifaceIp : String) :
    let P : ServerProgram σ := ⟨server, routes, events, sdPort⟩
    ∃ sub, EventSubscription.create cat (.fromSignals cat.signals) route.msg ifaceIp = .ok sub ∧
      ∀ schedule schedule' : List ι,
        let w := schedule.foldl P.threads.step (Threads.start (.init database) threads)
        let w' := schedule'.foldl P.threads.step w
        ∀ i, ∀ a ∈ (w.threads i).answers,
          (∀ j p, w'.threads j = .publisher p →
            (p.ticks.filter fun tick => tick.sampled < w.log.length ∧ w.log.length ≤ tick.lap.ended).length ≤ 1) ∧
          ∀ deliveries, (∀ d ∈ deliveries, Sends w' d.1 d.2) → ∀ tick ∈ (ownTicks route deliveries).getLast?,
            w.log.length ≤ tick.sampled → ∃ before after vals,
              jobsOf (w'.log.take tick.sampled) = before ++ a.job :: after ∧
              (sub.run (deliveries.map fun d => d.2.data) =
                sub.listen.map fun _ => ⟨(ownTicks route deliveries).length, some vals⟩) ∧
              ∀ s ∈ route.sigs, ∀ v, a.job.values.get? s.name = some v →
                vals.get? s.name = some ((lastWrite after s.name).getD v) := by
  intro P
  have hcat := Catalog.Valid.of_loadCatalog hload
  obtain ⟨sub, hcreate, htakes⟩ := exists_takes hcat hevents hwired hroute hsize he hlen ifaceIp
  refine ⟨sub, hcreate, ?_⟩
  intro schedule schedule' w w' i a ha
  have hw : w ∈ Run.states P.threads.step (Threads.start (.init database) threads) schedule :=
    Run.foldl_mem_states schedule
  have hw' : w' ∈ Run.states P.threads.step (Threads.start (.init database) threads) (schedule ++ schedule') := by
    have hfold : w' = (schedule ++ schedule').foldl P.threads.step (Threads.start (.init database) threads) :=
      (List.foldl_append ..).symm
    rw [hfold]
    exact Run.foldl_mem_states _
  refine ⟨fun j p hp => ?_, fun deliveries hdeliveries tick htick hsampled => ?_⟩
  · have hthread := (Threads.holds_states (ServerThread.ok_inductive P (.init database)) (fun i => (hnew i).ok P _)
      _ w' hw').thread j
    rw [hp] at hthread
    exact TickThread.Ok.length_stale_le hthread w.log.length
  -- the request is in the log of the answer, and that is a part of the log of the snapshot
  have hlogged := (Threads.holds_states (ServerThread.logged_inductive P (.init database)) (fun i => (hnew i).logged)
    _ w hw).thread i
  obtain ⟨before, after, hjobs⟩ := List.append_of_mem (hlogged.mem_jobsOf a ha)
  obtain ⟨log, hlog⟩ := Threads.log_prefix (M := P.threads) w schedule'
  have hlog : w'.log = w.log ++ log := hlog.symm
  have hseen : jobsOf (w'.log.take tick.sampled) =
      before ++ a.job :: (after ++ jobsOf (log.take (tick.sampled - w.log.length))) := by
    rw [hlog, List.take_append, List.take_of_length_le hsampled, jobsOf_append, hjobs, List.append_assoc,
      List.cons_append]
  obtain ⟨vals, hrun, hvals⟩ := htakes.shows_last hcat hroutes hevents hwired hserver hnew hroute hw' hdeliveries htick
  refine ⟨before, _, vals, hseen, hrun, fun s hs v hv => ?_⟩
  rw [hvals s hs, hseen, shownValue_append_cons hv]

theorem exists_sends_answeredWorld : ∃ p tick,
    Sends ([3, 3, 3, 3, 3].foldl exampleServer.threads.step answeredWorld) p tick ∧
      p.pub.route.msg.name = exampleRoute.msg.name ∧ answeredWorld.log.length ≤ tick.sampled := by
  have hname : ([3, 3, 3, 3, 3].foldl exampleServer.threads.step answeredWorld).store.threads[0]?.map
      (fun p => p.pub.route.msg.name) = some exampleRoute.msg.name := by
    decide +kernel
  have hticks : (([3, 3, 3, 3, 3].foldl exampleServer.threads.step answeredWorld).threads 3).publisher?.map
      (fun t => (t.number, t.ticks.map Tick.sampled)) = some (0, [3]) := by
    decide +kernel
  have hlength : answeredWorld.log.length = 3 := by decide +kernel
  obtain ⟨p, hp, hname⟩ := Option.map_eq_some_iff.1 hname
  obtain ⟨t, ht, hticks⟩ := Option.map_eq_some_iff.1 hticks
  obtain ⟨hnumber, hsampled⟩ := Prod.mk.inj hticks
  obtain ⟨tick, htick, hsampled⟩ := List.map_eq_singleton_iff.1 hsampled
  refine ⟨p, tick, ⟨3, t, ServerThread.eq_of_publisher? ht, by rw [hnumber, hp], ?_⟩, hname, ?_⟩
  · rw [htick]
    exact List.mem_singleton_self _
  · rw [hlength, hsampled]

/-- The tick after the answer shows the gear. -/
theorem write_takes_effect_example : ∃ (a : Answer) (sub : EventSubscription) (tick : Tick) (after : List Job)
    (vals : Dict String ℚ), a ∈ (answeredWorld.threads 2).answers ∧ sub.run [tick.data] = .ok ⟨1, some vals⟩ ∧
      EventSubscription.create exampleCatalog (.fromSignals exampleCatalog.signals) exampleRoute.msg "0.0.0.0" =
        .ok sub ∧
      ∀ s ∈ exampleRoute.sigs, ∀ v, a.job.values.get? s.name = some v →
        vals.get? s.name = some ((lastWrite after s.name).getD v) := by
  obtain ⟨sub, hcreate, heffect⟩ := write_takes_effect loadCatalog_example buildTcpRoutes_example
    buildUdpEvents_example exampleEvents_wired .db 30490 exampleServerThreads exampleServerThreads_new
    exampleRoute_mem (Except.eq_ok_get (by decide +kernel)) (Except.eq_ok_get (by decide +kernel)) (by decide +kernel)
    "0.0.0.0"
  have hanswers : (answeredWorld.threads 2).answers.length = 1 := by decide +kernel
  obtain ⟨a, ha⟩ := List.length_eq_one_iff.1 hanswers
  have ha : a ∈ (answeredWorld.threads 2).answers := by
    rw [ha]
    exact List.mem_singleton_self a
  obtain ⟨p, tick, hsends, hname, hsampled⟩ := exists_sends_answeredWorld
  have hdeliveries : ∀ d ∈ [(p, tick)], Sends ([3, 3, 3, 3, 3].foldl exampleServer.threads.step answeredWorld) d.1 d.2 :=
    fun d hd => by
      rw [List.mem_singleton.1 hd]
      exact hsends
  have hown : ownTicks exampleRoute [(p, tick)] = [tick] := by simp [ownTicks, hname]
  obtain ⟨-, heffect⟩ := heffect [0, 0, 1, 1, 1, 1, 2, 2, 2, 2, 2] [3, 3, 3, 3, 3] 2 a ha
  obtain ⟨before, after, vals, -, hrun, hvals⟩ := heffect _ hdeliveries tick (by rw [hown]; rfl) hsampled
  rw [hown, listen_exampleRoute hcreate] at hrun
  exact ⟨a, sub, tick, after, vals, ha, hrun, hcreate, hvals⟩

end AutoEth
