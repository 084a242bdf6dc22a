import AutoEth.ServerThreads

/-!
# The connections of a node

The response of `_tcp_handler` repeats the values of the request, so what a handler sends and how it ends
is a matter of the bytes on its connection alone. `HandlerThread.outcome` is what a handler comes to, from
where it stands, when nobody interrupts it any more; no step changes it (`outcome_step`), and each step
brings the handler nearer to its end (`bound_step`). So in every interleaving of the threads of a node each
connection gets the replies that it would get from a node of its own.
-/

namespace AutoEth

/-- What was sent, and the exception. -/
def Ended.outcome {σ : Type} (e : Ended σ) : List Bytes × Option PyErr := (e.sent, e.raised)

/-! ### The values do not matter -/

section
variable (routes : Routes)

theorem handleFrame_congr (s s' : Dict String ℚ) (hdr : SomeIpHeader) (pl : Bytes) :
    (handleFrame nodeStore routes s hdr pl).sent = (handleFrame nodeStore routes s' hdr pl).sent ∧
    (handleFrame nodeStore routes s hdr pl).raised = (handleFrame nodeStore routes s' hdr pl).raised := by
  unfold handleFrame
  split_ifs with hreq
  · exact ⟨rfl, rfl⟩
  · rcases routes.get? (hdr.serviceId, hdr.methodId) with _ | route
    · exact ⟨rfl, rfl⟩
    · dsimp only
      rcases coreOf route.msg hdr pl with e | _ | core
      · exact ⟨rfl, rfl⟩
      · exact ⟨rfl, rfl⟩
      · simp only [serveRequest, nodeStore]
        rcases decode route.sigs core with e | values
        · exact ⟨rfl, rfl⟩
        · simp only
          rcases response route hdr values with e | rsp
          · exact ⟨rfl, rfl⟩
          · exact ⟨rfl, rfl⟩

/-- Connections at one point of the same stream. -/
def Conn.SameWire (c c' : Conn (Dict String ℚ)) : Prop := c.sock = c'.sock ∧ c.sent = c'.sent

theorem handlerStep_congr (c c' : Conn (Dict String ℚ)) (h : c.SameWire c') :
    Turn.Rel Conn.SameWire (fun e e' => e.outcome = e'.outcome) (handlerStep nodeStore routes c)
      (handlerStep nodeStore routes c') := by
  obtain ⟨sock, s, sent⟩ := c
  obtain ⟨_, s', _⟩ := c'
  obtain ⟨rfl, rfl⟩ := h
  unfold handlerStep
  rcases hr : recvSomeip maxPayload sock with ⟨e | ⟨hdr, pl⟩, sock'⟩
  · cases e with
    | connectionError msg => exact .leave rfl
    | _ => exact .again ⟨rfl, rfl⟩
  · obtain ⟨hsent, hraised⟩ := handleFrame_congr routes s s' hdr pl
    simp only
    rw [← hraised, ← hsent]
    cases (handleFrame nodeStore routes s hdr pl).raised with
    | none => exact .again ⟨rfl, rfl⟩
    | some e => exact .leave rfl

end

/-- What `_tcp_handler` comes to on a connection on which it has sent this. -/
def outcomeFrom (routes : Routes) (sock : Sock) (sent : List Bytes) : List Bytes × Option PyErr :=
  ((handlerLoop nodeStore routes).result ⟨sock, ∅, sent⟩).outcome

section
variable {routes : Routes} {sock : Sock} {sent : List Bytes}

theorem outcome_result (s : Dict String ℚ) :
    ((handlerLoop nodeStore routes).result ⟨sock, s, sent⟩).outcome = outcomeFrom routes sock sent :=
  Loop.result_rel (L := handlerLoop nodeStore routes) (K := handlerLoop nodeStore routes) (handlerStep_congr routes) _ _
    ⟨rfl, rfl⟩

theorem prefix_outcomeFrom : sent <+: (outcomeFrom routes sock sent).1 := by
  refine Loop.result_inv (L := handlerLoop nodeStore routes) (I := fun c => sent <+: c.sent)
    (R := fun e => sent <+: e.sent) (fun c c' hc hstep => ?_) (fun c e hc hstep => ?_) _ (List.prefix_refl _)
  · simp only [handlerLoop, handlerStep] at hstep
    split at hstep
    · cases hstep
    · cases hstep
      exact hc
    · split at hstep
      · cases hstep
        exact hc.trans (List.prefix_append ..)
      · cases hstep
  · simp only [handlerLoop, handlerStep] at hstep
    split at hstep
    · cases hstep
      exact hc
    · cases hstep
    · split at hstep
      · cases hstep
      · cases hstep
        exact hc.trans (List.prefix_append ..)

end

/-! ### A handler from where it stands -/

namespace HandlerThread

variable (routes : Routes)

/-- What the handler comes to when the message at hand makes it send this, and raise or read on. -/
def resume (t : HandlerThread) (sent : List Bytes) : Option PyErr → List Bytes × Option PyErr
  | none => outcomeFrom routes t.sock (t.sent ++ sent)
  | some e => (t.sent ++ sent, some e)

def replied (t : HandlerThread) (job : Job) (vals : Dict String ℚ) : List Bytes × Option PyErr :=
  match response job.route job.hdr vals with
  | .error e => t.resume routes [] (some e)
  | .ok rsp => t.resume routes [rsp] none

/-- All that the handler will have sent, and what it will raise. -/
def outcome (t : HandlerThread) : List Bytes × Option PyErr :=
  match t.point with
  | .waiting => outcomeFrom routes t.sock t.sent
  | .received hdr pl =>
    t.resume routes (handleFrame nodeStore routes ∅ hdr pl).sent (handleFrame nodeStore routes ∅ hdr pl).raised
  | .decoded job => t.replied routes job job.values
  | .written job _ => t.replied routes job job.values
  | .replying job _ _ vals => t.replied routes job vals
  | .ended raised => (t.sent, raised)

/-- No more steps than these are left: five for each byte still to come, and those for the message at hand. -/
def bound (t : HandlerThread) : Nat :=
  match t.point with
  | .waiting => 5 * t.sock.all.length + 1
  | .received _ _ => 5 * t.sock.all.length + 5
  | .decoded _ => 5 * t.sock.all.length + 4
  | .written _ _ => 5 * t.sock.all.length + 3
  | .replying _ _ _ _ => 5 * t.sock.all.length + 2
  | .ended _ => 0

variable {routes} {t : HandlerThread}

theorem prefix_resume (sent : List Bytes) (raised : Option PyErr) : t.sent <+: (t.resume routes sent raised).1 := by
  cases raised with
  | none => exact (List.prefix_append ..).trans prefix_outcomeFrom
  | some e => exact List.prefix_append ..

theorem prefix_replied (job : Job) (vals : Dict String ℚ) : t.sent <+: (t.replied routes job vals).1 := by
  unfold replied
  cases response job.route job.hdr vals with
  | error e => exact prefix_resume ..
  | ok rsp => exact prefix_resume ..

theorem prefix_outcome : t.sent <+: (t.outcome routes).1 := by
  unfold outcome
  cases t.point with
  | waiting => exact prefix_outcomeFrom
  | received hdr pl => exact prefix_resume ..
  | decoded job => exact prefix_replied ..
  | written job mark => exact prefix_replied ..
  | replying job mark now vals => exact prefix_replied ..
  | ended raised => exact List.prefix_refl _

theorem ended_of_bound (h : t.bound = 0) : ∃ raised, t.point = .ended raised := by
  unfold bound at h
  cases ht : t.point with
  | ended raised => exact ⟨raised, rfl⟩
  | _ =>
    rw [ht] at h
    simp only at h
    omega

theorem Serves.outcome_eq {r : Served (Dict String ℚ)} {s : Dict String ℚ} {t' : HandlerThread}
    (h : t.Serves r s t') : t'.outcome routes = t.resume routes r.sent r.raised := by
  unfold outcome
  rw [h.point]
  cases r.raised with
  | none =>
    simp only
    rw [h.sock, h.sent]
    rfl
  | some e =>
    simp only
    rw [h.sent]
    rfl

theorem outcome_take (hdr : SomeIpHeader) (pl : Bytes) :
    (t.take routes hdr pl).outcome routes =
      t.resume routes (handleFrame nodeStore routes ∅ hdr pl).sent (handleFrame nodeStore routes ∅ hdr pl).raised := by
  rcases t.take_cases nodeServer routes hdr pl with ⟨-, hserves⟩ | ⟨job, -, htake, hserved⟩
  · exact (hserves ∅).outcome_eq
  · have hframe : handleFrame nodeStore routes ∅ hdr pl = job.served nodeServer ∅ := hserved ∅
    rw [htake, hframe]
    show t.replied routes job job.values = _
    unfold replied Job.served
    simp only [nodeServer, nodeStore]
    cases response job.route job.hdr job.values with
    | error e => rfl
    | ok rsp => rfl

theorem outcome_recv (now : Nat) (store : Dict String ℚ) (ht : t.point = .waiting) :
    (t.step nodeServer routes now store).outcome routes = outcomeFrom routes t.sock t.sent := by
  simp only [step, ht]
  unfold outcomeFrom
  rcases hr : recvSomeip maxPayload t.sock with ⟨e | ⟨hdr, pl⟩, sock⟩
  · cases e with
    | connectionError msg =>
      have hstep : (handlerLoop nodeStore routes).step ⟨t.sock, ∅, t.sent⟩ = .leave ⟨∅, t.sent, none⟩ := by
        simp only [handlerLoop, handlerStep, hr]
      rw [Loop.result_leave hstep]
      rfl
    | _ =>
      have hstep : (handlerLoop nodeStore routes).step ⟨t.sock, ∅, t.sent⟩ = .again ⟨sock, ∅, t.sent⟩ := by
        simp only [handlerLoop, handlerStep, hr]
      rw [Loop.result_again hstep]
      simp only [outcome]
      rfl
  · simp only [outcome]
    cases hraised : (handleFrame nodeStore routes ∅ hdr pl).raised with
    | none =>
      have hstep : (handlerLoop nodeStore routes).step ⟨t.sock, ∅, t.sent⟩ =
          .again ⟨sock, (handleFrame nodeStore routes ∅ hdr pl).state,
            t.sent ++ (handleFrame nodeStore routes ∅ hdr pl).sent⟩ := by
        simp only [handlerLoop, handlerStep, hr, hraised]
      rw [Loop.result_again hstep, outcome_result]
      rfl
    | some e =>
      have hstep : (handlerLoop nodeStore routes).step ⟨t.sock, ∅, t.sent⟩ =
          .leave ⟨(handleFrame nodeStore routes ∅ hdr pl).state,
            t.sent ++ (handleFrame nodeStore routes ∅ hdr pl).sent, some e⟩ := by
        simp only [handlerLoop, handlerStep, hr, hraised]
      rw [Loop.result_leave hstep]
      rfl

/-- No step changes the outcome, whatever others have written. -/
theorem outcome_step (now : Nat) (store : Dict String ℚ) :
    (t.step nodeServer routes now store).outcome routes = t.outcome routes := by
  cases ht : t.point with
  | waiting =>
    rw [outcome_recv now store ht]
    simp only [outcome, ht]
  | received hdr pl =>
    simp only [step, ht]
    rw [outcome_take]
    simp only [outcome, ht]
  | decoded job =>
    simp only [step, outcome, ht]
    rfl
  | written job mark =>
    simp only [step, outcome, ht]
    rfl
  | replying job mark now' vals =>
    simp only [step, outcome, ht, replied]
    cases response job.route job.hdr vals with
    | error e =>
      show (t.sent, some e) = (t.sent ++ [], some e)
      rw [List.append_nil]
    | ok rsp => rfl
  | ended raised => simp only [step, outcome, ht]

theorem bound_take (hdr : SomeIpHeader) (pl : Bytes) :
    (t.take routes hdr pl).bound ≤ 5 * t.sock.all.length + 4 := by
  rcases t.take_cases nodeServer routes hdr pl with ⟨-, hserves⟩ | ⟨job, -, htake, -⟩
  · have h := hserves ∅
    unfold bound
    rw [h.point, h.sock]
    cases (handleFrame nodeServer.toStore routes ∅ hdr pl).raised with
    | none =>
      simp only
      omega
    | some e => exact Nat.zero_le _
  · rw [htake]
    exact Nat.le_refl _

theorem bound_step {σ : Type} (server : Server σ) (now : Nat) (store : σ) :
    (t.step server routes now store).bound ≤ t.bound - 1 := by
  cases ht : t.point with
  | waiting =>
    simp only [step, bound, ht]
    rcases hr : recvSomeip maxPayload t.sock with ⟨e | ⟨hdr, pl⟩, sock⟩
    · rcases recvSomeip_length_lt hr with ⟨msg, hmsg⟩ | hlt
      · cases hmsg
        exact Nat.zero_le _
      · cases e with
        | connectionError msg => exact Nat.zero_le _
        | _ =>
          simp only
          omega
    · have hlt := (recvSomeip_length_lt hr).resolve_left (by simp)
      simp only
      omega
  | received hdr pl =>
    simp only [step, ht]
    refine (bound_take hdr pl).trans ?_
    simp only [bound, ht]
    omega
  | decoded job =>
    simp only [step, bound, ht]
    omega
  | written job mark =>
    simp only [step, bound, ht]
    omega
  | replying job mark now' vals =>
    simp only [step, bound, ht]
    cases response job.route job.hdr vals with
    | error e => exact Nat.zero_le _
    | ok rsp =>
      simp only
      omega
  | ended raised =>
    simp only [step, bound, ht]
    exact Nat.zero_le _

end HandlerThread

/-! ### All connections at once -/

/-- In every interleaving a handler of the node has sent a part of what it sends alone, and all of it once it
has ended, which takes at most five steps for each byte of its connection. -/
theorem connections_isolated (routes : Routes) (events : UdpEvents) (sdPort : Int) (state : Dict String ℚ)
    {ι : Type} [DecidableEq ι] (threads : ι → ServerThread) {i : ι} {sock : Sock}
    (hi : threads i = .handler ⟨sock, .waiting, [], []⟩) (schedule : List ι) :
    let P : ServerProgram (Dict String ℚ) := ⟨nodeServer, routes, events, sdPort⟩
    let w := schedule.foldl P.threads.step (Threads.start (.init state) threads)
    let alone := tcpHandler routes state sock
    ∃ t, w.threads i = .handler t ∧ t.sent <+: alone.sent ∧
      (∀ raised, t.point = .ended raised → t.sent = alone.sent ∧ raised = alone.raised) ∧
      (5 * sock.all.length < schedule.count i → ∃ raised, t.point = .ended raised) := by
  intro P w alone
  have hrun : ∃ t, w.threads i = .handler t ∧ t.outcome routes = alone.outcome ∧
      t.bound ≤ 5 * sock.all.length + 1 - schedule.count i := by
    refine Threads.foldl_own (M := P.threads) (J := fun k th => ∃ t, th = .handler t ∧
      t.outcome routes = alone.outcome ∧ t.bound ≤ 5 * sock.all.length + 1 - k) ?_ ?_ schedule
    · rintro k now c _ ⟨t, rfl, houtcome, hbound⟩
      refine ⟨_, rfl, ?_, ?_⟩
      · exact (HandlerThread.outcome_step ..).trans houtcome
      · have hstep : (t.step P.server P.routes now c.database).bound ≤ t.bound - 1 := HandlerThread.bound_step ..
        omega
    · exact ⟨_, hi, (outcome_result state).symm, le_rfl⟩
  obtain ⟨t, ht, houtcome, hbound⟩ := hrun
  refine ⟨t, ht, ?_, fun raised hended => ?_, fun hcount => HandlerThread.ended_of_bound (by omega)⟩
  · have hprefix : t.sent <+: (t.outcome routes).1 := HandlerThread.prefix_outcome
    rw [houtcome] at hprefix
    exact hprefix
  · have hend : t.outcome routes = (t.sent, raised) := by simp only [HandlerThread.outcome, hended]
    rw [hend] at houtcome
    exact Prod.mk.inj houtcome

/-- The handler and a publisher in turn, until the handler has ended. -/
theorem connections_isolated_example :
    let P : ServerProgram (Dict String ℚ) := ⟨nodeServer, exampleRoutes, exampleEvents, 30490⟩
    let w := (List.replicate 86 [(2 : Fin 5), 3]).flatten.foldl P.threads.step
      (Threads.start (.init (initState exampleCatalog.signals)) exampleServerThreads)
    let alone := tcpHandler exampleRoutes (initState exampleCatalog.signals) (Stream.whole gearFrame.bytes)
    alone.sent.length = 1 ∧ ∃ t raised, w.threads 2 = .handler t ∧ t.point = .ended raised ∧ t.sent = alone.sent ∧
      raised = alone.raised := by
  intro P w alone
  have hi : exampleServerThreads 2 = .handler ⟨Stream.whole gearFrame.bytes, .waiting, [], []⟩ := rfl
  obtain ⟨t, ht, -, hresult, hended⟩ := connections_isolated exampleRoutes exampleEvents 30490
    (initState exampleCatalog.signals) exampleServerThreads hi (List.replicate 86 [(2 : Fin 5), 3]).flatten
  obtain ⟨raised, hraised⟩ := hended (by decide +kernel)
  obtain ⟨hsent, hsame⟩ := hresult raised hraised
  exact ⟨by decide +kernel, t, raised, ht, hraised, hsent, hsame⟩

end AutoEth
