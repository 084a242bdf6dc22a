import AutoEth.HandlerSafety
import AutoEth.Publisher
import AutoEth.Lib.Interleave

/-!
# Handlers and publishers over one store

The threads of a server, cut into atomic steps: a handler that receives, decodes, writes, reads back
and answers, and a publisher that takes a snapshot, counts up, builds and sends. Only the write, the
read for the answer and the snapshot touch the store; these are the critical sections. Any number of
threads interleave in any order (`Threads`), and the log of the run lists the requests that were written.
`handler_turn` and `publisher_tick` say that a thread which nobody interrupts makes a turn of
`handlerLoop` or a tick of `publish`; `Thread.ok_inductive` is what every thread can rely on while the
others run.
-/

namespace AutoEth

/-! ### Threads -/

/-- Where the threads of a server keep the signal values. -/
structure Server (σ : Type) extends Store σ where
  snapshot : σ → List SignalDef → Dict String ℚ

def nodeServer : Server (Dict String ℚ) := { nodeStore with snapshot := stateSnapshot }

def dbServer : Server SignalDatabase := { dbStore with snapshot := dbSnapshot }

/-- A request in service: what the handler keeps of it in its variables. -/
structure Job where
  route : MethodRoute
  hdr : SomeIpHeader
  pl : Bytes
  values : Dict String ℚ

/-- The defaults, overridden by the values of these requests in their order. -/
def stateAfter (signals : List SignalDef) (jobs : List Job) : Dict String ℚ :=
  jobs.foldl (fun state job => state.update job.values.entries) (initState signals)

/-- Where a handler stands in its loop; `mark` and `now` are numbers of writes, that of its own write
included and that at its read. -/
inductive HandlerPoint where
  | waiting
  | received (hdr : SomeIpHeader) (pl : Bytes)
  | decoded (job : Job)
  | written (job : Job) (mark : Nat)
  | replying (job : Job) (mark now : Nat) (vals : Dict String ℚ)
  | ended (raised : Option PyErr)

/-- A response that was sent, and the request it answers. -/
structure Answer where
  job : Job
  rsp : Bytes

structure HandlerThread where
  sock : Sock
  point : HandlerPoint
  sent : List Bytes
  answers : List Answer

namespace HandlerThread

variable {σ : Type} (server : Server σ) (routes : Routes)

/-- From a message to its decoded request. -/
def take (t : HandlerThread) (hdr : SomeIpHeader) (pl : Bytes) : HandlerThread :=
  if hdr.msgType ≠ mtRequest then { t with point := .waiting }
  else
    match routes.get? (hdr.serviceId, hdr.methodId) with
    | none => { t with point := .waiting, sent := t.sent ++ [errorReply hdr] }
    | some route =>
      match coreOf route.msg hdr pl with
      | .error e => { t with point := .ended (some e) }
      | .ok none => { t with point := .waiting }
      | .ok (some core) =>
        match decode route.sigs core with
        | .error e => { t with point := .ended (some e) }
        | .ok values => { t with point := .decoded ⟨route, hdr, pl, values⟩ }

/-- One step of the thread, after `now` writes to the store. -/
def step (now : Nat) (store : σ) (t : HandlerThread) : HandlerThread :=
  match t.point with
  | .waiting =>
    match recvSomeip maxPayload t.sock with
    | (.error (.connectionError _), _) => { t with point := .ended none }
    | (.error _, sock) => { t with sock }
    | (.ok (hdr, pl), sock) => { t with sock, point := .received hdr pl }
  | .received hdr pl => t.take routes hdr pl
  | .decoded job => { t with point := .written job (now + 1) }
  | .written job mark =>
    { t with point := .replying job mark now (server.reply store job.route.sigs job.values) }
  | .replying job _ _ vals =>
    match response job.route job.hdr vals with
    | .error e => { t with point := .ended (some e) }
    | .ok rsp => { t with point := .waiting, sent := t.sent ++ [rsp], answers := t.answers ++ [⟨job, rsp⟩] }
  | .ended _ => t

/-- The request whose values the step writes to the store. -/
def writes (t : HandlerThread) : Option Job :=
  match t.point with
  | .decoded job => some job
  | _ => none

end HandlerThread

/-- Where a publisher stands in a tick; `mark` is the number of writes before its snapshot. -/
inductive PublisherPoint where
  | waiting
  | sampled (vals : Dict String ℚ) (mark : Nat)
  | counted (vals : Dict String ℚ) (mark : Nat)
  | built (datagram : Bytes) (mark : Nat)
  | ended (raised : PyErr)

/-- A publisher with its datagrams, each with the number of writes before its snapshot. -/
structure PublisherThread where
  route : EventRoute
  seq : Int
  point : PublisherPoint
  sent : List (Bytes × Nat)

/-- One step of the thread, after `now` writes to the store. -/
def PublisherThread.step {σ : Type} (server : Server σ) (now : Nat) (store : σ) (p : PublisherThread) :
    PublisherThread :=
  match p.point with
  | .waiting => { p with point := .sampled (server.snapshot store p.route.sigs) now }
  | .sampled vals mark => { p with seq := nextSeq p.seq, point := .counted vals mark }
  | .counted vals mark =>
    match eventDatagram p.route p.seq vals with
    | .error e => { p with point := .ended e }
    | .ok datagram => { p with point := .built datagram mark }
  | .built datagram mark => { p with point := .waiting, sent := p.sent ++ [(datagram, mark)] }
  | .ended _ => p

inductive Thread where
  | handler (t : HandlerThread)
  | publisher (p : PublisherThread)

/-- The responses that the thread has sent. -/
def Thread.answers : Thread → List Answer
  | .handler t => t.answers
  | .publisher _ => []

/-- The threads of a server; an update of the store is a request that a handler writes. -/
def Server.threads {σ : Type} (server : Server σ) (routes : Routes) : Threads σ Job Thread where
  apply store job := server.write store job.values
  act now store
    | .handler t => (.handler (t.step server routes now store), t.writes)
    | .publisher p => (.publisher (p.step server now store), none)

/-- A new thread: the handler of a connection, or the publisher of an event. -/
inductive Thread.New (events : UdpEvents) : Thread → Prop where
  | handler (sock : Sock) : New events (.handler ⟨sock, .waiting, [], []⟩)
  | publisher {route : EventRoute} (h : route ∈ events.values) :
    New events (.publisher ⟨route, 0, .waiting, []⟩)

section
variable {σ : Type} (server : Server σ) (routes : Routes) (init : σ)

/-- The job is an accepted request, with the values decoded from it. -/
def Job.Decodes (job : Job) : Prop :=
  ∃ core, Requests routes job.hdr job.pl job.route core ∧ decode job.route.sigs core = .ok job.values

/-- The job's write is number `mark`. -/
def Job.Wrote (job : Job) (log : List Job) (mark : Nat) : Prop :=
  ∃ n, mark = n + 1 ∧ log[n]? = some job

/-- The store after the first `k` writes. -/
def Server.storeAt (log : List Job) (k : Nat) : σ :=
  (server.threads routes).replay init (log.take k)

def HandlerPoint.Ok (log : List Job) : HandlerPoint → Prop
  | .waiting => True
  | .received _ _ => True
  | .decoded job => job.Decodes routes
  | .written job mark => job.Decodes routes ∧ job.Wrote log mark
  | .replying job mark now vals => job.Decodes routes ∧ job.Wrote log mark ∧ mark ≤ now ∧
      now ≤ log.length ∧ vals = server.reply (server.storeAt routes init log now) job.route.sigs job.values
  | .ended _ => True

structure HandlerThread.Ok (log : List Job) (t : HandlerThread) : Prop where
  answers : ∀ a ∈ t.answers, a.job.Decodes routes
  point : t.point.Ok server routes init log

/-- A snapshot of the store after `mark` writes, none of the earlier ones is of a later store. -/
structure PublisherThread.Sampled (log : List Job) (p : PublisherThread) (mark : Nat) : Prop where
  le_length : mark ≤ log.length
  le_mark : ∀ d ∈ p.sent, d.2 ≤ mark

/-- A datagram of the store after `mark` writes. -/
def PublisherThread.Shows (log : List Job) (p : PublisherThread) (d : Bytes) (mark : Nat) : Prop :=
  ∃ seq, eventDatagram p.route seq
    (server.snapshot (server.storeAt routes init log mark) p.route.sigs) = .ok d

def PublisherThread.PointOk (log : List Job) (p : PublisherThread) : Prop :=
  match p.point with
  | .waiting => True
  | .sampled vals mark => p.Sampled log mark ∧
      vals = server.snapshot (server.storeAt routes init log mark) p.route.sigs
  | .counted vals mark => p.Sampled log mark ∧
      vals = server.snapshot (server.storeAt routes init log mark) p.route.sigs
  | .built d mark => p.Sampled log mark ∧ p.Shows server routes init log d mark
  | .ended _ => True

structure PublisherThread.Ok (log : List Job) (p : PublisherThread) : Prop where
  ordered : (p.sent.map Prod.snd).Pairwise (· ≤ ·)
  sent : ∀ d ∈ p.sent, d.2 ≤ log.length ∧ p.Shows server routes init log d.1 d.2
  point : p.PointOk server routes init log

def Thread.Ok (log : List Job) : Thread → Prop
  | .handler t => t.Ok server routes init log
  | .publisher p => p.Ok server routes init log

variable {server routes init} {log : List Job} {job : Job} {mark : Nat}

theorem Server.storeAt_append (h : mark ≤ log.length) (job : Job) :
    server.storeAt routes init (log ++ [job]) mark = server.storeAt routes init log mark := by
  rw [storeAt, List.take_append_of_le_length h, storeAt]

theorem Server.storeAt_length (log : List Job) :
    server.storeAt routes init log log.length = (server.threads routes).replay init log := by
  rw [storeAt, List.take_length]

theorem Job.Wrote.le_length (h : job.Wrote log mark) : mark ≤ log.length := by
  obtain ⟨n, rfl, hget⟩ := h
  exact (List.getElem?_eq_some_iff.1 hget).1

theorem Job.Wrote.append (h : job.Wrote log mark) (job' : Job) : job.Wrote (log ++ [job']) mark := by
  obtain ⟨n, rfl, hget⟩ := h
  exact ⟨n, rfl, by rw [List.getElem?_append_left (List.getElem?_eq_some_iff.1 hget).1, hget]⟩

theorem Job.wrote_concat (log : List Job) (job : Job) : job.Wrote (log ++ [job]) (log.length + 1) :=
  ⟨log.length, rfl, List.getElem?_concat_length⟩

theorem RoutesOk.accepts_of_decodes (hok : RoutesOk routes) (h : job.Decodes routes) :
    ∃ core, Accepts routes job.hdr job.pl job.route core ∧ decode job.route.sigs core = .ok job.values := by
  obtain ⟨core, hr, hdec⟩ := h
  have hvalid := hok.sigs_valid hr.get?_eq
  refine ⟨core, ⟨hr, _, encodedSize_eq hvalid, ?_⟩, hdec⟩
  rw [decode_eq hvalid] at hdec
  by_contra hlen
  rw [if_neg hlen] at hdec
  cases hdec

/-! ### Taking a message up -/

/-- What a handler has come to by serving one message. -/
structure HandlerThread.Serves (t : HandlerThread) (r : Served σ) (s : σ) (t' : HandlerThread) :
    Prop where
  state : s = r.state
  sock : t'.sock = t.sock
  sent : t'.sent = t.sent ++ r.sent
  point : t'.point = match r.raised with
    | none => .waiting
    | some e => .ended (some e)

/-- What serving a decoded request does. -/
def Job.served (server : Server σ) (s : σ) (job : Job) : Served σ :=
  let s := server.write s job.values
  match response job.route job.hdr (server.reply s job.route.sigs job.values) with
  | .error e => ⟨s, [], some e⟩
  | .ok rsp => ⟨s, [rsp], none⟩

/-- Taking a message up is all there is to serving it, or comes to an accepted request. -/
theorem HandlerThread.take_cases (server : Server σ) (routes : Routes) (t : HandlerThread) (hdr : SomeIpHeader)
    (pl : Bytes) :
    ((t.take routes hdr pl).answers = t.answers ∧
      ∀ s, t.Serves (handleFrame server.toStore routes s hdr pl) s (t.take routes hdr pl)) ∨
    ∃ job, job.Decodes routes ∧ t.take routes hdr pl = { t with point := .decoded job } ∧
      ∀ s, handleFrame server.toStore routes s hdr pl = job.served server s := by
  unfold HandlerThread.take handleFrame
  split_ifs with hreq
  · exact .inl ⟨rfl, fun s => ⟨rfl, rfl, (List.append_nil _).symm, rfl⟩⟩
  · cases hroute : routes.get? (hdr.serviceId, hdr.methodId) with
    | none => exact .inl ⟨rfl, fun s => ⟨rfl, rfl, rfl, rfl⟩⟩
    | some route =>
      dsimp only
      rcases hcore : coreOf route.msg hdr pl with e | _ | core
      · exact .inl ⟨rfl, fun s => ⟨rfl, rfl, (List.append_nil _).symm, rfl⟩⟩
      · exact .inl ⟨rfl, fun s => ⟨rfl, rfl, (List.append_nil _).symm, rfl⟩⟩
      · have hr : Requests routes hdr pl route core := ⟨not_not.1 hreq, hroute, coreOf_eq_some.1 hcore⟩
        dsimp only
        unfold serveRequest
        cases hdec : decode route.sigs core with
        | error e => exact .inl ⟨rfl, fun s => ⟨rfl, rfl, (List.append_nil _).symm, rfl⟩⟩
        | ok values => exact .inr ⟨⟨route, hdr, pl, values⟩, ⟨core, hr, hdec⟩, rfl, fun s => rfl⟩

theorem HandlerThread.Serves.point_ok {t t' : HandlerThread} {r : Served σ} {s : σ} (h : t.Serves r s t') :
    t'.point.Ok server routes init log := by
  rw [h.point]
  cases r.raised with
  | none => trivial
  | some e => trivial

/-! ### Updates of other threads -/

theorem HandlerPoint.Ok.append {point : HandlerPoint} (h : point.Ok server routes init log) (job' : Job) :
    point.Ok server routes init (log ++ [job']) := by
  cases point with
  | waiting => trivial
  | received hdr pl => trivial
  | decoded job => exact h
  | written job mark => exact ⟨h.1, h.2.append job'⟩
  | replying job mark now vals =>
    obtain ⟨hdec, hwrote, hle, hnow, hvals⟩ := h
    refine ⟨hdec, hwrote.append job', hle, ?_, ?_⟩
    · rw [List.length_append]
      omega
    · rw [Server.storeAt_append hnow]
      exact hvals
  | ended raised => trivial

theorem HandlerThread.Ok.append {t : HandlerThread} (h : t.Ok server routes init log) (job' : Job) :
    t.Ok server routes init (log ++ [job']) :=
  ⟨h.answers, h.point.append job'⟩

namespace PublisherThread

variable {p : PublisherThread}

theorem Sampled.append (h : p.Sampled log mark) (job' : Job) : p.Sampled (log ++ [job']) mark := by
  refine ⟨?_, h.le_mark⟩
  rw [List.length_append]
  exact Nat.le_add_right_of_le h.le_length

theorem Shows.append {d : Bytes} (hle : mark ≤ log.length) (h : p.Shows server routes init log d mark)
    (job' : Job) : p.Shows server routes init (log ++ [job']) d mark := by
  rw [Shows, Server.storeAt_append hle]
  exact h

theorem PointOk.append (h : p.PointOk server routes init log) (job' : Job) :
    p.PointOk server routes init (log ++ [job']) := by
  unfold PointOk at h ⊢
  cases hpoint : p.point with
  | waiting => trivial
  | sampled vals mark =>
    rw [hpoint] at h
    refine ⟨h.1.append job', ?_⟩
    rw [Server.storeAt_append h.1.le_length]
    exact h.2
  | counted vals mark =>
    rw [hpoint] at h
    refine ⟨h.1.append job', ?_⟩
    rw [Server.storeAt_append h.1.le_length]
    exact h.2
  | built d mark =>
    rw [hpoint] at h
    exact ⟨h.1.append job', h.2.append h.1.le_length job'⟩
  | ended raised => trivial

theorem Ok.append (h : p.Ok server routes init log) (job' : Job) : p.Ok server routes init (log ++ [job']) := by
  refine ⟨h.ordered, fun d hd => ?_, h.point.append job'⟩
  obtain ⟨hle, hshows⟩ := h.sent d hd
  refine ⟨?_, hshows.append hle job'⟩
  rw [List.length_append]
  exact Nat.le_add_right_of_le hle

end PublisherThread

/-! ### Own steps -/

namespace HandlerThread

variable {t : HandlerThread}

theorem answers_take (routes : Routes) (t : HandlerThread) (hdr : SomeIpHeader) (pl : Bytes) :
    (t.take routes hdr pl).answers = t.answers := by
  rcases t.take_cases nodeServer routes hdr pl with ⟨hanswers, -⟩ | ⟨job, -, htake, -⟩
  · exact hanswers
  · rw [htake]

theorem Ok.take (h : t.Ok server routes init log) (hdr : SomeIpHeader) (pl : Bytes) :
    (t.take routes hdr pl).Ok server routes init log := by
  refine ⟨by rw [answers_take]; exact h.answers, ?_⟩
  rcases t.take_cases server routes hdr pl with ⟨-, hserves⟩ | ⟨job, hjob, htake, -⟩
  · exact (hserves init).point_ok
  · rw [htake]
    exact hjob

theorem Ok.step (h : t.Ok server routes init log) :
    (t.step server routes log.length ((server.threads routes).replay init log)).Ok server routes init
      (log ++ t.writes.toList) := by
  have hpoint := h.point
  cases ht : t.point with
  | waiting =>
    simp only [HandlerThread.step, writes, ht, Option.toList_none, List.append_nil]
    split
    · exact ⟨h.answers, trivial⟩
    · exact ⟨h.answers, trivial⟩
    · exact ⟨h.answers, trivial⟩
  | received hdr pl =>
    simp only [HandlerThread.step, writes, ht, Option.toList_none, List.append_nil]
    exact h.take hdr pl
  | decoded job =>
    rw [ht] at hpoint
    simp only [HandlerThread.step, writes, ht, Option.toList_some]
    exact ⟨h.answers, hpoint, Job.wrote_concat log job⟩
  | written job mark =>
    rw [ht] at hpoint
    obtain ⟨hdec, hwrote⟩ := hpoint
    simp only [HandlerThread.step, writes, ht, Option.toList_none, List.append_nil]
    refine ⟨h.answers, hdec, hwrote, hwrote.le_length, le_rfl, ?_⟩
    rw [Server.storeAt_length]
  | replying job mark now vals =>
    rw [ht] at hpoint
    simp only [HandlerThread.step, writes, ht, Option.toList_none, List.append_nil]
    cases response job.route job.hdr vals with
    | error e => exact ⟨h.answers, trivial⟩
    | ok rsp =>
      refine ⟨fun a ha => ?_, trivial⟩
      rcases List.mem_append.1 ha with ha | ha
      · exact h.answers a ha
      · rw [List.mem_singleton.1 ha]
        exact hpoint.1
  | ended raised =>
    simp only [HandlerThread.step, writes, ht, Option.toList_none, List.append_nil]
    exact h

end HandlerThread

theorem PublisherThread.Ok.step {p : PublisherThread} (h : p.Ok server routes init log) :
    (p.step server log.length ((server.threads routes).replay init log)).Ok server routes init log := by
  have hpoint := h.point
  unfold PointOk at hpoint
  cases hp : p.point with
  | waiting =>
    simp only [PublisherThread.step, hp]
    refine ⟨h.ordered, h.sent, ⟨le_rfl, fun d hd => (h.sent d hd).1⟩, ?_⟩
    rw [Server.storeAt_length]
  | sampled vals mark =>
    rw [hp] at hpoint
    simp only [PublisherThread.step, hp]
    exact ⟨h.ordered, h.sent, ⟨hpoint.1.le_length, hpoint.1.le_mark⟩, hpoint.2⟩
  | counted vals mark =>
    rw [hp] at hpoint
    obtain ⟨hsampled, hvals⟩ := hpoint
    simp only [PublisherThread.step, hp]
    cases hd : eventDatagram p.route p.seq vals with
    | error e => exact ⟨h.ordered, h.sent, trivial⟩
    | ok d =>
      refine ⟨h.ordered, h.sent, ⟨hsampled.le_length, hsampled.le_mark⟩, p.seq, ?_⟩
      rw [← hvals]
      exact hd
  | built d mark =>
    rw [hp] at hpoint
    obtain ⟨hsampled, hshows⟩ := hpoint
    simp only [PublisherThread.step, hp]
    refine ⟨?_, fun e he => ?_, trivial⟩
    · rw [List.map_append, List.pairwise_append]
      refine ⟨h.ordered, List.pairwise_singleton .., fun a ha b hb => ?_⟩
      obtain ⟨e, he, rfl⟩ := List.mem_map.1 ha
      rw [List.mem_singleton.1 hb]
      exact hsampled.le_mark e he
    · rcases List.mem_append.1 he with he | he
      · exact h.sent e he
      · rw [List.mem_singleton.1 he]
        exact ⟨hsampled.le_length, hshows⟩
  | ended raised =>
    simp only [PublisherThread.step, hp]
    exact h

/-! ### All threads -/

variable (server routes init)

theorem Thread.ok_inductive : (server.threads routes).Inductive init (Thread.Ok server routes init) := by
  refine ⟨fun log job th h => ?_, fun log th h => ?_⟩
  · cases th with
    | handler t => exact HandlerThread.Ok.append h job
    | publisher p => exact PublisherThread.Ok.append h job
  · cases th with
    | handler t => exact HandlerThread.Ok.step h
    | publisher p =>
      show Thread.Ok server routes init (log ++ []) _
      rw [List.append_nil]
      exact PublisherThread.Ok.step h

theorem Thread.decodes_of_act {log : List Job} {th : Thread} (h : th.Ok server routes init log) {now : Nat}
    {store : σ} {job : Job} (hact : ((server.threads routes).act now store th).2 = some job) :
    job.Decodes routes := by
  cases th with
  | handler t =>
    have hwrites : t.writes = some job := hact
    have hpoint := HandlerThread.Ok.point h
    cases ht : t.point with
    | decoded job' =>
      rw [ht] at hpoint
      rw [HandlerThread.writes, ht] at hwrites
      cases hwrites
      exact hpoint
    | _ =>
      rw [HandlerThread.writes, ht] at hwrites
      cases hwrites
  | publisher p => cases hact

theorem Thread.New.ok {events : UdpEvents} {th : Thread} (h : th.New events) : th.Ok server routes init [] := by
  cases h with
  | handler sock => exact ⟨fun a ha => (by cases ha), trivial⟩
  | publisher hroute => exact ⟨.nil, fun d hd => (by cases hd), trivial⟩

end

/-! ### A handler that nobody interrupts -/

/-- What a handler has come to by a turn of its loop. -/
def HandlerThread.Turns {σ : Type} (s : σ) (t : HandlerThread) : Turn (Conn σ) (Ended σ) → Prop
  | .again c => s = c.state ∧ t.sock = c.sock ∧ t.sent = c.sent ∧ t.point = .waiting
  | .leave e => s = e.state ∧ t.sent = e.sent ∧ t.point = .ended e.raised

section
variable {σ ι : Type} [DecidableEq ι] {server : Server σ} {routes : Routes} {w : World σ Job Thread ι} {i : ι}
  {t : HandlerThread}

variable (server routes) in
theorem step_handler (hw : w.threads i = .handler t) :
    ((server.threads routes).step w i).store = (server.threads routes).replay w.store t.writes.toList ∧
      ((server.threads routes).step w i).threads i = .handler (t.step server routes w.log.length w.store) :=
  Threads.step_of_act (by rw [hw]; rfl)

variable (server routes) in
theorem alone_replying {job : Job} {mark now : Nat} {vals : Dict String ℚ} (hw : w.threads i = .handler t)
    (ht : t.point = .replying job mark now vals) :
    ∃ t', (server.threads routes).Alone w i w.store (.handler t') ∧
      t.Serves (match response job.route job.hdr vals with
        | .error e => ⟨w.store, [], some e⟩
        | .ok rsp => ⟨w.store, [rsp], none⟩) w.store t' := by
  obtain ⟨hs₁, hw₁⟩ := step_handler server routes hw
  refine ⟨_, .of_step (.refl (hs₁.trans ?_) hw₁), ?_⟩
  · simp only [HandlerThread.writes, ht]
    rfl
  · simp only [HandlerThread.step, ht]
    cases response job.route job.hdr vals with
    | error e => exact ⟨rfl, rfl, (List.append_nil _).symm, rfl⟩
    | ok rsp => exact ⟨rfl, rfl, rfl, rfl⟩

variable (server routes) in
theorem alone_decoded {job : Job} (hw : w.threads i = .handler t) (ht : t.point = .decoded job) :
    ∃ s t', (server.threads routes).Alone w i s (.handler t') ∧ t.Serves (job.served server w.store) s t' := by
  obtain ⟨hs₁, hw₁⟩ := step_handler server routes hw
  simp only [HandlerThread.step, HandlerThread.writes, ht] at hs₁ hw₁
  set w₁ := (server.threads routes).step w i
  obtain ⟨hs₂, hw₂⟩ := step_handler server routes hw₁
  simp only [HandlerThread.step, HandlerThread.writes] at hs₂ hw₂
  set w₂ := (server.threads routes).step w₁ i
  have hstore₁ : w₁.store = server.write w.store job.values := hs₁
  have hstore₂ : w₂.store = server.write w.store job.values := hs₂.trans hs₁
  rw [hstore₁] at hw₂
  obtain ⟨t', halone, hserves⟩ := alone_replying server routes hw₂ rfl
  refine ⟨w₂.store, t', halone.of_step.of_step, ?_⟩
  rw [hstore₂] at hserves ⊢
  exact ⟨hserves.state, hserves.sock, hserves.sent, hserves.point⟩

variable (server routes) in
theorem alone_received {hdr : SomeIpHeader} {pl : Bytes} (hw : w.threads i = .handler t)
    (ht : t.point = .received hdr pl) : ∃ s t', (server.threads routes).Alone w i s (.handler t') ∧
      t.Serves (handleFrame server.toStore routes w.store hdr pl) s t' := by
  obtain ⟨hs₁, hw₁⟩ := step_handler server routes hw
  simp only [HandlerThread.step, HandlerThread.writes, ht] at hs₁ hw₁
  rcases t.take_cases server routes hdr pl with ⟨-, hserves⟩ | ⟨job, -, htake, hserved⟩
  · exact ⟨_, _, .of_step (.refl hs₁ hw₁), hserves w.store⟩
  · rw [htake] at hw₁
    have hstore : ((server.threads routes).step w i).store = w.store := hs₁
    obtain ⟨s, t', halone, hserves⟩ := alone_decoded server routes hw₁ rfl
    rw [hstore, ← hserved] at hserves
    exact ⟨s, t', halone.of_step, hserves.state, hserves.sock, hserves.sent, hserves.point⟩

variable (server routes) in
/-- A handler that nobody interrupts makes a turn of `handlerLoop`. -/
theorem handler_turn (hw : w.threads i = .handler t) (ht : t.point = .waiting) :
    ∃ s t', (server.threads routes).Alone w i s (.handler t') ∧
      t'.Turns s (handlerStep server.toStore routes ⟨t.sock, w.store, t.sent⟩) := by
  obtain ⟨hs₁, hw₁⟩ := step_handler server routes hw
  simp only [HandlerThread.step, HandlerThread.writes, ht] at hs₁ hw₁
  rcases hr : recvSomeip maxPayload t.sock with ⟨e | ⟨hdr, pl⟩, sock⟩
  · rw [hr] at hw₁
    refine ⟨_, _, .of_step (.refl hs₁ hw₁), ?_⟩
    rw [handlerStep, hr]
    cases e with
    | connectionError msg => exact ⟨rfl, rfl, rfl⟩
    | _ => exact ⟨rfl, rfl, rfl, rfl⟩
  · rw [hr] at hw₁
    have hstore : ((server.threads routes).step w i).store = w.store := hs₁
    obtain ⟨s, t', halone, hserves⟩ := alone_received server routes hw₁ rfl
    rw [hstore] at hserves
    refine ⟨s, t', halone.of_step, ?_⟩
    rw [handlerStep, hr]
    dsimp only
    cases hraised : (handleFrame server.toStore routes w.store hdr pl).raised with
    | none => exact ⟨hserves.state, hserves.sock, hserves.sent, by rw [hserves.point, hraised]⟩
    | some e => exact ⟨hserves.state, hserves.sent, by rw [hserves.point, hraised]⟩

variable (server routes) in
theorem step_publisher {p : PublisherThread} (hw : w.threads i = .publisher p) :
    ((server.threads routes).step w i).store = w.store ∧
      ((server.threads routes).step w i).threads i = .publisher (p.step server w.log.length w.store) :=
  Threads.step_of_act (u := none) (by rw [hw]; rfl)

variable (server routes) in
/-- A publisher that nobody interrupts makes a tick of `publish`. -/
theorem publisher_tick {p : PublisherThread} (hw : w.threads i = .publisher p) (hp : p.point = .waiting)
    {d : Bytes} (hd : eventDatagram p.route (nextSeq p.seq) (server.snapshot w.store p.route.sigs) = .ok d) :
    (server.threads routes).Alone w i w.store
      (.publisher ⟨p.route, nextSeq p.seq, .waiting, p.sent ++ [(d, w.log.length)]⟩) := by
  obtain ⟨hs₁, hw₁⟩ := step_publisher server routes hw
  simp only [PublisherThread.step, hp] at hw₁
  obtain ⟨hs₂, hw₂⟩ := step_publisher server routes hw₁
  simp only [PublisherThread.step] at hw₂
  obtain ⟨hs₃, hw₃⟩ := step_publisher server routes hw₂
  simp only [PublisherThread.step, hd] at hw₃
  obtain ⟨hs₄, hw₄⟩ := step_publisher server routes hw₃
  simp only [PublisherThread.step] at hw₄
  refine (Threads.Alone.refl ?_ hw₄).of_step.of_step.of_step.of_step
  rw [hs₄, hs₃, hs₂, hs₁]

end

end AutoEth
