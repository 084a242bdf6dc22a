import AutoEth.ServerThreads

/-!
# Runs of a server

What each thread of a server can rely on, whichever thread makes the next step (`ServerThread.ok_inductive`):
a publisher that was started has the ticks that `TickThread.Works` says, listener and announcer look at the
stop event before each lap, and a handler writes accepted requests only. Two results follow for every run:
the table of the publishers lists exactly those that run (`publishers_listed`), and a stop event lets the lap
that has begun go through, and no other (`stops_after_lap`).
-/

namespace AutoEth

variable {σ : Type} {P : ServerProgram σ} {init : ServerContext σ} {log : List Update} {u : Update}
  {c : ServerContext σ} {i n k : Nat}

/-! ### Updates -/

theorem ServerProgram.apply_toggled (P : ServerProgram σ) (c : ServerContext σ) (name : String) :
    ∃ threads publishers, P.apply c (.toggled name) = { c with threads, publishers } := by
  rw [apply]
  cases htoggle : c.toggleEvent P.events name with
  | error e => exact ⟨c.threads, c.publishers, rfl⟩
  | ok r =>
    rcases ServerContext.toggleEvent_eq_ok.1 htoggle with ⟨i, -, hr, -⟩ | ⟨-, route, pub, -, -, hr, -⟩
    · exact ⟨_, _, hr⟩
    · exact ⟨_, _, hr⟩

/-- An update leaves the started publishers in their places, and stops them at most. -/
theorem ServerProgram.threads_apply {p : Publishing} (h : c.threads[i]? = some p) (u : Update) :
    ∃ stop, (P.apply c u).threads[i]? = some ⟨p.pub, stop⟩ ∧ (p.stop = true → stop = true) := by
  have hsame : ∃ stop, c.threads[i]? = some ⟨p.pub, stop⟩ ∧ (p.stop = true → stop = true) :=
    ⟨p.stop, h, id⟩
  cases u with
  | toggled name =>
    rw [apply]
    cases htoggle : c.toggleEvent P.events name with
    | error e => exact hsame
    | ok r =>
      rcases ServerContext.toggleEvent_eq_ok.1 htoggle with ⟨j, -, hr, -⟩ | ⟨-, route, pub, -, -, hr, -⟩
      · dsimp only
        rw [hr, ServerContext.getElem?_stopPublisher, h, Option.map_some]
        split_ifs
        · exact ⟨true, rfl, fun _ => rfl⟩
        · exact ⟨p.stop, rfl, id⟩
      · dsimp only
        rw [hr]
        refine ⟨p.stop, ?_, id⟩
        exact (List.getElem?_append_left (List.getElem?_eq_some_iff.1 h).1).trans h
  | wrote job => exact hsame
  | heard e => exact hsame
  | stopped => exact hsame

theorem ServerContext.Ok.apply (hnamed : UdpEvents.Named P.events) (h : c.Ok P.events) (u : Update) :
    (P.apply c u).Ok P.events := by
  cases u with
  | toggled name =>
    rw [ServerProgram.apply]
    cases htoggle : c.toggleEvent P.events name with
    | error e => exact h
    | ok r => exact h.toggleEvent hnamed (b := r.2) htoggle
  | wrote job => exact ⟨h.listed, h.thread⟩
  | heard e => exact ⟨h.listed, h.thread⟩
  | stopped => exact ⟨h.listed, h.thread⟩

theorem ServerProgram.ok_replay (hnamed : UdpEvents.Named P.events) (h : init.Ok P.events) (log : List Update) :
    (P.threads.replay init log).Ok P.events :=
  Run.foldl_inv (fun _ ht hpre => Run.post_eq ht ▸ hpre.apply hnamed _) h

/-! ### What a publisher can rely on -/

section
variable (P init log)

/-- The publisher of this number has been started. -/
def Started (i : Nat) (pub : UdpPublisher) : Prop :=
  ∃ stop, (P.threads.replay init log).threads[i]? = some ⟨pub, stop⟩

/-- The stop event of the publisher is set after `k` updates. -/
def StoppedAt (i k : Nat) : Prop :=
  ∃ p, (P.threads.storeAt init log k).threads[i]? = some p ∧ p.stop = true

/-- The stop event of announcer and listener is set after `k` updates. -/
def ShutAt (k : Nat) : Prop := (P.threads.storeAt init log k).stopEvt = true

/-- A snapshot for the publisher, taken after `sampled` updates. -/
structure Samples (pub : UdpPublisher) (began sampled : Nat) (vals : Dict String ℚ) : Prop where
  began_le : began ≤ sampled
  le_length : sampled ≤ log.length
  vals_eq : vals = P.server.snapshot (P.threads.storeAt init log sampled).database pub.route.sigs

/-- Destinations for the publisher, asked for after `looked` updates. -/
structure Looks (pub : UdpPublisher) (sampled looked : Nat) (dests : Finset Endpoint) : Prop where
  sampled_le : sampled ≤ looked
  le_length : looked ≤ log.length
  dests_eq : pub.dests (P.threads.storeAt init log looked).listener.registry = .ok dests

/-- The sequence number after `n` ticks. -/
def seqAfter (n : Nat) : Int := (n : Int) % 2 ^ 16

/-- What the publisher's tick number `n + 1` has read and sent. -/
structure Tick.Ok (pub : UdpPublisher) (n : Nat) (tick : Tick) : Prop where
  samples : Samples P init log pub tick.lap.began tick.sampled tick.vals
  data_eq : eventDatagram pub.route (seqAfter (n + 1)) tick.vals = .ok tick.data
  looks : Looks P init log pub tick.sampled tick.looked tick.dests
  ports : ∀ ep ∈ tick.dests, FitsBits 16 ep.2
  looked_le : tick.looked ≤ tick.lap.ended
  le_length : tick.lap.ended ≤ log.length

/-- The beginning of the tick that a publisher is in. -/
def TickPoint.began? : TickPoint → Option Nat
  | .looking => none
  | .due began => some began
  | .sampled began _ _ => some began
  | .built began _ _ _ => some began
  | .sending began _ _ _ _ _ => some began
  | .ended _ => none

def TickThread.PointOk (pub : UdpPublisher) (t : TickThread) : Prop :=
  match t.point with
  | .looking => t.seq = seqAfter t.ticks.length
  | .due _ => t.seq = seqAfter t.ticks.length
  | .sampled began sampled vals => t.seq = seqAfter t.ticks.length ∧ Samples P init log pub began sampled vals
  | .built began sampled vals data => t.seq = seqAfter (t.ticks.length + 1) ∧
      Samples P init log pub began sampled vals ∧ eventDatagram pub.route t.seq vals = .ok data
  | .sending began sampled vals data looked dests => t.seq = seqAfter (t.ticks.length + 1) ∧
      Samples P init log pub began sampled vals ∧ eventDatagram pub.route t.seq vals = .ok data ∧
      Looks P init log pub sampled looked dests
  | .ended _ => True

/-- What holds of a publisher that was started. -/
structure TickThread.Works (t : TickThread) (pub : UdpPublisher) : Prop where
  started : Started P init log t.number pub
  ticks : ∀ n (tick : Tick), t.ticks[n]? = some tick → tick.Ok P init log pub n
  laps : InLap (StoppedAt P init log t.number) log.length (t.ticks.map Tick.lap) t.point.began?
  point : t.PointOk P init log pub

def TickThread.Ok (t : TickThread) : Prop := t = .fresh t.number ∨ ∃ pub, t.Works P init log pub

end

/-! ### Updates of other threads -/

theorem stoppedAt_mono {k' : Nat} (hle : k ≤ k') (h : StoppedAt P init log i k) : StoppedAt P init log i k' := by
  refine Threads.storeAt_mono (Q := fun c : ServerContext σ => ∃ p, c.threads[i]? = some p ∧ p.stop = true)
    (fun c u hc => ?_) hle h
  obtain ⟨p, hp, hstop⟩ := hc
  obtain ⟨stop, hp', hkeep⟩ := ServerProgram.threads_apply (P := P) hp u
  exact ⟨_, hp', hkeep hstop⟩

theorem stoppedAt_append (h : k ≤ log.length) (u : Update) :
    StoppedAt P init (log ++ [u]) i k ↔ StoppedAt P init log i k := by
  rw [StoppedAt, Threads.storeAt_append h, StoppedAt]

theorem shutAt_mono {k' : Nat} (hle : k ≤ k') (h : ShutAt P init log k) : ShutAt P init log k' := by
  refine Threads.storeAt_mono (Q := fun c : ServerContext σ => c.stopEvt = true) (fun c u hc => ?_) hle h
  cases u with
  | toggled name =>
    obtain ⟨threads, publishers, happly⟩ := P.apply_toggled c name
    show (P.apply c _).stopEvt = true
    rw [happly]
    exact hc
  | wrote job => exact hc
  | heard e => exact hc
  | stopped => rfl

theorem shutAt_append (h : k ≤ log.length) (u : Update) :
    ShutAt P init (log ++ [u]) k ↔ ShutAt P init log k := by
  rw [ShutAt, Threads.storeAt_append h, ShutAt]

theorem Started.append {pub : UdpPublisher} (h : Started P init log i pub) (u : Update) :
    Started P init (log ++ [u]) i pub := by
  obtain ⟨stop, hp⟩ := h
  obtain ⟨stop', hp', -⟩ := ServerProgram.threads_apply (P := P) hp u
  exact ⟨stop', by rw [Threads.replay_append]; exact hp'⟩

theorem Samples.append {pub : UdpPublisher} {began sampled : Nat} {vals : Dict String ℚ}
    (h : Samples P init log pub began sampled vals) (u : Update) :
    Samples P init (log ++ [u]) pub began sampled vals := by
  refine ⟨h.began_le, ?_, ?_⟩
  · rw [List.length_append]
    exact Nat.le_add_right_of_le h.le_length
  · rw [Threads.storeAt_append h.le_length]
    exact h.vals_eq

theorem Looks.append {pub : UdpPublisher} {sampled looked : Nat} {dests : Finset Endpoint}
    (h : Looks P init log pub sampled looked dests) (u : Update) :
    Looks P init (log ++ [u]) pub sampled looked dests := by
  refine ⟨h.sampled_le, ?_, ?_⟩
  · rw [List.length_append]
    exact Nat.le_add_right_of_le h.le_length
  · rw [Threads.storeAt_append h.le_length]
    exact h.dests_eq

theorem Tick.Ok.append {pub : UdpPublisher} {tick : Tick} (h : tick.Ok P init log pub n) (u : Update) :
    tick.Ok P init (log ++ [u]) pub n := by
  refine ⟨h.samples.append u, h.data_eq, h.looks.append u, h.ports, h.looked_le, ?_⟩
  rw [List.length_append]
  exact Nat.le_add_right_of_le h.le_length

theorem length_le_append (log : List Update) (u : Update) : log.length ≤ (log ++ [u]).length := by
  rw [List.length_append]
  exact Nat.le_add_right ..

namespace TickThread

variable {t : TickThread} {pub : UdpPublisher}

theorem PointOk.append (h : t.PointOk P init log pub) (u : Update) : t.PointOk P init (log ++ [u]) pub := by
  unfold PointOk at h ⊢
  cases hpoint : t.point with
  | looking =>
    rw [hpoint] at h
    exact h
  | due began =>
    rw [hpoint] at h
    exact h
  | sampled began sampled vals =>
    rw [hpoint] at h
    obtain ⟨hseq, hsamples⟩ := h
    exact ⟨hseq, hsamples.append u⟩
  | built began sampled vals data =>
    rw [hpoint] at h
    obtain ⟨hseq, hsamples, hdata⟩ := h
    exact ⟨hseq, hsamples.append u, hdata⟩
  | sending began sampled vals data looked dests =>
    rw [hpoint] at h
    obtain ⟨hseq, hsamples, hdata, hlooks⟩ := h
    exact ⟨hseq, hsamples.append u, hdata, hlooks.append u⟩
  | ended raised => trivial

theorem Works.append (h : t.Works P init log pub) (u : Update) : t.Works P init (log ++ [u]) pub :=
  ⟨h.started.append u, fun n tick hn => (h.ticks n tick hn).append u,
    h.laps.later (length_le_append log u) fun _ hk => stoppedAt_append hk u, h.point.append u⟩

theorem Ok.append (h : t.Ok P init log) (u : Update) : t.Ok P init (log ++ [u]) := by
  rcases h with hfresh | ⟨pub, hworks⟩
  · exact .inl hfresh
  · exact .inr ⟨pub, hworks.append u⟩

/-! ### Own steps -/

theorem nextSeq_seqAfter (n : Nat) : nextSeq (seqAfter n) = seqAfter (n + 1) := by
  unfold nextSeq seqAfter
  omega

theorem works_fresh (h : Started P init log i pub) : (fresh i).Works P init log pub := by
  refine ⟨h, fun n tick hn => ?_, .start _ _, rfl⟩
  cases hn

theorem Works.at (h : t.Works P init log pub) {seq : Int} {point : TickPoint}
    (hlaps : InLap (StoppedAt P init log t.number) log.length (t.ticks.map Tick.lap) point.began?)
    (hpoint : ({ t with seq, point } : TickThread).PointOk P init log pub) :
    ({ t with seq, point } : TickThread).Works P init log pub :=
  ⟨h.started, h.ticks, hlaps, hpoint⟩

theorem Works.concat (h : t.Works P init log pub) {tick : Tick}
    (hbegun : t.point.began? = some tick.lap.began) (hended : tick.lap.ended = log.length)
    (htick : tick.Ok P init log pub t.ticks.length) (hseq : t.seq = seqAfter (t.ticks.length + 1)) :
    ({ t with point := .looking, ticks := t.ticks ++ [tick] } : TickThread).Works P init log pub := by
  refine ⟨h.started, fun n tick' hn => ?_, ?_, ?_⟩
  · rcases Nat.lt_or_ge n t.ticks.length with hlt | hge
    · exact h.ticks n tick' (by rwa [List.getElem?_append_left hlt] at hn)
    · rw [List.getElem?_append_right hge, List.getElem?_singleton] at hn
      split_ifs at hn with hzero
      cases hn
      obtain rfl : n = t.ticks.length := by omega
      exact htick
  · have hlaps := h.laps
    rw [hbegun] at hlaps
    have hlap : tick.lap = ⟨tick.lap.began, log.length⟩ := by rw [← hended]
    rw [List.map_append, List.map_singleton, hlap]
    exact hlaps.finish
  · show t.seq = seqAfter (t.ticks ++ [tick]).length
    rw [List.length_append]
    exact hseq

/-- A step of a publisher that was started. -/
theorem Works.step (h : t.Works P init log pub) :
    (t.step P.server log.length (P.threads.replay init log)).Works P init log pub := by
  obtain ⟨stop, hp⟩ := h.started
  have hpoint := h.point
  have hlaps := h.laps
  unfold PointOk at hpoint
  unfold TickThread.step
  rw [hp]
  cases ht : t.point with
  | looking =>
    rw [ht] at hpoint
    dsimp only
    cases stop with
    | true => exact h.at hlaps.leave trivial
    | false =>
      refine h.at (hlaps.look ?_) hpoint
      rintro ⟨p, hp', hstop⟩
      rw [Threads.storeAt_length, hp] at hp'
      cases hp'
      cases hstop
  | due began =>
    rw [ht] at hpoint hlaps
    refine h.at hlaps ⟨hpoint, hlaps.begun_le began rfl, le_rfl, ?_⟩
    rw [Threads.storeAt_length]
  | sampled began sampled vals =>
    rw [ht] at hpoint hlaps
    obtain ⟨hseq, hsamples⟩ := hpoint
    dsimp only
    cases hdata : eventDatagram pub.route (nextSeq t.seq) vals with
    | error e => exact h.at hlaps.leave trivial
    | ok data =>
      refine h.at hlaps ⟨?_, hsamples, hdata⟩
      show nextSeq t.seq = _
      rw [hseq, nextSeq_seqAfter]
  | built began sampled vals data =>
    rw [ht] at hpoint hlaps
    obtain ⟨hseq, hsamples, hdata⟩ := hpoint
    dsimp only
    cases hdests : pub.dests (P.threads.replay init log).listener.registry with
    | error e => exact h.at hlaps.leave trivial
    | ok dests =>
      refine h.at hlaps ⟨hseq, hsamples, hdata, hsamples.le_length, le_rfl, ?_⟩
      rw [Threads.storeAt_length]
      exact hdests
  | sending began sampled vals data looked dests =>
    rw [ht] at hpoint
    obtain ⟨hseq, hsamples, hdata, hlooks⟩ := hpoint
    rw [hseq] at hdata
    dsimp only
    split_ifs with hports
    · exact h.concat (by rw [ht]; rfl) rfl ⟨hsamples, hdata, hlooks, hports, hlooks.le_length, le_rfl⟩ hseq
    · exact h.at hlaps.leave trivial
  | ended raised =>
    dsimp only
    exact h

theorem Ok.step (h : t.Ok P init log) : (t.step P.server log.length (P.threads.replay init log)).Ok P init log := by
  rcases h with hfresh | ⟨pub, hworks⟩
  · cases hp : (P.threads.replay init log).threads[t.number]? with
    | none =>
      refine .inl ?_
      unfold TickThread.step
      rw [hp]
      exact hfresh
    | some p =>
      rw [hfresh]
      exact .inr ⟨p.pub, (works_fresh ⟨p.stop, hp⟩).step⟩
  · exact .inr ⟨pub, hworks.step⟩

end TickThread

/-! ### The other threads -/

/-- A request that the handler is about to write is one that it has decoded. -/
def HandlerThread.Serving (routes : Routes) (t : HandlerThread) : Prop :=
  ∀ job, t.point = .decoded job → job.Decodes routes

theorem HandlerThread.serving_step {τ : Type} (server : Server τ) (routes : Routes) (now : Nat) (store : τ)
    (t : HandlerThread) : (t.step server routes now store).Serving routes := by
  intro job hjob
  unfold HandlerThread.step at hjob
  cases ht : t.point with
  | waiting =>
    rw [ht] at hjob
    dsimp only at hjob
    split at hjob
    · cases hjob
    · cases hjob
    · cases hjob
  | received hdr pl =>
    rw [ht] at hjob
    rcases t.take_cases server routes hdr pl with ⟨-, hserves⟩ | ⟨job', hdec, htake, -⟩
    · have hpoint := (hserves store).point
      dsimp only at hjob
      rw [hjob] at hpoint
      split at hpoint
      · cases hpoint
      · cases hpoint
    · dsimp only at hjob
      rw [htake] at hjob
      cases hjob
      exact hdec
  | decoded job' =>
    rw [ht] at hjob
    cases hjob
  | written job' mark =>
    rw [ht] at hjob
    cases hjob
  | replying job' mark read vals =>
    rw [ht] at hjob
    dsimp only at hjob
    split at hjob
    · cases hjob
    · cases hjob
  | ended raised =>
    rw [ht] at hjob
    dsimp only at hjob
    rw [ht] at hjob
    cases hjob

def ListenerPoint.began? : ListenerPoint → Option Nat
  | .looking => none
  | .receiving began => some began
  | .handling began _ => some began
  | .ended => none

def AnnouncerPoint.began? : AnnouncerPoint → Option Nat
  | .looking => none
  | .announcing began => some began
  | .ended _ => none

section
variable (P init)

/-- What holds of a thread after the updates of a log. -/
def ServerThread.Ok (log : List Update) : ServerThread → Prop
  | .handler t => t.Serving P.routes
  | .user _ => True
  | .listener t => InLap (ShutAt P init log) log.length t.laps t.point.began?
  | .announcer t => InLap (ShutAt P init log) log.length (t.sent.map Prod.snd) t.point.began?
  | .publisher t => t.Ok P init log

theorem ServerThread.New.ok {th : ServerThread} (h : th.New) : th.Ok P init [] := by
  cases h with
  | handler sock =>
    intro job hjob
    cases hjob
  | user commands => trivial
  | listener arrivals => exact .start _ _
  | announcer announcer => exact .start _ _
  | publisher number => exact .inl rfl

end

theorem not_shutAt_length (h : ¬ (P.threads.replay init log).stopEvt = true) : ¬ ShutAt P init log log.length := by
  rw [ShutAt, Threads.storeAt_length]
  exact h

theorem ListenerThread.ok_step {t : ListenerThread}
    (h : InLap (ShutAt P init log) log.length t.laps t.point.began?) :
    InLap (ShutAt P init (log ++ (t.step log.length (P.threads.replay init log)).2.toList))
      (log ++ (t.step log.length (P.threads.replay init log)).2.toList).length
      (t.step log.length (P.threads.replay init log)).1.laps
      (t.step log.length (P.threads.replay init log)).1.point.began? := by
  cases ht : t.point with
  | looking =>
    simp only [ListenerThread.step, ht, Option.toList_none, List.append_nil]
    split_ifs with hshut
    · exact h.leave
    · exact h.look (not_shutAt_length hshut)
  | receiving began =>
    rw [ht] at h
    simp only [ListenerThread.step, ht]
    cases t.arrivals with
    | nil =>
      rw [Option.toList_none, List.append_nil]
      exact h.leave
    | cons d ds =>
      rw [Option.toList_none, List.append_nil]
      exact h
  | handling began entries =>
    rw [ht] at h
    cases entries with
    | nil =>
      simp only [ListenerThread.step, ht, Option.toList_none, List.append_nil]
      exact h.finish
    | cons e es =>
      simp only [ListenerThread.step, ht, Option.toList_some]
      exact h.later (length_le_append log _) fun _ hk => shutAt_append hk _
  | ended =>
    simp only [ListenerThread.step, ht, Option.toList_none, List.append_nil]
    exact h.leave

theorem AnnouncerThread.ok_step {t : AnnouncerThread}
    (h : InLap (ShutAt P init log) log.length (t.sent.map Prod.snd) t.point.began?) :
    let t' := t.step log.length (P.threads.replay init log)
    InLap (ShutAt P init log) log.length (t'.sent.map Prod.snd) t'.point.began? := by
  cases ht : t.point with
  | looking =>
    simp only [AnnouncerThread.step, ht]
    split_ifs with hshut
    · exact h.leave
    · exact h.look (not_shutAt_length hshut)
  | announcing began =>
    rw [ht] at h
    simp only [AnnouncerThread.step, ht]
    cases t.announcer.announce with
    | error e => exact h.leave
    | ok r =>
      dsimp only
      rw [List.map_append]
      exact h.finish
  | ended raised =>
    simp only [AnnouncerThread.step, ht]
    exact h.leave

variable (P init) in
theorem ServerThread.ok_inductive : P.threads.Inductive init (ServerThread.Ok P init) := by
  refine ⟨fun log u th h => ?_, fun log th h => ?_⟩
  · cases th with
    | handler t => exact h
    | user t => trivial
    | listener t => exact InLap.later h (length_le_append log u) fun _ hk => shutAt_append hk u
    | announcer t => exact InLap.later h (length_le_append log u) fun _ hk => shutAt_append hk u
    | publisher t => exact TickThread.Ok.append h u
  · cases th with
    | handler t =>
      show (t.step P.server P.routes _ _).Serving P.routes
      exact HandlerThread.serving_step P.server P.routes _ _ t
    | user t => trivial
    | listener t => exact ListenerThread.ok_step h
    | announcer t =>
      show ServerThread.Ok P init (log ++ []) _
      rw [List.append_nil]
      exact AnnouncerThread.ok_step h
    | publisher t =>
      show ServerThread.Ok P init (log ++ []) _
      rw [List.append_nil]
      exact TickThread.Ok.step h

/-- All that the terminal can do in a step. -/
theorem UserThread.step_cases (events : UdpEvents) (c : ServerContext σ) (t : UserThread) :
    (t.todo = [] ∧ t.commands = [] ∧ t.step events c = (t, none)) ∨
    (∃ cmd cmds, t.todo = [] ∧ t.commands = cmd :: cmds ∧
      t.step events c = (⟨cmds, cmd.todo events c, t.raised⟩, none)) ∨
    (∃ todo todos e, t.todo = todo :: todos ∧ todo.update events c = .error e ∧
      t.step events c = (⟨t.commands, [], t.raised ++ [e]⟩, none)) ∨
    ∃ todo todos u, t.todo = todo :: todos ∧ todo.update events c = .ok u ∧
      t.step events c = (⟨t.commands, todos, t.raised⟩, u) := by
  obtain ⟨commands, todo, raised⟩ := t
  unfold UserThread.step
  cases todo with
  | nil =>
    cases commands with
    | nil => exact .inl ⟨rfl, rfl, rfl⟩
    | cons cmd cmds => exact .inr (.inl ⟨cmd, cmds, rfl, rfl, rfl⟩)
  | cons todo todos =>
    cases hupdate : todo.update events c with
    | error e => exact .inr (.inr (.inl ⟨todo, todos, e, rfl, hupdate, by simp only [hupdate]⟩))
    | ok u => exact .inr (.inr (.inr ⟨todo, todos, u, rfl, hupdate, by simp only [hupdate]⟩))

theorem Todo.update_ok {events : UdpEvents} {todo : Todo} (h : todo.update events c = .ok (some u)) :
    (∃ name, u = .toggled name) ∨ u = .stopped := by
  cases todo with
  | toggle name =>
    obtain ⟨_, -, hu⟩ := Except.bind_eq_ok.1 h
    cases hu
    exact .inl ⟨name, rfl⟩
  | start name =>
    rw [Todo.update] at h
    split_ifs at h
    · cases h
    · obtain ⟨_, -, hu⟩ := Except.bind_eq_ok.1 h
      cases hu
      exact .inl ⟨name, rfl⟩
  | stop name =>
    rw [Todo.update] at h
    split_ifs at h
    cases h
    exact .inl ⟨name, rfl⟩
  | stopEvt =>
    cases h
    exact .inr rfl

theorem UserThread.update_step {events : UdpEvents} {t : UserThread} (h : (t.step events c).2 = some u) :
    (∃ name, u = .toggled name) ∨ u = .stopped := by
  rcases t.step_cases events c with ⟨-, -, hstep⟩ | ⟨cmd, cmds, -, -, hstep⟩ | ⟨todo, todos, e, -, -, hstep⟩ |
    ⟨todo, todos, u', -, hupdate, hstep⟩
  · rw [hstep] at h
    cases h
  · rw [hstep] at h
    cases h
  · rw [hstep] at h
    cases h
  · rw [hstep] at h
    obtain rfl : u' = some u := h
    exact Todo.update_ok hupdate

theorem ListenerThread.update_step {now : Nat} {t : ListenerThread} (h : (t.step now c).2 = some u) :
    ∃ e, u = .heard e := by
  unfold ListenerThread.step at h
  split at h
  · cases h
  · split at h
    · cases h
    · cases h
  · cases h
  · cases h
    exact ⟨_, rfl⟩
  · cases h

/-- What the threads write are accepted requests. -/
def Update.Ok (routes : Routes) : Update → Prop
  | .wrote job => job.Decodes routes
  | _ => True

theorem ServerThread.update_ok {th : ServerThread} (h : th.Ok P init log) {now : Nat}
    (hact : (P.threads.act now c th).2 = some u) : u.Ok P.routes := by
  cases u with
  | wrote job =>
    cases th with
    | handler t =>
      obtain ⟨job', hwrites, hjob⟩ := Option.map_eq_some_iff.1
        (show t.writes.map Update.wrote = some (.wrote job) from hact)
      cases hjob
      cases ht : t.point with
      | decoded job' =>
        rw [HandlerThread.writes, ht] at hwrites
        cases hwrites
        exact h job ht
      | _ =>
        rw [HandlerThread.writes, ht] at hwrites
        cases hwrites
    | user t =>
      rcases UserThread.update_step hact with ⟨name, hu⟩ | hu
      · cases hu
      · cases hu
    | listener t =>
      obtain ⟨e, he⟩ := ListenerThread.update_step hact
      cases he
    | announcer t => cases hact
    | publisher t => cases hact
  | heard e => trivial
  | toggled name => trivial
  | stopped => trivial

/-! ### Runs -/

theorem ServerProgram.ok_states (hnamed : UdpEvents.Named P.events) (h : init.Ok P.events) {ι : Type}
    [DecidableEq ι] (threads : ι → ServerThread) (schedule : List ι) :
    ∀ w ∈ Run.states P.threads.step (Threads.start init threads) schedule, w.store.Ok P.events := by
  intro w hw
  have hind : P.threads.Inductive init fun _ _ => True := ⟨fun _ _ _ _ => trivial, fun _ _ _ => trivial⟩
  rw [(Threads.holds_states hind (fun _ => trivial) schedule w hw).store_eq]
  exact ServerProgram.ok_replay hnamed h w.log

/-- In every world of a run, the table of the publishers lists exactly those that run: one of an event at
most, and each of an event of the catalog. -/
theorem publishers_listed {doc : Value} {cat : Catalog} {events : UdpEvents} (hload : loadCatalog doc = .ok cat)
    (hevents : buildUdpEvents cat (.fromSignals cat.signals) = .ok events) (server : Server σ) (routes : Routes)
    (sdPort : Int) (database : σ) {ι : Type} [DecidableEq ι] (threads : ι → ServerThread) (schedule : List ι) :
    let P : ServerProgram σ := ⟨server, routes, events, sdPort⟩
    ∀ w ∈ Run.states P.threads.step (Threads.start (.init database) threads) schedule,
      (∀ name i, w.store.publishers.get? name = some i ↔ w.store.Running i name) ∧
      (∀ name i j, w.store.Running i name → w.store.Running j name → i = j) ∧
      ∀ p ∈ w.store.threads, Publishing.Ok events p := by
  intro P w hw
  have hok := ServerProgram.ok_states (P := P) (.of_build (.of_loadCatalog hload) hevents)
    (ServerContext.Ok.init events database) threads schedule w hw
  refine ⟨hok.listed, fun name i j hi hj => ?_, hok.thread⟩
  exact Option.some.inj (((hok.listed name i).2 hi).symm.trans ((hok.listed name j).2 hj))

theorem publishers_listed_example :
    let w := [0, 0].foldl exampleServer.threads.step
      (Threads.start (.init (.ofSignals exampleCatalog.signals)) exampleServerThreads)
    w.store.Running 0 "powertrain_status_event" := by
  intro w
  have hlisted := publishers_listed loadCatalog_example buildUdpEvents_example dbServer exampleRoutes 30490
    (.ofSignals exampleCatalog.signals) exampleServerThreads [0, 0] w (Run.foldl_mem_states _)
  exact (hlisted.1 _ 0).1 (by decide +kernel)

theorem ticks_ok (hnamed : UdpEvents.Named P.events) (h : init.Ok P.events) {ι : Type} [DecidableEq ι]
    {threads : ι → ServerThread} (hnew : ∀ i, (threads i).New) {schedule : List ι}
    {w : World (ServerContext σ) Update ServerThread ι}
    (hw : w ∈ Run.states P.threads.step (Threads.start init threads) schedule) {i : ι} {t : TickThread}
    (ht : w.threads i = .publisher t) {tick : Tick} (hn : t.ticks[n]? = some tick) :
    ∃ p, w.store.threads[t.number]? = some p ∧ Publishing.Ok P.events p ∧ tick.Ok P init w.log p.pub n := by
  have hholds := Threads.holds_states (ServerThread.ok_inductive P init) (fun i => (hnew i).ok P init) schedule w hw
  have hthread := hholds.thread i
  rw [ht] at hthread
  have hthread : t.Ok P init w.log := hthread
  rcases hthread with hfresh | ⟨pub, hworks⟩
  · rw [hfresh] at hn
    cases hn
  · obtain ⟨stop, hp⟩ := hworks.started
    rw [← hholds.store_eq] at hp
    have hok := ServerProgram.ok_states hnamed h threads schedule w hw
    exact ⟨⟨pub, stop⟩, hp, hok.thread _ (List.mem_of_getElem? hp), hworks.ticks n tick hn⟩

theorem TickThread.Ok.laps {t : TickThread} (h : t.Ok P init log) :
    Laps (StoppedAt P init log t.number) (t.ticks.map Tick.lap) := by
  rcases h with hfresh | ⟨pub, hworks⟩
  · rw [hfresh]
    exact .nil _
  · exact hworks.laps.made

/-- Once its stop event is set, a publisher begins no tick, the listener takes no datagram and the announcer
makes no offer; each of them ends one at most that it had begun. -/
theorem stops_after_lap (P : ServerProgram σ) (init : ServerContext σ) {ι : Type} [DecidableEq ι]
    (threads : ι → ServerThread) (hnew : ∀ i, (threads i).New) (schedule : List ι) :
    ∀ w ∈ Run.states P.threads.step (Threads.start init threads) schedule, ∀ i n,
      (∀ t, w.threads i = .publisher t → StoppedAt P init w.log t.number n →
        (∀ tick ∈ t.ticks, tick.lap.began < n) ∧ (t.ticks.filter fun tick => n ≤ tick.lap.ended).length ≤ 1) ∧
      (∀ t, w.threads i = .listener t → ShutAt P init w.log n →
        (∀ lap ∈ t.laps, lap.began < n) ∧ (t.laps.filter fun lap => n ≤ lap.ended).length ≤ 1) ∧
      ∀ t, w.threads i = .announcer t → ShutAt P init w.log n →
        (∀ pkt ∈ t.sent, pkt.2.began < n) ∧ (t.sent.filter fun pkt => n ≤ pkt.2.ended).length ≤ 1 := by
  intro w hw i n
  have hthread := (Threads.holds_states (ServerThread.ok_inductive P init) (fun i => (hnew i).ok P init)
    schedule w hw).thread i
  refine ⟨fun t ht hset => ?_, fun t ht hset => ?_, fun t ht hset => ?_⟩
  · rw [ht] at hthread
    have hok : t.Ok P init w.log := hthread
    exact hok.laps.late_map (fun _ _ => stoppedAt_mono) hset
  · rw [ht] at hthread
    have hlaps : Laps (ShutAt P init w.log) (t.laps.map id) := by
      rw [List.map_id]
      exact InLap.made hthread
    exact hlaps.late_map (fun _ _ => shutAt_mono) hset
  · rw [ht] at hthread
    exact (InLap.made hthread).late_map (fun _ _ => shutAt_mono) hset

/-- The publisher ends the tick that it had begun. -/
theorem stops_after_lap_example : ∃ t tick, exampleWorld.threads 3 = .publisher t ∧ t.ticks = [tick] ∧
    tick.lap.began = 3 ∧ tick.lap.ended = 5 ∧
    (∀ tick ∈ t.ticks, tick.lap.began < 5) ∧ (t.ticks.filter fun tick => 5 ≤ tick.lap.ended).length ≤ 1 := by
  obtain ⟨hpublisher, -⟩ := stops_after_lap exampleServer (.init (.ofSignals exampleCatalog.signals))
    exampleServerThreads exampleServerThreads_new _ exampleWorld exampleWorld_mem 3 5
  obtain ⟨t, tick, ht, hnumber, htick⟩ := exists_tick_exampleWorld
  have hlap : (exampleWorld.threads 3).publisher?.map (fun t => t.ticks.map fun tick => (tick.lap.began, tick.lap.ended)) =
      some [(3, 5)] := by
    decide +kernel
  rw [ht] at hlap
  have hlap : t.ticks.map (fun tick => (tick.lap.began, tick.lap.ended)) = [(3, 5)] := Option.some.inj hlap
  rw [htick] at hlap
  obtain ⟨hbegan, hended⟩ := Prod.mk.inj (List.cons.inj hlap).1
  refine ⟨t, tick, ht, htick, hbegan, hended, hpublisher t ht ?_⟩
  have hstop : (exampleServer.threads.storeAt (.init (.ofSignals exampleCatalog.signals)) exampleWorld.log
      5).threads[0]?.map Publishing.stop = some true := by
    decide +kernel
  rw [StoppedAt, hnumber]
  exact Option.map_eq_some_iff.1 hstop

end AutoEth
