import AutoEth.ServerContext
import AutoEth.Shared
import AutoEth.Announcer
import AutoEth.Lib.Laps

/-!
# The threads of a server

The terminal that starts and stops publishers, the publishers, the announcer, the listener and the
connection handlers, cut into atomic steps and interleaved in any order. What they share is a
`ServerContext`: the signal values, the registry, the publishers with their stop events, and the stop event
of announcer and listener. An update of it is a request that a handler writes, an entry that the listener
handles, a toggle, or that stop event (`Update`).

A publisher does not exist before it is started, and looks at its stop event before each tick; a tick takes
its snapshot, counts, builds, asks for the destinations and sends, and each of these can find another state.
`TickThread.Works` says what a publisher can rely on meanwhile: what its ticks have read, and that none of
them began after it was stopped. Waiting for the next period is a thread that makes no step.
-/

namespace AutoEth

inductive Update where
  | wrote (job : Job)
  | heard (e : SdEntry × Endpoint)
  | toggled (name : String)
  | stopped

/-- The tables that a server is started with, and where it keeps its values. -/
structure ServerProgram (σ : Type) where
  server : Server σ
  routes : Routes
  events : UdpEvents
  sdPort : Int

namespace ServerProgram

variable {σ : Type} (P : ServerProgram σ)

def listener : SdListener := .ofEvents P.sdPort P.events

def apply (c : ServerContext σ) : Update → ServerContext σ
  | .wrote job => { c with database := P.server.write c.database job.values }
  | .heard e => { c with listener := P.listener.handleEntry c.listener e }
  | .toggled name =>
    match c.toggleEvent P.events name with
    | .ok r => r.1
    | .error _ => c
  | .stopped => { c with stopEvt := true }

end ServerProgram

/-! ### The terminal -/

inductive Command where
  | toggle (name : String)
  | startAll
  | stopAll

/-- A part of a command: one turn of its loop, or `self.stop_evt.set()`. -/
inductive Todo where
  | toggle (name : String)
  | start (name : String)
  | stop (name : String)
  | stopEvt

def Command.todo {σ : Type} (events : UdpEvents) (c : ServerContext σ) : Command → List Todo
  | .toggle name => [.toggle name]
  | .startAll => events.keys.map .start
  | .stopAll => .stopEvt :: c.publishers.keys.map .stop

def Todo.update {σ : Type} (events : UdpEvents) (c : ServerContext σ) : Todo → Except PyErr (Option Update)
  | .toggle name => do
    let _ ← c.toggleEvent events name
    return some (.toggled name)
  | .start name =>
    if c.isPublishing name then .ok none
    else do
      let _ ← c.toggleEvent events name
      return some (.toggled name)
  | .stop name => if c.isPublishing name then .ok (some (.toggled name)) else .error (.keyError name)
  | .stopEvt => .ok (some .stopped)

/-- The thread of the terminal: the commands still to come, and what is left of the one at work. An
exception ends a command. -/
structure UserThread where
  commands : List Command
  todo : List Todo
  raised : List PyErr

def UserThread.step {σ : Type} (events : UdpEvents) (c : ServerContext σ) (t : UserThread) :
    UserThread × Option Update :=
  match t.todo with
  | [] =>
    match t.commands with
    | [] => (t, none)
    | cmd :: cmds => ({ t with commands := cmds, todo := cmd.todo events c }, none)
  | todo :: todos =>
    match todo.update events c with
    | .error e => ({ t with todo := [], raised := t.raised ++ [e] }, none)
    | .ok u => ({ t with todo := todos }, u)

/-! ### Listener and announcer -/

/-- Where the listener stands in its loop; `began` is the number of updates before it looked. -/
inductive ListenerPoint where
  | looking
  | receiving (began : Nat)
  | handling (began : Nat) (entries : List (SdEntry × Endpoint))
  | ended

/-- The listener with the datagrams that are still to come, and the laps in which it got one. -/
structure ListenerThread where
  arrivals : List Datagram
  point : ListenerPoint
  laps : List Lap

def ListenerThread.step {σ : Type} (now : Nat) (c : ServerContext σ) (t : ListenerThread) :
    ListenerThread × Option Update :=
  match t.point with
  | .looking => ({ t with point := if c.stopEvt then .ended else .receiving now }, none)
  | .receiving began =>
    match t.arrivals with
    | [] => ({ t with point := .looking }, none)
    | d :: ds => ({ t with arrivals := ds, point := .handling began (SdListener.received d) }, none)
  | .handling began [] => ({ t with point := .looking, laps := t.laps ++ [⟨began, now⟩] }, none)
  | .handling began (e :: es) => ({ t with point := .handling began es }, some (.heard e))
  | .ended => (t, none)

inductive AnnouncerPoint where
  | looking
  | announcing (began : Nat)
  | ended (raised : Option PyErr)

/-- The announcer with its packets, each with the lap that sent it. -/
structure AnnouncerThread where
  announcer : SdAnnouncer
  point : AnnouncerPoint
  sent : List (Bytes × Lap)

def AnnouncerThread.step {σ : Type} (now : Nat) (c : ServerContext σ) (t : AnnouncerThread) : AnnouncerThread :=
  match t.point with
  | .looking => { t with point := if c.stopEvt then .ended none else .announcing now }
  | .announcing began =>
    match t.announcer.announce with
    | .error e => { t with point := .ended (some e) }
    | .ok (pkt, announcer) => { announcer, point := .looking, sent := t.sent ++ [(pkt, ⟨began, now⟩)] }
  | .ended _ => t

/-! ### Publishers -/

/-- A tick that a publisher has ended: what it read, each with the number of updates before, and what it sent
where. -/
structure Tick where
  lap : Lap
  sampled : Nat
  vals : Dict String ℚ
  data : Bytes
  looked : Nat
  dests : Finset Endpoint

inductive TickPoint where
  | looking
  | due (began : Nat)
  | sampled (began sampled : Nat) (vals : Dict String ℚ)
  | built (began sampled : Nat) (vals : Dict String ℚ) (data : Bytes)
  | sending (began sampled : Nat) (vals : Dict String ℚ) (data : Bytes) (looked : Nat) (dests : Finset Endpoint)
  | ended (raised : Option PyErr)

/-- The publisher thread of this number, with the ticks that it has made. -/
structure TickThread where
  number : Nat
  seq : Int
  point : TickPoint
  ticks : List Tick

namespace TickThread

/-- A publisher before its first step. -/
def fresh (number : Nat) : TickThread := ⟨number, 0, .looking, []⟩

def step {σ : Type} (server : Server σ) (now : Nat) (c : ServerContext σ) (t : TickThread) : TickThread :=
  match c.threads[t.number]? with
  | none => t
  | some p =>
    match t.point with
    | .looking => { t with point := if p.stop then .ended none else .due now }
    | .due began => { t with point := .sampled began now (server.snapshot c.database p.pub.route.sigs) }
    | .sampled began sampled vals =>
      let seq := nextSeq t.seq
      match eventDatagram p.pub.route seq vals with
      | .error e => { t with seq, point := .ended (some e) }
      | .ok data => { t with seq, point := .built began sampled vals data }
    | .built began sampled vals data =>
      match p.pub.dests c.listener.registry with
      | .error e => { t with point := .ended (some e) }
      | .ok dests => { t with point := .sending began sampled vals data now dests }
    | .sending began sampled vals data looked dests =>
      -- `_sendto` catches an `OSError`, not what a port out of range raises
      if ∀ ep ∈ dests, FitsBits 16 ep.2 then
        { t with
          point := .looking
          ticks := t.ticks ++ [{ lap := ⟨began, now⟩, sampled, vals, data, looked, dests }] }
      else { t with point := .ended (some (.overflowError "sendto(): port must be 0-65535.")) }
    | .ended _ => t

end TickThread

/-! ### All threads -/

inductive ServerThread where
  | handler (t : HandlerThread)
  | user (t : UserThread)
  | listener (t : ListenerThread)
  | announcer (t : AnnouncerThread)
  | publisher (t : TickThread)

def ServerThread.publisher? : ServerThread → Option TickThread
  | .publisher t => some t
  | _ => none

theorem ServerThread.eq_of_publisher? {th : ServerThread} {t : TickThread} (h : th.publisher? = some t) :
    th = .publisher t := by
  cases th with
  | publisher t' =>
    cases h
    rfl
  | _ => cases h

/-- The threads of a server. -/
def ServerProgram.threads {σ : Type} (P : ServerProgram σ) : Threads (ServerContext σ) Update ServerThread where
  apply := P.apply
  act now c
    | .handler t => (.handler (t.step P.server P.routes now c.database), t.writes.map .wrote)
    | .user t => ((t.step P.events c).1 |> .user, (t.step P.events c).2)
    | .listener t => ((t.step now c).1 |> .listener, (t.step now c).2)
    | .announcer t => (.announcer (t.step now c), none)
    | .publisher t => (.publisher (t.step P.server now c), none)

/-- A thread before its first step. -/
inductive ServerThread.New : ServerThread → Prop where
  | handler (sock : Sock) : New (.handler ⟨sock, .waiting, [], []⟩)
  | user (commands : List Command) : New (.user ⟨commands, [], []⟩)
  | listener (arrivals : List Datagram) : New (.listener ⟨arrivals, .looking, []⟩)
  | announcer (announcer : SdAnnouncer) : New (.announcer ⟨announcer, .looking, []⟩)
  | publisher (number : Nat) : New (.publisher (.fresh number))

/-! ### An example -/

/-- The text interface with the example catalog. -/
def exampleServer : ServerProgram SignalDatabase := ⟨dbServer, exampleRoutes, exampleEvents, 30490⟩

/-- The user starts the event and stops all, a client subscribes, and another one sets the gear. -/
def exampleServerThreads : Fin 5 → ServerThread
  | 0 => .user ⟨[.toggle "powertrain_status_event", .stopAll], [], []⟩
  | 1 => .listener ⟨[exampleDatagram], .looking, []⟩
  | 2 => .handler ⟨Stream.whole gearFrame.bytes, .waiting, [], []⟩
  | 3 => .publisher (.fresh 0)
  | 4 => .announcer ⟨⟨[], 0⟩, .looking, []⟩

theorem exampleServerThreads_new (i : Fin 5) : (exampleServerThreads i).New := by
  match i with
  | 0 => exact .user _
  | 1 => exact .listener _
  | 2 => exact .handler _
  | 3 => exact .publisher _
  | 4 => exact .announcer _

theorem exampleServerThreads_ne_user (j : Fin 5) (hj : j ≠ 0) (t : UserThread) : exampleServerThreads j ≠ .user t := by
  intro ht
  match j with
  | 0 => exact hj rfl
  | 1 => cases ht
  | 2 => cases ht
  | 3 => cases ht
  | 4 => cases ht

/-- The event is started and subscribed to, the gear is set, and all is stopped between the snapshot of a tick and
its end. -/
def exampleWorld : World (ServerContext SignalDatabase) Update ServerThread (Fin 5) :=
  [0, 0, 1, 1, 1, 1, 2, 2, 2, 3, 3, 0, 0, 0, 3, 3, 3, 3].foldl exampleServer.threads.step
    (Threads.start (.init (.ofSignals exampleCatalog.signals)) exampleServerThreads)

/-- The event is started, subscribed to, and the request to set the gear is answered. -/
def answeredWorld : World (ServerContext SignalDatabase) Update ServerThread (Fin 5) :=
  [0, 0, 1, 1, 1, 1, 2, 2, 2, 2, 2].foldl exampleServer.threads.step
    (Threads.start (.init (.ofSignals exampleCatalog.signals)) exampleServerThreads)

theorem exampleWorld_mem : exampleWorld ∈ Run.states exampleServer.threads.step
    (Threads.start (.init (.ofSignals exampleCatalog.signals)) exampleServerThreads)
    [0, 0, 1, 1, 1, 1, 2, 2, 2, 3, 3, 0, 0, 0, 3, 3, 3, 3] :=
  Run.foldl_mem_states _

theorem exists_tick_exampleWorld : ∃ t tick, exampleWorld.threads 3 = .publisher t ∧ t.number = 0 ∧
    t.ticks = [tick] := by
  have ht : (exampleWorld.threads 3).publisher?.map (fun t => (t.number, t.ticks.length)) = some (0, 1) := by
    decide +kernel
  obtain ⟨t, ht, hticks⟩ := Option.map_eq_some_iff.1 ht
  obtain ⟨hnumber, hlength⟩ := Prod.mk.inj hticks
  obtain ⟨tick, htick⟩ := List.length_eq_one_iff.1 hlength
  exact ⟨t, tick, ServerThread.eq_of_publisher? ht, hnumber, htick⟩

end AutoEth
