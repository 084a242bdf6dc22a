import AutoEth.E2e
import AutoEth.Routes
import AutoEth.Someip
import AutoEth.Lib.Loop

/-!
# The TCP connection handler

`_tcp_handler` of the node and `_tcp_handler_with_db` of the text interface are one loop over two
stores of signal values. `handleFrame` is the part of a turn that follows `recv_someip`,
`handlerLoop` the loop; a turn that raises ends the thread with what it has written and sent so far.
Sending is taken not to fail. The signal values are of any kind of `FloatArith`: over `Float` a decoded
value may be infinite, and then its encoding into the response raises, outside of any `try`.
-/

namespace AutoEth

variable {V : Type}

/-! ### Stores -/

/-- Where a handler keeps the signal values: how it writes those of a request, and which values it
puts into the response. -/
structure Store (σ : Type) (V : Type := ℚ) where
  write : σ → Dict String V → σ
  reply : σ → List (SignalDef V) → Dict String V → Dict String V

def initState (signals : List (SignalDef V)) : Dict String V :=
  Dict.ofList (signals.map fun s => (s.name, s.default))

/-- The state of `_tcp_handler`; the response repeats the values of the request. -/
def nodeStore : Store (Dict String V) V where
  write state values := state.update values.entries
  reply _ _ values := values

structure SignalDatabase (V : Type := ℚ) where
  data : Dict String V

namespace SignalDatabase

def ofSignals (signals : List (SignalDef V)) : SignalDatabase V := ⟨initState signals⟩

def setMultiple (db : SignalDatabase V) (values : Dict String V) : SignalDatabase V :=
  ⟨values.entries.foldl (fun d e => if d.contains e.1 then d.set e.1 e.2 else d) db.data⟩

def getSubset [FloatArith V] (db : SignalDatabase V) (names : List String) : Dict String V :=
  Dict.ofList (names.map fun n => (n, db.data.getD n FloatArith.zero))

end SignalDatabase

/-- The database of `_tcp_handler_with_db`; the response reads the values back. -/
def dbStore [FloatArith V] : Store (SignalDatabase V) V where
  write := SignalDatabase.setMultiple
  reply db sigs _ := db.getSubset (sigs.map (·.name))

/-! ### One message -/

/-- What serving one message did; `raised` is an exception that nothing catches. -/
structure Served (σ : Type) where
  state : σ
  sent : List Bytes
  raised : Option PyErr

def errorReply (hdr : SomeIpHeader) : Bytes :=
  buildMessage {
    serviceId := hdr.serviceId, methodId := hdr.methodId
    clientId := hdr.clientId, sessionId := hdr.sessionId
    ifaceVer := hdr.ifaceVer, msgType := mtError
    payload := [], returnCode := rcNotOk }

/-- The payload without its E2E trailer; `none` where the message is dropped. -/
def coreOf (msg : MessageDef) (hdr : SomeIpHeader) (pl : Bytes) : Except PyErr (Option Bytes) := do
  if (← e2eEnabled msg) then
    match unwrap pl with
    | .error _ => return none
    | .ok (core, counter) => return if counter ≠ hdr.sessionId then none else some core
  else return some pl

def response [FloatArith V] (route : MethodRoute V) (hdr : SomeIpHeader) (values : Dict String V) :
    Except PyErr Bytes := do
  let enc ← encode route.sigs values
  let rspPl := if (← e2eEnabled route.msg) then wrap enc hdr.sessionId else enc
  return buildMessage {
    serviceId := hdr.serviceId, methodId := hdr.methodId
    clientId := hdr.clientId, sessionId := hdr.sessionId
    ifaceVer := route.ifaceVer, msgType := mtResponse
    payload := rspPl, returnCode := rcOk }

section
variable {σ : Type} [FloatArith V] (store : Store σ V) (routes : Routes V)

/-- What the loop does with a request for `route` that has passed the E2E check. -/
def serveRequest (state : σ) (route : MethodRoute V) (hdr : SomeIpHeader) (core : Bytes) : Served σ :=
  match decode route.sigs core with
  | .error e => ⟨state, [], some e⟩
  | .ok values =>
    let state := store.write state values
    match response route hdr (store.reply state route.sigs values) with
    | .error e => ⟨state, [], some e⟩
    | .ok rsp => ⟨state, [rsp], none⟩

/-- The body of the loop after a message was received. -/
def handleFrame (state : σ) (hdr : SomeIpHeader) (pl : Bytes) : Served σ :=
  if hdr.msgType ≠ mtRequest then ⟨state, [], none⟩
  else
    match routes.get? (hdr.serviceId, hdr.methodId) with
    | none => ⟨state, [errorReply hdr], none⟩
    | some route =>
      match coreOf route.msg hdr pl with
      | .error e => ⟨state, [], some e⟩
      | .ok none => ⟨state, [], none⟩
      | .ok (some core) => serveRequest store state route hdr core

/-! ### The loop -/

/-- A connection at the head of the loop: what is still to come on it, the signal values, and what
was sent on it. -/
structure Conn (σ : Type) where
  sock : Sock
  state : σ
  sent : List Bytes

/-- A connection whose handler has returned, or raised. -/
structure Ended (σ : Type) where
  state : σ
  sent : List Bytes
  raised : Option PyErr

/-- The signal values and the replies after a turn of the loop. -/
def afterTurn {σ : Type} : Turn (Conn σ) (Ended σ) → σ × List Bytes
  | .again c => (c.state, c.sent)
  | .leave e => (e.state, e.sent)

def maxPayload : Nat := 4096

def handlerStep (c : Conn σ) : Turn (Conn σ) (Ended σ) :=
  match recvSomeip maxPayload c.sock with
  | (.error (.connectionError _), _) => .leave ⟨c.state, c.sent, none⟩
  | (.error _, sock) => .again { c with sock }
  | (.ok (hdr, pl), sock) =>
    let r := handleFrame store routes c.state hdr pl
    match r.raised with
    | none => .again ⟨sock, r.state, c.sent ++ r.sent⟩
    | some e => .leave ⟨r.state, c.sent ++ r.sent, some e⟩

theorem handlerStep_size_lt (c c' : Conn σ) (h : handlerStep store routes c = .again c') :
    c'.sock.all.length < c.sock.all.length := by
  rcases hr : recvSomeip maxPayload c.sock with ⟨r, sock'⟩
  have hlt := recvSomeip_length_lt hr
  rw [handlerStep, hr] at h
  rcases r with e | ⟨hdr, pl⟩
  · cases e <;> cases h
    all_goals exact hlt.resolve_left (by simp)
  · have hlt' := hlt.resolve_left (by simp)
    dsimp only at h
    split at h
    · cases h; exact hlt'
    · cases h

def handlerLoop : Loop (Conn σ) (Ended σ) where
  step := handlerStep store routes
  size c := c.sock.all.length
  size_lt := handlerStep_size_lt store routes

end

/-- `_tcp_handler`. -/
def tcpHandler [FloatArith V] (routes : Routes V) (state : Dict String V) (sock : Sock) :
    Ended (Dict String V) :=
  (handlerLoop nodeStore routes).result ⟨sock, state, []⟩

/-- `_tcp_handler_with_db`. -/
def tcpHandlerWithDb [FloatArith V] (routes : Routes V) (db : SignalDatabase V) (sock : Sock) :
    Ended (SignalDatabase V) :=
  (handlerLoop dbStore routes).result ⟨sock, db, []⟩

/-! ### Which messages are accepted, and which end the thread -/

/-- The E2E check that a request has to pass, and what it leaves of the payload. -/
structure PassesE2e (hdr : SomeIpHeader) (pl core : Bytes) : Prop where
  length_eq : pl.length = core.length + 4
  core_eq : core = pl.take core.length
  counter_eq : (BigEndian.field pl core.length 2 : Int) = hdr.sessionId
  crc_eq : BigEndian.field pl (core.length + 2) 2 =
    crc16CcittFalse (pl.take (core.length + 2)) 0xFFFF

/-- A request for `route` whose payload without its E2E trailer is `core`. -/
structure Requests (routes : Routes V) (hdr : SomeIpHeader) (pl : Bytes) (route : MethodRoute V)
    (core : Bytes) : Prop where
  msgType_eq : hdr.msgType = mtRequest
  get?_eq : routes.get? (hdr.serviceId, hdr.methodId) = some route
  core_of : e2eEnabled route.msg = .ok true ∧ PassesE2e hdr pl core ∨
    e2eEnabled route.msg = .ok false ∧ core = pl

theorem passesE2e_iff {hdr : SomeIpHeader} {pl core : Bytes} :
    PassesE2e hdr pl core ↔ unwrap pl = .ok (core, hdr.sessionId) := by
  rw [unwrap_eq_ok]
  exact ⟨fun h => ⟨h.1, h.2, h.3, h.4⟩, fun ⟨h₁, h₂, h₃, h₄⟩ => ⟨h₁, h₂, h₃, h₄⟩⟩

theorem coreOf_eq_some {msg : MessageDef} {hdr : SomeIpHeader} {pl core : Bytes} :
    coreOf msg hdr pl = .ok (some core) ↔
      e2eEnabled msg = .ok true ∧ PassesE2e hdr pl core ∨ e2eEnabled msg = .ok false ∧ core = pl := by
  rw [passesE2e_iff]
  unfold coreOf
  rcases e2eEnabled msg with e | _ | _
  · simp
  · simp [eq_comm]
  · rcases unwrap pl with e | ⟨c, counter⟩
    · simp
    · simp only [Except.ok_bind, Except.pure_eq_ok, Except.ok.injEq, Prod.mk.injEq, if_true]
      split_ifs with h
      · simp [h]
      · rw [not_not] at h
        simp [h]

namespace Requests

variable {routes : Routes V} {hdr : SomeIpHeader} {pl core core' : Bytes} {route route' : MethodRoute V}

theorem coreOf_eq (h : Requests routes hdr pl route core) :
    coreOf route.msg hdr pl = .ok (some core) :=
  coreOf_eq_some.2 h.core_of

theorem e2eEnabled_ok (h : Requests routes hdr pl route core) : ∃ b, e2eEnabled route.msg = .ok b := by
  rcases h.core_of with ⟨he, -⟩ | ⟨he, -⟩
  · exact ⟨_, he⟩
  · exact ⟨_, he⟩

/-- A message is a request for at most one route, with one core. -/
theorem unique (h : Requests routes hdr pl route core) (h' : Requests routes hdr pl route' core') :
    route = route' ∧ core = core' := by
  have hroute : route = route' := by
    have := h.get?_eq
    rw [h'.get?_eq] at this
    exact (Option.some.inj this).symm
  subst hroute
  have hcore := h.coreOf_eq
  rw [h'.coreOf_eq] at hcore
  exact ⟨rfl, (Option.some.inj (Except.ok.inj hcore)).symm⟩

end Requests

section
variable {σ : Type} [FloatArith V] (store : Store σ V) {routes : Routes V}

/-- All that can happen to a message. -/
theorem handleFrame_cases (routes : Routes V) (s : σ) (hdr : SomeIpHeader) (pl : Bytes) :
    (hdr.msgType ≠ mtRequest ∧ handleFrame store routes s hdr pl = ⟨s, [], none⟩) ∨
    (hdr.msgType = mtRequest ∧ routes.get? (hdr.serviceId, hdr.methodId) = none ∧
      handleFrame store routes s hdr pl = ⟨s, [errorReply hdr], none⟩) ∨
    (∃ route, hdr.msgType = mtRequest ∧ routes.get? (hdr.serviceId, hdr.methodId) = some route ∧
      ((∃ e, e2eEnabled route.msg = .error e ∧
          handleFrame store routes s hdr pl = ⟨s, [], some e⟩) ∨
        ((∃ b, e2eEnabled route.msg = .ok b) ∧ (∀ route core, ¬ Requests routes hdr pl route core) ∧
          handleFrame store routes s hdr pl = ⟨s, [], none⟩) ∨
        ∃ core, Requests routes hdr pl route core ∧
          handleFrame store routes s hdr pl = serveRequest store s route hdr core)) := by
  unfold handleFrame
  by_cases hreq : hdr.msgType = mtRequest
  · refine .inr ?_
    rw [if_neg (not_not.2 hreq)]
    cases hroute : routes.get? (hdr.serviceId, hdr.methodId) with
    | none => exact .inl ⟨hreq, rfl, rfl⟩
    | some route =>
      refine .inr ⟨route, hreq, rfl, ?_⟩
      rcases hcore : coreOf route.msg hdr pl with e | _ | core
      · refine .inl ?_
        rcases he : e2eEnabled route.msg with e' | b
        · rw [coreOf, he] at hcore
          cases hcore
          exact ⟨_, rfl, by simp only [coreOf, he, Except.error_bind]⟩
        · rw [coreOf, he] at hcore
          cases b
          · cases hcore
          · simp only [Except.ok_bind, if_true] at hcore
            split at hcore <;> cases hcore
      · refine .inr (.inl ⟨?_, ?_, by simp only [hcore]⟩)
        · cases he : e2eEnabled route.msg with
          | error e => rw [coreOf, he] at hcore; cases hcore
          | ok b => exact ⟨b, rfl⟩
        intro route' core' h
        have hr := h.get?_eq
        rw [hroute] at hr
        cases hr
        rw [h.coreOf_eq] at hcore
        cases hcore
      · exact .inr (.inr ⟨core, ⟨hreq, hroute, coreOf_eq_some.1 hcore⟩, by simp only [hcore]⟩)
  · exact .inl ⟨hreq, if_pos hreq⟩

theorem Requests.handleFrame_eq {hdr : SomeIpHeader} {pl core : Bytes} {route : MethodRoute V}
    (h : Requests routes hdr pl route core) (s : σ) :
    handleFrame store routes s hdr pl = serveRequest store s route hdr core := by
  simp only [handleFrame, h.msgType_eq, ne_eq, not_true, if_false, h.get?_eq, h.coreOf_eq]

end

end AutoEth
