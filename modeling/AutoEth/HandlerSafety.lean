import AutoEth.HandlerRuns

/-!
# What one message can do to a handler

`FrameSafe` says what a message may do to the node: only an accepted request writes to the state or draws a
response, it writes all of its signals and no others, and an unknown method draws an error. With the routes
of an accepted catalog every message that a handler takes up in any of its runs is safe, but for an accepted
request with a value that is too large to be encoded again (`tcpHandler_frameSafe_iff`): such a request is
written to the state, and then the thread ends without a response.
-/

namespace AutoEth

variable {V : Type} [FloatArith V]

/-! ### Accepted requests -/

/-- The handler takes the request: it passes the E2E check and carries all of its signals. -/
def Accepts {V : Type} (routes : Routes V) (hdr : SomeIpHeader) (pl : Bytes) (route : MethodRoute V)
    (core : Bytes) : Prop :=
  Requests routes hdr pl route core ∧
    ∃ size, encodedSize route.sigs = .ok size ∧ size ≤ core.length

/-- An accepted request with a value of which the code cannot take the raw value again: the number of steps
that it is away from the offset is infinite, or no number. -/
def Overflows (routes : Routes V) (hdr : SomeIpHeader) (pl : Bytes) : Prop :=
  ∃ route core values, Accepts routes hdr pl route core ∧ decode route.sigs core = .ok values ∧
    ∃ s ∈ route.sigs, ¬ s.Encodes values

/-- In exact arithmetic no request overflows. -/
theorem not_overflows {routes : Routes} {hdr : SomeIpHeader} {pl : Bytes} : ¬ Overflows routes hdr pl := by
  rintro ⟨route, core, values, hacc, -, s, hs, hne⟩
  exact hne ⟨_, rfl⟩

/-- The response to an accepted request. -/
def responseArgs {V : Type} (route : MethodRoute V) (hdr : SomeIpHeader) (e2e : Bool) (enc : Bytes) :
    MessageArgs where
  serviceId := hdr.serviceId
  methodId := hdr.methodId
  clientId := hdr.clientId
  sessionId := hdr.sessionId
  ifaceVer := route.ifaceVer
  msgType := mtResponse
  payload := if e2e then wrap enc hdr.sessionId else enc
  returnCode := rcOk

section
variable {σ : Type} {store : Store σ V} {routes : Routes V} {hdr : SomeIpHeader} {pl core : Bytes}
  {route : MethodRoute V}

namespace RoutesOk

theorem sizeOf_le (hok : RoutesOk routes) (h : Accepts routes hdr pl route core) :
    sizeOf route.sigs ≤ core.length := by
  obtain ⟨hr, size, hsize, hle⟩ := h
  rw [encodedSize_eq (hok.sigs_valid hr.get?_eq)] at hsize
  cases hsize
  exact hle

theorem exists_decode (hok : RoutesOk routes) (h : Accepts routes hdr pl route core) :
    ∃ values, decode route.sigs core = .ok values :=
  ⟨_, by rw [decode_eq (hok.sigs_valid h.1.get?_eq), if_pos (hok.sizeOf_le h)]⟩

theorem exists_encode_iff (hok : RoutesOk routes) (h : Accepts routes hdr pl route core) {values : Dict String V} :
    (∃ enc, encode route.sigs values = .ok enc) ↔ ∀ s ∈ route.sigs, s.Encodes values := by
  have hvalid := hok.sigs_valid h.1.get?_eq
  rw [AutoEth.exists_encode_iff fun s hs => (hvalid s hs).1]
  exact forall₂_congr fun s hs => and_iff_right (hvalid s hs).2

variable (store) in
theorem handleFrame_of_not_accepts (hok : RoutesOk routes)
    (h : ∀ route core, ¬ Accepts routes hdr pl route core) (s : σ) :
    (handleFrame store routes s hdr pl).state = s ∧
      ∀ rsp ∈ (handleFrame store routes s hdr pl).sent, rsp = errorReply hdr := by
  rcases handleFrame_cases store routes s hdr pl with
    ⟨-, heq⟩ | ⟨-, -, heq⟩ | ⟨route, -, -, ⟨e, -, heq⟩ | ⟨-, -, heq⟩ | ⟨core, hr, heq⟩⟩
  · simp [heq]
  · simp [heq]
  · simp [heq]
  · simp [heq]
  · have hvalid := hok.sigs_valid hr.get?_eq
    have hlen : ¬ sizeOf route.sigs ≤ core.length :=
      fun hle => h route core ⟨hr, _, encodedSize_eq hvalid, hle⟩
    rw [heq, serveRequest, decode_eq hvalid, if_neg hlen]
    simp

end RoutesOk

theorem Requests.handleFrame_of_encode (hr : Requests routes hdr pl route core) {e2e : Bool}
    (he : e2eEnabled route.msg = .ok e2e) {s : σ} {values : Dict String V}
    (hdec : decode route.sigs core = .ok values) {enc : Bytes}
    (henc : encode route.sigs (store.reply (store.write s values) route.sigs values) = .ok enc) :
    handleFrame store routes s hdr pl =
      ⟨store.write s values, [buildMessage (responseArgs route hdr e2e enc)], none⟩ := by
  simp only [hr.handleFrame_eq, serveRequest, hdec, response_eq he henc]
  rfl

end

/-! ### Replies -/

/-- A message of the given type with the ids of `hdr`. -/
structure RepliesTo (hdr : SomeIpHeader) (msgType : Int) (reply payload : Bytes) : Prop where
  parse : ∃ rh, parseMessage reply = .ok (rh, payload) ∧ rh.serviceId = hdr.serviceId ∧
    rh.methodId = hdr.methodId ∧ rh.clientId = hdr.clientId ∧ rh.sessionId = hdr.sessionId ∧
    rh.msgType = msgType

theorem repliesTo_buildMessage {hdr : SomeIpHeader} (hwire : hdr.OnWire) {m : MessageArgs} {t : Int}
    (htype : m.msgType % 2 ^ 8 = t) (hservice : m.serviceId = hdr.serviceId)
    (hmethod : m.methodId = hdr.methodId)
    (hclient : m.clientId = hdr.clientId) (hsession : m.sessionId = hdr.sessionId)
    (hlen : 8 + m.payload.length < 2 ^ 32) : RepliesTo hdr t (buildMessage m) m.payload := by
  have hmasked := hwire.masked_eq
  refine ⟨_, parseMessage_buildMessage m hlen, ?_, ?_, ?_, ?_, htype⟩
  · rw [← hmasked]; exact congrArg (· % 2 ^ 16) hservice
  · rw [← hmasked]; exact congrArg (· % 2 ^ 16) hmethod
  · rw [← hmasked]; exact congrArg (· % 2 ^ 16) hclient
  · rw [← hmasked]; exact congrArg (· % 2 ^ 16) hsession

theorem repliesTo_errorReply {hdr : SomeIpHeader} (hwire : hdr.OnWire) :
    RepliesTo hdr mtError (errorReply hdr) [] :=
  repliesTo_buildMessage hwire rfl rfl rfl rfl rfl (by simp)

theorem RepliesTo.msgType_eq {hdr rh : SomeIpHeader} {t : Int} {reply payload rp : Bytes}
    (h : RepliesTo hdr t reply payload) (hparse : parseMessage reply = .ok (rh, rp)) : rh.msgType = t := by
  obtain ⟨rh', hparse', -, -, -, -, ht⟩ := h.parse
  rw [hparse] at hparse'
  cases hparse'
  exact ht

/-! ### Safety of one message -/

/-- What a message `(hdr, pl)` may do: `s` and `s'` are the state before and after it, `replies` are
the messages it draws. -/
structure FrameSafe (routes : Routes V) (hdr : SomeIpHeader) (pl : Bytes) (s s' : Dict String V)
    (replies : List Bytes) : Prop where
  /-- Only an accepted request changes the state or draws a response. -/
  only : (s' ≠ s ∨ ∃ rsp ∈ replies, ∃ rh rp, parseMessage rsp = .ok (rh, rp) ∧
    rh.msgType = mtResponse) → ∃ route core, Accepts routes hdr pl route core
  /-- An accepted request sets all of its signals and no others, and draws one response. -/
  accepted : ∀ route core, Accepts routes hdr pl route core →
    ∃ values enc rsp rp, decode route.sigs core = .ok values ∧
      encode route.sigs values = .ok enc ∧
      (∀ k ∈ route.sigs.map (·.name), (s'.get? k).isSome ∧ s'.get? k = values.get? k) ∧
      (∀ k ∉ route.sigs.map (·.name), s'.get? k = s.get? k) ∧
      replies = [rsp] ∧ RepliesTo hdr mtResponse rsp rp ∧ rp.length ≤ pl.length ∧
      (e2eEnabled route.msg = .ok true → unwrap rp = .ok (enc, hdr.sessionId)) ∧
      (e2eEnabled route.msg = .ok false → rp = enc)
  /-- A request for an unknown method draws one error. -/
  unknown : hdr.msgType = mtRequest → routes.get? (hdr.serviceId, hdr.methodId) = none →
    s' = s ∧ ∃ err, replies = [err] ∧ RepliesTo hdr mtError err []

section
variable {routes : Routes V} {hdr : SomeIpHeader} {pl core : Bytes} {route : MethodRoute V}

theorem RoutesOk.accepts_of_effect (hok : RoutesOk routes) (hwire : hdr.OnWire) (s : Dict String V) :
    let r := handleFrame nodeStore routes s hdr pl
    (r.state ≠ s ∨ ∃ rsp ∈ r.sent, ∃ rh rp, parseMessage rsp = .ok (rh, rp) ∧ rh.msgType = mtResponse) →
      ∃ route core, Accepts routes hdr pl route core := by
  intro r heffect
  by_contra hno
  have hno' : ∀ route core, ¬ Accepts routes hdr pl route core :=
    fun route core hacc => hno ⟨route, core, hacc⟩
  obtain ⟨hstate, hsent⟩ := hok.handleFrame_of_not_accepts nodeStore hno' s
  rcases heffect with hne | ⟨rsp, hrsp, rh, rp, hparse, htype⟩
  · exact hne hstate
  · rw [hsent rsp hrsp] at hparse
    have := (repliesTo_errorReply hwire).msgType_eq hparse
    rw [htype] at this
    exact absurd this (by decide)

theorem RoutesOk.length_responseArgs_le (hok : RoutesOk routes) (hacc : Accepts routes hdr pl route core)
    {e2e : Bool} (he : e2eEnabled route.msg = .ok e2e) {values : Dict String V} {enc : Bytes}
    (henc : encode route.sigs values = .ok enc) :
    (responseArgs route hdr e2e enc).payload.length ≤ pl.length := by
  have hlen := length_of_encode (hok.sigs_valid hacc.1.get?_eq) henc
  have hsize := hok.sizeOf_le hacc
  rcases hacc.1.core_of with ⟨he', hpass⟩ | ⟨he', rfl⟩
  · obtain rfl : e2e = true := Except.ok.inj (he.symm.trans he')
    have := hpass.length_eq
    simp only [responseArgs, if_true, length_wrap]
    omega
  · obtain rfl : e2e = false := Except.ok.inj (he.symm.trans he')
    simp only [responseArgs, Bool.false_eq_true, if_false]
    omega

/-- Decoded values written over a state set the names of the signals and no others. -/
theorem get?_update_decode {sigs : List (SignalDef V)} {values : Dict String V}
    (hdec : decode sigs core = .ok values) (s : Dict String V) :
    (∀ k ∈ sigs.map (·.name), ((s.update values.entries).get? k).isSome ∧
        (s.update values.entries).get? k = values.get? k) ∧
      ∀ k ∉ sigs.map (·.name), (s.update values.entries).get? k = s.get? k := by
  constructor
  · intro k hk
    obtain ⟨v, hv⟩ := Option.isSome_iff_exists.1 ((decode_isSome_iff hdec k).2 hk)
    rw [Dict.get?_update_entries, hv, Option.some_or]
    exact ⟨rfl, rfl⟩
  · intro k hk
    have hnone : values.get? k = none := by
      rw [← Option.not_isSome_iff_eq_none, decode_isSome_iff hdec]
      exact hk
    rw [Dict.get?_update_entries, hnone, Option.none_or]

theorem RoutesOk.frameSafe_iff (hok : RoutesOk routes) (hwire : hdr.OnWire) (hlen : pl.length ≤ maxPayload)
    (s : Dict String V) :
    let r := handleFrame nodeStore routes s hdr pl
    FrameSafe routes hdr pl s r.state r.sent ↔ ¬ Overflows routes hdr pl := by
  intro r
  constructor
  · rintro hsafe ⟨route, core, values, hacc, hdec, sig, hsig, hne⟩
    obtain ⟨values', enc, -, -, hdec', henc, -⟩ := hsafe.accepted route core hacc
    cases hdec.symm.trans hdec'
    exact hne ((hok.exists_encode_iff hacc).1 ⟨enc, henc⟩ sig hsig)
  intro hover
  refine ⟨hok.accepts_of_effect hwire s, fun route core hacc => ?_, fun hreq hnone => ?_⟩
  · have hr := hacc.1
    obtain ⟨e2e, he⟩ := hr.e2eEnabled_ok
    obtain ⟨values, hdec⟩ := hok.exists_decode hacc
    have hencodes : ∀ sig ∈ route.sigs, sig.Encodes values := by
      intro sig hsig
      by_contra hne
      exact hover ⟨route, core, values, hacc, hdec, sig, hsig, hne⟩
    obtain ⟨enc, henc⟩ := (hok.exists_encode_iff hacc).2 hencodes
    obtain ⟨hset, hkeep⟩ := get?_update_decode hdec s
    have hrun : r = ⟨s.update values.entries, [buildMessage (responseArgs route hdr e2e enc)], none⟩ :=
      hr.handleFrame_of_encode he hdec henc
    have hshort := hok.length_responseArgs_le hacc he henc
    rw [hrun]
    refine ⟨values, enc, _, _, hdec, henc, hset, hkeep, rfl,
      repliesTo_buildMessage hwire rfl rfl rfl rfl rfl ?_, hshort, fun he' => ?_, fun he' => ?_⟩
    · unfold maxPayload at hlen
      omega
    · obtain rfl : e2e = true := Except.ok.inj (he.symm.trans he')
      have hunwrap := unwrap_wrap enc hdr.sessionId
      have hsession : hdr.sessionId % 65536 = hdr.sessionId :=
        congrArg SomeIpHeader.sessionId hwire.masked_eq
      rw [hsession] at hunwrap
      exact hunwrap
    · obtain rfl : e2e = false := Except.ok.inj (he.symm.trans he')
      rfl
  · have heq : r = ⟨s, [errorReply hdr], none⟩ := by
      simp only [r, handleFrame, hreq, ne_eq, not_true, if_false, hnone]
    rw [heq]
    exact ⟨rfl, _, rfl, repliesTo_errorReply hwire⟩

end

theorem RoutesOk.frameSafe {routes : Routes} (hok : RoutesOk routes) {hdr : SomeIpHeader} {pl : Bytes}
    (hwire : hdr.OnWire) (hlen : pl.length ≤ maxPayload) (s : Dict String ℚ) :
    let r := handleFrame nodeStore routes s hdr pl
    FrameSafe routes hdr pl s r.state r.sent :=
  (hok.frameSafe_iff hwire hlen s).2 not_overflows

/-! ### An example of a request that overflows -/

/-- A catalog with a method of one signal, whose scale is so large that most of its values are infinite. -/
def hugeDoc : Value :=
  .dict [
    ("discovery", .dict [("group", .str "239.0.0.2"), ("port", .int 30490), ("ttl", .int 1),
      ("iface", .str "eth0")]),
    ("signals", .list [.dict [("name", .str "load"), ("type", .str "u8"),
      ("scale", .float (.finite (10 ^ 154 * 10 ^ 154)) "1e+308")]]),
    ("services", .list [.dict [("name", .str "powertrain_service"), ("service_id", .int 0x1002),
      ("instance_id", .int 1)]]),
    ("messages", .list [.dict [("name", .str "set_load"), ("msg_id", .int 24), ("kind", .str "method"),
      ("transport", .str "tcp"), ("tcp", .dict [("port", .int 30502)]),
      ("someip", .dict [("service", .str "powertrain_service"), ("method_id", .int 5)]),
      ("signals", .list [.str "load"])]])]

def hugeCatalog : Catalog Float := (loadCatalog hugeDoc).get (by decide +kernel)

theorem loadCatalog_huge : loadCatalog hugeDoc = .ok hugeCatalog := Except.eq_ok_get _

def hugeRoutes : Routes Float :=
  (buildTcpRoutes hugeCatalog (.fromSignals hugeCatalog.signals)).get (by decide +kernel)

theorem buildTcpRoutes_huge :
    buildTcpRoutes hugeCatalog (.fromSignals hugeCatalog.signals) = .ok hugeRoutes := Except.eq_ok_get _

def hugeRoute : MethodRoute Float := (hugeRoutes.get? (0x1002, 5)).get (by decide +kernel)

/-- A request for `set_load` with its one byte. -/
def hugeFrame : Frame where
  hdr := ⟨0x1002, 5, 9, 1, 1, 1, 1, 0, 0⟩
  payload := [0xFF]
  onWire := ⟨by decide⟩
  length_eq := by decide

/-! ### Safety of whole runs -/

theorem handlerStep_after_of_ok {σ : Type} {store : Store σ V} {routes : Routes V} {c : Conn σ}
    {hdr : SomeIpHeader} {pl : Bytes} {sock' : Sock}
    (h : recvSomeip maxPayload c.sock = (.ok (hdr, pl), sock')) :
    let r := handleFrame store routes c.state hdr pl
    afterTurn (handlerStep store routes c) = (r.state, c.sent ++ r.sent) := by
  simp only [handlerStep, h]
  split
  · rfl
  · rfl

theorem handlerStep_after_of_error {σ : Type} {store : Store σ V} {routes : Routes V} {c : Conn σ}
    {e : PyErr} {sock' : Sock} (h : recvSomeip maxPayload c.sock = (.error e, sock')) :
    afterTurn (handlerStep store routes c) = (c.state, c.sent) := by
  rw [handlerStep, h]
  cases e <;> rfl

/-- In every run of `_tcp_handler`, a turn that receives a message is safe exactly when the message does not
overflow, and one that receives none changes nothing. -/
theorem tcpHandler_frameSafe_iff {doc : Value} {cat : Catalog V} {routes : Routes V}
    (hload : loadCatalog doc = .ok cat)
    (hroutes : buildTcpRoutes cat (.fromSignals cat.signals) = .ok routes)
    (state : Dict String V) (sock : Sock) :
    ∀ c ∈ (handlerLoop nodeStore routes).heads ⟨sock, state, []⟩,
      (∀ hdr pl sock', recvSomeip maxPayload c.sock = (.ok (hdr, pl), sock') →
        ∃ s' replies, afterTurn (handlerStep nodeStore routes c) = (s', c.sent ++ replies) ∧
          (FrameSafe routes hdr pl c.state s' replies ↔ ¬ Overflows routes hdr pl)) ∧
      (∀ e sock', recvSomeip maxPayload c.sock = (.error e, sock') →
        afterTurn (handlerStep nodeStore routes c) = (c.state, c.sent)) := by
  intro c _
  have hok := RoutesOk.of_buildTcpRoutes (.of_loadCatalog hload) hroutes
  refine ⟨fun hdr pl sock' hr => ?_, fun e sock' hr => handlerStep_after_of_error hr⟩
  obtain ⟨f, rfl, rfl, hlen, -⟩ := recvSomeip_ok hr
  exact ⟨_, _, handlerStep_after_of_ok hr, hok.frameSafe_iff f.onWire hlen c.state⟩

theorem tcpHandler_frameSafe_iff_example :
    let c : Conn (Dict String Float) := ⟨Stream.whole hugeFrame.bytes, initState hugeCatalog.signals, []⟩
    ∃ s' replies, afterTurn (handlerStep nodeStore hugeRoutes c) = (s', replies) ∧
      (FrameSafe hugeRoutes hugeFrame.hdr hugeFrame.payload c.state s' replies ↔
        ¬ Overflows hugeRoutes hugeFrame.hdr hugeFrame.payload) := by
  intro c
  have hall : c.sock.all = hugeFrame.bytes ++ [] := by
    rw [List.append_nil]
    exact Stream.all_whole hugeFrame.bytes
  have hsmall : hugeFrame.Small := by decide
  obtain ⟨sock', hr, -⟩ := hugeFrame.recvSomeip_frame hsmall hall
  exact (tcpHandler_frameSafe_iff loadCatalog_huge buildTcpRoutes_huge c.state c.sock c
    (Loop.mem_heads_self _)).1 _ _ _ hr

/-- The value is written as an infinity, and no response is sent. -/
theorem tcpHandler_overflows :
    ∃ sock : Sock, sock.all = wire [hugeFrame] ∧
      let r := tcpHandler hugeRoutes (initState hugeCatalog.signals) sock
      (r.state.get? "load").map FloatValue.ofFloat = some (.infinite false) ∧ r.sent = [] ∧
        r.raised = some (.overflowError "cannot convert float infinity to integer") ∧
        ¬ FrameSafe hugeRoutes hugeFrame.hdr hugeFrame.payload (initState hugeCatalog.signals) r.state r.sent := by
  have hsmall : ∀ f ∈ [hugeFrame], f.Small := by decide
  refine ⟨_, Stream.all_whole _, ?_⟩
  rw [tcpHandler_eq_serve hsmall (Stream.all_whole _)]
  have hrun : ∃ r, serve nodeStore hugeRoutes (initState hugeCatalog.signals) [] [hugeFrame] = r ∧
      (r.state.get? "load").map FloatValue.ofFloat = some (.infinite false) ∧ r.sent = [] ∧
      r.raised = some (.overflowError "cannot convert float infinity to integer") := by
    refine ⟨_, rfl, ?_⟩
    decide +kernel
  obtain ⟨r, hr, hload, hsent, hraised⟩ := hrun
  rw [hr]
  refine ⟨hload, hsent, hraised, fun hsafe => ?_⟩
  -- the request is accepted, so that a response was due
  have hacc : Accepts hugeRoutes hugeFrame.hdr hugeFrame.payload hugeRoute hugeFrame.payload :=
    ⟨⟨rfl, (Option.some_get _).symm, .inr ⟨by decide +kernel, rfl⟩⟩, 1, by decide +kernel, by decide⟩
  obtain ⟨_, _, rsp, _, _, _, _, _, hreplies, -⟩ := hsafe.accepted _ _ hacc
  rw [hsent] at hreplies
  cases hreplies

end AutoEth
