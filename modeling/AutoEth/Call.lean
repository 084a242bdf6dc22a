import AutoEth.HandlerSafety

/-!
# Method calls

`_tcp_call` of the client: what it sends, and what it makes of the answer. `tcpCall_tcpHandler` is
the call end to end, over a connection whose other side is `_tcp_handler`: the handler sets the
signals of the method to the values that the client encoded, and the client gets these values back.
Connecting is taken to succeed; the timeout of the socket is read but plays no part.
-/

namespace AutoEth

/-- The port to connect to: the one given, or that of the catalog. -/
def callPort (tcpCfg : Value) : Option Int → Except PyErr Value
  | some p => .ok (.int p)
  | none => tcpCfg.getD "port" .null

/-- `_tcp_call` up to `send_someip`: the signals of the method and the request. -/
def tcpCallSend {V : Type} [FloatArith V] (cat : Catalog V) (method : MessageDef) (sigIndex : SignalIndex V)
    (tcpPort : Option Int) (values : Dict String V) (timeoutMs : Int) :
    Except PyErr (List (SignalDef V) × Bytes) := do
  let tcpCfg := method.tcp.orEmpty
  let portValue ← callPort tcpCfg tcpPort
  raiseIf (portValue.truthy = false) (.systemExit s!"{method.name}: missing tcp.port")
  let _port ← portValue.toInt
  let _toMs ← (← tcpCfg.getD "timeout_ms" (.int timeoutMs)).toInt
  let (svcId, ifaceVer, methodId) ← resolveSomeip cat method
  let sigs ← sigIndex.subset method.signals
  let payload ← encode sigs values
  let sessionId := 1
  let payload := if (← e2eEnabled method) then wrap payload sessionId else payload
  return (sigs, buildMessage {
    serviceId := svcId, methodId, clientId := 0x0001, sessionId
    ifaceVer, msgType := mtRequest, payload, returnCode := rcOk })

/-- `_tcp_call` from `recv_someip` on. -/
def tcpCallReceive {V : Type} [FloatArith V] (method : MessageDef) (sigs : List (SignalDef V)) (sock : Sock) :
    Except PyErr (Dict String V) := do
  let (hdr, pl) ← (recvSomeip maxPayload sock).1
  raiseIf (hdr.msgType ≠ mtResponse)
    (.systemExit s!"TCP: expected RESPONSE got 0x{hexPad 2 hdr.msgType}")
  if (← e2eEnabled method) then
    let (plCore, counter) ← unwrap pl
    raiseIf (counter ≠ hdr.sessionId) (.systemExit "TCP: E2E counter mismatch")
    decode sigs plCore
  else decode sigs pl

/-- `_tcp_call`; `answer` is what comes back on the connection for a request. -/
def tcpCall {V : Type} [FloatArith V] (cat : Catalog V) (method : MessageDef) (sigIndex : SignalIndex V)
    (tcpPort : Option Int) (values : Dict String V) (timeoutMs : Int) (answer : Bytes → Sock) :
    Except PyErr (Dict String V) := do
  let (sigs, req) ← tcpCallSend cat method sigIndex tcpPort values timeoutMs
  tcpCallReceive method sigs (answer req)

/-- The request of a call. -/
def requestArgs (svcId ifaceVer methodId : Int) (e2e : Bool) (enc : Bytes) : MessageArgs where
  serviceId := svcId
  methodId := methodId
  clientId := 1
  sessionId := 1
  ifaceVer := ifaceVer
  msgType := mtRequest
  payload := if e2e then wrap enc 1 else enc
  returnCode := rcOk

section
variable {cat : Catalog} {m : MessageDef} {svcId ifaceVer methodId : Int} {sigs : List SignalDef}
  {e2e : Bool} {tcpPort : Option Int} {timeoutMs : Int}

theorem tcpCallSend_ok {sigIndex : SignalIndex} {values : Dict String ℚ} {req : Bytes}
    (hresolve : resolveSomeip cat m = .ok (svcId, ifaceVer, methodId))
    (hsigs : sigIndex.subset m.signals = .ok sigs) (hvalid : ∀ s ∈ sigs, s.Valid)
    (he : e2eEnabled m = .ok e2e) {sigs' : List SignalDef}
    (h : tcpCallSend cat m sigIndex tcpPort values timeoutMs = .ok (sigs', req)) :
    sigs' = sigs ∧
      req = buildMessage (requestArgs svcId ifaceVer methodId e2e (encodedBytes sigs values)) := by
  simp only [tcpCallSend, hresolve, hsigs, encode_eq hvalid, he, Except.ok_bind, Except.bind_eq_ok,
    Except.pure_eq_ok, Except.ok.injEq, Prod.mk.injEq] at h
  obtain ⟨_, -, _, -, _, -, _, -, _, -, rfl, rfl⟩ := h
  exact ⟨rfl, rfl⟩

theorem tcpCallSend_eq {sigIndex : SignalIndex} {values : Dict String ℚ} {v t : Value} {p n : Int}
    (hcall : callPort m.tcp.orEmpty tcpPort = .ok v) (htrue : v.truthy = true) (hp : v.toInt = .ok p)
    (ht : m.tcp.orEmpty.getD "timeout_ms" (.int timeoutMs) = .ok t) (hn : t.toInt = .ok n)
    (hresolve : resolveSomeip cat m = .ok (svcId, ifaceVer, methodId))
    (hsigs : sigIndex.subset m.signals = .ok sigs) (hvalid : ∀ s ∈ sigs, s.Valid)
    (he : e2eEnabled m = .ok e2e) :
    tcpCallSend cat m sigIndex tcpPort values timeoutMs =
      .ok (sigs, buildMessage (requestArgs svcId ifaceVer methodId e2e (encodedBytes sigs values))) := by
  simp only [tcpCallSend, hcall, htrue, hp, ht, hn, hresolve, hsigs, encode_eq hvalid, he, raiseIf,
    Bool.true_eq_false, if_false, Except.ok_bind]
  rfl

theorem Catalog.Valid.callPort_ok (hcat : cat.Valid) (hm : m ∈ cat.messages)
    (hkind : m.isTcpMethod = true) (hport : tcpPort ≠ some 0) :
    ∃ v p, callPort m.tcp.orEmpty tcpPort = .ok v ∧ v.truthy = true ∧ v.toInt = .ok p := by
  cases tcpPort with
  | some p =>
    have hp : p ≠ 0 := fun h => hport (by rw [h])
    exact ⟨.int p, p, rfl, by simpa [Value.truthy] using hp, rfl⟩
  | none =>
    have hchecked := validateMessage_ok (hcat.message m hm)
    obtain ⟨items, v, p, hcfg, htrue, hv, hp, hpos⟩ :=
      validatePort_ok (hchecked.tcp (MessageDef.isTcpMethod_iff.1 hkind).2)
    refine ⟨v, p, ?_, Value.truthy_of_toInt_pos hp hpos, hp⟩
    rw [Value.orEmpty, if_pos htrue, hcfg, callPort, Value.getD_eq_ok]
    exact ⟨items, rfl, by rw [hv, Option.getD_some]⟩

theorem requests_requestArgs {routes : Routes} {route : MethodRoute}
    (hroute : routes.get? (svcId, methodId) = some route) (he : e2eEnabled route.msg = .ok e2e)
    (hsvc : 0 ≤ svcId ∧ svcId < 65536) (hmethod : 0 ≤ methodId ∧ methodId < 65536) (enc : Bytes) :
    let args := requestArgs svcId ifaceVer methodId e2e enc
    Requests routes args.header.masked args.payload route enc := by
  intro args
  have hs : args.header.masked.serviceId = svcId := Int.emod_eq_of_lt hsvc.1 hsvc.2
  have hm : args.header.masked.methodId = methodId := Int.emod_eq_of_lt hmethod.1 hmethod.2
  refine ⟨rfl, by rw [hs, hm, hroute], ?_⟩
  cases e2e with
  | true => exact .inl ⟨he, passesE2e_iff.2 (unwrap_wrap enc 1)⟩
  | false => exact .inr ⟨he, rfl⟩

theorem length_requestArgs {enc : Bytes} :
    (requestArgs svcId ifaceVer methodId e2e enc).payload.length =
      enc.length + if e2e then 4 else 0 := by
  cases e2e with
  | true => exact length_wrap enc 1
  | false => rfl

theorem tcpCallReceive_eq {hdr : SomeIpHeader} {rsp rp enc : Bytes} {vals : Dict String ℚ}
    (he : e2eEnabled m = .ok e2e) (hrsp : RepliesTo hdr mtResponse rsp rp)
    (hlen : rp.length ≤ maxPayload) (hon : e2e = true → unwrap rp = .ok (enc, hdr.sessionId))
    (hoff : e2e = false → rp = enc) (hdec : decode sigs enc = .ok vals) {back : Sock}
    (hback : back.all = rsp) : tcpCallReceive m sigs back = .ok vals := by
  obtain ⟨rh, hparse, -, -, -, hsession, htype⟩ := hrsp.parse
  obtain ⟨f, rfl, rfl, rest, rfl⟩ := exists_frame_of_parseMessage hparse
  obtain ⟨sock', hrecv, -⟩ := f.recvSomeip_frame hlen hback
  cases e2e with
  | true =>
    simp only [tcpCallReceive, hrecv, Except.ok_bind, he, if_true, hon rfl]
    rw [raiseIf_neg (not_not.2 htype), raiseIf_neg (not_not.2 hsession.symm)]
    exact hdec
  | false =>
    simp only [tcpCallReceive, hrecv, Except.ok_bind, he, Bool.false_eq_true, if_false, hoff rfl]
    rw [raiseIf_neg (not_not.2 htype)]
    exact hdec

theorem RoutesOk.tcpHandler_requestArgs {routes : Routes} (hok : RoutesOk routes) {route : MethodRoute}
    (hget : routes.get? (svcId, methodId) = some route) (he : e2eEnabled route.msg = .ok e2e)
    (hsvc : 0 ≤ svcId ∧ svcId < 65536) (hmethod : 0 ≤ methodId ∧ methodId < 65536)
    (hlen : sizeOf route.sigs + (if e2e then 4 else 0) ≤ 4096) (values state : Dict String ℚ)
    {sock : Sock} :
    let enc := encodedBytes route.sigs values
    let vals := quantize route.sigs values
    let args := requestArgs svcId ifaceVer methodId e2e enc
    sock.all = buildMessage args →
      let r := tcpHandler routes state sock
      (∀ k ∈ route.sigs.map (·.name), (vals.get? k).isSome ∧ r.state.get? k = vals.get? k) ∧
      (∀ k ∉ route.sigs.map (·.name), r.state.get? k = state.get? k) ∧
      ∃ rsp, r.sent = [rsp] ∧ ∀ back : Sock, back.all = rsp →
        tcpCallReceive route.msg route.sigs back = .ok vals := by
  intro enc vals args hsock r
  have hvalid := hok.sigs_valid hget
  have hone := hok.oneEach hget
  have henc : enc.length = sizeOf route.sigs := length_encodedBytes _ _
  have hpayload : args.payload.length ≤ maxPayload := by
    rw [length_requestArgs, henc]
    exact hlen
  have hframe : 8 + args.payload.length < 2 ^ 32 := by
    unfold maxPayload at hpayload
    omega
  have hdec : decode route.sigs enc = .ok vals := by
    simpa using decode_encodedBytes hvalid values []
  have hacc : Accepts routes args.header.masked args.payload route enc :=
    ⟨requests_requestArgs hget he hsvc hmethod enc, _, encodedSize_eq hvalid, henc.ge⟩
  obtain ⟨vals', enc', rsp, rp, hdec', henc', hset, hkeep, hsent, hrsp, hrplen, hon, hoff⟩ :=
    (hok.frameSafe (args.frame hframe).onWire hpayload state).accepted route enc hacc
  obtain rfl : vals = vals' := Except.ok.inj (hdec.symm.trans hdec')
  obtain rfl : enc = enc' := by
    rw [encode_eq hvalid, encodedBytes_quantize hvalid hone] at henc'
    exact Except.ok.inj henc'
  rw [← args.frame_bytes hframe] at hsock
  obtain ⟨hstate, hsent'⟩ := tcpHandler_frame routes (f := args.frame hframe) hpayload hsock
    state
  refine ⟨fun k hk => ?_, fun k hk => ?_, rsp, hsent'.trans hsent, fun back hback => ?_⟩
  · obtain ⟨hsome, heq⟩ := hset k hk
    exact ⟨heq ▸ hsome, by rw [hstate]; exact heq⟩
  · rw [hstate]
    exact hkeep k hk
  · exact tcpCallReceive_eq he hrsp (hrplen.trans hpayload) (fun h => hon (h ▸ he))
      (fun h => hoff (h ▸ he)) hdec hback

end

/-- A method call end to end. -/
theorem tcpCall_tcpHandler {doc : Value} {cat : Catalog} {routes : Routes} {m : MessageDef}
    {svcId ifaceVer methodId : Int} {sigs : List SignalDef} {size : Nat} {e2e : Bool}
    (hload : loadCatalog doc = .ok cat)
    (hroutes : buildTcpRoutes cat (.fromSignals cat.signals) = .ok routes)
    (hm : m ∈ cat.messages) (hkind : m.isTcpMethod = true)
    (hresolve : resolveSomeip cat m = .ok (svcId, ifaceVer, methodId))
    (hsvc : 0 ≤ svcId ∧ svcId < 65536) (hmethod : 0 ≤ methodId ∧ methodId < 65536)
    (hsigs : (SignalIndex.fromSignals cat.signals).subset m.signals = .ok sigs)
    (hsize : encodedSize sigs = .ok size) (he : e2eEnabled m = .ok e2e)
    (hlen : size + (if e2e then 4 else 0) ≤ 4096)
    (values state : Dict String ℚ) (tcpPort : Option Int) (timeoutMs : Int) :
    ∃ enc vals, encode sigs values = .ok enc ∧ decode sigs enc = .ok vals ∧
      -- the client sends, unless it is given port 0 or the timeout of the catalog is no number
      (tcpPort ≠ some 0 →
        (∃ t n, m.tcp.orEmpty.getD "timeout_ms" (.int timeoutMs) = .ok t ∧ t.toInt = .ok n) →
        ∃ req, tcpCallSend cat m (.fromSignals cat.signals) tcpPort values timeoutMs =
          .ok (sigs, req)) ∧
      ∀ req, tcpCallSend cat m (.fromSignals cat.signals) tcpPort values timeoutMs = .ok (sigs, req) →
        (∃ hdr pl route, parseMessage req = .ok (hdr, pl) ∧
          routes.get? (hdr.serviceId, hdr.methodId) = some route ∧ route.msg = m) ∧
        ∀ sock : Sock, sock.all = req →
          let r := tcpHandler routes state sock
          (∀ k ∈ m.signals, (vals.get? k).isSome ∧ r.state.get? k = vals.get? k) ∧
          (∀ k ∉ m.signals, r.state.get? k = state.get? k) ∧
          ∃ rsp, r.sent = [rsp] ∧ ∀ back : Sock, back.all = rsp →
            tcpCall cat m (.fromSignals cat.signals) tcpPort values timeoutMs (fun _ => back) =
              .ok vals := by
  have hcat := Catalog.Valid.of_loadCatalog hload
  have hok := RoutesOk.of_buildTcpRoutes hcat hroutes
  have hvalid := hcat.subset_valid hsigs
  rw [encodedSize_eq hvalid] at hsize
  cases hsize
  obtain ⟨route, hget, rfl, rfl, rfl⟩ := get?_of_resolveSomeip hroutes hm hkind hresolve hsigs
  have hnames := SignalIndex.subset_names hsigs
  have hdec : decode route.sigs (encodedBytes route.sigs values) =
      .ok (quantize route.sigs values) := by
    simpa using decode_encodedBytes hvalid values []
  refine ⟨_, _, encode_eq hvalid values, hdec, fun hport htimeout => ?_, fun req hreq => ?_⟩
  · obtain ⟨v, p, hcall, htrue, hp⟩ := hcat.callPort_ok hm hkind hport
    obtain ⟨t, n, ht, hn⟩ := htimeout
    exact ⟨_, tcpCallSend_eq hcall htrue hp ht hn hresolve hsigs hvalid he⟩
  · obtain ⟨-, rfl⟩ := tcpCallSend_ok hresolve hsigs hvalid he hreq
    set args := requestArgs svcId route.ifaceVer methodId e2e (encodedBytes route.sigs values)
      with hargs
    have hroute : Requests routes args.header.masked args.payload route _ :=
      requests_requestArgs hget he hsvc hmethod _
    have hframe : 8 + args.payload.length < 2 ^ 32 := by
      rw [hargs, length_requestArgs, length_encodedBytes]
      omega
    refine ⟨⟨_, _, route, parseMessage_buildMessage _ hframe, hroute.get?_eq, rfl⟩,
      fun sock hsock => ?_⟩
    obtain ⟨hset, hkeep, rsp, hsent, hback⟩ :=
      hok.tcpHandler_requestArgs hget he hsvc hmethod hlen values state hsock
    rw [hnames] at hset hkeep
    refine ⟨hset, hkeep, rsp, hsent, fun back hall => ?_⟩
    rw [tcpCall, hreq, Except.ok_bind]
    exact hback back hall

theorem tcpCall_tcpHandler_example :
    let cat := exampleCatalog
    let values : Dict String ℚ := Dict.ofList [("throttle_position", 50)]
    ∃ enc vals req, encode exampleSigs values = .ok enc ∧ decode exampleSigs enc = .ok vals ∧
      tcpCallSend cat exampleMethod (.fromSignals cat.signals) none values 1000 =
        .ok (exampleSigs, req) ∧
      ∃ rsp, (tcpHandler exampleRoutes (initState cat.signals) (Stream.whole req)).sent = [rsp] ∧
        tcpCall cat exampleMethod (.fromSignals cat.signals) none values 1000
          (fun _ => Stream.whole rsp) = .ok vals := by
  intro cat values
  have he : e2eEnabled exampleMethod = .ok true := by decide +kernel
  obtain ⟨enc, vals, henc, hdec, hsend, hcall⟩ :=
    tcpCall_tcpHandler loadCatalog_example buildTcpRoutes_example (List.head_mem _)
      (by decide +kernel) resolveSomeip_example (by decide) (by decide) subset_example encodedSize_example he
      (by decide) values (initState cat.signals) none 1000
  obtain ⟨req, hreq⟩ := hsend (by decide) ⟨.int 200, 200, rfl, rfl⟩
  obtain ⟨-, hrun⟩ := hcall req hreq
  obtain ⟨-, -, rsp, hsent, hback⟩ := hrun (Stream.whole req) (Stream.all_whole req)
  exact ⟨enc, vals, req, henc, hdec, hreq, rsp, hsent, hback _ (Stream.all_whole rsp)⟩

end AutoEth
