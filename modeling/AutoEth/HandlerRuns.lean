import AutoEth.Handler

/-!
# Runs of the connection handler

`serve` runs `handleFrame` over a list of frames up to the first on which it raises. Which those are
(`Stops`) depends on the message alone, since both stores answer a request with the values that it has
written (`Store.Echoes`). `handlerStep_of_stops`, `handlerStep_of_not_stops`, `handlerStep_oversize` and
`handlerStep_nil` are the turns of the loop on a connection that carries frames; `run_of_stops` and
`run_of_not_stops` put them together: over frames that are not too large the loop makes the run of `serve`.
-/

namespace AutoEth

variable {V : Type}

def wire (fs : List Frame) : Bytes := fs.flatMap Frame.bytes

@[simp] theorem wire_nil : wire [] = [] := rfl

@[simp] theorem wire_cons (f : Frame) (fs : List Frame) : wire (f :: fs) = f.bytes ++ wire fs := rfl

theorem wire_append (fs gs : List Frame) : wire (fs ++ gs) = wire fs ++ wire gs :=
  List.flatMap_append

/-- The frames that `recv_someip` takes. -/
def Frame.Small (f : Frame) : Prop := f.payload.length ≤ maxPayload

instance (f : Frame) : Decidable f.Small := by unfold Frame.Small; infer_instance

/-- A request that sets `gear_position` to 5. -/
def gearFrame : Frame where
  hdr := ⟨0x1002, 4, 9, 1, 1, 1, 1, 0, 0⟩
  payload := [5]
  onWire := ⟨by decide⟩
  length_eq := by decide

/-! ### Frames that end the thread -/

namespace SignalDatabase

/-- The database has the signals of the routes. -/
def Knows (db : SignalDatabase V) (routes : Routes V) : Prop :=
  ∀ {key route}, routes.get? key = some route → ∀ s ∈ route.sigs, s.name ∈ db.data.keys

theorem keys_setMultiple (db : SignalDatabase V) (values : Dict String V) :
    (db.setMultiple values).data.keys = db.data.keys :=
  Dict.keys_foldl_set_of_contains ..

theorem knows_ofSignals {cat : Catalog V} {routes : Routes V}
    (h : buildTcpRoutes cat (.fromSignals cat.signals) = .ok routes) : (ofSignals cat.signals).Knows routes := by
  intro key route hget s hs
  obtain ⟨m, -, -, hr⟩ := isTcpRoute_of_get? h hget
  show s.name ∈ (initState cat.signals).keys
  rw [initState, Dict.mem_keys_ofList, List.map_map]
  exact List.mem_map_of_mem (f := fun t => t.name) (SignalIndex.subset_mem hr.sigs hs)

end SignalDatabase

section
variable [FloatArith V]

/-- A request that the handler raises on: its E2E setting cannot be read, or it passes the E2E check
and its payload cannot be decoded, or its values cannot be encoded again. -/
def Stops (routes : Routes V) (hdr : SomeIpHeader) (pl : Bytes) : Prop :=
  hdr.msgType = mtRequest ∧ ∃ route, routes.get? (hdr.serviceId, hdr.methodId) = some route ∧
    ((∃ e, e2eEnabled route.msg = .error e) ∨ ∃ core, Requests routes hdr pl route core ∧
      ∃ e, (decode route.sigs core).bind (encode route.sigs) = .error e)

/-- In the states `Ok` a store answers a request with the values that it has just written. -/
structure Store.Echoes {σ : Type} (store : Store σ V) (routes : Routes V) (Ok : σ → Prop) : Prop where
  encode_reply : ∀ {s key route core values}, Ok s → routes.get? key = some route →
    decode route.sigs core = .ok values →
    encode route.sigs (store.reply (store.write s values) route.sigs values) = encode route.sigs values
  write : ∀ {s values}, Ok s → Ok (store.write s values)

theorem nodeStore_echoes (routes : Routes V) : (nodeStore (V := V)).Echoes routes fun _ => True :=
  ⟨fun _ _ _ => rfl, fun _ => trivial⟩

end

section
variable {σ : Type} [FloatArith V] {store : Store σ V} {routes : Routes V} {Ok : σ → Prop}

theorem response_eq {route : MethodRoute V} {hdr : SomeIpHeader} {values : Dict String V} {b : Bool}
    {enc : Bytes} (he : e2eEnabled route.msg = .ok b) (henc : encode route.sigs values = .ok enc) :
    response route hdr values = .ok (buildMessage {
      serviceId := hdr.serviceId, methodId := hdr.methodId
      clientId := hdr.clientId, sessionId := hdr.sessionId
      ifaceVer := route.ifaceVer, msgType := mtResponse
      payload := if b then wrap enc hdr.sessionId else enc, returnCode := rcOk }) := by
  simp only [response, he, henc, Except.ok_bind, Except.pure_eq_ok]

namespace Store.Echoes

theorem serveRequest_raised (hecho : store.Echoes routes Ok) {hdr : SomeIpHeader} {pl core : Bytes}
    {route : MethodRoute V} (h : Requests routes hdr pl route core) {s : σ} (hs : Ok s) :
    (serveRequest store s route hdr core).raised = none ↔
      ¬ ∃ e, (decode route.sigs core).bind (encode route.sigs) = .error e := by
  obtain ⟨b, he⟩ := h.e2eEnabled_ok
  unfold serveRequest
  rcases hdec : decode route.sigs core with e | values
  · simp [Except.bind]
  · have hreply := hecho.encode_reply hs h.get?_eq hdec
    simp only [Except.bind]
    rcases henc : encode route.sigs values with e | enc
    · rw [response, hreply, henc]
      simp
    · rw [response_eq he (hreply.trans henc)]
      simp

/-- `Stops` says when a message ends the thread. -/
theorem handleFrame_raised (hecho : store.Echoes routes Ok) {s : σ} (hs : Ok s) (hdr : SomeIpHeader)
    (pl : Bytes) : (handleFrame store routes s hdr pl).raised = none ↔ ¬ Stops routes hdr pl := by
  rcases handleFrame_cases store routes s hdr pl with
    ⟨hreq, h⟩ | ⟨-, hnone, h⟩ | ⟨route, hreq, hroute, ⟨e, he, h⟩ | ⟨⟨b, he⟩, hno, h⟩ | ⟨core, hr, h⟩⟩
  · rw [h]
    exact iff_of_true rfl fun hs => hreq hs.1
  · rw [h]
    refine iff_of_true rfl fun hs => ?_
    obtain ⟨-, route, hroute, -⟩ := hs
    rw [hnone] at hroute
    cases hroute
  · rw [h]
    exact iff_of_false (by simp) (not_not.2 ⟨hreq, route, hroute, .inl ⟨e, he⟩⟩)
  · rw [h]
    refine iff_of_true rfl fun hs => ?_
    obtain ⟨-, route', hroute', ⟨e, he'⟩ | ⟨core, hr, -⟩⟩ := hs
    · rw [hroute] at hroute'
      cases hroute'
      rw [he] at he'
      cases he'
    · exact hno route' core hr
  · rw [h, hecho.serveRequest_raised hr hs]
    refine not_congr ⟨fun hs => ⟨hreq, route, hroute, .inr ⟨core, hr, hs⟩⟩, fun hs => ?_⟩
    obtain ⟨-, route', hroute', ⟨e, he'⟩ | ⟨core', hr', hs⟩⟩ := hs
    · obtain ⟨b, he⟩ := hr.e2eEnabled_ok
      rw [hroute] at hroute'
      cases hroute'
      rw [he] at he'
      cases he'
    · obtain ⟨rfl, rfl⟩ := hr.unique hr'
      exact hs

theorem handleFrame_ok (hecho : store.Echoes routes Ok) {s : σ} (hs : Ok s) (hdr : SomeIpHeader)
    (pl : Bytes) : Ok (handleFrame store routes s hdr pl).state := by
  rcases handleFrame_cases store routes s hdr pl with
    ⟨-, h⟩ | ⟨-, -, h⟩ | ⟨route, -, -, ⟨e, -, h⟩ | ⟨-, -, h⟩ | ⟨core, -, h⟩⟩
  iterate 4 rw [h]; exact hs
  rw [h, serveRequest]
  cases decode route.sigs core with
  | error e => exact hs
  | ok values =>
    dsimp only
    split
    · exact hecho.write hs
    · exact hecho.write hs

/-! ### Turns of the loop -/

theorem handlerStep_of_not_stops (hecho : store.Echoes routes Ok) {c : Conn σ} (hc : Ok c.state) {f : Frame}
    (hf : f.Small) (hstops : ¬ Stops routes f.hdr f.payload) {rest : Bytes} (h : c.sock.all = f.bytes ++ rest) :
    ∃ sock', sock'.all = rest ∧ handlerStep store routes c =
      let r := handleFrame store routes c.state f.hdr f.payload
      .again ⟨sock', r.state, c.sent ++ r.sent⟩ := by
  obtain ⟨sock', hr, hrest⟩ := f.recvSomeip_frame hf h
  refine ⟨sock', hrest, ?_⟩
  have hnone := (hecho.handleFrame_raised hc f.hdr f.payload).2 hstops
  simp only [handlerStep, hr, hnone]

theorem handlerStep_of_stops (hecho : store.Echoes routes Ok) {c : Conn σ} (hc : Ok c.state) {f : Frame}
    (hf : f.Small) (hstops : Stops routes f.hdr f.payload) {rest : Bytes} (h : c.sock.all = f.bytes ++ rest) :
    handlerStep store routes c =
      let r := handleFrame store routes c.state f.hdr f.payload
      .leave ⟨r.state, c.sent ++ r.sent, r.raised⟩ := by
  obtain ⟨sock', hr, -⟩ := f.recvSomeip_frame hf h
  have hne : (handleFrame store routes c.state f.hdr f.payload).raised ≠ none :=
    fun h => (hecho.handleFrame_raised hc f.hdr f.payload).1 h hstops
  obtain ⟨e, he⟩ := Option.ne_none_iff_exists'.1 hne
  simp only [handlerStep, hr, he]

end Store.Echoes

theorem handlerStep_nil {c : Conn σ} (h : c.sock.all = []) :
    handlerStep store routes c = .leave ⟨c.state, c.sent, none⟩ := by
  obtain ⟨msg, sock', hr⟩ := recvSomeip_nil maxPayload h
  rw [handlerStep, hr]

variable (store routes) in
theorem handlerStep_oversize {c : Conn σ} {f : Frame} (hf : ¬ f.Small) {rest : Bytes}
    (h : c.sock.all = f.bytes ++ rest) :
    ∃ sock', sock'.all = f.payload ++ rest ∧
      handlerStep store routes c = .again ⟨sock', c.state, c.sent⟩ := by
  obtain ⟨msg, sock', hr, hrest⟩ := f.recvSomeip_oversize (not_le.1 hf) h
  exact ⟨sock', hrest, by rw [handlerStep, hr]⟩

/-! ### Runs over frames -/

variable (store routes)

/-- Serving a list of frames, up to the first on which it raises. -/
def serve : σ → List Bytes → List Frame → Ended σ
  | s, sent, [] => ⟨s, sent, none⟩
  | s, sent, f :: fs =>
    let r := handleFrame store routes s f.hdr f.payload
    match r.raised with
    | none => serve r.state (sent ++ r.sent) fs
    | some e => ⟨r.state, sent ++ r.sent, some e⟩

variable {store routes}

namespace Store.Echoes

theorem serve_cons_of_stops (hecho : store.Echoes routes Ok) {s : σ} (hs : Ok s) {f : Frame}
    (hf : Stops routes f.hdr f.payload) (sent : List Bytes) (fs : List Frame) :
    serve store routes s sent (f :: fs) =
      let r := handleFrame store routes s f.hdr f.payload
      ⟨r.state, sent ++ r.sent, r.raised⟩ := by
  have hne : (handleFrame store routes s f.hdr f.payload).raised ≠ none :=
    fun h => (hecho.handleFrame_raised hs f.hdr f.payload).1 h hf
  obtain ⟨e, he⟩ := Option.ne_none_iff_exists'.1 hne
  simp only [serve, he]

theorem serve_cons_of_not_stops (hecho : store.Echoes routes Ok) {s : σ} (hs : Ok s) {f : Frame}
    (hf : ¬ Stops routes f.hdr f.payload) (sent : List Bytes) (fs : List Frame) :
    serve store routes s sent (f :: fs) =
      let r := handleFrame store routes s f.hdr f.payload
      serve store routes r.state (sent ++ r.sent) fs := by
  simp only [serve, (hecho.handleFrame_raised hs f.hdr f.payload).2 hf]

theorem serve_raised (hecho : store.Echoes routes Ok) {s : σ} (hs : Ok s) (sent : List Bytes) (fs : List Frame) :
    (serve store routes s sent fs).raised = none ↔ ∀ f ∈ fs, ¬ Stops routes f.hdr f.payload := by
  induction fs generalizing s sent with
  | nil => simp [serve]
  | cons f fs ih =>
    by_cases hf : Stops routes f.hdr f.payload
    · rw [hecho.serve_cons_of_stops hs hf]
      exact iff_of_false (fun h => (hecho.handleFrame_raised hs f.hdr f.payload).1 h hf) fun h =>
        h f (List.mem_cons_self ..) hf
    · rw [hecho.serve_cons_of_not_stops hs hf, List.forall_mem_cons]
      simpa [hf] using ih (hecho.handleFrame_ok hs f.hdr f.payload) _

/-- Over small frames the loop makes the run of `serve`, however the connection is cut. -/
theorem result_eq_serve (hecho : store.Echoes routes Ok) {fs : List Frame} (hsmall : ∀ f ∈ fs, f.Small)
    {c : Conn σ} (hc : Ok c.state) (h : c.sock.all = wire fs) :
    (handlerLoop store routes).result c = serve store routes c.state c.sent fs := by
  induction fs generalizing c with
  | nil => exact Loop.result_leave (L := handlerLoop store routes) (handlerStep_nil h)
  | cons f fs ih =>
    rw [wire_cons] at h
    have hfs := hsmall f (List.mem_cons_self ..)
    by_cases hf : Stops routes f.hdr f.payload
    · rw [Loop.result_leave (L := handlerLoop store routes) (hecho.handlerStep_of_stops hc hfs hf h),
        hecho.serve_cons_of_stops hc hf]
    · obtain ⟨sock', hrest, hstep⟩ := hecho.handlerStep_of_not_stops hc hfs hf h
      rw [Loop.result_again (L := handlerLoop store routes) hstep, hecho.serve_cons_of_not_stops hc hf]
      exact ih (fun g hg => hsmall g (List.mem_cons_of_mem _ hg)) (c := ⟨sock', _, _⟩)
        (hecho.handleFrame_ok hc f.hdr f.payload) hrest

end Store.Echoes

end

/-! ### The two stores -/

section
variable [FloatArith V] {routes : Routes V} {fs : List Frame} {sock : Sock}

theorem SignalDatabase.getD_getSubset_setMultiple {db : SignalDatabase V} {sigs : List (SignalDef V)}
    (hknows : ∀ s ∈ sigs, s.name ∈ db.data.keys) {core : Bytes} {values : Dict String V}
    (hdec : decode sigs core = .ok values) {s : SignalDef V} (hs : s ∈ sigs) :
    ((db.setMultiple values).getSubset (sigs.map (·.name))).getD s.name s.default =
      values.getD s.name s.default := by
  have hname : s.name ∈ sigs.map (·.name) := List.mem_map_of_mem hs
  obtain ⟨v, hv⟩ := Option.isSome_iff_exists.1 ((decode_isSome_iff hdec s.name).2 hname)
  have hset : db.setMultiple values = ⟨db.data.update values.entries⟩ := by
    refine congrArg SignalDatabase.mk (Dict.foldl_set_of_contains fun e he => ?_)
    have hsome := Dict.get?_isSome.2 (List.mem_map_of_mem (f := Prod.fst) he)
    obtain ⟨t, ht, hk⟩ := List.mem_map.1 ((decode_isSome_iff hdec e.1).1 hsome)
    exact hk ▸ hknows t ht
  have hsub : (getSubset ⟨db.data.update values.entries⟩ (sigs.map (·.name))).get? s.name = some v := by
    rw [getSubset, Dict.get?_ofList_map hname fun k _ hk => by rw [hk], Dict.getD,
      Dict.get?_update_entries, hv]
    rfl
  rw [hset, Dict.getD, hsub, Dict.getD, hv]

theorem dbStore_echoes (routes : Routes V) : (dbStore (V := V)).Echoes routes (SignalDatabase.Knows · routes) where
  encode_reply hdb hget hdec :=
    encode_congr fun _ hs => SignalDatabase.getD_getSubset_setMultiple (hdb hget) hdec hs
  write {db values} hdb _ _ hget s hs := by
    show s.name ∈ (db.setMultiple values).data.keys
    rw [SignalDatabase.keys_setMultiple]
    exact hdb hget s hs

theorem tcpHandler_eq_serve (hsmall : ∀ f ∈ fs, f.Small) (h : sock.all = wire fs)
    (state : Dict String V) :
    tcpHandler routes state sock = serve nodeStore routes state [] fs :=
  (nodeStore_echoes routes).result_eq_serve hsmall (c := ⟨sock, state, []⟩) trivial h

variable (routes) in
theorem tcpHandler_frame {f : Frame} (hf : f.Small) (h : sock.all = f.bytes) (state : Dict String V) :
    let e := tcpHandler routes state sock
    let r := handleFrame nodeStore routes state f.hdr f.payload
    e.state = r.state ∧ e.sent = r.sent := by
  have hsmall : ∀ g ∈ [f], g.Small := by simpa using hf
  have hwire : sock.all = wire [f] := by rw [h, wire_cons, wire_nil, List.append_nil]
  rw [tcpHandler_eq_serve hsmall hwire, serve]
  dsimp only
  split
  · exact ⟨rfl, List.nil_append _⟩
  · exact ⟨rfl, List.nil_append _⟩

theorem tcpHandlerWithDb_eq_serve (hsmall : ∀ f ∈ fs, f.Small) (h : sock.all = wire fs)
    {db : SignalDatabase V} (hdb : db.Knows routes) :
    tcpHandlerWithDb routes db sock = serve dbStore routes db [] fs :=
  (dbStore_echoes routes).result_eq_serve hsmall (c := ⟨sock, db, []⟩) hdb h

end

end AutoEth
