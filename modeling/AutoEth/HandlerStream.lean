import AutoEth.HandlerSafety

/-!
# Handlers on a stream of frames

Two ways in which a peer can disturb a connection. A frame with a payload over 4096 bytes is refused
with its payload unread, and the loop reads on inside it: state and replies are those of the stream without
the frame as long as what it reads there is passed over, up to the end of a frame (`handlers_keepFrames`).
A request that is shorter than the signals of its method makes `decode` raise where nothing catches it, and
a request with a value that overflows `encode`: over frames that are not too large the handler serves all of
them exactly when none is such a request (`handlers_servesAll_iff`).
-/

namespace AutoEth

variable {V : Type} {routes : Routes V}

/-! ### Bytes that are passed over -/

/-- A message that the loop passes over: no request, or one that fails the E2E check of its method. -/
def Ignored (routes : Routes V) (hdr : SomeIpHeader) (pl : Bytes) : Prop :=
  hdr.msgType = mtRequest → ∃ route b, routes.get? (hdr.serviceId, hdr.methodId) = some route ∧
    e2eEnabled route.msg = .ok b ∧ ∀ core, ¬ Requests routes hdr pl route core

/-- Bytes that the loop passes over: headers with a length out of range, of which it takes nothing but the
header, and messages that it ignores. -/
inductive PassedOver (routes : Routes V) : Bytes → Prop
  | nil : PassedOver routes []
  | header {hdr : SomeIpHeader} {bs : Bytes} : hdr.OnWire →
      (hdr.length < 8 ∨ 8 + maxPayload < hdr.length) → PassedOver routes bs →
      PassedOver routes (hdr.pack ++ bs)
  | message {f : Frame} {bs : Bytes} : f.Small → Ignored routes f.hdr f.payload → PassedOver routes bs →
      PassedOver routes (f.bytes ++ bs)

/-- The beginning of a message, of which the rest is missing. -/
def Unfinished (bs : Bytes) : Prop :=
  bs.length < hdrSize ∨ ∃ (hdr : SomeIpHeader) (rest : Bytes), hdr.OnWire ∧ bs = hdr.pack ++ rest ∧
    8 ≤ hdr.length ∧ hdr.length ≤ 8 + maxPayload ∧ (8 + rest.length : Int) < hdr.length

/-- Zeros are headers with a length field of zero. -/
theorem passedOver_zeros (routes : Routes V) (n : Nat) : PassedOver routes (List.replicate (16 * n) 0) := by
  induction n with
  | zero => exact .nil
  | succ n ih =>
    have hpack : (⟨0, 0, 0, 0, 0, 0, 0, 0, 0⟩ : SomeIpHeader).pack = List.replicate 16 0 := by decide
    have hsplit : List.replicate (16 * (n + 1)) (0 : UInt8) =
        (⟨0, 0, 0, 0, 0, 0, 0, 0, 0⟩ : SomeIpHeader).pack ++ List.replicate (16 * n) 0 := by
      rw [hpack, ← List.replicate_add, Nat.add_comm, Nat.mul_add]
    rw [hsplit]
    exact .header ⟨by decide⟩ (.inl (by decide)) ih

/-- The frames of a list that are not too large. -/
abbrev smallFrames (fs : List Frame) : List Frame := fs.filter fun f => f.payload.length ≤ maxPayload

theorem smallFrames_cons_of_small {f : Frame} (hf : f.Small) (fs : List Frame) :
    smallFrames (f :: fs) = f :: smallFrames fs :=
  List.filter_cons_of_pos (decide_eq_true hf)

theorem smallFrames_cons_of_not_small {f : Frame} (hf : ¬ f.Small) (fs : List Frame) :
    smallFrames (f :: fs) = smallFrames fs :=
  List.filter_cons_of_neg (by simpa [Frame.Small] using hf)

theorem passedOver_smallFrames {fs : List Frame} (h : ∀ f ∈ fs, f.Small → Ignored routes f.hdr f.payload) :
    PassedOver routes (wire (smallFrames fs)) := by
  induction fs with
  | nil => exact .nil
  | cons f fs ih =>
    have hfs := ih fun g hg => h g (List.mem_cons_of_mem _ hg)
    by_cases hf : f.Small
    · rw [smallFrames_cons_of_small hf, wire_cons]
      exact .message hf (h f (List.mem_cons_self ..) hf) hfs
    · rw [smallFrames_cons_of_not_small hf]
      exact hfs

section
variable {σ : Type} [FloatArith V] {store : Store σ V} {Ok : σ → Prop}

theorem Ignored.handleFrame_eq {hdr : SomeIpHeader} {pl : Bytes} (h : Ignored routes hdr pl) (s : σ) :
    handleFrame store routes s hdr pl = ⟨s, [], none⟩ := by
  rcases handleFrame_cases store routes s hdr pl with
    ⟨-, heq⟩ | ⟨hreq, hnone, -⟩ | ⟨route, hreq, hroute, ⟨e, he, -⟩ | ⟨-, -, heq⟩ | ⟨core, hr, -⟩⟩
  · exact heq
  · obtain ⟨route, -, hroute, -⟩ := h hreq
    rw [hnone] at hroute
    cases hroute
  · obtain ⟨route', b, hroute', hb, -⟩ := h hreq
    rw [hroute] at hroute'
    cases hroute'
    rw [he] at hb
    cases hb
  · exact heq
  · obtain ⟨route', -, hget, -, hno⟩ := h hreq
    cases hr.get?_eq.symm.trans hget
    exact absurd hr (hno core)

variable (routes store) in
theorem handlerStep_badHeader {c : Conn σ} {hdr : SomeIpHeader} (hwire : hdr.OnWire)
    (hlen : hdr.length < 8 ∨ 8 + maxPayload < hdr.length) {rest : Bytes} (h : c.sock.all = hdr.pack ++ rest) :
    ∃ sock', sock'.all = rest ∧ handlerStep store routes c = .again ⟨sock', c.state, c.sent⟩ := by
  have hle : hdrSize ≤ c.sock.all.length := by
    rw [h]
    simp [hdrSize]
  obtain ⟨hdr', sock', hu, hall, hrecv⟩ := recvSomeip_of_le maxPayload hle
  rw [h, List.take_left' (by simp [hdrSize])] at hu
  rw [h, List.drop_left' (by simp [hdrSize])] at hall
  have hu' := SomeIpHeader.unpack_pack_append hdr []
  rw [List.append_nil, hwire.masked_eq, hu] at hu'
  cases hu'
  refine ⟨sock', hall, ?_⟩
  rw [handlerStep, hrecv]
  by_cases hneg : hdr.length - 8 < 0
  · simp only [if_pos hneg]
  · have hlarge : (maxPayload : Int) < hdr.length - 8 := by omega
    simp only [if_neg hneg, if_pos hlarge]

theorem handlerStep_unfinished {c : Conn σ} (h : Unfinished c.sock.all) :
    handlerStep store routes c = .leave ⟨c.state, c.sent, none⟩ := by
  rcases h with hlt | ⟨hdr, rest, hwire, hall, hlo, hhi, hrest⟩
  · obtain ⟨sock', hr, -⟩ := recvExact_of_lt hlt
    rw [handlerStep, recvSomeip, hr]
  · have hle : hdrSize ≤ c.sock.all.length := by
      rw [hall]
      simp [hdrSize]
    obtain ⟨hdr', sock', hu, hall', hrecv⟩ := recvSomeip_of_le maxPayload hle
    rw [hall, List.take_left' (by simp [hdrSize])] at hu
    rw [hall, List.drop_left' (by simp [hdrSize])] at hall'
    have hu' := SomeIpHeader.unpack_pack_append hdr []
    rw [List.append_nil, hwire.masked_eq, hu] at hu'
    cases hu'
    have hshort : sock'.all.length < (hdr.length - 8).toNat := by
      rw [hall']
      omega
    obtain ⟨sock'', hr, -⟩ := recvExact_of_lt hshort
    simp only [handlerStep, hrecv, if_neg (show ¬ hdr.length - 8 < 0 by omega),
      if_neg (show ¬ (maxPayload : Int) < hdr.length - 8 by omega), hr, Except.error_bind]

variable (store) in
theorem handlerStep_ignored {c : Conn σ} {f : Frame} (hf : f.Small) (hign : Ignored routes f.hdr f.payload)
    {rest : Bytes} (h : c.sock.all = f.bytes ++ rest) :
    ∃ sock', sock'.all = rest ∧ handlerStep store routes c = .again ⟨sock', c.state, c.sent⟩ := by
  obtain ⟨sock', hr, hrest⟩ := f.recvSomeip_frame hf h
  refine ⟨sock', hrest, ?_⟩
  simp only [handlerStep, hr, hign.handleFrame_eq, List.append_nil]

variable (store) in
/-- The loop comes to what is behind bytes that are passed over, with the same signal values and replies. -/
theorem PassedOver.result_eq {bs : Bytes} (h : PassedOver routes bs) {c : Conn σ} {rest : Bytes}
    (hsock : c.sock.all = bs ++ rest) :
    ∃ sock', sock'.all = rest ∧
      (handlerLoop store routes).result c = (handlerLoop store routes).result ⟨sock', c.state, c.sent⟩ := by
  induction h generalizing c with
  | nil => exact ⟨c.sock, hsock, rfl⟩
  | header hwire hlen _ ih =>
    rw [List.append_assoc] at hsock
    obtain ⟨sock₁, hall₁, hstep⟩ := handlerStep_badHeader routes store hwire hlen hsock
    obtain ⟨sock', hall, hres⟩ := ih (c := ⟨sock₁, c.state, c.sent⟩) hall₁
    exact ⟨sock', hall, (Loop.result_again (L := handlerLoop store routes) hstep).trans hres⟩
  | message hf hign _ ih =>
    rw [List.append_assoc] at hsock
    obtain ⟨sock₁, hall₁, hstep⟩ := handlerStep_ignored store hf hign hsock
    obtain ⟨sock', hall, hres⟩ := ih (c := ⟨sock₁, c.state, c.sent⟩) hall₁
    exact ⟨sock', hall, (Loop.result_again (L := handlerLoop store routes) hstep).trans hres⟩

/-! ### Frames that are too large -/

/-- Started on the frames `fs`, the handler ends with the signal values and the replies with which it ends
without the frames that are too large. -/
def KeepsFrames (store : Store σ V) (routes : Routes V) (s : σ) (fs : List Frame) (sock : Sock) : Prop :=
  ∀ sock' : Sock, sock'.all = wire (fs.filter fun f => f.payload.length ≤ maxPayload) →
    let r := (handlerLoop store routes).result ⟨sock, s, []⟩
    let r' := (handlerLoop store routes).result ⟨sock', s, []⟩
    r.state = r'.state ∧ r.sent = r'.sent

/-- The frames that are too large do no harm. A frame that ends the thread hides what is behind it. Read from
the start of its payload, a frame that is too large and the frames that are swallowed with it are passed over,
up to the end of a frame or with the stream running out, and so would be the swallowed frames themselves. -/
inductive Unaffected (routes : Routes V) : List Frame → Prop
  | nil : Unaffected routes []
  | stops {f : Frame} {fs : List Frame} : f.Small → Stops routes f.hdr f.payload → Unaffected routes (f :: fs)
  | small {f : Frame} {fs : List Frame} : f.Small → Unaffected routes fs → Unaffected routes (f :: fs)
  | oversize {f : Frame} {swallowed fs : List Frame} : ¬ f.Small →
      PassedOver routes (f.payload ++ wire swallowed) →
      (∀ g ∈ swallowed, g.Small → Ignored routes g.hdr g.payload) → Unaffected routes fs →
      Unaffected routes (f :: (swallowed ++ fs))
  | last {f : Frame} {swallowed : List Frame} {bs tail : Bytes} : ¬ f.Small →
      f.payload ++ wire swallowed = bs ++ tail → PassedOver routes bs → Unfinished tail →
      (∀ g ∈ swallowed, g.Small → Ignored routes g.hdr g.payload) → Unaffected routes (f :: swallowed)

theorem unaffected_of_small {fs : List Frame} (h : ∀ f ∈ fs, f.Small) : Unaffected routes fs := by
  induction fs with
  | nil => exact .nil
  | cons f fs ih =>
    exact .small (h f (List.mem_cons_self ..)) (ih fun g hg => h g (List.mem_cons_of_mem _ hg))

theorem result_unfinished {c : Conn σ} (h : Unfinished c.sock.all) :
    (handlerLoop store routes).result c = ⟨c.state, c.sent, none⟩ :=
  Loop.result_leave (L := handlerLoop store routes) (handlerStep_unfinished h)

theorem unfinished_nil : Unfinished [] := .inl (by decide)

variable (store) in
theorem PassedOver.result_oversize {bs : Bytes} (h : PassedOver routes bs) {f : Frame} (hf : ¬ f.Small)
    {rest rest' : Bytes} (hsplit : f.payload ++ rest = bs ++ rest') {c : Conn σ}
    (hsock : c.sock.all = f.bytes ++ rest) :
    ∃ sock', sock'.all = rest' ∧
      (handlerLoop store routes).result c = (handlerLoop store routes).result ⟨sock', c.state, c.sent⟩ := by
  obtain ⟨sock₁, hall, hstep⟩ := handlerStep_oversize store routes hf hsock
  rw [hsplit] at hall
  obtain ⟨sock₂, hrest, hres⟩ := h.result_eq store (c := ⟨sock₁, c.state, c.sent⟩) hall
  exact ⟨sock₂, hrest, (Loop.result_again (L := handlerLoop store routes) hstep).trans hres⟩

/-- Two connections with the same signal values and replies, of which one carries the frames that are not too
large: the handler ends alike on both. -/
theorem Unaffected.result_eq (hecho : store.Echoes routes Ok) {fs : List Frame} (h : Unaffected routes fs)
    {s : σ} (hs : Ok s) (sent : List Bytes) {sock sock' : Sock} (hsock : sock.all = wire fs)
    (hsock' : sock'.all = wire (smallFrames fs)) :
    (handlerLoop store routes).result ⟨sock, s, sent⟩ = (handlerLoop store routes).result ⟨sock', s, sent⟩ := by
  induction h generalizing s sent sock sock' with
  | nil =>
    rw [result_unfinished (by rw [hsock]; exact unfinished_nil),
      result_unfinished (by rw [hsock']; exact unfinished_nil)]
  | stops hf hstops =>
    rw [smallFrames_cons_of_small hf] at hsock'
    rw [Loop.result_leave (L := handlerLoop store routes) (hecho.handlerStep_of_stops hs hf hstops hsock),
      Loop.result_leave (L := handlerLoop store routes) (hecho.handlerStep_of_stops hs hf hstops hsock')]
  | @small f fs hf _ ih =>
    rw [smallFrames_cons_of_small hf] at hsock'
    by_cases hstops : Stops routes f.hdr f.payload
    · rw [Loop.result_leave (L := handlerLoop store routes) (hecho.handlerStep_of_stops hs hf hstops hsock),
        Loop.result_leave (L := handlerLoop store routes) (hecho.handlerStep_of_stops hs hf hstops hsock')]
    · obtain ⟨sock₁, hall₁, hstep₁⟩ := hecho.handlerStep_of_not_stops (c := ⟨sock, s, sent⟩) hs hf hstops hsock
      obtain ⟨sock₂, hall₂, hstep₂⟩ := hecho.handlerStep_of_not_stops (c := ⟨sock', s, sent⟩) hs hf hstops hsock'
      rw [Loop.result_again (L := handlerLoop store routes) hstep₁,
        Loop.result_again (L := handlerLoop store routes) hstep₂]
      exact ih (hecho.handleFrame_ok hs f.hdr f.payload) _ hall₁ hall₂
  | @oversize f swallowed fs hf hpass hign _ ih =>
    rw [smallFrames_cons_of_not_small hf, smallFrames, List.filter_append, wire_append] at hsock'
    rw [wire_cons, wire_append] at hsock
    obtain ⟨sock₂, hall₂, hres₂⟩ :=
      hpass.result_oversize store hf (List.append_assoc ..).symm (c := ⟨sock, s, sent⟩) hsock
    obtain ⟨sock₃, hall₃, hres₃⟩ :=
      (passedOver_smallFrames hign).result_eq store (c := ⟨sock', s, sent⟩) hsock'
    rw [hres₂, hres₃]
    exact ih hs sent hall₂ hall₃
  | @last f swallowed bs tail hf hsplit hpass htail hign =>
    rw [smallFrames_cons_of_not_small hf] at hsock'
    rw [wire_cons] at hsock
    obtain ⟨sock₂, hall₂, hres₂⟩ := hpass.result_oversize store hf hsplit (c := ⟨sock, s, sent⟩) hsock
    rw [← List.append_nil (wire _)] at hsock'
    obtain ⟨sock₃, hall₃, hres₃⟩ :=
      (passedOver_smallFrames hign).result_eq store (c := ⟨sock', s, sent⟩) hsock'
    rw [hres₂, hres₃, result_unfinished (by rw [hall₂]; exact htail),
      result_unfinished (by rw [hall₃]; exact unfinished_nil)]

end

variable [FloatArith V]

/-- Both handlers end with the signal values and the replies of the stream without the frames that are too
large, where these do no harm. -/
theorem handlers_keepFrames (routes : Routes V) {fs : List Frame} (h : Unaffected routes fs)
    (state : Dict String V) {db : SignalDatabase V} (hdb : db.Knows routes) {sock : Sock}
    (hsock : sock.all = wire fs) :
    KeepsFrames nodeStore routes state fs sock ∧ KeepsFrames dbStore routes db fs sock := by
  constructor
  · intro sock' hsock'
    have hres := h.result_eq (nodeStore_echoes routes) (s := state) trivial [] hsock hsock'
    exact ⟨congrArg Ended.state hres, congrArg Ended.sent hres⟩
  · intro sock' hsock'
    have hres := h.result_eq (dbStore_echoes routes) hdb [] hsock hsock'
    exact ⟨congrArg Ended.state hres, congrArg Ended.sent hres⟩

/-- A notification of 4112 zeros. -/
def zerosFrame : Frame where
  hdr := ⟨0x1002, 0x8001, 8 + 4112, 0, 1, 1, 1, 2, 0⟩
  payload := List.replicate 4112 0
  onWire := ⟨by decide⟩
  length_eq := by decide +kernel

theorem handlers_keepFrames_example :
    ∃ sock : Sock, sock.all = wire [zerosFrame, gearFrame] ∧
      KeepsFrames nodeStore exampleRoutes (initState exampleCatalog.signals) [zerosFrame, gearFrame] sock ∧
      KeepsFrames dbStore exampleRoutes (.ofSignals exampleCatalog.signals) [zerosFrame, gearFrame] sock := by
  have hlarge : ¬ zerosFrame.Small := by decide +kernel
  have hpass : PassedOver exampleRoutes (zerosFrame.payload ++ wire []) := by
    rw [wire_nil, List.append_nil]
    exact passedOver_zeros exampleRoutes 257
  have hgear : Unaffected exampleRoutes [gearFrame] := unaffected_of_small (by decide)
  have hzeros : Unaffected exampleRoutes (zerosFrame :: ([] ++ [gearFrame])) :=
    .oversize hlarge hpass (List.forall_mem_nil _) hgear
  exact ⟨_, Stream.all_whole _, handlers_keepFrames exampleRoutes hzeros _
    (SignalDatabase.knows_ofSignals buildTcpRoutes_example) (Stream.all_whole _)⟩

/-- After a frame that is too large the handler goes on with its payload. -/
theorem tcpHandler_oversize (routes : Routes V) {f : Frame} (hf : ¬ f.Small) {sock : Sock} {rest : Bytes}
    (h : sock.all = f.bytes ++ rest) (state : Dict String V) :
    ∃ sock', sock'.all = f.payload ++ rest ∧
      tcpHandler routes state sock = tcpHandler routes state sock' := by
  obtain ⟨sock', hall, hstep⟩ := handlerStep_oversize nodeStore routes hf
    (c := ⟨sock, state, []⟩) h
  exact ⟨sock', hall, Loop.result_again (L := handlerLoop nodeStore routes) hstep⟩

/-- A notification, which the handlers ignore. -/
def paddingFrame : Frame where
  hdr := ⟨0x1002, 0x8001, 8 + 4064, 0, 1, 1, 1, 2, 0⟩
  payload := List.replicate 4064 0
  onWire := ⟨by decide⟩
  length_eq := by decide +kernel

def smuggled : List Frame := [gearFrame, paddingFrame]

/-- A notification whose payload spells the frames of `smuggled`. -/
def smugglingFrame : Frame where
  hdr := ⟨0x1002, 0x8001, 8 + 4097, 0, 1, 1, 1, 2, 0⟩
  payload := wire smuggled
  onWire := ⟨by decide⟩
  length_eq := by decide +kernel

/-- The request in the payload of a refused notification is served. -/
theorem tcpHandler_serves_payload :
    let state := initState exampleCatalog.signals
    let small := [smugglingFrame].filter fun f => f.payload.length ≤ maxPayload
    (tcpHandler exampleRoutes state (Stream.whole (wire [smugglingFrame]))).state.get?
        "gear_position" = some 5 ∧
      (tcpHandler exampleRoutes state (Stream.whole (wire small))).state.get?
        "gear_position" = some 0 ∧
      (tcpHandler exampleRoutes state (Stream.whole (wire [smugglingFrame]))).sent ≠
        (tcpHandler exampleRoutes state (Stream.whole (wire small))).sent := by
  intro state small
  have hlarge : ¬ smugglingFrame.Small := by decide +kernel
  have hsmall : small = [] := by
    simp only [small, List.filter_cons, List.filter_nil, decide_eq_true_eq]
    exact if_neg hlarge
  have hfs : ∀ f ∈ smuggled, f.Small := by decide +kernel
  obtain ⟨sock', hall, hrest⟩ := tcpHandler_oversize exampleRoutes hlarge
    ((Stream.all_whole _).trans (wire_cons smugglingFrame [])) state
  rw [wire_nil, List.append_nil] at hall
  have hrun : tcpHandler exampleRoutes state (Stream.whole (wire [smugglingFrame])) =
      serve nodeStore exampleRoutes state [] smuggled :=
    hrest.trans (tcpHandler_eq_serve hfs hall state)
  have hnone : ∀ f ∈ ([] : List Frame), f.Small := by simp
  have hrun' : tcpHandler exampleRoutes state (Stream.whole (wire small)) =
      serve nodeStore exampleRoutes state [] [] := by
    rw [hsmall]
    exact tcpHandler_eq_serve hnone (Stream.all_whole _) state
  rw [hrun, hrun']
  decide +kernel

/-! ### Requests that end the thread -/

/-- A request that passes the E2E check of its method and is shorter than its signals. -/
def ShortRequest {V : Type} (routes : Routes V) (hdr : SomeIpHeader) (pl : Bytes) : Prop :=
  ∃ route core size, Requests routes hdr pl route core ∧ encodedSize route.sigs = .ok size ∧
    core.length < size

/-- A request that must be refused: of no route, failing the E2E check, or too short. -/
def Refused {V : Type} (routes : Routes V) (hdr : SomeIpHeader) (pl : Bytes) : Prop :=
  hdr.msgType = mtRequest ∧ ∀ route core size, Requests routes hdr pl route core →
    encodedSize route.sigs = .ok size → core.length < size

section
variable {σ : Type} (store : Store σ V) {routes : Routes V} {Ok : σ → Prop}

/-- The step for one message: what it does to the signal values and what it adds to the replies. -/
def answer (routes : Routes V) (p : σ × List Bytes) (f : Frame) : σ × List Bytes :=
  let r := handleFrame store routes p.1 f.hdr f.payload
  (r.state, p.2 ++ r.sent)

/-- The handler that ended with `r` has served all the frames, one after another, until the peer
closed the connection; those that must be refused left the signal values alone. -/
structure ServesAll (routes : Routes V) (s : σ) (fs : List Frame) (r : Ended σ) : Prop where
  raised : r.raised = none
  fold : (r.state, r.sent) = fs.foldl (answer store routes) (s, [])
  refused : ∀ f ∈ fs, Refused routes f.hdr f.payload →
    ∀ s, (handleFrame store routes s f.hdr f.payload).state = s

variable {store}

theorem Store.Echoes.serve_eq_foldl (hecho : store.Echoes routes Ok) {s : σ} (hs : Ok s) {sent : List Bytes}
    {fs : List Frame} (h : ∀ f ∈ fs, ¬ Stops routes f.hdr f.payload) :
    ((serve store routes s sent fs).state, (serve store routes s sent fs).sent) =
      fs.foldl (answer store routes) (s, sent) := by
  induction fs generalizing s sent with
  | nil => rfl
  | cons f fs ih =>
    rw [hecho.serve_cons_of_not_stops hs (h f (List.mem_cons_self ..)), List.foldl_cons]
    exact ih (hecho.handleFrame_ok hs f.hdr f.payload) fun g hg => h g (List.mem_cons_of_mem _ hg)

theorem RoutesOk.stops_iff (hok : RoutesOk routes) {hdr : SomeIpHeader} {pl : Bytes} :
    Stops routes hdr pl ↔ ShortRequest routes hdr pl ∨ Overflows routes hdr pl := by
  constructor
  · rintro ⟨hreq, route, hroute, ⟨e, he⟩ | ⟨core, hr, e, he⟩⟩
    · obtain ⟨b, hb⟩ := hok.e2eEnabled_ok hroute
      rw [hb] at he
      cases he
    · have hsize := encodedSize_eq (hok.sigs_valid hroute)
      rcases Nat.lt_or_ge core.length (sizeOf route.sigs) with hlt | hge
      · exact .inl ⟨route, core, _, hr, hsize, hlt⟩
      · have hacc : Accepts routes hdr pl route core := ⟨hr, _, hsize, hge⟩
        obtain ⟨values, hdec⟩ := hok.exists_decode hacc
        rw [hdec] at he
        refine .inr ⟨route, core, values, hacc, hdec, ?_⟩
        by_contra hall
        have hencodes : ∀ s ∈ route.sigs, s.Encodes values :=
          fun s hs => by_contra fun hne => hall ⟨s, hs, hne⟩
        obtain ⟨enc, henc⟩ := (hok.exists_encode_iff hacc).2 hencodes
        cases henc.symm.trans he
  · rintro (⟨route, core, size, hr, hsize, hlen⟩ | ⟨route, core, values, hacc, hdec, s, hs, hne⟩)
    · have hvalid := hok.sigs_valid hr.get?_eq
      rw [encodedSize_eq hvalid] at hsize
      cases hsize
      refine ⟨hr.msgType_eq, route, hr.get?_eq, .inr ⟨core, hr, ?_⟩⟩
      exact ⟨_, by rw [decode_eq hvalid, if_neg (not_le.2 hlen)]; rfl⟩
    · refine ⟨hacc.1.msgType_eq, route, hacc.1.get?_eq, .inr ⟨core, hacc.1, ?_⟩⟩
      rw [hdec]
      rcases henc : encode route.sigs values with e | enc
      · exact ⟨e, henc⟩
      · exact absurd ((hok.exists_encode_iff hacc).1 ⟨enc, henc⟩ s hs) hne

theorem RoutesOk.state_of_refused (hok : RoutesOk routes) {hdr : SomeIpHeader} {pl : Bytes}
    (h : Refused routes hdr pl) (s : σ) : (handleFrame store routes s hdr pl).state = s := by
  rcases handleFrame_cases store routes s hdr pl with
    ⟨-, heq⟩ | ⟨-, -, heq⟩ | ⟨route, -, hroute, ⟨e, -, heq⟩ | ⟨-, -, heq⟩ | ⟨core, hr, heq⟩⟩
  · rw [heq]
  · rw [heq]
  · rw [heq]
  · rw [heq]
  · have hvalid := hok.sigs_valid hroute
    have hlen := h.2 route core _ hr (encodedSize_eq hvalid)
    rw [heq, serveRequest, decode_eq hvalid, if_neg (not_le.2 hlen)]

theorem RoutesOk.servesAll_iff (hok : RoutesOk routes) (hecho : store.Echoes routes Ok) {s : σ} (hs : Ok s)
    {fs : List Frame} :
    ServesAll store routes s fs (serve store routes s [] fs) ↔
      ∀ f ∈ fs, ¬ ShortRequest routes f.hdr f.payload ∧ ¬ Overflows routes f.hdr f.payload := by
  have hstops : (∀ f ∈ fs, ¬ Stops routes f.hdr f.payload) ↔
      ∀ f ∈ fs, ¬ ShortRequest routes f.hdr f.payload ∧ ¬ Overflows routes f.hdr f.payload :=
    forall₂_congr fun f _ => (not_congr hok.stops_iff).trans not_or
  rw [← hstops]
  constructor
  · intro h
    exact (hecho.serve_raised hs [] fs).1 h.raised
  · intro h
    refine ⟨(hecho.serve_raised hs [] fs).2 h, hecho.serve_eq_foldl hs h, fun f _ hrefused s => ?_⟩
    exact hok.state_of_refused hrefused s

end

/-- Over frames that are not too large both handlers serve all messages exactly when none is a request that
is too short or overflows. -/
theorem handlers_servesAll_iff {doc : Value} {cat : Catalog V} {routes : Routes V} {fs : List Frame}
    {sock : Sock} (hload : loadCatalog doc = .ok cat)
    (hroutes : buildTcpRoutes cat (.fromSignals cat.signals) = .ok routes)
    (hsmall : ∀ f ∈ fs, f.payload.length ≤ 4096) (hsock : sock.all = wire fs)
    (state : Dict String V) {db : SignalDatabase V} (hdb : db.Knows routes) :
    (ServesAll nodeStore routes state fs (tcpHandler routes state sock) ↔
        ∀ f ∈ fs, ¬ ShortRequest routes f.hdr f.payload ∧ ¬ Overflows routes f.hdr f.payload) ∧
      (ServesAll dbStore routes db fs (tcpHandlerWithDb routes db sock) ↔
        ∀ f ∈ fs, ¬ ShortRequest routes f.hdr f.payload ∧ ¬ Overflows routes f.hdr f.payload) := by
  have hok := RoutesOk.of_buildTcpRoutes (.of_loadCatalog hload) hroutes
  rw [tcpHandler_eq_serve hsmall hsock, tcpHandlerWithDb_eq_serve hsmall hsock hdb]
  exact ⟨hok.servesAll_iff (nodeStore_echoes routes) trivial, hok.servesAll_iff (dbStore_echoes routes) hdb⟩

/-- A request for `set_gear` without a payload. -/
def shortFrame : Frame where
  hdr := ⟨0x1002, 4, 8, 1, 1, 1, 1, 0, 0⟩
  payload := []
  onWire := ⟨by decide⟩
  length_eq := by decide

theorem handlers_servesAll_iff_example :
    (ServesAll nodeStore hugeRoutes (initState hugeCatalog.signals) [hugeFrame]
        (tcpHandler hugeRoutes (initState hugeCatalog.signals) (Stream.whole (wire [hugeFrame]))) ↔
        ∀ f ∈ [hugeFrame], ¬ ShortRequest hugeRoutes f.hdr f.payload ∧ ¬ Overflows hugeRoutes f.hdr f.payload) ∧
      (ServesAll dbStore hugeRoutes (.ofSignals hugeCatalog.signals) [hugeFrame]
        (tcpHandlerWithDb hugeRoutes (.ofSignals hugeCatalog.signals) (Stream.whole (wire [hugeFrame]))) ↔
        ∀ f ∈ [hugeFrame], ¬ ShortRequest hugeRoutes f.hdr f.payload ∧ ¬ Overflows hugeRoutes f.hdr f.payload) :=
  handlers_servesAll_iff loadCatalog_huge buildTcpRoutes_huge (by decide) (Stream.all_whole _) _
    (SignalDatabase.knows_ofSignals buildTcpRoutes_huge)

/-- A request without a payload ends the thread, and the request behind it is not served. -/
theorem tcpHandler_ends_on_short :
    ∃ sock : Sock, sock.all = wire [shortFrame, gearFrame] ∧
      (tcpHandler exampleRoutes (initState exampleCatalog.signals) sock).raised ≠ none ∧
      (tcpHandler exampleRoutes (initState exampleCatalog.signals) sock).sent = [] ∧
      ([shortFrame, gearFrame].foldl (answer nodeStore exampleRoutes)
        (initState exampleCatalog.signals, [])).2 ≠ [] := by
  have hsmall : ∀ f ∈ [shortFrame, gearFrame], f.Small := by decide
  refine ⟨_, Stream.all_whole _, ?_⟩
  rw [tcpHandler_eq_serve hsmall (Stream.all_whole _)]
  decide +kernel

end AutoEth
