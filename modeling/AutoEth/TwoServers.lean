import AutoEth.HandlerSafety
import AutoEth.Lib.Run
import Mathlib.Logic.Function.Basic

/-!
# The two servers

The node server keeps the signal values in a dictionary, and answers a request with the values that it has
decoded; the server of the text interface keeps them in a database that ignores unknown names, and answers
with what it reads back. `Serial` serves any number of connections one request at a time over either store.
While the database has the contents of the dictionary and both have the names of the catalog, one turn of
the two servers does the same (`SameStores.turn`), hence so does every run (`servers_agree`).
-/

namespace AutoEth

variable {V : Type}

/-! ### The database as a dictionary -/

theorem SignalDatabase.setMultiple_eq {data values : Dict String V} (h : ∀ k ∈ values.keys, k ∈ data.keys) :
    SignalDatabase.setMultiple ⟨data⟩ values = ⟨data.update values.entries⟩ :=
  congrArg SignalDatabase.mk (Dict.foldl_set_of_contains fun _ he => h _ (List.mem_map_of_mem he))

theorem SignalDatabase.get?_getSubset [FloatArith V] (db : SignalDatabase V) {names : List String} {n : String}
    (h : n ∈ names) : (db.getSubset names).get? n = some (db.data.getD n FloatArith.zero) := by
  refine Dict.get?_ofList_map h fun k _ hk => ?_
  rw [hk]

/-- The signal values have the names of the catalog. -/
def HasNames (signals : List (SignalDef V)) (data : Dict String V) : Prop :=
  ∀ k, k ∈ data.keys ↔ k ∈ signals.map (·.name)

theorem hasNames_initState (signals : List (SignalDef V)) : HasNames signals (initState signals) := by
  intro k
  rw [initState, Dict.mem_keys_ofList, List.map_map]
  rfl

/-- The route table of a catalog, made of its signals. -/
structure RoutesOf [FloatArith V] (signals : List (SignalDef V)) (routes : Routes V) : Prop extends RoutesOk routes where
  mem_signals : ∀ {key route}, routes.get? key = some route → ∀ s ∈ route.sigs, s ∈ signals

theorem RoutesOf.of_buildTcpRoutes [FloatArith V] {cat : Catalog V} (hcat : cat.Valid) {routes : Routes V}
    (h : buildTcpRoutes cat (.fromSignals cat.signals) = .ok routes) : RoutesOf cat.signals routes := by
  refine ⟨.of_buildTcpRoutes hcat h, fun hget s hs => ?_⟩
  obtain ⟨m, -, -, hr⟩ := isTcpRoute_of_get? h hget
  exact SignalIndex.subset_mem hr.sigs hs

section
variable {signals sigs : List (SignalDef V)} {core : Bytes} {data values : Dict String V}

theorem mem_names_of_decode [FloatArith V] (hmem : ∀ s ∈ sigs, s ∈ signals)
    (hdec : decode sigs core = .ok values) : ∀ k ∈ values.keys, k ∈ signals.map (·.name) := by
  intro k hk
  obtain ⟨s, hs, rfl⟩ := List.mem_map.1 ((decode_isSome_iff hdec k).1 (Dict.get?_isSome.2 hk))
  exact List.mem_map_of_mem (hmem s hs)

theorem HasNames.update (h : HasNames signals data) (hvalues : ∀ k ∈ values.keys, k ∈ signals.map (·.name)) :
    HasNames signals (data.update values.entries) := by
  intro k
  rw [Dict.mem_keys_update, h k]
  exact ⟨fun hk => hk.elim id (hvalues k), .inl⟩

theorem HasNames.setMultiple_eq (h : HasNames signals data)
    (hvalues : ∀ k ∈ values.keys, k ∈ signals.map (·.name)) :
    SignalDatabase.setMultiple ⟨data⟩ values = ⟨data.update values.entries⟩ :=
  SignalDatabase.setMultiple_eq fun k hk => (h k).2 (hvalues k hk)

end

/-! ### One message -/

/-- The two servers did the same. -/
structure SameServed {V : Type} (signals : List (SignalDef V)) (r : Served (Dict String V))
    (r' : Served (SignalDatabase V)) : Prop where
  state : r'.state = ⟨r.state⟩
  names : HasNames signals r.state
  sent : r'.sent = r.sent
  raised : r'.raised = r.raised

section
variable [FloatArith V] {signals : List (SignalDef V)} {routes : Routes V} {state : Dict String V} {hdr : SomeIpHeader}
  {pl core : Bytes} {route : MethodRoute V}

/-- A response depends on the encoding of its values only. -/
theorem response_congr {values values' : Dict String V} (h : encode route.sigs values = encode route.sigs values') :
    response route hdr values = response route hdr values' := by
  rw [response, response, h]

theorem RoutesOf.sameServed_serveRequest (hof : RoutesOf signals routes) (hr : Requests routes hdr pl route core)
    (hnames : HasNames signals state) :
    SameServed signals (serveRequest nodeStore state route hdr core)
      (serveRequest dbStore ⟨state⟩ route hdr core) := by
  have hmem := hof.mem_signals hr.get?_eq
  unfold serveRequest
  cases hdec : decode route.sigs core with
  | error e => exact ⟨rfl, hnames, rfl, rfl⟩
  | ok values =>
    have hvalues := mem_names_of_decode hmem hdec
    have hwrite : dbStore.write ⟨state⟩ values = ⟨state.update values.entries⟩ := hnames.setMultiple_eq hvalues
    have hknows : ∀ s ∈ route.sigs, s.name ∈ state.keys := fun s hs =>
      (hnames s.name).2 (List.mem_map_of_mem (hmem s hs))
    have hrsp : response route hdr (dbStore.reply (dbStore.write ⟨state⟩ values) route.sigs values) =
        response route hdr values :=
      response_congr <| encode_congr fun _ hs => SignalDatabase.getD_getSubset_setMultiple hknows hdec hs
    have hnode : nodeStore.reply (nodeStore.write state values) route.sigs values = values := rfl
    simp only [hrsp, hnode]
    rw [hwrite]
    cases response route hdr values with
    | error e => exact ⟨rfl, hnames.update hvalues, rfl, rfl⟩
    | ok rsp => exact ⟨rfl, hnames.update hvalues, rfl, rfl⟩

theorem RoutesOf.sameServed_handleFrame (hof : RoutesOf signals routes) (hnames : HasNames signals state)
    (hdr : SomeIpHeader) (pl : Bytes) :
    SameServed signals (handleFrame nodeStore routes state hdr pl) (handleFrame dbStore routes ⟨state⟩ hdr pl) := by
  unfold handleFrame
  by_cases hreq : hdr.msgType = mtRequest
  · rw [if_neg (not_not.2 hreq), if_neg (not_not.2 hreq)]
    cases hroute : routes.get? (hdr.serviceId, hdr.methodId) with
    | none => exact ⟨rfl, hnames, rfl, rfl⟩
    | some route =>
      dsimp only
      rcases hcore : coreOf route.msg hdr pl with e | _ | core
      · exact ⟨rfl, hnames, rfl, rfl⟩
      · exact ⟨rfl, hnames, rfl, rfl⟩
      · exact hof.sameServed_serveRequest ⟨hreq, hroute, coreOf_eq_some.1 hcore⟩ hnames
  · rw [if_pos hreq, if_pos hreq]
    exact ⟨rfl, hnames, rfl, rfl⟩

end

/-! ### One request at a time -/

/-- A connection and its handler: it waits for a message, or has ended. -/
inductive Peer where
  | waiting (sock : Sock)
  | ended (raised : Option PyErr)

/-- A server with its connections; `replies` are the messages that it has sent, in their order. -/
structure Serial (σ ι : Type) where
  store : σ
  peers : ι → Peer
  replies : List (ι × Bytes)

namespace Serial

variable {σ ι : Type}

def start (store : σ) (socks : ι → Sock) : Serial σ ι := ⟨store, fun i => .waiting (socks i), []⟩

/-- The handler of connection `i` makes a turn of its loop, and no other thread a step meanwhile. -/
def turn [FloatArith V] [DecidableEq ι] (store : Store σ V) (routes : Routes V) (s : Serial σ ι) (i : ι) : Serial σ ι :=
  match s.peers i with
  | .ended _ => s
  | .waiting sock =>
    match handlerStep store routes ⟨sock, s.store, []⟩ with
    | .again c => ⟨c.state, Function.update s.peers i (.waiting c.sock), s.replies ++ c.sent.map (i, ·)⟩
    | .leave e => ⟨e.state, Function.update s.peers i (.ended e.raised), s.replies ++ e.sent.map (i, ·)⟩

/-- The two servers have done the same on the same connections, and hold the same value for every signal of
the catalog and for no other name. -/
structure Agree (signals : List (SignalDef V)) (n : Serial (Dict String V) ι) (d : Serial (SignalDatabase V) ι) :
    Prop where
  peers : n.peers = d.peers
  replies : n.replies = d.replies
  values : ∀ k, n.store.get? k = d.store.data.get? k
  node_keys : ∀ k, k ∈ n.store.keys ↔ k ∈ signals.map (·.name)
  db_keys : ∀ k, k ∈ d.store.data.keys ↔ k ∈ signals.map (·.name)

/-- The simulation: the contents of the two stores are one dictionary. -/
structure Same (signals : List (SignalDef V)) (n : Serial (Dict String V) ι) (d : Serial (SignalDatabase V) ι) :
    Prop where
  peers : n.peers = d.peers
  replies : n.replies = d.replies
  store : d.store = ⟨n.store⟩
  names : HasNames signals n.store

variable {signals : List (SignalDef V)} {routes : Routes V} {n : Serial (Dict String V) ι}
  {d : Serial (SignalDatabase V) ι}

theorem Same.agree (h : Same signals n d) : Agree signals n d := by
  refine ⟨h.peers, h.replies, fun k => ?_, h.names, fun k => ?_⟩
  · rw [h.store]
  · rw [h.store]
    exact h.names k

theorem same_start (signals : List (SignalDef V)) (socks : ι → Sock) :
    Same signals (start (initState signals) socks) (start (.ofSignals signals) socks) :=
  ⟨rfl, rfl, rfl, hasNames_initState signals⟩

theorem Same.turn [FloatArith V] [DecidableEq ι] (hof : RoutesOf signals routes) (h : Same signals n d) (i : ι) :
    Same signals (n.turn nodeStore routes i) (d.turn dbStore routes i) := by
  obtain ⟨store, peers, replies⟩ := n
  obtain ⟨hpeers, hreplies, hstore, hnames⟩ := h
  obtain ⟨dstore, dpeers, dreplies⟩ := d
  obtain rfl : peers = dpeers := hpeers
  obtain rfl : replies = dreplies := hreplies
  obtain rfl : dstore = ⟨store⟩ := hstore
  simp only [Serial.turn]
  cases peers i with
  | ended raised => exact ⟨rfl, rfl, rfl, hnames⟩
  | waiting sock =>
    rcases hr : recvSomeip maxPayload sock with ⟨e | ⟨hdr, pl⟩, sock'⟩
    · simp only [handlerStep, hr]
      cases e with
      | connectionError msg => exact ⟨rfl, rfl, rfl, hnames⟩
      | _ => exact ⟨rfl, rfl, rfl, hnames⟩
    · have hsame := hof.sameServed_handleFrame hnames hdr pl
      simp only [handlerStep, hr, hsame.raised, hsame.sent, hsame.state]
      cases (handleFrame nodeStore routes store hdr pl).raised with
      | none => exact ⟨rfl, rfl, rfl, hsame.names⟩
      | some e => exact ⟨rfl, rfl, rfl, hsame.names⟩

end Serial

/-- Started on one catalog and given the same connections, the two servers agree after every turn. -/
theorem servers_agree [FloatArith V] {doc : Value} {cat : Catalog V} {routes : Routes V} (hload : loadCatalog doc = .ok cat)
    (hroutes : buildTcpRoutes cat (.fromSignals cat.signals) = .ok routes) {ι : Type} [DecidableEq ι]
    (socks : ι → Sock) (schedule : List ι) :
    List.Forall₂ (Serial.Agree cat.signals)
      (Run.states (Serial.turn nodeStore routes) (.start (initState cat.signals) socks) schedule)
      (Run.states (Serial.turn dbStore routes) (.start (.ofSignals cat.signals) socks) schedule) := by
  have hof := RoutesOf.of_buildTcpRoutes (.of_loadCatalog hload) hroutes
  have hrun := Run.forall₂_states (R := Serial.Same cat.signals)
    (fun _ _ i h => h.turn hof i) (Serial.same_start cat.signals socks) schedule
  exact hrun.imp fun _ _ h => h.agree

theorem servers_agree_example :
    let socks (_ : Bool) : Sock := Stream.whole gearFrame.bytes
    List.Forall₂ (Serial.Agree exampleCatalog.signals)
      (Run.states (Serial.turn nodeStore exampleRoutes) (.start (initState exampleCatalog.signals) socks)
        [true, false, true, false])
      (Run.states (Serial.turn dbStore exampleRoutes) (.start (.ofSignals exampleCatalog.signals) socks)
        [true, false, true, false]) :=
  servers_agree loadCatalog_example buildTcpRoutes_example _ _

end AutoEth
