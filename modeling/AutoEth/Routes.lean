import AutoEth.Codec

/-!
# Route tables of the node

`buildTcpRoutes` and `buildUdpEvents` turn the messages of a catalog into the tables that the node
serves from. The tables list exactly the TCP methods (`buildTcpRoutes_entries`) and the UDP events
(`buildUdpEvents_entries`) of the catalog, in its order.
-/

namespace AutoEth

variable {V : Type}

structure MethodRoute (V : Type := ℚ) where
  msg : MessageDef
  ifaceVer : Int
  sigs : List (SignalDef V)

structure EventRoute (V : Type := ℚ) where
  msg : MessageDef
  ifaceVer : Int
  sigs : List (SignalDef V)
  svcId : Int
  eventId : Int
  eventgroupId : Int

/-- The pair of ids by which receivers tell events apart. -/
def EventRoute.ids (route : EventRoute V) : Int × Int := (route.svcId, route.eventId)

abbrev Routes (V : Type := ℚ) := Dict (Int × Int) (MethodRoute V)

abbrev UdpEvents (V : Type := ℚ) := Dict String (EventRoute V)

/-- `int((cfg or {}).get("port", 0))`. -/
def portOf (cfg : Value) : Except PyErr Int := do
  (← cfg.orEmpty.getD "port" (.int 0)).toInt

/-- `str((cfg or {}).get("mode", "unicast"))`. -/
def modeOf (cfg : Value) : Except PyErr String := do
  return (← cfg.orEmpty.getD "mode" (.str "unicast")).toStr

def MessageDef.isTcpMethod (m : MessageDef) : Bool := m.kind = "method" && m.transport = "tcp"

def MessageDef.isUdpEvent (m : MessageDef) : Bool := m.kind = "event" && m.transport = "udp"

def addTcpRoute (cat : Catalog V) (sigIndex : SignalIndex V) (routes : Routes V) (m : MessageDef) :
    Except PyErr (Routes V) :=
  if m.isTcpMethod = false then .ok routes
  else do
    raiseIf ((← portOf m.tcp) = 0) (.systemExit s!"{m.name}: tcp.port missing/0")
    let (svcId, ifaceVer, methodId) ← resolveSomeip cat m
    match routes.get? (svcId, methodId) with
    | some r =>
      .error (.systemExit (s!"Duplicate TCP method sid=0x{hex4 svcId} mid=0x{hex4 methodId} " ++
        s!"({r.msg.name} vs {m.name})"))
    | none =>
      let sigs ← sigIndex.subset m.signals
      return routes.set (svcId, methodId) { msg := m, ifaceVer, sigs }

def buildTcpRoutes (cat : Catalog V) (sigIndex : SignalIndex V) : Except PyErr (Routes V) := do
  let routes ← cat.messages.foldlM (addTcpRoute cat sigIndex) ∅
  raiseIf (routes.entries.isEmpty = true) (.systemExit "No TCP methods found in catalog.")
  return routes

/-- One turn of the loop of `_build_udp_events`, over the table and the pairs of ids in use. -/
def addUdpEvent (cat : Catalog V) (sigIndex : SignalIndex V) (st : UdpEvents V × List (Int × Int))
    (m : MessageDef) : Except PyErr (UdpEvents V × List (Int × Int)) :=
  if m.isUdpEvent = false then .ok st
  else do
    let (svcId, ifaceVer, eventId) ← resolveSomeip cat m
    raiseIf ((svcId, eventId) ∈ st.2)
      (.systemExit s!"Duplicate UDP event sid=0x{hex4 svcId} eid=0x{hex4 eventId}")
    raiseIf ((← portOf m.udp) = 0) (.systemExit s!"{m.name}: udp.port missing/0")
    let mode ← modeOf m.udp
    let group ← m.udp.orEmpty.getD "mcast_group" .null
    raiseIf (mode = "multicast" ∧ group.truthy = false)
      (.systemExit s!"{m.name}: udp.mcast_group required for multicast")
    let eventgroupId ← resolveEventgroupId m
    let sigs ← sigIndex.subset m.signals
    return (st.1.set m.name { msg := m, ifaceVer, sigs, svcId, eventId, eventgroupId },
      (svcId, eventId) :: st.2)

def buildUdpEvents (cat : Catalog V) (sigIndex : SignalIndex V) : Except PyErr (UdpEvents V) := do
  let st ← cat.messages.foldlM (addUdpEvent cat sigIndex) (∅, [])
  raiseIf (st.1.entries.isEmpty = true) (.systemExit "No UDP events found.")
  return st.1

/-! ### What the tables hold -/

/-- The entry of a TCP method. -/
structure IsTcpRoute (cat : Catalog V) (sigIndex : SignalIndex V) (m : MessageDef)
    (e : (Int × Int) × MethodRoute V) : Prop where
  msg : e.2.msg = m
  resolve : resolveSomeip cat m = .ok (e.1.1, e.2.ifaceVer, e.1.2)
  sigs : sigIndex.subset m.signals = .ok e.2.sigs
  port : ∃ p, portOf m.tcp = .ok p ∧ p ≠ 0

/-- The entry of a UDP event. -/
structure IsUdpEvent (cat : Catalog V) (sigIndex : SignalIndex V) (m : MessageDef)
    (e : String × EventRoute V) : Prop where
  name : e.1 = m.name
  msg : e.2.msg = m
  resolve : resolveSomeip cat m = .ok (e.2.svcId, e.2.ifaceVer, e.2.eventId)
  eventgroup : resolveEventgroupId m = .ok e.2.eventgroupId
  sigs : sigIndex.subset m.signals = .ok e.2.sigs
  port : ∃ p, portOf m.udp = .ok p ∧ p ≠ 0
  mode : ∃ mode group, modeOf m.udp = .ok mode ∧ m.udp.orEmpty.getD "mcast_group" .null = .ok group ∧
    ¬ (mode = "multicast" ∧ group.truthy = false)

variable {cat : Catalog V} {sigIndex : SignalIndex V}

theorem addTcpRoute_eq_ok {routes routes' : Routes V} {m : MessageDef} :
    addTcpRoute cat sigIndex routes m = .ok routes' ↔
      (m.isTcpMethod = false ∧ routes' = routes) ∨
        (m.isTcpMethod = true ∧
          ∃ e, IsTcpRoute cat sigIndex m e ∧ e.1 ∉ routes.keys ∧ routes' = routes.set e.1 e.2) := by
  constructor
  · intro h
    unfold addTcpRoute at h
    split at h
    · rename_i hm
      cases h
      exact .inl ⟨hm, rfl⟩
    · rename_i hm
      simp only [Except.bind_eq_ok, raiseIf_eq_ok] at h
      obtain ⟨p, hp, -, hp0, ⟨svcId, ifaceVer, methodId⟩, hres, h⟩ := h
      dsimp only at h
      split at h
      · cases h
      · rename_i hnone
        obtain ⟨sigs, hsigs, h⟩ := Except.bind_eq_ok.1 h
        cases h
        exact .inr ⟨by simpa using hm, ((svcId, methodId), ⟨m, ifaceVer, sigs⟩),
          ⟨rfl, hres, hsigs, p, hp, hp0⟩, Dict.get?_eq_none.1 hnone, rfl⟩
  · rintro (⟨hm, rfl⟩ | ⟨hm, ⟨⟨svcId, methodId⟩, route⟩, he, hnew, rfl⟩)
    · exact if_pos hm
    · obtain ⟨p, hp, hp0⟩ := he.port
      obtain rfl := he.msg
      rw [addTcpRoute, if_neg (by simp [hm]), hp, Except.ok_bind, raiseIf_neg hp0, Except.ok_bind,
        he.resolve, Except.ok_bind]
      simp only [Dict.get?_eq_none.2 hnew, he.sigs]
      rfl

theorem foldlM_addTcpRoute {l : List MessageDef} {routes routes' : Routes V}
    (h : l.foldlM (addTcpRoute cat sigIndex) routes = .ok routes') :
    ∃ new, routes'.entries = routes.entries ++ new ∧
      List.Forall₂ (IsTcpRoute cat sigIndex) (l.filter MessageDef.isTcpMethod) new := by
  induction l generalizing routes with
  | nil =>
    cases h
    exact ⟨[], by simp, .nil⟩
  | cons m l ih =>
    rw [List.foldlM_cons] at h
    obtain ⟨routes₁, h₁, h⟩ := Except.bind_eq_ok.1 h
    obtain ⟨new, hnew, hall⟩ := ih h
    rcases addTcpRoute_eq_ok.1 h₁ with ⟨hm, rfl⟩ | ⟨hm, e, he, hkey, rfl⟩
    · exact ⟨new, hnew, by rwa [List.filter_cons_of_neg (by simp [hm])]⟩
    · have hents := Dict.entries_set_of_not_mem e.2 hkey
      refine ⟨e :: new, by rw [hnew, hents, List.append_assoc]; rfl, ?_⟩
      rw [List.filter_cons_of_pos hm]
      exact .cons he hall

/-- The route table lists the TCP methods of the catalog in order. -/
theorem buildTcpRoutes_entries {routes : Routes V} (h : buildTcpRoutes cat sigIndex = .ok routes) :
    List.Forall₂ (IsTcpRoute cat sigIndex) (cat.messages.filter MessageDef.isTcpMethod)
      routes.entries := by
  simp only [buildTcpRoutes, Except.bind_eq_ok, Except.pure_eq_ok, Except.ok.injEq] at h
  obtain ⟨_, h, -, -, rfl⟩ := h
  obtain ⟨new, hnew, hall⟩ := foldlM_addTcpRoute h
  rw [Dict.entries_empty, List.nil_append] at hnew
  rwa [hnew]

theorem addUdpEvent_eq_ok {st st' : UdpEvents V × List (Int × Int)} {m : MessageDef} :
    addUdpEvent cat sigIndex st m = .ok st' ↔
      (m.isUdpEvent = false ∧ st' = st) ∨
        (m.isUdpEvent = true ∧
          ∃ e, IsUdpEvent cat sigIndex m e ∧ e.2.ids ∉ st.2 ∧ st' = (st.1.set e.1 e.2, e.2.ids :: st.2)) := by
  constructor
  · intro h
    unfold addUdpEvent at h
    split at h
    · rename_i hm
      cases h
      exact .inl ⟨hm, rfl⟩
    · rename_i hm
      simp only [Except.bind_eq_ok, raiseIf_eq_ok] at h
      obtain ⟨⟨svcId, ifaceVer, eventId⟩, hres, -, hnew, p, hp, -, hp0, mode, hmode, group, hgroup, -,
        hmg, egid, hegid, sigs, hsigs, h⟩ := h
      cases h
      exact .inr ⟨by simpa using hm, (m.name, ⟨m, ifaceVer, sigs, svcId, eventId, egid⟩),
        ⟨rfl, rfl, hres, hegid, hsigs, ⟨p, hp, hp0⟩, mode, group, hmode, hgroup, hmg⟩, hnew, rfl⟩
  · rintro (⟨hm, rfl⟩ | ⟨hm, e, he, hnew, rfl⟩)
    · exact if_pos hm
    · obtain ⟨p, hp, hp0⟩ := he.port
      obtain ⟨mode, group, hmode, hgroup, hmg⟩ := he.mode
      obtain rfl := he.msg
      have hids : (e.2.svcId, e.2.eventId) ∉ st.2 := hnew
      rw [he.name, addUdpEvent, if_neg (by simp [hm]), he.resolve, Except.ok_bind]
      dsimp only
      rw [raiseIf_neg hids, Except.ok_bind, hp, Except.ok_bind, raiseIf_neg hp0, Except.ok_bind, hmode,
        Except.ok_bind, hgroup, Except.ok_bind, raiseIf_neg hmg, Except.ok_bind, he.eventgroup,
        Except.ok_bind, he.sigs]
      rfl

/-- The loop adds the UDP events in order, and lets no ids in twice. -/
theorem foldlM_addUdpEvent {l : List MessageDef} {st st' : UdpEvents V × List (Int × Int)}
    (hnames : (st.1.keys ++ l.map (·.name)).Nodup)
    (h : l.foldlM (addUdpEvent cat sigIndex) st = .ok st') :
    ∃ new, st'.1.entries = st.1.entries ++ new ∧
      List.Forall₂ (IsUdpEvent cat sigIndex) (l.filter MessageDef.isUdpEvent) new ∧
      (new.map fun e => e.2.ids).Nodup ∧ ∀ e ∈ new, e.2.ids ∉ st.2 := by
  induction l generalizing st with
  | nil =>
    cases h
    exact ⟨[], by simp, .nil, List.nodup_nil, List.forall_mem_nil _⟩
  | cons m l ih =>
    rw [List.foldlM_cons] at h
    obtain ⟨st₁, h₁, h₂⟩ := Except.bind_eq_ok.1 h
    rw [List.map_cons] at hnames
    have hname : m.name ∉ st.1.keys := fun hmem =>
      (List.nodup_append.1 hnames).2.2 _ hmem _ (List.mem_cons_self ..) rfl
    rcases addUdpEvent_eq_ok.1 h₁ with ⟨hm, rfl⟩ | ⟨hm, e, he, hfresh, rfl⟩
    · obtain ⟨new, hnew, hall, hnodup, hunused⟩ :=
        ih (hnames.sublist ((List.sublist_cons_self ..).append_left _)) h₂
      exact ⟨new, hnew, by rwa [List.filter_cons_of_neg (by simp [hm])], hnodup, hunused⟩
    · have hents := Dict.entries_set_of_not_mem e.2 (he.name ▸ hname)
      have hkeys : (st.1.set e.1 e.2).keys = st.1.keys ++ [m.name] := by
        rw [Dict.keys, hents, List.map_append, List.map_cons, he.name]; rfl
      obtain ⟨new, hnew, hall, hnodup, hunused⟩ := ih (by rw [hkeys, List.append_assoc]; exact hnames) h₂
      refine ⟨e :: new, by rw [hnew, hents, List.append_assoc]; rfl, ?_, ?_, ?_⟩
      · rw [List.filter_cons_of_pos hm]
        exact .cons he hall
      · -- the events behind `e` are checked against its ids too
        refine List.nodup_cons.2 ⟨fun hmem => ?_, hnodup⟩
        obtain ⟨e', he', heq⟩ := List.mem_map.1 hmem
        exact hunused e' he' (heq ▸ List.mem_cons_self ..)
      · rintro e' he'
        rcases List.mem_cons.1 he' with rfl | he'
        · exact hfresh
        · exact fun hmem => hunused e' he' (List.mem_cons_of_mem _ hmem)

theorem isTcpRoute_of_get? {routes : Routes V} (h : buildTcpRoutes cat sigIndex = .ok routes)
    {key : Int × Int} {route : MethodRoute V} (hget : routes.get? key = some route) :
    ∃ m ∈ cat.messages, m.isTcpMethod = true ∧ IsTcpRoute cat sigIndex m (key, route) := by
  obtain ⟨m, hm, hr⟩ := List.Forall₂.exists_left (buildTcpRoutes_entries h) (Dict.mem_entries_of_get? hget)
  obtain ⟨hmem, hkind⟩ := List.mem_filter.1 hm
  exact ⟨m, hmem, hkind, hr⟩

theorem get?_of_isTcpMethod {routes : Routes V} (h : buildTcpRoutes cat sigIndex = .ok routes)
    {m : MessageDef} (hm : m ∈ cat.messages) (hkind : m.isTcpMethod = true) :
    ∃ e, IsTcpRoute cat sigIndex m e ∧ routes.get? e.1 = some e.2 := by
  obtain ⟨e, he, hr⟩ :=
    List.Forall₂.exists_right (buildTcpRoutes_entries h) (List.mem_filter.2 ⟨hm, hkind⟩)
  exact ⟨e, hr, Dict.get?_of_mem_entries he⟩

theorem get?_of_resolveSomeip {routes : Routes V} (h : buildTcpRoutes cat sigIndex = .ok routes)
    {m : MessageDef} (hm : m ∈ cat.messages) (hkind : m.isTcpMethod = true)
    {svcId ifaceVer methodId : Int} (hresolve : resolveSomeip cat m = .ok (svcId, ifaceVer, methodId))
    {sigs : List (SignalDef V)} (hsigs : sigIndex.subset m.signals = .ok sigs) :
    ∃ route, routes.get? (svcId, methodId) = some route ∧ route.msg = m ∧
      route.ifaceVer = ifaceVer ∧ route.sigs = sigs := by
  obtain ⟨⟨⟨svcId', methodId'⟩, route⟩, hroute, hget⟩ := get?_of_isTcpMethod h hm hkind
  have hids : (svcId', route.ifaceVer, methodId') = (svcId, ifaceVer, methodId) :=
    Except.ok.inj (hroute.resolve.symm.trans hresolve)
  cases hids
  exact ⟨route, hget, hroute.msg, rfl, Except.ok.inj (hroute.sigs.symm.trans hsigs)⟩

variable [FloatArith V]

theorem buildUdpEvents_entries {events : UdpEvents V} (hcat : cat.Valid)
    (h : buildUdpEvents cat sigIndex = .ok events) :
    List.Forall₂ (IsUdpEvent cat sigIndex) (cat.messages.filter MessageDef.isUdpEvent)
      events.entries := by
  simp only [buildUdpEvents, Except.bind_eq_ok, Except.pure_eq_ok, Except.ok.injEq] at h
  obtain ⟨st, h, -, -, rfl⟩ := h
  obtain ⟨new, hnew, hall, -⟩ := foldlM_addUdpEvent (by simpa using hcat.message_names) h
  simp only [Dict.entries_empty, List.nil_append] at hnew
  rwa [hnew]

theorem buildUdpEvents_ids_nodup {events : UdpEvents V} (hcat : cat.Valid)
    (h : buildUdpEvents cat sigIndex = .ok events) : (events.values.map EventRoute.ids).Nodup := by
  simp only [buildUdpEvents, Except.bind_eq_ok, Except.pure_eq_ok, Except.ok.injEq] at h
  obtain ⟨st, h, -, -, rfl⟩ := h
  obtain ⟨new, hnew, -, hnodup, -⟩ := foldlM_addUdpEvent (by simpa using hcat.message_names) h
  rw [Dict.entries_empty, List.nil_append] at hnew
  rw [Dict.values, hnew, List.map_map]
  exact hnodup

theorem IsTcpRoute.sigs_valid (hcat : cat.Valid) {m : MessageDef} {e : (Int × Int) × MethodRoute V}
    (h : IsTcpRoute cat (.fromSignals cat.signals) m e) :
    (∀ s ∈ e.2.sigs, s.Valid) ∧ OneEach e.2.sigs ∧ e.2.sigs.map (·.name) = m.signals :=
  ⟨hcat.subset_valid h.sigs, SignalIndex.subset_oneEach h.sigs, SignalIndex.subset_names h.sigs⟩

theorem Catalog.Valid.e2eEnabled_ok (hcat : cat.Valid) {m : MessageDef} (hm : m ∈ cat.messages) :
    ∃ b, e2eEnabled m = .ok b := by
  obtain ⟨v, hv, -⟩ := Except.bind_eq_ok.1 (validateMessage_ok (hcat.message m hm)).e2e
  exact ⟨v.truthy, by rw [e2eEnabled, hv]; rfl⟩

theorem portOf_ok {name proto : String} {cfg : Value} {u : Unit} (h : validatePort name proto cfg = .ok u) :
    ∃ p, portOf cfg = .ok p ∧ 0 < p := by
  obtain ⟨items, v, p, rfl, htrue, hv, hp, hpos⟩ := validatePort_ok h
  refine ⟨p, ?_, hpos⟩
  rw [portOf, Value.orEmpty, if_pos htrue, Value.getD_eq_ok.2 ⟨items, rfl, rfl⟩, hv]
  exact hp

theorem validateUdp_ok {m : MessageDef} {u : Unit} (h : validateUdp m = .ok u) :
    (∃ p, portOf m.udp = .ok p ∧ 0 < p) ∧
      ∃ mode group, modeOf m.udp = .ok mode ∧ m.udp.orEmpty.getD "mcast_group" .null = .ok group ∧
        ¬ (mode = "multicast" ∧ group.truthy = false) := by
  simp only [validateUdp, Except.bind_eq_ok, raiseIf_eq_ok] at h
  obtain ⟨_, hport, v, hv, group, hgroup, hmulticast⟩ := h
  obtain ⟨-, -, -, -, htrue, -⟩ := validatePort_ok hport
  have hcfg : m.udp.orEmpty = m.udp := if_pos htrue
  refine ⟨portOf_ok hport, v.toStr, group, ?_, by rw [hcfg, hgroup], hmulticast⟩
  rw [modeOf, hcfg, hv]
  rfl

theorem MessageDef.isTcpMethod_iff {m : MessageDef} :
    m.isTcpMethod = true ↔ m.kind = "method" ∧ m.transport = "tcp" := by
  simp only [isTcpMethod, Bool.and_eq_true, decide_eq_true_eq]

theorem MessageDef.isUdpEvent_iff {m : MessageDef} :
    m.isUdpEvent = true ↔ m.kind = "event" ∧ m.transport = "udp" := by
  simp only [isUdpEvent, Bool.and_eq_true, decide_eq_true_eq]

theorem Catalog.Valid.udpPort_ok (hcat : cat.Valid) {m : MessageDef} (hm : m ∈ cat.messages)
    (htransport : m.transport = "udp") : ∃ p, portOf m.udp = .ok p ∧ 0 < p :=
  (validateUdp_ok ((validateMessage_ok (hcat.message m hm)).udp htransport)).1

theorem Catalog.Valid.tcpPort_ok (hcat : cat.Valid) {m : MessageDef} (hm : m ∈ cat.messages)
    (htransport : m.transport = "tcp") : ∃ p, portOf m.tcp = .ok p ∧ 0 < p :=
  portOf_ok ((validateMessage_ok (hcat.message m hm)).tcp htransport)

theorem Catalog.Valid.udpPort_pos (hcat : cat.Valid) {m : MessageDef} (hm : m ∈ cat.messages)
    (hkind : m.isUdpEvent = true) {p : Int} (hp : portOf m.udp = .ok p) : 0 < p := by
  obtain ⟨q, hq, hpos⟩ := hcat.udpPort_ok hm (MessageDef.isUdpEvent_iff.1 hkind).2
  cases hq.symm.trans hp
  exact hpos

theorem Catalog.Valid.tcpPort_pos (hcat : cat.Valid) {m : MessageDef} (hm : m ∈ cat.messages)
    (hkind : m.isTcpMethod = true) {p : Int} (hp : portOf m.tcp = .ok p) : 0 < p := by
  obtain ⟨q, hq, hpos⟩ := hcat.tcpPort_ok hm (MessageDef.isTcpMethod_iff.1 hkind).2
  cases hq.symm.trans hp
  exact hpos

/-- What the handlers need of a route table. -/
structure RoutesOk (routes : Routes V) : Prop where
  sigs_valid : ∀ {key route}, routes.get? key = some route → ∀ s ∈ route.sigs, s.Valid
  oneEach : ∀ {key route}, routes.get? key = some route → OneEach route.sigs
  e2eEnabled_ok : ∀ {key route}, routes.get? key = some route → ∃ b, e2eEnabled route.msg = .ok b

theorem RoutesOk.of_buildTcpRoutes (hcat : cat.Valid) {routes : Routes V}
    (h : buildTcpRoutes cat (.fromSignals cat.signals) = .ok routes) : RoutesOk routes := by
  refine ⟨fun hget => ?_, fun hget => ?_, fun hget => ?_⟩
  all_goals obtain ⟨m, hm, -, hr⟩ := isTcpRoute_of_get? h hget
  · exact (hr.sigs_valid hcat).1
  · exact (hr.sigs_valid hcat).2.1
  · obtain rfl := hr.msg
    exact hcat.e2eEnabled_ok hm

/-! ### An example

A part of `configs/catalog.yaml`; `set_gear` without E2E and the event over unicast.
-/

/-- An example document. -/
def exampleDoc : Value :=
  .dict [
    ("version", .int 1),
    ("discovery", .dict [("group", .str "239.0.0.2"), ("port", .int 30490), ("ttl", .int 1),
      ("iface", .str "eth0")]),
    ("signals", .list [
      .dict [("name", .str "throttle_position"), ("type", .str "u8")],
      .dict [("name", .str "gear_position"), ("type", .str "i8")]]),
    ("services", .list [
      .dict [("name", .str "powertrain_service"), ("service_id", .int 0x1002),
        ("instance_id", .int 1)]]),
    ("messages", .list [
      .dict [("name", .str "set_throttle"), ("msg_id", .int 20), ("kind", .str "method"),
        ("transport", .str "tcp"), ("tcp", .dict [("port", .int 30502), ("timeout_ms", .int 200)]),
        ("someip", .dict [("service", .str "powertrain_service"), ("method_id", .int 1)]),
        ("signals", .list [.str "throttle_position"]), ("e2e", .dict [("enabled", .bool true)])],
      .dict [("name", .str "set_gear"), ("msg_id", .int 23), ("kind", .str "method"),
        ("transport", .str "tcp"), ("tcp", .dict [("port", .int 30502), ("timeout_ms", .int 200)]),
        ("someip", .dict [("service", .str "powertrain_service"), ("method_id", .int 4)]),
        ("signals", .list [.str "gear_position"])],
      .dict [("name", .str "powertrain_status_event"), ("msg_id", .int 30), ("kind", .str "event"),
        ("transport", .str "udp"), ("period_ms", .int 25), ("udp", .dict [("port", .int 30512)]),
        ("someip", .dict [("service", .str "powertrain_service"), ("event_id", .int 0x8001),
          ("eventgroup_id", .int 1)]),
        ("signals", .list [.str "throttle_position", .str "gear_position"])]])]

def exampleCatalog : Catalog := (loadCatalog exampleDoc).get (by decide +kernel)

theorem loadCatalog_example : loadCatalog exampleDoc = .ok exampleCatalog := Except.eq_ok_get _

def exampleRoutes : Routes :=
  (buildTcpRoutes exampleCatalog (.fromSignals exampleCatalog.signals)).get (by decide +kernel)

theorem buildTcpRoutes_example :
    buildTcpRoutes exampleCatalog (.fromSignals exampleCatalog.signals) = .ok exampleRoutes :=
  Except.eq_ok_get _

/-- The method `set_throttle`, with E2E. -/
def exampleMethod : MessageDef := exampleCatalog.messages.head (by decide +kernel)

/-- The signals of `set_throttle`. -/
def exampleSigs : List SignalDef :=
  ((SignalIndex.fromSignals exampleCatalog.signals).subset exampleMethod.signals).get
    (by decide +kernel)

theorem subset_example :
    (SignalIndex.fromSignals exampleCatalog.signals).subset exampleMethod.signals = .ok exampleSigs :=
  Except.eq_ok_get _

theorem encodedSize_example : encodedSize exampleSigs = .ok 1 := by decide +kernel

theorem resolveSomeip_example : resolveSomeip exampleCatalog exampleMethod = .ok (0x1002, 1, 1) := by
  decide +kernel

def exampleEvents : UdpEvents :=
  (buildUdpEvents exampleCatalog (.fromSignals exampleCatalog.signals)).get (by decide +kernel)

theorem buildUdpEvents_example :
    buildUdpEvents exampleCatalog (.fromSignals exampleCatalog.signals) = .ok exampleEvents :=
  Except.eq_ok_get _

end AutoEth
