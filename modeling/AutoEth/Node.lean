import Mathlib.Data.Finset.Lattice.Lemmas
import AutoEth.ServerContext
import AutoEth.Instances
import AutoEth.Validation

/-!
# The start of a node

`main` of the node builds its tables, starts a server for each port of its methods, announces its services and
starts one publisher for each event. The settings of its discovery are what `validate` has checked
(`validateDiscovery_iff`). `validate` does not look at the options of the publishers' sockets, nor at ids that
several messages share, so `main` can still fail on an accepted catalog; `node_starts_iff` says when.
-/

namespace AutoEth

/-! ### The settings of the discovery -/

structure DiscoveryCfg where
  group : String
  port : Int
  ttl : Int
  iface : String

def getDiscoveryCfg {V : Type} (cat : Catalog V) : Except PyErr DiscoveryCfg := do
  let disc := cat.discovery.orEmpty
  let group := strip (← disc.getD "group" (.str "")).toStr
  let port ← (← disc.getD "port" (.int 0)).toInt
  let ttl ← (← disc.getD "ttl" (.int 0)).toInt
  let iface := strip (← disc.getD "iface" (.str "")).toStr
  return { group, port, ttl, iface }

structure DiscoveryCfg.Valid (cfg : DiscoveryCfg) : Prop where
  group : cfg.group ≠ ""
  port : 0 < cfg.port ∧ cfg.port ≤ 65535
  ttl : 0 ≤ cfg.ttl ∧ cfg.ttl ≤ 255
  iface : cfg.iface ≠ ""

theorem validateDiscovery_iff {cat : Catalog} :
    validateDiscovery cat.discovery = .ok () ↔ ∃ cfg, getDiscoveryCfg cat = .ok cfg ∧ cfg.Valid := by
  by_cases htrue : cat.discovery.truthy = true
  · have hdisc : cat.discovery.orEmpty = cat.discovery := if_pos htrue
    simp only [validateDiscovery, getDiscoveryCfg, hdisc, htrue, Except.bind_eq_ok, Except.pure_eq_ok,
      Except.ok.injEq, raiseIf_eq_ok, tryInt_eq_ok]
    constructor
    · rintro ⟨-, -, -, -, group, hgroup, -, hgroup', v, hv, port, hport, -, hport', w, hw, ttl, httl, -, httl',
        iface, hiface, hiface'⟩
      have hport'' : 0 < port ∧ port ≤ 65535 := by omega
      have httl'' : 0 ≤ ttl ∧ ttl ≤ 255 := by omega
      exact ⟨_, ⟨group, hgroup, v, hv, port, hport, w, hw, ttl, httl, iface, hiface, rfl⟩,
        ⟨hgroup', hport'', httl'', hiface'⟩⟩
    · rintro ⟨cfg, ⟨group, hgroup, v, hv, port, hport, w, hw, ttl, httl, iface, hiface, rfl⟩,
        hgroup', hport', httl', hiface'⟩
      obtain ⟨items, hitems, -⟩ := Value.getD_eq_ok.1 hgroup
      have htype : ¬ cat.discovery.typeName ≠ "dict" := by
        rw [hitems]
        exact not_not.2 rfl
      dsimp only at hport' httl'
      exact ⟨(), by simp, (), htype, group, hgroup, (), hgroup', v, hv, port, hport, (), by omega, w, hw, ttl, httl,
        (), by omega, iface, hiface, hiface'⟩
  · rw [Bool.not_eq_true] at htrue
    have hempty : cat.discovery.orEmpty = .dict [] := by rw [Value.orEmpty, htrue]; rfl
    constructor
    · intro h
      rw [validateDiscovery, htrue] at h
      cases h
    · rintro ⟨cfg, hcfg, hvalid⟩
      rw [getDiscoveryCfg, hempty] at hcfg
      cases hcfg
      exact absurd rfl hvalid.group

theorem exists_getDiscoveryCfg {doc : Value} {cat : Catalog} (hload : loadCatalog doc = .ok cat) :
    ∃ cfg, getDiscoveryCfg cat = .ok cfg ∧ cfg.Valid := by
  simp only [loadCatalog, Except.bind_eq_ok, Except.pure_eq_ok, Except.ok.injEq] at hload
  obtain ⟨_, -, _, hv, rfl⟩ := hload
  simp only [Catalog.validate, Except.bind_eq_ok] at hv
  obtain ⟨_, hdisc, -⟩ := hv
  exact validateDiscovery_iff.1 hdisc

/-! ### The ports -/

/-- One turn of the loop that collects `all_ports`. -/
def addPort (ports : Finset Int) (r : MethodRoute) : Except PyErr (Finset Int) := do
  let p ← portOf r.msg.tcp
  return if p ≠ 0 then insert p ports else ports

/-- The ports that the servers are started for. -/
def allPorts (routes : Routes) : Except PyErr (Finset Int) := routes.values.foldlM addPort ∅

theorem foldlM_addPort {l : List MethodRoute} (h : ∀ r ∈ l, r.msg.ReadsTcp) (ports : Finset Int) :
    l.foldlM addPort ports = .ok (ports ∪ (l.map fun r => r.msg.tcpPort).toFinset) := by
  induction l generalizing ports with
  | nil => simp
  | cons r l ih =>
    have hr := h r (List.mem_cons_self ..)
    have hpos := hr.port_pos
    have hstep : addPort ports r = .ok (insert r.msg.tcpPort ports) := by
      rw [addPort, hr.port, Except.ok_bind, if_pos (by omega)]
      rfl
    rw [List.foldlM_cons, hstep, Except.ok_bind, ih fun r' hr' => h r' (List.mem_cons_of_mem _ hr'), List.map_cons,
      List.toFinset_cons, Finset.insert_union, Finset.union_insert]

section
variable {cat : Catalog} {sigIndex : SignalIndex} {routes : Routes} {events : UdpEvents}

theorem readsTcp_of_buildTcpRoutes (hcat : cat.Valid) (hroutes : buildTcpRoutes cat sigIndex = .ok routes) :
    ∀ r ∈ routes.values, r.msg.ReadsTcp := by
  intro r hr
  have hmem := List.mem_map_of_mem (f := MethodRoute.msg) hr
  rw [values_buildTcpRoutes hroutes] at hmem
  obtain ⟨hm, hkind⟩ := List.mem_filter.1 hmem
  obtain ⟨e, he, -⟩ := get?_of_isTcpMethod hroutes hm hkind
  obtain ⟨p, hp, -⟩ := he.port
  exact hcat.readsTcp hm hkind hp

theorem readsUdp_of_buildUdpEvents (hcat : cat.Valid)
    (hevents : buildUdpEvents cat (.fromSignals cat.signals) = .ok events) :
    ∀ r ∈ events.values, r.msg.ReadsUdp := by
  intro r hr
  obtain ⟨hm, hkind, he⟩ := isUdpEvent_of_mem hcat hevents hr
  exact hcat.readsUdp hm hkind he

theorem exists_allPorts (hcat : cat.Valid) (hroutes : buildTcpRoutes cat sigIndex = .ok routes) :
    ∃ ports, allPorts routes = .ok ports ∧
      ∀ p, p ∈ ports ↔ ∃ m ∈ cat.messages, m.isTcpMethod = true ∧ m.tcpPort = p := by
  refine ⟨_, foldlM_addPort (readsTcp_of_buildTcpRoutes hcat hroutes) ∅, fun p => ?_⟩
  have hmap : (routes.values.map fun r => r.msg.tcpPort) =
      (cat.messages.filter MessageDef.isTcpMethod).map MessageDef.tcpPort := by
    rw [← values_buildTcpRoutes hroutes, List.map_map]
    rfl
  simp [hmap, and_assoc]

/-! ### The announcer -/

theorem exists_addUdpOption (svc : ServiceDef) (ip : String) {r : EventRoute} (h : r.msg.ReadsUdp)
    (opts : List SdOption) : ∃ opts', addUdpOption svc ip opts r = .ok opts' := by
  rw [addUdpOption, h.text, Except.ok_bind]
  split_ifs
  · exact ⟨opts, rfl⟩
  · rw [h.mode, Except.ok_bind, h.port, Except.ok_bind, h.group, Except.ok_bind]
    split_ifs
    all_goals exact ⟨_, rfl⟩

/-- The offers of an accepted catalog can be built, whatever its multicast groups are. -/
theorem SdAnnouncer.exists_init (hcat : cat.Valid) (hroutes : buildTcpRoutes cat sigIndex = .ok routes)
    (hevents : buildUdpEvents cat (.fromSignals cat.signals) = .ok events) (ip : String) :
    ∃ a, SdAnnouncer.init cat routes events ip = .ok a := by
  have hentry : ∀ svc ∈ cat.services, ∃ e, buildEntry routes events ip svc = .ok e := by
    intro svc _
    have htcp := foldlM_addTcpOption svc ip (readsTcp_of_buildTcpRoutes hcat hroutes) []
    obtain ⟨opts, hopts⟩ := Except.exists_foldlM_ok
      (fun r hr opts => exists_addUdpOption svc ip (readsUdp_of_buildUdpEvents hcat hevents r hr) opts) []
    rw [buildEntry]
    rw [List.map_nil] at htcp
    rw [htcp, Except.ok_bind]
    dsimp only
    rw [hopts]
    exact ⟨_, rfl⟩
  obtain ⟨entries, hentries⟩ := Except.exists_mapM_ok hentry
  rw [SdAnnouncer.init, buildEntries, hentries]
  exact ⟨_, rfl⟩

end

/-! ### The start -/

/-- What `main` has started when it comes to its last loop. -/
structure Node where
  routes : Routes
  events : UdpEvents
  ports : Finset Int
  announcer : SdAnnouncer
  listener : SdListener
  publishers : List UdpPublisher

namespace Node

/-- `main`, with `--announce-ip` and `--sd-port`. -/
def main (cat : Catalog) (announceIp : String) (sdPort : Option Int) : Except PyErr Node := do
  let sigIndex := SignalIndex.fromSignals cat.signals
  let routes ← buildTcpRoutes cat sigIndex
  let events ← buildUdpEvents cat sigIndex
  let cfg ← getDiscoveryCfg cat
  let ports ← allPorts routes
  let announcer ← SdAnnouncer.init cat routes events announceIp
  let listener := SdListener.ofEvents (sdPort.getD cfg.port) events
  let publishers ← events.values.mapM UdpPublisher.create
  return { routes, events, ports, announcer, listener, publishers }

/-- What a started node has to do with its catalog. -/
structure Started (cat : Catalog) (announceIp : String) (node : Node) : Prop where
  routes : buildTcpRoutes cat (.fromSignals cat.signals) = .ok node.routes
  events : buildUdpEvents cat (.fromSignals cat.signals) = .ok node.events
  announcer : SdAnnouncer.init cat node.routes node.events announceIp = .ok node.announcer
  ports : ∀ p, p ∈ node.ports ↔ ∃ m ∈ cat.messages, m.isTcpMethod = true ∧ m.tcpPort = p
  publishers : List.Forall₂ (fun route pub => UdpPublisher.create route = .ok pub) node.events.values node.publishers

theorem Started.of_main {cat : Catalog} {announceIp : String} {sdPort : Option Int} {node : Node} (hcat : cat.Valid)
    (h : main cat announceIp sdPort = .ok node) : Started cat announceIp node := by
  simp only [main, Except.bind_eq_ok, Except.pure_eq_ok, Except.ok.injEq] at h
  obtain ⟨routes, hroutes, events, hevents, cfg, -, ports, hports, announcer, hannouncer, publishers, hpublishers,
    rfl⟩ := h
  obtain ⟨ports', hports', hmem⟩ := exists_allPorts hcat hroutes
  cases hports.symm.trans hports'
  exact ⟨hroutes, hevents, hannouncer, hmem, Except.mapM_eq_ok.1 hpublishers⟩

/-- The publisher of each event of the table can be made if the options of its socket can be read. -/
theorem exists_publishers_iff {cat : Catalog} {events : UdpEvents} (hcat : cat.Valid)
    (hevents : buildUdpEvents cat (.fromSignals cat.signals) = .ok events) :
    (∃ pubs, events.values.mapM UdpPublisher.create = .ok pubs) ↔ ∀ m ∈ cat.ofKind "event", m.Publishable := by
  have hvalues := values_buildUdpEvents hcat hevents
  have hkind : cat.messages.filter MessageDef.isUdpEvent = cat.ofKind "event" :=
    List.filter_congr fun m hm => hcat.isUdpEvent_eq hm
  have hcreate : ∀ route ∈ events.values, (∃ pub, UdpPublisher.create route = .ok pub) ↔ route.msg.Publishable := by
    intro route hroute
    obtain ⟨-, -, hevent⟩ := isUdpEvent_of_mem hcat hevents hroute
    obtain ⟨p, hp, hpos⟩ := hevent.port
    exact UdpPublisher.exists_create_iff hp hpos
  rw [← hkind, ← hvalues]
  constructor
  · rintro ⟨pubs, hpubs⟩ m hm
    obtain ⟨route, hroute, rfl⟩ := List.mem_map.1 hm
    obtain ⟨pub, -, hpub⟩ := (Except.mapM_eq_ok.1 hpubs).exists_right hroute
    exact (hcreate route hroute).1 ⟨pub, hpub⟩
  · intro h
    refine Except.exists_mapM_ok fun route hroute => (hcreate route hroute).2 ?_
    exact h _ (List.mem_map_of_mem hroute)

end Node

/-- The node starts exactly when the catalog has a method and an event, no two methods and no two events have
the same ids, and its events can be published; it starts a server then for the port of each method, and one
publisher for each event. -/
theorem node_starts_iff {doc : Value} {cat : Catalog} (hload : loadCatalog doc = .ok cat) (announceIp : String)
    (sdPort : Option Int) :
    ((∃ node, Node.main cat announceIp sdPort = .ok node) ↔
      (∀ kind ∈ ["method", "event"], ((cat.ofKind kind).map (someipIds cat)).Nodup ∧ cat.ofKind kind ≠ []) ∧
        ∀ m ∈ cat.ofKind "event", m.Publishable) ∧
    ∀ node, Node.main cat announceIp sdPort = .ok node →
      (∀ p, p ∈ node.ports ↔ ∃ m ∈ cat.ofKind "method", m.tcpPort = p) ∧
        node.publishers.map (·.route.msg) = cat.ofKind "event" := by
  have hcat := Catalog.Valid.of_loadCatalog hload
  have husable : ∀ m ∈ cat.messages, cat.Usable m := by
    intro m hm
    exact hcat.usable hm fun items hitems => loadCatalog_readsIds hload hm hitems
  have hmethods := buildTcpRoutes_ok_iff hcat husable
  have hevents := buildUdpEvents_ok_iff hcat husable
  refine ⟨⟨?_, ?_⟩, ?_⟩
  · rintro ⟨node, hnode⟩
    have hstarted := Node.Started.of_main hcat hnode
    refine ⟨?_, (Node.exists_publishers_iff hcat hstarted.events).1 ⟨_, Except.mapM_eq_ok.2 hstarted.publishers⟩⟩
    intro kind hkind
    rcases List.mem_pair.1 hkind with rfl | rfl
    · exact hmethods.1 ⟨_, hstarted.routes⟩
    · exact hevents.1 ⟨_, hstarted.events⟩
  · rintro ⟨hids, hpublishable⟩
    obtain ⟨routes, hroutes⟩ := hmethods.2 (hids "method" (by simp))
    obtain ⟨events, hevents⟩ := hevents.2 (hids "event" (by simp))
    obtain ⟨cfg, hcfg, -⟩ := exists_getDiscoveryCfg hload
    obtain ⟨ports, hports, -⟩ := exists_allPorts hcat hroutes
    obtain ⟨announcer, hannouncer⟩ := SdAnnouncer.exists_init hcat hroutes hevents announceIp
    obtain ⟨pubs, hpubs⟩ := (Node.exists_publishers_iff hcat hevents).2 hpublishable
    refine ⟨⟨routes, events, ports, announcer, .ofEvents (sdPort.getD cfg.port) events, pubs⟩, ?_⟩
    rw [Node.main, hroutes, Except.ok_bind, hevents, Except.ok_bind, hcfg, Except.ok_bind, hports, Except.ok_bind,
      hannouncer, Except.ok_bind]
    dsimp only
    rw [hpubs]
    rfl
  · intro node hnode
    have hstarted := Node.Started.of_main hcat hnode
    have hkind : cat.messages.filter MessageDef.isTcpMethod = cat.ofKind "method" :=
      List.filter_congr fun m hm => hcat.isTcpMethod_eq hm
    have hkind' : cat.messages.filter MessageDef.isUdpEvent = cat.ofKind "event" :=
      List.filter_congr fun m hm => hcat.isUdpEvent_eq hm
    refine ⟨fun p => ?_, ?_⟩
    · rw [hstarted.ports, ← hkind]
      simp [and_assoc]
    · rw [← hkind', ← values_buildUdpEvents hcat hstarted.events]
      have hroutes : node.publishers.map (·.route) = node.events.values :=
        List.Forall₂.map_eq (hstarted.publishers.imp fun route pub hpub => (UdpPublisher.create_ok hpub).1)
      rw [← hroutes, List.map_map]
      rfl

def exampleNode : Node := (Node.main exampleCatalog "127.0.0.1" none).get (by decide +kernel)

theorem exampleNode_eq : Node.main exampleCatalog "127.0.0.1" none = .ok exampleNode := Except.eq_ok_get _

theorem node_starts_iff_example : (∀ p, p ∈ exampleNode.ports ↔ ∃ m ∈ exampleCatalog.ofKind "method", m.tcpPort = p) ∧
    exampleNode.publishers.map (·.route.msg) = exampleCatalog.ofKind "event" :=
  (node_starts_iff loadCatalog_example "127.0.0.1" none).2 exampleNode exampleNode_eq

end AutoEth
