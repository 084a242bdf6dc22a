import AutoEth.Listener
import AutoEth.Lib.Distinct

/-!
# The SD announcer

`SdAnnouncer` builds one offer for each service of the catalog from the route tables of the node, and
sends them in every period under a session counter. The builder attaches a message to the service whose
name is the text of its `service` field, as it stands; the options of an offer are the distinct TCP ports
and the events of these messages (`buildEntries_eq`).
-/

namespace AutoEth

/-- `str((cfg or {}).get(key, ""))`. -/
def textOf (cfg : Value) (key : String) : Except PyErr String := do
  return (← cfg.orEmpty.getD key (.str "")).toStr

/-- One turn of the loop over the methods, over `tcp_opts` and `tcp_seen`. -/
def addTcpOption (svc : ServiceDef) (announceIp : String) (st : List SdOption × List Int)
    (r : MethodRoute) : Except PyErr (List SdOption × List Int) := do
  if (← textOf r.msg.someip "service") ≠ svc.name then return st
  else
    let p ← portOf r.msg.tcp
    if p ≠ 0 ∧ p ∉ st.2 then return (st.1 ++ [.ipv4Endpoint announceIp p l4Tcp], st.2 ++ [p])
    else return st

/-- One turn of the loop over the events, over `udp_opts`. -/
def addUdpOption (svc : ServiceDef) (announceIp : String) (opts : List SdOption) (r : EventRoute) :
    Except PyErr (List SdOption) := do
  if (← textOf r.msg.someip "service") ≠ svc.name then return opts
  else
    let mode ← modeOf r.msg.udp
    let port ← portOf r.msg.udp
    if mode = "multicast" then
      let group ← textOf r.msg.udp "mcast_group"
      if group ≠ "" ∧ port ≠ 0 then return opts ++ [.ipv4Multicast group port] else return opts
    else if port ≠ 0 then return opts ++ [.ipv4Endpoint announceIp port l4Udp]
    else return opts

def buildEntry (routes : Routes) (udpEvents : UdpEvents) (announceIp : String) (svc : ServiceDef) :
    Except PyErr ServiceEntry := do
  let (tcpOpts, _) ← routes.values.foldlM (addTcpOption svc announceIp) ([], [])
  let udpOpts ← udpEvents.values.foldlM (addUdpOption svc announceIp) []
  return {
    entryType := etOfferService
    serviceId := svc.serviceId
    instanceId := svc.instanceId
    majorVersion := svc.majorVersion
    minorVersion := svc.minorVersion
    ttl := ttlDefault
    options := tcpOpts ++ udpOpts }

def buildEntries (cat : Catalog) (routes : Routes) (udpEvents : UdpEvents) (announceIp : String) :
    Except PyErr (List ServiceEntry) :=
  cat.services.mapM (buildEntry routes udpEvents announceIp)

structure SdAnnouncer where
  entries : List ServiceEntry
  seq : Int

namespace SdAnnouncer

def init (cat : Catalog) (routes : Routes) (udpEvents : UdpEvents) (announceIp : String) :
    Except PyErr SdAnnouncer := do
  return { entries := ← buildEntries cat routes udpEvents announceIp, seq := 0 }

/-- One period of `run`: the packet, and the announcer behind it. -/
def announce (a : SdAnnouncer) : Except PyErr (Bytes × SdAnnouncer) := do
  let pkt ← buildSdMessage a.seq (a.entries.map .service) defaultSdFlags
  return (pkt, { a with seq := (a.seq + 1) % 2 ^ 16 })

/-- The packets of the first `n` periods. -/
def run : Nat → SdAnnouncer → Except PyErr (List Bytes)
  | 0, _ => return []
  | n + 1, a => do
    let (pkt, a) ← a.announce
    return pkt :: (← run n a)

end SdAnnouncer

/-! ### What the builder reads of a message -/

namespace MessageDef

def serviceText (m : MessageDef) : String := (textOf m.someip "service").toOption.getD ""

def tcpPort (m : MessageDef) : Int := (portOf m.tcp).toOption.getD 0

def udpPort (m : MessageDef) : Int := (portOf m.udp).toOption.getD 0

def udpMode (m : MessageDef) : String := (modeOf m.udp).toOption.getD ""

def mcastGroup (m : MessageDef) : String := (textOf m.udp "mcast_group").toOption.getD ""

/-- A TCP method as the first loop reads it. -/
structure ReadsTcp (m : MessageDef) : Prop where
  text : textOf m.someip "service" = .ok m.serviceText
  port : portOf m.tcp = .ok m.tcpPort
  port_pos : 0 < m.tcpPort

/-- A UDP event as the second loop reads it. -/
structure ReadsUdp (m : MessageDef) : Prop where
  text : textOf m.someip "service" = .ok m.serviceText
  mode : modeOf m.udp = .ok m.udpMode
  port : portOf m.udp = .ok m.udpPort
  port_pos : 0 < m.udpPort
  group : textOf m.udp "mcast_group" = .ok m.mcastGroup

end MessageDef

namespace Catalog.Valid
variable {cat : Catalog} {m : MessageDef}

theorem serviceText (hcat : cat.Valid) (hm : m ∈ cat.messages) :
    textOf m.someip "service" = .ok m.serviceText ∧
      m.someip.getD "service" (.str "") >>= (fun v => .ok v.toStr) = .ok m.serviceText ∧
        strip m.serviceText ∈ cat.services.map (·.name) := by
  obtain ⟨items, hitems, htrue, hmem, -⟩ := validateSomeip_ok (hcat.someip m hm)
  have hv : m.someip.getD "service" (.str "") = .ok ((items.lookup "service").getD (.str "")) :=
    Value.getD_eq_ok.2 ⟨items, hitems, rfl⟩
  have htext : textOf m.someip "service" = .ok ((items.lookup "service").getD (.str "")).toStr := by
    rw [textOf, Value.orEmpty, if_pos htrue, hv]
    rfl
  have heq : m.serviceText = ((items.lookup "service").getD (.str "")).toStr := by
    rw [MessageDef.serviceText, htext]
    rfl
  rw [heq]
  exact ⟨htext, by rw [hv]; rfl, hmem⟩

theorem readsTcp (hcat : cat.Valid) (hm : m ∈ cat.messages) (hkind : m.isTcpMethod = true)
    {p : Int} (hp : portOf m.tcp = .ok p) : m.ReadsTcp := by
  have hport : portOf m.tcp = .ok m.tcpPort := Except.eq_ok_getD hp 0
  exact ⟨(hcat.serviceText hm).1, hport, hcat.tcpPort_pos hm hkind hport⟩

theorem readsUdp (hcat : cat.Valid) (hm : m ∈ cat.messages) (hkind : m.isUdpEvent = true)
    {e : String × EventRoute} {sigIndex : SignalIndex} (he : IsUdpEvent cat sigIndex m e) :
    m.ReadsUdp := by
  obtain ⟨p, hp, -⟩ := he.port
  obtain ⟨mode, group, hmode, hgroup, -⟩ := he.mode
  have hport : portOf m.udp = .ok m.udpPort := Except.eq_ok_getD hp 0
  have htext : textOf m.udp "mcast_group" = .ok m.mcastGroup := by
    obtain ⟨items, hitems, -⟩ := Value.getD_eq_ok.1 hgroup
    have hread : textOf m.udp "mcast_group" = .ok ((items.lookup "mcast_group").getD (.str "")).toStr := by
      rw [textOf, hitems]
      rfl
    exact Except.eq_ok_getD hread ""
  exact ⟨(hcat.serviceText hm).1, Except.eq_ok_getD hmode "", hport, hcat.udpPort_pos hm hkind hport,
    htext⟩

end Catalog.Valid

/-! ### The options of a service -/

def tcpOption (ip : String) (port : Int) : SdOption := .ipv4Endpoint ip port l4Tcp

/-- The endpoint of an event, or its group. -/
def udpOption (ip : String) (m : MessageDef) : SdOption :=
  if m.udpMode = "multicast" then .ipv4Multicast m.mcastGroup m.udpPort
  else .ipv4Endpoint ip m.udpPort l4Udp

/-- The distinct ports of the methods among the messages, in the order of their first occurrence. -/
def tcpPorts (ms : List MessageDef) : List Int :=
  ((ms.filter MessageDef.isTcpMethod).map MessageDef.tcpPort).eraseDups

/-- One endpoint for each distinct TCP port, and one option for each event. -/
def optionsOf (ip : String) (ms : List MessageDef) : List SdOption :=
  (tcpPorts ms).map (tcpOption ip) ++ (ms.filter MessageDef.isUdpEvent).map (udpOption ip)

namespace Catalog

/-- The messages that the announcer attaches to the service: those that name it as it stands. -/
def naming (cat : Catalog) (svc : ServiceDef) : List MessageDef :=
  cat.messages.filter fun m => m.serviceText = svc.name

/-- The options that the announcer attaches to the service. -/
def announced (cat : Catalog) (ip : String) (svc : ServiceDef) : List SdOption := optionsOf ip (cat.naming svc)

/-- The groups of the multicast events are addresses. -/
def GroupsCanonical (cat : Catalog) : Prop :=
  ∀ m ∈ cat.messages, m.isUdpEvent = true → m.udpMode = "multicast" → Inet.Canonical m.mcastGroup

end Catalog

def offerEntry (cat : Catalog) (announceIp : String) (svc : ServiceDef) : ServiceEntry where
  entryType := etOfferService
  serviceId := svc.serviceId
  instanceId := svc.instanceId
  majorVersion := svc.majorVersion
  minorVersion := svc.minorVersion
  ttl := ttlDefault
  options := cat.announced announceIp svc

section Loops
variable (svc : ServiceDef) (ip : String)

theorem addTcpOption_eq {r : MethodRoute} (h : r.msg.ReadsTcp) (seen : List Int) :
    addTcpOption svc ip (seen.map (tcpOption ip), seen) r = .ok (
      let seen' := if r.msg.serviceText = svc.name then Distinct.insertNew seen r.msg.tcpPort else seen
      (seen'.map (tcpOption ip), seen')) := by
  have hpos := h.port_pos
  rw [addTcpOption, h.text, Except.ok_bind]
  by_cases hname : r.msg.serviceText = svc.name
  · rw [if_neg (not_not.2 hname), h.port, Except.ok_bind, if_pos hname, Distinct.insertNew]
    by_cases hseen : r.msg.tcpPort ∈ seen
    · rw [if_neg (fun hnew => hnew.2 hseen), if_pos hseen]
      rfl
    · rw [if_pos ⟨by omega, hseen⟩, if_neg hseen]
      dsimp only
      rw [List.map_append]
      rfl
  · rw [if_pos hname, if_neg hname]
    rfl

theorem foldlM_addTcpOption {l : List MethodRoute} (h : ∀ r ∈ l, r.msg.ReadsTcp) (seen : List Int) :
    l.foldlM (addTcpOption svc ip) (seen.map (tcpOption ip), seen) = .ok (
      let ports := ((l.map (·.msg)).filter fun m => m.serviceText = svc.name).map MessageDef.tcpPort
      let seen' := ports.foldl Distinct.insertNew seen
      (seen'.map (tcpOption ip), seen')) := by
  induction l generalizing seen with
  | nil => rfl
  | cons r l ih =>
    rw [List.foldlM_cons, addTcpOption_eq svc ip (h r (List.mem_cons_self ..)), Except.ok_bind]
    dsimp only
    rw [ih fun r hr => h r (List.mem_cons_of_mem _ hr), List.map_cons]
    by_cases hname : r.msg.serviceText = svc.name
    · rw [if_pos hname, List.filter_cons_of_pos (by simpa using hname), List.map_cons, List.foldl_cons]
    · rw [if_neg hname, List.filter_cons_of_neg (by simpa using hname)]

theorem addUdpOption_eq {r : EventRoute} (h : r.msg.ReadsUdp)
    (hgroup : r.msg.udpMode = "multicast" → r.msg.mcastGroup ≠ "") (opts : List SdOption) :
    addUdpOption svc ip opts r = .ok (opts ++
      if r.msg.serviceText = svc.name then [udpOption ip r.msg] else []) := by
  have hpos := h.port_pos
  rw [addUdpOption, h.text, Except.ok_bind]
  by_cases hname : r.msg.serviceText = svc.name
  · rw [if_neg (not_not.2 hname), h.mode, Except.ok_bind, h.port, Except.ok_bind, if_pos hname, udpOption]
    by_cases hmode : r.msg.udpMode = "multicast"
    · rw [if_pos hmode, h.group, Except.ok_bind, if_pos ⟨hgroup hmode, by omega⟩, if_pos hmode]
      rfl
    · rw [if_neg hmode, if_pos (by omega), if_neg hmode]
      rfl
  · rw [if_pos hname, if_neg hname, List.append_nil]
    rfl

theorem foldlM_addUdpOption {l : List EventRoute} (h : ∀ r ∈ l, r.msg.ReadsUdp)
    (hgroup : ∀ r ∈ l, r.msg.udpMode = "multicast" → r.msg.mcastGroup ≠ "") (opts : List SdOption) :
    l.foldlM (addUdpOption svc ip) opts = .ok (opts ++
      ((l.map (·.msg)).filter fun m => m.serviceText = svc.name).map (udpOption ip)) := by
  induction l generalizing opts with
  | nil => rw [List.map_nil, List.filter_nil, List.map_nil, List.append_nil]; rfl
  | cons r l ih =>
    rw [List.foldlM_cons,
      addUdpOption_eq svc ip (h r (List.mem_cons_self ..)) (hgroup r (List.mem_cons_self ..)), Except.ok_bind,
      ih (fun r hr => h r (List.mem_cons_of_mem _ hr))
        (fun r hr => hgroup r (List.mem_cons_of_mem _ hr)), List.map_cons]
    by_cases hname : r.msg.serviceText = svc.name
    · rw [if_pos hname, List.filter_cons_of_pos (by simpa using hname), List.map_cons, List.append_assoc]
      rfl
    · rw [if_neg hname, List.filter_cons_of_neg (by simpa using hname), List.append_nil]

end Loops

section Build
variable {cat : Catalog} {sigIndex : SignalIndex} {routes : Routes} {udpEvents : UdpEvents} {ip : String}

theorem values_buildTcpRoutes (h : buildTcpRoutes cat sigIndex = .ok routes) :
    routes.values.map (·.msg) = cat.messages.filter MessageDef.isTcpMethod := by
  rw [Dict.values, List.map_map]
  exact List.Forall₂.map_eq ((buildTcpRoutes_entries h).imp fun _ _ hr => hr.msg)

theorem values_buildUdpEvents (hcat : cat.Valid) (h : buildUdpEvents cat sigIndex = .ok udpEvents) :
    udpEvents.values.map (·.msg) = cat.messages.filter MessageDef.isUdpEvent := by
  rw [Dict.values, List.map_map]
  exact List.Forall₂.map_eq ((buildUdpEvents_entries hcat h).imp fun _ _ hr => hr.msg)

/-- An accepted catalog with tables, and addresses as `inet_ntoa` writes them. -/
structure Catalog.Announceable (cat : Catalog) (ip : String) : Prop where
  valid : cat.Valid
  ip : Inet.Canonical ip
  tcp : ∀ m ∈ cat.messages, m.isTcpMethod = true → m.ReadsTcp
  udp : ∀ m ∈ cat.messages, m.isUdpEvent = true → m.ReadsUdp
  groups : cat.GroupsCanonical

theorem Catalog.Announceable.of_build (hcat : cat.Valid) (hroutes : buildTcpRoutes cat sigIndex = .ok routes)
    (hevents : buildUdpEvents cat sigIndex = .ok udpEvents) (hip : Inet.Canonical ip)
    (hgroups : cat.GroupsCanonical) : cat.Announceable ip := by
  refine ⟨hcat, hip, fun m hm hkind => ?_, fun m hm hkind => ?_, hgroups⟩
  · obtain ⟨e, he, -⟩ := get?_of_isTcpMethod hroutes hm hkind
    obtain ⟨p, hp, -⟩ := he.port
    exact hcat.readsTcp hm hkind hp
  · obtain ⟨e, -, he⟩ :=
      List.Forall₂.exists_right (buildUdpEvents_entries hcat hevents) (List.mem_filter.2 ⟨hm, hkind⟩)
    exact hcat.readsUdp hm hkind he

theorem Catalog.Announceable.group_ne (h : cat.Announceable ip) {m : MessageDef} (hm : m ∈ cat.messages)
    (hkind : m.isUdpEvent = true) (hmode : m.udpMode = "multicast") : m.mcastGroup ≠ "" := by
  intro hempty
  have hsome := (h.groups m hm hkind hmode).isSome_aton
  rw [hempty] at hsome
  exact absurd hsome (by decide)

/-- What the announcer builds: the offer of each service, with the options of the messages naming it. -/
theorem buildEntries_eq (h : cat.Announceable ip) (hroutes : buildTcpRoutes cat sigIndex = .ok routes)
    (hevents : buildUdpEvents cat sigIndex = .ok udpEvents) :
    buildEntries cat routes udpEvents ip = .ok (cat.services.map (offerEntry cat ip)) := by
  refine Except.mapM_ok_of_forall _ fun svc _ => ?_
  have htcpValues := values_buildTcpRoutes hroutes
  have hudpValues := values_buildUdpEvents h.valid hevents
  have hmethod : ∀ r ∈ routes.values, r.msg ∈ cat.messages ∧ r.msg.isTcpMethod = true := by
    intro r hr
    exact List.mem_filter.1 (htcpValues ▸ List.mem_map_of_mem hr)
  have hevent : ∀ r ∈ udpEvents.values, r.msg ∈ cat.messages ∧ r.msg.isUdpEvent = true := by
    intro r hr
    exact List.mem_filter.1 (hudpValues ▸ List.mem_map_of_mem hr)
  have hcomm (p : MessageDef → Bool) : (cat.messages.filter p).filter (fun m => m.serviceText = svc.name) =
      (cat.naming svc).filter p := by
    rw [Catalog.naming, List.filter_filter, List.filter_filter]
    exact List.filter_congr fun m _ => Bool.and_comm ..
  have htcp := foldlM_addTcpOption svc ip
    (fun r hr => h.tcp r.msg (hmethod r hr).1 (hmethod r hr).2) []
  have hudp := foldlM_addUdpOption svc ip
    (fun r hr => h.udp r.msg (hevent r hr).1 (hevent r hr).2)
    (fun r hr => h.group_ne (hevent r hr).1 (hevent r hr).2) []
  dsimp only at htcp
  rw [htcpValues, Distinct.foldl_insertNew List.nodup_nil, hcomm, List.map_nil] at htcp
  rw [hudpValues, hcomm] at hudp
  rw [buildEntry, htcp, Except.ok_bind]
  dsimp only
  rw [hudp]
  rfl

theorem SdAnnouncer.init_eq (h : cat.Announceable ip) (hroutes : buildTcpRoutes cat sigIndex = .ok routes)
    (hevents : buildUdpEvents cat sigIndex = .ok udpEvents) :
    SdAnnouncer.init cat routes udpEvents ip = .ok ⟨cat.services.map (offerEntry cat ip), 0⟩ := by
  rw [SdAnnouncer.init, buildEntries_eq h hroutes hevents]
  rfl

end Build

end AutoEth
