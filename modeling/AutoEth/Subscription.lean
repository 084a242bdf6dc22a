import AutoEth.Subscribe
import AutoEth.Transport

/-!
# Subscriptions of a client

`ClientContext` keeps a table of subscriptions by event name. Starting one sends a subscribe for a
unicast event, stopping one sends an entry with ttl 0. What `toggle_sub` and `stop_all` do on the
events of an accepted catalog is said by one lemma for each way that they can go: a stop sends packets
that name no endpoint (`toggleSub_stop`, `stopNames_spec`), a start sends a request for the client's
endpoint or nothing (`toggleSub_unicast`, `toggleSub_multicast`, `toggleSub_refused`).
-/

namespace AutoEth

/-! ### The client -/

structure EventSubscription where
  event : MessageDef
  port : Int
  mode : String
  group : String
  ifaceIp : String
  svcId : Int
  eid : Int
  sigs : List SignalDef

def EventSubscription.create (cat : Catalog) (sigIndex : SignalIndex) (event : MessageDef) (ifaceIp : String) :
    Except PyErr EventSubscription := do
  let port ← portOf event.udp
  let mode ← modeOf event.udp
  let group := (← event.udp.orEmpty.getD "mcast_group" (.str "")).toStr
  let (svcId, _, eid) ← resolveSomeip cat event
  let sigs ← sigIndex.subset event.signals
  return { event, port, mode, group, ifaceIp, svcId, eid, sigs }

structure ClientContext where
  cat : Catalog
  sigIndex : SignalIndex
  ifaceIp : String
  sdGroup : String
  sdPort : Int
  bindIp : String
  subs : Dict String EventSubscription

/-- What a call leaves: the client, the packets that it sent, and its value or exception. -/
structure Outcome (α : Type) where
  ctx : ClientContext
  sent : List Packet
  result : Except PyErr α

/-- `next((s for s in cat.services if s.service_id == svc_id), None)`. -/
def Catalog.serviceById (cat : Catalog) (svcId : Int) : Option ServiceDef :=
  cat.services.find? fun s => s.serviceId = svcId

def findEvent (cat : Catalog) (name : String) : Except PyErr MessageDef :=
  match cat.messages.find? fun m => m.isUdpEvent && m.name = name with
  | some m => .ok m
  | none => .error (.systemExit s!"Event not found: {name}")

theorem findEvent_eq_ok {cat : Catalog} {name : String} {e : MessageDef} (h : findEvent cat name = .ok e) :
    e ∈ cat.messages ∧ e.isUdpEvent = true ∧ e.name = name := by
  unfold findEvent at h
  split at h
  · rename_i m hm
    cases h
    have htest : e.isUdpEvent = true ∧ e.name = name := by simpa using List.find?_some hm
    exact ⟨List.mem_of_find?_eq_some hm, htest⟩
  · cases h

namespace ClientContext

def isSubscribed (c : ClientContext) (name : String) : Bool := c.subs.contains name

def clientIp (c : ClientContext) : String := if c.bindIp ≠ "0.0.0.0" then c.bindIp else "127.0.0.1"

def subscribeCall (c : ClientContext) (svcId egid port : Int) : SubscribeCall where
  clientIp := c.clientIp
  clientUdpPort := port
  svcId := svcId
  instId := ((c.cat.serviceById svcId).map (·.instanceId)).getD 0
  major := ((c.cat.serviceById svcId).map (·.majorVersion)).getD 1
  eventgroupId := egid
  counter := 0

/-- The call of `_subscribe_eventgroup`, which binds its socket and joins the group before it sends; its answer
is not looked at. -/
def startSubscribe (c : ClientContext) (event : MessageDef) : Except PyErr (List Packet) := do
  let port ← portOf event.udp
  let mode ← modeOf event.udp
  if mode = "multicast" then return []
  else
    let (svcId, _, _) ← resolveSomeip c.cat event
    let egid ← resolveEventgroupId event
    let data ← (c.subscribeCall svcId egid port).request
    socketPort "bind" c.sdPort
    joinMulticast c.sdGroup "0.0.0.0"
    return [⟨(c.sdGroup, c.sdPort), data⟩]

def subscribeEntry (c : ClientContext) (svcId egid port : Int) (stop : Bool) : EventgroupEntry where
  entryType := etSubscribeEventgroup
  serviceId := svcId
  instanceId := ((c.cat.serviceById svcId).map (·.instanceId)).getD 0
  majorVersion := ((c.cat.serviceById svcId).map (·.majorVersion)).getD 1
  eventgroupId := egid
  counter := 0
  ttl := if stop then ttlStop else ttlDefault
  initialDataReq := false
  options := if stop then [] else [.ipv4Endpoint c.clientIp port l4Udp]

def sendSubscribe (c : ClientContext) (event : MessageDef) (stop : Bool) : Except PyErr Packet := do
  let port ← portOf event.udp
  let (svcId, _, _) ← resolveSomeip c.cat event
  let egid ← resolveEventgroupId event
  let data ← buildSdMessage 1 [.eventgroup (c.subscribeEntry svcId egid port stop)] defaultSdFlags
  socketPort "sendto" c.sdPort
  return ⟨(c.sdGroup, c.sdPort), data⟩

def stopSubscribe (c : ClientContext) (event : MessageDef) : Except PyErr (List Packet) := do
  if (← modeOf event.udp) = "multicast" then return []
  else return [← c.sendSubscribe event true]

def toggleSub (c : ClientContext) (event : MessageDef) : Outcome Bool :=
  if c.isSubscribed event.name then
    let c := { c with subs := c.subs.erase event.name }
    match c.stopSubscribe event with
    | .error e => ⟨c, [], .error e⟩
    | .ok sent => ⟨c, sent, .ok false⟩
  else
    match c.startSubscribe event with
    | .error e => ⟨c, [], .error e⟩
    | .ok sent =>
      match EventSubscription.create c.cat c.sigIndex event c.ifaceIp with
      | .error e => ⟨c, sent, .error e⟩
      | .ok sub => ⟨{ c with subs := c.subs.set event.name sub }, sent, .ok true⟩

/-- The loop of `stop_all` over the names. -/
def stopNames (c : ClientContext) : List String → Outcome Unit
  | [] => ⟨c, [], .ok ()⟩
  | name :: names =>
    match findEvent c.cat name with
    | .error e => ⟨c, [], .error e⟩
    | .ok event =>
      let o := c.toggleSub event
      match o.result with
      | .error e => ⟨o.ctx, o.sent, .error e⟩
      | .ok _ =>
        let rest := stopNames o.ctx names
        ⟨rest.ctx, o.sent ++ rest.sent, rest.result⟩

def stopAll (c : ClientContext) : Outcome Unit := c.stopNames c.subs.keys

/-- The endpoint of the client for an event with this port: where its `EventSubscription` is bound to. -/
def endpoint (c : ClientContext) (port : Int) : Endpoint := (c.bindIp, port)

/-- The endpoint that a subscribe of the client names for it, its address as `inet_ntoa` writes it. -/
def namedEndpoint (c : ClientContext) (port : Int) : Endpoint := (canonicalIp c.clientIp, port)

/-- The request of the client for a unicast event can be sent. -/
structure CanSubscribe (c : ClientContext) : Prop where
  address : (Inet.aton c.clientIp).isSome
  group : (Inet.aton c.sdGroup).isSome
  port : FitsBits 16 c.sdPort

/-- The name is one of an event, and a stop for it can be sent if there is one. -/
def CanStop (c : ClientContext) (name : String) : Prop :=
  ∃ e ∈ c.cat.messages, e.isUdpEvent = true ∧ e.name = name ∧
    (modeOf e.udp = .ok "multicast" ∨ FitsBits 16 c.sdPort)

end ClientContext

/-! ### The calls -/

/-- A unicast event of the catalog, with its eventgroup and its port. -/
structure UnicastEvent (cat : Catalog) (e : MessageDef) (svcId egid port : Int) : Prop where
  mem : e ∈ cat.messages
  kind : e.isUdpEvent = true
  mode : ∃ mode, modeOf e.udp = .ok mode ∧ mode ≠ "multicast"
  svcId : ∃ v eid, resolveSomeip cat e = .ok (svcId, v, eid)
  egid : resolveEventgroupId e = .ok egid
  port : portOf e.udp = .ok port

/-- What the client reads of an event. -/
structure ReadsEvent (cat : Catalog) (e : MessageDef) (mode : String) (svcId egid port : Int) : Prop where
  mode : modeOf e.udp = .ok mode
  svcId : ∃ v eid, resolveSomeip cat e = .ok (svcId, v, eid)
  egid : resolveEventgroupId e = .ok egid
  port : portOf e.udp = .ok port
  create : ∀ ifaceIp, ∃ sub, EventSubscription.create cat (.fromSignals cat.signals) e ifaceIp = .ok sub

theorem UnicastEvent.mode_ne {cat : Catalog} {e : MessageDef} {mode : String}
    {svcId egid port svcId' egid' port' : Int} (h : UnicastEvent cat e svcId' egid' port')
    (hreads : ReadsEvent cat e mode svcId egid port) :
    mode ≠ "multicast" := by
  obtain ⟨mode', hmode, hne⟩ := h.mode
  cases hmode.symm.trans hreads.mode
  exact hne

theorem UnicastEvent.unique {cat : Catalog} {e : MessageDef} {svcId egid port svcId' egid' port' : Int}
    (h : UnicastEvent cat e svcId' egid' port') (h' : UnicastEvent cat e svcId egid port) :
    svcId' = svcId ∧ egid' = egid ∧ port' = port := by
  obtain ⟨v, eid, hsvc⟩ := h.svcId
  obtain ⟨v', eid', hsvc'⟩ := h'.svcId
  cases hsvc.symm.trans hsvc'
  exact ⟨rfl, Except.ok.inj (h.egid.symm.trans h'.egid), Except.ok.inj (h.port.symm.trans h'.port)⟩

section Catalog
variable {cat : Catalog} {events : UdpEvents} {e : MessageDef} {c : ClientContext} {mode : String}
  {svcId egid port : Int}

theorem exists_readsEvent (hcat : cat.Valid)
    (hevents : buildUdpEvents cat (.fromSignals cat.signals) = .ok events) (he : e ∈ cat.messages)
    (hkind : e.isUdpEvent = true) (sdPort : Int) :
    ∃ mode svcId egid port, ReadsEvent cat e mode svcId egid port ∧ 0 < port ∧
      (SdListener.ofEvents sdPort events).Serves (svcId, egid) := by
  obtain ⟨⟨name, r⟩, hr, hevent⟩ :=
    List.Forall₂.exists_right (buildUdpEvents_entries hcat hevents) (List.mem_filter.2 ⟨he, hkind⟩)
  obtain ⟨port, hport, -⟩ := hevent.port
  obtain ⟨mode, group, hmode, hgroup, -⟩ := hevent.mode
  obtain ⟨items, hitems, -⟩ := Value.getD_eq_ok.1 hgroup
  have hgroup' : ∃ v, e.udp.orEmpty.getD "mcast_group" (.str "") = .ok v :=
    ⟨_, Value.getD_eq_ok.2 ⟨items, hitems, rfl⟩⟩
  obtain ⟨v, hv⟩ := hgroup'
  refine ⟨mode, r.svcId, r.eventgroupId, port,
    ⟨hmode, ⟨_, _, hevent.resolve⟩, hevent.eventgroup, hport, ?_⟩,
    hcat.udpPort_pos he hkind hport,
    SdListener.serves_ofEvents (Dict.get?_of_mem_entries hr)⟩
  exact fun _ => ⟨_, by rw [EventSubscription.create, hport, hmode, hv, hevent.resolve, hevent.sigs]; rfl⟩

/-- A packet whose entries name no endpoint. -/
def Packet.Nameless (p : Packet) : Prop := ∀ e ∈ sdEntries (recvSd p.data), e.options = []

namespace ClientContext

theorem toggleSub_stop (hcat : c.cat = cat) (hreads : ReadsEvent cat e mode svcId egid port)
    (hport : mode = "multicast" ∨ FitsBits 16 c.sdPort) (hsub : c.isSubscribed e.name = true) :
    ∃ sent, c.toggleSub e = ⟨{ c with subs := c.subs.erase e.name }, sent, .ok false⟩ ∧
      ∀ p ∈ sent, p.Nameless := by
  subst hcat
  obtain ⟨v, eid, hsvc⟩ := hreads.svcId
  simp only [toggleSub, hsub, if_true, stopSubscribe, hreads.mode, Except.ok_bind]
  by_cases hmode : mode = "multicast"
  · rw [if_pos hmode]
    exact ⟨[], rfl, fun _ hp => nomatch hp⟩
  · obtain ⟨data, hdata⟩ := @exists_buildSdMessage_nameless 1 defaultSdFlags
      ({ c with subs := c.subs.erase e.name }.subscribeEntry svcId egid port true) rfl
    rw [if_neg hmode, sendSubscribe, hreads.port, Except.ok_bind, hsvc, Except.ok_bind]
    dsimp only
    rw [hreads.egid, Except.ok_bind, hdata, Except.ok_bind, socketPort_eq_ok.2 (hport.resolve_left hmode)]
    refine ⟨[⟨(c.sdGroup, c.sdPort), data⟩], rfl, fun p hp e he => ?_⟩
    rw [List.mem_singleton.1 hp, sdEntries_recvSd_build hdata (.inl rfl) (Nat.zero_le _)] at he
    rw [List.mem_singleton.1 he]
    rfl

/-- Starting a subscription for a multicast event sends nothing. -/
theorem toggleSub_multicast (hcat : c.cat = cat) (hsig : c.sigIndex = .fromSignals cat.signals)
    (hreads : ReadsEvent cat e "multicast" svcId egid port) (hsub : c.isSubscribed e.name = false) :
    ∃ sub, c.toggleSub e = ⟨{ c with subs := c.subs.set e.name sub }, [], .ok true⟩ := by
  obtain ⟨sub, hcreate⟩ := hreads.create c.ifaceIp
  refine ⟨sub, ?_⟩
  rw [toggleSub, hsub, if_neg (by decide), startSubscribe, hreads.port, Except.ok_bind, hreads.mode,
    Except.ok_bind, if_pos rfl, hcat, hsig, Except.pure_eq_ok, hcreate]

theorem toggleSub_unicast (hcat : c.cat = cat) (hsig : c.sigIndex = .fromSignals cat.signals)
    (hreads : ReadsEvent cat e mode svcId egid port) (hmode : mode ≠ "multicast")
    (hsub : c.isSubscribed e.name = false) (hcan : c.CanSubscribe) :
    ∃ sub data, (c.subscribeCall svcId egid port).request = .ok data ∧
      c.toggleSub e = ⟨{ c with subs := c.subs.set e.name sub }, [⟨(c.sdGroup, c.sdPort), data⟩],
        .ok true⟩ := by
  subst hcat
  obtain ⟨sub, hcreate⟩ := hreads.create c.ifaceIp
  obtain ⟨v, eid, hsvc⟩ := hreads.svcId
  obtain ⟨data, hdata⟩ := (SubscribeCall.exists_request_iff (c := c.subscribeCall svcId egid port)).2 hcan.address
  refine ⟨sub, data, hdata, ?_⟩
  rw [toggleSub, hsub, if_neg (by decide), startSubscribe, hreads.port, Except.ok_bind, hreads.mode,
    Except.ok_bind, if_neg hmode, hsvc, Except.ok_bind]
  dsimp only
  rw [hreads.egid, Except.ok_bind, hdata, Except.ok_bind, socketPort_eq_ok.2 hcan.port, Except.ok_bind,
    joinMulticast_eq_ok.2 ⟨hcan.group, by decide +kernel⟩, Except.ok_bind, hsig, Except.pure_eq_ok, hcreate]

/-- A client whose request cannot be sent does nothing. -/
theorem toggleSub_refused (hcat : c.cat = cat) (hreads : ReadsEvent cat e mode svcId egid port)
    (hmode : mode ≠ "multicast") (hsub : c.isSubscribed e.name = false) (hcan : ¬ c.CanSubscribe) :
    ∃ err, c.toggleSub e = ⟨c, [], .error err⟩ := by
  subst hcat
  obtain ⟨v, eid, hsvc⟩ := hreads.svcId
  cases hstart : c.startSubscribe e with
  | error err =>
    refine ⟨err, ?_⟩
    rw [toggleSub, hsub, if_neg (by decide), hstart]
  | ok sent =>
    rw [startSubscribe, hreads.port, Except.ok_bind, hreads.mode, Except.ok_bind, if_neg hmode, hsvc,
      Except.ok_bind] at hstart
    dsimp only at hstart
    rw [hreads.egid, Except.ok_bind] at hstart
    obtain ⟨data, hdata, hstart⟩ := Except.bind_eq_ok.1 hstart
    obtain ⟨_, hport, hstart⟩ := Except.bind_eq_ok.1 hstart
    obtain ⟨_, hjoin, -⟩ := Except.bind_eq_ok.1 hstart
    have haddress := SubscribeCall.exists_request_iff.1 ⟨data, hdata⟩
    exact absurd ⟨haddress, (joinMulticast_eq_ok.1 hjoin).1, socketPort_eq_ok.1 hport⟩ hcan

theorem CanStop.sdPort (hcat : cat.Valid) (hc : c.cat = cat) (he : e ∈ cat.messages)
    (hreads : ReadsEvent cat e mode svcId egid port) (h : c.CanStop e.name) :
    mode = "multicast" ∨ FitsBits 16 c.sdPort := by
  subst hc
  obtain ⟨e', he', -, hname, hstop⟩ := h
  rw [List.inj_on_of_nodup_map hcat.message_names he' he hname, hreads.mode] at hstop
  exact hstop.imp_left Except.ok.inj

theorem isSubscribed_iff {name : String} : c.isSubscribed name = true ↔ name ∈ c.subs.keys :=
  Dict.get?_isSome

theorem findEvent_eq (hnames : (cat.messages.map (·.name)).Nodup) (he : e ∈ cat.messages)
    (hkind : e.isUdpEvent = true) : findEvent cat e.name = .ok e := by
  cases hfind : findEvent cat e.name with
  | ok m =>
    obtain ⟨hm, -, hname⟩ := findEvent_eq_ok hfind
    rw [List.inj_on_of_nodup_map hnames hm he hname]
  | error err =>
    unfold findEvent at hfind
    split at hfind
    · cases hfind
    · rename_i hnone
      have hno := List.find?_eq_none.1 hnone e he
      simp [hkind] at hno

theorem stopNames_spec (hcat : cat.Valid)
    (hevents : buildUdpEvents cat (.fromSignals cat.signals) = .ok events) {names : List String}
    (hnodup : names.Nodup) (hc : c.cat = cat) (hsub : ∀ name ∈ names, name ∈ c.subs.keys)
    (hevent : ∀ name ∈ names, c.CanStop name) :
    ∃ subs, (c.stopNames names).ctx = { c with subs } ∧
      (∀ name, name ∈ subs.keys ↔ name ∈ c.subs.keys ∧ name ∉ names) ∧
      ∀ p ∈ (c.stopNames names).sent, p.Nameless := by
  induction names generalizing c with
  | nil => exact ⟨c.subs, rfl, fun name => by simp, fun _ hp => nomatch hp⟩
  | cons name names ih =>
    obtain ⟨hnot, hrestNodup⟩ := List.nodup_cons.1 hnodup
    obtain ⟨e, he, hkind, rfl, hunicast⟩ := hevent name (List.mem_cons_self ..)
    have hstop : c.CanStop e.name := ⟨e, he, hkind, rfl, hunicast⟩
    rw [hc] at he
    obtain ⟨mode, svcId, egid, port, hreads, -, -⟩ := exists_readsEvent hcat hevents he hkind 0
    obtain ⟨sent, htoggle, hsent⟩ := toggleSub_stop hc hreads (hstop.sdPort hcat hc he hreads)
      (isSubscribed_iff.2 (hsub _ (List.mem_cons_self ..)))
    have hrest : ∀ name ∈ names, name ∈ (c.subs.erase e.name).keys := fun name hname =>
      Dict.mem_keys_erase.2 ⟨hsub name (List.mem_cons_of_mem _ hname), fun h => hnot (h ▸ hname)⟩
    obtain ⟨subs, hctx, hkeys, hall⟩ := @ih { c with subs := c.subs.erase e.name } hrestNodup hc hrest
      fun name hname => hevent name (List.mem_cons_of_mem _ hname)
    have hfind : findEvent c.cat e.name = .ok e := hc ▸ findEvent_eq hcat.message_names he hkind
    simp only [stopNames, hfind, htoggle]
    refine ⟨subs, hctx, fun name => ?_, fun p hp => ?_⟩
    · rw [hkeys, Dict.mem_keys_erase, List.mem_cons, not_or, and_assoc]
    · rcases List.mem_append.1 hp with hp | hp
      · exact hsent p hp
      · exact hall p hp

end ClientContext

end Catalog

end AutoEth
