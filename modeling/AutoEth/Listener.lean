import AutoEth.Routes
import AutoEth.SdRoundTrip
import AutoEth.Lib.Run
import Mathlib.Data.Finset.Insert
import Mathlib.Data.Finset.Erase

/-!
# The SD listener

`SubscriberRegistry` keeps a set of endpoints for each pair of service and eventgroup, and `SdListener`
fills it from the eventgroup entries of the datagrams that it receives. A state of the listener holds
the registry, the session counter and the packets sent so far, all of which are acks.

What one entry does is said once: `mem_handleSubscribe` for the registry, `sent_handleSubscribe` for the
packets. A run over datagrams is a run over their entries (`run_eq`), since what is parsed does not
depend on the state.
-/

namespace AutoEth

abbrev Endpoint := String × Int

/-! ### The registry -/

structure SubscriberRegistry where
  subs : Dict (Int × Int) (Finset Endpoint)

namespace SubscriberRegistry

def empty : SubscriberRegistry := ⟨∅⟩

def subscribe (r : SubscriberRegistry) (svcId egid : Int) (ip : String) (port : Int) :
    SubscriberRegistry :=
  ⟨r.subs.set (svcId, egid) (insert (ip, port) (r.subs.getD (svcId, egid) ∅))⟩

def unsubscribe (r : SubscriberRegistry) (svcId egid : Int) (ip : String) (port : Int) :
    SubscriberRegistry :=
  match r.subs.get? (svcId, egid) with
  | none => r
  | some subs => ⟨r.subs.set (svcId, egid) (subs.erase (ip, port))⟩

def getSubscribers (r : SubscriberRegistry) (svcId egid : Int) : Finset Endpoint :=
  r.subs.getD (svcId, egid) ∅

variable {r : SubscriberRegistry} {svcId egid svcId' egid' port : Int} {ip : String} {ep : Endpoint}

theorem mem_getSubscribers_subscribe :
    ep ∈ (r.subscribe svcId egid ip port).getSubscribers svcId' egid' ↔
      ((svcId', egid') = (svcId, egid) ∧ ep = (ip, port)) ∨ ep ∈ r.getSubscribers svcId' egid' := by
  unfold subscribe getSubscribers Dict.getD
  rw [Dict.get?_set]
  split_ifs with hkey
  · rw [hkey, Option.getD_some, Finset.mem_insert]
    simp
  · simp [hkey]

theorem mem_getSubscribers_unsubscribe :
    ep ∈ (r.unsubscribe svcId egid ip port).getSubscribers svcId' egid' ↔
      ¬ ((svcId', egid') = (svcId, egid) ∧ ep = (ip, port)) ∧ ep ∈ r.getSubscribers svcId' egid' := by
  unfold unsubscribe getSubscribers Dict.getD
  cases hsubs : r.subs.get? (svcId, egid) with
  | none =>
    by_cases hkey : (svcId', egid') = (svcId, egid)
    · rw [hkey, hsubs]
      simp
    · simp [hkey]
  | some subs =>
    dsimp only
    rw [Dict.get?_set]
    split_ifs with hkey
    · rw [hkey, hsubs, Option.getD_some, Option.getD_some, Finset.mem_erase]
      simp
    · simp [hkey]

end SubscriberRegistry

/-! ### Entries -/

/-- The endpoint that the search of the listener stops at. -/
def SdOption.udpEndpoint? : SdOption → Option Endpoint
  | .ipv4Endpoint address port l4Proto => if l4Proto = l4Udp then some (address, port) else none
  | .ipv4Multicast _ _ => none

namespace EventgroupEntry

/-- `key`. -/
def key (entry : EventgroupEntry) : Int × Int := (entry.serviceId, entry.eventgroupId)

/-- `sub_ip, sub_port`: the first UDP endpoint of the entry, else its source with port 0. -/
def subscriber (entry : EventgroupEntry) (addr : Endpoint) : Endpoint :=
  (entry.options.findSome? SdOption.udpEndpoint?).getD (addr.1, 0)

/-- The entry names the UDP endpoint. -/
def Names (entry : EventgroupEntry) (ep : Endpoint) : Prop :=
  .ipv4Endpoint ep.1 ep.2 l4Udp ∈ entry.options

end EventgroupEntry

def defaultSdFlags : Int := sdFlagReboot + sdFlagUnicast

def ackEntry (entry : EventgroupEntry) : EventgroupEntry where
  entryType := etSubscribeEventgroupAck
  serviceId := entry.serviceId
  instanceId := entry.instanceId
  majorVersion := entry.majorVersion
  eventgroupId := entry.eventgroupId
  counter := entry.counter
  ttl := entry.ttl
  initialDataReq := false
  options := []

theorem exists_buildSdMessage_nameless (seq flags : Int) {entry : EventgroupEntry}
    (h : entry.options = []) : ∃ data, buildSdMessage seq [.eventgroup entry] flags = .ok data := by
  have hflat : [SdEntry.eventgroup entry].flatMap SdEntry.options = [] := by
    rw [List.flatMap_singleton]
    exact h
  refine exists_buildSdMessage (fun o ho => ?_) ?_
  · rw [hflat] at ho
    cases ho
  · rw [hflat]
    exact show 20 + 16 * 1 + 12 * 0 < 2 ^ 32 by decide

theorem buildSdMessage_ack_isOk (seq : Int) (entry : EventgroupEntry) :
    (buildSdMessage seq [.eventgroup (ackEntry entry)] defaultSdFlags).isOk = true := by
  obtain ⟨data, hdata⟩ := @exists_buildSdMessage_nameless seq defaultSdFlags (ackEntry entry) rfl
  rw [hdata]
  rfl

def ackMessage (seq : Int) (entry : EventgroupEntry) : Bytes :=
  (buildSdMessage seq [.eventgroup (ackEntry entry)] defaultSdFlags).get
    (buildSdMessage_ack_isOk seq entry)

theorem parseSdMessage_isOk (data : Bytes) : (parseSdMessage data).isOk = true := by
  obtain ⟨msg, hmsg⟩ := exists_parseSdMessage data
  rw [hmsg]
  rfl

/-- The entries of a datagram, none where it does not parse. -/
def sdEntries (data : Bytes) : List SdEntry :=
  match (parseSdMessage data).get (parseSdMessage_isOk data) with
  | none => []
  | some msg => msg.entries

theorem sdEntries_eq {data : Bytes} {msg : SdMessage} (h : parseSdMessage data = .ok (some msg)) :
    sdEntries data = msg.entries := by
  have hget : (parseSdMessage data).get (parseSdMessage_isOk data) = some msg :=
    Except.ok.inj ((Except.eq_ok_get _).symm.trans h)
  rw [sdEntries, hget]

theorem buildSdMessage_ackMessage (seq : Int) (entry : EventgroupEntry) :
    buildSdMessage seq [.eventgroup (ackEntry entry)] defaultSdFlags = .ok (ackMessage seq entry) :=
  Except.eq_ok_get _

attribute [irreducible] ackMessage

/-! ### The listener -/

structure Packet where
  dst : Endpoint
  data : Bytes
deriving DecidableEq

/-- A datagram as `recvfrom` hands it over. -/
structure Datagram where
  data : Bytes
  addr : Endpoint

def sdRecvSize : Nat := 4096

/-- `recvfrom(4096)` drops the rest of a longer datagram. -/
def recvSd (data : Bytes) : Bytes := data.take sdRecvSize

structure SdListener where
  sdPort : Int
  egidMap : Dict (Int × Int) EventRoute

namespace SdListener

def ofEvents (sdPort : Int) (udpEvents : UdpEvents) : SdListener where
  sdPort := sdPort
  egidMap := .ofList (udpEvents.values.map fun r => ((r.svcId, r.eventgroupId), r))

structure State where
  registry : SubscriberRegistry
  seq : Int
  sent : List Packet

def State.init : State := ⟨.empty, 0, []⟩

def handleSubscribe (l : SdListener) (s : State) (entry : EventgroupEntry) (addr : Endpoint) : State :=
  match l.egidMap.get? entry.key with
  | none => s
  | some _ =>
    let sub := entry.subscriber addr
    if entry.ttl = ttlStop then
      if sub.2 ≠ 0 then
        { s with registry := s.registry.unsubscribe entry.serviceId entry.eventgroupId sub.1 sub.2 }
      else s
    else
      let registry :=
        if sub.2 ≠ 0 then s.registry.subscribe entry.serviceId entry.eventgroupId sub.1 sub.2
        else s.registry
      let seq := (s.seq + 1) % 2 ^ 16
      { registry, seq, sent := s.sent ++ [⟨(addr.1, l.sdPort), ackMessage seq entry⟩] }

/-- One turn of the loop over `msg.entries`. -/
def handleEntry (l : SdListener) (s : State) (e : SdEntry × Endpoint) : State :=
  match e.1 with
  | .eventgroup entry => l.handleSubscribe s entry e.2
  | .service _ => s

/-- The entries that a datagram brings, with its source. -/
def received (d : Datagram) : List (SdEntry × Endpoint) :=
  (sdEntries (recvSd d.data)).map fun e => (e, d.addr)

/-- One turn of the loop of `run`. -/
def receive (l : SdListener) (s : State) (d : Datagram) : State := (received d).foldl l.handleEntry s

def run (l : SdListener) (s : State) (ds : List Datagram) : State := ds.foldl l.receive s

theorem run_eq (l : SdListener) (s : State) (ds : List Datagram) :
    l.run s ds = (ds.flatMap received).foldl l.handleEntry s := by
  rw [run, List.foldl_flatMap]
  rfl

/-- The listener serves the eventgroup. -/
def Serves (l : SdListener) (key : Int × Int) : Prop := key ∈ l.egidMap.keys

instance (l : SdListener) (key : Int × Int) : Decidable (l.Serves key) :=
  decidable_of_iff ((l.egidMap.get? key).isSome = true) Dict.get?_isSome

theorem serves_ofEvents {sdPort : Int} {udpEvents : UdpEvents} {name : String} {r : EventRoute}
    (h : udpEvents.get? name = some r) : (ofEvents sdPort udpEvents).Serves (r.svcId, r.eventgroupId) := by
  refine Dict.mem_keys_ofList.2 ?_
  rw [List.map_map]
  exact List.mem_map.2 ⟨r, Dict.mem_values_of_get? h, rfl⟩

/-- The entry adds the endpoint to the eventgroup or takes it out, by its ttl. -/
def Concerns (l : SdListener) (entry : EventgroupEntry) (addr : Endpoint) (svcId egid : Int)
    (ep : Endpoint) : Prop :=
  l.Serves entry.key ∧ (svcId, egid) = entry.key ∧ ep = entry.subscriber addr ∧ ep.2 ≠ 0

instance (l : SdListener) (entry : EventgroupEntry) (addr : Endpoint) (svcId egid : Int) (ep : Endpoint) :
    Decidable (l.Concerns entry addr svcId egid ep) := by
  unfold Concerns; infer_instance

variable {l : SdListener} {s : State} {entry : EventgroupEntry} {addr ep : Endpoint} {svcId egid : Int}

theorem handleSubscribe_of_not_serves (h : ¬ l.Serves entry.key) : l.handleSubscribe s entry addr = s := by
  rw [handleSubscribe, Dict.get?_eq_none.2 h]

theorem mem_handleSubscribe :
    ep ∈ (l.handleSubscribe s entry addr).registry.getSubscribers svcId egid ↔
      if l.Concerns entry addr svcId egid ep then entry.ttl ≠ ttlStop
      else ep ∈ s.registry.getSubscribers svcId egid := by
  by_cases hserves : l.Serves entry.key
  · obtain ⟨r, hr⟩ := Option.isSome_iff_exists.1 (Dict.get?_isSome.2 hserves)
    simp only [handleSubscribe, hr, Concerns, hserves, true_and]
    by_cases hport : (entry.subscriber addr).2 = 0
    · have hno : ¬ ((svcId, egid) = entry.key ∧ ep = entry.subscriber addr ∧ ep.2 ≠ 0) := by
        rintro ⟨-, rfl, hne⟩
        exact hne hport
      simp only [hport, ne_eq, not_true_eq_false, if_false, if_neg hno]
      split_ifs <;> exact Iff.rfl
    · have hiff : ((svcId, egid) = entry.key ∧ ep = entry.subscriber addr ∧ ep.2 ≠ 0) ↔
          (svcId, egid) = (entry.serviceId, entry.eventgroupId) ∧
            ep = ((entry.subscriber addr).1, (entry.subscriber addr).2) := by
        refine and_congr_right fun _ => and_iff_left_of_imp ?_
        rintro rfl
        exact hport
      simp only [ne_eq, hport, not_false_eq_true, if_true, hiff]
      split_ifs with hstop hep hep
      · rw [SubscriberRegistry.mem_getSubscribers_unsubscribe]
        exact iff_of_false (fun h => h.1 hep) (not_not.2 hstop)
      · rw [SubscriberRegistry.mem_getSubscribers_unsubscribe]
        exact and_iff_right hep
      · rw [SubscriberRegistry.mem_getSubscribers_subscribe]
        exact iff_of_true (.inl hep) hstop
      · rw [SubscriberRegistry.mem_getSubscribers_subscribe]
        exact or_iff_right hep
  · have hno : ¬ l.Concerns entry addr svcId egid ep := fun h => hserves h.1
    rw [handleSubscribe_of_not_serves hserves, if_neg hno]

/-- An ack answers every entry with a ttl for a served eventgroup, and nothing else is sent. -/
theorem sent_handleSubscribe :
    (l.handleSubscribe s entry addr).sent = s.sent ++
      if l.Serves entry.key ∧ entry.ttl ≠ ttlStop then
        [⟨(addr.1, l.sdPort), ackMessage ((s.seq + 1) % 2 ^ 16) entry⟩]
      else [] := by
  by_cases hserves : l.Serves entry.key
  · obtain ⟨r, hr⟩ := Option.isSome_iff_exists.1 (Dict.get?_isSome.2 hserves)
    simp only [handleSubscribe, hr, hserves, true_and]
    split_ifs <;> simp_all
  · rw [handleSubscribe_of_not_serves hserves, if_neg fun h => hserves h.1, List.append_nil]

theorem receive_single {data : Bytes} (h : sdEntries (recvSd data) = [.eventgroup entry]) :
    l.receive s ⟨data, addr⟩ = l.handleSubscribe s entry addr := by
  rw [receive, received, h]
  rfl

/-- Entries that name no endpoint leave the registry as it is. -/
theorem getSubscribers_receive_nameless {d : Datagram}
    (h : ∀ e ∈ sdEntries (recvSd d.data), e.options = []) :
    (l.receive s d).registry.getSubscribers = s.registry.getSubscribers := by
  refine Run.foldl_inv (I := fun s' : State => s'.registry.getSubscribers = s.registry.getSubscribers)
    (fun t ht hpre => ?_) rfl
  obtain ⟨e, he, hinput⟩ := List.mem_map.1 (Run.input_mem ht)
  rw [Run.post_eq ht, ← hpre, ← hinput]
  cases e with
  | service e => rfl
  | eventgroup entry =>
    have hopts : entry.options = [] := h _ he
    funext svcId egid
    refine Finset.ext fun ep => ?_
    rw [handleEntry, mem_handleSubscribe, if_neg]
    rintro ⟨-, -, rfl, hne⟩
    exact hne (by rw [EventgroupEntry.subscriber, hopts]; rfl)

theorem getSubscribers_foldl_receive_nameless {ds : List Datagram}
    (h : ∀ d ∈ ds, ∀ e ∈ sdEntries (recvSd d.data), e.options = []) :
    (ds.foldl l.receive s).registry.getSubscribers = s.registry.getSubscribers := by
  refine Run.foldl_inv (I := fun s' : State => s'.registry.getSubscribers = s.registry.getSubscribers)
    (fun t ht hpre => ?_) rfl
  rw [Run.post_eq ht, getSubscribers_receive_nameless (h _ (Run.input_mem ht)), hpre]

end SdListener

/-! ### An example -/

/-- The listener of the example catalog. -/
def exampleListener : SdListener := .ofEvents 30490 exampleEvents

theorem exampleListener_serves : exampleListener.Serves (0x1002, 1) := by decide +kernel

/-- A subscribe for the event of the example catalog. -/
def exampleSubscribe : EventgroupEntry where
  entryType := etSubscribeEventgroup
  serviceId := 0x1002
  instanceId := 1
  majorVersion := 1
  eventgroupId := 1
  counter := 0
  ttl := ttlDefault
  initialDataReq := false
  options := [.ipv4Endpoint "127.0.0.1" 30512 l4Udp]

def exampleDatagram : Datagram where
  data := (buildSdMessage 1 [.eventgroup exampleSubscribe] sdFlagUnicast).get (by decide +kernel)
  addr := ("127.0.0.1", 40000)

end AutoEth
