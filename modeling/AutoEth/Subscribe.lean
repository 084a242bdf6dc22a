import AutoEth.Listener

/-!
# Subscribing to an eventgroup

`_subscribe_eventgroup` sends one subscribe entry, which names the client's UDP endpoint, and waits for
an ack with the ids that it asked for. What the node finds in the request is said by
`sdEntries_request`, which acks end the waiting by `acceptsAck_ackMessage`.
-/

namespace AutoEth

/-- The arguments of a call of `_subscribe_eventgroup` that reach the wire. -/
structure SubscribeCall where
  clientIp : String
  clientUdpPort : Int
  svcId : Int
  instId : Int
  major : Int
  eventgroupId : Int
  counter : Int

namespace SubscribeCall

def entry (c : SubscribeCall) : EventgroupEntry where
  entryType := etSubscribeEventgroup
  serviceId := c.svcId
  instanceId := c.instId
  majorVersion := c.major
  eventgroupId := c.eventgroupId
  counter := c.counter
  ttl := ttlDefault
  initialDataReq := false
  options := [.ipv4Endpoint c.clientIp c.clientUdpPort l4Udp]

def request (c : SubscribeCall) : Except PyErr Bytes := buildSdMessage 1 [.eventgroup c.entry] sdFlagUnicast

/-- The test of the waiting loop, on a datagram as it was sent. -/
def acceptsAck (c : SubscribeCall) (data : Bytes) : Bool :=
  (sdEntries (recvSd data)).any fun
    | .eventgroup e => e.entryType = etSubscribeEventgroupAck && e.serviceId = c.svcId &&
        e.eventgroupId = c.eventgroupId
    | .service _ => false

end SubscribeCall

theorem sdEntries_recvSd_build {sessionId flags : Int} {entry : EventgroupEntry} {data : Bytes}
    (h : buildSdMessage sessionId [.eventgroup entry] flags = .ok data)
    (htype : (SdEntry.eventgroup entry).TypeOk) (hopts : entry.options.length ≤ 1) :
    sdEntries (recvSd data) = [(SdEntry.eventgroup entry).onWire entry.options 0] := by
  have hlen := length_buildSdMessage h
  have hflat : [SdEntry.eventgroup entry].flatMap SdEntry.options = entry.options := by
    rw [List.flatMap_singleton]
    rfl
  have hrecv : recvSd data = data := by
    refine List.take_of_length_le ?_
    rw [hlen, hflat, List.length_singleton]
    unfold sdRecvSize
    omega
  have hall : ∀ e ∈ [SdEntry.eventgroup entry], e.TypeOk := by
    intro e he
    rwa [List.mem_singleton.1 he]
  rw [hrecv, sdEntries_eq (parseSdMessage_build h hall), hflat]
  rfl

namespace SubscribeCall

def key (c : SubscribeCall) : Int × Int := (c.svcId, c.eventgroupId)

def endpoint (c : SubscribeCall) : Endpoint := (c.clientIp, c.clientUdpPort)

/-- The ids on the wire. -/
def wireKey (c : SubscribeCall) : Int × Int := (c.svcId % 2 ^ 16, c.eventgroupId % 2 ^ 16)

/-- The endpoint on the wire. -/
def wireEndpoint (c : SubscribeCall) : Endpoint := (canonicalIp c.clientIp, c.clientUdpPort % 2 ^ 16)

/-- `inet_aton` reads the address of the client. -/
def Sendable (c : SubscribeCall) : Prop := (Inet.aton c.clientIp).isSome

theorem emod_key {c : SubscribeCall} {entry : EventgroupEntry} (h : entry.key = c.wireKey) :
    (entry.serviceId % 2 ^ 16, entry.eventgroupId % 2 ^ 16) = c.wireKey := by
  obtain ⟨hsvc, hegid⟩ := Prod.mk.inj h
  rw [hsvc, hegid, Int.emod_emod_of_dvd _ (dvd_refl _), Int.emod_emod_of_dvd _ (dvd_refl _), wireKey]

theorem wireKey_eq_key {c : SubscribeCall} (hsvc : FitsBits 16 c.svcId) (hegid : FitsBits 16 c.eventgroupId) :
    c.wireKey = c.key := by
  rw [wireKey, hsvc.emod_eq, hegid.emod_eq, key]

theorem sdEntries_request {c : SubscribeCall} {data : Bytes} (h : c.request = .ok data) :
    ∃ entry, sdEntries (recvSd data) = [.eventgroup entry] ∧ entry.key = c.wireKey ∧ entry.ttl = ttlDefault ∧
      ∀ addr, entry.subscriber addr = c.wireEndpoint :=
  ⟨_, sdEntries_recvSd_build h (.inl rfl) (Nat.le_refl _), rfl, rfl, fun _ => rfl⟩

/-- The request can be built exactly for a client address that `inet_aton` reads. -/
theorem exists_request_iff {c : SubscribeCall} :
    (∃ data, c.request = .ok data) ↔ c.Sendable := by
  rw [Sendable, ← exists_packOption_endpoint_iff (show FitsBits 8 l4Udp by decide)]
  constructor
  · rintro ⟨data, h⟩
    obtain ⟨bss, hbss, -⟩ := buildSdMessage_eq_ok.1 h
    cases Except.mapM_eq_ok.1 hbss with
    | cons hpack _ => exact ⟨_, hpack⟩
  · intro h
    refine exists_buildSdMessage (fun o ho => ?_) (show 20 + 16 * 1 + 12 * 1 < 2 ^ 32 by decide)
    rw [List.mem_singleton.1 ho]
    exact h

theorem mem_receive_request {c : SubscribeCall} {data : Bytes} (h : c.request = .ok data)
    {l : SdListener} {s : SdListener.State} {addr ep : Endpoint} {svcId egid : Int} :
    ep ∈ (l.receive s ⟨data, addr⟩).registry.getSubscribers svcId egid ↔
      (l.Serves (svcId, egid) ∧ (svcId, egid) = c.wireKey ∧ ep = c.wireEndpoint ∧ ep.2 ≠ 0) ∨
      ep ∈ s.registry.getSubscribers svcId egid := by
  obtain ⟨entry, hentries, hkey, httl, hsub⟩ := sdEntries_request h
  have hconcerns : l.Concerns entry addr svcId egid ep ↔ l.Serves (svcId, egid) ∧
      (svcId, egid) = c.wireKey ∧ ep = c.wireEndpoint ∧ ep.2 ≠ 0 := by
    unfold SdListener.Concerns
    rw [hkey, hsub]
    constructor
    · rintro ⟨hserves, heq, hrest⟩
      exact ⟨heq ▸ hserves, heq, hrest⟩
    · rintro ⟨hserves, heq, hrest⟩
      exact ⟨heq ▸ hserves, heq, hrest⟩
  rw [SdListener.receive_single hentries, SdListener.mem_handleSubscribe, httl, ← hconcerns]
  split_ifs with hnew
  · exact iff_of_true (by decide) (.inl hnew)
  · exact (or_iff_right hnew).symm

theorem sent_receive_request {c : SubscribeCall} {data : Bytes} (h : c.request = .ok data)
    (l : SdListener) (s : SdListener.State) (addr : Endpoint) :
    ∃ seq entry, entry.key = c.wireKey ∧ (l.receive s ⟨data, addr⟩).sent = s.sent ++
      if l.Serves c.wireKey then [⟨(addr.1, l.sdPort), ackMessage seq entry⟩] else [] := by
  obtain ⟨entry, hentries, hkey, httl, -⟩ := sdEntries_request h
  refine ⟨(s.seq + 1) % 2 ^ 16, entry, hkey, ?_⟩
  have hstart : entry.ttl ≠ ttlStop := by
    rw [httl]
    decide
  rw [SdListener.receive_single hentries, SdListener.sent_handleSubscribe, hkey]
  simp only [ne_eq, hstart, not_false_eq_true, and_true]

theorem acceptsAck_request {c c' : SubscribeCall} {data : Bytes} (h : c.request = .ok data) :
    c'.acceptsAck data = false := by
  rw [acceptsAck, sdEntries_recvSd_build h (.inl rfl) (Nat.le_refl _)]
  rfl

/-- The waiting loop accepts every ack with its ids, whoever it was for. -/
theorem acceptsAck_ackMessage {c : SubscribeCall} {seq : Int} {entry : EventgroupEntry} :
    c.acceptsAck (ackMessage seq entry) = true ↔
      (entry.serviceId % 2 ^ 16, entry.eventgroupId % 2 ^ 16) = c.key := by
  rw [acceptsAck, sdEntries_recvSd_build (buildSdMessage_ackMessage seq entry) (.inr rfl)
    (Nat.zero_le _)]
  simp [SdEntry.onWire, ackEntry, key]

end SubscribeCall

/-- An ack that comes back to the node: it has the ids of the entry that it answers, and no endpoint. -/
theorem sdEntries_recvSd_ackMessage (seq : Int) (entry : EventgroupEntry) :
    ∃ entry', sdEntries (recvSd (ackMessage seq entry)) = [.eventgroup entry'] ∧ entry'.options = [] ∧
      entry'.key = (entry.serviceId % 2 ^ 16, entry.eventgroupId % 2 ^ 16) :=
  ⟨_, sdEntries_recvSd_build (buildSdMessage_ackMessage seq entry) (.inr rfl) (Nat.zero_le _), rfl, rfl⟩

end AutoEth
