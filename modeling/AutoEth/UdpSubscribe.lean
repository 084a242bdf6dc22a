import AutoEth.E2e
import AutoEth.Subscription

/-!
# The event client

`_udp_subscribe` of the command line client: the setup, which may send a subscribe, and the loop that
waits for `count` notifications. Its sockets are not modelled; the loop takes the datagrams that arrive,
and waits when they are used up. Unlike the loop of `EventSubscription`, it has no handler, so that an
exception ends it.
-/

namespace AutoEth

/-- What a receiving loop compares the datagrams with, and decodes them by. -/
structure EventReceiver where
  event : MessageDef
  svcId : Int
  eventId : Int
  sigs : List SignalDef

/-- The arguments of `_udp_subscribe` that it reads, less the count. -/
structure UdpSubscribe where
  cat : Catalog
  event : MessageDef
  sigIndex : SignalIndex
  bindIp : String
  sdGroup : Option String
  sdPort : Option Int

namespace UdpSubscribe

def clientIp (a : UdpSubscribe) : String := if a.bindIp ≠ "0.0.0.0" then a.bindIp else "127.0.0.1"

def call (a : UdpSubscribe) (svcId egid port : Int) : SubscribeCall where
  clientIp := a.clientIp
  clientUdpPort := port
  svcId := svcId
  instId := ((a.cat.serviceById svcId).map (·.instanceId)).getD 0
  major := ((a.cat.serviceById svcId).map (·.majorVersion)).getD 1
  eventgroupId := egid
  counter := 0

/-- `if mode != "multicast" and sd_group and sd_port`. -/
def subscribe (a : UdpSubscribe) (mode : String) (svcId egid port : Int) : Except PyErr (List Packet) :=
  let group := a.sdGroup.getD ""
  let sdPort := a.sdPort.getD 0
  if mode ≠ "multicast" ∧ group ≠ "" ∧ sdPort ≠ 0 then do
    let data ← (a.call svcId egid port).request
    return [⟨(group, sdPort), data⟩]
  else .ok []

/-- Up to the loop: the packets that were sent, and what the loop reads. -/
def start (a : UdpSubscribe) : Except PyErr (List Packet × EventReceiver) := do
  let port ← portOf a.event.udp
  let mode ← modeOf a.event.udp
  let group := (← a.event.udp.orEmpty.getD "mcast_group" (.str "")).toStr
  raiseIf (port = 0) (.systemExit s!"{a.event.name}: missing udp.port")
  let (svcId, _, eventId) ← resolveSomeip a.cat a.event
  let egid ← resolveEventgroupId a.event
  let sent ← a.subscribe mode svcId egid port
  let sigs ← a.sigIndex.subset a.event.signals
  raiseIf (mode = "multicast" ∧ group = "")
    (.systemExit s!"{a.event.name}: multicast requires udp.mcast_group")
  return (sent, { event := a.event, svcId, eventId, sigs })

end UdpSubscribe

/-! ### The loop -/

/-- A datagram as it was received, and the values that were delivered from it. -/
abbrev Delivery := Bytes × Dict String ℚ

def udpRecvSize : Nat := 2048

/-- `recvfrom(2048)` drops the rest of a longer datagram. -/
def recvUdp (data : Bytes) : Bytes := data.take udpRecvSize

namespace EventReceiver

/-- The header is that of a notification of the event. -/
def Matches (r : EventReceiver) (hdr : SomeIpHeader) : Prop :=
  hdr.serviceId = r.svcId ∧ hdr.methodId = r.eventId ∧ hdr.msgType = mtNotification

instance (r : EventReceiver) (hdr : SomeIpHeader) : Decidable (r.Matches hdr) := by
  unfold Matches; infer_instance

/-- The values in the payload of a datagram that passed the filter. -/
def values (r : EventReceiver) (payload : Bytes) : Except PyErr (Dict String ℚ) := do
  let core ← if (← e2eEnabled r.event) then Prod.fst <$> unwrap payload else .ok payload
  decode r.sigs core

/-- One turn of the loop of the client; `none` where it drops the datagram. -/
def deliver (r : EventReceiver) (data : Bytes) : Except PyErr (Option (Dict String ℚ)) := do
  let (hdr, payload) ← parseMessage data
  if hdr.serviceId ≠ r.svcId ∨ hdr.methodId ≠ r.eventId ∨ hdr.msgType ≠ mtNotification then return none
  else return some (← r.values payload)

section
variable {r : EventReceiver} {data payload : Bytes} {hdr : SomeIpHeader}

theorem not_matches_iff :
    ¬ r.Matches hdr ↔ hdr.serviceId ≠ r.svcId ∨ hdr.methodId ≠ r.eventId ∨ hdr.msgType ≠ mtNotification := by
  unfold Matches
  tauto

theorem deliver_of_error {e : PyErr} (h : parseMessage data = .error e) : r.deliver data = .error e := by
  rw [deliver, h]
  rfl

theorem deliver_of_not_matches (h : parseMessage data = .ok (hdr, payload)) (hno : ¬ r.Matches hdr) :
    r.deliver data = .ok none := by
  rw [deliver, h]
  exact if_pos (not_matches_iff.1 hno)

theorem deliver_of_matches (h : parseMessage data = .ok (hdr, payload)) (hmatches : r.Matches hdr) :
    r.deliver data = (r.values payload).map some := by
  rw [deliver, h, Except.ok_bind]
  exact if_neg fun hno => not_matches_iff.2 hno hmatches

end

/-- `while got < count`: the deliveries, and the exception that ended the loop. -/
def loop (r : EventReceiver) (count : Int) : Int → List Bytes → List Delivery × Option PyErr
  | _, [] => ([], none)
  | got, d :: ds =>
    if got < count then
      match r.deliver (recvUdp d) with
      | .error e => ([], some e)
      | .ok none => loop r count got ds
      | .ok (some vals) =>
        ((recvUdp d, vals) :: (loop r count (got + 1) ds).1, (loop r count (got + 1) ds).2)
    else ([], none)

/-- `_udp_subscribe(count)` on the datagrams that come in. -/
def run (r : EventReceiver) (count : Int) (ds : List Bytes) : List Delivery × Option PyErr := r.loop count 0 ds

end EventReceiver

end AutoEth
