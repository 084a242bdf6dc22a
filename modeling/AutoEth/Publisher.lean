import AutoEth.Handler

/-!
# Event publishers

`UdpEventPublisher` and `UdpEventPublisherWithDb` are one loop over two stores: a tick takes a snapshot
of the event's signals, counts the sequence number up modulo 2 ^ 16 and builds a datagram, whose session
id and E2E counter are that number. `publish` is the run over the states that the ticks find;
`publish_eq` lists its datagrams. Where a datagram is sent to is not modelled.
-/

namespace AutoEth

/-! ### One tick -/

/-- What `UdpEventPublisher` takes of the state. -/
def stateSnapshot (state : Dict String ℚ) (sigs : List SignalDef) : Dict String ℚ :=
  Dict.ofList (sigs.map fun s => (s.name, state.getD s.name s.default))

/-- What `UdpEventPublisherWithDb` takes of the database. -/
def dbSnapshot (db : SignalDatabase) (sigs : List SignalDef) : Dict String ℚ :=
  db.getSubset (sigs.map (·.name))

/-- `(seq + 1) & 0xFFFF`. -/
def nextSeq (seq : Int) : Int := (seq + 1) % 2 ^ 16

def notificationArgs (route : EventRoute) (seq : Int) (e2e : Bool) (enc : Bytes) : MessageArgs where
  serviceId := route.svcId
  methodId := route.eventId
  clientId := 0x0000
  sessionId := seq
  ifaceVer := route.ifaceVer
  msgType := mtNotification
  payload := if e2e then wrap enc seq else enc
  returnCode := rcOk

def eventDatagram (route : EventRoute) (seq : Int) (vals : Dict String ℚ) : Except PyErr Bytes := do
  let enc ← encode route.sigs vals
  let e2e ← e2eEnabled route.msg
  return buildMessage (notificationArgs route seq e2e enc)

/-! ### Runs -/

/-- The datagrams of a publisher, for the states that its ticks find. -/
def publish {σ : Type} (snapshot : σ → List SignalDef → Dict String ℚ) (route : EventRoute) :
    Int → List σ → Except PyErr (List Bytes)
  | _, [] => .ok []
  | seq, state :: states => do
    let vals := snapshot state route.sigs
    let seq := nextSeq seq
    let datagram ← eventDatagram route seq vals
    return datagram :: (← publish snapshot route seq states)

/-- `UdpEventPublisher.run`. -/
def udpEventPublisher (route : EventRoute) (states : List (Dict String ℚ)) : Except PyErr (List Bytes) :=
  publish stateSnapshot route 0 states

/-- `UdpEventPublisherWithDb.run`. -/
def udpEventPublisherWithDb (route : EventRoute) (dbs : List SignalDatabase) : Except PyErr (List Bytes) :=
  publish dbSnapshot route 0 dbs

/-! ### What is published -/

/-- What a publisher needs of its route. -/
structure EventRoute.Ok (route : EventRoute) : Prop where
  sigs_valid : ∀ s ∈ route.sigs, s.Valid
  oneEach : OneEach route.sigs
  e2eEnabled_ok : ∃ b, e2eEnabled route.msg = .ok b

theorem isUdpEvent_of_mem {cat : Catalog} {events : UdpEvents} (hcat : cat.Valid)
    (hevents : buildUdpEvents cat (.fromSignals cat.signals) = .ok events) {route : EventRoute}
    (hroute : route ∈ events.values) :
    route.msg ∈ cat.messages ∧ route.msg.isUdpEvent = true ∧
      IsUdpEvent cat (.fromSignals cat.signals) route.msg (route.msg.name, route) := by
  obtain ⟨⟨name, r⟩, hr, rfl⟩ := List.mem_map.1 hroute
  obtain ⟨m, hm, hevent⟩ := List.Forall₂.exists_left (buildUdpEvents_entries hcat hevents) hr
  obtain ⟨hmem, hkind⟩ := List.mem_filter.1 hm
  obtain rfl : r.msg = m := hevent.msg
  obtain rfl : name = r.msg.name := hevent.name
  exact ⟨hmem, hkind, hevent⟩

theorem EventRoute.Ok.of_buildUdpEvents {cat : Catalog} {events : UdpEvents} (hcat : cat.Valid)
    (hevents : buildUdpEvents cat (.fromSignals cat.signals) = .ok events) {route : EventRoute}
    (hroute : route ∈ events.values) : route.Ok := by
  obtain ⟨hmem, -, hevent⟩ := isUdpEvent_of_mem hcat hevents hroute
  exact ⟨hcat.subset_valid hevent.sigs, SignalIndex.subset_oneEach hevent.sigs,
    hcat.e2eEnabled_ok hmem⟩

section
variable {route : EventRoute} {e2e : Bool}

theorem EventRoute.Ok.eventDatagram_eq (hok : route.Ok) (he : e2eEnabled route.msg = .ok e2e) (seq : Int)
    (vals : Dict String ℚ) : eventDatagram route seq vals =
      .ok (buildMessage (notificationArgs route seq e2e (encodedBytes route.sigs vals))) := by
  simp only [eventDatagram, encode_eq hok.sigs_valid, he, Except.ok_bind]
  rfl

/-- The datagrams are built from the snapshots, with consecutive sequence numbers. -/
theorem EventRoute.Ok.publish_eq {σ : Type} (hok : route.Ok) (he : e2eEnabled route.msg = .ok e2e)
    (snapshot : σ → List SignalDef → Dict String ℚ) (seq : Int) (states : List σ) :
    publish snapshot route seq states =
      .ok ((states.map fun state => snapshot state route.sigs).mapIdx fun n vals =>
        buildMessage (notificationArgs route ((seq + (n + 1 : Nat)) % 2 ^ 16) e2e
          (encodedBytes route.sigs vals))) := by
  induction states generalizing seq with
  | nil => rfl
  | cons state states ih =>
    have hseq (n : Nat) : (nextSeq seq + (n + 1 : Nat)) % 2 ^ 16 = (seq + (n + 1 + 1 : Nat)) % 2 ^ 16 := by
      unfold nextSeq
      omega
    rw [publish, hok.eventDatagram_eq he, Except.ok_bind, ih, Except.ok_bind, List.map_cons,
      List.mapIdx_cons]
    simp only [hseq]
    rfl

theorem length_notificationArgs (seq : Int) (enc : Bytes) :
    (notificationArgs route seq e2e enc).payload.length = enc.length + if e2e then 4 else 0 := by
  cases e2e with
  | true => exact length_wrap enc seq
  | false => rfl

end

theorem getD_stateSnapshot {sigs : List SignalDef} (hone : OneEach sigs) (state : Dict String ℚ)
    {s : SignalDef} (hs : s ∈ sigs) :
    (stateSnapshot state sigs).getD s.name s.default = state.getD s.name s.default := by
  have hget : (stateSnapshot state sigs).get? s.name = some (state.getD s.name s.default) := by
    refine Dict.get?_ofList_map hs fun t ht hname => ?_
    rw [hone t ht s hs hname]
  rw [Dict.getD, hget, Option.getD_some]

end AutoEth
