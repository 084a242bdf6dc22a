import AutoEth.Listener
import AutoEth.Publisher
import AutoEth.Transport

/-!
# The server of the text interface

`ServerContext` keeps the running publishers in a table by event name; `toggle_event` starts a thread, or
takes it out of the table and sets its stop event, and `start_all_events` and `stop_all` go through the
names. Every publisher that was ever started keeps its place in `threads`, so a place is a thread; a thread
that was stopped may still be at work. `ServerContext.Ok` says that the table lists exactly the threads that
were not stopped, each under the name of its event: every toggle keeps it (`Ok.toggleEvent`).

The node has no table, but it starts and stops the same threads, so the signal values are left general.
-/

namespace AutoEth

/-! ### A publisher -/

/-- The attributes that the constructor of a publisher sets and its loop reads, less its socket. -/
structure UdpPublisher where
  route : EventRoute
  mode : String
  group : Value
  port : Int
  ttl : Int
  iface : Value

/-- The `ttl` of the event reads as an integer, its `iface` is a string, if any, and its period is a `float`. -/
structure MessageDef.Publishable (m : MessageDef) : Prop where
  ttl : ∃ v n, m.udp.orEmpty.getD "ttl" (.int 1) = .ok v ∧ v.toInt = .ok n
  iface : ∃ v, m.udp.orEmpty.getD "iface" .null = .ok v ∧ (v.truthy = true → ∃ s, v = .str s)
  period : ∀ n, m.periodMs = some n → n.natAbs < FloatValue.bound

/-- `float(self.msg.period_ms or 1000)`. -/
def MessageDef.period (m : MessageDef) : Except PyErr FloatValue :=
  Value.toFloat (.int (if m.periodMs.getD 0 = 0 then 1000 else m.periodMs.getD 0))

theorem MessageDef.exists_period_iff {m : MessageDef} :
    (∃ x, m.period = .ok x) ↔ ∀ n, m.periodMs = some n → n.natAbs < FloatValue.bound := by
  have hdefault : Int.natAbs 1000 < FloatValue.bound := by decide +kernel
  have hfloat (n : Int) : (∃ x, Value.toFloat (.int n) = .ok x) ↔ n.natAbs < FloatValue.bound := by
    rw [Value.toFloat]
    split_ifs with h
    · simp [h]
    · simp [not_le.1 h]
  rw [period, hfloat]
  cases m.periodMs with
  | none => simpa using hdefault
  | some n =>
    rw [Option.getD_some]
    split_ifs with hzero
    · simpa [hzero] using iff_of_true hdefault (Nat.zero_lt_of_lt hdefault)
    · simp

namespace UdpPublisher

/-- `UdpEventPublisher` and `UdpEventPublisherWithDb`. -/
def create (route : EventRoute) : Except PyErr UdpPublisher := do
  let udpCfg := route.msg.udp.orEmpty
  let mode := (← udpCfg.getD "mode" (.str "unicast")).toStr
  let group ← udpCfg.getD "mcast_group" .null
  let port ← (← udpCfg.item "port").toInt
  let ttl ← (← udpCfg.getD "ttl" (.int 1)).toInt
  let iface ← udpCfg.getD "iface" .null
  makeSocket iface
  let _ ← route.msg.period
  return { route, mode, group, port, ttl, iface }

/-- The host of `mcast_dest`. -/
def mcastHost (pub : UdpPublisher) : Except PyErr String := if pub.group.truthy then hostOf pub.group else .ok ""

/-- Where the datagram of a tick is sent: to the group, or to the endpoints in the registry. -/
def dests (pub : UdpPublisher) (registry : SubscriberRegistry) : Except PyErr (Finset Endpoint) :=
  if pub.mode = "multicast" then do
    let host ← pub.mcastHost
    return {(host, pub.port)}
  else .ok (registry.getSubscribers pub.route.svcId pub.route.eventgroupId)

theorem create_ok {route : EventRoute} {pub : UdpPublisher} (h : create route = .ok pub) :
    pub.route = route ∧ modeOf route.msg.udp = .ok pub.mode := by
  simp only [create, Except.bind_eq_ok, Except.pure_eq_ok, Except.ok.injEq] at h
  obtain ⟨mode, hmode, group, -, v, -, port, -, w, -, ttl, -, iface, -, -, -, -, -, rfl⟩ := h
  exact ⟨rfl, by rw [modeOf, hmode]; rfl⟩

/-- A publisher can be made for the event of a route unless its period or the options of its socket do not read. -/
theorem exists_create_iff {route : EventRoute} {p : Int} (hport : portOf route.msg.udp = .ok p) (hpos : p ≠ 0) :
    (∃ pub, create route = .ok pub) ↔ route.msg.Publishable := by
  obtain ⟨v, hv, hp⟩ := Except.bind_eq_ok.1 hport
  obtain ⟨items, hitems, rfl⟩ := Value.getD_eq_ok.1 hv
  have hget (key : String) (dflt : Value) :
      route.msg.udp.orEmpty.getD key dflt = .ok ((items.lookup key).getD dflt) :=
    Value.getD_eq_ok.2 ⟨items, hitems, rfl⟩
  have hitem : (route.msg.udp.orEmpty.item "port").bind Value.toInt = .ok p := by
    rw [hitems, Value.item]
    cases hlookup : items.lookup "port" with
    | some w =>
      rw [hlookup] at hp
      exact hp
    | none =>
      rw [hlookup] at hp
      cases hp
      exact absurd rfl hpos
  obtain ⟨w, hw, hwp⟩ := Except.bind_eq_ok.1 hitem
  simp only [create, hget, hw, hwp, Except.ok_bind, Except.bind_eq_ok, Except.pure_eq_ok, Except.ok.injEq,
    makeSocket_eq_ok]
  constructor
  · rintro ⟨pub, ttl, httl, _, hiface, x, hperiod, rfl⟩
    exact ⟨⟨_, ttl, hget .., httl⟩, ⟨_, hget .., hiface⟩, MessageDef.exists_period_iff.1 ⟨x, hperiod⟩⟩
  · rintro ⟨⟨_, ttl, hv, httl⟩, ⟨_, hv', hiface⟩, hperiod⟩
    cases (hget ..).symm.trans hv
    cases (hget ..).symm.trans hv'
    obtain ⟨x, hx⟩ := MessageDef.exists_period_iff.2 hperiod
    exact ⟨_, ttl, httl, (), hiface, x, hx, rfl⟩

theorem dests_unicast {pub : UdpPublisher} (h : pub.mode ≠ "multicast") (registry : SubscriberRegistry) :
    pub.dests registry = .ok (registry.getSubscribers pub.route.svcId pub.route.eventgroupId) :=
  if_neg h

end UdpPublisher

/-- A publisher that was started, with its stop event. -/
structure Publishing where
  pub : UdpPublisher
  stop : Bool

/-- A publisher for an event of the catalog. -/
structure Publishing.Ok (events : UdpEvents) (p : Publishing) : Prop where
  route : events.get? p.pub.route.msg.name = some p.pub.route
  create : UdpPublisher.create p.pub.route = .ok p.pub

/-! ### The context -/

structure ServerContext (σ : Type) where
  database : σ
  listener : SdListener.State
  stopEvt : Bool
  threads : List Publishing
  publishers : Dict String Nat

namespace ServerContext

variable {σ : Type}

def init (database : σ) : ServerContext σ := ⟨database, .init, false, [], ∅⟩

def isPublishing (c : ServerContext σ) (name : String) : Bool := c.publishers.contains name

/-- `pub, stop = self._publishers.pop(name)`, `stop.set()`, where `i` is the thread. -/
def stopPublisher (c : ServerContext σ) (name : String) (i : Nat) : ServerContext σ :=
  { c with
    publishers := c.publishers.erase name
    threads := c.threads.modify i fun p => { p with stop := true } }

/-- `pub.start()`, `self._publishers[name] = (pub, pub_stop)`. -/
def startPublisher (c : ServerContext σ) (name : String) (pub : UdpPublisher) : ServerContext σ :=
  { c with
    publishers := c.publishers.set name c.threads.length
    threads := c.threads ++ [⟨pub, false⟩] }

def toggleEvent (events : UdpEvents) (c : ServerContext σ) (name : String) :
    Except PyErr (ServerContext σ × Bool) :=
  match c.publishers.get? name with
  | some i => .ok (c.stopPublisher name i, false)
  | none =>
    match events.get? name with
    | none => .error (.keyError name)
    | some route => do
      let pub ← UdpPublisher.create route
      return (c.startPublisher name pub, true)

/-- The loop of `start_all_events`, with the exception that ended it, if any. -/
def startNames (events : UdpEvents) (c : ServerContext σ) : List String → ServerContext σ × Option PyErr
  | [] => (c, none)
  | name :: names =>
    if c.isPublishing name then startNames events c names
    else
      match c.toggleEvent events name with
      | .error e => (c, some e)
      | .ok (c', _) => startNames events c' names

def startAllEvents (events : UdpEvents) (c : ServerContext σ) : ServerContext σ × Option PyErr :=
  c.startNames events events.keys

/-- One turn of the loop of `stop_all`. -/
def stopEvent (c : ServerContext σ) (name : String) : ServerContext σ :=
  match c.publishers.get? name with
  | some i => c.stopPublisher name i
  | none => c

def stopAll (c : ServerContext σ) : ServerContext σ :=
  c.publishers.keys.foldl stopEvent { c with stopEvt := true }

/-! ### What a toggle does -/

variable {events : UdpEvents} {c c' : ServerContext σ} {name : String} {b : Bool}

theorem toggleEvent_eq_ok : c.toggleEvent events name = .ok (c', b) ↔
    (∃ i, c.publishers.get? name = some i ∧ c' = c.stopPublisher name i ∧ b = false) ∨
    (c.publishers.get? name = none ∧ ∃ route pub, events.get? name = some route ∧
      UdpPublisher.create route = .ok pub ∧ c' = c.startPublisher name pub ∧ b = true) := by
  unfold toggleEvent
  cases hpub : c.publishers.get? name with
  | some i => simp [eq_comm]
  | none =>
    cases hroute : events.get? name with
    | none => simp
    | some route =>
      simp only [Except.bind_eq_ok, Except.pure_eq_ok, Except.ok.injEq, Prod.mk.injEq]
      constructor
      · rintro ⟨pub, hcreate, rfl, rfl⟩
        exact .inr ⟨trivial, route, pub, rfl, hcreate, rfl, rfl⟩
      · rintro (⟨i, hi, -⟩ | ⟨-, route', pub, hr, hcreate, rfl, rfl⟩)
        · cases hi
        · cases hr
          exact ⟨pub, hcreate, rfl, rfl⟩

/-- Thread number `i` publishes the event of this name, and was not stopped. -/
def Running (c : ServerContext σ) (i : Nat) (name : String) : Prop :=
  ∃ p, c.threads[i]? = some p ∧ p.stop = false ∧ p.pub.route.msg.name = name

/-- The table lists exactly the running threads, and these publish events of the catalog. -/
structure Ok (events : UdpEvents) (c : ServerContext σ) : Prop where
  listed : ∀ name i, c.publishers.get? name = some i ↔ c.Running i name
  thread : ∀ p ∈ c.threads, Publishing.Ok events p

end ServerContext

/-- The events stand under the names of their messages. -/
def UdpEvents.Named (events : UdpEvents) : Prop :=
  ∀ name route, events.get? name = some route → route.msg.name = name

theorem UdpEvents.Named.of_build {cat : Catalog} {events : UdpEvents} (hcat : cat.Valid)
    (h : buildUdpEvents cat (.fromSignals cat.signals) = .ok events) : UdpEvents.Named events := by
  intro name route hget
  obtain ⟨m, -, hm⟩ := (buildUdpEvents_entries hcat h).exists_left (Dict.mem_entries_of_get? hget)
  obtain rfl : route.msg = m := hm.msg
  exact hm.name.symm

namespace ServerContext

variable {σ : Type} {events : UdpEvents} {c c' : ServerContext σ} {name name' : String} {b : Bool} {i j : Nat}
  {pub : UdpPublisher}

theorem Ok.init (events : UdpEvents) (database : σ) : (init database).Ok events := by
  refine ⟨fun name i => iff_of_false (fun h => by cases h) ?_, fun p hp => by cases hp⟩
  rintro ⟨p, hp, -⟩
  cases hp

theorem getElem?_stopPublisher (c : ServerContext σ) (name : String) (i j : Nat) :
    (c.stopPublisher name i).threads[j]? =
      (c.threads[j]?).map fun p => if i = j then { p with stop := true } else p :=
  List.getElem?_modify ..

theorem running_stopPublisher :
    (c.stopPublisher name i).Running j name' ↔ j ≠ i ∧ c.Running j name' := by
  unfold Running
  rw [getElem?_stopPublisher]
  constructor
  · rintro ⟨p, hp, hstop, hname⟩
    obtain ⟨p', hp', rfl⟩ := Option.map_eq_some_iff.1 hp
    by_cases hij : i = j
    · rw [if_pos hij] at hstop
      exact absurd hstop (by simp)
    · rw [if_neg hij] at hstop hname
      exact ⟨Ne.symm hij, p', hp', hstop, hname⟩
  · rintro ⟨hij, p, hp, hstop, hname⟩
    refine ⟨p, ?_, hstop, hname⟩
    rw [hp, Option.map_some, if_neg (Ne.symm hij)]

theorem running_startPublisher : (c.startPublisher name pub).Running j name' ↔
    c.Running j name' ∨ j = c.threads.length ∧ pub.route.msg.name = name' := by
  have hlen (p : Publishing) (hp : c.threads[j]? = some p) : j < c.threads.length :=
    (List.getElem?_eq_some_iff.1 hp).1
  unfold Running startPublisher
  rcases Nat.lt_trichotomy j c.threads.length with hlt | rfl | hgt
  · simp only [List.getElem?_append_left hlt]
    exact ⟨.inl, fun h => h.resolve_right fun hj => absurd hj.1 (by omega)⟩
  · simp only [List.getElem?_concat_length, Option.some.injEq, true_and]
    constructor
    · rintro ⟨p, rfl, -, hname⟩
      exact .inr hname
    · rintro (⟨p, hp, -⟩ | hname)
      · exact absurd (hlen p hp) (by omega)
      · exact ⟨_, rfl, rfl, hname⟩
  · rw [List.getElem?_eq_none (by rw [List.length_append, List.length_singleton]; omega),
      List.getElem?_eq_none (by omega)]
    simp
    omega

theorem Ok.stopPublisher (h : c.Ok events) (hget : c.publishers.get? name = some i) :
    (c.stopPublisher name i).Ok events := by
  refine ⟨fun name' j => ?_, fun p hp => ?_⟩
  · rw [running_stopPublisher, ← h.listed]
    show (c.publishers.erase name).get? name' = some j ↔ _
    rw [Dict.get?_erase]
    split_ifs with hname
    · subst hname
      rw [hget]
      refine iff_of_false (by simp) ?_
      rintro ⟨hne, heq⟩
      exact hne (Option.some.inj heq).symm
    · refine ⟨fun hj => ⟨?_, hj⟩, And.right⟩
      rintro rfl
      -- one thread has one event, so it stands under one name only
      obtain ⟨p, hp, -, hn⟩ := (h.listed name j).1 hget
      obtain ⟨p', hp', -, hn'⟩ := (h.listed name' j).1 hj
      cases hp.symm.trans hp'
      exact hname (hn'.symm.trans hn)
  · obtain ⟨j, hj⟩ := List.getElem?_of_mem hp
    rw [getElem?_stopPublisher] at hj
    obtain ⟨p', hp', rfl⟩ := Option.map_eq_some_iff.1 hj
    have hthread := h.thread p' (List.mem_of_getElem? hp')
    split_ifs
    · exact ⟨hthread.route, hthread.create⟩
    · exact hthread

theorem Ok.startPublisher (h : c.Ok events) (hnone : c.publishers.get? name = none)
    (hroute : events.get? name = some pub.route) (hname : pub.route.msg.name = name)
    (hcreate : UdpPublisher.create pub.route = .ok pub) : (c.startPublisher name pub).Ok events := by
  refine ⟨fun name' j => ?_, fun p hp => ?_⟩
  · rw [running_startPublisher, ← h.listed, hname]
    show (c.publishers.set name c.threads.length).get? name' = some j ↔ _
    rw [Dict.get?_set]
    split_ifs with heq
    · subst heq
      rw [hnone]
      simp [eq_comm]
    · exact ⟨.inl, fun hj => hj.resolve_right fun hn => heq hn.2.symm⟩
  · rcases List.mem_append.1 hp with hp | hp
    · exact h.thread p hp
    · rw [List.mem_singleton.1 hp]
      exact ⟨by rw [hname, hroute], hcreate⟩

theorem Ok.toggleEvent (h : c.Ok events) (hnamed : UdpEvents.Named events)
    (htoggle : c.toggleEvent events name = .ok (c', b)) : c'.Ok events := by
  rcases toggleEvent_eq_ok.1 htoggle with ⟨i, hi, rfl, -⟩ | ⟨hnone, route, pub, hroute, hcreate, rfl, -⟩
  · exact h.stopPublisher hi
  · obtain ⟨rfl, -⟩ := UdpPublisher.create_ok hcreate
    exact h.startPublisher hnone hroute (hnamed name _ hroute) hcreate

theorem Ok.startNames (h : c.Ok events) (hnamed : UdpEvents.Named events) (names : List String) :
    (c.startNames events names).1.Ok events := by
  induction names generalizing c with
  | nil => exact h
  | cons name names ih =>
    rw [ServerContext.startNames]
    split_ifs
    · exact ih h
    · cases htoggle : c.toggleEvent events name with
      | error e => exact h
      | ok r => exact ih (h.toggleEvent hnamed htoggle)

theorem Ok.stopEvent (h : c.Ok events) (name : String) : (c.stopEvent name).Ok events := by
  rw [ServerContext.stopEvent]
  cases hget : c.publishers.get? name with
  | some i => exact h.stopPublisher hget
  | none => exact h

theorem Ok.stopAll (h : c.Ok events) : c.stopAll.Ok events := by
  refine Run.foldl_inv (I := fun c : ServerContext σ => c.Ok events) (fun t ht hpre => ?_) ⟨h.listed, h.thread⟩
  rw [Run.post_eq ht]
  exact hpre.stopEvent _

end ServerContext

end AutoEth
