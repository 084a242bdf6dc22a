import AutoEth.Subscribe
import Mathlib.Logic.Function.Basic

/-!
# Agreement of clients and node

Any number of calls of `_subscribe_eventgroup` and one node on a network that keeps every datagram sent
and may hand it over at any time, or never: to everybody where it was sent to the group, else to any
socket on the SD port of its host. So datagrams are lost, delayed and reordered, and may also come twice.

An ack carries the ids of the request and goes to the host of the request; a call waits for its ids.
Thus a call can take the ack of another call on its host for its own. `agreement_iff` says for which
calls this does no harm: every call on the same host with the same ids names the same endpoint.
-/

namespace AutoEth

inductive Dest where
  | group
  | host (ip : String)

structure NetPacket where
  src : Endpoint
  dst : Dest
  data : Bytes

/-- The datagram can be handed to a socket on the SD port of the host. -/
def NetPacket.Reaches (p : NetPacket) (host : String) : Prop := p.dst = .group ∨ p.dst = .host host

/-- A call before it has bound its socket, while it waits, and after it has returned. -/
inductive Phase where
  | idle
  | waiting
  | returned (ok : Bool)

/-- The calls with the addresses they send from, and the node with the address that its acks come from. -/
structure Setting (ι : Type*) where
  calls : ι → SubscribeCall
  addr : ι → Endpoint
  listener : SdListener
  nodeAddr : Endpoint

structure Net (ι : Type*) where
  node : SdListener.State
  phase : ι → Phase
  sent : List NetPacket

namespace Setting
variable {ι : Type*} (c : Setting ι)

def initial : Net ι := ⟨.init, fun _ => .idle, []⟩

def ackPacket (p : Packet) : NetPacket := ⟨c.nodeAddr, .host p.dst.1, p.data⟩

/-- The datagrams that were sent so far. -/
def packets (s : Net ι) : List NetPacket := s.sent ++ s.node.sent.map c.ackPacket

section Steps
variable [DecidableEq ι]

inductive Step : Net ι → Net ι → Prop where
  | send {s : Net ι} (i : ι) (data : Bytes) (hphase : s.phase i = .idle)
      (hdata : (c.calls i).request = .ok data) :
      Step s { s with
        phase := Function.update s.phase i .waiting
        sent := s.sent ++ [⟨c.addr i, .group, data⟩] }
  | node {s : Net ι} (p : NetPacket) (hp : p ∈ c.packets s) (hreach : p.Reaches c.nodeAddr.1) :
      Step s { s with node := c.listener.receive s.node ⟨p.data, p.src⟩ }
  | accept {s : Net ι} (i : ι) (p : NetPacket) (hp : p ∈ c.packets s) (hphase : s.phase i = .waiting)
      (hreach : p.Reaches (c.addr i).1) (haccept : (c.calls i).acceptsAck p.data = true) :
      Step s { s with phase := Function.update s.phase i (.returned true) }
  | timeout {s : Net ι} (i : ι) (hphase : s.phase i = .waiting) :
      Step s { s with phase := Function.update s.phase i (.returned false) }

inductive Reachable : Net ι → Prop where
  | initial : Reachable initial
  | step {s s' : Net ι} (h : Reachable s) (hstep : c.Step s s') : Reachable s'

end Steps

/-- The endpoint of a call that returned `True` is registered. -/
def Agreement (s : Net ι) : Prop :=
  ∀ i, s.phase i = .returned true → (c.calls i).endpoint ∈
    s.node.registry.getSubscribers (c.calls i).svcId (c.calls i).eventgroupId

/-- Calls that can be taken for each other name the same endpoint: a call from the host of another call
that has on the wire the ids of this call, of a served eventgroup, has on the wire also its endpoint, and
this has a port. -/
def Distinct : Prop :=
  ∀ i j, (c.calls i).Sendable → (c.calls j).Sendable → (c.addr i).1 = (c.addr j).1 →
    (c.calls j).wireKey = (c.calls i).key → c.listener.Serves (c.calls i).key →
    (c.calls j).wireEndpoint = (c.calls i).endpoint ∧ (c.calls i).clientUdpPort ≠ 0

/-! ### Where acks come from -/

section Invariant
variable {c : Setting ι} {s s' : Net ι}

/-- The packet is an ack that goes to the host of a call, with the ids of the call on the wire, and the
node has registered the endpoint of the call. -/
def Acks (c : Setting ι) (s : Net ι) (p : Packet) (j : ι) : Prop :=
  (∃ seq entry, p.data = ackMessage seq entry ∧ entry.key = (c.calls j).wireKey) ∧
    (c.calls j).Sendable ∧ (c.addr j).1 = p.dst.1 ∧ c.listener.Serves (c.calls j).wireKey ∧
      ((c.calls j).wireEndpoint.2 ≠ 0 → (c.calls j).wireEndpoint ∈
        s.node.registry.getSubscribers (c.calls j).wireKey.1 (c.calls j).wireKey.2)

structure Inv (c : Setting ι) (s : Net ι) : Prop where
  waiting : ∀ i, s.phase i = .waiting → (c.calls i).Sendable
  sent : ∀ p ∈ s.sent, ∃ j data, (c.calls j).request = .ok data ∧ p = ⟨c.addr j, .group, data⟩
  acks : ∀ p ∈ s.node.sent, ∃ j, c.Acks s p j
  agreement : c.Agreement s

theorem inv_initial : c.Inv initial :=
  ⟨fun _ h => (nomatch h), fun _ hp => (nomatch hp), fun _ hp => (nomatch hp), fun _ h => nomatch h⟩

theorem Acks.mono {p : Packet} {j : ι} (h : c.Acks s p j)
    (hreg : ∀ svcId egid, ∀ ep ∈ s.node.registry.getSubscribers svcId egid,
      ep ∈ s'.node.registry.getSubscribers svcId egid) : c.Acks s' p j := by
  obtain ⟨hack, hsend, hhost, hserves, hmem⟩ := h
  exact ⟨hack, hsend, hhost, hserves, fun hport => hreg _ _ _ (hmem hport)⟩

theorem Inv.node_request (h : c.Inv s) {j : ι} {data : Bytes} (hdata : (c.calls j).request = .ok data) :
    c.Inv { s with node := c.listener.receive s.node ⟨data, c.addr j⟩ } := by
  have hreg : ∀ svcId egid, ∀ ep ∈ s.node.registry.getSubscribers svcId egid, ep ∈
      (c.listener.receive s.node ⟨data, c.addr j⟩).registry.getSubscribers svcId egid :=
    fun svcId egid ep hep => (SubscribeCall.mem_receive_request hdata).2 (.inr hep)
  refine ⟨h.waiting, h.sent, fun p hp => ?_, fun i hi => hreg _ _ _ (h.agreement i hi)⟩
  obtain ⟨seq, entry, hkey, hsent⟩ :=
    SubscribeCall.sent_receive_request hdata c.listener s.node (c.addr j)
  dsimp only at hp
  rw [hsent] at hp
  rcases List.mem_append.1 hp with hp | hp
  · obtain ⟨k, hk⟩ := h.acks p hp
    exact ⟨k, hk.mono hreg⟩
  · split_ifs at hp with hserves
    · rw [List.mem_singleton.1 hp]
      refine ⟨j, ⟨seq, entry, rfl, hkey⟩, SubscribeCall.exists_request_iff.1 ⟨data, hdata⟩, rfl,
        hserves, fun hport => ?_⟩
      exact (SubscribeCall.mem_receive_request hdata).2 (.inl ⟨hserves, rfl, rfl, hport⟩)
    · cases hp

/-- The node has got one of its own acks, which is possible on its own host only. -/
theorem Inv.node_ack (h : c.Inv s) {q : Packet} (hq : q ∈ s.node.sent) (hhost : q.dst.1 = c.nodeAddr.1) :
    c.Inv { s with node := c.listener.receive s.node ⟨q.data, c.nodeAddr⟩ } := by
  obtain ⟨j, hj⟩ := h.acks q hq
  obtain ⟨⟨seq, entry, hdata, hkey⟩, hsend, hdst, hserves, hmem⟩ := id hj
  obtain ⟨entry', hentries, hopts, hkey'⟩ := sdEntries_recvSd_ackMessage seq entry
  rw [hdata]
  have hreg : (c.listener.receive s.node ⟨ackMessage seq entry, c.nodeAddr⟩).registry.getSubscribers =
      s.node.registry.getSubscribers := by
    refine SdListener.getSubscribers_receive_nameless fun e he => ?_
    rw [hentries, List.mem_singleton] at he
    rw [he]
    exact hopts
  have hmono : ∀ svcId egid, ∀ ep ∈ s.node.registry.getSubscribers svcId egid, ep ∈
      (c.listener.receive s.node ⟨ackMessage seq entry, c.nodeAddr⟩).registry.getSubscribers
        svcId egid := by
    intro svcId egid ep hep
    rwa [hreg]
  refine ⟨h.waiting, h.sent, fun p hp => ?_, fun i hi => hmono _ _ _ (h.agreement i hi)⟩
  dsimp only at hp
  rw [SdListener.receive_single hentries, SdListener.sent_handleSubscribe] at hp
  rcases List.mem_append.1 hp with hp | hp
  · obtain ⟨k, hk⟩ := h.acks p hp
    exact ⟨k, hk.mono hmono⟩
  · split_ifs at hp with hcond
    · rw [List.mem_singleton.1 hp]
      exact ⟨j, ⟨_, entry', rfl, hkey'.trans (SubscribeCall.emod_key hkey)⟩, hsend, hdst.trans hhost, hserves,
        fun hport => hmono _ _ _ (hmem hport)⟩
    · cases hp

/-- A packet that a call accepts is an ack that the node has sent to its host, with its ids. -/
theorem Inv.exists_acks (h : c.Inv s) {i : ι} {p : NetPacket} (hp : p ∈ c.packets s)
    (hreach : p.Reaches (c.addr i).1) (haccept : (c.calls i).acceptsAck p.data = true) :
    ∃ q j, c.Acks s q j ∧ q.dst.1 = (c.addr i).1 ∧ (c.calls j).wireKey = (c.calls i).key := by
  rcases List.mem_append.1 hp with hp | hp
  · obtain ⟨j, data, hdata, rfl⟩ := h.sent p hp
    rw [SubscribeCall.acceptsAck_request hdata] at haccept
    cases haccept
  · obtain ⟨q, hq, rfl⟩ := List.mem_map.1 hp
    obtain ⟨j, hj⟩ := h.acks q hq
    obtain ⟨seq, entry, hdata, hkey⟩ := hj.1
    have hhost : q.dst.1 = (c.addr i).1 := by
      rcases hreach with hreach | hreach
      · cases hreach
      · exact Dest.host.inj hreach
    rw [ackPacket, hdata, SubscribeCall.acceptsAck_ackMessage, SubscribeCall.emod_key hkey] at haccept
    exact ⟨q, j, hj, hhost, haccept⟩

variable [DecidableEq ι]

theorem Inv.accept (hdistinct : c.Distinct) (h : c.Inv s) {i : ι} {p : NetPacket}
    (hp : p ∈ c.packets s) (hphase : s.phase i = .waiting) (hreach : p.Reaches (c.addr i).1)
    (haccept : (c.calls i).acceptsAck p.data = true) :
    c.Inv { s with phase := Function.update s.phase i (.returned true) } := by
  refine ⟨fun i' hi' => ?_, h.sent, h.acks, fun i' hi' => ?_⟩
  · dsimp only at hi'
    rw [Function.update_apply] at hi'
    split_ifs at hi'
    exact h.waiting i' hi'
  · by_cases hi : i' = i
    · subst hi
      obtain ⟨q, j, ⟨-, hsend, hdst, hserves, hmem⟩, hhost, hkey⟩ := h.exists_acks hp hreach haccept
      rw [hkey] at hserves hmem
      obtain ⟨hep, hport⟩ :=
        hdistinct i' j (h.waiting i' hphase) hsend (hhost.symm.trans hdst.symm) hkey hserves
      rw [hep] at hmem
      exact hmem hport
    · dsimp only at hi'
      rw [Function.update_of_ne hi] at hi'
      exact h.agreement i' hi'

theorem Inv.step (hdistinct : c.Distinct) (h : c.Inv s) (hstep : c.Step s s') : c.Inv s' := by
  cases hstep with
  | send i data hphase hdata =>
    refine ⟨fun i' hi' => ?_, fun p hp => ?_, h.acks, fun i' hi' => ?_⟩
    · by_cases hi : i' = i
      · rw [hi]
        exact SubscribeCall.exists_request_iff.1 ⟨data, hdata⟩
      · dsimp only at hi'
        rw [Function.update_of_ne hi] at hi'
        exact h.waiting i' hi'
    · rcases List.mem_append.1 hp with hp | hp
      · exact h.sent p hp
      · exact ⟨i, data, hdata, List.mem_singleton.1 hp⟩
    · dsimp only at hi'
      rw [Function.update_apply] at hi'
      split_ifs at hi'
      exact h.agreement i' hi'
  | node p hp hreach =>
    rcases List.mem_append.1 hp with hp | hp
    · obtain ⟨j, data, hdata, rfl⟩ := h.sent p hp
      exact h.node_request hdata
    · obtain ⟨q, hq, rfl⟩ := List.mem_map.1 hp
      rcases hreach with hreach | hreach
      · cases hreach
      · exact h.node_ack hq (Dest.host.inj hreach)
  | accept i p hp hphase hreach haccept => exact h.accept hdistinct hp hphase hreach haccept
  | timeout i hphase =>
    refine ⟨fun i' hi' => ?_, h.sent, h.acks, fun i' hi' => ?_⟩
    all_goals
      dsimp only at hi'
      rw [Function.update_apply] at hi'
      split_ifs at hi'
    · exact h.waiting i' hi'
    · cases hi'
    · exact h.agreement i' hi'

theorem inv_of_reachable (hdistinct : c.Distinct) (h : c.Reachable s) : c.Inv s := by
  induction h with
  | initial => exact inv_initial
  | step _ hstep ih => exact ih.step hdistinct hstep

/-! ### A run in which one call takes the ack of another -/

/-- Both calls can have been sent while the node has got nothing yet. -/
theorem exists_reachable_sent {i j : ι} {di dj : Bytes} (hi : (c.calls i).request = .ok di)
    (hj : (c.calls j).request = .ok dj) :
    ∃ s, c.Reachable s ∧ s.node = .init ∧ s.phase i = .waiting ∧ ⟨c.addr j, .group, dj⟩ ∈ s.sent := by
  have hfirst := Reachable.initial.step (Step.send (c := c) i di rfl hi)
  by_cases hij : j = i
  · subst hij
    cases hi.symm.trans hj
    exact ⟨_, hfirst, rfl, Function.update_self .., List.mem_singleton_self _⟩
  · have hidle : (Function.update initial.phase i Phase.waiting) j = .idle := Function.update_of_ne hij ..
    refine ⟨_, hfirst.step (Step.send (c := c) j dj hidle hj), rfl, ?_, List.mem_append_right _
      (List.mem_singleton_self _)⟩
    dsimp only
    rw [Function.update_of_ne (Ne.symm hij), Function.update_self]

/-- Calls on one host with the same ids have to name the same endpoint. -/
theorem distinct_of_agreement (h : ∀ s, c.Reachable s → c.Agreement s) : c.Distinct := by
  intro i j hi hj hhost hkey hserves
  obtain ⟨di, hdi⟩ := SubscribeCall.exists_request_iff.2 hi
  obtain ⟨dj, hdj⟩ := SubscribeCall.exists_request_iff.2 hj
  obtain ⟨s, hs, hnode, hphase, hsent⟩ := exists_reachable_sent hdi hdj
  -- the node gets the request of `j`, and `i` its ack
  obtain ⟨seq, entry, hentry, hack⟩ :=
    SubscribeCall.sent_receive_request hdj c.listener s.node (c.addr j)
  rw [hkey, if_pos hserves] at hack
  have hs' := hs.step (.node _ (List.mem_append_left _ hsent) (.inl rfl))
  set s' : Net ι := { s with node := c.listener.receive s.node ⟨dj, c.addr j⟩ } with hs'eq
  have hin : c.ackPacket ⟨((c.addr j).1, c.listener.sdPort), ackMessage seq entry⟩ ∈ c.packets s' := by
    refine List.mem_append_right _ (List.mem_map_of_mem ?_)
    rw [hs'eq]
    dsimp only
    rw [hack]
    exact List.mem_append_right _ (List.mem_singleton_self _)
  have haccept : (c.calls i).acceptsAck (ackMessage seq entry) = true := by
    rw [SubscribeCall.acceptsAck_ackMessage, SubscribeCall.emod_key hentry, hkey]
  have hmem := h _ (hs'.step (.accept i _ hin hphase (.inr (congrArg Dest.host hhost.symm)) haccept)) i
    (Function.update_self ..)
  have hmem' := (SubscribeCall.mem_receive_request hdj).1 hmem
  rw [hnode] at hmem'
  rcases hmem' with ⟨-, -, hep, hport⟩ | hno
  · exact ⟨hep.symm, hport⟩
  · cases hno

/-- In every run, all calls that return `True` are registered, exactly when the calls are distinct. -/
theorem agreement_iff (c : Setting ι) : (∀ s, c.Reachable s → c.Agreement s) ↔ c.Distinct :=
  ⟨distinct_of_agreement, fun hdistinct _ hs => (inv_of_reachable hdistinct hs).agreement⟩

end Invariant

/-! ### An example -/

/-- Two clients on one host that subscribe to the example eventgroup, for different UDP ports. -/
def exampleSetting : Setting Bool where
  calls b := {
    clientIp := "127.0.0.1", clientUdpPort := if b then 30512 else 30513, svcId := 0x1002, instId := 1
    major := 1, eventgroupId := 1, counter := 0 }
  addr _ := ("127.0.0.1", 30490)
  listener := exampleListener
  nodeAddr := ("127.0.0.2", 40001)

/-- The request of the first client is lost, and the ack of the second makes it return `True`. -/
theorem ack_of_another_call : ¬ ∀ s, exampleSetting.Reachable s → exampleSetting.Agreement s := by
  intro h
  have hsend : ∀ b, (exampleSetting.calls b).Sendable := by
    intro b
    show (Inet.aton "127.0.0.1").isSome
    decide
  obtain ⟨hep, -⟩ :=
    distinct_of_agreement h true false (hsend true) (hsend false) rfl (by decide) exampleListener_serves
  revert hep
  decide

end Setting

end AutoEth
