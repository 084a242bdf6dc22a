import AutoEth.ServerContext
import AutoEth.ListenerRuns

/-!
# What an ack is worth

The listener acks a subscribe for a served eventgroup whether or not it has found an endpoint to register, and
whether or not the publishers of the eventgroup look into the registry: those of a multicast event do not.
`ackRegisters_iff` says for which entries an ack stands for an endpoint that is registered and sent to.
-/

namespace AutoEth

/-- The publisher sends its datagrams to the endpoint. -/
def UdpPublisher.SendsTo (pub : UdpPublisher) (registry : SubscriberRegistry) (ep : Endpoint) : Prop :=
  ∃ dests, pub.dests registry = .ok dests ∧ ep ∈ dests

/-- The publishers of the eventgroup. -/
def UdpEvents.Publishes (events : UdpEvents) (key : Int × Int) (pub : UdpPublisher) : Prop :=
  ∃ route ∈ events.values, (route.svcId, route.eventgroupId) = key ∧ UdpPublisher.create route = .ok pub

/-- A multicast publisher of the eventgroup sends to this very endpoint. -/
def UdpEvents.Reaches (events : UdpEvents) (key : Int × Int) (ep : Endpoint) : Prop :=
  ∀ pub, events.Publishes key pub → pub.mode = "multicast" → pub.mcastHost = .ok ep.1 ∧ pub.port = ep.2

theorem UdpPublisher.sendsTo_iff {pub : UdpPublisher} {registry : SubscriberRegistry} {ep : Endpoint} :
    pub.SendsTo registry ep ↔ if pub.mode = "multicast" then pub.mcastHost = .ok ep.1 ∧ pub.port = ep.2
      else ep ∈ registry.getSubscribers pub.route.svcId pub.route.eventgroupId := by
  unfold SendsTo dests
  split_ifs with hmode
  · constructor
    · rintro ⟨dests, hdests, hep⟩
      obtain ⟨host, hhost, hdests⟩ := Except.bind_eq_ok.1 hdests
      cases hdests
      rw [Finset.mem_singleton.1 hep]
      exact ⟨hhost, rfl⟩
    · rintro ⟨hhost, hport⟩
      refine ⟨{ep}, ?_, Finset.mem_singleton_self ep⟩
      rw [hhost, hport]
      rfl
  · simp

namespace SdListener

variable {l : SdListener} {events : UdpEvents} {sdPort : Int} {s : State} {entry : EventgroupEntry} {addr ep : Endpoint}

/-- A stop for an endpoint of an eventgroup. -/
def StopFor (svcId egid : Int) (ep : Endpoint) : SdEntry × Endpoint → Prop
  | (.service _, _) => False
  | (.eventgroup entry, addr) =>
    entry.key = (svcId, egid) ∧ entry.ttl = ttlStop ∧ entry.subscriber addr = ep

/-- If the entry is acked, some UDP endpoint that it names is registered, and the publishers of the eventgroup
send to it, until a stop for it comes. -/
def AckRegisters (events : UdpEvents) (sdPort : Int) (s : State) (entry : EventgroupEntry) (addr : Endpoint) : Prop :=
  let l := ofEvents sdPort events
  (l.handleSubscribe s entry addr).sent ≠ s.sent →
    ∃ ep, entry.Names ep ∧ ep.2 ≠ 0 ∧ ∀ es : List (SdEntry × Endpoint),
      (∀ e ∈ es, ¬ StopFor entry.serviceId entry.eventgroupId ep e) →
        let registry := (es.foldl l.handleEntry (l.handleSubscribe s entry addr)).registry
        ep ∈ registry.getSubscribers entry.serviceId entry.eventgroupId ∧
          ∀ pub, events.Publishes entry.key pub → pub.SendsTo registry ep

/-- Registered endpoints stay until their stop. -/
theorem mem_foldl_handleEntry {svcId egid : Int} {es : List (SdEntry × Endpoint)}
    (hes : ∀ e ∈ es, ¬ StopFor svcId egid ep e) (h : ep ∈ s.registry.getSubscribers svcId egid) :
    ep ∈ (es.foldl l.handleEntry s).registry.getSubscribers svcId egid := by
  refine Run.foldl_inv (I := fun s : State => ep ∈ s.registry.getSubscribers svcId egid)
    (fun t ht hpre => ?_) h
  have hno := hes _ (Run.input_mem ht)
  rw [Run.post_eq ht]
  obtain ⟨pre, ⟨e | e, addr⟩, post⟩ := t
  · exact hpre
  · dsimp only at hno hpre ⊢
    rw [handleEntry, mem_handleSubscribe]
    split_ifs with hconcerns
    · obtain ⟨-, hkey, hep, -⟩ := hconcerns
      exact fun hstop => hno ⟨hkey.symm, hstop, hep.symm⟩
    · exact hpre

theorem mem_handleSubscribe_start (hserves : l.Serves entry.key) (httl : entry.ttl ≠ ttlStop) (hne : ep.2 ≠ 0) :
    ep ∈ (l.handleSubscribe s entry addr).registry.getSubscribers entry.serviceId entry.eventgroupId ↔
      ep = entry.subscriber addr ∨ ep ∈ s.registry.getSubscribers entry.serviceId entry.eventgroupId := by
  rw [mem_handleSubscribe]
  split_ifs with hconcerns
  · exact iff_of_true httl (.inl hconcerns.2.2.1)
  · exact (or_iff_right fun hep => hconcerns ⟨hserves, rfl, hep, hne⟩).symm

/-- An ack keeps its promise exactly when the eventgroup is not served (and nothing is acked), or the first UDP
endpoint of the entry, or one that it names and that was registered before, has a port and is where the multicast
publishers of the eventgroup, if it has any, send to. -/
theorem ackRegisters_iff (httl : entry.ttl ≠ ttlStop) :
    AckRegisters events sdPort s entry addr ↔ ¬ (ofEvents sdPort events).Serves entry.key ∨
      ∃ ep, entry.Names ep ∧ ep.2 ≠ 0 ∧ (ep = entry.subscriber addr ∨
        ep ∈ s.registry.getSubscribers entry.serviceId entry.eventgroupId) ∧ events.Reaches entry.key ep := by
  by_cases hserves : (ofEvents sdPort events).Serves entry.key
  · rw [or_iff_right (not_not.2 hserves)]
    have hacked : ((ofEvents sdPort events).handleSubscribe s entry addr).sent ≠ s.sent := by
      rw [sent_handleSubscribe, if_pos ⟨hserves, httl⟩]
      simp
    constructor
    · intro h
      obtain ⟨ep, hnames, hne, hsends⟩ := h hacked
      obtain ⟨hmem, hpubs⟩ := hsends [] (List.forall_mem_nil _)
      refine ⟨ep, hnames, hne, (mem_handleSubscribe_start hserves httl hne).1 hmem, fun pub hpub hmode => ?_⟩
      have hsends := UdpPublisher.sendsTo_iff.1 (hpubs pub hpub)
      rwa [if_pos hmode] at hsends
    · rintro ⟨ep, hnames, hne, hep, hreaches⟩ -
      refine ⟨ep, hnames, hne, fun es hes => ?_⟩
      have hmem := mem_foldl_handleEntry (l := ofEvents sdPort events) hes
        ((mem_handleSubscribe_start hserves httl hne).2 hep)
      refine ⟨hmem, fun pub hpub => UdpPublisher.sendsTo_iff.2 ?_⟩
      split_ifs with hmode
      · exact hreaches pub hpub hmode
      · obtain ⟨route, -, hkey, hcreate⟩ := hpub
        obtain ⟨hsvc, hegid⟩ := Prod.mk.inj hkey
        rw [(UdpPublisher.create_ok hcreate).1, hsvc, hegid]
        exact hmem
  · refine iff_of_true (fun hacked => absurd ?_ hacked) (.inl hserves)
    rw [handleSubscribe_of_not_serves hserves]

/-- A subscribe without options is acked, and nothing is registered. -/
theorem listener_acks_nothing :
    ¬ AckRegisters exampleEvents 30490 .init { exampleSubscribe with options := [] } ("127.0.0.1", 40000) := by
  intro h
  obtain ⟨ep, hnames, -⟩ := h (by
    rw [sent_handleSubscribe, if_pos ⟨exampleListener_serves, by decide⟩]
    simp)
  cases hnames

theorem ackRegisters_example : AckRegisters exampleEvents 30490 .init exampleSubscribe ("127.0.0.1", 40000) := by
  have hmodes : ∀ route ∈ exampleEvents.values, modeOf route.msg.udp = .ok "unicast" := by decide +kernel
  refine (ackRegisters_iff (by decide)).2 (.inr ⟨("127.0.0.1", 30512), ?_, by decide, .inl (by decide), ?_⟩)
  · exact List.mem_singleton_self _
  · rintro pub ⟨route, hroute, -, hcreate⟩ hmode
    have hread := (UdpPublisher.create_ok hcreate).2
    rw [hmodes route hroute, hmode] at hread
    exact absurd hread (by decide)

end SdListener

end AutoEth
