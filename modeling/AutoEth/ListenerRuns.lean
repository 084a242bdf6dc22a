import AutoEth.Listener

/-!
# What the listener acts on

The parser gives subscribes and acks the same class of entry, and `_handle_subscribe` does not look at
the type: an ack for a served eventgroup is answered like a subscribe. `actsOnSubscribes_iff` says in
which runs the listener acts on subscribes alone.
-/

namespace AutoEth

def SdEntry.isSubscribe : SdEntry → Bool
  | .eventgroup e => e.entryType = etSubscribeEventgroup
  | .service _ => false

namespace SdListener

variable {l : SdListener} {s : State} {entry : EventgroupEntry} {addr ep : Endpoint}

/-! ### Only subscribes -/

/-- The steps of a run, one for each entry received. -/
def steps (l : SdListener) (s : State) (ds : List Datagram) :
    List (Run.Step State (SdEntry × Endpoint)) :=
  Run.steps l.handleEntry s (ds.flatMap received)

/-- The step changes the registry or sends a packet. -/
def Acts (t : Run.Step State (SdEntry × Endpoint)) : Prop :=
  t.post.registry.getSubscribers ≠ t.pre.registry.getSubscribers ∨ t.post.sent ≠ t.pre.sent

/-- The run acts on subscribes only: they cause every change and every ack, the acks are no more than
they, and without them nothing happens. -/
structure ActsOnSubscribes (l : SdListener) (s : State) (ds : List Datagram) : Prop where
  cause : ∀ t ∈ l.steps s ds, Acts t → t.input.1.isSubscribe = true
  sent_le : (l.run s ds).sent.length ≤
    s.sent.length + (ds.flatMap received).countP fun e => e.1.isSubscribe
  idle : (∀ e ∈ ds.flatMap received, e.1.isSubscribe = false) →
    (l.run s ds).registry.getSubscribers = s.registry.getSubscribers ∧ (l.run s ds).sent = s.sent

/-- Another entry than a subscribe does no harm: it is for an eventgroup that is not served, or it is a
stop that finds nothing to take out. -/
def Harmless (l : SdListener) (s : State) : SdEntry × Endpoint → Prop
  | (.service _, _) => True
  | (.eventgroup entry, addr) =>
    entry.entryType = etSubscribeEventgroup ∨ ¬ l.Serves entry.key ∨
      entry.ttl = ttlStop ∧ ((entry.subscriber addr).2 = 0 ∨
        entry.subscriber addr ∉ s.registry.getSubscribers entry.serviceId entry.eventgroupId)

theorem getSubscribers_handleSubscribe_stop (hstop : entry.ttl = ttlStop) :
    (l.handleSubscribe s entry addr).registry.getSubscribers = s.registry.getSubscribers ↔
      ¬ l.Serves entry.key ∨ (entry.subscriber addr).2 = 0 ∨
        entry.subscriber addr ∉ s.registry.getSubscribers entry.serviceId entry.eventgroupId := by
  constructor
  · intro heq
    by_contra hno
    push Not at hno
    obtain ⟨hserves, hport, hmem⟩ := hno
    rw [← heq, mem_handleSubscribe, if_pos ⟨hserves, rfl, rfl, hport⟩] at hmem
    exact hmem hstop
  · intro h
    funext svcId egid
    refine Finset.ext fun ep => ?_
    rw [mem_handleSubscribe]
    split_ifs with hconcerns
    · obtain ⟨hserves, hkey, rfl, hport⟩ := hconcerns
      cases hkey
      rcases h with h | h | h
      · exact absurd hserves h
      · exact absurd h hport
      · exact iff_of_false (not_not.2 hstop) h
    · exact Iff.rfl

theorem acts_handleSubscribe {e : SdEntry × Endpoint} :
    Acts ⟨s, e, l.handleSubscribe s entry addr⟩ ↔ l.Serves entry.key ∧ (entry.ttl = ttlStop →
      (entry.subscriber addr).2 ≠ 0 ∧
        entry.subscriber addr ∈ s.registry.getSubscribers entry.serviceId entry.eventgroupId) := by
  unfold Acts
  dsimp only
  rw [sent_handleSubscribe]
  by_cases hstop : entry.ttl = ttlStop
  · rw [if_neg fun h => h.2 hstop, List.append_nil, ne_eq, getSubscribers_handleSubscribe_stop hstop]
    tauto
  · by_cases hserves : l.Serves entry.key
    · rw [if_pos ⟨hserves, hstop⟩]
      exact iff_of_true (.inr (by simp)) ⟨hserves, fun h => absurd h hstop⟩
    · rw [if_neg fun h => hserves h.1, handleSubscribe_of_not_serves hserves]
      simp [hserves]

theorem harmless_iff (e : SdEntry × Endpoint) :
    l.Harmless s e ↔ (Acts ⟨s, e, l.handleEntry s e⟩ → e.1.isSubscribe = true) := by
  obtain ⟨e | e, addr⟩ := e
  · refine iff_of_true trivial fun h => ?_
    rcases h with h | h
    · exact absurd rfl h
    · exact absurd rfl h
  · rw [handleEntry, acts_handleSubscribe, Harmless, SdEntry.isSubscribe, decide_eq_true_iff]
    tauto

theorem length_sent_handleEntry (e : SdEntry × Endpoint) :
    (l.handleEntry s e).sent.length ≤ s.sent.length + 1 := by
  obtain ⟨e | e, addr⟩ := e
  · exact Nat.le_succ _
  · rw [handleEntry, sent_handleSubscribe, List.length_append]
    split_ifs
    · exact Nat.le_refl _
    · exact Nat.le_succ _

/-- The listener acts on subscribes only, exactly in the runs in which every other entry is harmless
when its turn comes. -/
theorem actsOnSubscribes_iff (l : SdListener) (s : State) (ds : List Datagram) :
    l.ActsOnSubscribes s ds ↔ ∀ t ∈ l.steps s ds, l.Harmless t.pre t.input := by
  have hstep : ∀ t ∈ l.steps s ds,
      (l.Harmless t.pre t.input ↔ (Acts t → t.input.1.isSubscribe = true)) := by
    intro t ht
    have hpost : t = ⟨t.pre, t.input, l.handleEntry t.pre t.input⟩ := by rw [← Run.post_eq ht]
    rw [harmless_iff, ← hpost]
  constructor
  · intro h t ht
    exact (hstep t ht).2 (h.cause t ht)
  · intro h
    have hcause : ∀ t ∈ l.steps s ds, Acts t → t.input.1.isSubscribe = true :=
      fun t ht => (hstep t ht).1 (h t ht)
    -- what is not a subscribe changes neither the registry nor the packets sent
    have hquiet : ∀ t ∈ l.steps s ds, t.input.1.isSubscribe = false →
        t.post.registry.getSubscribers = t.pre.registry.getSubscribers ∧ t.post.sent = t.pre.sent := by
      intro t ht hother
      have hno : ¬ Acts t := fun hacts => by simp [hcause t ht hacts] at hother
      unfold Acts at hno
      push Not at hno
      exact hno
    refine ⟨hcause, ?_, fun hall => ?_⟩
    · rw [run_eq]
      refine Run.measure_le_countP (m := fun s : State => s.sent.length)
        (p := fun e : SdEntry × Endpoint => e.1.isSubscribe) fun t ht => ?_
      cases hsub : t.input.1.isSubscribe with
      | true =>
        rw [if_pos rfl, Run.post_eq ht]
        exact length_sent_handleEntry t.input
      | false =>
        rw [(hquiet t ht hsub).2]
        exact Nat.le_add_right ..
    · rw [run_eq]
      refine Run.foldl_inv (I := fun s' : State => s'.registry.getSubscribers = s.registry.getSubscribers ∧
        s'.sent = s.sent) (fun t ht hpre => ?_) ⟨rfl, rfl⟩
      obtain ⟨hreg, hsent⟩ := hquiet t ht (hall _ (Run.input_mem ht))
      exact ⟨hreg.trans hpre.1, hsent.trans hpre.2⟩

/-- The ack of a subscribe comes back to the listener and draws a second ack. -/
theorem listener_answers_ack :
    ∃ ack ∈ (exampleListener.run .init [exampleDatagram]).sent, ¬ exampleListener.ActsOnSubscribes
      .init [exampleDatagram, ⟨ack.data, ("127.0.0.1", 40001)⟩] := by
  have hsent : (exampleListener.run .init [exampleDatagram]).sent =
      [⟨("127.0.0.1", 30490), ackMessage 1 exampleSubscribe⟩] := by decide +kernel
  refine ⟨_, hsent ▸ List.mem_singleton_self _, fun h => ?_⟩
  have hle := h.sent_le
  revert hle
  decide +kernel

end SdListener

end AutoEth
