import AutoEth.Listener
import Mathlib.Data.Finset.Basic

/-!
# The registry and its history

An entry concerns one endpoint of one eventgroup, the first UDP endpoint among its options, and decides
by its ttl whether the endpoint is registered; everything else stays as it is. What an entry does to the
endpoints of an eventgroup is a function of these alone (`SdListener.effect`), and the effects of entries
for different endpoints commute. `registry_history`: after any run the last entry for an endpoint says
whether it is registered, and the order of the other entries does not matter.
-/

namespace AutoEth

namespace EventgroupEntry

/-- The first UDP endpoint option. -/
def endpoint? (entry : EventgroupEntry) : Option Endpoint := entry.options.findSome? SdOption.udpEndpoint?

/-- The entry is for the eventgroup, and its first UDP endpoint option is `ep`, with a port. -/
def IsFor (entry : EventgroupEntry) (svcId egid : Int) (ep : Endpoint) : Prop :=
  entry.key = (svcId, egid) ∧ entry.endpoint? = some ep ∧ ep.2 ≠ 0

instance (entry : EventgroupEntry) (svcId egid : Int) (ep : Endpoint) :
    Decidable (entry.IsFor svcId egid ep) := by unfold IsFor; infer_instance

variable {entry : EventgroupEntry} {addr ep : Endpoint}

theorem subscriber_of_endpoint? (h : entry.endpoint? = some ep) : entry.subscriber addr = ep := by
  rw [subscriber, show entry.options.findSome? SdOption.udpEndpoint? = some ep from h, Option.getD_some]

theorem subscriber_of_no_endpoint (h : entry.endpoint? = none) : (entry.subscriber addr).2 = 0 := by
  rw [subscriber, show entry.options.findSome? SdOption.udpEndpoint? = none from h, Option.getD_none]

end EventgroupEntry

namespace SdListener

/-- What an entry with the endpoint `ep` does to the endpoints of its eventgroup, where there are any. -/
def change (entry : EventgroupEntry) (ep : Endpoint) (subs : Option (Finset Endpoint)) :
    Option (Finset Endpoint) :=
  if entry.ttl = ttlStop then subs.map fun eps => eps.erase ep else some (insert ep (subs.getD ∅))

/-- What an entry does to the endpoints of an eventgroup. -/
def effect (l : SdListener) (entry : EventgroupEntry) (key : Int × Int) (subs : Option (Finset Endpoint)) :
    Option (Finset Endpoint) :=
  match entry.endpoint? with
  | none => subs
  | some ep => if l.Serves entry.key ∧ key = entry.key ∧ ep.2 ≠ 0 then change entry ep subs else subs

/-- The entries with their sources, one after another. -/
def handleSubscribes (l : SdListener) (s : State) (es : List (EventgroupEntry × Endpoint)) : State :=
  es.foldl (fun s e => l.handleSubscribe s e.1 e.2) s

variable {l : SdListener} {s : State} {entry entry' : EventgroupEntry} {addr ep : Endpoint} {svcId egid : Int}
  {key : Int × Int}

theorem get?_subscribe (r : SubscriberRegistry) (ip : String) (port : Int) :
    (r.subscribe svcId egid ip port).subs.get? key =
      if key = (svcId, egid) then some (insert (ip, port) ((r.subs.get? key).getD ∅)) else r.subs.get? key := by
  rw [SubscriberRegistry.subscribe, Dict.get?_set]
  split_ifs with hkey
  · rw [hkey, Dict.getD]
  · rfl

theorem get?_unsubscribe (r : SubscriberRegistry) (ip : String) (port : Int) :
    (r.unsubscribe svcId egid ip port).subs.get? key =
      if key = (svcId, egid) then (r.subs.get? key).map fun eps => eps.erase (ip, port)
      else r.subs.get? key := by
  unfold SubscriberRegistry.unsubscribe
  cases hsubs : r.subs.get? (svcId, egid) with
  | none =>
    split_ifs with hkey
    · rw [hkey, hsubs]
      rfl
    · rfl
  | some eps =>
    dsimp only
    rw [Dict.get?_set]
    split_ifs with hkey
    · rw [hkey, hsubs]
      rfl
    · rfl

theorem registry_handleSubscribe (hserves : l.Serves entry.key) :
    (l.handleSubscribe s entry addr).registry =
      let sub := entry.subscriber addr
      if sub.2 = 0 then s.registry
      else if entry.ttl = ttlStop then
        s.registry.unsubscribe entry.serviceId entry.eventgroupId sub.1 sub.2
      else s.registry.subscribe entry.serviceId entry.eventgroupId sub.1 sub.2 := by
  obtain ⟨r, hr⟩ := Option.isSome_iff_exists.1 (Dict.get?_isSome.2 hserves)
  unfold handleSubscribe
  rw [hr]
  dsimp only
  by_cases hport : (entry.subscriber addr).2 = 0
  · rw [if_neg (not_not.2 hport), if_neg (not_not.2 hport), if_pos hport]
    split_ifs
    · rfl
    · rfl
  · rw [if_pos hport, if_pos hport, if_neg hport]
    split_ifs
    · rfl
    · rfl

theorem get?_handleSubscribe : (l.handleSubscribe s entry addr).registry.subs.get? key =
    l.effect entry key (s.registry.subs.get? key) := by
  unfold effect
  by_cases hserves : l.Serves entry.key
  · rw [registry_handleSubscribe hserves]
    dsimp only
    cases hep : entry.endpoint? with
    | none => rw [EventgroupEntry.subscriber_of_no_endpoint hep, if_pos rfl]
    | some ep =>
      rw [EventgroupEntry.subscriber_of_endpoint? hep]
      by_cases hport : ep.2 = 0
      · rw [if_pos hport]
        exact (if_neg fun h => h.2.2 hport).symm
      · have hiff : l.Serves entry.key ∧ key = entry.key ∧ ep.2 ≠ 0 ↔
            key = (entry.serviceId, entry.eventgroupId) :=
          ⟨fun h => h.2.1, fun h => ⟨hserves, h, hport⟩⟩
        simp only [hiff, change, if_neg hport]
        split_ifs with hstop hkey hkey
        · rw [get?_unsubscribe, if_pos hkey]
        · rw [get?_unsubscribe, if_neg hkey]
        · rw [get?_subscribe, if_pos hkey]
        · rw [get?_subscribe, if_neg hkey]
  · rw [handleSubscribe_of_not_serves hserves]
    cases entry.endpoint? with
    | none => rfl
    | some ep => exact (if_neg fun h => hserves h.1).symm

theorem change_comm {ep ep' : Endpoint} (h : ep ≠ ep') (subs : Option (Finset Endpoint)) :
    change entry ep (change entry' ep' subs) = change entry' ep' (change entry ep subs) := by
  unfold change
  split_ifs
  · cases subs with
    | none => rfl
    | some eps => exact congrArg some (Finset.erase_right_comm ..)
  · cases subs with
    | none => exact congrArg some (Finset.erase_insert_of_ne h.symm)
    | some eps => exact congrArg some (Finset.erase_insert_of_ne h.symm)
  · cases subs with
    | none => exact congrArg some (Finset.erase_insert_of_ne (s := ∅) h).symm
    | some eps => exact congrArg some (Finset.erase_insert_of_ne h).symm
  · exact congrArg some (Finset.insert_comm ..)

/-- The effects of entries for different eventgroups or endpoints commute. -/
theorem effect_comm (h : entry.key ≠ entry'.key ∨ entry.endpoint? ≠ entry'.endpoint?)
    (subs : Option (Finset Endpoint)) :
    l.effect entry key (l.effect entry' key subs) = l.effect entry' key (l.effect entry key subs) := by
  unfold effect
  cases hep : entry.endpoint? with
  | none => rfl
  | some ep =>
    cases hep' : entry'.endpoint? with
    | none => rfl
    | some ep' =>
      dsimp only
      split_ifs with hc' hc hc
      · refine change_comm ?_ subs
        rintro rfl
        rcases h with h | h
        · exact h (hc'.2.1.symm.trans hc.2.1)
        · exact h (hep.trans hep'.symm)
      · rfl
      · rfl
      · rfl

theorem get?_handleSubscribes (es : List (EventgroupEntry × Endpoint)) :
    (l.handleSubscribes s es).registry.subs.get? key =
      es.foldl (fun subs e => l.effect e.1 key subs) (s.registry.subs.get? key) := by
  induction es generalizing s with
  | nil => rfl
  | cons e es ih =>
    rw [List.foldl_cons, ← get?_handleSubscribe]
    exact ih

/-- An entry decides about its endpoint in a served eventgroup, and about nothing else. -/
theorem mem_handleSubscribe_iff (e : EventgroupEntry × Endpoint) (hserves : l.Serves (svcId, egid)) :
    ep ∈ (l.handleSubscribe s e.1 e.2).registry.getSubscribers svcId egid ↔
      if decide (e.1.IsFor svcId egid ep) then e.1.ttl ≠ ttlStop
      else ep ∈ s.registry.getSubscribers svcId egid := by
  have hiff : l.Concerns e.1 e.2 svcId egid ep ↔ e.1.IsFor svcId egid ep := by
    constructor
    · rintro ⟨-, hkey, rfl, hport⟩
      cases hep : e.1.endpoint? with
      | none => exact absurd (EventgroupEntry.subscriber_of_no_endpoint hep) hport
      | some ep =>
        rw [EventgroupEntry.subscriber_of_endpoint? hep] at hport ⊢
        exact ⟨hkey.symm, hep, hport⟩
    · rintro ⟨hkey, hep, hport⟩
      exact ⟨hkey ▸ hserves, hkey.symm, (EventgroupEntry.subscriber_of_endpoint? hep).symm, hport⟩
  rw [mem_handleSubscribe]
  simp only [hiff, decide_eq_true_iff]

theorem mem_handleSubscribes (hserves : l.Serves (svcId, egid)) (es : List (EventgroupEntry × Endpoint)) :
    ep ∈ (l.handleSubscribes s es).registry.getSubscribers svcId egid ↔
      (es.filter fun e => e.1.IsFor svcId egid ep).getLast?.elim
        (ep ∈ s.registry.getSubscribers svcId egid) fun e => e.1.ttl ≠ ttlStop :=
  Run.foldl_last (I := fun s : State => ep ∈ s.registry.getSubscribers svcId egid)
    (fun _ e => mem_handleSubscribe_iff e hserves) s es

theorem getSubscribers_handleSubscribes_of_not_serves (hserves : ¬ l.Serves (svcId, egid))
    (es : List (EventgroupEntry × Endpoint)) :
    (l.handleSubscribes s es).registry.getSubscribers svcId egid = s.registry.getSubscribers svcId egid := by
  refine Run.foldl_inv
    (I := fun s' : State => s'.registry.getSubscribers svcId egid = s.registry.getSubscribers svcId egid)
    (fun t ht hpre => ?_) rfl
  rw [Run.post_eq ht, ← hpre]
  refine Finset.ext fun ep => ?_
  rw [mem_handleSubscribe, if_neg]
  rintro ⟨hkey, heq, -⟩
  exact hserves (heq ▸ hkey)

/-- The registry after any run, from an empty one. -/
theorem registry_history (l : SdListener) (seq : Int) (sent : List Packet) :
    (∀ es svcId egid ep,
      ep ∈ (l.handleSubscribes ⟨.empty, seq, sent⟩ es).registry.getSubscribers svcId egid ↔
        l.Serves (svcId, egid) ∧
          ∃ e ∈ (es.filter fun e => e.1.IsFor svcId egid ep).getLast?, e.1.ttl ≠ ttlStop) ∧
    (∀ s entry addr, (∀ ep, entry.endpoint? = some ep → ep.2 = 0) ∨ ¬ l.Serves entry.key →
      (l.handleSubscribe s entry addr).registry = s.registry) ∧
    ∀ pre e e' post, e.1.key ≠ e'.1.key ∨ e.1.endpoint? ≠ e'.1.endpoint? → ∀ key,
      (l.handleSubscribes ⟨.empty, seq, sent⟩ (pre ++ e :: e' :: post)).registry.subs.get? key =
        (l.handleSubscribes ⟨.empty, seq, sent⟩ (pre ++ e' :: e :: post)).registry.subs.get? key := by
  refine ⟨fun es svcId egid ep => ?_, fun s entry addr h => ?_, fun pre e e' post h key => ?_⟩
  · have hempty : ep ∉ SubscriberRegistry.empty.getSubscribers svcId egid := Finset.notMem_empty ep
    by_cases hserves : l.Serves (svcId, egid)
    · rw [mem_handleSubscribes hserves, and_iff_right hserves]
      cases (es.filter fun e => e.1.IsFor svcId egid ep).getLast? with
      | none =>
        refine iff_of_false hempty ?_
        rintro ⟨e, he, -⟩
        cases he
      | some e => simp
    · rw [getSubscribers_handleSubscribes_of_not_serves hserves]
      exact iff_of_false hempty fun h => hserves h.1
  · by_cases hserves : l.Serves entry.key
    · have hport : (entry.subscriber addr).2 = 0 := by
        cases hep : entry.endpoint? with
        | none => exact EventgroupEntry.subscriber_of_no_endpoint hep
        | some ep =>
          rw [EventgroupEntry.subscriber_of_endpoint? hep]
          rcases h with h | h
          · exact h ep hep
          · exact absurd hserves h
      rw [registry_handleSubscribe hserves]
      exact if_pos hport
    · rw [handleSubscribe_of_not_serves hserves]
  · rw [get?_handleSubscribes, get?_handleSubscribes, List.foldl_append, List.foldl_append,
      List.foldl_cons, List.foldl_cons, List.foldl_cons, List.foldl_cons, effect_comm h]

end SdListener

end AutoEth
