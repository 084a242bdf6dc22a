import AutoEth.Subscription
import Mathlib.Logic.Function.Basic

/-!
# Runs of clients and a node

A `Sys` is any number of clients and one node. A call of a client's `toggle_sub` or `stop_all` changes
its table and hands the datagrams that it sends to the node, each once and in order.

A stop names no endpoint, so the node takes nothing out, and a start names the client's endpoint as it is on
the wire, with 127.0.0.1 in the place of 0.0.0.0. Hence the registry agrees with the tables (`Sys.Exact`) all
along a run exactly when every call keeps each endpoint in use that it stops using, and every subscribe names
the endpoint that the client has, or both are in use already (`exact_states_iff`).
-/

namespace AutoEth

structure Sys (ι : Type*) where
  clients : ι → ClientContext
  node : SdListener.State

inductive Call (ι : Type*) where
  | toggle (i : ι) (event : MessageDef)
  | stopAll (i : ι)

namespace Sys
variable {ι : Type*}

/-- Clients of one catalog without subscriptions, and a node without subscribers. -/
def init (cat : Catalog) (sdGroup : String) (sdPort : Int) (bindIp ifaceIp : ι → String) : Sys ι where
  clients i := {
    cat, sigIndex := .fromSignals cat.signals, ifaceIp := ifaceIp i, sdGroup, sdPort, bindIp := bindIp i, subs := ∅ }
  node := .init

variable [DecidableEq ι]

/-- The client is left by its call, and the node gets the datagrams in the order they were sent in. -/
def put {α : Type} (l : SdListener) (addr : Endpoint) (s : Sys ι) (i : ι) (o : Outcome α) : Sys ι where
  clients := Function.update s.clients i o.ctx
  node := (o.sent.map fun p => ⟨p.data, addr⟩).foldl l.receive s.node

/-- A call of the client `i`, which sends from `src i`. -/
def call (l : SdListener) (src : ι → Endpoint) (s : Sys ι) : Call ι → Sys ι
  | .toggle i event => s.put l (src i) i ((s.clients i).toggleSub event)
  | .stopAll i => s.put l (src i) i (s.clients i).stopAll

end Sys

namespace Sys
variable {ι : Type*}

/-- The client is subscribed to the unicast event, and gets it at the endpoint. -/
def Uses (cat : Catalog) (s : Sys ι) (svcId egid : Int) (ep : Endpoint) (i : ι) (e : MessageDef) : Prop :=
  (s.clients i).isSubscribed e.name = true ∧
    ∃ port, UnicastEvent cat e svcId egid port ∧ ep = (s.clients i).endpoint port

def InUse (cat : Catalog) (s : Sys ι) (svcId egid : Int) (ep : Endpoint) : Prop :=
  ∃ i e, s.Uses cat svcId egid ep i e

/-- The node has registered the endpoints in use, and no others. -/
def Exact (cat : Catalog) (s : Sys ι) : Prop :=
  ∀ svcId egid ep, ep ∈ s.node.registry.getSubscribers svcId egid ↔ s.InUse cat svcId egid ep

/-- The subscriptions that a call ends. -/
def Drops (s : Sys ι) : Call ι → ι → MessageDef → Prop
  | .toggle i event, j, e =>
    j = i ∧ e.name = event.name ∧ (s.clients i).isSubscribed event.name = true
  | .stopAll i, j, _ => j = i

/-- What holds in every state: the tables list events of the catalog, the registry has ports of 16 bits. -/
structure Ok (cat : Catalog) (s : Sys ι) : Prop where
  catalog : ∀ i, (s.clients i).cat = cat
  sigIndex : ∀ i, (s.clients i).sigIndex = .fromSignals cat.signals
  names : ∀ i, ∀ name ∈ (s.clients i).subs.keys, (s.clients i).CanStop name
  ports : ∀ svcId egid ep, ep ∈ s.node.registry.getSubscribers svcId egid → ep.2 < 2 ^ 16

/-- The event of a call is one of the catalog. -/
def CallOf (cat : Catalog) : Call ι → Prop
  | .toggle _ event => event ∈ cat.messages ∧ event.isUdpEvent = true
  | .stopAll _ => True

/-- Every endpoint whose use the call ends stays in use, and where it sends a subscribe, this names the endpoint
of the client, or both are in use already. -/
structure KeepsExact (cat : Catalog) (s : Sys ι) (c : Call ι) : Prop where
  inUse : ∀ svcId egid ep j e, s.Drops c j e → s.Uses cat svcId egid ep j e →
    ∃ j' e', ¬ s.Drops c j' e' ∧ s.Uses cat svcId egid ep j' e'
  named : ∀ i e, c = .toggle i e → (s.clients i).isSubscribed e.name = false → (s.clients i).CanSubscribe →
    ∀ svcId egid port, UnicastEvent cat e svcId egid port →
      (s.clients i).namedEndpoint (port % 2 ^ 16) = (s.clients i).endpoint port ∨
        s.InUse cat svcId egid ((s.clients i).endpoint port) ∧
          s.InUse cat svcId egid ((s.clients i).namedEndpoint (port % 2 ^ 16))

/-! ### What a call does to the uses -/

section Catalog
variable {cat : Catalog} {s s' : Sys ι}

/-- A call that ends the uses `R` and leaves the registry keeps it exact when the endpoints stay in use. -/
theorem exact_iff_of_drop {R : ι → MessageDef → Prop} (hexact : s.Exact cat)
    (hreg : s'.node.registry.getSubscribers = s.node.registry.getSubscribers)
    (huses : ∀ svcId egid ep j e, s'.Uses cat svcId egid ep j e ↔
      s.Uses cat svcId egid ep j e ∧ ¬ R j e) :
    s'.Exact cat ↔ ∀ svcId egid ep j e, R j e → s.Uses cat svcId egid ep j e →
      ∃ j' e', ¬ R j' e' ∧ s.Uses cat svcId egid ep j' e' := by
  constructor
  · intro h svcId egid ep j e _ huse
    have hmem : ep ∈ s'.node.registry.getSubscribers svcId egid := by
      rw [hreg]
      exact (hexact svcId egid ep).2 ⟨j, e, huse⟩
    obtain ⟨j', e', huse'⟩ := (h svcId egid ep).1 hmem
    obtain ⟨huse', hkept⟩ := (huses ..).1 huse'
    exact ⟨j', e', hkept, huse'⟩
  · intro h svcId egid ep
    rw [hreg, hexact svcId egid ep]
    constructor
    · rintro ⟨j, e, huse⟩
      by_cases hR : R j e
      · obtain ⟨j', e', hkept, huse'⟩ := h svcId egid ep j e hR huse
        exact ⟨j', e', (huses ..).2 ⟨huse', hkept⟩⟩
      · exact ⟨j, e, (huses ..).2 ⟨huse, hR⟩⟩
    · rintro ⟨j, e, huse⟩
      exact ⟨j, e, ((huses ..).1 huse).1⟩

/-- A call that starts the use of the endpoint `own` and has `named` registered keeps the registry exact when
they are one endpoint, or both were in use. -/
theorem exact_iff_of_start {svcId egid : Int} {own named : Endpoint} (hexact : s.Exact cat) (hpos : 0 < own.2)
    (hwire : named.2 = own.2 % 2 ^ 16)
    (hports : ∀ svcId egid ep, ep ∈ s.node.registry.getSubscribers svcId egid → ep.2 < 2 ^ 16)
    (hreg : ∀ svcId' egid' ep, ep ∈ s'.node.registry.getSubscribers svcId' egid' ↔
      ((svcId', egid') = (svcId, egid) ∧ ep = named ∧ ep.2 ≠ 0) ∨
        ep ∈ s.node.registry.getSubscribers svcId' egid')
    (huses : ∀ svcId' egid' ep, s'.InUse cat svcId' egid' ep ↔
      ((svcId', egid') = (svcId, egid) ∧ ep = own) ∨ s.InUse cat svcId' egid' ep) :
    s'.Exact cat ↔ named = own ∨ s.InUse cat svcId egid own ∧ s.InUse cat svcId egid named := by
  constructor
  · intro h
    by_cases heq : named = own
    · exact .inl heq
    right
    have hmem : own ∈ s.node.registry.getSubscribers svcId egid := by
      rcases (hreg ..).1 ((h svcId egid own).2 ((huses ..).2 (.inl ⟨rfl, rfl⟩))) with ⟨-, hown, -⟩ | hmem
      · exact absurd hown.symm heq
      · exact hmem
    -- so the port has 16 bits, and the other endpoint has a port as well
    have hlt := hports svcId egid own hmem
    have hne : named.2 ≠ 0 := by omega
    refine ⟨(hexact ..).1 hmem, ?_⟩
    rcases (huses ..).1 ((h svcId egid named).1 ((hreg ..).2 (.inl ⟨rfl, rfl, hne⟩))) with ⟨-, hown⟩ | huse
    · exact absurd hown heq
    · exact huse
  · rintro h svcId' egid' ep
    rw [hreg, huses, hexact]
    rcases h with rfl | ⟨hown, hnamed⟩
    · refine or_congr_left (and_congr_right fun _ => and_iff_left_of_imp ?_)
      rintro rfl
      exact hpos.ne'
    · have hold (ep' : Endpoint) (huse : s.InUse cat svcId egid ep') :
          (svcId', egid') = (svcId, egid) ∧ ep = ep' → s.InUse cat svcId' egid' ep := by
        rintro ⟨hkey, rfl⟩
        cases hkey
        exact huse
      rw [or_iff_right_of_imp (hold own hown), or_iff_right_of_imp fun hep => hold named hnamed ⟨hep.1, hep.2.1⟩]

theorem uses_iff {svcId egid : Int} {ep : Endpoint} {j : ι} {e : MessageDef} :
    s.Uses cat svcId egid ep j e ↔ e.name ∈ (s.clients j).subs.keys ∧
      ∃ port, UnicastEvent cat e svcId egid port ∧ ep = (s.clients j).endpoint port := by
  rw [Uses, ClientContext.isSubscribed_iff]

variable {e : MessageDef} {i : ι}

theorem names_set (h : s.Ok cat) (hstop : (s.clients i).CanStop e.name) {sub : EventSubscription} :
    ∀ name ∈ ((s.clients i).subs.set e.name sub).keys, (s.clients i).CanStop name := by
  intro name hname
  rcases (Dict.mem_keys_set ..).1 hname with rfl | hname
  · exact hstop
  · exact h.names i name hname

theorem keepsExact_of_start (hsub : (s.clients i).isSubscribed e.name = false)
    (hnamed : (s.clients i).CanSubscribe → ∀ svcId egid port, UnicastEvent cat e svcId egid port →
      (s.clients i).namedEndpoint (port % 2 ^ 16) = (s.clients i).endpoint port ∨
        s.InUse cat svcId egid ((s.clients i).endpoint port) ∧
          s.InUse cat svcId egid ((s.clients i).namedEndpoint (port % 2 ^ 16))) :
    s.KeepsExact cat (.toggle i e) := by
  refine ⟨fun svcId egid ep j e' hdrop _ => ?_, fun i' e' hc _ => ?_⟩
  · obtain ⟨-, -, hstop⟩ := hdrop
    rw [hstop] at hsub
    cases hsub
  · cases hc
    exact hnamed

theorem ok_init (cat : Catalog) (sdGroup : String) (sdPort : Int) (bindIp ifaceIp : ι → String) :
    (init cat sdGroup sdPort bindIp ifaceIp).Ok cat :=
  ⟨fun _ => rfl, fun _ => rfl, fun _ _ hname => (nomatch hname), fun _ _ _ hep => nomatch hep⟩

theorem exact_init (cat : Catalog) (sdGroup : String) (sdPort : Int) (bindIp ifaceIp : ι → String) :
    (init cat sdGroup sdPort bindIp ifaceIp).Exact cat := by
  intro svcId egid ep
  refine iff_of_false (fun hep => nomatch hep) ?_
  rintro ⟨i, e, hsub, -⟩
  cases hsub

variable [DecidableEq ι] {l : SdListener} {addr : Endpoint} {α : Type} {o : Outcome α}

theorem registry_put_nameless (h : ∀ p ∈ o.sent, p.Nameless) :
    (s.put l addr i o).node.registry.getSubscribers = s.node.registry.getSubscribers := by
  refine SdListener.getSubscribers_foldl_receive_nameless fun d hd => ?_
  obtain ⟨p, hp, rfl⟩ := List.mem_map.1 hd
  exact h p hp

theorem uses_put {subs : Dict String EventSubscription} (hctx : o.ctx = { s.clients i with subs })
    {svcId egid : Int} {ep : Endpoint} {j : ι} {e : MessageDef} :
    (s.put l addr i o).Uses cat svcId egid ep j e ↔
      (if j = i then e.name ∈ subs.keys else e.name ∈ (s.clients j).subs.keys) ∧
        ∃ port, UnicastEvent cat e svcId egid port ∧ ep = (s.clients j).endpoint port := by
  unfold Uses put
  dsimp only
  rw [ClientContext.isSubscribed_iff, hctx]
  by_cases hj : j = i
  · subst hj
    rw [Function.update_self, if_pos rfl]
    rfl
  · rw [Function.update_of_ne hj, if_neg hj]

theorem Ok.put (h : s.Ok cat) {subs : Dict String EventSubscription}
    (hctx : o.ctx = { s.clients i with subs })
    (hnames : ∀ name ∈ subs.keys, (s.clients i).CanStop name)
    (hports : ∀ svcId egid ep, ep ∈ (s.put l addr i o).node.registry.getSubscribers svcId egid →
      ep.2 < 2 ^ 16) : (s.put l addr i o).Ok cat := by
  have hclient (j : ι) : (s.put l addr i o).clients j =
      if j = i then { s.clients i with subs } else s.clients j := by
    show Function.update s.clients i o.ctx j = _
    rw [hctx, Function.update_apply]
  refine ⟨fun j => ?_, fun j => ?_, fun j => ?_, hports⟩
  all_goals rw [hclient]; split_ifs
  · exact h.catalog i
  · exact h.catalog j
  · exact h.sigIndex i
  · exact h.sigIndex j
  · exact hnames
  · exact h.names j

/-- What is proved of a call. -/
structure CallSpec (cat : Catalog) (s s' : Sys ι) (c : Call ι) : Prop where
  ok : s'.Ok cat
  exact : s.Exact cat → (s'.Exact cat ↔ s.KeepsExact cat c)

theorem callSpec_of_drop {c : Call ι} (h : s.Ok cat) {subs : Dict String EventSubscription}
    (hctx : o.ctx = { s.clients i with subs }) (hsent : ∀ p ∈ o.sent, p.Nameless)
    (hdrops : ∀ j e, e.name ∈ (s.clients j).subs.keys →
      (¬ s.Drops c j e ↔ if j = i then e.name ∈ subs.keys else True))
    (hsub : ∀ name ∈ subs.keys, name ∈ (s.clients i).subs.keys)
    (hstart : ∀ i e, c = .toggle i e → (s.clients i).isSubscribed e.name = true) :
    CallSpec cat s (s.put l addr i o) c := by
  have hreg : (s.put l addr i o).node.registry.getSubscribers = s.node.registry.getSubscribers :=
    registry_put_nameless hsent
  refine ⟨h.put hctx (fun name hname => h.names i name (hsub name hname)) fun svcId egid ep hep => ?_,
    fun hexact => ?_⟩
  · rw [hreg] at hep
    exact h.ports svcId egid ep hep
  · have huses : ∀ svcId egid ep j e, (s.put l addr i o).Uses cat svcId egid ep j e ↔
        s.Uses cat svcId egid ep j e ∧ ¬ s.Drops c j e := by
      intro svcId egid ep j e
      rw [uses_put hctx, uses_iff]
      by_cases hname : e.name ∈ (s.clients j).subs.keys
      · rw [hdrops j e hname]
        split_ifs <;> tauto
      · have hno : ¬ (if j = i then e.name ∈ subs.keys else e.name ∈ (s.clients j).subs.keys) := by
          split_ifs with hj
          · exact fun hmem => hname (hj ▸ hsub _ hmem)
          · exact hname
        tauto
    rw [exact_iff_of_drop hexact hreg huses]
    constructor
    · intro hkept
      refine ⟨hkept, fun i e hc hno => ?_⟩
      rw [hstart i e hc] at hno
      cases hno
    · exact KeepsExact.inUse

theorem callSpec_of_quiet {c : Call ι} (h : s.Ok cat) {subs : Dict String EventSubscription}
    (hctx : o.ctx = { s.clients i with subs }) (hsent : ∀ p ∈ o.sent, p.Nameless)
    (hnames : ∀ name ∈ subs.keys, (s.clients i).CanStop name)
    (huses : ∀ svcId egid ep j e, (s.put l addr i o).Uses cat svcId egid ep j e ↔
      s.Uses cat svcId egid ep j e) (hkeeps : s.KeepsExact cat c) :
    CallSpec cat s (s.put l addr i o) c := by
  have hreg : (s.put l addr i o).node.registry.getSubscribers = s.node.registry.getSubscribers :=
    registry_put_nameless hsent
  refine ⟨h.put hctx hnames fun svcId egid ep hep => ?_, fun hexact => ?_⟩
  · rw [hreg] at hep
    exact h.ports svcId egid ep hep
  · refine iff_of_true (fun svcId egid ep => ?_) hkeeps
    rw [hreg, hexact svcId egid ep]
    exact exists_congr fun j => exists_congr fun e => (huses svcId egid ep j e).symm

variable {events : UdpEvents} {sdPort : Int} {src : ι → Endpoint}

theorem callSpec_toggle_stop (hcat : cat.Valid)
    (hevents : buildUdpEvents cat (.fromSignals cat.signals) = .ok events) (h : s.Ok cat)
    (he : e ∈ cat.messages) (hkind : e.isUdpEvent = true)
    (hsub : (s.clients i).isSubscribed e.name = true) :
    CallSpec cat s (s.call l src (.toggle i e)) (.toggle i e) := by
  obtain ⟨mode, svcId, egid, port, hreads, -, -⟩ := exists_readsEvent hcat hevents he hkind 0
  have hstop := h.names i e.name (ClientContext.isSubscribed_iff.1 hsub)
  obtain ⟨sent, htoggle, hsent⟩ := ClientContext.toggleSub_stop (h.catalog i) hreads
    (hstop.sdPort hcat (h.catalog i) he hreads) hsub
  rw [call, htoggle]
  refine callSpec_of_drop h rfl hsent (fun j e' hname => ?_) (fun name hname => ?_) fun i' e' hc => ?_
  · unfold Drops
    by_cases hj : j = i
    · subst hj
      rw [if_pos rfl, Dict.mem_keys_erase]
      tauto
    · rw [if_neg hj]
      tauto
  · exact (Dict.mem_keys_erase.1 hname).1
  · cases hc
    exact hsub

theorem callSpec_stopAll (hcat : cat.Valid)
    (hevents : buildUdpEvents cat (.fromSignals cat.signals) = .ok events) (h : s.Ok cat) :
    CallSpec cat s (s.call l src (.stopAll i)) (.stopAll i) := by
  obtain ⟨subs, hctx, hkeys, hsent⟩ := ClientContext.stopNames_spec hcat hevents
    (s.clients i).subs.nodup (h.catalog i) (fun _ hname => hname) (h.names i)
  refine callSpec_of_drop h hctx hsent (fun j e' hname => ?_) (fun name hname => ?_) fun i' e' hc => ?_
  · unfold Drops
    by_cases hj : j = i
    · subst hj
      rw [if_pos rfl, hkeys]
      exact iff_of_false (fun hno => hno rfl) fun hmem => hmem.2 hname
    · rw [if_neg hj]
      exact iff_of_true hj trivial
  · exact ((hkeys name).1 hname).1
  · cases hc

theorem callSpec_start_multicast (hcat : cat.Valid) (h : s.Ok cat) (he : e ∈ cat.messages)
    (hkind : e.isUdpEvent = true) {svcId egid port : Int}
    (hreads : ReadsEvent cat e "multicast" svcId egid port)
    (hsub : (s.clients i).isSubscribed e.name = false) :
    CallSpec cat s (s.call l src (.toggle i e)) (.toggle i e) := by
  have hno {svcId' egid' port' : Int} : ¬ UnicastEvent cat e svcId' egid' port' :=
    fun hunicast => (hunicast.mode_ne hreads) rfl
  obtain ⟨sub, htoggle⟩ := ClientContext.toggleSub_multicast (h.catalog i) (h.sigIndex i) hreads hsub
  have hstop : (s.clients i).CanStop e.name := ⟨e, (h.catalog i).symm ▸ he, hkind, rfl, .inl hreads.mode⟩
  rw [call, htoggle]
  refine callSpec_of_quiet h rfl (fun _ hp => nomatch hp) (names_set h hstop)
    (fun svcId' egid' ep j e' => ?_) (keepsExact_of_start hsub fun _ _ _ _ h' => absurd h' hno)
  rw [uses_put rfl, uses_iff]
  refine and_congr_left fun ⟨port', hunicast, _⟩ => ?_
  split_ifs with hj
  · rw [hj, Dict.mem_keys_set, or_iff_right]
    intro hname
    rw [List.inj_on_of_nodup_map hcat.message_names hunicast.mem he hname] at hunicast
    exact hno hunicast
  · exact Iff.rfl

theorem callSpec_start_refused (h : s.Ok cat) {mode : String} {svcId egid port : Int}
    (hreads : ReadsEvent cat e mode svcId egid port) (hmode : mode ≠ "multicast")
    (hsub : (s.clients i).isSubscribed e.name = false)
    (hcan : ¬ (s.clients i).CanSubscribe) :
    CallSpec cat s (s.call l src (.toggle i e)) (.toggle i e) := by
  obtain ⟨err, htoggle⟩ := ClientContext.toggleSub_refused (h.catalog i) hreads hmode hsub hcan
  have hself : s.clients i = { s.clients i with subs := (s.clients i).subs } := rfl
  rw [call, htoggle]
  refine callSpec_of_quiet h hself (fun _ hp => nomatch hp) (h.names i)
    (fun svcId' egid' ep j e' => ?_) (keepsExact_of_start hsub fun hcan' => absurd hcan' hcan)
  rw [uses_put hself, uses_iff]
  split_ifs with hj
  · rw [hj]
  · exact Iff.rfl

theorem inUse_put_set (hcat : cat.Valid) {svcId egid port : Int}
    (hunicast : UnicastEvent cat e svcId egid port) {sub : EventSubscription}
    (hctx : o.ctx = { s.clients i with subs := (s.clients i).subs.set e.name sub })
    {svcId' egid' : Int} {ep : Endpoint} :
    (s.put l addr i o).InUse cat svcId' egid' ep ↔
      ((svcId', egid') = (svcId, egid) ∧ ep = (s.clients i).endpoint port) ∨ s.InUse cat svcId' egid' ep := by
  constructor
  · rintro ⟨j, e', huse⟩
    obtain ⟨hmem, port', hunicast', rfl⟩ := (uses_put hctx).1 huse
    split_ifs at hmem with hj
    · rcases (Dict.mem_keys_set ..).1 hmem with hname | hmem
      · rw [List.inj_on_of_nodup_map hcat.message_names hunicast'.mem hunicast.mem hname] at hunicast'
        obtain ⟨rfl, rfl, rfl⟩ := hunicast'.unique hunicast
        exact .inl ⟨rfl, hj ▸ rfl⟩
      · exact .inr ⟨j, e', uses_iff.2 ⟨hj ▸ hmem, port', hunicast', rfl⟩⟩
    · exact .inr ⟨j, e', uses_iff.2 ⟨hmem, port', hunicast', rfl⟩⟩
  · rintro (⟨heq, rfl⟩ | ⟨j, e', huse⟩)
    · cases heq
      refine ⟨i, e, (uses_put hctx).2 ⟨?_, port, hunicast, rfl⟩⟩
      rw [if_pos rfl]
      exact (Dict.mem_keys_set ..).2 (.inl rfl)
    · obtain ⟨hmem, port', hunicast', rfl⟩ := uses_iff.1 huse
      refine ⟨j, e', (uses_put hctx).2 ⟨?_, port', hunicast', rfl⟩⟩
      split_ifs with hj
      · exact (Dict.mem_keys_set ..).2 (.inr (hj ▸ hmem))
      · exact hmem

theorem callSpec_start_unicast (hcat : cat.Valid) (h : s.Ok cat) {svcId egid port : Int}
    (hunicast : UnicastEvent cat e svcId egid port) (hids : FitsBits 16 svcId ∧ FitsBits 16 egid)
    {mode : String} (hreads : ReadsEvent cat e mode svcId egid port) (hpos : 0 < port)
    (hserves : l.Serves (svcId, egid)) (hsub : (s.clients i).isSubscribed e.name = false)
    (hcan : (s.clients i).CanSubscribe) :
    CallSpec cat s (s.call l src (.toggle i e)) (.toggle i e) := by
  obtain ⟨sub, data, hdata, htoggle⟩ := ClientContext.toggleSub_unicast (h.catalog i) (h.sigIndex i)
    hreads (hunicast.mode_ne hreads) hsub hcan
  have hstop : (s.clients i).CanStop e.name :=
    ⟨e, (h.catalog i).symm ▸ hunicast.mem, hunicast.kind, rfl, .inr hcan.port⟩
  rw [call, htoggle]
  set s' := s.put l (src i) i (⟨_, [⟨_, data⟩], .ok true⟩ : Outcome Bool) with hs'
  have hreg : ∀ svcId' egid' ep, ep ∈ s'.node.registry.getSubscribers svcId' egid' ↔
      ((svcId', egid') = (svcId, egid) ∧
        ep = (s.clients i).namedEndpoint (port % 2 ^ 16) ∧ ep.2 ≠ 0) ∨
      ep ∈ s.node.registry.getSubscribers svcId' egid' := by
    intro svcId' egid' ep
    have hkey : ((s.clients i).subscribeCall svcId egid port).wireKey = (svcId, egid) :=
      SubscribeCall.wireKey_eq_key hids.1 hids.2
    show ep ∈ (l.receive s.node ⟨data, src i⟩).registry.getSubscribers svcId' egid' ↔ _
    rw [SubscribeCall.mem_receive_request hdata, hkey]
    refine or_congr_left (and_iff_right_of_imp ?_)
    rintro ⟨heq, -⟩
    rw [heq]
    exact hserves
  refine ⟨h.put rfl (names_set h hstop) fun svcId' egid' ep hep => ?_,
    fun hexact => ?_⟩
  · rcases (hreg ..).1 hep with ⟨-, rfl, -⟩ | hep
    · exact Int.emod_lt_of_pos _ (by decide)
    · exact h.ports _ _ _ hep
  · rw [exact_iff_of_start hexact hpos rfl h.ports hreg fun _ _ _ => inUse_put_set hcat hunicast rfl]
    constructor
    · intro hnamed
      refine keepsExact_of_start hsub fun _ svcId' egid' port' hunicast' => ?_
      obtain ⟨rfl, rfl, rfl⟩ := hunicast'.unique hunicast
      exact hnamed
    · intro hkeeps
      exact hkeeps.named i e rfl hsub hcan svcId egid port hunicast

/-- Every call of the clients, by what it does. -/
theorem callSpec (hcat : cat.Valid)
    (hevents : buildUdpEvents cat (.fromSignals cat.signals) = .ok events)
    (hids : ∀ e svcId egid port, UnicastEvent cat e svcId egid port →
      FitsBits 16 svcId ∧ FitsBits 16 egid) {c : Call ι} (hc : CallOf cat c) (h : s.Ok cat) :
    CallSpec cat s (s.call (.ofEvents sdPort events) src c) c := by
  cases c with
  | stopAll i => exact callSpec_stopAll hcat hevents h
  | toggle i e =>
    obtain ⟨he, hkind⟩ := hc
    cases hsub : (s.clients i).isSubscribed e.name with
    | true => exact callSpec_toggle_stop hcat hevents h he hkind hsub
    | false =>
      obtain ⟨mode, svcId, egid, port, hreads, hpos, hserves⟩ :=
        exists_readsEvent hcat hevents he hkind sdPort
      by_cases hmode : mode = "multicast"
      · subst hmode
        exact callSpec_start_multicast hcat h he hkind hreads hsub
      · have hunicast : UnicastEvent cat e svcId egid port :=
          ⟨he, hkind, ⟨mode, hreads.mode, hmode⟩, hreads.svcId, hreads.egid, hreads.port⟩
        by_cases hcan : (s.clients i).CanSubscribe
        · exact callSpec_start_unicast hcat h hunicast (hids e svcId egid port hunicast) hreads hpos
            hserves hsub hcan
        · exact callSpec_start_refused h hreads hmode hsub hcan

/-- The registry is exact in every state of a run exactly when every call of the run keeps each endpoint in use
that it stops using, and names the endpoint that it starts to use, or one in use for one in use. -/
theorem exact_states_iff {doc : Value} (hload : loadCatalog doc = .ok cat)
    (hevents : buildUdpEvents cat (.fromSignals cat.signals) = .ok events)
    (hids : ∀ e svcId egid port, UnicastEvent cat e svcId egid port →
      FitsBits 16 svcId ∧ FitsBits 16 egid)
    {sdGroup : String} {bindIp ifaceIp : ι → String} {calls : List (Call ι)}
    (hcalls : ∀ c ∈ calls, CallOf cat c) :
    (∀ s ∈ Run.states (call (.ofEvents sdPort events) src) (init cat sdGroup sdPort bindIp ifaceIp) calls,
        s.Exact cat) ↔
      ∀ t ∈ Run.steps (call (.ofEvents sdPort events) src) (init cat sdGroup sdPort bindIp ifaceIp) calls,
        t.pre.KeepsExact cat t.input := by
  have hspec (s : Sys ι) (c : Call ι) (hc : CallOf cat c) (h : s.Ok cat) :
      CallSpec cat s (s.call (.ofEvents sdPort events) src c) c :=
    callSpec (.of_loadCatalog hload) hevents hids hc h
  exact Run.states_iff_steps (A := CallOf cat) (J := Ok cat) (I := Exact cat) (C := KeepsExact cat)
    (fun s c hc h => (hspec s c hc h).ok) (fun s c hc h => (hspec s c hc h).exact) hcalls
    (ok_init cat sdGroup sdPort bindIp ifaceIp) (exact_init cat sdGroup sdPort bindIp ifaceIp)

end Catalog

/-! ### An example -/

def exampleEvent : MessageDef := (findEvent exampleCatalog "powertrain_status_event").get (by decide +kernel)

theorem exampleEvent_mem : exampleEvent ∈ exampleCatalog.messages ∧ exampleEvent.isUdpEvent = true := by
  obtain ⟨hmem, hkind, -⟩ := findEvent_eq_ok (Except.eq_ok_get _ :
    findEvent exampleCatalog "powertrain_status_event" = .ok exampleEvent)
  exact ⟨hmem, hkind⟩

/-- One client on the host of the node. -/
def exampleSys : Sys Unit :=
  init exampleCatalog "239.0.0.2" 30490 (fun _ => "127.0.0.1") fun _ => "0.0.0.0"

theorem exampleSys_canSubscribe : (exampleSys.clients ()).CanSubscribe :=
  ⟨by decide +kernel, by decide +kernel, by decide +kernel⟩

def exampleCall : Sys Unit → Call Unit → Sys Unit := call exampleListener fun _ => ("127.0.0.1", 40000)

/-- After the client has subscribed and stopped again, its endpoint is still registered. -/
theorem registry_keeps_stopped :
    ¬ ([Call.toggle () exampleEvent, .toggle () exampleEvent].foldl exampleCall exampleSys).Exact
      exampleCatalog := by
  intro h
  have hmem : ("127.0.0.1", 30512) ∈ ([Call.toggle () exampleEvent, .toggle () exampleEvent].foldl
      exampleCall exampleSys).node.registry.getSubscribers 0x1002 1 := by decide +kernel
  have hkeys : (([Call.toggle () exampleEvent, .toggle () exampleEvent].foldl
      exampleCall exampleSys).clients ()).subs.keys = [] := by decide +kernel
  obtain ⟨i, e, huse⟩ := (h ..).1 hmem
  have hname := (uses_iff.1 huse).1
  rw [hkeys] at hname
  cases hname

theorem exact_states_example :
    ("127.0.0.1", 30512) ∈
        (exampleCall exampleSys (.toggle () exampleEvent)).node.registry.getSubscribers 0x1002 1 ∧
      ∀ s ∈ Run.states exampleCall exampleSys [.toggle () exampleEvent], s.Exact exampleCatalog := by
  have hids : ∀ m ∈ exampleCatalog.messages, (match resolveSomeip exampleCatalog m, resolveEventgroupId m with
      | .ok (svcId, _, _), .ok egid => decide (FitsBits 16 svcId ∧ FitsBits 16 egid)
      | _, _ => true) = true := by decide +kernel
  refine ⟨by decide +kernel, (exact_states_iff loadCatalog_example buildUdpEvents_example
    (fun e svcId egid port h => ?_) fun c hc => ?_).2 fun t ht => ?_⟩
  · obtain ⟨v, eid, hsvc⟩ := h.svcId
    have hfits := hids e h.mem
    rw [hsvc, h.egid] at hfits
    exact of_decide_eq_true hfits
  · rw [List.mem_singleton.1 hc]
    exact exampleEvent_mem
  · rw [List.mem_singleton.1 ht]
    refine keepsExact_of_start rfl fun _ svcId egid port h => .inl ?_
    have hport : portOf exampleEvent.udp = .ok 30512 := by decide +kernel
    cases hport.symm.trans h.port
    decide +kernel

end Sys

end AutoEth
