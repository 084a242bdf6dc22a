import AutoEth.Lib.Distinct
import AutoEth.Routes

/-!
# What validation is for

`load_catalog` makes integers of the ids of a document and `validate` checks the rest, so that nothing
the applications compute from a message of an accepted catalog raises (`Catalog.Valid.usable`). The pairs
of ids that the tables of the node are keyed by are not compared before: `validation_suffices` says that
building the tables fails on a repeated pair, or on having nothing to serve, and on nothing else.
-/

namespace AutoEth

/-! ### What the applications compute from a message -/

/-- The ids by which receivers tell messages of one kind apart. -/
def someipIds (cat : Catalog) (m : MessageDef) : Except PyErr (Int × Int) := do
  let (svcId, _, someipId) ← resolveSomeip cat m
  return (svcId, someipId)

def Catalog.ofKind (cat : Catalog) (kind : String) : List MessageDef :=
  cat.messages.filter fun m => m.kind = kind

/-- The transport block has a positive port. -/
def HasPort (cfg : Value) : Prop := ∃ port, portOf cfg = .ok port ∧ 0 < port

/-- Nothing that the applications compute from the message raises. -/
structure Catalog.Usable (cat : Catalog) (m : MessageDef) : Prop where
  resolve : ∃ ids, resolveSomeip cat m = .ok ids
  codec : ∃ sigs size, (SignalIndex.fromSignals cat.signals).subset m.signals = .ok sigs ∧
    encodedSize sigs = .ok size ∧ ∀ values, ∃ bs, encode sigs values = .ok bs ∧ bs.length = size
  eventgroup : m.kind = "event" → ∃ eventgroupId, resolveEventgroupId m = .ok eventgroupId
  port : m.transport = "udp" ∧ HasPort m.udp ∨ m.transport = "tcp" ∧ HasPort m.tcp

/-! ### Ids that read as integers -/

/-- The value of the key, where there is one, reads as an integer. -/
def ReadsInt (key : String) (items : List (String × Value)) : Prop :=
  ∀ v, items.lookup key = some v → ∃ n, v.toInt = .ok n

/-- The ids of a `someip` block. -/
structure ReadsIds (items : List (String × Value)) : Prop where
  event : ReadsInt "event_id" items
  method : ReadsInt "method_id" items
  eventgroup : ReadsInt "eventgroup_id" items

section Loading
variable {items items' : List (String × Value)} {key key' : String}

theorem ReadsInt.congr (h : ReadsInt key items) (heq : items'.lookup key = items.lookup key) :
    ReadsInt key items' := by
  intro v hv
  exact h v (heq ▸ hv)

theorem ReadsInt.item_ok (h : ReadsInt key items) (hsome : (items.lookup key).isSome) :
    ∃ n, ((Value.dict items).item key).bind Value.toInt = .ok n := by
  obtain ⟨v, hv⟩ := Option.isSome_iff_exists.1 hsome
  obtain ⟨n, hn⟩ := h v hv
  exact ⟨n, by rw [Value.item, hv]; exact hn⟩

theorem toInt_of_asInt {v w : Value} {field : String} (h : asInt v field = .ok w) :
    ∃ n, w.toInt = .ok n := by
  unfold asInt at h
  split at h
  · cases h
    exact ⟨_, rfl⟩
  · cases h
    exact ⟨_, rfl⟩
  · rename_i s
    cases hs : intOfString 0 s with
    | error e =>
      rw [hs] at h
      cases h
    | ok n =>
      rw [hs] at h
      cases h
      exact ⟨n, rfl⟩
  · cases h

theorem normalizeId_ok {field : String} (h : normalizeId field key items = .ok items') :
    ReadsInt key items' ∧ ∀ key' ≠ key, items'.lookup key' = items.lookup key' := by
  unfold normalizeId at h
  split at h
  · rename_i hnone
    cases h
    refine ⟨fun v hv => ?_, fun _ _ => rfl⟩
    rw [hnone] at hv
    cases hv
  · obtain ⟨w, hw, h⟩ := Except.bind_eq_ok.1 h
    cases h
    refine ⟨fun v hv => ?_, fun key' hne => ?_⟩
    · rw [Dict.lookup_assocSet, if_pos rfl] at hv
      cases hv
      exact toInt_of_asInt hw
    · rw [Dict.lookup_assocSet, if_neg hne]

theorem normalizeSomeip_ok {mRaw v : Value} {name : String} (h : normalizeSomeip mRaw name = .ok v)
    (hv : v = .dict items) : ReadsIds items := by
  obtain ⟨w, -, h⟩ := Except.bind_eq_ok.1 h
  split at h
  · cases h
    cases hv
  · simp only [Except.bind_eq_ok] at h
    obtain ⟨items₁, h₁, items₂, h₂, items₃, h₃, h⟩ := h
    obtain ⟨hevent, -⟩ := normalizeId_ok h₁
    obtain ⟨hmethod, hkeep₂⟩ := normalizeId_ok h₂
    obtain ⟨heventgroup, hkeep₃⟩ := normalizeId_ok h₃
    cases h
    cases hv
    refine ⟨?_, hmethod.congr (hkeep₃ _ (by decide)), heventgroup⟩
    exact (hevent.congr (hkeep₂ _ (by decide))).congr (hkeep₃ _ (by decide))
  · cases h

theorem loadMessage_someip {mRaw : Value} {m : MessageDef} (h : loadMessage mRaw = .ok m) :
    ∃ name, normalizeSomeip mRaw name = .ok m.someip := by
  simp only [loadMessage, Except.bind_eq_ok] at h
  obtain ⟨_, -, _, -, _, -, _, -, _, -, _, -, _, -, period, -, h⟩ := h
  cases period
  all_goals
    simp only [Except.bind_eq_ok] at h
    obtain ⟨_, -, _, -, _, -, name, -, someip, hsomeip, _, -, _, -, _, -, h⟩ := h
    cases h
    exact ⟨_, hsomeip⟩

theorem loadCatalog_readsIds {doc : Value} {cat : Catalog} (hload : loadCatalog doc = .ok cat)
    {m : MessageDef} (hm : m ∈ cat.messages) (hitems : m.someip = .dict items) : ReadsIds items := by
  obtain ⟨_, hread, hcat⟩ := Except.bind_eq_ok.1 hload
  obtain ⟨-, -, hcat⟩ := Except.bind_eq_ok.1 hcat
  cases hcat
  simp only [readCatalog, Except.bind_eq_ok] at hread
  obtain ⟨_, -, _, -, _, -, _, -, _, -, _, -, _, -, _, -, _, -, _, -, messages, hmessages, _, -, h⟩ := hread
  cases h
  obtain ⟨mRaw, -, hmRaw⟩ := List.Forall₂.exists_left (Except.mapM_eq_ok.1 hmessages) hm
  obtain ⟨name, hname⟩ := loadMessage_someip hmRaw
  exact normalizeSomeip_ok hname hitems

end Loading

/-! ### Messages of an accepted catalog -/

namespace Catalog.Valid
variable {cat : Catalog} {m : MessageDef}

theorem exists_resolveSomeip (hcat : cat.Valid) (hm : m ∈ cat.messages)
    (hids : ∀ items, m.someip = .dict items → ReadsIds items) : ∃ ids, resolveSomeip cat m = .ok ids := by
  obtain ⟨items, hitems, htrue, hname, hevent, hmethod⟩ := validateSomeip_ok (hcat.someip m hm)
  have hservice : m.someip.getD "service" (.str "") = .ok ((items.lookup "service").getD (.str "")) :=
    Value.getD_eq_ok.2 ⟨items, hitems, rfl⟩
  obtain ⟨svc, hsvc, hsvcname⟩ := List.mem_map.1 hname
  have hget := hcat.servicesByName_get?.2 ⟨hsvc, hsvcname⟩
  rw [resolveSomeip, raiseIf_neg (by rw [htrue]; decide), Except.ok_bind, hservice, Except.ok_bind]
  simp only [hget]
  rcases (validateMessage_ok (hcat.message m hm)).kind with ⟨hkind, -⟩ | ⟨hkind, -⟩
  · obtain ⟨eventId, heq⟩ := (hids items hitems).event.item_ok (hevent hkind)
    rw [if_pos hkind, hitems, heq]
    exact ⟨_, rfl⟩
  · obtain ⟨methodId, heq⟩ := (hids items hitems).method.item_ok (hmethod hkind)
    have hne : m.kind ≠ "event" := by
      rw [hkind]
      decide
    rw [if_neg hne, if_pos hkind, hitems, heq]
    exact ⟨_, rfl⟩

theorem exists_resolveEventgroupId (hcat : cat.Valid) (hm : m ∈ cat.messages) (hkind : m.kind = "event")
    (hids : ∀ items, m.someip = .dict items → ReadsIds items) :
    ∃ eventgroupId, resolveEventgroupId m = .ok eventgroupId := by
  obtain ⟨items, hitems, htrue, -, hevent, -⟩ := validateSomeip_ok (hcat.someip m hm)
  rw [resolveEventgroupId, raiseIf_neg (by rw [htrue]; decide), Except.ok_bind, hitems]
  simp only [Value.contains, Except.ok_bind]
  by_cases hgroup : (items.lookup "eventgroup_id").isSome = true
  · rw [if_pos hgroup]
    exact (hids items hitems).eventgroup.item_ok hgroup
  · rw [if_neg hgroup, if_pos (hevent hkind)]
    exact (hids items hitems).event.item_ok (hevent hkind)

/-- Validation is enough for what the applications compute from a message. -/
theorem usable (hcat : cat.Valid) (hm : m ∈ cat.messages)
    (hids : ∀ items, m.someip = .dict items → ReadsIds items) : cat.Usable m := by
  have hchecked := validateMessage_ok (hcat.message m hm)
  obtain ⟨sigs, hsigs⟩ := SignalIndex.exists_subset hchecked.signals
  have hvalid := hcat.subset_valid hsigs
  refine ⟨hcat.exists_resolveSomeip hm hids, ⟨sigs, sizeOf sigs, hsigs, encodedSize_eq hvalid, ?_⟩, ?_, ?_⟩
  · intro values
    exact ⟨_, encode_eq hvalid values, length_encodedBytes sigs values⟩
  · intro hkind
    exact hcat.exists_resolveEventgroupId hm hkind hids
  · rcases hchecked.kind with ⟨-, htransport⟩ | ⟨-, htransport⟩
    · exact .inl ⟨htransport, hcat.udpPort_ok hm htransport⟩
    · exact .inr ⟨htransport, hcat.tcpPort_ok hm htransport⟩

theorem isTcpMethod_eq (hcat : cat.Valid) (hm : m ∈ cat.messages) :
    m.isTcpMethod = decide (m.kind = "method") := by
  rw [Bool.eq_iff_iff, MessageDef.isTcpMethod_iff, decide_eq_true_eq]
  refine ⟨fun h => h.1, fun hkind => ?_⟩
  rcases (validateMessage_ok (hcat.message m hm)).kind with ⟨hevent, -⟩ | h
  · rw [hkind] at hevent
    exact absurd hevent (by decide)
  · exact h

theorem isUdpEvent_eq (hcat : cat.Valid) (hm : m ∈ cat.messages) :
    m.isUdpEvent = decide (m.kind = "event") := by
  rw [Bool.eq_iff_iff, MessageDef.isUdpEvent_iff, decide_eq_true_eq]
  refine ⟨fun h => h.1, fun hkind => ?_⟩
  rcases (validateMessage_ok (hcat.message m hm)).kind with h | ⟨hmethod, -⟩
  · exact h
  · rw [hkind] at hmethod
    exact absurd hmethod (by decide)

end Catalog.Valid

/-! ### The tables of the node -/

section Tables
variable {cat : Catalog} {m : MessageDef}

theorem mem_map_ok {key : Int × Int} {keys : List (Int × Int)} :
    (Except.ok key : Except PyErr (Int × Int)) ∈ keys.map Except.ok ↔ key ∈ keys :=
  List.mem_map_of_injective fun _ _ => Except.ok.inj

theorem Catalog.Usable.exists_isTcpRoute (h : cat.Usable m) (hkind : m.isTcpMethod = true) :
    ∃ e, IsTcpRoute cat (.fromSignals cat.signals) m e := by
  obtain ⟨⟨svcId, ifaceVer, methodId⟩, hresolve⟩ := h.resolve
  obtain ⟨sigs, -, hsigs, -⟩ := h.codec
  have htransport := (MessageDef.isTcpMethod_iff.1 hkind).2
  rcases h.port with ⟨hudp, -⟩ | ⟨-, port, hport, hpos⟩
  · rw [htransport] at hudp
    exact absurd hudp (by decide)
  · exact ⟨((svcId, methodId), ⟨m, ifaceVer, sigs⟩), rfl, hresolve, hsigs, port, hport, by omega⟩

theorem IsTcpRoute.someipIds_eq {sigIndex : SignalIndex} {e : (Int × Int) × MethodRoute}
    (h : IsTcpRoute cat sigIndex m e) : someipIds cat m = .ok e.1 := by
  rw [someipIds, h.resolve]
  rfl

/-- The loop over the TCP methods refuses a method whose ids are taken. -/
theorem Catalog.Usable.takesOnce_tcp (h : cat.Usable m) (hkind : m.isTcpMethod = true) :
    Distinct.TakesOnce (addTcpRoute cat (.fromSignals cat.signals)) (someipIds cat)
      (fun routes => routes.keys.map Except.ok) m := by
  refine .of_entry (fun routes e => routes.set e.1 e.2) (fun routes routes' => ?_)
    (h.exists_isTcpRoute hkind) (fun e he => he.someipIds_eq) ?_
  · simp [addTcpRoute_eq_ok, hkind]
  · intro routes e hkey k
    rw [mem_map_ok] at hkey
    rw [Dict.keys_set, if_neg hkey, List.map_append, List.mem_append, List.map_singleton, List.mem_singleton,
      or_comm]

theorem Catalog.Usable.exists_isUdpEvent (h : cat.Usable m) (hkind : m.isUdpEvent = true)
    (hudp : validateUdp m = .ok ()) : ∃ e, IsUdpEvent cat (.fromSignals cat.signals) m e := by
  obtain ⟨⟨svcId, ifaceVer, eventId⟩, hresolve⟩ := h.resolve
  obtain ⟨sigs, -, hsigs, -⟩ := h.codec
  obtain ⟨eventgroupId, heventgroup⟩ := h.eventgroup (MessageDef.isUdpEvent_iff.1 hkind).1
  obtain ⟨⟨port, hport, hpos⟩, hmode⟩ := validateUdp_ok hudp
  exact ⟨(m.name, ⟨m, ifaceVer, sigs, svcId, eventId, eventgroupId⟩), rfl, rfl, hresolve, heventgroup, hsigs,
    ⟨port, hport, by omega⟩, hmode⟩

theorem IsUdpEvent.someipIds_eq {sigIndex : SignalIndex} {e : String × EventRoute}
    (h : IsUdpEvent cat sigIndex m e) : someipIds cat m = .ok e.2.ids := by
  rw [someipIds, h.resolve]
  rfl

theorem Catalog.Usable.takesOnce_udp (h : cat.Usable m) (hkind : m.isUdpEvent = true)
    (hudp : validateUdp m = .ok ()) :
    Distinct.TakesOnce (addUdpEvent cat (.fromSignals cat.signals)) (someipIds cat)
      (fun st => st.2.map Except.ok) m := by
  refine .of_entry (fun st e => (st.1.set e.1 e.2, e.2.ids :: st.2)) (fun st st' => ?_)
    (h.exists_isUdpEvent hkind hudp) (fun e he => he.someipIds_eq) ?_
  · simp [addUdpEvent_eq_ok, hkind]
  · intro st e _ k
    rw [List.map_cons, List.mem_cons]

theorem isEmpty_foldlM_addTcpRoute {sigIndex : SignalIndex} {routes : Routes}
    (h : cat.messages.foldlM (addTcpRoute cat sigIndex) ∅ = .ok routes) :
    routes.entries.isEmpty = (cat.messages.filter MessageDef.isTcpMethod).isEmpty := by
  obtain ⟨new, hnew, hall⟩ := foldlM_addTcpRoute h
  rw [Dict.entries_empty, List.nil_append] at hnew
  rw [hnew, Bool.eq_iff_iff, List.isEmpty_iff_length_eq_zero, List.isEmpty_iff_length_eq_zero, hall.length_eq]

theorem isEmpty_foldlM_addUdpEvent (hcat : cat.Valid) {sigIndex : SignalIndex}
    {st : UdpEvents × List (Int × Int)} (h : cat.messages.foldlM (addUdpEvent cat sigIndex) (∅, []) = .ok st) :
    st.1.entries.isEmpty = (cat.messages.filter MessageDef.isUdpEvent).isEmpty := by
  obtain ⟨new, hnew, hall, -⟩ := foldlM_addUdpEvent (by simpa using hcat.message_names) h
  simp only [Dict.entries_empty, List.nil_append] at hnew
  rw [hnew, Bool.eq_iff_iff, List.isEmpty_iff_length_eq_zero, List.isEmpty_iff_length_eq_zero, hall.length_eq]

/-- A table is built when its loop goes through and leaves something in it. -/
theorem exists_table_ok_iff {σ τ : Type} {loop : Except PyErr σ} {isEmpty : σ → Bool} {table : σ → τ} {e : PyErr}
    {b : Bool} (h : ∀ s, loop = .ok s → isEmpty s = b) :
    (∃ t, (do
        let s ← loop
        raiseIf (isEmpty s = true) e
        return table s) = .ok t) ↔ (∃ s, loop = .ok s) ∧ b = false := by
  cases loop with
  | error e' => simp
  | ok s =>
    rw [← h s rfl]
    cases hs : isEmpty s with
    | false => simp [raiseIf, hs]
    | true => simp [raiseIf, hs]

theorem nodup_and_not_mem_nil {κ : Type*} {keys : List κ} : keys.Nodup ∧ (∀ k ∈ keys, k ∉ []) ↔ keys.Nodup :=
  and_iff_left fun _ _ => List.not_mem_nil

theorem buildTcpRoutes_ok_iff (hcat : cat.Valid) (husable : ∀ m ∈ cat.messages, cat.Usable m) :
    (∃ routes, buildTcpRoutes cat (.fromSignals cat.signals) = .ok routes) ↔
      ((cat.ofKind "method").map (someipIds cat)).Nodup ∧ cat.ofKind "method" ≠ [] := by
  have hfilter : cat.messages.filter MessageDef.isTcpMethod = cat.ofKind "method" :=
    List.filter_congr fun m hm => hcat.isTcpMethod_eq hm
  have hloop := Distinct.exists_foldlM_ok_iff
    (fun m hm hkind => (husable m hm).takesOnce_tcp hkind)
    (fun _ _ _ hkind => addTcpRoute_eq_ok.2 (.inl ⟨hkind, rfl⟩)) ∅
  rw [hfilter] at hloop
  unfold buildTcpRoutes
  rw [exists_table_ok_iff fun routes h => isEmpty_foldlM_addTcpRoute h, hfilter, hloop, Dict.keys_empty,
    List.map_nil, nodup_and_not_mem_nil, List.isEmpty_eq_false_iff]

theorem buildUdpEvents_ok_iff (hcat : cat.Valid) (husable : ∀ m ∈ cat.messages, cat.Usable m) :
    (∃ events, buildUdpEvents cat (.fromSignals cat.signals) = .ok events) ↔
      ((cat.ofKind "event").map (someipIds cat)).Nodup ∧ cat.ofKind "event" ≠ [] := by
  have hfilter : cat.messages.filter MessageDef.isUdpEvent = cat.ofKind "event" :=
    List.filter_congr fun m hm => hcat.isUdpEvent_eq hm
  have hudp {m : MessageDef} (hm : m ∈ cat.messages) (hkind : m.isUdpEvent = true) : validateUdp m = .ok () :=
    (validateMessage_ok (hcat.message m hm)).udp (MessageDef.isUdpEvent_iff.1 hkind).2
  have hloop := Distinct.exists_foldlM_ok_iff
    (fun m hm hkind => (husable m hm).takesOnce_udp hkind (hudp hm hkind))
    (fun _ _ _ hkind => addUdpEvent_eq_ok.2 (.inl ⟨hkind, rfl⟩)) (∅, [])
  rw [hfilter] at hloop
  unfold buildUdpEvents
  rw [exists_table_ok_iff fun st h => isEmpty_foldlM_addUdpEvent hcat h, hfilter, hloop, List.map_nil,
    nodup_and_not_mem_nil, List.isEmpty_eq_false_iff]

end Tables

/-! ### Validation suffices -/

/-- Nothing that the applications compute from a loaded catalog raises; building the tables of the node
fails on two messages of one kind with the same ids, and on a catalog without messages of the kind. -/
theorem validation_suffices {doc : Value} {cat : Catalog} (hload : loadCatalog doc = .ok cat) :
    (∀ m ∈ cat.messages, cat.Usable m) ∧
      ((∃ routes, buildTcpRoutes cat (.fromSignals cat.signals) = .ok routes) ↔
        ((cat.ofKind "method").map (someipIds cat)).Nodup ∧ cat.ofKind "method" ≠ []) ∧
      ((∃ events, buildUdpEvents cat (.fromSignals cat.signals) = .ok events) ↔
        ((cat.ofKind "event").map (someipIds cat)).Nodup ∧ cat.ofKind "event" ≠ []) := by
  have hcat := Catalog.Valid.of_loadCatalog hload
  have husable : ∀ m ∈ cat.messages, cat.Usable m := by
    intro m hm
    exact hcat.usable hm fun items hitems => loadCatalog_readsIds hload hm hitems
  exact ⟨husable, buildTcpRoutes_ok_iff hcat husable, buildUdpEvents_ok_iff hcat husable⟩

theorem validation_suffices_example :
    (∀ m ∈ exampleCatalog.messages, exampleCatalog.Usable m) ∧
      ((exampleCatalog.ofKind "method").map (someipIds exampleCatalog)).Nodup ∧
      ((exampleCatalog.ofKind "event").map (someipIds exampleCatalog)).Nodup := by
  obtain ⟨husable, hmethods, hevents⟩ := validation_suffices loadCatalog_example
  exact ⟨husable, (hmethods.1 ⟨_, buildTcpRoutes_example⟩).1, (hevents.1 ⟨_, buildUdpEvents_example⟩).1⟩

end AutoEth
