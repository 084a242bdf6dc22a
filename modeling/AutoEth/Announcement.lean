import AutoEth.Announcer
import Mathlib.Data.List.DropRight

/-!
# What the announcements say

A message belongs to the service whose name is its `service` text without surrounding blanks, as
`resolve_someip` has it; the announcer compares the text as it stands. Every option goes into one list,
in which an entry finds its own by an 8-bit index and a 4-bit number, and ports and ids are cut to their
widths. `announces_iff` says for which catalogs all of this does no harm: the offers are exact in every
packet of the announcer exactly when the catalog meets `OffersFit`.
-/

namespace AutoEth

theorem dropWhile_isSpace_of_prefix {l l' : List Char} (h : l' <+: l.dropWhile isSpace) :
    l'.dropWhile isSpace = l' := by
  cases l' with
  | nil => rfl
  | cons c cs =>
    obtain ⟨t, ht⟩ := h
    have hhead := List.head?_dropWhile_not isSpace l
    rw [← ht] at hhead
    exact List.dropWhile_cons_of_neg (by simpa using hhead)

theorem strip_strip (s : String) : strip (strip s) = strip s := by
  have hchars (l : List Char) : stripChars (stripChars l) = stripChars l := by
    have hprefix : stripChars l <+: l.dropWhile isSpace := List.rdropWhile_prefix ..
    have hfront := dropWhile_isSpace_of_prefix hprefix
    calc stripChars (stripChars l)
        = ((stripChars l).dropWhile isSpace).rdropWhile isSpace := rfl
      _ = ((l.dropWhile isSpace).rdropWhile isSpace).rdropWhile isSpace := by rw [hfront]; rfl
      _ = stripChars l := List.rdropWhile_idempotent ..
  rw [strip, strip, String.toList_ofList, hchars]

/-! ### The service of a message -/

namespace Catalog
variable {cat : Catalog} {m : MessageDef} {svc : ServiceDef}

/-- The service that `resolve_someip` finds. -/
def resolvedService (cat : Catalog) (m : MessageDef) : Option ServiceDef :=
  cat.servicesByName.get? (strip m.serviceText)

/-- The messages that `resolve_someip` assigns to the service. -/
def assigned (cat : Catalog) (svc : ServiceDef) : List MessageDef :=
  cat.messages.filter fun m => cat.resolvedService m = some svc

theorem Valid.mem_assigned (hcat : cat.Valid) :
    m ∈ cat.assigned svc ↔ m ∈ cat.messages ∧ svc ∈ cat.services ∧ svc.name = strip m.serviceText := by
  rw [assigned, List.mem_filter, decide_eq_true_eq, resolvedService, hcat.servicesByName_get?]

theorem mem_naming : m ∈ cat.naming svc ↔ m ∈ cat.messages ∧ m.serviceText = svc.name := by
  rw [naming, List.mem_filter, decide_eq_true_eq]

theorem Valid.exists_assigned (hcat : cat.Valid) (hm : m ∈ cat.messages) :
    ∃ svc ∈ cat.services, m ∈ cat.assigned svc := by
  obtain ⟨svc, hsvc, hname⟩ := List.mem_map.1 (hcat.serviceText hm).2.2
  exact ⟨svc, hsvc, hcat.mem_assigned.2 ⟨hm, hsvc, hname⟩⟩

theorem Valid.resolveSomeip_assigned (hcat : cat.Valid) (hm : m ∈ cat.messages)
    {svcId ifaceVer someipId : Int} (h : resolveSomeip cat m = .ok (svcId, ifaceVer, someipId)) :
    ∃ svc ∈ cat.services, m ∈ cat.assigned svc ∧ svc.serviceId = svcId ∧
      svc.interfaceVersion = ifaceVer := by
  obtain ⟨v, hv, htext⟩ := Except.bind_eq_ok.1 (hcat.serviceText hm).2.1
  simp only [resolveSomeip, Except.bind_eq_ok, raiseIf_eq_ok, hv] at h
  obtain ⟨-, -, w, hw, h⟩ := h
  cases hw
  rw [Except.ok.inj htext] at h
  cases hget : cat.servicesByName.get? (strip m.serviceText) with
  | none =>
    rw [hget] at h
    cases h
  | some svc =>
    rw [hget] at h
    have hids : svc.serviceId = svcId ∧ svc.interfaceVersion = ifaceVer := by
      dsimp only at h
      split_ifs at h
      all_goals
        obtain ⟨_, -, h⟩ := Except.bind_eq_ok.1 h
        cases h
        exact ⟨rfl, rfl⟩
    obtain ⟨hsvc, hname⟩ := hcat.servicesByName_get?.1 hget
    exact ⟨svc, hsvc, hcat.mem_assigned.2 ⟨hm, hsvc, hname⟩, hids⟩

/-- A name with blanks around it is the name of no message's service. -/
theorem Valid.assigned_eq_nil (hcat : cat.Valid) (h : strip svc.name ≠ svc.name) :
    cat.assigned svc = [] := by
  refine List.eq_nil_iff_forall_not_mem.2 fun m hm => h ?_
  obtain ⟨-, -, hname⟩ := hcat.mem_assigned.1 hm
  rw [hname, strip_strip]

/-- The messages that name a service belong to the one with the name without blanks. -/
theorem Valid.naming_sublist (hcat : cat.Valid) {svc' : ServiceDef} (hsvc : svc' ∈ cat.services)
    (h : svc'.name = strip svc.name) : (cat.naming svc).Sublist (cat.assigned svc') := by
  refine List.monotone_filter_right _ fun m hm => ?_
  rw [decide_eq_true_eq] at hm ⊢
  rw [resolvedService, hcat.servicesByName_get?, hm]
  exact ⟨hsvc, h⟩

/-- The options that `resolve_someip` assigns to the service. -/
def offered (cat : Catalog) (ip : String) (svc : ServiceDef) : List SdOption :=
  optionsOf ip (cat.assigned svc)

end Catalog

/-! ### Options of fewer messages -/

section Sublist
variable {ip : String} {ms ms' : List MessageDef}

theorem tcpPorts_subset (h : ms ⊆ ms') :
    (ms.filter MessageDef.isTcpMethod).map MessageDef.tcpPort ⊆
      (ms'.filter MessageDef.isTcpMethod).map MessageDef.tcpPort :=
  List.map_subset _ (List.filter_subset _ h)

theorem length_optionsOf (ip : String) (ms : List MessageDef) :
    (optionsOf ip ms).length = (tcpPorts ms).length + (ms.filter MessageDef.isUdpEvent).length := by
  rw [optionsOf, List.length_append, List.length_map, List.length_map]

theorem length_optionsOf_le (h : ms.Sublist ms') :
    (optionsOf ip ms).length ≤ (optionsOf ip ms').length := by
  rw [length_optionsOf, length_optionsOf]
  exact Nat.add_le_add (Distinct.length_eraseDups_le (tcpPorts_subset h.subset)) (h.filter _).length_le

/-- Where fewer messages have as many options, they have all of the ports and events. -/
theorem sublist_of_length_optionsOf (h : ms.Sublist ms')
    (hlen : (optionsOf ip ms').length ≤ (optionsOf ip ms).length) :
    tcpPorts ms' ⊆ tcpPorts ms ∧ ms.filter MessageDef.isUdpEvent = ms'.filter MessageDef.isUdpEvent := by
  have hsub := tcpPorts_subset h.subset
  have hports : (tcpPorts ms).length ≤ (tcpPorts ms').length := Distinct.length_eraseDups_le hsub
  have hevents := (h.filter MessageDef.isUdpEvent).length_le
  rw [length_optionsOf, length_optionsOf] at hlen
  constructor
  · intro p hp
    rw [tcpPorts, List.mem_eraseDups] at hp ⊢
    exact Distinct.subset_of_length_eraseDups_le hsub (by unfold tcpPorts at *; omega) hp
  · exact (h.filter _).eq_of_length_le (by omega)

theorem optionsOf_perm (h : tcpPorts ms ⊆ tcpPorts ms') (h' : tcpPorts ms' ⊆ tcpPorts ms)
    (hevents : ms.filter MessageDef.isUdpEvent = ms'.filter MessageDef.isUdpEvent) :
    (optionsOf ip ms).Perm (optionsOf ip ms') := by
  have hports : (tcpPorts ms).Perm (tcpPorts ms') := by
    refine (List.perm_ext_iff_of_nodup (Distinct.nodup_eraseDups _) (Distinct.nodup_eraseDups _)).2 ?_
    exact fun p => ⟨fun hp => h hp, fun hp => h' hp⟩
  rw [optionsOf, optionsOf, hevents]
  exact (hports.map _).append_right _

theorem optionsOf_perm_of_sublist (h : ms.Sublist ms')
    (hlen : (optionsOf ip ms').length ≤ (optionsOf ip ms).length) :
    (optionsOf ip ms).Perm (optionsOf ip ms') := by
  obtain ⟨hports, hevents⟩ := sublist_of_length_optionsOf h hlen
  refine optionsOf_perm (fun p hp => ?_) hports hevents
  rw [tcpPorts, List.mem_eraseDups] at hp ⊢
  exact tcpPorts_subset h.subset hp

theorem mem_tcpPorts {p : Int} :
    p ∈ tcpPorts ms ↔ ∃ m ∈ ms, m.isTcpMethod = true ∧ m.tcpPort = p := by
  rw [tcpPorts, List.mem_eraseDups, List.mem_map]
  exact exists_congr fun m => by rw [List.mem_filter, and_assoc]

theorem optionsOf_eq_nil : optionsOf ip ms = [] ↔
    ∀ m ∈ ms, m.isTcpMethod = false ∧ m.isUdpEvent = false := by
  have hports : tcpPorts ms = [] ↔ ∀ m ∈ ms, m.isTcpMethod = false := by
    rw [List.eq_nil_iff_forall_not_mem]
    constructor
    · intro h m hm
      rw [← Bool.not_eq_true]
      exact fun hkind => h _ (mem_tcpPorts.2 ⟨m, hm, hkind, rfl⟩)
    · rintro h p hp
      obtain ⟨m, hm, hkind, -⟩ := mem_tcpPorts.1 hp
      rw [h m hm] at hkind
      cases hkind
  rw [optionsOf, List.append_eq_nil_iff, List.map_eq_nil_iff, List.map_eq_nil_iff, hports,
    List.filter_eq_nil_iff]
  simp only [Bool.not_eq_true]
  exact ⟨fun h m hm => ⟨h.1 m hm, h.2 m hm⟩, fun h => ⟨fun m hm => (h m hm).1, fun m hm => (h m hm).2⟩⟩

end Sublist

/-! ### Names with blanks -/

section Names
variable {cat : Catalog} {ip : String}

/-- The service texts of the messages attach every option where `resolve_someip` has it: those of events
have no blanks around them, and a method whose text has some repeats the port of a method of its service
that has none. -/
structure Catalog.NamesFit (cat : Catalog) : Prop where
  events : ∀ m ∈ cat.messages, m.isUdpEvent = true → strip m.serviceText = m.serviceText
  methods : ∀ m ∈ cat.messages, m.isTcpMethod = true → strip m.serviceText ≠ m.serviceText →
    m.serviceText ∉ cat.services.map (·.name) ∧
      ∃ m' ∈ cat.messages, m'.isTcpMethod = true ∧ m'.serviceText = strip m.serviceText ∧
        m'.tcpPort = m.tcpPort

theorem Catalog.NamesFit.perm (hcat : cat.Valid) (h : cat.NamesFit) {svc : ServiceDef}
    (hsvc : svc ∈ cat.services) : (cat.announced ip svc).Perm (cat.offered ip svc) := by
  unfold Catalog.announced Catalog.offered
  by_cases hname : strip svc.name = svc.name
  · have hsub := hcat.naming_sublist hsvc hname.symm
    refine optionsOf_perm (fun p hp => ?_) (fun p hp => ?_) ?_
    · obtain ⟨m, hm, hport⟩ := mem_tcpPorts.1 hp
      exact mem_tcpPorts.2 ⟨m, hsub.subset hm, hport⟩
    · obtain ⟨m, hm, hkind, rfl⟩ := mem_tcpPorts.1 hp
      obtain ⟨hmem, -, hstrip⟩ := hcat.mem_assigned.1 hm
      by_cases htext : strip m.serviceText = m.serviceText
      · exact mem_tcpPorts.2 ⟨m, Catalog.mem_naming.2 ⟨hmem, htext ▸ hstrip.symm⟩, hkind, rfl⟩
      · obtain ⟨-, m', hmem', hkind', htext', hport⟩ := h.methods m hmem hkind htext
        exact mem_tcpPorts.2 ⟨m', Catalog.mem_naming.2 ⟨hmem', htext'.trans hstrip.symm⟩, hkind', hport⟩
    · rw [Catalog.naming, Catalog.assigned, List.filter_filter, List.filter_filter]
      refine List.filter_congr fun m hm => ?_
      cases hkind : m.isUdpEvent with
      | false => rfl
      | true =>
        rw [Bool.true_and, Bool.true_and, decide_eq_decide, Catalog.resolvedService,
          hcat.servicesByName_get?, h.events m hm hkind]
        exact ⟨fun heq => ⟨hsvc, heq.symm⟩, fun heq => heq.2.symm⟩
  · have hnil : optionsOf ip (cat.naming svc) = [] := by
      refine optionsOf_eq_nil.2 fun m hm => ?_
      obtain ⟨hmem, htext⟩ := Catalog.mem_naming.1 hm
      rw [← Bool.not_eq_true, ← Bool.not_eq_true]
      constructor
      · intro hkind
        refine (h.methods m hmem hkind (htext ▸ hname)).1 ?_
        exact List.mem_map.2 ⟨svc, hsvc, htext.symm⟩
      · intro hkind
        exact hname (htext ▸ h.events m hmem hkind)
    rw [hnil, hcat.assigned_eq_nil hname]
    exact .nil

/-- Every option is with the service that `resolve_someip` has it with exactly when the names fit. -/
theorem Catalog.namesFit_iff (hcat : cat.Valid) :
    cat.NamesFit ↔ ∀ svc ∈ cat.services, (cat.announced ip svc).Perm (cat.offered ip svc) := by
  constructor
  · exact fun h svc hsvc => h.perm hcat hsvc
  intro h
  have hown : ∀ m ∈ cat.messages, ∃ svc ∈ cat.services, m ∈ cat.assigned svc ∧
      svc.name = strip m.serviceText ∧ tcpPorts (cat.assigned svc) ⊆ tcpPorts (cat.naming svc) ∧
        (cat.naming svc).filter MessageDef.isUdpEvent = (cat.assigned svc).filter MessageDef.isUdpEvent := by
    intro m hm
    obtain ⟨svc, hsvc, hassigned⟩ := hcat.exists_assigned hm
    have hname := (hcat.mem_assigned.1 hassigned).2.2
    have hstrip : strip svc.name = svc.name := by rw [hname, strip_strip]
    refine ⟨svc, hsvc, hassigned, hname, ?_⟩
    exact sublist_of_length_optionsOf (hcat.naming_sublist hsvc hstrip.symm) (h svc hsvc).length_eq.ge
  constructor
  · intro m hm hkind
    obtain ⟨svc, -, hassigned, hname, -, hevents⟩ := hown m hm
    have hmem : m ∈ (cat.naming svc).filter MessageDef.isUdpEvent := by
      rw [hevents]
      exact List.mem_filter.2 ⟨hassigned, hkind⟩
    rw [← hname, (Catalog.mem_naming.1 (List.mem_filter.1 hmem).1).2]
  · intro m hm hkind hblank
    constructor
    · intro hnamed
      obtain ⟨svc, hsvc, hname⟩ := List.mem_map.1 hnamed
      have hperm := h svc hsvc
      rw [Catalog.offered, hcat.assigned_eq_nil (hname ▸ hblank)] at hperm
      have hnil := (optionsOf_eq_nil.1 hperm.eq_nil m (Catalog.mem_naming.2 ⟨hm, hname.symm⟩)).1
      rw [hkind] at hnil
      cases hnil
    · obtain ⟨svc, -, hassigned, hname, hports, -⟩ := hown m hm
      obtain ⟨m', hm', hkind', hport⟩ := mem_tcpPorts.1 (hports (mem_tcpPorts.2 ⟨m, hassigned, hkind, rfl⟩))
      obtain ⟨hmem', htext⟩ := Catalog.mem_naming.1 hm'
      exact ⟨m', hmem', hkind', htext.trans hname, hport⟩

end Names

/-! ### Windows -/

def SdOption.port : SdOption → Int
  | .ipv4Endpoint _ port _ => port
  | .ipv4Multicast _ port => port

theorem SdOption.onWire_port (o : SdOption) : o.onWire.port = o.port % 2 ^ 16 := by
  cases o <;> rfl

theorem length_optionWindow_le (all : List SdOption) (start count : Nat) :
    (optionWindow all start count).length ≤ count % 16 := List.length_take_le ..

theorem port_lt_of_mem_optionWindow {all : List SdOption} {start count : Nat} {o : SdOption}
    (h : o ∈ optionWindow all start count) : o.port < 2 ^ 16 := by
  obtain ⟨o', -, rfl⟩ := List.mem_map.1 (List.mem_of_mem_drop (List.mem_of_mem_take h))
  rw [SdOption.onWire_port]
  omega

/-- A window that lies in the list is empty only where its number is cut to 0. -/
theorem optionWindow_eq_nil {all : List SdOption} {start count : Nat} (hlen : start + count ≤ all.length)
    (h : optionWindow all start count = []) : count % 16 = 0 := by
  have hzero := congrArg List.length h
  rw [optionWindow, List.length_take, List.length_drop, List.length_map, List.length_nil] at hzero
  have hmod := Nat.mod_le start 256
  omega

theorem mem_optionsOf {ip : String} {ms : List MessageDef} {o : SdOption} : o ∈ optionsOf ip ms ↔
    (∃ m ∈ ms, m.isTcpMethod = true ∧ tcpOption ip m.tcpPort = o) ∨
      ∃ m ∈ ms, m.isUdpEvent = true ∧ udpOption ip m = o := by
  rw [optionsOf, List.mem_append, List.mem_map, List.mem_map]
  refine or_congr ?_ (exists_congr fun m => by rw [List.mem_filter, and_assoc])
  constructor
  · rintro ⟨p, hp, rfl⟩
    obtain ⟨m, hm, hkind, rfl⟩ := mem_tcpPorts.1 hp
    exact ⟨m, hm, hkind, rfl⟩
  · rintro ⟨m, hm, hkind, rfl⟩
    exact ⟨m.tcpPort, mem_tcpPorts.2 ⟨m, hm, hkind, rfl⟩, rfl⟩

theorem udpOption_port (ip : String) (m : MessageDef) : (udpOption ip m).port = m.udpPort := by
  rw [udpOption]
  split_ifs <;> rfl

namespace Catalog
variable {cat : Catalog} {ip : String}

structure PortsFit (cat : Catalog) : Prop where
  tcp : ∀ m ∈ cat.messages, m.isTcpMethod = true → m.tcpPort < 2 ^ 16
  udp : ∀ m ∈ cat.messages, m.isUdpEvent = true → m.udpPort < 2 ^ 16

theorem Announceable.packOption_ok (h : cat.Announceable ip) {svc : ServiceDef} {o : SdOption}
    (ho : o ∈ cat.announced ip svc) : ∃ bs, packOption o = .ok bs := by
  rcases mem_optionsOf.1 ho with ⟨m, -, -, rfl⟩ | ⟨m, hm, hkind, rfl⟩
  · exact (exists_packOption_endpoint_iff (by decide)).2 h.ip.isSome_aton
  · rw [udpOption]
    split_ifs with hmode
    · exact exists_packOption_multicast_iff.2 (h.groups m (mem_naming.1 hm).1 hkind hmode).isSome_aton
    · exact (exists_packOption_endpoint_iff (by decide)).2 h.ip.isSome_aton

theorem PortsFit.fits (hports : cat.PortsFit) (h : cat.Announceable ip) {svc : ServiceDef} {o : SdOption}
    (ho : o ∈ cat.announced ip svc) : o.Fits := by
  rcases mem_optionsOf.1 ho with ⟨m, hm, hkind, rfl⟩ | ⟨m, hm, hkind, rfl⟩
  · have hmem := (mem_naming.1 hm).1
    have hport : FitsBits 16 m.tcpPort := ⟨(h.tcp m hmem hkind).port_pos.le, hports.tcp m hmem hkind⟩
    exact ⟨h.ip, hport, by decide⟩
  · have hmem := (mem_naming.1 hm).1
    have hport : FitsBits 16 m.udpPort := ⟨(h.udp m hmem hkind).port_pos.le, hports.udp m hmem hkind⟩
    rw [udpOption]
    split_ifs with hmode
    · exact ⟨h.groups m hmem hkind hmode, hport⟩
    · exact ⟨h.ip, hport, by decide⟩

/-- All options of a message of the announcer. -/
def allOptions (cat : Catalog) (ip : String) : List SdOption := cat.services.flatMap (cat.announced ip)

/-- What holds of each service, given the services before it. -/
def ForServices (cat : Catalog) (P : List ServiceDef → ServiceDef → Prop) : Prop :=
  ∀ pre svc post, cat.services = pre ++ svc :: post → P pre svc

theorem mem_services_of_eq {pre post : List ServiceDef} {svc : ServiceDef}
    (h : cat.services = pre ++ svc :: post) : svc ∈ cat.services := by
  rw [h]
  exact List.mem_append_right _ (List.mem_cons_self ..)

/-- The index of the first option of a service, where `pre` are the services before it. -/
def startOf (cat : Catalog) (ip : String) (pre : List ServiceDef) : Nat :=
  (pre.flatMap (cat.announced ip)).length

/-- The options that the entry of a service gets back. -/
def window (cat : Catalog) (ip : String) (pre : List ServiceDef) (svc : ServiceDef) : List SdOption :=
  optionWindow (cat.allOptions ip) (cat.startOf ip pre) (cat.announced ip svc).length

theorem allOptions_eq {pre post : List ServiceDef} {svc : ServiceDef}
    (h : cat.services = pre ++ svc :: post) : cat.allOptions ip =
      pre.flatMap (cat.announced ip) ++ (cat.announced ip svc ++ post.flatMap (cat.announced ip)) := by
  rw [allOptions, h, List.flatMap_append, List.flatMap_cons]

/-- The options of every service start within reach of the 8-bit index, or the same options stand where
the cut index points to. -/
def Reach (cat : Catalog) (ip : String) : Prop :=
  cat.ForServices fun pre svc => cat.announced ip svc ≠ [] → cat.startOf ip pre ≤ 255 ∨
    (((cat.allOptions ip).drop (cat.startOf ip pre % 256)).take (cat.announced ip svc).length).Perm
      (cat.announced ip svc)

/-- The options of a service come back as those that `resolve_someip` assigns to it. -/
def ExactWindows (cat : Catalog) (ip : String) : Prop :=
  cat.ForServices fun pre svc => (cat.window ip pre svc).Perm (cat.offered ip svc)

namespace ExactWindows
variable {pre : List ServiceDef} {svc : ServiceDef}

theorem length_le_mod (h : (cat.window ip pre svc).Perm (cat.offered ip svc)) :
    (cat.offered ip svc).length ≤ (cat.announced ip svc).length % 16 := by
  rw [← h.length_eq]
  exact length_optionWindow_le ..

theorem length_le (h : cat.ExactWindows ip) (hsvc : svc ∈ cat.services) :
    (cat.offered ip svc).length ≤ 15 := by
  obtain ⟨pre, post, heq⟩ := List.append_of_mem hsvc
  have := length_le_mod (h pre svc post heq)
  omega

/-- A service whose name has blanks around it gets no options: it has at most the 15 of the service with
the bare name, and their number is cut to 0. -/
theorem announced_eq_nil (hcat : cat.Valid) (h : cat.ExactWindows ip) (hsvc : svc ∈ cat.services)
    (hname : strip svc.name ≠ svc.name) : cat.announced ip svc = [] := by
  obtain ⟨pre, post, heq⟩ := List.append_of_mem hsvc
  have hperm : (cat.window ip pre svc).Perm (cat.offered ip svc) := h pre svc post heq
  rw [offered, hcat.assigned_eq_nil hname] at hperm
  have hlen : cat.startOf ip pre + (cat.announced ip svc).length ≤ (cat.allOptions ip).length := by
    rw [allOptions_eq heq, List.length_append, List.length_append, startOf]
    omega
  have hzero := optionWindow_eq_nil hlen hperm.eq_nil
  have hfew : (cat.announced ip svc).length ≤ 15 := by
    rcases hnaming : cat.naming svc with _ | ⟨m, ms⟩
    · rw [announced, hnaming]
      exact Nat.zero_le _
    · obtain ⟨hm, htext⟩ := mem_naming.1 (hnaming ▸ List.mem_cons_self ..)
      obtain ⟨svc', hsvc', hassigned⟩ := hcat.exists_assigned hm
      have hname' := (hcat.mem_assigned.1 hassigned).2.2
      rw [htext] at hname'
      exact (length_optionsOf_le (hcat.naming_sublist hsvc' hname')).trans (h.length_le hsvc')
  exact List.length_eq_zero_iff.1 (by omega)

theorem perm (hcat : cat.Valid) (h : cat.ExactWindows ip) (hsvc : svc ∈ cat.services) :
    (cat.announced ip svc).Perm (cat.offered ip svc) := by
  by_cases hname : strip svc.name = svc.name
  · obtain ⟨pre, post, heq⟩ := List.append_of_mem hsvc
    have hmod := length_le_mod (h pre svc post heq)
    have hle := Nat.mod_le (cat.announced ip svc).length 16
    exact optionsOf_perm_of_sublist (hcat.naming_sublist hsvc hname.symm) (hmod.trans hle)
  · rw [announced_eq_nil hcat h hsvc hname, offered, hcat.assigned_eq_nil hname]
    exact .nil

theorem port_lt (h : cat.ExactWindows ip) (hsvc : svc ∈ cat.services) {o : SdOption}
    (ho : o ∈ cat.offered ip svc) : o.port < 2 ^ 16 := by
  obtain ⟨pre, post, heq⟩ := List.append_of_mem hsvc
  exact port_lt_of_mem_optionWindow ((h pre svc post heq).mem_iff.2 ho)

theorem portsFit (hcat : cat.Valid) (h : cat.ExactWindows ip) : cat.PortsFit := by
  constructor
  · intro m hm hkind
    obtain ⟨svc, hsvc, hassigned⟩ := hcat.exists_assigned hm
    exact h.port_lt hsvc (mem_optionsOf.2 (.inl ⟨m, hassigned, hkind, rfl⟩))
  · intro m hm hkind
    obtain ⟨svc, hsvc, hassigned⟩ := hcat.exists_assigned hm
    rw [← udpOption_port ip m]
    exact h.port_lt hsvc (mem_optionsOf.2 (.inr ⟨m, hassigned, hkind, rfl⟩))

end ExactWindows

theorem PortsFit.allOptions_onWire (hports : cat.PortsFit) (h : cat.Announceable ip) :
    (cat.allOptions ip).map SdOption.onWire = cat.allOptions ip := by
  conv_rhs => rw [← List.map_id (cat.allOptions ip)]
  refine List.map_congr_left fun o ho => ?_
  obtain ⟨svc, -, ho⟩ := List.mem_flatMap.1 ho
  exact (hports.fits h ho).onWire_eq

theorem PortsFit.window_eq (hports : cat.PortsFit) (h : cat.Announceable ip) (pre : List ServiceDef)
    {svc : ServiceDef} (hcount : (cat.announced ip svc).length ≤ 15) : cat.window ip pre svc =
      ((cat.allOptions ip).drop (cat.startOf ip pre % 256)).take (cat.announced ip svc).length := by
  rw [window, optionWindow, hports.allOptions_onWire h, Nat.mod_eq_of_lt (by omega)]

theorem exactWindows_iff (h : cat.Announceable ip) : cat.ExactWindows ip ↔
    cat.NamesFit ∧ cat.PortsFit ∧ (∀ svc ∈ cat.services, (cat.offered ip svc).length ≤ 15) ∧
      cat.Reach ip := by
  constructor
  · intro hwin
    have hports := hwin.portsFit h.valid
    refine ⟨(namesFit_iff h.valid).2 fun svc hsvc => hwin.perm h.valid hsvc, hports,
      fun svc hsvc => hwin.length_le hsvc, fun pre svc post heq _ => .inr ?_⟩
    have hsvc := mem_services_of_eq heq
    have hperm := hwin.perm h.valid hsvc
    have hcount : (cat.announced ip svc).length ≤ 15 := hperm.length_eq ▸ hwin.length_le hsvc
    rw [← hports.window_eq h pre hcount]
    exact (hwin pre svc post heq).trans hperm.symm
  · rintro ⟨hnames, hports, hcount, hreach⟩ pre svc post heq
    have hsvc := mem_services_of_eq heq
    have hperm : (cat.announced ip svc).Perm (cat.offered ip svc) := hnames.perm h.valid hsvc
    have hlen : (cat.announced ip svc).length ≤ 15 := hperm.length_eq ▸ hcount svc hsvc
    refine List.Perm.trans ?_ hperm
    by_cases hnil : cat.announced ip svc = []
    · rw [hports.window_eq h pre hlen, hnil]
      exact .nil
    · rcases hreach pre svc post heq hnil with hstart | hsame
      · rw [window, allOptions_eq heq, startOf, optionWindow_eq (fun o ho => hports.fits h ho) hlen
          fun _ => hstart]
      · rw [hports.window_eq h pre hlen]
        exact hsame

end Catalog

/-! ### Packets -/

/-- The entries of a list as they come back, each from behind the options of the entries before it. -/
theorem forall₂_entriesOnWire {α : Type} {R : α → SdEntry → Prop} {f : α → SdEntry}
    {all : List SdOption} {l : List α} {start : Nat} :
    List.Forall₂ R l (entriesOnWire all start (l.map f)) ↔ ∀ pre a post, l = pre ++ a :: post →
      R a ((f a).onWire all (start + (pre.flatMap fun b => (f b).options).length)) := by
  induction l generalizing start with
  | nil => exact iff_of_true .nil fun pre a post h => absurd h (by simp)
  | cons b l ih =>
    rw [List.map_cons, entriesOnWire, List.forall₂_cons, ih]
    constructor
    · rintro ⟨hb, hl⟩ (_ | ⟨c, pre⟩) a post h
      · cases h
        exact hb
      · cases h
        rw [List.flatMap_cons, List.length_append, ← Nat.add_assoc]
        exact hl pre a post rfl
    · intro h
      refine ⟨h [] b l rfl, fun pre a post heq => ?_⟩
      have := h (b :: pre) a post (by rw [heq]; rfl)
      rwa [List.flatMap_cons, List.length_append, ← Nat.add_assoc] at this

structure ServiceDef.IdsFit (svc : ServiceDef) : Prop where
  serviceId : FitsBits 16 svc.serviceId
  instanceId : FitsBits 16 svc.instanceId
  majorVersion : FitsBits 8 svc.majorVersion
  minorVersion : FitsBits 32 svc.minorVersion

/-- The entry offers the service with the options that `resolve_someip` assigns to it. -/
structure IsOffer (cat : Catalog) (ip : String) (svc : ServiceDef) (entry : ServiceEntry) : Prop where
  entryType : entry.entryType = etOfferService
  serviceId : entry.serviceId = svc.serviceId
  instanceId : entry.instanceId = svc.instanceId
  majorVersion : entry.majorVersion = svc.majorVersion
  minorVersion : entry.minorVersion = svc.minorVersion
  options : entry.options.Perm (cat.offered ip svc)

/-- The packet parses to one exact offer for each service, in order. -/
def Announces (cat : Catalog) (ip : String) (pkt : Bytes) : Prop :=
  ∃ msg, parseSdMessage pkt = .ok (some msg) ∧
    List.Forall₂ (fun svc entry => ∃ e, entry = .service e ∧ IsOffer cat ip svc e) cat.services msg.entries

/-- The announcer sends a packet in every period, and all of them are exact. -/
def SdAnnouncer.Exact (a : SdAnnouncer) (cat : Catalog) (ip : String) : Prop :=
  ∀ n, ∃ pkts, a.run n = .ok pkts ∧ pkts.length = n ∧ ∀ pkt ∈ pkts, Announces cat ip pkt

/-- What the catalog has to keep to: the limits of the wire format, and service texts without blanks. -/
structure Catalog.OffersFit (cat : Catalog) (ip : String) : Prop where
  ids : ∀ svc ∈ cat.services, svc.IdsFit
  names : cat.NamesFit
  ports : cat.PortsFit
  count : ∀ svc ∈ cat.services, (cat.offered ip svc).length ≤ 15
  reach : cat.Reach ip
  size : 20 + 16 * cat.services.length + 12 * (cat.allOptions ip).length < 2 ^ 32

section Packets
variable {cat : Catalog} {ip : String}

/-- The announcer of a catalog, at any session counter. -/
def announcerOf (cat : Catalog) (ip : String) (seq : Int) : SdAnnouncer :=
  ⟨cat.services.map (offerEntry cat ip), seq⟩

theorem flatMap_options_announcerOf (cat : Catalog) (ip : String) (seq : Int) :
    ((announcerOf cat ip seq).entries.map SdEntry.service).flatMap SdEntry.options = cat.allOptions ip := by
  rw [announcerOf, List.map_map, List.flatMap_map]
  rfl

theorem isOffer_onWire_iff {pre : List ServiceDef} {svc : ServiceDef} :
    (∃ e, (SdEntry.service (offerEntry cat ip svc)).onWire (cat.allOptions ip) (cat.startOf ip pre) =
        .service e ∧ IsOffer cat ip svc e) ↔
      svc.IdsFit ∧ (cat.window ip pre svc).Perm (cat.offered ip svc) := by
  constructor
  · rintro ⟨e, he, hoffer⟩
    cases he
    exact ⟨⟨.of_emod_eq hoffer.serviceId, .of_emod_eq hoffer.instanceId, .of_emod_eq hoffer.majorVersion,
      .of_emod_eq hoffer.minorVersion⟩, hoffer.options⟩
  · rintro ⟨hids, hwin⟩
    exact ⟨_, rfl, rfl, hids.serviceId.emod_eq, hids.instanceId.emod_eq, hids.majorVersion.emod_eq,
      hids.minorVersion.emod_eq, hwin⟩

theorem announces_iff_of_build {seq flags : Int} {pkt : Bytes}
    (h : buildSdMessage seq ((announcerOf cat ip seq).entries.map .service) flags = .ok pkt) :
    Announces cat ip pkt ↔ (∀ svc ∈ cat.services, svc.IdsFit) ∧ cat.ExactWindows ip := by
  have htype : ∀ e ∈ (announcerOf cat ip seq).entries.map SdEntry.service, e.TypeOk := by
    intro e he
    obtain ⟨entry, hentry, rfl⟩ := List.mem_map.1 he
    obtain ⟨svc, -, rfl⟩ := List.mem_map.1 hentry
    exact .inl rfl
  have hparse := parseSdMessage_build h htype
  rw [flatMap_options_announcerOf] at hparse
  have hentries : Announces cat ip pkt ↔
      List.Forall₂ (fun svc entry => ∃ e, entry = .service e ∧ IsOffer cat ip svc e) cat.services
        (entriesOnWire (cat.allOptions ip) 0
          (cat.services.map fun svc => .service (offerEntry cat ip svc))) := by
    rw [announcerOf, List.map_map] at hparse
    constructor
    · rintro ⟨msg, hmsg, hall⟩
      cases hparse.symm.trans hmsg
      exact hall
    · exact fun hall => ⟨_, hparse, hall⟩
  have hservices : Announces cat ip pkt ↔
      cat.ForServices fun pre svc => svc.IdsFit ∧ (cat.window ip pre svc).Perm (cat.offered ip svc) := by
    rw [hentries, forall₂_entriesOnWire]
    refine forall_congr' fun pre => forall_congr' fun svc => forall_congr' fun post => ?_
    rw [Nat.zero_add]
    exact imp_congr_right fun _ => isOffer_onWire_iff
  rw [hservices]
  constructor
  · intro hall
    refine ⟨fun svc hsvc => ?_, fun pre svc post heq => (hall pre svc post heq).2⟩
    obtain ⟨pre, post, heq⟩ := List.append_of_mem hsvc
    exact (hall pre svc post heq).1
  · rintro ⟨hids, hwin⟩ pre svc post heq
    exact ⟨hids svc (Catalog.mem_services_of_eq heq), hwin pre svc post heq⟩

theorem exists_buildSdMessage_announcerOf (h : cat.Announceable ip)
    (hsize : 20 + 16 * cat.services.length + 12 * (cat.allOptions ip).length < 2 ^ 32) (seq : Int) :
    ∃ pkt, buildSdMessage seq ((announcerOf cat ip seq).entries.map .service) defaultSdFlags = .ok pkt := by
  refine exists_buildSdMessage (fun o ho => ?_) ?_
  · rw [flatMap_options_announcerOf] at ho
    obtain ⟨svc, -, ho⟩ := List.mem_flatMap.1 ho
    exact h.packOption_ok ho
  · rw [flatMap_options_announcerOf, announcerOf, List.length_map, List.length_map]
    exact hsize

theorem announce_of_offersFit (h : cat.Announceable ip) (hfit : cat.OffersFit ip) (seq : Int) :
    ∃ pkt, (announcerOf cat ip seq).announce = .ok (pkt, announcerOf cat ip ((seq + 1) % 2 ^ 16)) ∧
      Announces cat ip pkt := by
  obtain ⟨pkt, hpkt⟩ := exists_buildSdMessage_announcerOf h hfit.size seq
  have hwin := (Catalog.exactWindows_iff h).2 ⟨hfit.names, hfit.ports, hfit.count, hfit.reach⟩
  refine ⟨pkt, ?_, (announces_iff_of_build hpkt).2 ⟨hfit.ids, hwin⟩⟩
  rw [SdAnnouncer.announce]
  exact Except.bind_eq_ok.2 ⟨pkt, hpkt, rfl⟩

theorem exact_of_offersFit (h : cat.Announceable ip) (hfit : cat.OffersFit ip) (seq : Int) :
    (announcerOf cat ip seq).Exact cat ip := by
  intro n
  induction n generalizing seq with
  | zero => exact ⟨[], rfl, rfl, fun pkt hpkt => (nomatch hpkt)⟩
  | succ n ih =>
    obtain ⟨pkt, hpkt, hexact⟩ := announce_of_offersFit h hfit seq
    obtain ⟨pkts, hpkts, hlen, hall⟩ := ih ((seq + 1) % 2 ^ 16)
    refine ⟨pkt :: pkts, ?_, by rw [List.length_cons, hlen], ?_⟩
    · rw [SdAnnouncer.run, hpkt, Except.ok_bind]
      dsimp only
      rw [hpkts]
      rfl
    · intro p hp
      rcases List.mem_cons.1 hp with rfl | hp
      · exact hexact
      · exact hall p hp

/-- What the first packet of an exact announcer says about the catalog. -/
theorem offersFit_of_exact {seq : Int}
    (hexact : (announcerOf cat ip seq).Exact cat ip) :
    (∀ svc ∈ cat.services, svc.IdsFit) ∧ cat.ExactWindows ip ∧
      20 + 16 * cat.services.length + 12 * (cat.allOptions ip).length < 2 ^ 32 := by
  obtain ⟨pkts, hrun, -, hall⟩ := hexact 1
  rw [SdAnnouncer.run, SdAnnouncer.announce] at hrun
  obtain ⟨r, hr, hrun⟩ := Except.bind_eq_ok.1 hrun
  obtain ⟨pkt, hpkt, hr⟩ := Except.bind_eq_ok.1 hr
  cases hr
  cases hrun
  obtain ⟨hids, hwin⟩ := (announces_iff_of_build hpkt).1 (hall pkt (List.mem_cons_self ..))
  refine ⟨hids, hwin, ?_⟩
  have hsize := buildSdMessage_size hpkt
  rwa [flatMap_options_announcerOf, announcerOf, List.length_map, List.length_map] at hsize

variable {routes : Routes} {udpEvents : UdpEvents}

/-- The announcements of a catalog are exact exactly when it keeps to the limits. -/
theorem announces_iff {doc : Value} (hload : loadCatalog doc = .ok cat)
    (hroutes : buildTcpRoutes cat (.fromSignals cat.signals) = .ok routes)
    (hevents : buildUdpEvents cat (.fromSignals cat.signals) = .ok udpEvents)
    (hip : Inet.Canonical ip) (hgroups : cat.GroupsCanonical) :
    (∃ a, SdAnnouncer.init cat routes udpEvents ip = .ok a ∧ a.Exact cat ip) ↔ cat.OffersFit ip := by
  have h : cat.Announceable ip := .of_build (.of_loadCatalog hload) hroutes hevents hip hgroups
  rw [SdAnnouncer.init_eq h hroutes hevents]
  constructor
  · rintro ⟨a, ha, hexact⟩
    cases ha
    obtain ⟨hids, hwin, hsize⟩ := offersFit_of_exact hexact
    obtain ⟨hnames, hports, hcount, hreach⟩ := (Catalog.exactWindows_iff h).1 hwin
    exact ⟨hids, hnames, hports, hcount, hreach, hsize⟩
  · exact fun hfit => ⟨_, rfl, exact_of_offersFit h hfit 0⟩

end Packets

/-! ### Examples -/

theorem Catalog.Reach.of_length {cat : Catalog} {ip : String} (h : (cat.allOptions ip).length ≤ 255) :
    cat.Reach ip := by
  intro pre svc post heq _
  rw [allOptions_eq heq, List.length_append] at h
  exact .inl (by unfold startOf; omega)

theorem canonical_localhost : Inet.Canonical "127.0.0.1" := ⟨0x7f000001, by decide, by decide⟩

theorem groupsCanonical_of_unicast {cat : Catalog} (h : ∀ m ∈ cat.messages, m.udpMode ≠ "multicast") :
    cat.GroupsCanonical := fun m hm _ hmode => absurd hmode (h m hm)

theorem announces_example :
    ∃ a, SdAnnouncer.init exampleCatalog exampleRoutes exampleEvents "127.0.0.1" = .ok a ∧
      a.Exact exampleCatalog "127.0.0.1" := by
  have hblank : ∀ m ∈ exampleCatalog.messages, strip m.serviceText = m.serviceText := by decide +kernel
  refine (announces_iff loadCatalog_example buildTcpRoutes_example buildUdpEvents_example
    canonical_localhost (groupsCanonical_of_unicast (by decide +kernel))).2 ⟨?_, ⟨?_, ?_⟩, ⟨?_, ?_⟩, ?_,
      .of_length (by decide +kernel), by decide +kernel⟩
  · have hids : ∀ svc ∈ exampleCatalog.services, FitsBits 16 svc.serviceId ∧ FitsBits 16 svc.instanceId ∧
        FitsBits 8 svc.majorVersion ∧ FitsBits 32 svc.minorVersion := by decide +kernel
    intro svc hsvc
    obtain ⟨h₁, h₂, h₃, h₄⟩ := hids svc hsvc
    exact ⟨h₁, h₂, h₃, h₄⟩
  · exact fun m hm _ => hblank m hm
  · exact fun m hm _ hne => absurd (hblank m hm) hne
  · decide +kernel
  · decide +kernel
  · decide +kernel

/-- An event on a port of its own. -/
def crowdedEvent (i : Nat) : Value :=
  .dict [("name", .str s!"event_{i}"), ("msg_id", .int (30 + i)), ("kind", .str "event"),
    ("transport", .str "udp"), ("period_ms", .int 25), ("udp", .dict [("port", .int (30512 + i))]),
    ("someip", .dict [("service", .str "powertrain_service"), ("event_id", .int (0x8001 + i)),
      ("eventgroup_id", .int 1)]),
    ("signals", .list [.str "throttle_position"])]

/-- A document with one service that has a method and 15 events, thus 16 options. -/
def crowdedDoc : Value :=
  .dict [
    ("version", .int 1),
    ("discovery", .dict [("group", .str "239.0.0.2"), ("port", .int 30490), ("ttl", .int 1),
      ("iface", .str "eth0")]),
    ("signals", .list [.dict [("name", .str "throttle_position"), ("type", .str "u8")]]),
    ("services", .list [
      .dict [("name", .str "powertrain_service"), ("service_id", .int 0x1002),
        ("instance_id", .int 1)]]),
    ("messages", .list (
      .dict [("name", .str "set_throttle"), ("msg_id", .int 20), ("kind", .str "method"),
        ("transport", .str "tcp"), ("tcp", .dict [("port", .int 30502)]),
        ("someip", .dict [("service", .str "powertrain_service"), ("method_id", .int 1)]),
        ("signals", .list [.str "throttle_position"])] ::
      (List.range 15).map crowdedEvent))]

def crowdedCatalog : Catalog := (loadCatalog crowdedDoc).get (by decide +kernel)

def crowdedRoutes : Routes :=
  (buildTcpRoutes crowdedCatalog (.fromSignals crowdedCatalog.signals)).get (by decide +kernel)

def crowdedEvents : UdpEvents :=
  (buildUdpEvents crowdedCatalog (.fromSignals crowdedCatalog.signals)).get (by decide +kernel)

/-- The number 16 does not fit in 4 bits. -/
theorem crowded_not_announced :
    loadCatalog crowdedDoc = .ok crowdedCatalog ∧
      buildTcpRoutes crowdedCatalog (.fromSignals crowdedCatalog.signals) = .ok crowdedRoutes ∧
      buildUdpEvents crowdedCatalog (.fromSignals crowdedCatalog.signals) = .ok crowdedEvents ∧
      Inet.Canonical "127.0.0.1" ∧ crowdedCatalog.GroupsCanonical ∧
      ¬ ∃ a, SdAnnouncer.init crowdedCatalog crowdedRoutes crowdedEvents "127.0.0.1" = .ok a ∧
        a.Exact crowdedCatalog "127.0.0.1" := by
  have hload : loadCatalog crowdedDoc = .ok crowdedCatalog := Except.eq_ok_get _
  have hroutes : buildTcpRoutes crowdedCatalog (.fromSignals crowdedCatalog.signals) = .ok crowdedRoutes :=
    Except.eq_ok_get _
  have hevents : buildUdpEvents crowdedCatalog (.fromSignals crowdedCatalog.signals) = .ok crowdedEvents :=
    Except.eq_ok_get _
  have hcrowded : (∀ m ∈ crowdedCatalog.messages, m.udpMode ≠ "multicast") ∧ crowdedCatalog.services ≠ [] ∧
      ∀ svc ∈ crowdedCatalog.services, (crowdedCatalog.offered "127.0.0.1" svc).length = 16 := by
    decide +kernel
  obtain ⟨hunicast, hsome, hcount⟩ := hcrowded
  have hgroups : crowdedCatalog.GroupsCanonical := groupsCanonical_of_unicast hunicast
  refine ⟨hload, hroutes, hevents, canonical_localhost, hgroups, ?_⟩
  rintro ⟨a, ha, hexact⟩
  have h : crowdedCatalog.Announceable "127.0.0.1" :=
    .of_build (.of_loadCatalog hload) hroutes hevents canonical_localhost hgroups
  rw [SdAnnouncer.init_eq h hroutes hevents] at ha
  obtain rfl := Except.ok.inj ha
  obtain ⟨-, hwin, -⟩ := offersFit_of_exact hexact
  obtain ⟨svc, hsvc⟩ := List.exists_mem_of_ne_nil _ hsome
  have hle := hwin.length_le hsvc
  rw [hcount svc hsvc] at hle
  exact absurd hle (by decide)

end AutoEth
