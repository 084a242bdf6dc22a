import AutoEth.Announcement
import AutoEth.UdpSubscribe

/-!
# Instances of a service

A message names its service, and everything after `resolve_someip` looks for the service by its id: the
subscribes of the client take instance and major version from the first service of the catalog with that
id, and the search for an offer stops at the first offer with it. The validator keeps the names of
services apart, not their ids. `addressesOwn_iff` says for which services this finds their own.
-/

namespace AutoEth

/-! ### What the client reads of an announcement -/

/-- The port of a TCP endpoint. -/
def SdOption.tcpPort? : SdOption → Option Int
  | .ipv4Endpoint _ port l4Proto => if l4Proto = l4Tcp then some port else none
  | .ipv4Multicast _ _ => none

theorem SdOption.tcpPort?_onWire (o : SdOption) : o.onWire.tcpPort? = o.tcpPort?.map (· % 2 ^ 16) := by
  cases o with
  | ipv4Endpoint address port l4Proto =>
    simp only [onWire, tcpPort?]
    split_ifs
    · rfl
    · rfl
  | ipv4Multicast address port => rfl

def findOfferEntry (msg : SdMessage) (svcId : Int) : Option ServiceEntry :=
  msg.entries.findSome? fun
    | .service e => if e.entryType = etOfferService ∧ e.serviceId = svcId then some e else none
    | .eventgroup _ => none

def tcpPortFromEntry (entry : ServiceEntry) : Option Int := entry.options.findSome? SdOption.tcpPort?

def SdEntry.Offers (svcId : Int) : SdEntry → Prop
  | .service e => e.entryType = etOfferService ∧ e.serviceId = svcId
  | .eventgroup _ => False

/-- The search for the id stops at the entry number `i`. -/
structure SelectsAt (msg : SdMessage) (svcId : Int) (i : Nat) (entry : ServiceEntry) : Prop where
  getElem? : msg.entries[i]? = some (.service entry)
  offers : (SdEntry.service entry).Offers svcId
  before : ∀ e ∈ msg.entries.take i, ¬ e.Offers svcId

theorem SelectsAt.findOfferEntry {msg : SdMessage} {svcId : Int} {i : Nat} {entry : ServiceEntry}
    (h : SelectsAt msg svcId i entry) : findOfferEntry msg svcId = some entry := by
  obtain ⟨hlt, hget⟩ := List.getElem?_eq_some_iff.1 h.getElem?
  have hsplit : msg.entries = msg.entries.take i ++ .service entry :: msg.entries.drop (i + 1) := by
    rw [← hget, ← List.drop_eq_getElem_cons hlt, List.take_append_drop]
  have hnone : ∀ e ∈ msg.entries.take i, (match e with
      | .service e => if e.entryType = etOfferService ∧ e.serviceId = svcId then some e else none
      | .eventgroup _ => none) = (none : Option ServiceEntry) := by
    intro e he
    cases e with
    | service e => exact if_neg (h.before _ he)
    | eventgroup e => rfl
  rw [AutoEth.findOfferEntry, hsplit, List.findSome?_append, List.findSome?_eq_none_iff.2 hnone,
    Option.none_or, List.findSome?_cons]
  dsimp only
  rw [if_pos (show entry.entryType = etOfferService ∧ entry.serviceId = svcId from h.offers)]

/-! ### What the announcer sends -/

theorem entriesOnWire_append (all : List SdOption) (start : Nat) (l l' : List SdEntry) :
    entriesOnWire all start (l ++ l') = entriesOnWire all start l ++
      entriesOnWire all (start + (l.flatMap SdEntry.options).length) l' := by
  induction l generalizing start with
  | nil => rfl
  | cons e l ih =>
    rw [List.cons_append, entriesOnWire, entriesOnWire, ih, List.flatMap_cons, List.length_append,
      List.cons_append, Nat.add_assoc]

theorem length_entriesOnWire (all : List SdOption) (start : Nat) (l : List SdEntry) :
    (entriesOnWire all start l).length = l.length := by
  induction l generalizing start with
  | nil => rfl
  | cons e l ih => rw [entriesOnWire, List.length_cons, List.length_cons, ih]

theorem exists_of_mem_entriesOnWire {all : List SdOption} {start : Nat} {l : List SdEntry} {e : SdEntry} :
    e ∈ entriesOnWire all start l → ∃ e' ∈ l, ∃ start, e = e'.onWire all start := by
  induction l generalizing start with
  | nil => exact nofun
  | cons e' l ih =>
    intro h
    rcases List.mem_cons.1 h with rfl | h
    · exact ⟨e', List.mem_cons_self .., start, rfl⟩
    · obtain ⟨e'', he'', hwire⟩ := ih h
      exact ⟨e'', List.mem_cons_of_mem _ he'', hwire⟩

theorem exists_onWire_mem_entriesOnWire {all : List SdOption} {start : Nat} {l : List SdEntry} {e : SdEntry} :
    e ∈ l → ∃ start', e.onWire all start' ∈ entriesOnWire all start l := by
  induction l generalizing start with
  | nil => exact nofun
  | cons e' l ih =>
    intro h
    rcases List.mem_cons.1 h with rfl | h
    · exact ⟨start, List.mem_cons_self ..⟩
    · obtain ⟨start', hmem⟩ := @ih (start + e'.options.length) h
      exact ⟨start', List.mem_cons_of_mem _ hmem⟩

namespace SdAnnouncer
variable {a : SdAnnouncer}

/-- The options of the announcement. -/
def allOptions (a : SdAnnouncer) : List SdOption := a.entries.flatMap (·.options)

/-- The index of the first option of the entry number `i`. -/
def startAt (a : SdAnnouncer) (i : Nat) : Nat := ((a.entries.take i).flatMap (·.options)).length

/-- The options that the entry number `i` gets back, `count` of which are its own. -/
def windowAt (a : SdAnnouncer) (i count : Nat) : List SdOption := optionWindow a.allOptions (a.startAt i) count

theorem exists_build_of_mem_run {n : Nat} {pkts : List Bytes} (h : a.run n = .ok pkts) {pkt : Bytes}
    (hpkt : pkt ∈ pkts) : ∃ seq, buildSdMessage seq (a.entries.map .service) defaultSdFlags = .ok pkt := by
  induction n generalizing a pkts with
  | zero =>
    cases h
    cases hpkt
  | succ n ih =>
    rw [run, announce] at h
    obtain ⟨r, hr, h⟩ := Except.bind_eq_ok.1 h
    obtain ⟨first, hfirst, hr⟩ := Except.bind_eq_ok.1 hr
    cases hr
    obtain ⟨rest, hrest, h⟩ := Except.bind_eq_ok.1 h
    cases h
    rcases List.mem_cons.1 hpkt with rfl | hpkt
    · exact ⟨_, hfirst⟩
    · obtain ⟨seq, hbuild⟩ := ih hrest hpkt
      exact ⟨seq, hbuild⟩

theorem parse_of_build (hoffer : ∀ e ∈ a.entries, e.entryType = etOfferService) {seq : Int} {pkt : Bytes}
    (h : buildSdMessage seq (a.entries.map .service) defaultSdFlags = .ok pkt) :
    ∃ msg, parseSdMessage pkt = .ok (some msg) ∧
      msg.entries = entriesOnWire a.allOptions 0 (a.entries.map .service) := by
  have hall : (a.entries.map SdEntry.service).flatMap SdEntry.options = a.allOptions := List.flatMap_map ..
  refine ⟨_, parseSdMessage_build h fun e he => ?_, by rw [hall]⟩
  obtain ⟨entry, hentry, rfl⟩ := List.mem_map.1 he
  exact .inl (hoffer entry hentry)

section Entries
variable {msg : SdMessage} {pre post : List ServiceEntry} {entry : ServiceEntry}

theorem entries_of_split (hmsg : msg.entries = entriesOnWire a.allOptions 0 (a.entries.map .service))
    (hsplit : a.entries = pre ++ entry :: post) :
    msg.entries.take pre.length = entriesOnWire a.allOptions 0 (pre.map .service) ∧
      msg.entries[pre.length]? =
        some ((SdEntry.service entry).onWire a.allOptions (a.startAt pre.length)) := by
  have hown : a.entries.take pre.length = pre := by rw [hsplit, List.take_left' rfl]
  have hstart : 0 + ((pre.map SdEntry.service).flatMap SdEntry.options).length = a.startAt pre.length := by
    rw [Nat.zero_add, startAt, hown, List.flatMap_map]
    rfl
  have hlength : (entriesOnWire a.allOptions 0 (pre.map .service)).length = pre.length := by
    rw [length_entriesOnWire, List.length_map]
  have hentries : msg.entries = entriesOnWire a.allOptions 0 (pre.map .service) ++
      (SdEntry.service entry).onWire a.allOptions (a.startAt pre.length) ::
        entriesOnWire a.allOptions (a.startAt pre.length + entry.options.length) (post.map .service) := by
    rw [hmsg, hsplit, List.map_append, entriesOnWire_append, hstart]
    rfl
  constructor
  · rw [hentries, List.take_left' hlength]
  · rw [hentries, List.getElem?_append_right hlength.le, hlength, Nat.sub_self]
    rfl

theorem options_of_selectsAt (hmsg : msg.entries = entriesOnWire a.allOptions 0 (a.entries.map .service))
    (hsplit : a.entries = pre ++ entry :: post) {svcId : Int} {e : ServiceEntry}
    (h : SelectsAt msg svcId pre.length e) : e.options = a.windowAt pre.length entry.options.length := by
  cases (entries_of_split hmsg hsplit).2.symm.trans h.getElem?
  rfl

/-- The search for the id of an entry stops at it exactly when the id has 16 bits and no entry before it
has the same id on the wire. -/
theorem selectsAt_iff (hoffer : ∀ e ∈ a.entries, e.entryType = etOfferService)
    (hmsg : msg.entries = entriesOnWire a.allOptions 0 (a.entries.map .service))
    (hsplit : a.entries = pre ++ entry :: post) :
    (∃ e, SelectsAt msg entry.serviceId pre.length e) ↔
      FitsBits 16 entry.serviceId ∧ ∀ e ∈ pre, e.serviceId % 2 ^ 16 ≠ entry.serviceId := by
  obtain ⟨hbefore, hget⟩ := entries_of_split hmsg hsplit
  have hpre : ∀ e ∈ pre, e.entryType = etOfferService := by
    intro e he
    refine hoffer e ?_
    rw [hsplit]
    exact List.mem_append_left _ he
  have hself : entry.entryType = etOfferService := by
    refine hoffer entry ?_
    rw [hsplit]
    exact List.mem_append_right _ (List.mem_cons_self ..)
  constructor
  · rintro ⟨e, hsel⟩
    cases hget.symm.trans hsel.getElem?
    refine ⟨.of_emod_eq hsel.offers.2, fun x hx heq => ?_⟩
    obtain ⟨start, hwire⟩ := @exists_onWire_mem_entriesOnWire a.allOptions 0 _ _
      (List.mem_map_of_mem (f := SdEntry.service) hx)
    rw [← hbefore] at hwire
    exact hsel.before _ hwire ⟨hpre x hx, heq⟩
  · rintro ⟨hfits, hdistinct⟩
    refine ⟨_, hget, ⟨hself, hfits.emod_eq⟩, fun x hx => ?_⟩
    rw [hbefore] at hx
    obtain ⟨x', hx', start, rfl⟩ := exists_of_mem_entriesOnWire hx
    obtain ⟨e, he, rfl⟩ := List.mem_map.1 hx'
    exact fun hoffers => hdistinct e he hoffers.2

end Entries

end SdAnnouncer

/-! ### The entries of the announcer -/

section Build
variable {cat : Catalog} {sigIndex : SignalIndex} {routes : Routes} {udpEvents : UdpEvents} {ip : String}
  {svc : ServiceDef}

/-- The second loop of the builder adds no TCP endpoint. -/
theorem tcpPort?_addUdpOption {opts opts' : List SdOption} {r : EventRoute}
    (h : addUdpOption svc ip opts r = .ok opts') (hopts : ∀ o ∈ opts, o.tcpPort? = none) :
    ∀ o ∈ opts', o.tcpPort? = none := by
  have hadd (o : SdOption) (ho : o.tcpPort? = none) : ∀ o' ∈ opts ++ [o], o'.tcpPort? = none := by
    intro o' ho'
    rcases List.mem_append.1 ho' with ho' | ho'
    · exact hopts o' ho'
    · rw [List.mem_singleton.1 ho', ho]
  obtain ⟨text, -, h⟩ := Except.bind_eq_ok.1 h
  split_ifs at h
  · cases h
    exact hopts
  obtain ⟨mode, -, h⟩ := Except.bind_eq_ok.1 h
  obtain ⟨port, -, h⟩ := Except.bind_eq_ok.1 h
  split_ifs at h
  · obtain ⟨group, -, h⟩ := Except.bind_eq_ok.1 h
    split_ifs at h
    · cases h
      exact hadd _ rfl
    · cases h
      exact hopts
  · cases h
    exact hadd _ rfl
  · cases h
    exact hopts

theorem tcpPort?_foldlM_addUdpOption {l : List EventRoute} {opts opts' : List SdOption}
    (h : l.foldlM (addUdpOption svc ip) opts = .ok opts') (hopts : ∀ o ∈ opts, o.tcpPort? = none) :
    ∀ o ∈ opts', o.tcpPort? = none := by
  induction l generalizing opts with
  | nil =>
    cases h
    exact hopts
  | cons r l ih =>
    rw [List.foldlM_cons] at h
    obtain ⟨opts₁, h₁, h⟩ := Except.bind_eq_ok.1 h
    exact ih h (tcpPort?_addUdpOption h₁ hopts)

/-- The entry of a service: its ids, and the ports of the methods that name it. -/
structure BuiltFor (cat : Catalog) (svc : ServiceDef) (e : ServiceEntry) : Prop where
  entryType : e.entryType = etOfferService
  serviceId : e.serviceId = svc.serviceId
  ports : ∀ o ∈ e.options, ∀ p, o.tcpPort? = some p → p ∈ tcpPorts (cat.naming svc)

theorem builtFor_of_buildEntry (hcat : cat.Valid) (hroutes : buildTcpRoutes cat sigIndex = .ok routes)
    {e : ServiceEntry} (h : buildEntry routes udpEvents ip svc = .ok e) : BuiltFor cat svc e := by
  have hvalues := values_buildTcpRoutes hroutes
  have hreads : ∀ r ∈ routes.values, r.msg.ReadsTcp := by
    intro r hr
    obtain ⟨hm, hkind⟩ := List.mem_filter.1 (hvalues ▸ List.mem_map_of_mem (f := MethodRoute.msg) hr)
    obtain ⟨e, he, -⟩ := get?_of_isTcpMethod hroutes hm hkind
    obtain ⟨p, hp, -⟩ := he.port
    exact hcat.readsTcp hm hkind hp
  have htcp := foldlM_addTcpOption svc ip hreads []
  dsimp only at htcp
  rw [hvalues, Distinct.foldl_insertNew List.nodup_nil, List.map_nil] at htcp
  rw [buildEntry, htcp, Except.ok_bind] at h
  obtain ⟨udpOpts, hudp, h⟩ := Except.bind_eq_ok.1 h
  cases h
  refine ⟨rfl, rfl, fun o ho p hp => ?_⟩
  rcases List.mem_append.1 ho with ho | ho
  · obtain ⟨q, hq, rfl⟩ := List.mem_map.1 ho
    cases hp
    rw [List.nil_append, List.mem_eraseDups] at hq
    obtain ⟨m, hm, rfl⟩ := List.mem_map.1 hq
    obtain ⟨hm, hname⟩ := List.mem_filter.1 hm
    obtain ⟨hm, hkind⟩ := List.mem_filter.1 hm
    exact mem_tcpPorts.2 ⟨m, Catalog.mem_naming.2 ⟨hm, by simpa using hname⟩, hkind, rfl⟩
  · rw [tcpPort?_foldlM_addUdpOption hudp (List.forall_mem_nil _) o ho] at hp
    cases hp

theorem forall₂_builtFor (hcat : cat.Valid) (hroutes : buildTcpRoutes cat sigIndex = .ok routes)
    {a : SdAnnouncer} (h : SdAnnouncer.init cat routes udpEvents ip = .ok a) :
    List.Forall₂ (BuiltFor cat) cat.services a.entries := by
  obtain ⟨entries, hentries, h⟩ := Except.bind_eq_ok.1 h
  cases h
  exact (Except.mapM_eq_ok.1 hentries).imp fun svc e he => builtFor_of_buildEntry hcat hroutes he

end Build

/-! ### Addressing -/

/-- The subscribe carries instance and major version of the service. -/
def EventgroupEntry.Addresses (svc : ServiceDef) (e : EventgroupEntry) : Prop :=
  e.instanceId = svc.instanceId ∧ e.majorVersion = svc.majorVersion

/-- What a client does for the message, which resolves to `svcId`, is addressed to the service number `i`:
the subscribes of `toggle_sub`, `_send_subscribe` and `_udp_subscribe`, and the offer and the port that it
finds in the packet. -/
structure AddressesOwn (cat : Catalog) (m : MessageDef) (svcId : Int) (svc : ServiceDef) (i : Nat)
    (pkt : Bytes) : Prop where
  context : m.isUdpEvent = true → ∀ c : ClientContext, c.cat = cat → ∀ egid port,
    (c.subscribeCall svcId egid port).entry.Addresses svc ∧
      ∀ stop, (c.subscribeEntry svcId egid port stop).Addresses svc
  commandLine : m.isUdpEvent = true → ∀ a : UdpSubscribe, a.cat = cat → ∀ egid port,
    (a.call svcId egid port).entry.Addresses svc
  offer : ∃ msg e, parseSdMessage pkt = .ok (some msg) ∧ SelectsAt msg svcId i e ∧
    ∀ p, tcpPortFromEntry e = some p → p ≠ 0 → p ∈ tcpPorts (cat.assigned svc)

/-- The first TCP port in the window of the entry number `i`, if there is any, is one of the service. -/
def SdAnnouncer.OffersOwnPort (a : SdAnnouncer) (cat : Catalog) (svc : ServiceDef) (i : Nat) : Prop :=
  ∀ e, a.entries[i]? = some e → ∀ p, (a.windowAt i e.options.length).findSome? SdOption.tcpPort? = some p →
    p ≠ 0 → p ∈ tcpPorts (cat.assigned svc)

/-- The options of the entry number `i` are within the limits of the wire format. -/
def SdAnnouncer.OptionsFit (a : SdAnnouncer) (i : Nat) : Prop :=
  ∀ e, a.entries[i]? = some e → a.startAt i ≤ 255 ∧ e.options.length ≤ 15

section Addressing
variable {cat : Catalog} {m : MessageDef} {svc : ServiceDef} {pre post : List ServiceDef} {a : SdAnnouncer}

theorem serviceById_eq (hservices : cat.services = pre ++ svc :: post) (hfits : FitsBits 16 svc.serviceId)
    (hdistinct : ∀ t ∈ pre, t.serviceId % 2 ^ 16 ≠ svc.serviceId) :
    cat.serviceById svc.serviceId = some svc := by
  rw [Catalog.serviceById, List.find?_eq_some_iff_append]
  refine ⟨decide_eq_true rfl, pre, post, hservices, fun t ht => ?_⟩
  rw [Bool.not_eq_true', decide_eq_false_iff_not]
  intro heq
  refine hdistinct t ht ?_
  rw [heq, hfits.emod_eq]

theorem entries_split (hall : List.Forall₂ (BuiltFor cat) cat.services a.entries)
    (hservices : cat.services = pre ++ svc :: post) : ∃ pre' entry post', a.entries = pre' ++ entry :: post' ∧
      List.Forall₂ (BuiltFor cat) pre pre' ∧ BuiltFor cat svc entry := by
  rw [hservices] at hall
  have htake := List.forall₂_take_append _ _ _ hall.flip
  have hdrop := List.forall₂_drop_append _ _ _ hall.flip
  rcases hrest : a.entries.drop pre.length with _ | ⟨entry, post'⟩
  · rw [hrest] at hdrop
    cases hdrop
  · rw [hrest] at hdrop
    cases hdrop with
    | cons hentry _ =>
      refine ⟨a.entries.take pre.length, entry, post', ?_, htake.flip, hentry⟩
      rw [← hrest, List.take_append_drop]

theorem offersOwnPort_of_fit (hcat : cat.Valid) (hm : m ∈ cat.assigned svc)
    (hall : List.Forall₂ (BuiltFor cat) cat.services a.entries) (hservices : cat.services = pre ++ svc :: post)
    (hfit : a.OptionsFit pre.length) (hports : ∀ p ∈ tcpPorts (cat.assigned svc), FitsBits 16 p) :
    a.OffersOwnPort cat svc pre.length := by
  obtain ⟨-, hsvc, hname⟩ := hcat.mem_assigned.1 hm
  have hstrip : svc.name = strip svc.name := by rw [hname, strip_strip]
  have hnaming := (hcat.naming_sublist hsvc hstrip).subset
  obtain ⟨pre', entry, post', hsplit, hpre, hentry⟩ := entries_split hall hservices
  intro e he p hp _
  rw [hpre.length_eq] at he hp hfit
  have hget : a.entries[pre'.length]? = some entry := by rw [hsplit]; simp
  cases hget.symm.trans he
  obtain ⟨hstart, hcount⟩ := hfit entry hget
  have hstartAt : a.startAt pre'.length = (pre'.flatMap (·.options)).length := by
    rw [SdAnnouncer.startAt, hsplit, List.take_left' rfl]
  have hall : a.allOptions = pre'.flatMap (·.options) ++ (entry.options ++ post'.flatMap (·.options)) := by
    rw [SdAnnouncer.allOptions, hsplit, List.flatMap_append, List.flatMap_cons]
  rw [hstartAt] at hstart
  rw [SdAnnouncer.windowAt, hstartAt, hall, optionWindow_own hcount fun _ => hstart] at hp
  obtain ⟨o, ho, hport⟩ := List.exists_of_findSome?_eq_some hp
  obtain ⟨o', ho', rfl⟩ := List.mem_map.1 ho
  rw [SdOption.tcpPort?_onWire] at hport
  obtain ⟨q, hq, rfl⟩ := Option.map_eq_some_iff.1 hport
  obtain ⟨m', hm', hkind, rfl⟩ := mem_tcpPorts.1 (hentry.ports o' ho' q hq)
  have hmem := mem_tcpPorts.2 ⟨m', hnaming hm', hkind, rfl⟩
  rwa [(hports _ hmem).emod_eq]

theorem serviceId_of_resolveSomeip (hcat : cat.Valid) (hm : m ∈ cat.assigned svc)
    {svcId ifaceVer someipId : Int} (hresolve : resolveSomeip cat m = .ok (svcId, ifaceVer, someipId)) :
    svcId = svc.serviceId := by
  obtain ⟨hmem, hsvc, hname⟩ := hcat.mem_assigned.1 hm
  obtain ⟨svc', hsvc', hassigned, rfl, -⟩ := hcat.resolveSomeip_assigned hmem hresolve
  have hname' := (hcat.mem_assigned.1 hassigned).2.2
  rw [List.inj_on_of_nodup_map hcat.service_names hsvc' hsvc (hname'.trans hname.symm)]

theorem forall_serviceId_iff {svcs : List ServiceDef} {entries : List ServiceEntry}
    (h : List.Forall₂ (BuiltFor cat) svcs entries) {P : Int → Prop} :
    (∀ e ∈ entries, P e.serviceId) ↔ ∀ t ∈ svcs, P t.serviceId := by
  constructor
  · intro hentries t ht
    obtain ⟨e, he, hbuilt⟩ := h.exists_right ht
    exact hbuilt.serviceId ▸ hentries e he
  · intro hsvcs e he
    obtain ⟨t, ht, hbuilt⟩ := h.exists_left he
    exact hbuilt.serviceId.symm ▸ hsvcs t ht

theorem ClientContext.addresses_of_serviceById {c : ClientContext} {svcId : Int}
    (h : c.cat.serviceById svcId = some svc) (egid port : Int) :
    (c.subscribeCall svcId egid port).entry.Addresses svc ∧
      ∀ stop, (c.subscribeEntry svcId egid port stop).Addresses svc := by
  refine ⟨?_, fun stop => ?_⟩
  · unfold EventgroupEntry.Addresses SubscribeCall.entry ClientContext.subscribeCall
    rw [h]
    exact ⟨rfl, rfl⟩
  · unfold EventgroupEntry.Addresses ClientContext.subscribeEntry
    rw [h]
    exact ⟨rfl, rfl⟩

theorem UdpSubscribe.addresses_of_serviceById {b : UdpSubscribe} {svcId : Int}
    (h : b.cat.serviceById svcId = some svc) (egid port : Int) :
    (b.call svcId egid port).entry.Addresses svc := by
  unfold EventgroupEntry.Addresses SubscribeCall.entry UdpSubscribe.call
  rw [h]
  exact ⟨rfl, rfl⟩

/-- What the client does for a message is addressed to the service of the message exactly when the id of
the service has 16 bits, no service listed before it has the same id on the wire, and the window of its
options shows one of its ports first; the last of this holds within the limits of the wire format. -/
theorem addressesOwn_iff {doc : Value} (hload : loadCatalog doc = .ok cat) {routes : Routes}
    (hroutes : buildTcpRoutes cat (.fromSignals cat.signals) = .ok routes) {udpEvents : UdpEvents} {ip : String}
    (hinit : SdAnnouncer.init cat routes udpEvents ip = .ok a) {n : Nat} {pkts : List Bytes}
    (hrun : a.run n = .ok pkts) {pkt : Bytes} (hpkt : pkt ∈ pkts)
    (hservices : cat.services = pre ++ svc :: post) (hm : m ∈ cat.assigned svc) {svcId ifaceVer someipId : Int}
    (hresolve : resolveSomeip cat m = .ok (svcId, ifaceVer, someipId)) :
    (AddressesOwn cat m svcId svc pre.length pkt ↔ FitsBits 16 svc.serviceId ∧
      (∀ t ∈ pre, t.serviceId % 2 ^ 16 ≠ svc.serviceId) ∧ a.OffersOwnPort cat svc pre.length) ∧
    (a.OptionsFit pre.length → (∀ p ∈ tcpPorts (cat.assigned svc), FitsBits 16 p) →
      a.OffersOwnPort cat svc pre.length) := by
  have hcat : cat.Valid := .of_loadCatalog hload
  have hall := forall₂_builtFor hcat hroutes hinit
  refine ⟨?_, fun hfit hports => offersOwnPort_of_fit hcat hm hall hservices hfit hports⟩
  obtain rfl := serviceId_of_resolveSomeip hcat hm hresolve
  have hoffer : ∀ e ∈ a.entries, e.entryType = etOfferService := by
    intro e he
    obtain ⟨t, -, ht⟩ := hall.exists_left he
    exact ht.entryType
  obtain ⟨pre', entry, post', hsplit, hpre, hentry⟩ := entries_split hall hservices
  obtain ⟨seq, hbuild⟩ := SdAnnouncer.exists_build_of_mem_run hrun hpkt
  obtain ⟨msg, hparse, hmsg⟩ := SdAnnouncer.parse_of_build hoffer hbuild
  have hget : a.entries[pre'.length]? = some entry := by rw [hsplit]; simp
  have hselects := SdAnnouncer.selectsAt_iff hoffer hmsg hsplit
  rw [hentry.serviceId, forall_serviceId_iff hpre (P := fun id => id % 2 ^ 16 ≠ svc.serviceId)] at hselects
  rw [hpre.length_eq]
  constructor
  · intro h
    obtain ⟨msg', e, hparse', hsel, hport⟩ := h.offer
    cases hparse.symm.trans hparse'
    obtain ⟨hfits, hdistinct⟩ := hselects.1 ⟨e, hsel⟩
    refine ⟨hfits, hdistinct, fun e' he' p hp hne => ?_⟩
    cases hget.symm.trans he'
    refine hport p ?_ hne
    rw [tcpPortFromEntry, SdAnnouncer.options_of_selectsAt hmsg hsplit hsel, hp]
  · rintro ⟨hfits, hdistinct, hown⟩
    have hfind := serviceById_eq hservices hfits hdistinct
    obtain ⟨e, hsel⟩ := hselects.2 ⟨hfits, hdistinct⟩
    refine ⟨fun _ c hc => ?_, fun _ b hb => ?_, msg, e, hparse, hsel, fun p hp hne => hown entry hget p ?_ hne⟩
    · subst hc
      exact ClientContext.addresses_of_serviceById hfind
    · subst hb
      exact UdpSubscribe.addresses_of_serviceById hfind
    · rw [← SdAnnouncer.options_of_selectsAt hmsg hsplit hsel]
      exact hp

end Addressing

/-! ### Examples -/

def exampleAnnouncer : SdAnnouncer :=
  (SdAnnouncer.init exampleCatalog exampleRoutes exampleEvents "127.0.0.1").get (by decide +kernel)

def exampleService : ServiceDef := exampleCatalog.services.head (by decide +kernel)

def examplePackets : List Bytes := (exampleAnnouncer.run 1).get (by decide +kernel)

/-- The first announcement of the example. -/
def examplePacket : Bytes := examplePackets.head (by decide +kernel)

theorem addressesOwn_example :
    AddressesOwn exampleCatalog exampleMethod 0x1002 exampleService 0 examplePacket := by
  have hpkt : examplePacket ∈ examplePackets := List.head_mem _
  have hservices : exampleCatalog.services = [] ++ exampleService :: [] := by decide +kernel
  have hassigned : exampleMethod ∈ exampleCatalog.assigned exampleService := by
    refine List.mem_filter.2 ⟨List.head_mem _, by decide +kernel⟩
  obtain ⟨hiff, hown⟩ := addressesOwn_iff loadCatalog_example buildTcpRoutes_example (Except.eq_ok_get _)
    (Except.eq_ok_get _) hpkt hservices hassigned resolveSomeip_example
  have hfit : exampleAnnouncer.OptionsFit 0 := by
    intro e he
    have hentries : ∀ e ∈ exampleAnnouncer.entries, e.options.length ≤ 15 := by decide +kernel
    exact ⟨by decide +kernel, hentries e (List.mem_of_getElem? he)⟩
  exact hiff.2 ⟨by decide +kernel, nofun, hown hfit (by decide +kernel)⟩

/-- Two instances of a service. -/
def twinsDoc : Value :=
  .dict [
    ("discovery", .dict [("group", .str "239.0.0.2"), ("port", .int 30490), ("ttl", .int 1),
      ("iface", .str "eth0")]),
    ("signals", .list [.dict [("name", .str "brake_pressure"), ("type", .str "u8")]]),
    ("services", .list [
      .dict [("name", .str "front_brake"), ("service_id", .int 0x1002), ("instance_id", .int 1)],
      .dict [("name", .str "rear_brake"), ("service_id", .int 0x1002), ("instance_id", .int 2)]]),
    ("messages", .list [
      .dict [("name", .str "set_front"), ("msg_id", .int 20), ("kind", .str "method"),
        ("transport", .str "tcp"), ("tcp", .dict [("port", .int 30502)]),
        ("someip", .dict [("service", .str "front_brake"), ("method_id", .int 1)]),
        ("signals", .list [.str "brake_pressure"])],
      .dict [("name", .str "set_rear"), ("msg_id", .int 21), ("kind", .str "method"),
        ("transport", .str "tcp"), ("tcp", .dict [("port", .int 30503)]),
        ("someip", .dict [("service", .str "rear_brake"), ("method_id", .int 2)]),
        ("signals", .list [.str "brake_pressure"])],
      .dict [("name", .str "rear_status"), ("msg_id", .int 30), ("kind", .str "event"),
        ("transport", .str "udp"), ("period_ms", .int 25), ("udp", .dict [("port", .int 30512)]),
        ("someip", .dict [("service", .str "rear_brake"), ("event_id", .int 0x8001),
          ("eventgroup_id", .int 1)]),
        ("signals", .list [.str "brake_pressure"])]])]

def twinsCatalog : Catalog := (loadCatalog twinsDoc).get (by decide +kernel)

def twinsRoutes : Routes :=
  (buildTcpRoutes twinsCatalog (.fromSignals twinsCatalog.signals)).get (by decide +kernel)

def twinsEvents : UdpEvents :=
  (buildUdpEvents twinsCatalog (.fromSignals twinsCatalog.signals)).get (by decide +kernel)

def twinsAnnouncer : SdAnnouncer :=
  (SdAnnouncer.init twinsCatalog twinsRoutes twinsEvents "127.0.0.1").get (by decide +kernel)

def twinsPacket : Bytes := (twinsAnnouncer.announce.get (by decide +kernel)).1

def rearBrake : ServiceDef := twinsCatalog.services.getLast (by decide +kernel)

def rearStatus : MessageDef := twinsCatalog.messages.getLast (by decide +kernel)

/-- The event of the second instance is subscribed at the first, and the offer found is that of the first. -/
theorem twins_addressed_to_first :
    loadCatalog twinsDoc = .ok twinsCatalog ∧
    buildTcpRoutes twinsCatalog (.fromSignals twinsCatalog.signals) = .ok twinsRoutes ∧
    buildUdpEvents twinsCatalog (.fromSignals twinsCatalog.signals) = .ok twinsEvents ∧
    SdAnnouncer.init twinsCatalog twinsRoutes twinsEvents "127.0.0.1" = .ok twinsAnnouncer ∧
    twinsAnnouncer.run 1 = .ok [twinsPacket] ∧ rearStatus ∈ twinsCatalog.assigned rearBrake ∧
    resolveSomeip twinsCatalog rearStatus = .ok (0x1002, 1, 0x8001) ∧
    ¬ AddressesOwn twinsCatalog rearStatus 0x1002 rearBrake 1 twinsPacket ∧
    ∃ msg e, parseSdMessage twinsPacket = .ok (some msg) ∧ findOfferEntry msg 0x1002 = some e ∧
      e.instanceId = 1 ∧ tcpPortFromEntry e = some 30502 ∧ 30502 ∉ tcpPorts (twinsCatalog.assigned rearBrake) := by
  have hbuilt : twinsAnnouncer.announce = .ok _ := Except.eq_ok_get (by decide +kernel)
  have hassigned : rearStatus ∈ twinsCatalog.assigned rearBrake :=
    List.mem_filter.2 ⟨List.getLast_mem _, by decide +kernel⟩
  have hinstance : rearBrake.instanceId = 2 := by decide +kernel
  have hkind : rearStatus.isUdpEvent = true := by decide +kernel
  refine ⟨Except.eq_ok_get _, Except.eq_ok_get _, Except.eq_ok_get _, Except.eq_ok_get _, ?_, hassigned, rfl,
    fun h => ?_, ?_⟩
  · rw [SdAnnouncer.run, hbuilt]
    rfl
  · have hwrong := (h.context hkind ⟨twinsCatalog, .fromSignals [], "", "", 0, "", ∅⟩ rfl 1 30512).1.1
    rw [hinstance] at hwrong
    exact absurd hwrong (by decide +kernel)
  · exact ⟨_, _, rfl, rfl, rfl, rfl, by decide +kernel⟩

end AutoEth
