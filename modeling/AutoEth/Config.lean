import AutoEth.Floats
import AutoEth.Lib.Dict

/-!
# The catalog

Signals, services and messages as `load_catalog` builds them from a parsed YAML document, the checks
of `Catalog.validate` in their order, and the lookups that the applications make in an accepted
catalog (`resolveSomeip`, `resolveEventgroupId`). The parsed document is the argument of
`loadCatalog`; the YAML parser itself is not modelled. The numbers of the signals are of any kind of
`FloatArith`, the exact rationals where none is named.
-/

namespace AutoEth

structure SignalDef (V : Type := ℚ) where
  name : String
  type : String
  scale : V
  offset : V
  unit : String
  default : V
deriving DecidableEq

structure ServiceDef where
  name : String
  serviceId : Int
  instanceId : Int
  interfaceVersion : Int
  majorVersion : Int
  minorVersion : Int
deriving DecidableEq

/-- A message of the catalog. The mapping blocks `udp`, `tcp`, `someip` and `e2e` stay the values of
the document (`null` where missing); `someip` is normalized by `normalizeSomeip`. -/
structure MessageDef where
  name : String
  msgId : Int
  kind : String
  transport : String
  signals : List String
  periodMs : Option Int
  udp : Value
  tcp : Value
  someip : Value
  e2e : Value

structure Catalog (V : Type := ℚ) where
  version : Int
  signals : List (SignalDef V)
  services : List ServiceDef
  messages : List MessageDef
  discovery : Value

variable {V : Type}

/-- `if p: x`. -/
def checkIf (p : Prop) [Decidable p] (x : Except PyErr Unit) : Except PyErr Unit :=
  if p then x else .ok ()

@[simp] theorem checkIf_eq_ok {p : Prop} [Decidable p] {x : Except PyErr Unit} {u : Unit} :
    checkIf p x = .ok u ↔ (p → x = .ok ()) := by
  unfold checkIf; split <;> simp_all

/-! ### Validation -/

/-- `try: int(v) except (TypeError, ValueError): raise ValueError(msg)`. -/
def tryInt (v : Value) (msg : String) : Except PyErr Int :=
  match v.toInt with
  | .error (.valueError _) | .error (.typeError _) => .error (.valueError msg)
  | r => r

theorem tryInt_eq_ok {v : Value} {msg : String} {n : Int} : tryInt v msg = .ok n ↔ v.toInt = .ok n := by
  unfold tryInt; split <;> simp_all

def validateDiscovery (disc : Value) : Except PyErr Unit := do
  raiseIf (disc.truthy = false) (.valueError "discovery: missing (required)")
  raiseIf (disc.typeName ≠ "dict") (.valueError "discovery: expected mapping")
  let group := strip (← disc.getD "group" (.str "")).toStr
  raiseIf (group = "") (.valueError "discovery.group missing")
  let port ← tryInt (← disc.getD "port" (.int 0)) "discovery.port invalid"
  raiseIf (port ≤ 0 ∨ 65535 < port) (.valueError "discovery.port invalid")
  let ttl ← tryInt (← disc.getD "ttl" (.int 0)) "discovery.ttl invalid"
  raiseIf (ttl < 0 ∨ 255 < ttl) (.valueError "discovery.ttl invalid")
  let iface := strip (← disc.getD "iface" (.str "")).toStr
  raiseIf (iface = "") (.valueError "discovery.iface missing")

def allowedTypes : List String := ["u8", "i8", "u16", "i16", "u32", "i32"]

def validateSignal [FloatArith V] (s : SignalDef V) : Except PyErr Unit := do
  raiseIf (s.type ∉ allowedTypes) (.valueError s!"signal {s.name}: unsupported type {s.type}")
  raiseIf (FloatArith.isZero s.scale = true) (.valueError s!"signal {s.name}: scale must not be 0")

/-- The checks of a transport block, which `udp` and `tcp` share. -/
def validatePort (name proto : String) (cfg : Value) : Except PyErr Unit := do
  raiseIf (cfg.truthy = false) (.valueError s!"{name}: {proto} block missing")
  raiseIf ((← cfg.contains "port") = false) (.valueError s!"{name}.{proto}.port missing")
  let port ← tryInt (← cfg.getD "port" (.int 0)) s!"{name}.{proto}.port invalid"
  raiseIf (port ≤ 0) (.valueError s!"{name}.{proto}.port invalid")

def validateUdp (m : MessageDef) : Except PyErr Unit := do
  validatePort m.name "udp" m.udp
  let mode := (← m.udp.getD "mode" (.str "unicast")).toStr
  let group ← m.udp.getD "mcast_group" .null
  raiseIf (mode = "multicast" ∧ group.truthy = false)
    (.valueError s!"{m.name}.udp.mcast_group missing for multicast")

def validateE2e (m : MessageDef) : Except PyErr Unit := do
  let enabled ← m.e2e.orEmpty.getD "enabled" (.bool false)
  checkIf (enabled.truthy = true) do
    let algo ← m.e2e.orEmpty.getD "crc16" (.str "ccitt-false")
    raiseIf (algo.toStr ≠ "ccitt-false") (.valueError s!"{m.name}.e2e.crc16 must be 'ccitt-false'")

def validateMessage (sigSet : List String) (m : MessageDef) : Except PyErr Unit := do
  raiseIf (¬ (0 ≤ m.msgId ∧ m.msgId ≤ 255)) (.valueError s!"{m.name}.msg_id must be 0..255")
  raiseIf (m.kind ∉ ["event", "method"]) (.valueError s!"{m.name}.kind invalid: {m.kind}")
  raiseIf (m.transport ∉ ["udp", "tcp"])
    (.valueError s!"{m.name}.transport invalid: {m.transport}")
  raiseIf (m.signals = []) (.valueError s!"{m.name}.signals must not be empty")
  let missing := m.signals.filter (· ∉ sigSet)
  raiseIf (missing ≠ []) (.valueError (s!"{m.name}.signals missing: " ++ reprStrs missing))
  checkIf (m.transport = "udp") (validateUdp m)
  checkIf (m.transport = "tcp") (validatePort m.name "tcp" m.tcp)
  checkIf (m.kind = "event") do
    raiseIf (m.transport = "tcp")
      (.valueError s!"{m.name}: event over tcp not supported in this project")
    raiseIf (m.periodMs = none) (.valueError s!"{m.name}.period_ms missing for event")
  checkIf (m.kind = "method") do
    raiseIf (m.transport = "udp")
      (.valueError s!"{m.name}: method over udp not supported in this project")
  validateE2e m

def validateSomeip (svcSet : List String) (m : MessageDef) : Except PyErr Unit := do
  raiseIf (m.someip.truthy = false) (.valueError s!"{m.name}: someip block missing")
  let svcName := strip (← m.someip.getD "service" (.str "")).toStr
  raiseIf (svcName = "") (.valueError s!"{m.name}.someip.service missing")
  raiseIf (svcName ∉ svcSet) (.valueError s!"{m.name}.someip.service unknown: {svcName}")
  checkIf (m.kind = "event") do
    raiseIf ((← m.someip.contains "event_id") = false)
      (.valueError s!"{m.name}.someip.event_id missing")
  checkIf (m.kind = "method") do
    raiseIf ((← m.someip.contains "method_id") = false)
      (.valueError s!"{m.name}.someip.method_id missing")

namespace Catalog

/-- Each `len(l) != len(set(l))` of the source says that `l` has duplicates. -/
def validate [FloatArith V] (cat : Catalog V) : Except PyErr Unit := do
  validateDiscovery cat.discovery
  let sigNames : List String := cat.signals.map (·.name)
  raiseIf (¬ sigNames.Nodup) (.valueError "signals: duplicate names")
  raiseIf (¬ (cat.messages.map (·.msgId)).Nodup) (.valueError "messages: duplicate msg_id")
  raiseIf (¬ (cat.messages.map (·.name)).Nodup) (.valueError "messages: duplicate name")
  forM cat.signals validateSignal
  forM cat.messages (validateMessage sigNames)
  let svcNames : List String := cat.services.map (·.name)
  raiseIf (¬ svcNames.Nodup) (.valueError "services: duplicate names")
  forM cat.messages (validateSomeip svcNames)

def servicesByName (cat : Catalog V) : Dict String ServiceDef :=
  Dict.ofList (cat.services.map fun s => (s.name, s))

end Catalog

/-! ### Loading -/

/-- `_as_int(v, field)`, which leaves an `int` or `bool` as it is. -/
def asInt (v : Value) (field : String) : Except PyErr Value :=
  match v with
  | .int n => .ok (.int n)
  | .bool b => .ok (.bool b)
  | .str s => (intOfString 0 s).map .int
  | v => .error (.typeError s!"{field}: expected int or str, got {v.typeName}")

/-- `out[key] = _as_int(out[key], field)` where the key is present. -/
def normalizeId (field key : String) (items : List (String × Value)) :
    Except PyErr (List (String × Value)) :=
  match items.lookup key with
  | none => .ok items
  | some v => do return assocSet key (← asInt v s!"{field}.someip.{key}") items

def normalizeSomeip (mRaw : Value) (name : String) : Except PyErr Value := do
  match ← mRaw.getD "someip" .null with
  | .null => return .null
  | .dict items =>
    let items := match items.lookup "service" with
      | none => items
      | some v => assocSet "service" (.str v.toStr) items
    let items ← normalizeId name "event_id" items
    let items ← normalizeId name "method_id" items
    let items ← normalizeId name "eventgroup_id" items
    return .dict items
  | _ => .error (.typeError s!"{name}.someip: expected dict")

def loadSignal [FloatArith V] (s : Value) : Except PyErr (SignalDef V) := do
  return {
    name := (← s.item "name").toStr
    type := (← s.item "type").toStr
    scale := ← (← s.getD "scale" (.int 1)).toNum
    offset := ← (← s.getD "offset" (.int 0)).toNum
    unit := (← s.getD "unit" (.str "")).toStr
    default := ← (← s.getD "default" (.int 0)).toNum }

def loadService (sv : Value) : Except PyErr ServiceDef := do
  let name := (← sv.item "name").toStr
  let field := (← sv.getD "name" (.str "service")).toStr
  return {
    name
    serviceId := ← (← asInt (← sv.item "service_id") s!"{field}.service_id").toInt
    instanceId := ← (← asInt (← sv.item "instance_id") s!"{field}.instance_id").toInt
    interfaceVersion := ← (← sv.getD "interface_version" (.int 1)).toInt
    majorVersion := ← (← sv.getD "major_version" (.int 1)).toInt
    minorVersion := ← (← sv.getD "minor_version" (.int 0)).toInt }

def loadMessage (m : Value) : Except PyErr MessageDef := do
  let name := (← m.item "name").toStr
  let field := (← m.getD "name" (.str "message")).toStr
  return {
    name
    msgId := ← (← asInt (← m.item "msg_id") s!"{field}.msg_id").toInt
    kind := (← m.item "kind").toStr
    transport := (← m.item "transport").toStr
    periodMs := ← match ← m.get? "period_ms" with
      | none => .ok none
      | some v => some <$> v.toInt
    udp := ← m.getD "udp" .null
    tcp := ← m.getD "tcp" .null
    someip := ← normalizeSomeip m (← m.getD "name" (.str "message")).toStr
    signals := (← (← m.getD "signals" (.list [])).iter).map Value.toStr
    e2e := ← m.getD "e2e" .null }

/-- The catalog of a parsed document, not yet validated. -/
def readCatalog [FloatArith V] (doc : Value) : Except PyErr (Catalog V) := do
  let raw := doc.orEmpty
  let version ← (← raw.getD "version" (.int 1)).toInt
  let signals ← (← (← raw.getD "signals" (.list [])).iter).mapM loadSignal
  let services ← (← (← raw.getD "services" (.list [])).iter).mapM loadService
  let messages ← (← (← raw.getD "messages" (.list [])).iter).mapM loadMessage
  let discovery ← raw.getD "discovery" .null
  return { version, signals, services, messages, discovery }

/-- `load_catalog` from the parsed document on. -/
def loadCatalog [FloatArith V] (doc : Value) : Except PyErr (Catalog V) := do
  let cat ← readCatalog doc
  cat.validate
  return cat

/-! ### What an accepted catalog satisfies -/

def SignalDef.Valid [FloatArith V] (s : SignalDef V) : Prop :=
  s.type ∈ allowedTypes ∧ FloatArith.isZero s.scale = false

theorem SignalDef.Valid.scale_ne {s : SignalDef} (h : s.Valid) : s.scale ≠ 0 :=
  of_decide_eq_false h.2

/-- The checks an accepted catalog has passed. -/
structure Catalog.Valid [FloatArith V] (cat : Catalog V) : Prop where
  signal_names : (cat.signals.map (·.name)).Nodup
  message_names : (cat.messages.map (·.name)).Nodup
  service_names : (cat.services.map (·.name)).Nodup
  signal : ∀ s ∈ cat.signals, s.Valid
  message : ∀ m ∈ cat.messages, validateMessage (cat.signals.map (·.name)) m = .ok ()
  someip : ∀ m ∈ cat.messages, validateSomeip (cat.services.map (·.name)) m = .ok ()

theorem Catalog.Valid.of_validate [FloatArith V] {cat : Catalog V} (h : cat.validate = .ok ()) : cat.Valid := by
  simp only [Catalog.validate, Except.bind_eq_ok, raiseIf_eq_ok, Except.forM_eq_ok, not_not] at h
  obtain ⟨-, -, -, hsig, -, -, -, hmsg, -, hs, -, hm, -, hsvc, hsom⟩ := h
  refine ⟨hsig, hmsg, hsvc, fun s hs' => ?_, hm, hsom⟩
  have := hs s hs'
  simp only [validateSignal, Except.bind_eq_ok, raiseIf_eq_ok, not_not] at this
  obtain ⟨-, h₁, h₂⟩ := this
  exact ⟨h₁, by simpa using h₂⟩

theorem Catalog.Valid.of_loadCatalog [FloatArith V] {doc : Value} {cat : Catalog V}
    (h : loadCatalog doc = .ok cat) : cat.Valid := by
  simp only [loadCatalog, Except.bind_eq_ok, Except.pure_eq_ok, Except.ok.injEq] at h
  obtain ⟨_, -, _, hv, rfl⟩ := h
  exact .of_validate hv

theorem validatePort_ok {name proto : String} {cfg : Value} {u : Unit}
    (h : validatePort name proto cfg = .ok u) :
    ∃ items v p, cfg = .dict items ∧ cfg.truthy = true ∧ items.lookup "port" = some v ∧
      v.toInt = .ok p ∧ 0 < p := by
  simp only [validatePort, Except.bind_eq_ok, raiseIf_eq_ok, tryInt_eq_ok] at h
  obtain ⟨-, htrue, b, hb, -, hcontains, v, hv, p, hp, hpos⟩ := h
  obtain ⟨items, rfl, rfl⟩ := Value.getD_eq_ok.1 hv
  cases hb
  obtain ⟨v, hv⟩ := Option.isSome_iff_exists.1 (Bool.not_eq_false _ ▸ hcontains)
  rw [hv, Option.getD_some] at hp
  exact ⟨items, v, p, rfl, by simpa using htrue, hv, hp, by omega⟩

/-- What a message that passed the checks satisfies. -/
structure MessageDef.Checked (names : List String) (m : MessageDef) : Prop where
  kind : m.kind = "event" ∧ m.transport = "udp" ∨ m.kind = "method" ∧ m.transport = "tcp"
  signals : ∀ n ∈ m.signals, n ∈ names
  udp : m.transport = "udp" → validateUdp m = .ok ()
  tcp : m.transport = "tcp" → validatePort m.name "tcp" m.tcp = .ok ()
  e2e : validateE2e m = .ok ()

theorem validateMessage_ok {names : List String} {m : MessageDef} (h : validateMessage names m = .ok ()) :
    m.Checked names := by
  simp only [validateMessage, Except.bind_eq_ok, raiseIf_eq_ok, checkIf_eq_ok, not_not] at h
  obtain ⟨-, -, -, hkind, -, htransport, -, -, -, hmissing, -, hudp, -, htcp, -, hevent, -, hmethod, he2e⟩ := h
  refine ⟨?_, ?_, hudp, htcp, he2e⟩
  · rcases List.mem_cons.1 hkind with hkind | hkind
    · obtain ⟨-, hnot, -⟩ := hevent hkind
      rcases List.mem_cons.1 htransport with ht | ht
      · exact .inl ⟨hkind, ht⟩
      · exact absurd (List.mem_singleton.1 ht) hnot
    · have hnot := hmethod (List.mem_singleton.1 hkind)
      rcases List.mem_cons.1 htransport with ht | ht
      · exact absurd ht hnot
      · exact .inr ⟨List.mem_singleton.1 hkind, List.mem_singleton.1 ht⟩
  · intro n hn
    have hall := List.filter_eq_nil_iff.1 hmissing n hn
    simpa using hall

theorem validateSomeip_ok {names : List String} {m : MessageDef} (h : validateSomeip names m = .ok ()) :
    ∃ items, m.someip = .dict items ∧ m.someip.truthy = true ∧
      strip ((items.lookup "service").getD (.str "")).toStr ∈ names ∧
      (m.kind = "event" → (items.lookup "event_id").isSome) ∧
      (m.kind = "method" → (items.lookup "method_id").isSome) := by
  simp only [validateSomeip, Except.bind_eq_ok, raiseIf_eq_ok, checkIf_eq_ok, not_not] at h
  obtain ⟨-, htrue, v, hv, -, -, -, hmem, -, hevent, hmethod⟩ := h
  obtain ⟨items, hitems, rfl⟩ := Value.getD_eq_ok.1 hv
  refine ⟨items, hitems, by simpa using htrue, hmem, fun hkind => ?_, fun hkind => ?_⟩
  · obtain ⟨b, hb, hsome⟩ := hevent hkind
    rw [hitems] at hb
    cases hb
    simpa using hsome
  · obtain ⟨b, hb, hsome⟩ := hmethod hkind
    rw [hitems] at hb
    cases hb
    simpa using hsome

/-! ### Lookups -/

theorem Catalog.Valid.servicesByName_get? [FloatArith V] {cat : Catalog V} (hcat : cat.Valid) {svc : ServiceDef} {name : String} :
    cat.servicesByName.get? name = some svc ↔ svc ∈ cat.services ∧ svc.name = name := by
  have hmem : ∀ e, e ∈ cat.services.map (fun s => (s.name, s)) ↔ e.2 ∈ cat.services ∧ e.2.name = e.1 := by
    rintro ⟨key, s⟩
    rw [List.mem_map]
    constructor
    · rintro ⟨s', hs, h⟩
      cases h
      exact ⟨hs, rfl⟩
    · rintro ⟨hs, h⟩
      exact ⟨s, hs, by rw [h]⟩
  constructor
  · exact fun h => (hmem (name, svc)).1 (Dict.mem_of_get?_ofList h)
  · rintro ⟨hsvc, rfl⟩
    have hentry := (hmem (svc.name, svc)).2 ⟨hsvc, rfl⟩
    refine Dict.get?_ofList_of_agree (List.mem_map_of_mem hentry) fun e he hname => ?_
    obtain ⟨hs, hs'⟩ := (hmem e).1 he
    exact List.inj_on_of_nodup_map hcat.service_names hs hsvc (hs'.trans hname)

def resolveSomeip (cat : Catalog V) (msg : MessageDef) : Except PyErr (Int × Int × Int) := do
  raiseIf (msg.someip.truthy = false) (.valueError s!"{msg.name}: someip missing")
  let svcName := strip (← msg.someip.getD "service" (.str "")).toStr
  match cat.servicesByName.get? svcName with
  | none => .error (.valueError (s!"{msg.name}: unknown someip.service " ++ reprStr svcName))
  | some svc =>
    let someipId ←
      if msg.kind = "event" then (msg.someip.item "event_id").bind Value.toInt
      else if msg.kind = "method" then (msg.someip.item "method_id").bind Value.toInt
      else .error (.valueError (s!"{msg.name}: invalid kind " ++ reprStr msg.kind))
    return (svc.serviceId, svc.interfaceVersion, someipId)

/-- The eventgroup of an event: `eventgroup_id`, or `event_id` where that is missing. -/
def resolveEventgroupId (msg : MessageDef) : Except PyErr Int := do
  raiseIf (msg.someip.truthy = false) (.valueError s!"{msg.name}: someip missing")
  if (← msg.someip.contains "eventgroup_id") then (msg.someip.item "eventgroup_id").bind Value.toInt
  else if (← msg.someip.contains "event_id") then (msg.someip.item "event_id").bind Value.toInt
  else .error (.valueError s!"{msg.name}: no eventgroup_id or event_id in someip block")

/-- `bool((msg.e2e or {}).get("enabled", False))`. -/
def e2eEnabled (msg : MessageDef) : Except PyErr Bool := do
  return (← msg.e2e.orEmpty.getD "enabled" (.bool false)).truthy

end AutoEth
