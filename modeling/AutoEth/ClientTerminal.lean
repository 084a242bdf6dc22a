import AutoEth.Terminal
import AutoEth.Served
import AutoEth.Call

/-!
# The menus of the client

A menu of the client is a dialogue. A line chooses what to do; where that is the call of a method, the next lines
are the values to call it with. The manual menu toggles events by their number, the automatic one starts with all
of them. `ClientTerminal` is where the dialogue stands, with the packets that were sent and what was done so far
(`Deed`). Through all of it the client is subscribed to what was toggled an odd number of times, and a node
that gets the packets has registered what was ever subscribed to (`client_menu_subscribes`): a stop names no
endpoint.
-/

namespace AutoEth

/-! ### Lines -/

/-- `_ask_float`, where `none` is a value that is not finite. -/
def askFloat (line : Option String) (dflt : ℚ) : Option ℚ :=
  let ans := prompt line
  if ans = "" then some dflt
  else
    match floatOfString ans with
    | .ok (.finite v) => some v
    | .ok _ => none
    | .error _ => some dflt

/-- What a line is for a menu of the client. -/
inductive ClientLine where
  | leave
  | toggle (event : MessageDef)
  | select
  | call (method : MessageDef)
  | other

/-- The method with this number, from 1 on. -/
def methodLine (cat : Catalog) (n : Int) : ClientLine :=
  let methods := cat.messages.filter MessageDef.isTcpMethod
  if 1 ≤ n ∧ n ≤ methods.length then methods[(n - 1).toNat]?.elim .other .call else .other

inductive ClientMenu where
  | manual
  | auto
deriving DecidableEq

/-- The line behind the prompt of the menu. -/
def ClientMenu.readLine (menu : ClientMenu) (cat : Catalog) (line : Option String) : ClientLine :=
  let cmd := prompt line
  match menu with
  | .manual =>
    let events := cat.messages.filter MessageDef.isUdpEvent
    if cmd.toLower = "b" then .leave
    else if cmd.toLower = "s" then .other
    else
      match intOfString 10 cmd with
      | .error _ => .other
      | .ok n =>
        if 1 ≤ n ∧ n ≤ events.length then events[(n - 1).toNat]?.elim .other .toggle
        else methodLine cat (n - events.length)
  | .auto => if cmd.toLower = "q" then .leave else if cmd.toLower = "m" then .select else .other

/-- The line behind `Select method:`. -/
def selectLine (cat : Catalog) (line : Option String) : ClientLine :=
  let sel := prompt line
  if sel.toLower = "b" then .other
  else
    match intOfString 10 sel with
    | .error _ => .other
    | .ok n => methodLine cat n

/-! ### The dialogue -/

def PyErr.isValueError : PyErr → Bool
  | .valueError _ => true
  | _ => false

/-- Where a menu stands: it asks for a command, for a method, for the value of a signal (with the values so far
and the signals still to come), or it was left, maybe by an exception. -/
inductive ClientPoint where
  | choosing
  | selecting
  | asking (method : MessageDef) (values : Dict String (Option ℚ)) (name : String) (dflt : ℚ) (names : List String)
  | left (raised : Option PyErr)

/-- What was done: an event was toggled, or a method called with values, which has answered or failed. -/
inductive Deed where
  | toggled (event : MessageDef)
  | called (method : MessageDef) (values : Dict String (Option ℚ)) (response : Option (Dict String ℚ))

structure ClientTerminal where
  ctx : ClientContext
  methodCalls : Dict String Int
  point : ClientPoint
  sent : List Packet
  deeds : List Deed

namespace ClientTerminal

variable (menu : ClientMenu) (answer : Nat → Bytes → Sock)

/-- The call of `toggle_sub`, up to its exception. -/
def toggled (t : ClientTerminal) (event : MessageDef) : ClientTerminal × Except PyErr Bool :=
  let o := t.ctx.toggleSub event
  ({ t with ctx := o.ctx, sent := t.sent ++ o.sent, deeds := t.deeds ++ [.toggled event] }, o.result)

def toggle (t : ClientTerminal) (event : MessageDef) : ClientTerminal :=
  match t.toggled event with
  | (t, .ok _) => { t with point := .choosing }
  | (t, .error e) => { t with point := if e.isValueError then .choosing else .left (some e) }

def leave (t : ClientTerminal) : ClientTerminal :=
  let o := t.ctx.stopAll
  let raised := match o.result with
    | .ok _ => none
    | .error e => some e
  { t with ctx := o.ctx, sent := t.sent ++ o.sent, point := .left raised }

/-- The values, if all are finite. -/
def finiteValues (values : Dict String (Option ℚ)) : Option (Dict String ℚ) :=
  (values.entries.mapM fun e : String × Option ℚ => e.2.map fun v => (e.1, v)).map Dict.ofList

/-- `_tcp_call`, whose exceptions the menu catches, those of encoding a value that is not finite included; `answer`
is what comes back for a request, on the connections in their order. -/
def callMethod (t : ClientTerminal) (method : MessageDef) (values : Dict String (Option ℚ)) :
    Option (Dict String ℚ) :=
  (finiteValues values).bind fun values =>
    (tcpCall t.ctx.cat method t.ctx.sigIndex none values 500 (answer t.deeds.length)).toOption

/-- The automatic menu does not count the calls. -/
def call (t : ClientTerminal) (method : MessageDef) (values : Dict String (Option ℚ)) : ClientTerminal :=
  let response := t.callMethod answer method values
  { t with
    point := .choosing
    methodCalls :=
      if menu = .manual ∧ response.isSome then
        t.methodCalls.set method.name (t.methodCalls.getD method.name 0 + 1)
      else t.methodCalls
    deeds := t.deeds ++ [.called method values response] }

/-- The loop over the signals of a method that are still to come. -/
def ask (t : ClientTerminal) (method : MessageDef) (values : Dict String (Option ℚ)) : List String → ClientTerminal
  | [] => t.call menu answer method values
  | name :: names =>
    match t.ctx.sigIndex.byName.get? name with
    | some s => { t with point := .asking method values name s.default names }
    | none => { t with point := .left (some (.keyError name)) }

def choose (t : ClientTerminal) : ClientLine → ClientTerminal
  | .leave => t.leave
  | .toggle event => t.toggle event
  | .select => { t with point := .selecting }
  | .call method => t.ask menu answer method ∅ method.signals
  | .other => { t with point := .choosing }

/-- One line of the dialogue. -/
def step (t : ClientTerminal) (line : Option String) : ClientTerminal :=
  match t.point with
  | .choosing => t.choose menu answer (menu.readLine t.ctx.cat line)
  | .selecting => t.choose menu answer (selectLine t.ctx.cat line)
  | .asking method values name dflt names => t.ask menu answer method (values.set name (askFloat line dflt)) names
  | .left _ => t

/-- The loop of the automatic menu that subscribes to the events. -/
def subscribeAll (t : ClientTerminal) : List MessageDef → ClientTerminal
  | [] => t
  | event :: events =>
    match t.toggled event with
    | (t, .ok _) => t.subscribeAll events
    | (t, .error e) => { t with point := .left (some e) }

/-- A menu before its first prompt. -/
def start (c : ClientContext) (methodCalls : Dict String Int) : ClientTerminal :=
  let t : ClientTerminal := { ctx := c, methodCalls, point := .choosing, sent := [], deeds := [] }
  match menu with
  | .manual => t
  | .auto => t.subscribeAll (c.cat.messages.filter MessageDef.isUdpEvent)

end ClientTerminal

/-- `_client_manual` and `_client_auto`; `methodCalls` are the calls counted so far. -/
def clientMenu (menu : ClientMenu) (answer : Nat → Bytes → Sock) (c : ClientContext) (methodCalls : Dict String Int)
    (lines : List (Option String)) : ClientTerminal :=
  lines.foldl (ClientTerminal.step menu answer) (.start menu c methodCalls)

/-! ### Toggles -/

section
variable {cat : Catalog} {events : UdpEvents}

/-- The unicast events have ids and ports that a packet can carry. -/
def Catalog.UnicastFits (cat : Catalog) : Prop :=
  ∀ e svcId egid port, UnicastEvent cat e svcId egid port →
    FitsBits 16 svcId ∧ FitsBits 16 egid ∧ FitsBits 16 port

variable (cat events) in
/-- A client over an accepted catalog that can subscribe. -/
structure ClientContext.Ready (c : ClientContext) : Prop where
  valid : cat.Valid
  events : buildUdpEvents cat (.fromSignals cat.signals) = .ok events
  fits : cat.UnicastFits
  catalog : c.cat = cat
  sigIndex : c.sigIndex = .fromSignals cat.signals
  canSubscribe : c.CanSubscribe

namespace ClientContext
variable {c : ClientContext} {e : MessageDef}

theorem Ready.with_subs (h : c.Ready cat events) (subs : Dict String EventSubscription) :
    { c with subs }.Ready cat events :=
  ⟨h.valid, h.events, h.fits, h.catalog, h.sigIndex, h.canSubscribe.address, h.canSubscribe.group, h.canSubscribe.port⟩

theorem Ready.canStop (h : c.Ready cat events) {name : String}
    (hevent : ∃ e ∈ cat.messages, e.isUdpEvent = true ∧ e.name = name) : c.CanStop name := by
  obtain ⟨e, he, hkind, hname⟩ := hevent
  exact ⟨e, h.catalog.symm ▸ he, hkind, hname, .inr h.canSubscribe.port⟩

/-- What a toggle does to the table of the client, and to a node that gets its packets. -/
theorem toggleSub_spec (h : c.Ready cat events) (he : e ∈ cat.messages) (hkind : e.isUdpEvent = true)
    (sdPort : Int) :
    ∃ subs sent on, c.toggleSub e = ⟨{ c with subs }, sent, .ok on⟩ ∧
      (∀ name, name ∈ subs.keys ↔ if name = e.name then name ∉ c.subs.keys else name ∈ c.subs.keys) ∧
      ∀ (addr : Endpoint) s svcId egid ep,
        ep ∈ ((sent.map fun p => ⟨p.data, addr⟩).foldl
          (SdListener.ofEvents sdPort events).receive s).registry.getSubscribers svcId egid ↔
        (e.name ∉ c.subs.keys ∧ ∃ port, UnicastEvent cat e svcId egid port ∧ ep = c.namedEndpoint port) ∨
          ep ∈ s.registry.getSubscribers svcId egid := by
  have hc := h.catalog
  obtain ⟨mode, svcId, egid, port, hreads, hpos, hserves⟩ := exists_readsEvent h.valid h.events he hkind sdPort
  by_cases hsub : e.name ∈ c.subs.keys
  · obtain ⟨sent, htoggle, hsent⟩ := toggleSub_stop hc hreads (.inr h.canSubscribe.port) (isSubscribed_iff.2 hsub)
    refine ⟨_, sent, false, htoggle, fun name => ?_, fun addr s svcId' egid' ep => ?_⟩
    · rw [Dict.mem_keys_erase]
      split_ifs with hname
      · exact iff_of_false (fun hmem => hmem.2 hname) (not_not.2 (hname ▸ hsub))
      · exact and_iff_left hname
    · rw [SdListener.getSubscribers_foldl_receive_nameless fun d hd => by
        obtain ⟨p, hp, rfl⟩ := List.mem_map.1 hd
        exact hsent p hp]
      exact (or_iff_right fun hstart => hstart.1 hsub).symm
  · have hoff : c.isSubscribed e.name = false := Bool.eq_false_iff.2 fun hon => hsub (isSubscribed_iff.1 hon)
    have hkeys (sub : EventSubscription) (name : String) : name ∈ (c.subs.set e.name sub).keys ↔
        if name = e.name then name ∉ c.subs.keys else name ∈ c.subs.keys := by
      rw [Dict.mem_keys_set]
      split_ifs with hname
      · exact iff_of_true (.inl hname) (hname ▸ hsub)
      · exact or_iff_right hname
    by_cases hmode : mode = "multicast"
    · subst hmode
      obtain ⟨sub, htoggle⟩ := toggleSub_multicast hc h.sigIndex hreads hoff
      refine ⟨_, [], true, htoggle, hkeys sub, fun addr s svcId' egid' ep => (or_iff_right ?_).symm⟩
      rintro ⟨-, port', hunicast, -⟩
      exact hunicast.mode_ne hreads rfl
    · obtain ⟨sub, data, hdata, htoggle⟩ := toggleSub_unicast hc h.sigIndex hreads hmode hoff h.canSubscribe
      refine ⟨_, _, true, htoggle, hkeys sub, fun addr s svcId' egid' ep => ?_⟩
      have hunicast : UnicastEvent cat e svcId egid port :=
        ⟨he, hkind, ⟨mode, hreads.mode, hmode⟩, hreads.svcId, hreads.egid, hreads.port⟩
      obtain ⟨hsvc, hegid, hport⟩ := h.fits e svcId egid port hunicast
      have hkey : (c.subscribeCall svcId egid port).wireKey = (svcId, egid) :=
        SubscribeCall.wireKey_eq_key hsvc hegid
      show ep ∈ ((SdListener.ofEvents sdPort events).receive s ⟨data, addr⟩).registry.getSubscribers _ _ ↔ _
      rw [SubscribeCall.mem_receive_request hdata, hkey, wireEndpoint_subscribeCall hport]
      refine or_congr_left ⟨?_, ?_⟩
      · rintro ⟨-, heq, rfl, -⟩
        cases heq
        exact ⟨hsub, port, hunicast, rfl⟩
      · rintro ⟨-, port', hunicast', rfl⟩
        obtain ⟨rfl, rfl, rfl⟩ := hunicast'.unique hunicast
        exact ⟨hserves, rfl, rfl, ne_of_gt hpos⟩

theorem result_stopNames (h : c.Ready cat events) {names : List String} (hnodup : names.Nodup)
    (hsub : ∀ name ∈ names, name ∈ c.subs.keys)
    (hevent : ∀ name ∈ names, ∃ e ∈ cat.messages, e.isUdpEvent = true ∧ e.name = name) :
    (c.stopNames names).result = .ok () := by
  induction names generalizing c with
  | nil => rfl
  | cons name names ih =>
    obtain ⟨hnot, hrestNodup⟩ := List.nodup_cons.1 hnodup
    obtain ⟨e, he, hkind, rfl⟩ := hevent _ (List.mem_cons_self ..)
    obtain ⟨mode, svcId, egid, port, hreads, -, -⟩ := exists_readsEvent h.valid h.events he hkind 0
    obtain ⟨sent, htoggle, -⟩ :=
      toggleSub_stop h.catalog hreads (.inr h.canSubscribe.port)
        (isSubscribed_iff.2 (hsub _ (List.mem_cons_self ..)))
    have hfind : findEvent c.cat e.name = .ok e := h.catalog ▸ findEvent_eq h.valid.message_names he hkind
    simp only [stopNames, hfind, htoggle]
    refine ih (h.with_subs (c.subs.erase e.name)) hrestNodup (fun name hname => ?_) fun name hname =>
      hevent name (List.mem_cons_of_mem _ hname)
    exact Dict.mem_keys_erase.2 ⟨hsub name (List.mem_cons_of_mem _ hname), fun heq => hnot (heq ▸ hname)⟩

end ClientContext

end

/-! ### What holds along a dialogue -/

/-- The deed toggles the event of this name. -/
def Deed.toggles (name : String) : Deed → Bool
  | .toggled event => event.name = name
  | .called .. => false

/-- The deed is a call of the method of this name that was answered. -/
def Deed.answered (name : String) : Deed → Bool
  | .toggled _ => false
  | .called method _ response => method.name = name && response.isSome

def ClientPoint.isLeft : ClientPoint → Bool
  | .left _ => true
  | _ => false

section
variable (cat : Catalog)

/-- Events and methods are those of the catalog, and a call has a value for each signal of the method. -/
def Deed.Ok : Deed → Prop
  | .toggled event => event ∈ cat.messages ∧ event.isUdpEvent = true
  | .called method values _ => method ∈ cat.messages ∧ method.isTcpMethod = true ∧
      ∀ name, name ∈ values.keys ↔ name ∈ method.signals

/-- Asking goes through the signals of the method, and no exception was raised. -/
def ClientPoint.Ok : ClientPoint → Prop
  | .asking method values name _ names => method ∈ cat.messages ∧ method.isTcpMethod = true ∧
      ∃ asked, method.signals = asked ++ name :: names ∧ ∀ n, n ∈ values.keys ↔ n ∈ asked
  | .left raised => raised = none
  | _ => True

def ClientLine.Ok : ClientLine → Prop
  | .toggle event => event ∈ cat.messages ∧ event.isUdpEvent = true
  | .call method => method ∈ cat.messages ∧ method.isTcpMethod = true
  | _ => True

end

/-- A node after it got these packets. -/
def nodeAfter (l : SdListener) (addr : Endpoint) (sent : List Packet) : SdListener.State :=
  (sent.map fun p => ⟨p.data, addr⟩).foldl l.receive .init

/-- What holds of a menu of the client `c`, before which it had counted the calls `calls`. -/
structure ClientTerminal.Ok (cat : Catalog) (menu : ClientMenu) (c : ClientContext) (calls : Dict String Int)
    (l : SdListener) (addr : Endpoint) (t : ClientTerminal) : Prop where
  ctx : ∃ subs, t.ctx = { c with subs }
  point : t.point.Ok cat
  deeds : ∀ d ∈ t.deeds, d.Ok cat
  names : ∀ name ∈ t.ctx.subs.keys, ∃ e ∈ cat.messages, e.isUdpEvent = true ∧ e.name = name
  subscribed : ∀ name, name ∈ t.ctx.subs.keys ↔
    t.point.isLeft = false ∧ Odd (t.deeds.countP (Deed.toggles name))
  counted : ∀ name, t.methodCalls.getD name 0 =
    calls.getD name 0 + if menu = .manual then ((t.deeds.countP (Deed.answered name) : Nat) : Int) else 0
  registered : ∀ svcId egid ep, ep ∈ (nodeAfter l addr t.sent).registry.getSubscribers svcId egid ↔
    ∃ e port, .toggled e ∈ t.deeds ∧ UnicastEvent cat e svcId egid port ∧ ep = c.namedEndpoint port

/-! ### Lines -/

theorem methodLine_ok (cat : Catalog) (n : Int) : (methodLine cat n).Ok cat := by
  unfold methodLine
  dsimp only
  split_ifs
  · cases hget : (cat.messages.filter MessageDef.isTcpMethod)[(n - 1).toNat]? with
    | none => trivial
    | some m => exact List.mem_filter.1 (List.mem_of_getElem? hget)
  · trivial

theorem ClientMenu.readLine_ok (menu : ClientMenu) (cat : Catalog) (line : Option String) :
    (menu.readLine cat line).Ok cat := by
  unfold readLine
  cases menu with
  | manual =>
    dsimp only
    split_ifs
    · trivial
    · trivial
    · split
      · trivial
      · split_ifs
        · rename_i n _ _
          cases hget : (cat.messages.filter MessageDef.isUdpEvent)[(n - 1).toNat]? with
          | none => trivial
          | some e => exact List.mem_filter.1 (List.mem_of_getElem? hget)
        · exact methodLine_ok cat _
  | auto =>
    dsimp only
    split_ifs
    · trivial
    · trivial
    · trivial

theorem selectLine_ok (cat : Catalog) (line : Option String) : (selectLine cat line).Ok cat := by
  unfold selectLine
  dsimp only
  split_ifs
  · trivial
  · split
    · trivial
    · exact methodLine_ok cat _

/-! ### Deeds -/

section
variable {cat : Catalog} {events : UdpEvents} {menu : ClientMenu} {c : ClientContext} {calls : Dict String Int}
  {sdPort : Int} {addr : Endpoint} {t : ClientTerminal}

theorem nodeAfter_append (l : SdListener) (addr : Endpoint) (sent sent' : List Packet) :
    nodeAfter l addr (sent ++ sent') = (sent'.map fun p => ⟨p.data, addr⟩).foldl l.receive (nodeAfter l addr sent) := by
  rw [nodeAfter, List.map_append, List.foldl_append, nodeAfter]

theorem exists_toggled_of_odd {deeds : List Deed} {name : String} (hok : ∀ d ∈ deeds, d.Ok cat)
    (h : Odd (deeds.countP (Deed.toggles name))) : ∃ e ∈ cat.messages, .toggled e ∈ deeds ∧ e.name = name := by
  obtain ⟨d, hd, htoggles⟩ := List.countP_pos_iff.1 h.pos
  cases d with
  | toggled e => exact ⟨e, (hok _ hd).1, hd, of_decide_eq_true htoggles⟩
  | called method values response => cases htoggles

namespace ClientTerminal.Ok

theorem moveTo (h : t.Ok cat menu c calls (.ofEvents sdPort events) addr) (hopen : t.point.isLeft = false)
    {point : ClientPoint} (hpoint : point.Ok cat) (hpoint' : point.isLeft = false) :
    ({ t with point } : ClientTerminal).Ok cat menu c calls (.ofEvents sdPort events) addr := by
  refine ⟨h.ctx, hpoint, h.deeds, h.names, fun name => ?_, h.counted, h.registered⟩
  rw [h.subscribed, hopen]
  exact and_congr_left fun _ => iff_of_true rfl hpoint'

theorem call (h : t.Ok cat menu c calls (.ofEvents sdPort events) addr) (answer : Nat → Bytes → Sock)
    (hopen : t.point.isLeft = false) {m : MessageDef} {values : Dict String (Option ℚ)}
    (hdeed : (Deed.called m values (t.callMethod answer m values)).Ok cat) :
    (t.call menu answer m values).Ok cat menu c calls (.ofEvents sdPort events) addr := by
  refine ⟨h.ctx, trivial, fun d hd => ?_, h.names, fun name => ?_, fun name => ?_, fun svcId egid ep => ?_⟩
  · rcases List.mem_append.1 hd with hd | hd
    · exact h.deeds d hd
    · rw [List.mem_singleton.1 hd]
      exact hdeed
  · refine (h.subscribed name).trans ?_
    show _ ↔ _ ∧ Odd ((t.deeds ++ [_]).countP _)
    rw [List.countP_append, List.countP_singleton, hopen]
    rfl
  · have hcounted := h.counted name
    show Dict.getD (if menu = .manual ∧ (t.callMethod answer m values).isSome = true then _ else _) name 0 =
      _ + if _ then ((List.countP _ (t.deeds ++ [_]) : Nat) : Int) else 0
    rw [List.countP_append, List.countP_singleton, Deed.answered]
    by_cases hcount : menu = .manual ∧ (t.callMethod answer m values).isSome = true
    · rw [if_pos hcount, if_pos hcount.1, hcount.2]
      rw [if_pos hcount.1] at hcounted
      by_cases hname : name = m.name
      · rw [hname, Dict.getD, Dict.get?_set_self, Option.getD_some, ← hname, hcounted]
        simp
        omega
      · rw [Dict.getD, Dict.get?_set_ne _ _ hname, ← Dict.getD, hcounted]
        simp [Ne.symm hname]
    · rw [if_neg hcount, hcounted]
      by_cases hmenu : menu = .manual
      · rw [if_pos hmenu, if_pos hmenu, Bool.eq_false_iff.2 fun hsome => hcount ⟨hmenu, hsome⟩]
        simp
      · rw [if_neg hmenu, if_neg hmenu]
  · refine (h.registered svcId egid ep).trans ?_
    constructor
    · rintro ⟨e, port, he, hrest⟩
      exact ⟨e, port, List.mem_append_left _ he, hrest⟩
    · rintro ⟨e, port, he, hrest⟩
      rcases List.mem_append.1 he with he | he
      · exact ⟨e, port, he, hrest⟩
      · cases List.mem_singleton.1 he

variable (hready : c.Ready cat events)
include hready

theorem ready (h : t.Ok cat menu c calls (.ofEvents sdPort events) addr) : t.ctx.Ready cat events := by
  obtain ⟨subs, hctx⟩ := h.ctx
  rw [hctx]
  exact hready.with_subs subs

theorem toggled (h : t.Ok cat menu c calls (.ofEvents sdPort events) addr) (hopen : t.point.isLeft = false)
    {e : MessageDef} (he : e ∈ cat.messages) (hkind : e.isUdpEvent = true) :
    ∃ t' on, t.toggled e = (t', .ok on) ∧ t'.point = t.point ∧
      t'.Ok cat menu c calls (.ofEvents sdPort events) addr := by
  obtain ⟨subs, hctx⟩ := h.ctx
  obtain ⟨subs', sent, on, htoggle, hkeys, hnode⟩ :=
    ClientContext.toggleSub_spec (h.ready hready) he hkind sdPort
  let t' : ClientTerminal := { t with
    ctx := { t.ctx with subs := subs' }, sent := t.sent ++ sent, deeds := t.deeds ++ [.toggled e] }
  have htoggled : t.toggled e = (t', .ok on) := by rw [ClientTerminal.toggled, htoggle]
  have hctx' : t'.ctx = { c with subs := subs' } := by rw [show t'.ctx = { t.ctx with subs := subs' } from rfl, hctx]
  refine ⟨t', on, htoggled, rfl, ⟨subs', hctx'⟩, h.point, fun d hd => ?_, fun name hname => ?_, fun name => ?_,
    fun name => ?_, fun svcId egid ep => ?_⟩
  · rcases List.mem_append.1 hd with hd | hd
    · exact h.deeds d hd
    · rw [List.mem_singleton.1 hd]
      exact ⟨he, hkind⟩
  · by_cases heq : name = e.name
    · exact ⟨e, he, hkind, heq.symm⟩
    · exact h.names name (by simpa [heq] using (hkeys name).1 hname)
  · refine (hkeys name).trans ?_
    rw [h.subscribed name, List.countP_append, List.countP_singleton]
    by_cases heq : name = e.name
    · have hopen' : t'.point.isLeft = false := hopen
      rw [if_pos heq, if_pos (by simp [Deed.toggles, heq]), Nat.odd_add_one, and_iff_right hopen,
        and_iff_right hopen']
    · rw [if_neg heq, if_neg (by simp [Deed.toggles, Ne.symm heq]), Nat.add_zero]
  · rw [List.countP_append, List.countP_singleton]
    exact h.counted name
  · rw [nodeAfter_append, hnode, h.registered, hctx]
    constructor
    · rintro (⟨-, port, hunicast, hep⟩ | ⟨e', port, he', hunicast, hep⟩)
      · exact ⟨e, port, List.mem_append_right _ (List.mem_singleton_self _), hunicast, hep⟩
      · exact ⟨e', port, List.mem_append_left _ he', hunicast, hep⟩
    · rintro ⟨e', port, he', hunicast, hep⟩
      rcases List.mem_append.1 he' with he' | he'
      · exact .inr ⟨e', port, he', hunicast, hep⟩
      · cases List.mem_singleton.1 he'
        by_cases hsub : e.name ∈ subs.keys
        · obtain ⟨e'', hmem, he'', hname⟩ := exists_toggled_of_odd h.deeds
            ((h.subscribed e.name).1 (by rw [hctx]; exact hsub)).2
          rw [List.inj_on_of_nodup_map hready.valid.message_names hmem he hname] at he''
          exact .inr ⟨e, port, he'', hunicast, hep⟩
        · exact .inl ⟨hsub, port, hunicast, hep⟩

theorem toggle (h : t.Ok cat menu c calls (.ofEvents sdPort events) addr) (hopen : t.point.isLeft = false)
    {e : MessageDef} (he : e ∈ cat.messages) (hkind : e.isUdpEvent = true) :
    (t.toggle e).Ok cat menu c calls (.ofEvents sdPort events) addr := by
  obtain ⟨t', on, htoggle, hpoint, hok⟩ := h.toggled hready hopen he hkind
  rw [ClientTerminal.toggle, htoggle]
  exact hok.moveTo (hpoint ▸ hopen) trivial rfl

/-- Leaving the menu empties the table, and tells the node nothing. -/
theorem leave (h : t.Ok cat menu c calls (.ofEvents sdPort events) addr) :
    t.leave.Ok cat menu c calls (.ofEvents sdPort events) addr := by
  obtain ⟨subs, hctx⟩ := h.ctx
  have hctxReady := h.ready hready
  have hnodup : t.ctx.subs.keys.Nodup := t.ctx.subs.nodup
  obtain ⟨subs', hctx', hkeys, hsent⟩ := ClientContext.stopNames_spec hready.valid hready.events hnodup
    hctxReady.catalog (fun _ hname => hname) fun name hname => hctxReady.canStop (h.names name hname)
  have hresult : t.ctx.stopAll.result = .ok () :=
    ClientContext.result_stopNames hctxReady hnodup (fun _ hname => hname) h.names
  have hempty (name : String) : name ∉ t.leave.ctx.subs.keys := by
    show name ∉ (t.ctx.stopNames t.ctx.subs.keys).ctx.subs.keys
    rw [hctx', hkeys]
    exact fun hmem => hmem.2 hmem.1
  refine ⟨⟨subs', ?_⟩, ?_, h.deeds, fun name hname => absurd hname (hempty name), fun name => ?_, h.counted,
    fun svcId egid ep => ?_⟩
  · show (t.ctx.stopNames t.ctx.subs.keys).ctx = _
    rw [hctx', hctx]
  · show (ClientPoint.left _).Ok cat
    rw [hresult]
    rfl
  · refine iff_of_false (hempty name) ?_
    rintro ⟨⟨⟩, -⟩
  · have hnode : (nodeAfter (.ofEvents sdPort events) addr t.leave.sent).registry.getSubscribers =
        (nodeAfter (.ofEvents sdPort events) addr t.sent).registry.getSubscribers := by
      show (nodeAfter _ addr (t.sent ++ (t.ctx.stopNames t.ctx.subs.keys).sent)).registry.getSubscribers = _
      rw [nodeAfter_append]
      refine SdListener.getSubscribers_foldl_receive_nameless fun d hd => ?_
      obtain ⟨p, hp, rfl⟩ := List.mem_map.1 hd
      exact hsent p hp
    rw [hnode]
    exact h.registered svcId egid ep

theorem ask (h : t.Ok cat menu c calls (.ofEvents sdPort events) addr) (hopen : t.point.isLeft = false)
    (answer : Nat → Bytes → Sock) {m : MessageDef} (hm : m ∈ cat.messages) (hkind : m.isTcpMethod = true)
    {values : Dict String (Option ℚ)} {asked names : List String} (hsignals : m.signals = asked ++ names)
    (hvalues : ∀ name, name ∈ values.keys ↔ name ∈ asked) :
    (t.ask menu answer m values names).Ok cat menu c calls (.ofEvents sdPort events) addr := by
  cases names with
  | nil =>
    rw [List.append_nil] at hsignals
    exact h.call answer hopen ⟨hm, hkind, hsignals ▸ hvalues⟩
  | cons name names =>
    have hname : name ∈ t.ctx.sigIndex.byName.keys := by
      rw [(h.ready hready).sigIndex, SignalIndex.fromSignals, Dict.mem_keys_ofList, List.map_map]
      refine (validateMessage_ok (hready.valid.message m hm)).signals name ?_
      rw [hsignals]
      exact List.mem_append_right _ (List.mem_cons_self ..)
    obtain ⟨s, hs⟩ := Option.isSome_iff_exists.1 (Dict.get?_isSome.2 hname)
    rw [ClientTerminal.ask, hs]
    exact h.moveTo hopen ⟨hm, hkind, asked, hsignals, hvalues⟩ rfl

theorem choose (h : t.Ok cat menu c calls (.ofEvents sdPort events) addr) (hopen : t.point.isLeft = false)
    (answer : Nat → Bytes → Sock) {line : ClientLine} (hline : line.Ok cat) :
    (t.choose menu answer line).Ok cat menu c calls (.ofEvents sdPort events) addr := by
  cases line with
  | leave => exact h.leave hready
  | toggle e => exact h.toggle hready hopen hline.1 hline.2
  | select => exact h.moveTo hopen trivial rfl
  | call m =>
    have hnone : ∀ name, name ∈ (∅ : Dict String (Option ℚ)).keys ↔ name ∈ ([] : List String) := fun _ => Iff.rfl
    exact h.ask hready hopen answer hline.1 hline.2 (List.nil_append _).symm hnone
  | other => exact h.moveTo hopen trivial rfl

theorem step (h : t.Ok cat menu c calls (.ofEvents sdPort events) addr) (answer : Nat → Bytes → Sock)
    (line : Option String) : (t.step menu answer line).Ok cat menu c calls (.ofEvents sdPort events) addr := by
  rw [ClientTerminal.step, (h.ready hready).catalog]
  have hpoint := h.point
  cases ht : t.point with
  | choosing =>
    exact h.choose hready (by rw [ht]; rfl) answer (menu.readLine_ok cat line)
  | selecting => exact h.choose hready (by rw [ht]; rfl) answer (selectLine_ok cat line)
  | asking m values name dflt names =>
    rw [ht] at hpoint
    obtain ⟨hm, hkind, asked, hsignals, hvalues⟩ := hpoint
    refine h.ask hready (by rw [ht]; rfl) answer hm hkind
      (show m.signals = (asked ++ [name]) ++ names by rw [hsignals, List.append_assoc]; rfl) fun n => ?_
    rw [Dict.mem_keys_set, hvalues, List.mem_append, List.mem_singleton, or_comm]
  | left raised => exact h

theorem subscribeAll (h : t.Ok cat menu c calls (.ofEvents sdPort events) addr) (hopen : t.point.isLeft = false)
    {l : List MessageDef} (hl : ∀ e ∈ l, e ∈ cat.messages ∧ e.isUdpEvent = true) :
    (t.subscribeAll l).Ok cat menu c calls (.ofEvents sdPort events) addr ∧
      (t.subscribeAll l).point = t.point ∧ (t.subscribeAll l).deeds = t.deeds ++ l.map .toggled := by
  induction l generalizing t with
  | nil => exact ⟨h, rfl, by simp [ClientTerminal.subscribeAll]⟩
  | cons e l ih =>
    obtain ⟨he, hkind⟩ := hl e (List.mem_cons_self ..)
    obtain ⟨t', on, htoggle, hpoint, hok⟩ := h.toggled hready hopen he hkind
    have hdeeds : t'.deeds = t.deeds ++ [.toggled e] := by
      have heq : t' = (t.toggled e).1 := by rw [htoggle]
      rw [heq]
      rfl
    obtain ⟨hok', hpoint', hdeeds'⟩ := ih hok (by rw [hpoint]; exact hopen) fun e' he' =>
      hl e' (List.mem_cons_of_mem _ he')
    rw [ClientTerminal.subscribeAll, htoggle]
    refine ⟨hok', hpoint'.trans hpoint, ?_⟩
    rw [hdeeds', hdeeds, List.append_assoc]
    rfl

end ClientTerminal.Ok

/-! ### The beginning -/

theorem count_toggles_map (l : List MessageDef) (name : String) :
    (l.map Deed.toggled).countP (Deed.toggles name) = (l.map (·.name)).count name := by
  rw [List.count, List.countP_map, List.countP_map]
  refine List.countP_congr fun e _ => ?_
  simp [Deed.toggles]

theorem ClientTerminal.start_ok (hready : c.Ready cat events) (hsubs : c.subs = ∅) (menu : ClientMenu)
    (calls : Dict String Int) (sdPort : Int) (addr : Endpoint) :
    (ClientTerminal.start menu c calls).Ok cat menu c calls (.ofEvents sdPort events) addr ∧
      (menu = .auto → ∀ e ∈ cat.messages, e.isUdpEvent = true →
        (ClientTerminal.start menu c calls).deeds.countP (Deed.toggles e.name) = 1) := by
  let t : ClientTerminal := { ctx := c, methodCalls := calls, point := .choosing, sent := [], deeds := [] }
  have hkeys (name : String) : name ∉ c.subs.keys := by
    rw [hsubs]
    exact List.not_mem_nil
  have hok : t.Ok cat menu c calls (.ofEvents sdPort events) addr := by
    refine ⟨⟨c.subs, rfl⟩, trivial, List.forall_mem_nil _, fun name hname => absurd hname (hkeys name),
      fun name => iff_of_false (hkeys name) ?_, fun name => ?_, fun svcId egid ep => ?_⟩
    · rintro ⟨-, hodd⟩
      have hodd : Odd 0 := hodd
      exact absurd hodd (by decide)
    · show calls.getD name 0 = _ + if _ then ((0 : Nat) : Int) else 0
      simp
    · refine iff_of_false (Finset.notMem_empty ep) ?_
      rintro ⟨e, port, he, -⟩
      cases he
  cases menu with
  | manual => exact ⟨hok, fun h => by cases h⟩
  | auto =>
    obtain ⟨hok, -, hdeeds⟩ := hok.subscribeAll hready rfl fun e he => List.mem_filter.1 he
    have hstart : ClientTerminal.start .auto c calls = t.subscribeAll (cat.messages.filter MessageDef.isUdpEvent) := by
      rw [ClientTerminal.start, hready.catalog]
    rw [hstart]
    refine ⟨hok, fun _ e he hkind => ?_⟩
    have hnodup : ((cat.messages.filter MessageDef.isUdpEvent).map (·.name)).Nodup :=
      hready.valid.message_names.sublist (List.filter_sublist.map _)
    rw [hdeeds, List.nil_append, count_toggles_map]
    exact List.count_eq_one_of_mem hnodup (List.mem_map_of_mem (List.mem_filter.2 ⟨he, hkind⟩))

/-! ### No toggles by number -/

theorem methodLine_ne_toggle (cat : Catalog) (n : Int) (e : MessageDef) : methodLine cat n ≠ .toggle e := by
  unfold methodLine
  dsimp only
  split_ifs
  · cases (cat.messages.filter MessageDef.isTcpMethod)[(n - 1).toNat]? with
    | none => simp
    | some m => simp
  · simp

theorem selectLine_ne_toggle (cat : Catalog) (line : Option String) (e : MessageDef) :
    selectLine cat line ≠ .toggle e := by
  unfold selectLine
  dsimp only
  split_ifs
  · simp
  · split
    · simp
    · exact methodLine_ne_toggle _ _ _

theorem ClientMenu.readLine_auto_ne_toggle (cat : Catalog) (line : Option String) (e : MessageDef) :
    ClientMenu.auto.readLine cat line ≠ .toggle e := by
  unfold readLine
  dsimp only
  split_ifs
  · simp
  · simp
  · simp

theorem ClientTerminal.countP_toggles_ask (menu : ClientMenu) (answer : Nat → Bytes → Sock) (t : ClientTerminal)
    (m : MessageDef) (values : Dict String (Option ℚ)) (names : List String) (name : String) :
    (t.ask menu answer m values names).deeds.countP (Deed.toggles name) = t.deeds.countP (Deed.toggles name) := by
  cases names with
  | nil =>
    show (t.deeds ++ [_]).countP _ = _
    rw [List.countP_append, List.countP_singleton]
    rfl
  | cons n names =>
    rw [ask]
    split
    · rfl
    · rfl

theorem ClientTerminal.countP_toggles_choose (menu : ClientMenu) (answer : Nat → Bytes → Sock) (t : ClientTerminal)
    {line : ClientLine} (hline : ∀ e, line ≠ .toggle e) (name : String) :
    (t.choose menu answer line).deeds.countP (Deed.toggles name) = t.deeds.countP (Deed.toggles name) := by
  cases line with
  | leave => rfl
  | toggle e => exact absurd rfl (hline e)
  | select => rfl
  | call m => exact countP_toggles_ask ..
  | other => rfl

/-- The automatic menu toggles no event after its beginning. -/
theorem ClientTerminal.countP_toggles_step_auto (answer : Nat → Bytes → Sock) (t : ClientTerminal)
    (line : Option String) (name : String) :
    (t.step .auto answer line).deeds.countP (Deed.toggles name) = t.deeds.countP (Deed.toggles name) := by
  unfold step
  cases t.point with
  | choosing => exact countP_toggles_choose _ _ _ (ClientMenu.readLine_auto_ne_toggle _ _) name
  | selecting => exact countP_toggles_choose _ _ _ (selectLine_ne_toggle _ _) name
  | asking m values n dflt names => exact countP_toggles_ask ..
  | left raised => rfl

end

/-- The menus of a client, for any lines and any answers of the servers: no exception leaves them, the client is
subscribed to what was toggled an odd number of times as long as the menu is not left, and to all events in
the automatic one; every call has a value for each signal, and those that were answered are counted; a node that
gets all packets has registered the endpoints of what was ever subscribed to. -/
theorem client_menu_subscribes {doc : Value} {cat : Catalog} {events : UdpEvents} (hload : loadCatalog doc = .ok cat)
    (hevents : buildUdpEvents cat (.fromSignals cat.signals) = .ok events) (hfits : cat.UnicastFits)
    {c : ClientContext} (hc : c.cat = cat) (hsig : c.sigIndex = .fromSignals cat.signals)
    (hcan : c.CanSubscribe) (hsubs : c.subs = ∅) (menu : ClientMenu) (answer : Nat → Bytes → Sock)
    (methodCalls : Dict String Int) (lines : List (Option String)) (sdPort : Int) (addr : Endpoint) :
    let t := clientMenu menu answer c methodCalls lines
    (∀ e, t.point ≠ .left (some e)) ∧
    (∀ e ∈ cat.messages, e.isUdpEvent = true → (t.ctx.isSubscribed e.name = true ↔
      t.point.isLeft = false ∧ (menu = .auto ∨ Odd (t.deeds.countP (Deed.toggles e.name))))) ∧
    (∀ d ∈ t.deeds, d.Ok cat) ∧
    (∀ name, t.methodCalls.getD name 0 = methodCalls.getD name 0 +
      if menu = .manual then ((t.deeds.countP (Deed.answered name) : Nat) : Int) else 0) ∧
    ∀ svcId egid ep,
      ep ∈ (nodeAfter (.ofEvents sdPort events) addr t.sent).registry.getSubscribers svcId egid ↔
      ∃ e port, .toggled e ∈ t.deeds ∧ UnicastEvent cat e svcId egid port ∧ ep = c.namedEndpoint port := by
  intro t
  have hready : c.Ready cat events := ⟨.of_loadCatalog hload, hevents, hfits, hc, hsig, hcan⟩
  obtain ⟨hstart, hauto⟩ := ClientTerminal.start_ok hready hsubs menu methodCalls sdPort addr
  have hok : t.Ok cat menu c methodCalls (.ofEvents sdPort events) addr :=
    Run.foldl_inv (I := fun t : ClientTerminal => t.Ok cat menu c methodCalls (.ofEvents sdPort events) addr)
      (fun s hs hpre => Run.post_eq hs ▸ hpre.step hready answer s.input) hstart
  refine ⟨fun e he => ?_, fun e he hkind => ?_, hok.deeds, hok.counted, hok.registered⟩
  · have hpoint := hok.point
    rw [he] at hpoint
    cases hpoint
  · rw [ClientContext.isSubscribed_iff, hok.subscribed]
    refine and_congr_right fun _ => (or_iff_right_of_imp ?_).symm
    rintro rfl
    have hcount : t.deeds.countP (Deed.toggles e.name) = 1 :=
      Run.foldl_inv (I := fun t : ClientTerminal => t.deeds.countP (Deed.toggles e.name) = 1)
        (fun s hs hpre => by
          rw [Run.post_eq hs, ClientTerminal.countP_toggles_step_auto]
          exact hpre) (hauto rfl e he hkind)
    rw [hcount]
    exact odd_one

/-- The user toggles the event, calls the method with a gear that is no number and then the default, toggles again
and leaves. -/
def exampleDialogue : List (Option String) := [some "1", some "2", some "x", none, some " 1", some "b"]

theorem exampleCatalog_unicastFits : exampleCatalog.UnicastFits := by
  have hall : ∀ m ∈ exampleCatalog.messages,
      (match resolveSomeip exampleCatalog m, resolveEventgroupId m, portOf m.udp with
      | .ok (svcId, _, _), .ok egid, .ok port => decide (FitsBits 16 svcId ∧ FitsBits 16 egid ∧ FitsBits 16 port)
      | _, _, _ => true) = true := by
    decide +kernel
  intro e svcId egid port h
  obtain ⟨v, eid, hsvc⟩ := h.svcId
  have hfits := hall e h.mem
  rw [hsvc, h.egid, h.port] at hfits
  exact of_decide_eq_true hfits

/-- The connection for the call is closed at once. -/
theorem client_menu_subscribes_example :
    let t := clientMenu .manual (fun _ _ => Stream.whole []) (Sys.exampleSys.clients ()) ∅ exampleDialogue
    (t.point.isLeft, t.deeds.length, t.sent.length) = (true, 3, 2) ∧
    (∀ e, t.point ≠ .left (some e)) ∧ ¬ t.ctx.isSubscribed Sys.exampleEvent.name = true ∧
    ∀ svcId egid ep,
      ep ∈ (nodeAfter (.ofEvents 30490 exampleEvents) ("127.0.0.1", 40000) t.sent).registry.getSubscribers svcId egid ↔
      ∃ e port, .toggled e ∈ t.deeds ∧ UnicastEvent exampleCatalog e svcId egid port ∧
        ep = (Sys.exampleSys.clients ()).namedEndpoint port := by
  intro t
  have hleft : (t.point.isLeft, t.deeds.length, t.sent.length) = (true, 3, 2) := by decide +kernel
  obtain ⟨hraised, hsubscribed, -, -, hregistered⟩ := client_menu_subscribes loadCatalog_example buildUdpEvents_example
    exampleCatalog_unicastFits (c := Sys.exampleSys.clients ()) rfl rfl Sys.exampleSys_canSubscribe rfl .manual
    (fun _ _ => Stream.whole []) ∅ exampleDialogue 30490 ("127.0.0.1", 40000)
  refine ⟨hleft, hraised, fun hon => ?_, hregistered⟩
  have hopen := ((hsubscribed Sys.exampleEvent Sys.exampleEvent_mem.1 Sys.exampleEvent_mem.2).1 hon).1
  rw [(Prod.mk.inj hleft).1] at hopen
  cases hopen

end AutoEth
