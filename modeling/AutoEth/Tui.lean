import AutoEth.ClientTerminal
import AutoEth.Node

/-!
# The text interface

`main` of the text interface has menus inside menus, and each of them reads lines until one leaves it: the main
menu, the server with its addresses and its two menus, the client with its connection and its two menus. `Screen`
says which prompt comes next, `Tui.step` what a line does there. Whatever the user types, a server that was left
has its stop event set and publishes nothing, a client between two menus has no subscription, and no exception
ends the program as long as the addresses that the client reads, its own and that of the discovery group, are
addresses (`tui_leaves_nothing`). The end of the input ends the program in the main menu only; any other menu
goes on asking.

Of a server the part is kept that the terminal changes (`ServerContext.control`). Socket calls are taken to
succeed, and what `_discover` finds is the address behind `answer`, the connections of each client menu.
-/

namespace AutoEth

/-! ### Settings -/

/-- What `load_network_config` reads. -/
structure NetworkConfig where
  serverListenIp : String := "0.0.0.0"
  serverAnnounceIp : String := "127.0.0.1"
  serverMulticastIface : String := "0.0.0.0"
  clientServerIp : String := "127.0.0.1"
  clientMulticastIface : String := "0.0.0.0"
  clientBindIp : String := "0.0.0.0"

/-- `_ask_ip`. -/
def askIp (line : Option String) (dflt : String) : String :=
  let ans := prompt line
  if ans = "" then dflt else ans

/-- What `_server_config` returns. -/
structure ServerConfig where
  listenIp : String
  announceIp : String
  ifaceIp : String
  sd : DiscoveryCfg

/-- The tables of a server, and what `start_infrastructure` starts. -/
structure Infrastructure where
  routes : Routes
  events : UdpEvents
  ports : Finset Int
  announcer : SdAnnouncer
  listener : SdListener

/-- The constructor of `ServerContext` and `start_infrastructure`. -/
def startInfrastructure (cat : Catalog) (cfg : ServerConfig) : Except PyErr Infrastructure := do
  let sigIndex := SignalIndex.fromSignals cat.signals
  let routes ← buildTcpRoutes cat sigIndex
  let events ← buildUdpEvents cat sigIndex
  let ports ← allPorts routes
  let announcer ← SdAnnouncer.init cat routes events cfg.announceIp
  return { routes, events, ports, announcer, listener := .ofEvents cfg.sd.port events }

/-! ### Screens -/

/-- The prompt that comes next, with what was answered before it. -/
inductive Screen where
  | main
  | listenIp (sd : DiscoveryCfg)
  | announceIp (sd : DiscoveryCfg) (listenIp : String)
  | ifaceIp (sd : DiscoveryCfg) (listenIp announceIp : String)
  | server (cfg : ServerConfig)
  | serverMenu (cfg : ServerConfig) (menu : ServerMenu) (infra : Infrastructure) (ctx : ServerContext Unit)
  | connect (sd : DiscoveryCfg)
  | clientIface (sd : DiscoveryCfg) (cmd : String)
  | bindIp (sd : DiscoveryCfg) (cmd ifaceIp : String)
  | verbose (sd : DiscoveryCfg) (cmd ifaceIp bindIp : String)
  | serverIp (sd : DiscoveryCfg) (ifaceIp bindIp : String)
  | client (c : ClientContext) (methodCalls : Dict String Int)
  | clientMenu (menu : ClientMenu) (terminal : ClientTerminal)
  | ended (raised : Option PyErr)

/-- The program, with the number of servers that were started, those that were left, the number of client menus
that were opened, and the addresses that `inet_aton` has to read for the clients when they search and subscribe. -/
structure Tui where
  screen : Screen
  started : Nat
  stopped : List (ServerContext Unit)
  menus : Nat
  addresses : List String

namespace Tui

section
variable (cat : Catalog)

/-- `get_discovery_cfg` on the way to a menu. -/
def configure (t : Tui) (screen : DiscoveryCfg → Screen) : Tui :=
  match getDiscoveryCfg cat with
  | .error e => { t with screen := .ended (some e) }
  | .ok sd => { t with screen := screen sd }

/-- `_server_auto` and `_server_manual`, up to their first prompt. -/
def openServer (t : Tui) (cfg : ServerConfig) (menu : ServerMenu) : Tui :=
  match startInfrastructure cat cfg with
  | .error e => { t with screen := .ended (some e) }
  | .ok infra =>
    let t := { t with started := t.started + 1 }
    match menu with
    | .manual => { t with screen := .serverMenu cfg menu infra (.init ()) }
    | .auto =>
      match (ServerContext.init ()).startAllEvents infra.events with
      | (ctx, none) => { t with screen := .serverMenu cfg menu infra ctx }
      | (_, some e) => { t with screen := .ended (some e) }

/-- A line in the menu of a server. -/
def serverLine (t : Tui) (cfg : ServerConfig) (menu : ServerMenu) (infra : Infrastructure)
    (ctx : ServerContext Unit) : MenuLine → Tui
  | .leave => { t with screen := .server cfg, stopped := t.stopped ++ [ctx.stopAll] }
  | .toggle name =>
    match ctx.toggleEvent infra.events name with
    | .ok (ctx, _) => { t with screen := .serverMenu cfg menu infra ctx }
    | .error e => if e.isValueError then t else { t with screen := .ended (some e) }
  | .other => t

/-- The end of `_client_connect`. -/
def newClient (t : Tui) (sd : DiscoveryCfg) (ifaceIp bindIp : String) : Tui :=
  let c : ClientContext := {
    cat, sigIndex := .fromSignals cat.signals, ifaceIp, sdGroup := sd.group, sdPort := sd.port, bindIp, subs := ∅ }
  { t with screen := .client c ∅, addresses := t.addresses ++ [c.clientIp, sd.group] }

/-- `_client_connect` after its last question but one: `_discover` joins the group, or the address is asked for. -/
def connect (t : Tui) (sd : DiscoveryCfg) (cmd ifaceIp bindIp : String) : Tui :=
  if cmd = "2" then
    let t := { t with addresses := t.addresses ++ [sd.group, ifaceIp] }
    match joinMulticast sd.group ifaceIp with
    | .error e => { t with screen := .ended (some e) }
    | .ok _ => t.newClient cat sd ifaceIp bindIp
  else { t with screen := .serverIp sd ifaceIp bindIp }

end

/-- Where a menu of the client stands after its beginning or after a line. -/
def showClient (t : Tui) (menu : ClientMenu) (terminal : ClientTerminal) : Tui :=
  match terminal.point with
  | .left none => { t with screen := .client terminal.ctx terminal.methodCalls }
  | .left (some e) => { t with screen := .ended (some e) }
  | _ => { t with screen := .clientMenu menu terminal }

def openClient (t : Tui) (c : ClientContext) (methodCalls : Dict String Int) (menu : ClientMenu) : Tui :=
  { t with menus := t.menus + 1 }.showClient menu (.start menu c methodCalls)

/-- One line. -/
def step (cat : Catalog) (net : NetworkConfig) (answer : Nat → Nat → Bytes → Sock) (t : Tui)
    (line : Option String) : Tui :=
  let cmd := prompt line
  match t.screen with
  | .main =>
    if cmd = "1" then t.configure cat .listenIp
    else if cmd = "2" then t.configure cat .connect
    else if cmd.toLower = "q" then { t with screen := .ended none }
    else t
  | .listenIp sd => { t with screen := .announceIp sd (askIp line net.serverListenIp) }
  | .announceIp sd listenIp => { t with screen := .ifaceIp sd listenIp (askIp line net.serverAnnounceIp) }
  | .ifaceIp sd listenIp announceIp =>
    { t with screen := .server { listenIp, announceIp, ifaceIp := askIp line net.serverMulticastIface, sd } }
  | .server cfg =>
    if cmd = "1" then t.openServer cat cfg .auto
    else if cmd = "2" then t.openServer cat cfg .manual
    else if cmd.toLower = "b" then { t with screen := .main }
    else t
  | .serverMenu cfg menu infra ctx => t.serverLine cfg menu infra ctx (menu.readLine infra.events.keys line)
  | .connect sd =>
    if cmd.toLower = "b" then { t with screen := .main } else { t with screen := .clientIface sd cmd }
  | .clientIface sd cmd => { t with screen := .bindIp sd cmd (askIp line net.clientMulticastIface) }
  | .bindIp sd cmd ifaceIp => { t with screen := .verbose sd cmd ifaceIp (askIp line net.clientBindIp) }
  | .verbose sd cmd ifaceIp bindIp => t.connect cat sd cmd ifaceIp bindIp
  | .serverIp sd ifaceIp bindIp => t.newClient cat sd ifaceIp bindIp
  | .client c methodCalls =>
    if cmd = "1" then t.openClient c methodCalls .auto
    else if cmd = "2" then t.openClient c methodCalls .manual
    else if cmd.toLower = "b" then { t with screen := .main }
    else t
  | .clientMenu menu terminal => t.showClient menu (terminal.step menu (answer t.menus) line)
  | .ended _ => t

end Tui

/-- `main` of the text interface, for the lines that were typed. -/
def tui (cat : Catalog) (net : NetworkConfig) (answer : Nat → Nat → Bytes → Sock) (lines : List (Option String)) :
    Tui :=
  lines.foldl (Tui.step cat net answer) { screen := .main, started := 0, stopped := [], menus := 0, addresses := [] }

/-! ### What holds between two lines -/

/-- An accepted catalog whose servers and clients can start. -/
structure Catalog.Starts (cat : Catalog) (routes : Routes) (events : UdpEvents) : Prop where
  valid : cat.Valid
  discovery : ∃ sd, getDiscoveryCfg cat = .ok sd ∧ FitsBits 16 sd.port
  create : ∀ name ∈ events.keys, ∃ route pub, events.get? name = some route ∧ UdpPublisher.create route = .ok pub
  routes : buildTcpRoutes cat (.fromSignals cat.signals) = .ok routes
  events : buildUdpEvents cat (.fromSignals cat.signals) = .ok events
  fits : cat.UnicastFits

/-- One of the addresses does not read. -/
def Misread (addresses : List String) : Prop := ∃ ip ∈ addresses, Inet.aton ip = none

/-- A server that was left. -/
structure ServerContext.Left {σ : Type} (c : ServerContext σ) : Prop where
  stopEvt : c.stopEvt = true
  not_running : ∀ i name, ¬ c.Running i name

def Screen.isServerMenu : Screen → Bool
  | .serverMenu _ _ _ _ => true
  | _ => false

section
variable (cat : Catalog) (events : UdpEvents) (addresses : List String)

/-- The server of the open menu has the events of the catalog; unless an address was misread, a client has no
subscription between its menus, its menus keep their invariant, and nothing was raised. -/
def Screen.Ok : Screen → Prop
  | .connect sd => FitsBits 16 sd.port
  | .clientIface sd _ => FitsBits 16 sd.port
  | .bindIp sd _ _ => FitsBits 16 sd.port
  | .verbose sd _ _ _ => FitsBits 16 sd.port
  | .serverIp sd _ _ => FitsBits 16 sd.port
  | .serverMenu _ _ infra ctx => infra.events = events ∧ ctx.Ok events
  | .client c _ => Misread addresses ∨ c.Ready cat events ∧ c.subs = ∅
  | .clientMenu menu terminal => Misread addresses ∨ ∃ c methodCalls, c.Ready cat events ∧
      terminal.Ok cat menu c methodCalls (.ofEvents 0 events) ("", 0)
  | .ended (some _) => Misread addresses
  | _ => True

structure Tui.Ok (t : Tui) : Prop where
  screen : t.screen.Ok cat events t.addresses
  stopped : ∀ c ∈ t.stopped, c.Left
  started : t.started = t.stopped.length + if t.screen.isServerMenu then 1 else 0

end

section
variable {cat : Catalog} {routes : Routes} {events : UdpEvents} {t : Tui}

theorem ServerContext.Ok.left {σ : Type} {c : ServerContext σ} (h : c.Ok events) : c.stopAll.Left := by
  refine ⟨c.stopEvt_stopAll, fun i name hrunning => ?_⟩
  have hget := (h.stopAll.listed name i).2 hrunning
  have hpub := c.isPublishing_stopAll name
  rw [isPublishing, Dict.contains, hget] at hpub
  cases hpub

theorem Catalog.Starts.exists_infrastructure (h : cat.Starts routes events) (cfg : ServerConfig) :
    ∃ infra, startInfrastructure cat cfg = .ok infra ∧ infra.events = events := by
  obtain ⟨ports, hports, -⟩ := exists_allPorts h.valid h.routes
  obtain ⟨announcer, hannouncer⟩ := SdAnnouncer.exists_init h.valid h.routes h.events cfg.announceIp
  refine ⟨⟨routes, events, ports, announcer, .ofEvents cfg.sd.port events⟩, ?_, rfl⟩
  rw [startInfrastructure, h.routes, Except.ok_bind, h.events, Except.ok_bind, hports, Except.ok_bind, hannouncer,
    Except.ok_bind]
  rfl

namespace Tui.Ok

theorem moveTo (h : t.Ok cat events) (hmenu : t.screen.isServerMenu = false) {screen : Screen}
    (hscreen : screen.Ok cat events t.addresses) (hmenu' : screen.isServerMenu = false) :
    ({ t with screen } : Tui).Ok cat events := by
  refine ⟨hscreen, h.stopped, ?_⟩
  show t.started = _ + if screen.isServerMenu = true then 1 else 0
  rw [h.started, hmenu, hmenu']

theorem moveClient (h : t.Ok cat events) (hmenu : t.screen.isServerMenu = false) {screen : Screen} {menus : Nat}
    {addresses : List String} (hscreen : screen.Ok cat events addresses) (hmenu' : screen.isServerMenu = false) :
    ({ t with screen, menus, addresses } : Tui).Ok cat events := by
  refine ⟨hscreen, h.stopped, ?_⟩
  show t.started = _ + if screen.isServerMenu = true then 1 else 0
  rw [h.started, hmenu, hmenu']

theorem showClient (h : t.Ok cat events) (hmenu : t.screen.isServerMenu = false) (menu : ClientMenu)
    {terminal : ClientTerminal} (hterminal : Misread t.addresses ∨ ∃ c methodCalls, c.Ready cat events ∧
      terminal.Ok cat menu c methodCalls (.ofEvents 0 events) ("", 0)) :
    (t.showClient menu terminal).Ok cat events := by
  unfold Tui.showClient
  cases hpoint : terminal.point with
  | left raised =>
    cases raised with
    | none =>
      refine h.moveTo hmenu (hterminal.imp_right ?_) rfl
      rintro ⟨c, methodCalls, hready, hok⟩
      refine ⟨hok.ready hready, Dict.eq_empty fun name hname => ?_⟩
      have hopen := ((hok.subscribed name).1 hname).1
      rw [hpoint] at hopen
      cases hopen
    | some e =>
      refine h.moveTo hmenu (hterminal.resolve_right ?_) rfl
      rintro ⟨c, methodCalls, hready, hok⟩
      have hraised := hok.point
      rw [hpoint] at hraised
      cases hraised
  | _ => exact h.moveTo hmenu hterminal rfl

theorem openClient (h : t.Ok cat events) {c : ClientContext} {methodCalls : Dict String Int}
    (ht : t.screen = .client c methodCalls) (menu : ClientMenu) :
    (t.openClient c methodCalls menu).Ok cat events := by
  have hmenu : t.screen.isServerMenu = false := by rw [ht]; rfl
  have hscreen := h.screen
  rw [ht] at hscreen
  have hopened : ({ t with menus := t.menus + 1 } : Tui).Ok cat events := h.moveClient hmenu h.screen hmenu
  refine hopened.showClient hmenu menu (hscreen.imp_right ?_)
  rintro ⟨hready, hsubs⟩
  exact ⟨c, methodCalls, hready, (ClientTerminal.start_ok hready hsubs menu methodCalls 0 ("", 0)).1⟩

variable (hcat : cat.Starts routes events)
include hcat

theorem configure (h : t.Ok cat events) (hmenu : t.screen.isServerMenu = false) {screen : DiscoveryCfg → Screen}
    (hscreen : ∀ sd, FitsBits 16 sd.port → (screen sd).Ok cat events t.addresses)
    (hmenu' : ∀ sd, (screen sd).isServerMenu = false) : (t.configure cat screen).Ok cat events := by
  obtain ⟨sd, hsd, hport⟩ := hcat.discovery
  rw [Tui.configure, hsd]
  exact h.moveTo hmenu (hscreen sd hport) (hmenu' sd)

theorem openServer (h : t.Ok cat events) (hmenu : t.screen.isServerMenu = false) (cfg : ServerConfig)
    (menu : ServerMenu) : (t.openServer cat cfg menu).Ok cat events := by
  obtain ⟨infra, hinfra, rfl⟩ := hcat.exists_infrastructure cfg
  have hstarted : t.started + 1 = t.stopped.length + 1 := by rw [h.started, hmenu]; rfl
  have hinit : (ServerContext.init ()).Ok infra.events := .init infra.events ()
  rw [Tui.openServer, hinfra]
  cases menu with
  | manual => exact ⟨⟨rfl, hinit⟩, h.stopped, hstarted⟩
  | auto =>
    have hok := hinit.startNames (.of_build hcat.valid hcat.events) infra.events.keys
    obtain ⟨hnone, -⟩ := ServerContext.startNames_spec hcat.create (ServerContext.init ())
    have hstart : (ServerContext.init ()).startAllEvents infra.events =
        (((ServerContext.init ()).startNames infra.events infra.events.keys).1, none) := by
      rw [← hnone]
      rfl
    simp only [hstart]
    exact ⟨⟨rfl, hok⟩, h.stopped, hstarted⟩

theorem serverLine (h : t.Ok cat events) {cfg : ServerConfig} {menu : ServerMenu} {infra : Infrastructure}
    {ctx : ServerContext Unit} (ht : t.screen = .serverMenu cfg menu infra ctx) {line : MenuLine}
    (hline : ∀ name, line = .toggle name → name ∈ events.keys) :
    (t.serverLine cfg menu infra ctx line).Ok cat events := by
  have hscreen := h.screen
  have hstarted := h.started
  rw [ht] at hscreen hstarted
  obtain ⟨rfl, hctx⟩ := hscreen
  cases line with
  | leave =>
    refine ⟨trivial, fun c hc => ?_, ?_⟩
    · rcases List.mem_append.1 hc with hc | hc
      · exact h.stopped c hc
      · rw [List.mem_singleton.1 hc]
        exact hctx.left
    · show t.started = (t.stopped ++ [ctx.stopAll]).length + 0
      rw [hstarted, List.length_append]
      rfl
  | toggle name =>
    obtain ⟨route, pub, hroute, hpub⟩ := hcat.create name (hline name rfl)
    obtain ⟨ctx', htoggle, -⟩ := ctx.exists_toggleEvent hroute hpub
    rw [Tui.serverLine, htoggle]
    exact ⟨⟨rfl, hctx.toggleEvent (.of_build hcat.valid hcat.events) htoggle⟩, h.stopped, hstarted⟩
  | other => exact h

theorem newClient (h : t.Ok cat events) (hmenu : t.screen.isServerMenu = false) {sd : DiscoveryCfg}
    (hport : FitsBits 16 sd.port) (ifaceIp bindIp : String) : (t.newClient cat sd ifaceIp bindIp).Ok cat events := by
  refine h.moveClient hmenu ?_ rfl
  cases hread : Inet.aton (if bindIp ≠ "0.0.0.0" then bindIp else "127.0.0.1") with
  | none => exact .inl ⟨_, List.mem_append_right _ (List.mem_cons_self ..), hread⟩
  | some v =>
    cases hgroup : Inet.aton sd.group with
    | none => exact .inl ⟨_, List.mem_append_right _ (List.mem_cons_of_mem _ (List.mem_singleton_self _)), hgroup⟩
    | some w =>
      exact .inr ⟨⟨hcat.valid, hcat.events, hcat.fits, rfl, rfl, Option.isSome_of_eq_some hread,
        Option.isSome_of_eq_some hgroup, hport⟩, rfl⟩

theorem connect (h : t.Ok cat events) {sd : DiscoveryCfg} {cmd ifaceIp bindIp : String}
    (ht : t.screen = .verbose sd cmd ifaceIp bindIp) : (t.connect cat sd cmd ifaceIp bindIp).Ok cat events := by
  have hmenu : t.screen.isServerMenu = false := by rw [ht]; rfl
  have hport := h.screen
  rw [ht] at hport
  have hport : FitsBits 16 sd.port := hport
  rw [Tui.connect]
  split_ifs
  · have hjoining : ({ t with addresses := t.addresses ++ [sd.group, ifaceIp] } : Tui).Ok cat events :=
      h.moveClient hmenu (by rw [ht]; exact hport) hmenu
    cases hjoin : joinMulticast sd.group ifaceIp with
    | error e =>
      refine hjoining.moveTo hmenu ?_ rfl
      by_contra hread
      have hsome : ∀ ip ∈ t.addresses ++ [sd.group, ifaceIp], (Inet.aton ip).isSome := fun ip hip => by
        rw [Option.isSome_iff_ne_none]
        exact fun hnone => hread ⟨ip, hip, hnone⟩
      rw [joinMulticast_eq_ok.2 ⟨hsome sd.group (by simp), hsome ifaceIp (by simp)⟩] at hjoin
      cases hjoin
    | ok _ => exact hjoining.newClient hcat hmenu hport ifaceIp bindIp
  · exact h.moveTo hmenu hport rfl

theorem step (h : t.Ok cat events) (net : NetworkConfig) (answer : Nat → Nat → Bytes → Sock)
    (line : Option String) : (t.step cat net answer line).Ok cat events := by
  unfold Tui.step
  have hscreen := h.screen
  cases ht : t.screen with
  | main =>
    simp only
    split_ifs
    · exact h.configure hcat (by rw [ht]; rfl) (fun _ _ => trivial) fun _ => rfl
    · exact h.configure hcat (by rw [ht]; rfl) (fun _ hport => hport) fun _ => rfl
    · exact h.moveTo (by rw [ht]; rfl) trivial rfl
    · exact h
  | listenIp sd => exact h.moveTo (by rw [ht]; rfl) trivial rfl
  | announceIp sd listenIp => exact h.moveTo (by rw [ht]; rfl) trivial rfl
  | ifaceIp sd listenIp announceIp => exact h.moveTo (by rw [ht]; rfl) trivial rfl
  | server cfg =>
    simp only
    split_ifs
    · exact h.openServer hcat (by rw [ht]; rfl) cfg .auto
    · exact h.openServer hcat (by rw [ht]; rfl) cfg .manual
    · exact h.moveTo (by rw [ht]; rfl) trivial rfl
    · exact h
  | serverMenu cfg menu infra ctx =>
    rw [ht] at hscreen
    refine h.serverLine hcat ht fun name hname => ?_
    rw [← hscreen.1]
    exact ServerMenu.readLine_eq_toggle hname
  | connect sd =>
    rw [ht] at hscreen
    simp only
    split_ifs
    · exact h.moveTo (by rw [ht]; rfl) trivial rfl
    · exact h.moveTo (by rw [ht]; rfl) hscreen rfl
  | clientIface sd cmd =>
    rw [ht] at hscreen
    exact h.moveTo (by rw [ht]; rfl) hscreen rfl
  | bindIp sd cmd ifaceIp =>
    rw [ht] at hscreen
    exact h.moveTo (by rw [ht]; rfl) hscreen rfl
  | verbose sd cmd ifaceIp bindIp => exact h.connect hcat ht
  | serverIp sd ifaceIp bindIp =>
    rw [ht] at hscreen
    exact h.newClient hcat (by rw [ht]; rfl) hscreen ifaceIp bindIp
  | client c methodCalls =>
    simp only
    split_ifs
    · exact h.openClient ht .auto
    · exact h.openClient ht .manual
    · exact h.moveTo (by rw [ht]; rfl) trivial rfl
    · exact h
  | clientMenu menu terminal =>
    rw [ht] at hscreen
    refine h.showClient (by rw [ht]; rfl) menu (hscreen.imp_right ?_)
    rintro ⟨c, methodCalls, hready, hok⟩
    exact ⟨c, methodCalls, hready, hok.step hready _ line⟩
  | ended raised => exact h

end Tui.Ok

/-! ### The end of the input -/

/-- Not the main menu, and not the end that it leads to. -/
def Screen.Inside : Screen → Prop
  | .main => False
  | .ended none => False
  | _ => True

theorem Screen.not_inside {screen : Screen} : ¬ screen.Inside ↔ screen = .main ∨ screen = .ended none := by
  cases screen with
  | main => exact iff_of_true id (.inl rfl)
  | ended raised =>
    cases raised with
    | none => exact iff_of_true id (.inr rfl)
    | some e => simp [Inside]
  | _ => simp [Inside]

namespace Tui

theorem inside_serverLine {cfg : ServerConfig} {menu : ServerMenu} {infra : Infrastructure} {ctx : ServerContext Unit}
    (h : t.screen.Inside) (line : MenuLine) : (t.serverLine cfg menu infra ctx line).screen.Inside := by
  cases line with
  | leave => trivial
  | toggle name =>
    rw [serverLine]
    cases ctx.toggleEvent infra.events name with
    | error e =>
      simp only
      split_ifs
      · exact h
      · trivial
    | ok r => trivial
  | other => exact h

theorem inside_connect (sd : DiscoveryCfg) (cmd ifaceIp bindIp : String) :
    (t.connect cat sd cmd ifaceIp bindIp).screen.Inside := by
  rw [connect]
  split_ifs
  · cases hjoin : joinMulticast sd.group ifaceIp with
    | error e => trivial
    | ok _ => trivial
  · trivial

theorem inside_showClient (menu : ClientMenu) (terminal : ClientTerminal) :
    (t.showClient menu terminal).screen.Inside := by
  unfold showClient
  cases terminal.point with
  | left raised =>
    cases raised with
    | none => trivial
    | some e => trivial
  | _ => trivial

variable (cat) (net : NetworkConfig) (answer : Nat → Nat → Bytes → Sock)

/-- The end of the input leads from no menu back to the main menu. -/
theorem inside_step_none (h : t.screen.Inside) : (t.step cat net answer none).screen.Inside := by
  have hq : prompt none = "q" := rfl
  have hb : ¬ "q".toLower = "b" := by decide +kernel
  unfold step
  rw [hq]
  cases ht : t.screen with
  | main =>
    rw [ht] at h
    exact h.elim
  | server cfg =>
    simp only [hb, if_false, String.reduceEq]
    exact h
  | serverMenu cfg menu infra ctx => exact inside_serverLine h _
  | connect sd =>
    simp only [hb, if_false]
    trivial
  | verbose sd cmd ifaceIp bindIp => exact inside_connect sd cmd ifaceIp bindIp
  | client c methodCalls =>
    simp only [hb, if_false, String.reduceEq]
    exact h
  | clientMenu menu terminal => exact inside_showClient _ _
  | ended raised => exact h
  | _ => trivial

theorem step_none_of_main (h : t.screen = .main) :
    t.step cat net answer none = { t with screen := .ended none } := by
  have hprompt : prompt none = "q" := rfl
  have hq : "q".toLower = "q" := by decide +kernel
  unfold step
  rw [h, hprompt]
  simp only [hq, if_true, if_false, String.reduceEq]

theorem inside_foldl_none (h : t.screen.Inside) (n : Nat) :
    ((List.replicate n none).foldl (step cat net answer) t).screen.Inside := by
  induction n generalizing t with
  | zero => exact h
  | succ n ih => exact ih (inside_step_none cat net answer h)

theorem foldl_ended {raised : Option PyErr} (h : t.screen = .ended raised) (lines : List (Option String)) :
    lines.foldl (step cat net answer) t = t := by
  induction lines with
  | nil => rfl
  | cons line lines ih =>
    have hstep : t.step cat net answer line = t := by
      unfold step
      rw [h]
    rw [List.foldl_cons, hstep]
    exact ih

theorem foldl_none_ended_iff (t : Tui) (n : Nat) :
    ((List.replicate (n + 1) none).foldl (step cat net answer) t).screen = .ended none ↔
      t.screen = .main ∨ t.screen = .ended none := by
  constructor
  · intro hended
    refine Screen.not_inside.1 fun hinside => ?_
    have hstays := inside_foldl_none cat net answer hinside (n + 1)
    rw [hended] at hstays
    exact hstays
  · rintro (hmain | hended)
    · rw [List.replicate_succ, List.foldl_cons, step_none_of_main cat net answer hmain,
        foldl_ended cat net answer rfl]
    · rw [foldl_ended cat net answer hended]
      exact hended

end Tui

end

/-! ### All lines -/

/-- Whatever the user types, each server that was left has stopped, and these are all that were started but the
one of the open menu; a client outside its menus has no subscription, and no exception ends the program, unless
an address was misread. The end of the input ends the program in the main menu only. -/
theorem tui_leaves_nothing {doc : Value} {cat : Catalog} {routes : Routes} {events : UdpEvents}
    (hload : loadCatalog doc = .ok cat) (hroutes : buildTcpRoutes cat (.fromSignals cat.signals) = .ok routes)
    (hevents : buildUdpEvents cat (.fromSignals cat.signals) = .ok events)
    (hpublishable : ∀ route ∈ events.values, route.msg.Publishable) (hfits : cat.UnicastFits) (net : NetworkConfig)
    (answer : Nat → Nat → Bytes → Sock) (lines : List (Option String)) :
    let t := tui cat net answer lines
    (∀ c ∈ t.stopped, c.stopEvt = true ∧ ∀ i name, ¬ c.Running i name) ∧
    t.started = t.stopped.length + (if t.screen.isServerMenu then 1 else 0) ∧
    ((∀ ip ∈ t.addresses, (Inet.aton ip).isSome) →
      (∀ e, t.screen ≠ .ended (some e)) ∧ ∀ c methodCalls, t.screen = .client c methodCalls → c.subs = ∅) ∧
    ∀ n, (tui cat net answer (lines ++ List.replicate (n + 1) none)).screen = .ended none ↔
      t.screen = .main ∨ t.screen = .ended none := by
  intro t
  have hvalid := Catalog.Valid.of_loadCatalog hload
  obtain ⟨sd, hsd, hsdValid⟩ := exists_getDiscoveryCfg hload
  have hport : FitsBits 16 sd.port := ⟨hsdValid.port.1.le, by have := hsdValid.port.2; omega⟩
  have hcat : cat.Starts routes events := ⟨hvalid, ⟨sd, hsd, hport⟩,
    exists_create_of_publishable hvalid hevents hpublishable, hroutes, hevents, hfits⟩
  have hok : t.Ok cat events :=
    Run.foldl_inv (I := fun t : Tui => t.Ok cat events)
      (fun s hs hpre => Run.post_eq hs ▸ hpre.step hcat net answer s.input) ⟨trivial, List.forall_mem_nil _, rfl⟩
  refine ⟨fun c hc => ⟨(hok.stopped c hc).stopEvt, (hok.stopped c hc).not_running⟩, hok.started, fun hread => ?_,
    fun n => ?_⟩
  · have hnot : ¬ Misread t.addresses := by
      rintro ⟨ip, hip, hnone⟩
      have hsome := hread ip hip
      rw [hnone] at hsome
      cases hsome
    have hscreen := hok.screen
    refine ⟨fun e he => ?_, fun c methodCalls hc => ?_⟩
    · rw [he] at hscreen
      exact hnot hscreen
    · rw [hc] at hscreen
      exact (hscreen.resolve_left hnot).2
  · have hsplit : tui cat net answer (lines ++ List.replicate (n + 1) none) =
        (List.replicate (n + 1) none).foldl (Tui.step cat net answer) t := List.foldl_append ..
    rw [hsplit]
    exact Tui.foldl_none_ended_iff cat net answer t n

/-- The user opens the automatic menu of the server and leaves it, connects a client and subscribes in its manual
menu, leaves it, and quits. -/
def exampleSession : List (Option String) :=
  ["1", "", "", "", "1", "d", "q", "b", "2", "1", "", "", "", "", "2", "1", "b", "b", "q"].map some

theorem tui_leaves_nothing_example :
    let t := tui exampleCatalog {} (fun _ _ _ => Stream.whole []) exampleSession
    (t.started, t.stopped.length, t.menus, t.addresses) = (1, 1, 1, ["127.0.0.1", "239.0.0.2"]) ∧
    (∀ c ∈ t.stopped, c.stopEvt = true ∧ ∀ i name, ¬ c.Running i name) ∧ ∀ e, t.screen ≠ .ended (some e) := by
  intro t
  have haddresses : t.addresses = ["127.0.0.1", "239.0.0.2"] := by decide +kernel
  obtain ⟨hstopped, -, hread, -⟩ := tui_leaves_nothing loadCatalog_example buildTcpRoutes_example
    buildUdpEvents_example exampleEvents_publishable exampleCatalog_unicastFits {} (fun _ _ _ => Stream.whole [])
    exampleSession
  refine ⟨by decide +kernel, hstopped, (hread fun ip hip => ?_).1⟩
  rw [show (tui exampleCatalog {} (fun _ _ _ => Stream.whole []) exampleSession).addresses = _ from haddresses] at hip
  rcases List.mem_pair.1 hip with rfl | rfl
  · decide +kernel
  · decide +kernel

end AutoEth
