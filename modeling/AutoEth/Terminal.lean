import Mathlib.Algebra.Group.Nat.Even
import AutoEth.ServerSessions

/-!
# The menus of the text interface

What the user types becomes commands for the threads of a server. A menu reads one line after another until
the one that leaves it, and stops everything then; a line is text or the end of the input, which `_prompt` takes
for a `q`. The automatic menu starts all events; in the manual one a number toggles an event, and what is no
number of an event does nothing (`server_menu_publishes`). The end of the input leaves the automatic menu, but
not the manual one.
-/

namespace AutoEth

/-- `_prompt`, where `none` is the end of the input or an interrupt. -/
def prompt : Option String → String
  | some line => strip line
  | none => "q"

/-- What a line is for a menu over the names of the events. -/
inductive MenuLine where
  | leave
  | toggle (name : String)
  | other
deriving DecidableEq

/-- One turn of the loop of `_server_auto`. Of the letters that the menus ask for, only the two cases have it as
their `lower()`. -/
def autoLine (line : Option String) : MenuLine :=
  if (prompt line).toLower = "q" then .leave else .other

/-- One turn of the loop of `_server_manual`. -/
def manualLine (events : List String) (line : Option String) : MenuLine :=
  let cmd := prompt line
  if cmd.toLower = "b" then .leave
  else if cmd.toLower = "d" then .other
  else
    match intOfString 10 cmd with
    | .error _ => .other
    | .ok n =>
      if 1 ≤ n ∧ n ≤ events.length then
        match events[(n - 1).toNat]? with
        | some name => .toggle name
        | none => .other
      else .other

/-- The commands of a menu, up to the line that leaves it. -/
def menuCommands (read : Option String → MenuLine) : List (Option String) → List Command
  | [] => []
  | line :: lines =>
    match read line with
    | .leave => [.stopAll]
    | .toggle name => .toggle name :: menuCommands read lines
    | .other => menuCommands read lines

/-- `_server_auto`, behind `start_infrastructure`. -/
def serverAuto (lines : List (Option String)) : List Command := .startAll :: menuCommands autoLine lines

/-- `_server_manual`, behind `start_infrastructure`. -/
def serverManual (events : List String) (lines : List (Option String)) : List Command :=
  menuCommands (manualLine events) lines

inductive ServerMenu where
  | manual
  | auto

namespace ServerMenu

def readLine (events : List String) : ServerMenu → Option String → MenuLine
  | .manual => manualLine events
  | .auto => autoLine

def commands (events : List String) (lines : List (Option String)) : ServerMenu → List Command
  | .manual => serverManual events lines
  | .auto => serverAuto lines

end ServerMenu

section
variable {read : Option String → MenuLine} {events : List String} {lines : List (Option String)}

/-- How many of the lines toggle the event. -/
def timesToggled (read : Option String → MenuLine) (name : String) (lines : List (Option String)) : Nat :=
  lines.countP fun line => read line = .toggle name

/-- One of the lines leaves the menu. -/
def Leaves (read : Option String → MenuLine) (lines : List (Option String)) : Prop :=
  ∃ line ∈ lines, read line = .leave

theorem manualLine_eq_toggle {line : Option String} {name : String} (h : manualLine events line = .toggle name) :
    name ∈ events := by
  unfold manualLine at h
  dsimp only at h
  split_ifs at h
  split at h
  · cases h
  · split_ifs at h
    split at h
    · rename_i hget
      cases h
      exact List.mem_of_getElem? hget
    · cases h

theorem autoLine_ne_toggle (line : Option String) (name : String) : autoLine line ≠ .toggle name := by
  unfold autoLine
  split_ifs
  · simp
  · simp

theorem ServerMenu.readLine_eq_toggle {menu : ServerMenu} {line : Option String} {name : String}
    (h : menu.readLine events line = .toggle name) : name ∈ events := by
  cases menu with
  | manual => exact manualLine_eq_toggle h
  | auto => exact absurd h (autoLine_ne_toggle line name)

theorem exists_line_of_menuCommands {name : String} (h : .toggle name ∈ menuCommands read lines) :
    ∃ line ∈ lines, read line = .toggle name := by
  induction lines with
  | nil => cases h
  | cons line lines ih =>
    rw [menuCommands] at h
    cases hread : read line with
    | leave =>
      rw [hread] at h
      simp at h
    | toggle name' =>
      rw [hread] at h
      rcases List.mem_cons.1 h with heq | h
      · cases heq
        exact ⟨line, List.mem_cons_self .., hread⟩
      · obtain ⟨line', hline', hread'⟩ := ih h
        exact ⟨line', List.mem_cons_of_mem _ hline', hread'⟩
    | other =>
      rw [hread] at h
      obtain ⟨line', hline', hread'⟩ := ih h
      exact ⟨line', List.mem_cons_of_mem _ hline', hread'⟩

theorem ServerMenu.mem_events_of_commands {menu : ServerMenu} {name : String}
    (h : .toggle name ∈ menu.commands events lines) : name ∈ events := by
  have hmem : .toggle name ∈ menuCommands (menu.readLine events) lines := by
    cases menu with
    | manual => exact h
    | auto => exact (List.mem_cons.1 h).resolve_left (by simp)
  obtain ⟨line, -, hread⟩ := exists_line_of_menuCommands hmem
  exact readLine_eq_toggle hread

/-- The commands that are done come from the first lines, and those still to come from the others. -/
theorem exists_take_of_menuCommands {done rest : List Command} (h : menuCommands read lines = done ++ rest) :
    ∃ k, k ≤ lines.length ∧ done = menuCommands read (lines.take k) := by
  induction lines generalizing done with
  | nil =>
    have hnil : done = [] := (List.append_eq_nil_iff.1 h.symm).1
    exact ⟨0, Nat.le_refl _, hnil⟩
  | cons line lines ih =>
    rcases done with _ | ⟨cmd, done⟩
    · exact ⟨0, Nat.zero_le _, rfl⟩
    · rw [menuCommands] at h
      cases hread : read line with
      | leave =>
        rw [hread] at h
        have h : [Command.stopAll] = cmd :: (done ++ rest) := h
        obtain ⟨rfl, hnil⟩ := List.cons.inj h
        rw [(List.append_eq_nil_iff.1 hnil.symm).1]
        refine ⟨1, by simp, ?_⟩
        rw [List.take_succ_cons, menuCommands, hread]
      | toggle name =>
        rw [hread] at h
        have h : .toggle name :: menuCommands read lines = cmd :: (done ++ rest) := h
        obtain ⟨rfl, hrest⟩ := List.cons.inj h
        obtain ⟨k, hk, hdone⟩ := ih hrest
        refine ⟨k + 1, Nat.succ_le_succ hk, ?_⟩
        rw [List.take_succ_cons, menuCommands, hread, hdone]
      | other =>
        rw [hread] at h
        obtain ⟨k, hk, hdone⟩ := ih (show menuCommands read lines = (cmd :: done) ++ rest from h)
        refine ⟨k + 1, Nat.succ_le_succ hk, ?_⟩
        rw [List.take_succ_cons, menuCommands, hread, hdone]

theorem leaves_cons {line : Option String} : Leaves read (line :: lines) ↔ read line = .leave ∨ Leaves read lines :=
  List.exists_mem_cons_iff ..

theorem timesToggled_cons {line : Option String} (name : String) : timesToggled read name (line :: lines) =
    timesToggled read name lines + if read line = .toggle name then 1 else 0 := by
  rw [timesToggled, List.countP_cons, timesToggled]
  simp

/-- A menu leaves an event switched on when nothing has left it and the event was toggled often enough. -/
theorem foldl_switch_menuCommands (name : String) (on : Bool) :
    (menuCommands read lines).foldl (Command.switch name) on = true ↔
      ¬ Leaves read lines ∧ (Odd (timesToggled read name lines) ↔ on = false) := by
  induction lines generalizing on with
  | nil => cases on <;> simp [menuCommands, Leaves, timesToggled]
  | cons line lines ih =>
    rw [menuCommands, leaves_cons, timesToggled_cons]
    cases hread : read line with
    | leave => simp [Command.switch]
    | toggle name' =>
      dsimp only
      rw [List.foldl_cons, ih, Command.switch]
      by_cases hname : name' = name
      · subst hname
        cases on <;> simp [Nat.odd_add_one]
      · simp [hname]
    | other => simp [ih]

theorem stopAll_mem_menuCommands : .stopAll ∈ menuCommands read lines ↔ Leaves read lines := by
  induction lines with
  | nil => simp [menuCommands, Leaves]
  | cons line lines ih =>
    rw [menuCommands, leaves_cons]
    cases hread : read line with
    | leave => simp
    | toggle name => simp [ih]
    | other => simp [ih]

namespace ServerMenu
variable {menu : ServerMenu}

theorem exists_take_of_commands {done rest : List Command} (h : menu.commands events lines = done ++ rest) :
    menu = .auto ∧ done = [] ∨ ∃ k, k ≤ lines.length ∧ done = menu.commands events (lines.take k) := by
  cases menu with
  | manual => exact .inr (exists_take_of_menuCommands h)
  | auto =>
    rcases done with _ | ⟨cmd, done⟩
    · exact .inl ⟨rfl, rfl⟩
    · have h : .startAll :: menuCommands autoLine lines = cmd :: (done ++ rest) := h
      obtain ⟨rfl, hrest⟩ := List.cons.inj h
      obtain ⟨k, hk, rfl⟩ := exists_take_of_menuCommands hrest
      exact .inr ⟨k, hk, rfl⟩

theorem foldl_switch_commands (name : String) :
    (menu.commands events lines).foldl (Command.switch name) false = true ↔
      ¬ Leaves (menu.readLine events) lines ∧
        (menu = .auto ∨ Odd (timesToggled (menu.readLine events) name lines)) := by
  cases menu with
  | manual =>
    refine (foldl_switch_menuCommands name false).trans (and_congr_right fun _ => ?_)
    rw [iff_true_right rfl]
    exact (or_iff_right (by simp)).symm
  | auto =>
    have hzero : timesToggled autoLine name lines = 0 :=
      List.countP_eq_zero.2 fun line _ h => autoLine_ne_toggle line name (of_decide_eq_true h)
    show (menuCommands autoLine lines).foldl (Command.switch name) true = true ↔ _
    rw [foldl_switch_menuCommands, hzero]
    exact and_congr_right fun _ => iff_of_true (by simp) (.inl rfl)

theorem stopAll_mem_commands : .stopAll ∈ menu.commands events lines ↔ Leaves (menu.readLine events) lines := by
  cases menu with
  | manual => exact stopAll_mem_menuCommands
  | auto => exact (List.mem_cons.trans (or_iff_right (by simp))).trans stopAll_mem_menuCommands

end ServerMenu

end

/-! ### Sessions -/

section
variable {σ : Type} {events : UdpEvents}

theorem ServerContext.stopEvt_toggleEvent {c c' : ServerContext σ} {name : String} {b : Bool}
    (h : c.toggleEvent events name = .ok (c', b)) : c'.stopEvt = c.stopEvt := by
  rcases toggleEvent_eq_ok.1 h with ⟨i, -, rfl, -⟩ | ⟨-, route, pub, -, -, rfl, -⟩
  · rfl
  · rfl

theorem ServerContext.stopEvt_startNames (c : ServerContext σ) (names : List String) :
    (c.startNames events names).1.stopEvt = c.stopEvt := by
  induction names generalizing c with
  | nil => rfl
  | cons name names ih =>
    rw [startNames]
    split_ifs
    · exact ih c
    · cases htoggle : c.toggleEvent events name with
      | error e => rfl
      | ok r => exact (ih r.1).trans (stopEvt_toggleEvent htoggle)

theorem ServerContext.stopEvt_stopEvent (c : ServerContext σ) (name : String) :
    (c.stopEvent name).stopEvt = c.stopEvt := by
  rw [stopEvent]
  cases c.publishers.get? name with
  | some i => rfl
  | none => rfl

theorem ServerContext.stopEvt_stopAll (c : ServerContext σ) : c.stopAll.stopEvt = true := by
  refine Run.foldl_inv (I := fun c : ServerContext σ => c.stopEvt = true) (fun t ht hpre => ?_) rfl
  rw [Run.post_eq ht, stopEvt_stopEvent]
  exact hpre

theorem Command.stopEvt_run (c : ServerContext σ) (cmd : Command) :
    (cmd.run events c).1.stopEvt = true ↔ .stopAll = cmd ∨ c.stopEvt = true := by
  cases cmd with
  | toggle name =>
    rw [Command.run, or_iff_right (by simp)]
    cases htoggle : c.toggleEvent events name with
    | error e => rfl
    | ok r => rw [← ServerContext.stopEvt_toggleEvent htoggle]
  | startAll =>
    have hnames : (c.startNames events events.keys).1.stopEvt = c.stopEvt := c.stopEvt_startNames _
    rw [or_iff_right (by simp), ← hnames]
    rfl
  | stopAll => exact iff_of_true c.stopEvt_stopAll (.inl rfl)

theorem Session.stopEvt_runAll (s : Session σ) (cmds : List Command) :
    (Session.runAll events s cmds).1.stopEvt = true ↔ .stopAll ∈ cmds ∨ s.1.stopEvt = true := by
  induction cmds generalizing s with
  | nil => simp [runAll]
  | cons cmd cmds ih =>
    have hrun : (Session.run events s cmd).1.stopEvt = true ↔ .stopAll = cmd ∨ s.1.stopEvt = true :=
      Command.stopEvt_run s.1 cmd
    rw [show Session.runAll events s (cmd :: cmds) = Session.runAll events (Session.run events s cmd) cmds from rfl,
      ih, hrun, List.mem_cons]
    exact or_left_comm.trans or_assoc.symm

variable {ι : Type} [DecidableEq ι]

/-- A server whose user is in a menu, between two commands: until the line that leaves the menu, a publisher runs
for all events in the automatic menu, and in the manual one for exactly those whose number was entered an odd
number of times. -/
theorem server_menu_publishes {doc : Value} {cat : Catalog} (hload : loadCatalog doc = .ok cat)
    (hevents : buildUdpEvents cat (.fromSignals cat.signals) = .ok events)
    (hpublishable : ∀ route ∈ events.values, route.msg.Publishable) (server : Server σ) (routes : Routes)
    (sdPort : Int) (database : σ) (threads : ι → ServerThread) (i : ι) (menu : ServerMenu)
    (lines : List (Option String)) (huser : threads i = .user ⟨menu.commands events.keys lines, [], []⟩)
    (hothers : ∀ j ≠ i, ∀ t, threads j ≠ .user t) (schedule : List ι) :
    let P : ServerProgram σ := ⟨server, routes, events, sdPort⟩
    let read := menu.readLine events.keys
    ∀ w ∈ Run.states P.threads.step (Threads.start (.init database) threads) schedule, ∃ t,
      w.threads i = .user t ∧ (menu = .auto ∧ t.commands = menu.commands events.keys lines ∨ ∃ k ≤ lines.length,
        menu.commands events.keys lines = menu.commands events.keys (lines.take k) ++ t.commands ∧
        (t.todo = [] → t.raised = [] ∧ (w.store.stopEvt = true ↔ Leaves read (lines.take k)) ∧
          ∀ name ∈ events.keys, ((∃ j, w.store.Running j name) ↔
            ¬ Leaves read (lines.take k) ∧ (menu = .auto ∨ Odd (timesToggled read name (lines.take k)))))) := by
  intro P read w hw
  have hcat := Catalog.Valid.of_loadCatalog hload
  obtain ⟨t, ht, hfollows⟩ :=
    UserThread.follows_states P (.init database) threads i _ huser hothers schedule w hw
  obtain ⟨done, hdone, hshows⟩ := hfollows.shows (exists_create_of_publishable hcat hevents hpublishable)
    fun name hname => ServerMenu.mem_events_of_commands hname
  refine ⟨t, ht, ?_⟩
  rcases ServerMenu.exists_take_of_commands hdone with ⟨hauto, rfl⟩ | ⟨k, hk, rfl⟩
  · exact .inl ⟨hauto, hdone.symm⟩
  refine .inr ⟨k, hk, hdone, fun htodo => ?_⟩
  obtain ⟨hsession, hshows⟩ := hshows htodo
  refine ⟨hshows.raised, ?_, fun name hname => ?_⟩
  · have hstop : (Session.runAll events (.init (), []) (menu.commands events.keys (lines.take k))).1.stopEvt = true ↔ _ :=
      Session.stopEvt_runAll ..
    rw [← hsession, ServerMenu.stopAll_mem_commands] at hstop
    exact hstop.trans (or_iff_left (by simp [ServerContext.init]))
  · rw [running_iff_isPublishing (P := P) (.of_build hcat hevents) (.init events database) threads schedule hw,
      hshows.shows name hname, ServerMenu.foldl_switch_commands]

end

/-- The user enters the number of the event, a number of no event, the end of the input, the first number
again, and leaves. -/
def exampleLines : List (Option String) := [some "1", some "7", none, some " 1 ", some "B"]

def exampleMenuThreads (i : Fin 5) : ServerThread :=
  if i.val = 0 then .user ⟨serverManual exampleEvents.keys exampleLines, [], []⟩ else exampleServerThreads i

theorem server_menu_publishes_example :
    let read := ServerMenu.manual.readLine exampleEvents.keys
    let w := [0, 0, 2, 1].foldl exampleServer.threads.step
      (Threads.start (.init (.ofSignals exampleCatalog.signals)) exampleMenuThreads)
    exampleLines.map read = [.toggle "powertrain_status_event", .other, .other, .toggle "powertrain_status_event", .leave] ∧
    ∃ t k, w.threads 0 = .user t ∧ k ≤ exampleLines.length ∧
      serverManual exampleEvents.keys exampleLines = serverManual exampleEvents.keys (exampleLines.take k) ++ t.commands ∧
      (t.todo = [] → ∀ name ∈ exampleEvents.keys, ((∃ j, w.store.Running j name) ↔
        ¬ Leaves read (exampleLines.take k) ∧ Odd (timesToggled read name (exampleLines.take k)))) := by
  intro read w
  obtain ⟨t, ht, hmenu⟩ := server_menu_publishes loadCatalog_example buildUdpEvents_example exampleEvents_publishable
    dbServer exampleRoutes 30490 (.ofSignals exampleCatalog.signals) exampleMenuThreads 0 .manual exampleLines rfl
    (fun j hj => by
      have hzero : ¬ j.val = 0 := fun hzero => hj (Fin.ext hzero)
      rw [exampleMenuThreads, if_neg hzero]
      exact exampleServerThreads_ne_user j hj) _ w (Run.foldl_mem_states _)
  rcases hmenu with ⟨⟨⟩, -⟩ | ⟨k, hk, hcommands, hshows⟩
  refine ⟨by decide +kernel, t, k, ht, hk, hcommands, fun htodo name hname => ?_⟩
  obtain ⟨-, -, hrunning⟩ := hshows htodo
  exact (hrunning name hname).trans (and_congr_right fun _ => or_iff_right (by simp))

end AutoEth
