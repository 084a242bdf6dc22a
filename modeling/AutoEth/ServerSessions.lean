import AutoEth.ServerRuns

/-!
# Sessions at the terminal

The thread of the terminal executes its commands in parts, and any other thread may come between two parts.
The others change signal values and registry only, so the table of the publishers, their stop events and the
stop event of the server are what the commands make of them one after another (`terminal_sequential`); the
commands are executed on a context without data (`ServerContext.control`) to say so. Over that, a session is a
switch for each event (`Command.switch`): `publishing_iff_switch` has it of the table in every run.
-/

namespace AutoEth

variable {σ : Type} {events : UdpEvents} {c c' : ServerContext σ} {name : String}

/-! ### Commands one after another -/

/-- A command, and the exception that ended it, if any. -/
def Command.run (events : UdpEvents) (c : ServerContext σ) : Command → ServerContext σ × Option PyErr
  | .toggle name =>
    match c.toggleEvent events name with
    | .error e => (c, some e)
    | .ok (c', _) => (c', none)
  | .startAll => c.startAllEvents events
  | .stopAll => (c.stopAll, none)

/-- The context and the exceptions so far. -/
abbrev Session (σ : Type) : Type := ServerContext σ × List PyErr

def Session.run (events : UdpEvents) (s : Session σ) (cmd : Command) : Session σ :=
  ((cmd.run events s.1).1, s.2 ++ (cmd.run events s.1).2.toList)

def Session.runAll (events : UdpEvents) (s : Session σ) (cmds : List Command) : Session σ :=
  cmds.foldl (Session.run events) s

/-! ### Parts of commands -/

/-- What a part does when no other thread comes between. -/
def Todo.run (events : UdpEvents) (c : ServerContext σ) : Todo → Except PyErr (ServerContext σ)
  | .toggle name => Prod.fst <$> c.toggleEvent events name
  | .start name => if c.isPublishing name then .ok c else Prod.fst <$> c.toggleEvent events name
  | .stop name =>
    match c.publishers.get? name with
    | some i => .ok (c.stopPublisher name i)
    | none => .error (.keyError name)
  | .stopEvt => .ok { c with stopEvt := true }

def runTodos (events : UdpEvents) (c : ServerContext σ) : List Todo → ServerContext σ × Option PyErr
  | [] => (c, none)
  | todo :: todos =>
    match todo.run events c with
    | .error e => (c, some e)
    | .ok c' => runTodos events c' todos

theorem Todo.run_eq (P : ServerProgram σ) (c : ServerContext σ) (todo : Todo) :
    todo.run P.events c = (todo.update P.events c).map fun u => P.threads.replay c u.toList := by
  have htoggle (name : String) : Prod.fst <$> c.toggleEvent P.events name =
      Except.map (fun u : Option Update => P.threads.replay c u.toList)
        ((c.toggleEvent P.events name).bind fun _ => .ok (some (.toggled name))) := by
    cases h : c.toggleEvent P.events name with
    | error e => rfl
    | ok r =>
      show Except.ok r.1 = .ok (P.apply c (.toggled name))
      rw [ServerProgram.apply, h]
  cases todo with
  | toggle name => exact htoggle name
  | start name =>
    rw [Todo.run, Todo.update]
    split_ifs with hpub
    · rfl
    · exact htoggle name
  | stop name =>
    rw [Todo.run, Todo.update, ServerContext.isPublishing, Dict.contains]
    cases hget : c.publishers.get? name with
    | none => rfl
    | some i =>
      show Except.ok _ = .ok (P.apply c (.toggled name))
      rw [ServerProgram.apply, ServerContext.toggleEvent, hget]
  | stopEvt => rfl

theorem runTodos_start (c : ServerContext σ) (names : List String) :
    runTodos events c (names.map .start) = c.startNames events names := by
  induction names generalizing c with
  | nil => rfl
  | cons name names ih =>
    rw [List.map_cons, runTodos, Todo.run, ServerContext.startNames]
    split_ifs with hpub
    · exact ih c
    · cases htoggle : c.toggleEvent events name with
      | error e => rfl
      | ok r => exact ih r.1

theorem runTodos_stop {names : List String} (hnodup : names.Nodup) (h : ∀ name ∈ names, name ∈ c.publishers.keys) :
    runTodos events c (names.map .stop) = (names.foldl ServerContext.stopEvent c, none) := by
  induction names generalizing c with
  | nil => rfl
  | cons name names ih =>
    obtain ⟨hnot, hrest⟩ := List.nodup_cons.1 hnodup
    obtain ⟨i, hi⟩ := Option.isSome_iff_exists.1 (Dict.get?_isSome.2 (h name (List.mem_cons_self ..)))
    rw [List.map_cons, runTodos, Todo.run, List.foldl_cons, ServerContext.stopEvent, hi]
    refine ih hrest fun name' hname' => ?_
    show name' ∈ (c.publishers.erase name).keys
    refine Dict.mem_keys_erase.2 ⟨h name' (List.mem_cons_of_mem _ hname'), ?_⟩
    rintro rfl
    exact hnot hname'

theorem Command.run_eq (c : ServerContext σ) (cmd : Command) :
    cmd.run events c = runTodos events c (cmd.todo events c) := by
  cases cmd with
  | toggle name =>
    rw [Command.run, Command.todo, runTodos, Todo.run]
    cases htoggle : c.toggleEvent events name with
    | error e => rfl
    | ok r => rfl
  | startAll => exact (runTodos_start c _).symm
  | stopAll =>
    have hstop : runTodos events { c with stopEvt := true } (c.publishers.keys.map .stop) =
        (c.publishers.keys.foldl ServerContext.stopEvent { c with stopEvt := true }, none) :=
      runTodos_stop c.publishers.nodup fun name hname => hname
    exact hstop.symm

/-! ### The context without data -/

namespace ServerContext

/-- The part of the context that the terminal changes. -/
def control (c : ServerContext σ) : ServerContext Unit := ⟨(), .init, c.stopEvt, c.threads, c.publishers⟩

theorem control_toggleEvent (events : UdpEvents) (c : ServerContext σ) (name : String) :
    c.control.toggleEvent events name = (c.toggleEvent events name).map fun r => (r.1.control, r.2) := by
  have hget : c.control.publishers.get? name = c.publishers.get? name := rfl
  rw [toggleEvent, toggleEvent, hget]
  cases c.publishers.get? name with
  | some i => rfl
  | none =>
    cases events.get? name with
    | none => rfl
    | some route =>
      dsimp only
      cases UdpPublisher.create route with
      | error e => rfl
      | ok pub => rfl

end ServerContext

theorem Todo.run_control (events : UdpEvents) (c : ServerContext σ) (todo : Todo) :
    todo.run events c.control = (todo.run events c).map ServerContext.control := by
  have htoggle (name : String) : Prod.fst <$> c.control.toggleEvent events name =
      Except.map ServerContext.control (Prod.fst <$> c.toggleEvent events name) := by
    rw [c.control_toggleEvent]
    cases c.toggleEvent events name with
    | error e => rfl
    | ok r => rfl
  cases todo with
  | toggle name => exact htoggle name
  | start name =>
    have hpub : c.control.isPublishing name = c.isPublishing name := rfl
    rw [Todo.run, Todo.run, hpub]
    split_ifs
    · rfl
    · exact htoggle name
  | stop name =>
    have hget : c.control.publishers.get? name = c.publishers.get? name := rfl
    rw [Todo.run, Todo.run, hget]
    cases c.publishers.get? name with
    | some i => rfl
    | none => rfl
  | stopEvt => rfl

theorem Command.todo_control (events : UdpEvents) (c : ServerContext σ) (cmd : Command) :
    cmd.todo events c.control = cmd.todo events c := by
  cases cmd with
  | _ => rfl

/-! ### Runs -/

/-- The terminal has executed the first of these commands, and has what it shows of the context left to do. -/
def UserThread.Follows (events : UdpEvents) (start : ServerContext Unit) (commands : List Command)
    (k : ServerContext Unit) (t : UserThread) : Prop :=
  ∃ done, commands = done ++ t.commands ∧
    ((runTodos events k t.todo).1, t.raised ++ (runTodos events k t.todo).2.toList) =
      Session.runAll events (start, []) done

theorem UserThread.Follows.step {P : ServerProgram σ} {start : ServerContext Unit} {commands : List Command}
    {t : UserThread} (h : t.Follows P.events start commands c.control) :
    (t.step P.events c).1.Follows P.events start commands
      (P.threads.replay c (t.step P.events c).2.toList).control := by
  obtain ⟨done, hcommands, hdone⟩ := h
  rcases t.step_cases P.events c with ⟨-, -, hstep⟩ | ⟨cmd, cmds, htodo, hcmds, hstep⟩ |
    ⟨todo, todos, e, htodo, hupdate, hstep⟩ | ⟨todo, todos, u, htodo, hupdate, hstep⟩
  · rw [hstep]
    exact ⟨done, hcommands, hdone⟩
  · rw [hstep]
    rw [htodo, runTodos, Option.toList_none, List.append_nil] at hdone
    refine ⟨done ++ [cmd], by rw [hcommands, hcmds, List.append_assoc]; rfl, ?_⟩
    rw [Session.runAll, List.foldl_concat, ← Session.runAll, ← hdone, Session.run, Command.run_eq,
      Command.todo_control]
    rfl
  · rw [hstep]
    have hrun : todo.run P.events c.control = .error e := by
      rw [Todo.run_control, Todo.run_eq, hupdate]
      rfl
    rw [htodo, runTodos, hrun] at hdone
    refine ⟨done, hcommands, ?_⟩
    rw [← hdone]
    show (c.control, t.raised ++ [e] ++ []) = (c.control, t.raised ++ [e])
    rw [List.append_nil]
  · rw [hstep]
    have hrun : todo.run P.events c.control = .ok (P.threads.replay c u.toList).control := by
      rw [Todo.run_control, Todo.run_eq, hupdate]
      rfl
    rw [htodo, runTodos, hrun] at hdone
    exact ⟨done, hcommands, hdone⟩

theorem ServerThread.foreign (P : ServerProgram σ) :
    P.threads.Foreign ServerContext.control fun th => ∀ t, th ≠ .user t := by
  refine ⟨fun n c th h => ?_, fun n c th h => ?_⟩
  · cases th with
    | user t => exact absurd rfl (h t)
    | _ =>
      intro t ht
      cases ht
  · cases th with
    | user t => exact absurd rfl (h t)
    | handler t =>
      show (P.threads.replay c (t.writes.map Update.wrote).toList).control = _
      cases t.writes with
      | none => rfl
      | some job => rfl
    | listener t =>
      show (P.threads.replay c (t.step n c).2.toList).control = _
      cases hstep : (t.step n c).2 with
      | none => rfl
      | some u =>
        obtain ⟨e, rfl⟩ := ListenerThread.update_step hstep
        rfl
    | announcer t => rfl
    | publisher t => rfl

/-- In every world of a run, the terminal has executed some of its commands. -/
theorem UserThread.follows_states (P : ServerProgram σ) (init : ServerContext σ) {ι : Type} [DecidableEq ι]
    (threads : ι → ServerThread) (i : ι) (commands : List Command)
    (huser : threads i = .user ⟨commands, [], []⟩) (hothers : ∀ j ≠ i, ∀ t, threads j ≠ .user t)
    (schedule : List ι) :
    ∀ w ∈ Run.states P.threads.step (Threads.start init threads) schedule, ∃ t, w.threads i = .user t ∧
      t.Follows P.events init.control commands w.store.control := by
  have hstart : ∃ t, threads i = .user t ∧ t.Follows P.events init.control commands init.control :=
    ⟨_, huser, [], rfl, rfl⟩
  exact (ServerThread.foreign P).states
    (J := fun k th => ∃ t, th = .user t ∧ t.Follows P.events init.control commands k)
    (fun n c th ⟨t, ht, hfollows⟩ => ⟨(t.step P.events c).1, by rw [ht]; rfl, by rw [ht]; exact hfollows.step⟩)
    hstart hothers schedule

/-- Whenever the terminal is between two commands, the publishers, their stop events and the table are what the
commands so far make of them one after another, whatever the other threads have done meanwhile. -/
theorem terminal_sequential (P : ServerProgram σ) (init : ServerContext σ) {ι : Type} [DecidableEq ι]
    (threads : ι → ServerThread) (i : ι) (commands : List Command)
    (huser : threads i = .user ⟨commands, [], []⟩) (hothers : ∀ j ≠ i, ∀ t, threads j ≠ .user t)
    (schedule : List ι) :
    ∀ w ∈ Run.states P.threads.step (Threads.start init threads) schedule, ∃ t done,
      w.threads i = .user t ∧ commands = done ++ t.commands ∧
      (t.todo = [] → (w.store.control, t.raised) = Session.runAll P.events (init.control, []) done) := by
  intro w hw
  obtain ⟨t, ht, done, hcommands, hdone⟩ :=
    UserThread.follows_states P init threads i commands huser hothers schedule w hw
  refine ⟨t, done, ht, hcommands, fun htodo => ?_⟩
  rw [← hdone, htodo, runTodos, Option.toList_none, List.append_nil]

theorem terminal_sequential_example :
    let w := [0, 0, 2, 2, 0, 1, 0, 2, 0].foldl exampleServer.threads.step
      (Threads.start (.init (.ofSignals exampleCatalog.signals)) exampleServerThreads)
    ∃ t done, w.threads 0 = .user t ∧
      [.toggle "powertrain_status_event", .stopAll] = done ++ t.commands ∧
      (t.todo = [] → (w.store.control, t.raised) = Session.runAll exampleEvents (.init (), []) done) := by
  intro w
  exact terminal_sequential exampleServer (.init (.ofSignals exampleCatalog.signals)) exampleServerThreads 0
    [.toggle "powertrain_status_event", .stopAll] rfl exampleServerThreads_ne_user _ w (Run.foldl_mem_states _)

/-! ### A switch for each event -/

/-- Whether an event is published after a command. -/
def Command.switch (name : String) (on : Bool) : Command → Bool
  | .toggle name' => if name' = name then !on else on
  | .startAll => true
  | .stopAll => false

namespace ServerContext

theorem isPublishing_stopPublisher (c : ServerContext σ) (name name' : String) (i : Nat) :
    (c.stopPublisher name i).isPublishing name' = if name' = name then false else c.isPublishing name' := by
  show (c.publishers.erase name).contains name' = _
  rw [Dict.contains, Dict.get?_erase]
  split_ifs
  · rfl
  · rfl

theorem isPublishing_startPublisher (c : ServerContext σ) (name name' : String) (pub : UdpPublisher) :
    (c.startPublisher name pub).isPublishing name' = if name' = name then true else c.isPublishing name' := by
  show (c.publishers.set name _).contains name' = _
  rw [Dict.contains, Dict.get?_set]
  split_ifs
  · rfl
  · rfl

theorem exists_toggleEvent {route : EventRoute} {pub : UdpPublisher} (hroute : events.get? name = some route)
    (hcreate : UdpPublisher.create route = .ok pub) (c : ServerContext σ) :
    ∃ c', c.toggleEvent events name = .ok (c', !c.isPublishing name) ∧
      ∀ name', c'.isPublishing name' = if name' = name then !c.isPublishing name else c.isPublishing name' := by
  have hpub : c.isPublishing name = (c.publishers.get? name).isSome := rfl
  cases hget : c.publishers.get? name with
  | some i =>
    rw [hget] at hpub
    refine ⟨_, toggleEvent_eq_ok.2 (.inl ⟨i, hget, rfl, by rw [hpub]; rfl⟩), fun name' => ?_⟩
    rw [isPublishing_stopPublisher, hpub]
    rfl
  | none =>
    rw [hget] at hpub
    refine ⟨_, toggleEvent_eq_ok.2 (.inr ⟨hget, route, pub, hroute, hcreate, rfl, by rw [hpub]; rfl⟩),
      fun name' => ?_⟩
    rw [isPublishing_startPublisher, hpub]
    rfl

theorem startNames_spec {names : List String}
    (h : ∀ name ∈ names, ∃ route pub, events.get? name = some route ∧ UdpPublisher.create route = .ok pub)
    (c : ServerContext σ) :
    (c.startNames events names).2 = none ∧ ∀ name, (c.startNames events names).1.isPublishing name =
      (decide (name ∈ names) || c.isPublishing name) := by
  induction names generalizing c with
  | nil => exact ⟨rfl, fun name => by simp [startNames]⟩
  | cons name names ih =>
    have hnames := ih fun name' hname' => h name' (List.mem_cons_of_mem _ hname')
    rw [startNames]
    split_ifs with hpub
    · obtain ⟨hnone, hrest⟩ := hnames c
      refine ⟨hnone, fun name' => ?_⟩
      rw [hrest]
      by_cases heq : name' = name
      · simp [heq, hpub]
      · simp [heq]
    · obtain ⟨route, pub, hroute, hcreate⟩ := h name (List.mem_cons_self ..)
      obtain ⟨c', htoggle, hc'⟩ := c.exists_toggleEvent hroute hcreate
      rw [htoggle]
      obtain ⟨hnone, hrest⟩ := hnames c'
      refine ⟨hnone, fun name' => ?_⟩
      dsimp only
      rw [hrest, hc']
      by_cases heq : name' = name
      · simp [heq, hpub]
      · simp [heq]

theorem isPublishing_foldl_stopEvent (names : List String) (c : ServerContext σ) (name : String) :
    (names.foldl stopEvent c).isPublishing name = (c.isPublishing name && decide (name ∉ names)) := by
  induction names generalizing c with
  | nil => simp
  | cons name' names ih =>
    have hstop : (c.stopEvent name').isPublishing name =
        if name = name' then false else c.isPublishing name := by
      rw [stopEvent]
      cases hget : c.publishers.get? name' with
      | some i => exact c.isPublishing_stopPublisher name' name i
      | none =>
        split_ifs with heq
        · rw [heq, isPublishing, Dict.contains, hget]
          rfl
        · rfl
    rw [List.foldl_cons, ih, hstop]
    by_cases heq : name = name'
    · simp [heq]
    · simp [heq]

theorem isPublishing_stopAll (c : ServerContext σ) (name : String) : c.stopAll.isPublishing name = false := by
  rw [stopAll, isPublishing_foldl_stopEvent]
  by_cases hname : name ∈ c.publishers.keys
  · simp [hname]
  · have hpub : c.isPublishing name = false := by
      rw [isPublishing, Dict.contains, Dict.get?_eq_none.2 hname]
      rfl
    show (c.isPublishing name && _) = false
    rw [hpub, Bool.false_and]

end ServerContext

/-- A session in which no command raised, and in which the events are published as the switch says. -/
structure Session.Shows (events : UdpEvents) (s : Session σ) (on : String → Bool) : Prop where
  raised : s.2 = []
  shows : ∀ name ∈ events.keys, s.1.isPublishing name = on name

theorem Session.Shows.run {s : Session σ} {on : String → Bool} (h : s.Shows events on)
    (hcreate : ∀ name ∈ events.keys, ∃ route pub, events.get? name = some route ∧ UdpPublisher.create route = .ok pub)
    {cmd : Command} (hcmd : ∀ name, cmd = .toggle name → name ∈ events.keys) :
    (Session.run events s cmd).Shows events fun name => cmd.switch name (on name) := by
  cases cmd with
  | toggle name =>
    have hname := hcmd name rfl
    obtain ⟨route, pub, hroute, hpub⟩ := hcreate name hname
    obtain ⟨c', htoggle, hc'⟩ := s.1.exists_toggleEvent hroute hpub
    have hrun : Command.run events s.1 (.toggle name) = (c', none) := by
      rw [Command.run, htoggle]
    rw [Session.run, hrun]
    refine ⟨by rw [h.raised]; rfl, fun name' hname' => ?_⟩
    rw [hc', Command.switch]
    by_cases heq : name' = name
    · rw [if_pos heq, if_pos heq.symm, heq, h.shows name hname]
    · rw [if_neg heq, if_neg (Ne.symm heq), h.shows name' hname']
  | startAll =>
    obtain ⟨hnone, hnames⟩ := ServerContext.startNames_spec hcreate s.1
    refine ⟨?_, fun name hname => ?_⟩
    · show s.2 ++ (s.1.startNames events events.keys).2.toList = []
      rw [hnone, h.raised]
      rfl
    · show (s.1.startNames events events.keys).1.isPublishing name = true
      rw [hnames, decide_eq_true hname, Bool.true_or]
  | stopAll => exact ⟨by rw [Session.run, h.raised]; rfl, fun name _ => s.1.isPublishing_stopAll name⟩

theorem Session.Shows.runAll
    (hcreate : ∀ name ∈ events.keys, ∃ route pub, events.get? name = some route ∧ UdpPublisher.create route = .ok pub)
    {s : Session σ} {on : String → Bool} {cmds : List Command}
    (hcmds : ∀ name, .toggle name ∈ cmds → name ∈ events.keys) (h : s.Shows events on) :
    (Session.runAll events s cmds).Shows events fun name => cmds.foldl (Command.switch name) (on name) := by
  induction cmds generalizing s on with
  | nil => exact h
  | cons cmd cmds ih =>
    refine ih (fun name hname => hcmds name (List.mem_cons_of_mem _ hname)) (h.run hcreate fun name hname => ?_)
    exact hcmds name (hname ▸ List.mem_cons_self ..)

/-- The publisher of each event of an accepted catalog can be made if the options of its socket read. -/
theorem exists_create_of_publishable {cat : Catalog} (hcat : cat.Valid)
    (hevents : buildUdpEvents cat (.fromSignals cat.signals) = .ok events)
    (hpublishable : ∀ route ∈ events.values, route.msg.Publishable) :
    ∀ name ∈ events.keys, ∃ route pub, events.get? name = some route ∧ UdpPublisher.create route = .ok pub := by
  intro name hname
  obtain ⟨route, hroute⟩ := Option.isSome_iff_exists.1 (Dict.get?_isSome.2 hname)
  have hvalue := Dict.mem_values_of_get? hroute
  obtain ⟨-, -, hevent⟩ := isUdpEvent_of_mem hcat hevents hvalue
  obtain ⟨p, hp, hpos⟩ := hevent.port
  obtain ⟨pub, hpub⟩ := (UdpPublisher.exists_create_iff hp hpos).2 (hpublishable route hvalue)
  exact ⟨route, pub, hroute, hpub⟩

theorem UserThread.Follows.shows
    (hcreate : ∀ name ∈ events.keys, ∃ route pub, events.get? name = some route ∧ UdpPublisher.create route = .ok pub)
    {commands : List Command} (hcommands : ∀ name, .toggle name ∈ commands → name ∈ events.keys)
    {k : ServerContext Unit} {t : UserThread} (h : t.Follows events (.init ()) commands k) :
    ∃ done, commands = done ++ t.commands ∧ (t.todo = [] →
      (k, t.raised) = Session.runAll events (.init (), []) done ∧
      Session.Shows events (k, t.raised) fun name => done.foldl (Command.switch name) false) := by
  obtain ⟨done, hdone, hsession⟩ := h
  refine ⟨done, hdone, fun htodo => ?_⟩
  have hfirst : Session.Shows events (ServerContext.init (), []) fun _ => false := ⟨rfl, fun _ _ => rfl⟩
  have hdo : ∀ name, .toggle name ∈ done → name ∈ events.keys := by
    intro name hname
    refine hcommands name ?_
    rw [hdone]
    exact List.mem_append_left _ hname
  rw [htodo, runTodos, Option.toList_none, List.append_nil] at hsession
  refine ⟨hsession, ?_⟩
  rw [hsession]
  exact hfirst.runAll hcreate hdo

/-- What the table shows of an event in a run. -/
theorem running_iff_isPublishing {P : ServerProgram σ} (hnamed : UdpEvents.Named P.events) {init : ServerContext σ}
    (hinit : init.Ok P.events) {ι : Type} [DecidableEq ι] (threads : ι → ServerThread) (schedule : List ι)
    {w : World (ServerContext σ) Update ServerThread ι}
    (hw : w ∈ Run.states P.threads.step (Threads.start init threads) schedule) (name : String) :
    (∃ k, w.store.Running k name) ↔ w.store.control.isPublishing name = true := by
  have hok := ServerProgram.ok_states hnamed hinit threads schedule w hw
  show _ ↔ w.store.isPublishing name = true
  rw [ServerContext.isPublishing, Dict.contains, Option.isSome_iff_exists]
  exact exists_congr fun k => (hok.listed name k).symm

/-- In every run, whenever the terminal is between two commands, an event has a running publisher exactly when
the commands so far have switched it on, and none of them has raised. -/
theorem publishing_iff_switch {doc : Value} {cat : Catalog} {events : UdpEvents} (hload : loadCatalog doc = .ok cat)
    (hevents : buildUdpEvents cat (.fromSignals cat.signals) = .ok events)
    (hpublishable : ∀ route ∈ events.values, route.msg.Publishable) (server : Server σ) (routes : Routes)
    (sdPort : Int) (database : σ) {ι : Type} [DecidableEq ι] (threads : ι → ServerThread) (i : ι)
    (commands : List Command) (hcommands : ∀ name, .toggle name ∈ commands → name ∈ events.keys)
    (huser : threads i = .user ⟨commands, [], []⟩) (hothers : ∀ j ≠ i, ∀ t, threads j ≠ .user t)
    (schedule : List ι) :
    let P : ServerProgram σ := ⟨server, routes, events, sdPort⟩
    ∀ w ∈ Run.states P.threads.step (Threads.start (.init database) threads) schedule, ∃ t done,
      w.threads i = .user t ∧ commands = done ++ t.commands ∧
      (t.todo = [] → t.raised = [] ∧ ∀ name ∈ events.keys,
        ((∃ k, w.store.Running k name) ↔ done.foldl (Command.switch name) false = true)) := by
  intro P w hw
  have hcat := Catalog.Valid.of_loadCatalog hload
  obtain ⟨t, ht, hfollows⟩ :=
    UserThread.follows_states P (.init database) threads i commands huser hothers schedule w hw
  obtain ⟨done, hdone, hshows⟩ := hfollows.shows (exists_create_of_publishable hcat hevents hpublishable) hcommands
  refine ⟨t, done, ht, hdone, fun htodo => ?_⟩
  obtain ⟨-, hshows⟩ := hshows htodo
  refine ⟨hshows.raised, fun name hname => ?_⟩
  rw [running_iff_isPublishing (P := P) (.of_build hcat hevents) (.init events database) threads schedule hw,
    hshows.shows name hname]

theorem exampleEvents_publishable : ∀ route ∈ exampleEvents.values, route.msg.Publishable := by
  intro route hroute
  obtain ⟨-, -, hevent⟩ := isUdpEvent_of_mem (.of_loadCatalog loadCatalog_example) buildUdpEvents_example hroute
  obtain ⟨p, hp, hpos⟩ := hevent.port
  have hcreate : ∀ route ∈ exampleEvents.values, (UdpPublisher.create route).isOk = true := by decide +kernel
  exact (UdpPublisher.exists_create_iff hp hpos).1 ⟨_, Except.eq_ok_get (hcreate route hroute)⟩

/-- The event is published while the commands have switched it on, and stops with all. -/
theorem publishing_iff_switch_example :
    let w := [0, 0, 2, 1].foldl exampleServer.threads.step
      (Threads.start (.init (.ofSignals exampleCatalog.signals)) exampleServerThreads)
    ∃ t done, w.threads 0 = .user t ∧ [.toggle "powertrain_status_event", .stopAll] = done ++ t.commands ∧
      (t.todo = [] → t.raised = [] ∧ ∀ name ∈ exampleEvents.keys,
        ((∃ k, w.store.Running k name) ↔ done.foldl (Command.switch name) false = true)) := by
  intro w
  refine publishing_iff_switch loadCatalog_example buildUdpEvents_example exampleEvents_publishable dbServer
    exampleRoutes 30490 (.ofSignals exampleCatalog.signals) exampleServerThreads 0
    [.toggle "powertrain_status_event", .stopAll] (fun name hname => ?_) rfl exampleServerThreads_ne_user _ w
    (Run.foldl_mem_states _)
  have hname' : name = "powertrain_status_event" := by simpa using hname
  rw [hname']
  decide +kernel

end AutoEth
