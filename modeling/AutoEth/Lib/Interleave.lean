import AutoEth.Lib.Run
import Mathlib.Logic.Function.Basic

/-!
# Threads over a shared store

`Threads σ α τ` are threads with local state `τ` over a store `σ`. One atomic step of a thread, `act`,
reads the store, changes the local state and makes at most one update `α` of the store; a step is also
told how many updates were made before it, which a thread may only use to remember when it looked. A
`World` keeps the store, the threads and the `log` of all updates in their order; a schedule is the list of
the threads that take the next step. In every world that a run comes through the store is what the log
makes of the first store (`replay`), and every thread satisfies each invariant that its own steps keep
and updates of other threads do not break (`holds_states`). `Alone` says what a thread comes to when no
other takes a step.
-/

structure Threads (σ α τ : Type*) where
  apply : σ → α → σ
  act : Nat → σ → τ → τ × Option α

structure World (σ α τ ι : Type*) where
  store : σ
  log : List α
  threads : ι → τ

namespace Threads

variable {σ α τ ι : Type*} (M : Threads σ α τ)

/-- The store after the updates of a log. -/
def replay (init : σ) (log : List α) : σ := log.foldl M.apply init

def start (init : σ) (threads : ι → τ) : World σ α τ ι := ⟨init, [], threads⟩

/-- What the next step of thread `i` does. -/
def next (w : World σ α τ ι) (i : ι) : τ × Option α := M.act w.log.length w.store (w.threads i)

variable {M} {init : σ}

theorem replay_append (log log' : List α) :
    M.replay init (log ++ log') = M.replay (M.replay init log) log' :=
  List.foldl_append ..

variable (M) in
/-- The store after the first `k` updates of a log. -/
def storeAt (init : σ) (log : List α) (k : Nat) : σ := M.replay init (log.take k)

theorem storeAt_append {log : List α} {k : Nat} (h : k ≤ log.length) (a : α) :
    M.storeAt init (log ++ [a]) k = M.storeAt init log k := by
  rw [storeAt, List.take_append_of_le_length h, storeAt]

theorem storeAt_length (log : List α) : M.storeAt init log log.length = M.replay init log := by
  rw [storeAt, List.take_length]

/-- What every update keeps of the store, holds on. -/
theorem storeAt_mono {Q : σ → Prop} (keep : ∀ s a, Q s → Q (M.apply s a)) {log : List α} {j k : Nat}
    (hle : j ≤ k) (h : Q (M.storeAt init log j)) : Q (M.storeAt init log k) := by
  have hsplit : log.take k = log.take j ++ (log.take k).drop j := by
    conv_lhs => rw [← List.take_append_drop j (log.take k), List.take_take, Nat.min_eq_left hle]
  rw [storeAt, hsplit, replay_append]
  exact Run.foldl_inv (fun t ht hpre => Run.post_eq ht ▸ keep _ _ hpre) h

/-- An invariant of single threads: `I log t` says what a thread in state `t` can rely on once the updates
of `log` have been made. -/
structure Inductive (M : Threads σ α τ) (init : σ) (I : List α → τ → Prop) : Prop where
  stable : ∀ log a t, I log t → I (log ++ [a]) t
  keep : ∀ log t, I log t →
    let r := M.act log.length (M.replay init log) t
    I (log ++ r.2.toList) r.1

/-- The store and the threads of a world agree with its log. -/
structure Holds (M : Threads σ α τ) (init : σ) (I : List α → τ → Prop) (w : World σ α τ ι) : Prop where
  store_eq : w.store = M.replay init w.log
  thread : ∀ i, I w.log (w.threads i)

variable {I J : List α → τ → Prop}

theorem Inductive.and (h : Inductive M init I) (h' : Inductive M init J) :
    Inductive M init fun log t => I log t ∧ J log t :=
  ⟨fun log a t ht => ⟨h.stable log a t ht.1, h'.stable log a t ht.2⟩,
    fun log t ht => ⟨h.keep log t ht.1, h'.keep log t ht.2⟩⟩

theorem Holds.start {threads : ι → τ} (h : ∀ i, I [] (threads i)) :
    Holds M init I (Threads.start init threads) :=
  ⟨rfl, h⟩

theorem Inductive.stable_append (h : Inductive M init I) (log : List α) (u : Option α) {t : τ} (ht : I log t) :
    I (log ++ u.toList) t := by
  cases u with
  | none => rwa [Option.toList_none, List.append_nil]
  | some a => exact h.stable log a t ht

theorem Inductive.next (h : Inductive M init I) {w : World σ α τ ι} (hw : Holds M init I w) (i : ι) :
    I (w.log ++ (M.next w i).2.toList) (M.next w i).1 := by
  have := h.keep w.log (w.threads i) (hw.thread i)
  rw [← hw.store_eq] at this
  exact this

/-! ### Runs -/

variable [DecidableEq ι]

def step (M : Threads σ α τ) (w : World σ α τ ι) (i : ι) : World σ α τ ι where
  store := M.replay w.store (M.next w i).2.toList
  log := w.log ++ (M.next w i).2.toList
  threads := Function.update w.threads i (M.next w i).1

theorem step_threads_self (w : World σ α τ ι) (i : ι) : (M.step w i).threads i = (M.next w i).1 :=
  Function.update_self ..

theorem step_threads_of_ne (w : World σ α τ ι) {i j : ι} (h : j ≠ i) :
    (M.step w i).threads j = w.threads j :=
  Function.update_of_ne h ..

theorem Holds.step (h : Inductive M init I) {w : World σ α τ ι} (hw : Holds M init I w) (i : ι) :
    Holds M init I (M.step w i) := by
  refine ⟨?_, fun j => ?_⟩
  · show M.replay w.store _ = _
    rw [hw.store_eq]
    exact (replay_append ..).symm
  · by_cases hij : j = i
    · subst hij
      rw [step_threads_self]
      exact h.next hw j
    · rw [step_threads_of_ne w hij]
      exact h.stable_append w.log _ (hw.thread j)

theorem holds_states (h : Inductive M init I) {threads : ι → τ} (hstart : ∀ i, I [] (threads i))
    (schedule : List ι) :
    ∀ w ∈ Run.states M.step (Threads.start init threads) schedule, Holds M init I w :=
  Run.states_inv (fun _ i hw => hw.step h i) (.start hstart) schedule

section
variable {P : α → Prop}

theorem Holds.step_log (emit : ∀ log t a, I log t → (M.act log.length (M.replay init log) t).2 = some a → P a)
    {w : World σ α τ ι} (hw : Holds M init I w) (hlog : ∀ a ∈ w.log, P a) (i : ι) :
    ∀ a ∈ (M.step w i).log, P a := by
  intro a ha
  rcases List.mem_append.1 ha with ha | ha
  · exact hlog a ha
  · have hact : (M.act w.log.length (M.replay init w.log) (w.threads i)).2 = some a := by
      rw [← hw.store_eq]
      exact Option.mem_toList.1 ha
    exact emit w.log _ a (hw.thread i) hact

/-- All updates of a run satisfy what those that threads can make do. -/
theorem log_states (h : Inductive M init I)
    (emit : ∀ log t a, I log t → (M.act log.length (M.replay init log) t).2 = some a → P a)
    {threads : ι → τ} (hstart : ∀ i, I [] (threads i)) (schedule : List ι) :
    ∀ w ∈ Run.states M.step (Threads.start init threads) schedule, ∀ a ∈ w.log, P a := by
  have hfirst : ∀ a ∈ (Threads.start init threads : World σ α τ ι).log, P a := fun a ha => by cases ha
  have hrun := Run.states_inv (I := fun w : World σ α τ ι => Holds M init I w ∧ ∀ a ∈ w.log, P a)
    (fun _ i hw => ⟨hw.1.step h i, hw.1.step_log emit hw.2 i⟩) ⟨.start hstart, hfirst⟩ schedule
  exact fun w hw => (hrun w hw).2

end

theorem log_prefix (w : World σ α τ ι) (schedule : List ι) : w.log <+: (schedule.foldl M.step w).log := by
  refine Run.foldl_inv (I := fun w' : World σ α τ ι => w.log <+: w'.log) (fun t ht hpre => ?_) (List.prefix_refl _)
  rw [Run.post_eq ht]
  exact hpre.trans (List.prefix_append ..)

/-- What every step of a thread takes from one count to the next, holds of the number of its own steps. -/
theorem foldl_own {J : Nat → τ → Prop} {i : ι} (own : ∀ k n s t, J k t → J (k + 1) (M.act n s t).1)
    {w : World σ α τ ι} (h : J 0 (w.threads i)) (schedule : List ι) :
    J (schedule.count i) ((schedule.foldl M.step w).threads i) := by
  induction schedule using List.reverseRecOn with
  | nil => exact h
  | append_singleton schedule j ih =>
    rw [List.foldl_append, List.count_append]
    by_cases hij : j = i
    · subst hij
      rw [List.count_singleton_self]
      show J _ ((M.step _ j).threads j)
      rw [step_threads_self]
      exact own _ _ _ _ ih
    · have hcount : [j].count i = 0 := List.count_eq_zero.2 fun hmem => hij (List.mem_singleton.1 hmem).symm
      rw [hcount, Nat.add_zero]
      show J _ ((M.step _ j).threads i)
      rw [step_threads_of_ne _ (Ne.symm hij)]
      exact ih

/-! ### A part of the store that one thread changes -/

/-- Threads with `F` stay so, and leave the part of the store that `view` shows. -/
structure Foreign {β : Type*} (M : Threads σ α τ) (view : σ → β) (F : τ → Prop) : Prop where
  keep : ∀ n s t, F t → F (M.act n s t).1
  view_eq : ∀ n s t, F t → view (M.replay s (M.act n s t).2.toList) = view s

/-- What the steps of thread `i` keep of itself and a part of the store, holds all along a run in which the
others leave that part. -/
theorem Foreign.states {β : Type*} {view : σ → β} {F : τ → Prop} (h : M.Foreign view F) {J : β → τ → Prop}
    (own : ∀ n s t, J (view s) t → J (view (M.replay s (M.act n s t).2.toList)) (M.act n s t).1)
    {threads : ι → τ} {i : ι} (hstart : J (view init) (threads i)) (hothers : ∀ j ≠ i, F (threads j))
    (schedule : List ι) :
    ∀ w ∈ Run.states M.step (Threads.start init threads) schedule, J (view w.store) (w.threads i) := by
  let I := fun w : World σ α τ ι => J (view w.store) (w.threads i) ∧ ∀ j ≠ i, F (w.threads j)
  have hstep (w : World σ α τ ι) (k : ι) (hw : I w) : I (M.step w k) := by
    obtain ⟨hown, hothers⟩ := hw
    by_cases hk : k = i
    · subst hk
      refine ⟨?_, fun j hj => ?_⟩
      · rw [step_threads_self]
        exact own _ _ _ hown
      · rw [step_threads_of_ne w hj]
        exact hothers j hj
    · refine ⟨?_, fun j hj => ?_⟩
      · rw [step_threads_of_ne w (Ne.symm hk)]
        show J (view (M.replay w.store _)) _
        rw [next, h.view_eq _ _ _ (hothers k hk)]
        exact hown
      · by_cases hjk : j = k
        · subst hjk
          rw [step_threads_self]
          exact h.keep _ _ _ (hothers j hj)
        · rw [step_threads_of_ne w hjk]
          exact hothers j hj
  have hfirst : I (Threads.start init threads) := ⟨hstart, hothers⟩
  exact fun w hw => (Run.states_inv hstep hfirst schedule w hw).1

/-! ### One thread alone -/

/-- Thread `i` comes to `t` and leaves the store as `s` when no other thread takes a step. -/
def Alone (M : Threads σ α τ) (w : World σ α τ ι) (i : ι) (s : σ) (t : τ) : Prop :=
  ∃ n, let w' := (List.replicate n i).foldl M.step w
    w'.store = s ∧ w'.threads i = t ∧ ∀ j ≠ i, w'.threads j = w.threads j

theorem Alone.refl {w : World σ α τ ι} {i : ι} {s : σ} {t : τ} (hs : w.store = s) (ht : w.threads i = t) :
    M.Alone w i s t :=
  ⟨0, hs, ht, fun _ _ => rfl⟩

theorem Alone.of_step {w : World σ α τ ι} {i : ι} {s : σ} {t : τ} (h : M.Alone (M.step w i) i s t) :
    M.Alone w i s t := by
  obtain ⟨n, hstore, hthread, hothers⟩ := h
  refine ⟨n + 1, hstore, hthread, fun j hj => ?_⟩
  rw [← step_threads_of_ne (M := M) w hj]
  exact hothers j hj

theorem step_of_act {w : World σ α τ ι} {i : ι} {t : τ} {u : Option α}
    (h : M.act w.log.length w.store (w.threads i) = (t, u)) :
    (M.step w i).store = M.replay w.store u.toList ∧ (M.step w i).threads i = t := by
  have hnext : M.next w i = (t, u) := h
  exact ⟨by rw [step, hnext], by rw [step_threads_self, hnext]⟩

end Threads
