import Mathlib.Data.List.Induction
import Mathlib.Tactic.Common

/-!
# Runs of a step function

A run of `f : σ → α → σ` feeds it one input after another. `steps f s as` lists the steps of the run,
each with the state before it, its input and the state after it; `states f s as` lists the states it
comes through. An invariant is proved from the steps (`foldl_inv`); where a property that holds before
a step holds after it exactly under a condition on the step, it holds all along the run exactly when
all steps meet the condition (`states_iff_steps`).
-/

namespace Run

structure Step (σ α : Type*) where
  pre : σ
  input : α
  post : σ

variable {σ α : Type*}

def steps (f : σ → α → σ) : σ → List α → List (Step σ α)
  | _, [] => []
  | s, a :: as => ⟨s, a, f s a⟩ :: steps f (f s a) as

def states (f : σ → α → σ) : σ → List α → List σ
  | s, [] => [s]
  | s, a :: as => s :: states f (f s a) as

variable {f : σ → α → σ} {s : σ}

@[simp] theorem steps_nil : steps f s [] = [] := rfl

theorem mem_states_self (as : List α) : s ∈ states f s as := by
  cases as <;> exact List.mem_cons_self ..

theorem foldl_mem_states (as : List α) : as.foldl f s ∈ states f s as := by
  induction as generalizing s with
  | nil => exact List.mem_cons_self ..
  | cons a as ih => exact List.mem_cons_of_mem _ ih

theorem post_eq {as : List α} {t : Step σ α} (h : t ∈ steps f s as) : t.post = f t.pre t.input := by
  induction as generalizing s with
  | nil => cases h
  | cons a as ih =>
    rcases List.mem_cons.1 h with rfl | h
    · rfl
    · exact ih h

theorem input_mem {as : List α} {t : Step σ α} (h : t ∈ steps f s as) : t.input ∈ as := by
  induction as generalizing s with
  | nil => cases h
  | cons a as ih =>
    rcases List.mem_cons.1 h with rfl | h
    · exact List.mem_cons_self ..
    · exact List.mem_cons_of_mem _ (ih h)

theorem foldl_inv {I : σ → Prop} {as : List α} (step : ∀ t ∈ steps f s as, I t.pre → I t.post)
    (h : I s) : I (as.foldl f s) := by
  induction as generalizing s with
  | nil => exact h
  | cons a as ih =>
    exact ih (fun t ht => step t (List.mem_cons_of_mem _ ht)) (step _ (List.mem_cons_self ..) h)

theorem states_inv {I : σ → Prop} (step : ∀ s a, I s → I (f s a)) (h : I s) (as : List α) :
    ∀ s' ∈ states f s as, I s' := by
  induction as generalizing s with
  | nil =>
    intro s' hs'
    rw [List.mem_singleton.1 hs']
    exact h
  | cons a as ih =>
    intro s' hs'
    rcases List.mem_cons.1 hs' with rfl | hs'
    · exact h
    · exact ih (step s a h) s' hs'

/-- Two runs over the same inputs whose steps keep a relation are related in all their states. -/
theorem forall₂_states {τ : Type*} {g : τ → α → τ} {R : σ → τ → Prop}
    (step : ∀ s t a, R s t → R (f s a) (g t a)) {t : τ} (h : R s t) (as : List α) :
    List.Forall₂ R (states f s as) (states g t as) := by
  induction as generalizing s t with
  | nil => exact .cons h .nil
  | cons a as ih => exact .cons h (ih (step s t a h))

/-- Where an input with `p` decides a property anew and every other leaves it, the last input with `p`
decides it for the run. -/
theorem foldl_last {I : σ → Prop} {p : α → Bool} {d : α → Prop}
    (step : ∀ s a, I (f s a) ↔ if p a then d a else I s) (s : σ) (as : List α) :
    I (as.foldl f s) ↔ (as.filter p).getLast?.elim (I s) d := by
  induction as using List.reverseRecOn with
  | nil => exact Iff.rfl
  | append_singleton as a ih =>
    rw [List.foldl_append, List.foldl_cons, List.foldl_nil, step, List.filter_append]
    by_cases hp : p a = true
    · rw [if_pos hp, List.filter_cons_of_pos hp, List.filter_nil, List.getLast?_concat]
      rfl
    · rw [if_neg hp, List.filter_cons_of_neg hp, List.filter_nil, List.append_nil, ih]

/-- Only the inputs with `p` raise the measure `m`, and by one at most. -/
theorem measure_le_countP {m : σ → Nat} {p : α → Bool} {as : List α}
    (step : ∀ t ∈ steps f s as, m t.post ≤ m t.pre + if p t.input then 1 else 0) :
    m (as.foldl f s) ≤ m s + as.countP p := by
  induction as generalizing s with
  | nil => exact Nat.le_refl _
  | cons a as ih =>
    have hstep := step _ (List.mem_cons_self ..)
    have hrest := ih fun t ht => step t (List.mem_cons_of_mem _ ht)
    rw [List.countP_cons, List.foldl_cons]
    dsimp only at hstep
    omega

/-- A property that a step keeps exactly under the condition `C`, where the states satisfy `J`. -/
theorem states_iff_steps {A : α → Prop} {J I : σ → Prop} {C : σ → α → Prop}
    (keep : ∀ s a, A a → J s → J (f s a)) (step : ∀ s a, A a → J s → I s → (I (f s a) ↔ C s a))
    {as : List α} (has : ∀ a ∈ as, A a) (hj : J s) (hi : I s) :
    (∀ s' ∈ states f s as, I s') ↔ ∀ t ∈ steps f s as, C t.pre t.input := by
  induction as generalizing s with
  | nil => simpa [states] using hi
  | cons a as ih =>
    have ha := has a (List.mem_cons_self ..)
    have hrest := fun a' ha' => has a' (List.mem_cons_of_mem _ ha')
    constructor
    · intro h t ht
      have hnext : I (f s a) := h _ (List.mem_cons_of_mem _ (mem_states_self as))
      rcases List.mem_cons.1 ht with rfl | ht
      · exact (step s a ha hj hi).1 hnext
      · exact (ih hrest (keep s a ha hj) hnext).1 (fun s' hs' => h s' (List.mem_cons_of_mem _ hs')) t ht
    · intro h s' hs'
      have hnext : I (f s a) := (step s a ha hj hi).2 (h _ (List.mem_cons_self ..))
      rcases List.mem_cons.1 hs' with rfl | hs'
      · exact hi
      · exact (ih hrest (keep s a ha hj) hnext).2 (fun t ht => h t (List.mem_cons_of_mem _ ht)) s' hs'

end Run
