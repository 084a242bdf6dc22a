import Mathlib.Order.Basic

/-!
# Loops that are left from inside

A `while True` loop is a `step` from the state at the loop head to a `Turn`: go round `again` with a
new state, or `leave` with a result. `Loop` packs the step with a size that every turn round makes
smaller, so that running it is total: `exec` gives the states at the loop head, in order, and the
result. `exec_leave` and `exec_again` are its two equations, `exec_induction` the induction over
the turns; `result_inv` lifts an invariant of one turn to the whole run, and `result_rel` a relation
between the turns of two loops to their results.
-/

inductive Turn (σ τ : Type*) where
  | again (s : σ)
  | leave (t : τ)

namespace Turn

variable {σ τ : Type*}

/-- `run step f s` are at most `f` turns from `s`. -/
def run (step : σ → Turn σ τ) : Nat → σ → Option (List σ × τ)
  | 0, _ => none
  | f + 1, s =>
    match step s with
    | .leave t => some ([s], t)
    | .again s' => (run step f s').map fun r => (s :: r.1, r.2)

theorem run_mono {step : σ → Turn σ τ} {f f' : Nat} {s : σ} {r : List σ × τ} (hf : f ≤ f')
    (h : run step f s = some r) : run step f' s = some r := by
  induction f generalizing f' s r with
  | zero => cases h
  | succ f ih =>
    obtain ⟨f', rfl⟩ : ∃ g, f' = g + 1 := ⟨f' - 1, by omega⟩
    rw [run] at h ⊢
    cases hs : step s with
    | leave t => rw [hs] at h; exact h
    | again s' =>
      rw [hs] at h
      obtain ⟨r', hr, rfl⟩ := Option.map_eq_some_iff.1 h
      have := @ih f' s' r' (by omega) hr
      simp only [this, Option.map_some]

/-- Two turns that go on in related states, or leave with related results. -/
inductive Rel {σ' τ' : Type*} (R : σ → σ' → Prop) (Q : τ → τ' → Prop) : Turn σ τ → Turn σ' τ' → Prop
  | again {s : σ} {s' : σ'} (h : R s s') : Rel R Q (.again s) (.again s')
  | leave {t : τ} {t' : τ'} (h : Q t t') : Rel R Q (.leave t) (.leave t')

end Turn

structure Loop (σ τ : Type*) where
  step : σ → Turn σ τ
  size : σ → Nat
  size_lt : ∀ s s', step s = .again s' → size s' < size s

namespace Loop

variable {σ τ : Type*} (L : Loop σ τ)

theorem run_isSome (f : Nat) (s : σ) (h : L.size s < f) : (Turn.run L.step f s).isSome := by
  induction f generalizing s with
  | zero => omega
  | succ f ih =>
    rw [Turn.run]
    cases hs : L.step s with
    | leave t => rfl
    | again s' =>
      have := L.size_lt s s' hs
      simpa using ih s' (by omega)

/-- The states at the loop head and the result. -/
def exec (s : σ) : List σ × τ :=
  (Turn.run L.step (L.size s + 1) s).get (L.run_isSome _ s (Nat.lt_succ_self _))

def heads (s : σ) : List σ := (L.exec s).1

def result (s : σ) : τ := (L.exec s).2

variable {L} {s s' : σ} {t : τ}

theorem exec_leave (h : L.step s = .leave t) : L.exec s = ([s], t) := by
  simp only [exec, Turn.run, h, Option.get_some]

theorem exec_again (h : L.step s = .again s') : L.exec s = (s :: L.heads s', L.result s') := by
  have hlt := L.size_lt s s' h
  have hrun : Turn.run L.step (L.size s) s' = some (L.exec s') :=
    Turn.run_mono (f := L.size s' + 1) hlt (Option.some_get _).symm
  simp only [exec, Turn.run, h, hrun, Option.map_some, Option.get_some]
  rfl

theorem heads_leave (h : L.step s = .leave t) : L.heads s = [s] := by rw [heads, exec_leave h]

theorem result_leave (h : L.step s = .leave t) : L.result s = t := by rw [result, exec_leave h]

theorem heads_again (h : L.step s = .again s') : L.heads s = s :: L.heads s' := by
  rw [heads, exec_again h]

theorem result_again (h : L.step s = .again s') : L.result s = L.result s' := by
  rw [result, exec_again h]

theorem exec_induction {P : σ → Prop} (leave : ∀ s t, L.step s = .leave t → P s)
    (again : ∀ s s', L.step s = .again s' → P s' → P s) (s : σ) : P s := by
  induction hn : L.size s using Nat.strongRecOn generalizing s with
  | ind n ih =>
    cases hs : L.step s with
    | leave t => exact leave s t hs
    | again s' => exact again s s' hs (ih _ (hn ▸ L.size_lt s s' hs) s' rfl)

theorem mem_heads_self (s : σ) : s ∈ L.heads s := by
  cases hs : L.step s with
  | leave t => rw [heads_leave hs]; exact List.mem_cons_self ..
  | again s' => rw [heads_again hs]; exact List.mem_cons_self ..

theorem result_inv {I : σ → Prop} {R : τ → Prop} (keep : ∀ s s', I s → L.step s = .again s' → I s')
    (done : ∀ s t, I s → L.step s = .leave t → R t) (s : σ) (h : I s) : R (L.result s) := by
  induction s using L.exec_induction with
  | leave s t hs => rw [result_leave hs]; exact done s t h hs
  | again s s₁ hs ih => rw [result_again hs]; exact ih (keep _ _ h hs)

/-- Loops whose turns from related states are related have related results. -/
theorem result_rel {σ' τ' : Type*} {K : Loop σ' τ'} {R : σ → σ' → Prop} {Q : τ → τ' → Prop}
    (h : ∀ s s', R s s' → (L.step s).Rel R Q (K.step s')) (s : σ) (s' : σ') (hR : R s s') :
    Q (L.result s) (K.result s') := by
  induction s using L.exec_induction generalizing s' with
  | leave s t hs =>
    have hrel := h s s' hR
    rw [hs] at hrel
    cases hs' : K.step s' with
    | leave t' =>
      rw [hs'] at hrel
      rw [result_leave hs, result_leave hs']
      cases hrel with
      | leave hQ => exact hQ
    | again s₁' =>
      rw [hs'] at hrel
      cases hrel
  | again s s₁ hs ih =>
    have hrel := h s s' hR
    rw [hs] at hrel
    cases hs' : K.step s' with
    | leave t' =>
      rw [hs'] at hrel
      cases hrel
    | again s₁' =>
      rw [hs'] at hrel
      rw [result_again hs, result_again hs']
      cases hrel with
      | again hR' => exact ih s₁' hR'

end Loop
