import Mathlib.Data.List.Nodup
import Mathlib.Data.List.Perm.Subperm
import Mathlib.Tactic.Common
import AutoEth.Lib.Except

/-!
# Distinct elements in the order of their first occurrence

`l.eraseDups` keeps the first occurrence of every element. A loop that appends what it has not seen yet
computes it (`foldl_insertNew`). The number of distinct elements only grows with the list
(`length_eraseDups_le`), and a sublist with as many distinct elements has all of them
(`subset_of_length_eraseDups_le`). A loop that raises on a key it has seen goes through iff the keys are
distinct (`exists_foldlM_ok_iff`).
-/

namespace Distinct
variable {α : Type*} [DecidableEq α]

theorem nodup_eraseDups : (l : List α) → l.eraseDups.Nodup
  | [] => List.nodup_nil
  | a :: l => by
    have hlen : (l.filter fun b => !b == a).length < l.length + 1 :=
      Nat.lt_succ_of_le (List.length_filter_le _ _)
    rw [List.eraseDups_cons]
    refine List.nodup_cons.2 ⟨?_, nodup_eraseDups _⟩
    rw [List.mem_eraseDups]
    simp
termination_by l => l.length

theorem eraseDups_eq_self {l : List α} (h : l.Nodup) : l.eraseDups = l := by
  induction l with
  | nil => rfl
  | cons a l ih =>
    obtain ⟨ha, hl⟩ := List.nodup_cons.1 h
    have hfilter : (l.filter fun b => !b == a) = l := by
      refine List.filter_eq_self.2 fun b hb => ?_
      have hne : b ≠ a := fun h => ha (h ▸ hb)
      simpa using hne
    rw [List.eraseDups_cons, hfilter, ih hl]

/-- The set as the loop keeps it: what is new goes to the end. -/
def insertNew (seen : List α) (a : α) : List α := if a ∈ seen then seen else seen ++ [a]

theorem eraseDups_append_cons {seen l : List α} {a : α} (h : a ∈ seen) :
    (seen ++ a :: l).eraseDups = (seen ++ l).eraseDups := by
  rw [List.eraseDups_append, List.eraseDups_append]
  congr 2
  exact List.filter_cons_of_neg (by simpa using h)

theorem foldl_insertNew {seen : List α} (h : seen.Nodup) (l : List α) :
    l.foldl insertNew seen = (seen ++ l).eraseDups := by
  induction l generalizing seen with
  | nil =>
    rw [List.append_nil, eraseDups_eq_self h]
    rfl
  | cons a l ih =>
    rw [List.foldl_cons]
    by_cases ha : a ∈ seen
    · rw [insertNew, if_pos ha, ih h, eraseDups_append_cons ha]
    · have hnodup : (seen ++ [a]).Nodup := by
        rw [List.nodup_append]
        refine ⟨h, List.nodup_singleton a, ?_⟩
        rintro b hb _ hc rfl
        rw [List.mem_singleton.1 hc] at hb
        exact ha hb
      rw [insertNew, if_neg ha, ih hnodup, List.append_assoc]
      rfl

theorem length_eraseDups_le {l l' : List α} (h : l ⊆ l') : l.eraseDups.length ≤ l'.eraseDups.length := by
  refine ((nodup_eraseDups l).subperm fun a ha => ?_).length_le
  exact List.mem_eraseDups.2 (h (List.mem_eraseDups.1 ha))

theorem subset_of_length_eraseDups_le {l l' : List α} (h : l ⊆ l')
    (hlen : l'.eraseDups.length ≤ l.eraseDups.length) : l' ⊆ l := by
  have hsub : l.eraseDups.Subperm l'.eraseDups := by
    refine (nodup_eraseDups l).subperm fun a ha => ?_
    exact List.mem_eraseDups.2 (h (List.mem_eraseDups.1 ha))
  intro a ha
  have hmem := (hsub.perm_of_length_le hlen).mem_iff.2 (List.mem_eraseDups.2 ha)
  exact List.mem_eraseDups.1 hmem

/-! ### A loop that refuses repeated keys -/

section Refusing
variable {ε σ ι κ : Type*} {step : σ → ι → Except ε σ} {selects : ι → Bool} {key : ι → κ} {used : σ → List κ}

/-- The step takes `i` iff its key is not in use yet, and has the key in use from then on. -/
structure TakesOnce (step : σ → ι → Except ε σ) (key : ι → κ) (used : σ → List κ) (i : ι) : Prop where
  ok_iff : ∀ s, (∃ s', step s i = .ok s') ↔ key i ∉ used s
  mem_used : ∀ {s s'}, step s i = .ok s' → ∀ k, k ∈ used s' ↔ k = key i ∨ k ∈ used s

theorem TakesOnce.of_entry {η : Type*} {entry : η → Prop} {keyOf : η → κ} {i : ι}
    (insert : σ → η → σ)
    (hstep : ∀ s s', step s i = .ok s' ↔ ∃ e, entry e ∧ keyOf e ∉ used s ∧ s' = insert s e)
    (hentry : ∃ e, entry e) (hkey : ∀ e, entry e → key i = keyOf e)
    (hinsert : ∀ s e, keyOf e ∉ used s → ∀ k, k ∈ used (insert s e) ↔ k = keyOf e ∨ k ∈ used s) :
    TakesOnce step key used i := by
  constructor
  · intro s
    constructor
    · rintro ⟨s', h⟩
      obtain ⟨e, he, hnew, -⟩ := (hstep s s').1 h
      rwa [hkey e he]
    · intro hnew
      obtain ⟨e, he⟩ := hentry
      exact ⟨_, (hstep s _).2 ⟨e, he, hkey e he ▸ hnew, rfl⟩⟩
  · intro s s' h k
    obtain ⟨e, he, hnew, rfl⟩ := (hstep s s').1 h
    rw [hkey e he, hinsert s e hnew]

theorem exists_foldlM_ok_iff {l : List ι} (htakes : ∀ i ∈ l, selects i = true → TakesOnce step key used i)
    (hskip : ∀ s, ∀ i ∈ l, selects i = false → step s i = .ok s) (s : σ) :
    (∃ s', l.foldlM step s = .ok s') ↔
      ((l.filter selects).map key).Nodup ∧ ∀ k ∈ (l.filter selects).map key, k ∉ used s := by
  induction l generalizing s with
  | nil => simp [List.foldlM_nil]
  | cons i l ih =>
    have ih := ih (fun j hj => htakes j (List.mem_cons_of_mem _ hj))
      fun s j hj => hskip s j (List.mem_cons_of_mem _ hj)
    rw [List.foldlM_cons]
    cases hi : selects i with
    | false =>
      rw [hskip s i (List.mem_cons_self ..) hi, Except.ok_bind, ih s, List.filter_cons_of_neg (by simp [hi])]
    | true =>
      have hi' := htakes i (List.mem_cons_self ..) hi
      rw [List.filter_cons_of_pos hi, List.map_cons, List.nodup_cons, List.forall_mem_cons]
      constructor
      · rintro ⟨s', h⟩
        obtain ⟨s₁, h₁, h₂⟩ := Except.bind_eq_ok.1 h
        obtain ⟨hnodup, hnew⟩ := (ih s₁).1 ⟨s', h₂⟩
        refine ⟨⟨fun hmem => ?_, hnodup⟩, (hi'.ok_iff s).1 ⟨s₁, h₁⟩, fun k hk hused => ?_⟩
        · exact hnew _ hmem ((hi'.mem_used h₁ _).2 (.inl rfl))
        · exact hnew k hk ((hi'.mem_used h₁ k).2 (.inr hused))
      · rintro ⟨⟨hmem, hnodup⟩, hfresh, hnew⟩
        obtain ⟨s₁, h₁⟩ := (hi'.ok_iff s).2 hfresh
        have hnew₁ : ∀ k ∈ (l.filter selects).map key, k ∉ used s₁ := by
          intro k hk hused
          rcases (hi'.mem_used h₁ k).1 hused with rfl | hused
          · exact hmem hk
          · exact hnew k hk hused
        obtain ⟨s', h₂⟩ := (ih s₁).2 ⟨hnodup, hnew₁⟩
        exact ⟨s', by rw [h₁, Except.ok_bind, h₂]⟩

end Refusing

end Distinct
