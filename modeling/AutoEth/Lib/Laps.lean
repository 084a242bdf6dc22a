import Mathlib.Data.List.Basic
import Mathlib.Tactic.Common

/-!
# Laps of a loop with a stop flag

A loop `while not flag: body` looks at the flag before each lap, while others set it at any time. A `Lap`
keeps the moments at which the loop looked and at which the body was through; `Laps set laps` says that the
laps came one after another, and that the flag was not `set` when the loop looked. Since a flag stays set, a
loop makes no lap that begins after it was set, and ends at most one (`Laps.began_lt`, `Laps.length_late_le`).
`InLap` is the invariant of a loop at work: it may be in a lap that has begun.
-/

/-- Of a list in order, at most one element has `p` if no two of them can be in order. -/
theorem List.length_filter_le_one {α : Type*} {R : α → α → Prop} {l : List α} (h : l.Pairwise R) {p : α → Bool}
    (hp : ∀ a ∈ l, ∀ b ∈ l, p a = true → p b = true → ¬ R a b) : (l.filter p).length ≤ 1 := by
  have hfilter := h.filter p
  have hmem : ∀ a ∈ l.filter p, a ∈ l ∧ p a = true := fun a => List.mem_filter.1
  revert hfilter hmem
  cases l.filter p with
  | nil => exact fun _ _ => Nat.zero_le _
  | cons a rest =>
    cases rest with
    | nil => exact fun _ _ => Nat.le_refl _
    | cons b rest =>
      intro hfilter hmem
      obtain ⟨ha, hpa⟩ := hmem a (List.mem_cons_self ..)
      obtain ⟨hb, hpb⟩ := hmem b (List.mem_cons_of_mem _ (List.mem_cons_self ..))
      exact absurd ((List.pairwise_cons.1 hfilter).1 b (List.mem_cons_self ..)) (hp a ha b hb hpa hpb)

structure Lap where
  began : Nat
  ended : Nat

structure Laps (set : Nat → Prop) (laps : List Lap) : Prop where
  unset : ∀ lap ∈ laps, ¬ set lap.began
  le : ∀ lap ∈ laps, lap.began ≤ lap.ended
  ordered : laps.Pairwise fun a b => a.ended ≤ b.began

namespace Laps

variable {set set' : Nat → Prop} {laps : List Lap} {lap : Lap} {k : Nat}

theorem nil (set : Nat → Prop) : Laps set [] := by
  refine ⟨?_, ?_, .nil⟩
  all_goals intro lap h; cases h

theorem concat (h : Laps set laps) (hunset : ¬ set lap.began) (hle : lap.began ≤ lap.ended)
    (hafter : ∀ a ∈ laps, a.ended ≤ lap.began) : Laps set (laps ++ [lap]) := by
  refine ⟨fun a ha => ?_, fun a ha => ?_, ?_⟩
  · rcases List.mem_append.1 ha with ha | ha
    · exact h.unset a ha
    · rwa [List.mem_singleton.1 ha]
  · rcases List.mem_append.1 ha with ha | ha
    · exact h.le a ha
    · rwa [List.mem_singleton.1 ha]
  · rw [List.pairwise_append]
    refine ⟨h.ordered, List.pairwise_singleton .., fun a ha b hb => ?_⟩
    rw [List.mem_singleton.1 hb]
    exact hafter a ha

theorem congr (h : Laps set laps) (hset : ∀ lap ∈ laps, (set' lap.began ↔ set lap.began)) : Laps set' laps :=
  ⟨fun lap hlap => by rw [hset lap hlap]; exact h.unset lap hlap, h.le, h.ordered⟩

section
variable (hmono : ∀ m n, m ≤ n → set m → set n)
include hmono

theorem began_lt (h : Laps set laps) (hset : set k) (hlap : lap ∈ laps) : lap.began < k := by
  by_contra hle
  exact h.unset lap hlap (hmono k lap.began (by omega) hset)

/-- At most one lap ends after the flag was set. -/
theorem length_late_le (h : Laps set laps) (hset : set k) :
    (laps.filter fun lap => k ≤ lap.ended).length ≤ 1 := by
  refine List.length_filter_le_one h.ordered fun a _ b hb ha _ horder => ?_
  have hbegan := h.began_lt hmono hset hb
  have hended : k ≤ a.ended := of_decide_eq_true ha
  omega

theorem late_map {β : Type*} {f : β → Lap} {made : List β} (h : Laps set (made.map f)) (hset : set k) :
    (∀ b ∈ made, (f b).began < k) ∧ (made.filter fun b => k ≤ (f b).ended).length ≤ 1 := by
  refine ⟨fun b hb => h.began_lt hmono hset (List.mem_map_of_mem hb), ?_⟩
  have hlate := h.length_late_le hmono hset
  rw [List.filter_map, List.length_map] at hlate
  exact hlate

end

end Laps

/-- A loop that has made these laps by now, and is in the one that began at `begun`, if any. -/
structure InLap (set : Nat → Prop) (now : Nat) (laps : List Lap) (begun : Option Nat) : Prop where
  made : Laps set laps
  ended_le : ∀ lap ∈ laps, lap.ended ≤ now
  unset : ∀ b ∈ begun, ¬ set b
  begun_le : ∀ b ∈ begun, b ≤ now
  after : ∀ b ∈ begun, ∀ lap ∈ laps, lap.ended ≤ b

namespace InLap

variable {set set' : Nat → Prop} {now : Nat} {laps : List Lap} {begun : Option Nat}

theorem leave (h : InLap set now laps begun) : InLap set now laps none := by
  refine ⟨h.made, h.ended_le, ?_, ?_, ?_⟩
  all_goals intro b hb; cases hb

theorem start (set : Nat → Prop) (now : Nat) : InLap set now [] none := by
  refine ⟨.nil set, ?_, ?_, ?_, ?_⟩
  all_goals intro b hb; cases hb

/-- The loop looks at the flag, which is not set, and begins a lap. -/
theorem look (h : InLap set now laps begun) (hunset : ¬ set now) : InLap set now laps (some now) := by
  refine ⟨h.made, h.ended_le, ?_, ?_, ?_⟩
  · rintro _ ⟨⟩
    exact hunset
  · rintro _ ⟨⟩
    exact Nat.le_refl _
  · rintro _ ⟨⟩
    exact h.ended_le

theorem finish {b : Nat} (h : InLap set now laps (some b)) : InLap set now (laps ++ [⟨b, now⟩]) none := by
  have hb : b ∈ some b := rfl
  have hlaps : Laps set (laps ++ [⟨b, now⟩]) := h.made.concat (h.unset b hb) (h.begun_le b hb) (h.after b hb)
  refine ⟨hlaps, fun lap hlap => ?_, ?_, ?_, ?_⟩
  · rcases List.mem_append.1 hlap with hlap | hlap
    · exact h.ended_le lap hlap
    · obtain rfl := List.mem_singleton.1 hlap
      exact Nat.le_refl _
  all_goals intro b hb; cases hb

theorem later {now' : Nat} (h : InLap set now laps begun) (hle : now ≤ now')
    (hset : ∀ k ≤ now, (set' k ↔ set k)) : InLap set' now' laps begun := by
  refine ⟨h.made.congr fun lap hlap => ?_, fun lap hlap => Nat.le_trans (h.ended_le lap hlap) hle,
    fun b hb => ?_, fun b hb => Nat.le_trans (h.begun_le b hb) hle, h.after⟩
  · exact hset _ (Nat.le_trans (h.made.le lap hlap) (h.ended_le lap hlap))
  · rw [hset b (h.begun_le b hb)]
    exact h.unset b hb

end InLap
