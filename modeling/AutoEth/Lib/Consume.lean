import Mathlib.Data.List.Basic

/-!
# Consumers that raise and consumers that skip

`f` reads one input: it yields a value, it yields none, or it raises. `strict f n` reads inputs until it
has `n` values, and ends at the first input that raises; `skipping f` leaves such an input out. What the
strict consumer yields is a part of what the other one yields (`strict_prefix`), and they agree exactly
where every input that raises comes behind the `n`-th value (`strict_eq_skipping_iff`).
-/

namespace Consume

variable {ε α β : Type*} (f : α → Except ε (Option β))

/-- The values, and the exception that ended the loop. -/
def strict : Nat → List α → List β × Option ε
  | 0, _ => ([], none)
  | _ + 1, [] => ([], none)
  | n + 1, a :: as =>
    match f a with
    | .error e => ([], some e)
    | .ok none => strict (n + 1) as
    | .ok (some b) => (b :: (strict n as).1, (strict n as).2)

def skipping (as : List α) : List β := as.filterMap fun a => (f a).toOption.join

variable {f} {n : Nat} {a : α} {as : List α}

theorem strict_zero : strict f 0 as = ([], none) := by cases as <;> rfl

theorem strict_cons_error {e : ε} (h : f a = .error e) : strict f (n + 1) (a :: as) = ([], some e) := by
  rw [strict, h]

theorem strict_cons_none (h : f a = .ok none) : strict f (n + 1) (a :: as) = strict f (n + 1) as := by
  rw [strict, h]

theorem strict_cons_some {b : β} (h : f a = .ok (some b)) :
    strict f (n + 1) (a :: as) = (b :: (strict f n as).1, (strict f n as).2) := by
  rw [strict, h]

theorem skipping_cons_error {e : ε} (h : f a = .error e) : skipping f (a :: as) = skipping f as := by
  rw [skipping, List.filterMap_cons, h]
  rfl

theorem skipping_cons_none (h : f a = .ok none) : skipping f (a :: as) = skipping f as := by
  rw [skipping, List.filterMap_cons, h]
  rfl

theorem skipping_cons_some {b : β} (h : f a = .ok (some b)) : skipping f (a :: as) = b :: skipping f as := by
  rw [skipping, List.filterMap_cons, h]
  rfl

theorem mem_skipping {b : β} : b ∈ skipping f as ↔ ∃ a ∈ as, f a = .ok (some b) := by
  rw [skipping, List.mem_filterMap]
  refine exists_congr fun a => and_congr_right fun _ => ?_
  cases f a with
  | error e => simp [Except.toOption]
  | ok o => simp [Except.toOption]

theorem strict_prefix (n : Nat) (as : List α) : (strict f n as).1 <+: skipping f as := by
  induction as generalizing n with
  | nil => cases n <;> exact List.nil_prefix
  | cons a as ih =>
    cases n with
    | zero => exact List.nil_prefix
    | succ n =>
      rcases h : f a with e | _ | b
      · rw [strict_cons_error h]
        exact List.nil_prefix
      · rw [strict_cons_none h, skipping_cons_none h]
        exact ih (n + 1)
      · rw [strict_cons_some h, skipping_cons_some h]
        exact List.cons_prefix_cons.2 ⟨rfl, ih n⟩

theorem forall_cons_split {P : List α → α → Prop} :
    (∀ pre x post, a :: as = pre ++ x :: post → P pre x) ↔
      P [] a ∧ ∀ pre x post, as = pre ++ x :: post → P (a :: pre) x := by
  constructor
  · exact fun h => ⟨h [] a as rfl, fun pre x post hsplit => h (a :: pre) x post (congrArg _ hsplit)⟩
  · rintro ⟨hhead, htail⟩ pre x post hsplit
    cases pre with
    | nil =>
      cases hsplit
      exact hhead
    | cons a' pre =>
      cases hsplit
      exact htail pre x post rfl

/-- The strict consumer of `n` values does the same as the other one exactly when no input raises before
it has them. -/
theorem strict_eq_skipping_iff (n : Nat) (as : List α) :
    (strict f n as).1 = (skipping f as).take n ∧ (strict f n as).2 = none ↔
      ∀ pre a post, as = pre ++ a :: post → (skipping f pre).length < n → (f a).isOk = true := by
  induction as generalizing n with
  | nil =>
    refine iff_of_true ?_ fun pre a post hsplit => ?_
    · cases n <;> exact ⟨rfl, rfl⟩
    · cases pre <;> cases hsplit
  | cons a as ih =>
    cases n with
    | zero => exact iff_of_true ⟨rfl, rfl⟩ fun _ _ _ _ h => absurd h (Nat.not_lt_zero _)
    | succ n =>
      rw [forall_cons_split]
      rcases h : f a with e | _ | b
      · rw [strict_cons_error h]
        exact iff_of_false (fun h => nomatch h.2) fun hall => nomatch hall.1 (Nat.succ_pos n)
      · rw [strict_cons_none h, skipping_cons_none h, ih (n + 1)]
        simp only [skipping_cons_none h]
        exact (and_iff_right fun _ => rfl).symm
      · rw [strict_cons_some h, skipping_cons_some h, List.take_succ_cons, List.cons.injEq,
          eq_self_iff_true, true_and, ih n]
        simp only [skipping_cons_some h, List.length_cons, Nat.succ_lt_succ_iff]
        exact (and_iff_right fun _ => rfl).symm

end Consume
