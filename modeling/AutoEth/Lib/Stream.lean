import Mathlib.Data.List.Basic

/-!
# Streams that arrive in chunks

`Chunks α` is what is still to come on a stream: the non-empty pieces in which it will be handed
out, before its end. `recv k` hands out the next piece, cut at `k`; nothing once the stream has
ended. `readExact n` is the loop that calls `recv` until it has `n` elements. However the stream is
cut, it reads the first `n` elements and leaves the others (`readExact_fst`, `readExact_snd`).
-/

namespace Stream

variable {α : Type*}

abbrev Chunks (α : Type*) := List {c : List α // c ≠ []}

namespace Chunks

/-- All that is still to come, in order. -/
def all (s : Chunks α) : List α := (s.map Subtype.val).flatten

@[simp] theorem all_nil : all ([] : Chunks α) = [] := rfl

@[simp] theorem all_cons (c : {c : List α // c ≠ []}) (s : Chunks α) :
    all (c :: s) = c.1 ++ all s := rfl

end Chunks

/-- A stream handed out in one piece. -/
def whole (l : List α) : Chunks α := if h : l = [] then [] else [⟨l, h⟩]

@[simp] theorem all_whole (l : List α) : (whole l).all = l := by
  unfold whole; split <;> simp_all

def recv (k : Nat) : Chunks α → List α × Chunks α
  | [] => ([], [])
  | c :: s =>
    if h : c.1.length ≤ k then (c.1, s)
    else (c.1.take k, ⟨c.1.drop k, by simpa using h⟩ :: s)

theorem recv_fst (k : Nat) (s : Chunks α) : (recv k s).1 <+: s.all.take k := by
  cases s with
  | nil => simp [recv]
  | cons c s =>
    rw [recv]
    split
    · rename_i h
      rw [Chunks.all_cons, List.take_append, List.take_of_length_le h]
      exact List.prefix_append _ _
    · rename_i h
      have htake : (c.1 ++ Chunks.all s).take k = c.1.take k :=
        List.take_append_of_le_length (by omega)
      exact htake ▸ List.prefix_rfl

theorem recv_append (k : Nat) (s : Chunks α) : (recv k s).1 ++ (recv k s).2.all = s.all := by
  cases s with
  | nil => rfl
  | cons c s =>
    rw [recv]
    split
    · rfl
    · rw [Chunks.all_cons, Chunks.all_cons, ← List.append_assoc, List.take_append_drop]

theorem recv_eq_nil {k : Nat} (hk : 0 < k) {s : Chunks α} : (recv k s).1 = [] ↔ s = [] := by
  cases s with
  | nil => simp [recv]
  | cons c s =>
    have := c.2
    rw [recv]
    split
    · simpa using this
    · simp [this, Nat.ne_of_gt hk]

/-- `readLoop f n s` reads `n` elements with at most `f` calls of `recv`. -/
def readLoop : Nat → Nat → Chunks α → Option (List α) × Chunks α
  | 0, _, s => (some [], s)
  | f + 1, n, s =>
    if n = 0 then (some [], s)
    else
      match recv n s with
      | ([], s') => (none, s')
      | (c, s') =>
        let r := readLoop f (n - c.length) s'
        (r.1.map (c ++ ·), r.2)

/-- Read exactly `n` elements; `none` when the stream ends before. Every call of `recv` hands out at
least one element, so `n` calls are enough. -/
def readExact (n : Nat) (s : Chunks α) : Option (List α) × Chunks α := readLoop n n s

theorem readLoop_spec (f n : Nat) (s : Chunks α) (h : n ≤ f) :
    (readLoop f n s).1 = (if n ≤ s.all.length then some (s.all.take n) else none) ∧
      (readLoop f n s).2.all = s.all.drop n := by
  induction f generalizing n s with
  | zero =>
    obtain rfl : n = 0 := by omega
    simp [readLoop]
  | succ f ih =>
    rw [readLoop]
    by_cases hn : n = 0
    · simp [hn]
    simp only [hn, ↓reduceIte]
    have happ := recv_append n s
    have hpre := recv_fst n s
    have hnil := recv_eq_nil (s := s) (Nat.pos_of_ne_zero hn)
    match hr : recv n s with
    | ([], s') =>
      obtain rfl := hnil.1 (by rw [hr])
      rw [hr] at happ
      simp only [List.nil_append] at happ
      simp [happ, hn]
    | (a :: c, s') =>
      rw [hr] at happ hpre
      simp only at happ hpre
      have hle : (a :: c).length ≤ n := by
        have := hpre.length_le
        rw [List.length_take] at this
        omega
      obtain ⟨h₁, h₂⟩ := ih (n - (a :: c).length) s' (by rw [List.length_cons]; omega)
      have hlen : s.all.length = (a :: c).length + s'.all.length := by rw [← happ, List.length_append]
      simp only [h₁, h₂]
      refine ⟨?_, ?_⟩
      · by_cases hs : n ≤ s.all.length
        · rw [if_pos hs, if_pos (by omega), Option.map_some, ← happ, List.take_append,
            List.take_of_length_le hle]
        · rw [if_neg hs, if_neg (by omega), Option.map_none]
      · rw [← happ, List.drop_append, List.drop_of_length_le hle, List.nil_append]

theorem readExact_fst (n : Nat) (s : Chunks α) :
    (readExact n s).1 = if n ≤ s.all.length then some (s.all.take n) else none :=
  (readLoop_spec n n s (Nat.le_refl n)).1

theorem readExact_snd (n : Nat) (s : Chunks α) : (readExact n s).2.all = s.all.drop n :=
  (readLoop_spec n n s (Nat.le_refl n)).2

theorem readExact_of_le {n : Nat} {s : Chunks α} (h : n ≤ s.all.length) :
    ∃ s', readExact n s = (some (s.all.take n), s') ∧ s'.all = s.all.drop n := by
  refine ⟨(readExact n s).2, Prod.ext ?_ rfl, readExact_snd n s⟩
  rw [readExact_fst, if_pos h]

theorem readExact_of_lt {n : Nat} {s : Chunks α} (h : s.all.length < n) :
    ∃ s', readExact n s = (none, s') ∧ s'.all = [] := by
  refine ⟨(readExact n s).2, Prod.ext ?_ rfl, ?_⟩
  · rw [readExact_fst, if_neg (Nat.not_le_of_lt h)]
  · rw [readExact_snd, List.drop_of_length_le (Nat.le_of_lt h)]

end Stream
