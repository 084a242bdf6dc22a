import AutoEth.Lib.Stream

/-!
# Units on a stream

A producer writes one unit behind the other, and a consumer takes one off the stream with each call of
`read`. `Reads read u r` says that a call takes the unit `u` off any stream that starts with it, comes
back with `r` and leaves what follows. However a stream of such units is cut into chunks, successive
calls come back with their results in order (`readN_flatMap`). Of a stream that is cut off behind `k`
elements the units that `arrived` whole stand in front, and behind them the cut one, if there is one
(`take_flatMap`); the calls read the former and leave the latter (`readN_take`).
-/

namespace Stream

variable {α β ρ : Type*}

/-- The results of `n` successive calls, and what they leave of the stream. -/
def readN (read : Chunks β → ρ × Chunks β) : Nat → Chunks β → List ρ × Chunks β
  | 0, s => ([], s)
  | n + 1, s =>
    let (r, s) := read s
    let (rs, s) := readN read n s
    (r :: rs, s)

def Reads (read : Chunks β → ρ × Chunks β) (u : List β) (r : ρ) : Prop :=
  ∀ (s : Chunks β) (rest : List β), s.all = u ++ rest → ∃ s', read s = (r, s') ∧ s'.all = rest

/-- The elements of `l` whose units lie within the first `k` elements of the stream. -/
def arrived (enc : α → List β) : Nat → List α → List α
  | _, [] => []
  | k, a :: l => if (enc a).length ≤ k then a :: arrived enc (k - (enc a).length) l else []

section
variable {read : Chunks β → ρ × Chunks β} {enc : α → List β} {res : α → ρ} {l : List α}

theorem readN_succ {n : Nat} {s s' : Chunks β} {r : ρ} (h : read s = (r, s')) :
    readN read (n + 1) s = (r :: (readN read n s').1, (readN read n s').2) := by
  simp only [readN, h]

theorem readN_add (m n : Nat) (s : Chunks β) :
    readN read (m + n) s =
      ((readN read m s).1 ++ (readN read n (readN read m s).2).1,
        (readN read n (readN read m s).2).2) := by
  induction m generalizing s with
  | zero => rw [Nat.zero_add]; rfl
  | succ m ih =>
    rcases h : read s with ⟨r, s'⟩
    rw [Nat.add_right_comm, readN_succ h, readN_succ h, ih]
    rfl

/-- Units are read in order, one a call. -/
theorem readN_flatMap (hread : ∀ a ∈ l, Reads read (enc a) (res a)) {s : Chunks β} {rest : List β}
    (hs : s.all = l.flatMap enc ++ rest) :
    ∃ s', readN read l.length s = (l.map res, s') ∧ s'.all = rest := by
  induction l generalizing s with
  | nil => exact ⟨s, rfl, hs⟩
  | cons a l ih =>
    rw [List.flatMap_cons, List.append_assoc] at hs
    obtain ⟨s₁, hfirst, hall⟩ := hread a (List.mem_cons_self ..) s _ hs
    obtain ⟨s₂, hothers, hrest⟩ := ih (fun b hb => hread b (List.mem_cons_of_mem _ hb)) hall
    refine ⟨s₂, ?_, hrest⟩
    rw [List.length_cons, readN_succ hfirst, hothers]
    rfl

/-! ### Streams that are cut off -/

theorem prefix_arrived (enc : α → List β) (k : Nat) (l : List α) : arrived enc k l <+: l := by
  induction l generalizing k with
  | nil => exact List.nil_prefix
  | cons a l ih =>
    rw [arrived]
    split_ifs
    · exact (List.prefix_cons_inj a).2 (ih _)
    · exact List.nil_prefix

/-- The units that arrived whole, and what stands behind them: nothing, or the beginning of a unit. -/
theorem take_flatMap (enc : α → List β) (k : Nat) (l : List α) :
    ∃ tail, (l.flatMap enc).take k = (arrived enc k l).flatMap enc ++ tail ∧
      (tail = [] ∨ ∃ a ∈ l, ∃ j < (enc a).length, tail = (enc a).take j) := by
  induction l generalizing k with
  | nil => exact ⟨[], by simp [arrived], .inl rfl⟩
  | cons a l ih =>
    rw [List.flatMap_cons, arrived]
    split_ifs with h
    · obtain ⟨tail, htake, htail⟩ := ih (k - (enc a).length)
      refine ⟨tail, ?_, ?_⟩
      · rw [List.take_append, List.take_of_length_le h, htake, List.flatMap_cons, List.append_assoc]
      · rcases htail with rfl | ⟨b, hb, hcut⟩
        · exact .inl rfl
        · exact .inr ⟨b, List.mem_cons_of_mem _ hb, hcut⟩
    · have hlt : k < (enc a).length := Nat.lt_of_not_le h
      refine ⟨(enc a).take k, ?_, .inr ⟨a, List.mem_cons_self .., k, hlt, rfl⟩⟩
      rw [List.take_append_of_le_length (Nat.le_of_lt hlt), List.flatMap_nil, List.nil_append]

theorem readN_take (hread : ∀ a ∈ l, Reads read (enc a) (res a)) {s : Chunks β} {k : Nat}
    (hs : s.all = (l.flatMap enc).take k) :
    ∃ s', readN read (arrived enc k l).length s = ((arrived enc k l).map res, s') ∧
      (s'.all = [] ∨ ∃ a ∈ l, ∃ j < (enc a).length, s'.all = (enc a).take j) := by
  obtain ⟨tail, htake, htail⟩ := take_flatMap enc k l
  have harrived : ∀ a ∈ arrived enc k l, Reads read (enc a) (res a) :=
    fun a ha => hread a ((prefix_arrived enc k l).subset ha)
  rw [htake] at hs
  obtain ⟨s', hreads, rfl⟩ := readN_flatMap harrived hs
  exact ⟨s', hreads, htail⟩

end

end Stream
