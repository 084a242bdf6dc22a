import Mathlib.Data.List.Nodup

/-!
# Insertion-ordered dictionaries

`Dict κ ν` is an association list without repeated keys. `set` overwrites the value of a key in
place and appends a new key at the end, so iterating over `entries` follows the order in which the
keys were first set. A dictionary is determined for a reader by `get?` (`get?_set`); `keys_set`
says which keys an update can add.
-/

/-- Set `k` to `v` in an association list: in place, or at the end. -/
def assocSet {κ ν : Type*} [DecidableEq κ] (k : κ) (v : ν) : List (κ × ν) → List (κ × ν)
  | [] => [(k, v)]
  | e :: es => if e.1 = k then (k, v) :: es else e :: assocSet k v es

structure Dict (κ ν : Type*) where
  entries : List (κ × ν)
  nodup : (entries.map Prod.fst).Nodup

namespace Dict

variable {κ ν : Type*}

def keys (d : Dict κ ν) : List κ := d.entries.map Prod.fst

def values (d : Dict κ ν) : List ν := d.entries.map Prod.snd

def empty : Dict κ ν := ⟨[], List.nodup_nil⟩

instance : EmptyCollection (Dict κ ν) := ⟨empty⟩

@[simp] theorem entries_empty : (∅ : Dict κ ν).entries = [] := rfl

@[simp] theorem keys_empty : (∅ : Dict κ ν).keys = [] := rfl

theorem eq_empty {d : Dict κ ν} (h : ∀ k, k ∉ d.keys) : d = ∅ := by
  obtain ⟨entries, nodup⟩ := d
  cases entries with
  | nil => rfl
  | cons e es => exact absurd (List.mem_cons_self ..) (h e.1)

variable [DecidableEq κ]

theorem map_fst_assocSet (k : κ) (v : ν) (l : List (κ × ν)) :
    (assocSet k v l).map Prod.fst =
      if k ∈ l.map Prod.fst then l.map Prod.fst else l.map Prod.fst ++ [k] := by
  induction l with
  | nil => simp [assocSet]
  | cons e es ih =>
    by_cases he : e.1 = k
    · simp [assocSet, he]
    · have hk : k ≠ e.1 := fun h => he h.symm
      simp only [assocSet, he, ↓reduceIte, List.map_cons, ih, List.mem_cons, hk, false_or]
      split <;> rfl

theorem lookup_assocSet (k k' : κ) (v : ν) (l : List (κ × ν)) :
    (assocSet k v l).lookup k' = if k' = k then some v else l.lookup k' := by
  induction l with
  | nil =>
    by_cases h : k' = k
    · simp [assocSet, h]
    · simp [assocSet, h, List.lookup_cons, beq_false_of_ne h]
  | cons e es ih =>
    obtain ⟨a, b⟩ := e
    by_cases ha : a = k
    · subst ha
      by_cases h : k' = a
      · simp [assocSet, h]
      · simp [assocSet, h, List.lookup_cons, beq_false_of_ne h]
    · by_cases h : k' = k
      · subst h
        have hne : (k' == a) = false := by simpa using fun h => ha h.symm
        simp only [assocSet, ha, ↓reduceIte, List.lookup_cons, hne, ih]
      · simp only [assocSet, ha, h, ↓reduceIte, List.lookup_cons, ih]

def get? (d : Dict κ ν) (k : κ) : Option ν := d.entries.lookup k

def getD (d : Dict κ ν) (k : κ) (v : ν) : ν := (d.get? k).getD v

def contains (d : Dict κ ν) (k : κ) : Bool := (d.get? k).isSome

def set (d : Dict κ ν) (k : κ) (v : ν) : Dict κ ν where
  entries := assocSet k v d.entries
  nodup := by
    rw [map_fst_assocSet]
    split
    · exact d.nodup
    · rename_i h
      exact List.nodup_append.2 ⟨d.nodup, List.nodup_singleton k, by
        rintro a ha b hb rfl; rw [List.mem_singleton] at hb; exact h (hb ▸ ha)⟩

/-- `d.pop(k)`, for what is left. -/
def erase (d : Dict κ ν) (k : κ) : Dict κ ν where
  entries := d.entries.filter fun e => e.1 ≠ k
  nodup := (List.filter_sublist.map Prod.fst).nodup d.nodup

/-- `d.update es` sets the entries of `es` one after another. -/
def update (d : Dict κ ν) (es : List (κ × ν)) : Dict κ ν :=
  es.foldl (fun d e => d.set e.1 e.2) d

/-- The dictionary a comprehension builds: later entries overwrite earlier ones. -/
def ofList (es : List (κ × ν)) : Dict κ ν := empty.update es

theorem get?_set (d : Dict κ ν) (k k' : κ) (v : ν) :
    (d.set k v).get? k' = if k' = k then some v else d.get? k' :=
  lookup_assocSet k k' v d.entries

@[simp] theorem get?_set_self (d : Dict κ ν) (k : κ) (v : ν) : (d.set k v).get? k = some v := by
  rw [get?_set, if_pos rfl]

theorem get?_set_ne (d : Dict κ ν) {k k' : κ} (v : ν) (h : k' ≠ k) :
    (d.set k v).get? k' = d.get? k' := by
  rw [get?_set, if_neg h]

theorem keys_set (d : Dict κ ν) (k : κ) (v : ν) :
    (d.set k v).keys = if k ∈ d.keys then d.keys else d.keys ++ [k] :=
  map_fst_assocSet k v d.entries

theorem mem_keys_set (d : Dict κ ν) (k k' : κ) (v : ν) :
    k' ∈ (d.set k v).keys ↔ k' = k ∨ k' ∈ d.keys := by
  rw [keys_set]
  split
  · rename_i h
    exact ⟨Or.inr, fun h' => h'.elim (fun e => e ▸ h) id⟩
  · simp [or_comm]

theorem mem_keys_erase {d : Dict κ ν} {k k' : κ} : k' ∈ (d.erase k).keys ↔ k' ∈ d.keys ∧ k' ≠ k := by
  simp only [keys, erase, List.mem_map, List.mem_filter, decide_eq_true_eq]
  constructor
  · rintro ⟨e, ⟨he, hne⟩, rfl⟩
    exact ⟨⟨e, he, rfl⟩, hne⟩
  · rintro ⟨⟨e, he, rfl⟩, hne⟩
    exact ⟨e, ⟨he, hne⟩, rfl⟩

theorem get?_erase (d : Dict κ ν) (k k' : κ) : (d.erase k).get? k' = if k' = k then none else d.get? k' := by
  unfold get? erase
  dsimp only
  induction d.entries with
  | nil => simp
  | cons e es ih =>
    obtain ⟨a, b⟩ := e
    by_cases ha : a = k
    · subst ha
      rw [List.filter_cons_of_neg (by simp), ih]
      split_ifs with h
      · rfl
      · rw [List.lookup_cons, beq_false_of_ne h]
    · rw [List.filter_cons_of_pos (by simpa using ha), List.lookup_cons, List.lookup_cons, ih]
      split_ifs with h
      · subst h
        rw [beq_false_of_ne (Ne.symm ha)]
      · rfl

theorem get?_isSome {d : Dict κ ν} {k : κ} : (d.get? k).isSome ↔ k ∈ d.keys := by
  rw [get?, List.lookup_isSome_iff, keys]
  simp only [beq_iff_eq, List.mem_map]
  exact ⟨fun ⟨e, he, h⟩ => ⟨e, he, h.symm⟩, fun ⟨e, he, h⟩ => ⟨e, he, h.symm⟩⟩

theorem get?_eq_none {d : Dict κ ν} {k : κ} : d.get? k = none ↔ k ∉ d.keys := by
  rw [← get?_isSome]; simp

theorem mem_entries_of_get? {d : Dict κ ν} {k : κ} {v : ν} (h : d.get? k = some v) :
    (k, v) ∈ d.entries := by
  rw [get?, List.lookup_eq_some_iff] at h
  obtain ⟨l₁, l₂, hl, -⟩ := h
  rw [hl]; simp

theorem get?_of_mem_entries {d : Dict κ ν} {k : κ} {v : ν} (h : (k, v) ∈ d.entries) :
    d.get? k = some v := by
  obtain ⟨l₁, l₂, hl⟩ := List.append_of_mem h
  rw [get?, List.lookup_eq_some_iff]
  refine ⟨l₁, l₂, hl, fun p hp => ?_⟩
  have hn := d.nodup
  rw [hl, List.map_append, List.nodup_append] at hn
  simpa using (hn.2.2 p.1 (List.mem_map_of_mem hp) k (by simp)).symm

theorem mem_values_of_get? {d : Dict κ ν} {k : κ} {v : ν} (h : d.get? k = some v) : v ∈ d.values :=
  List.mem_map.2 ⟨_, mem_entries_of_get? h, rfl⟩

theorem entries_set_of_not_mem {d : Dict κ ν} {k : κ} (v : ν) (h : k ∉ d.keys) :
    (d.set k v).entries = d.entries ++ [(k, v)] := by
  show assocSet k v d.entries = _
  revert h
  unfold keys
  induction d.entries with
  | nil => intro _; rfl
  | cons e es ih =>
    intro h
    rw [List.map_cons, List.mem_cons, not_or] at h
    rw [assocSet, if_neg (Ne.symm h.1), ih h.2, List.cons_append]

@[simp] theorem update_nil (d : Dict κ ν) : d.update [] = d := rfl

@[simp] theorem update_cons (d : Dict κ ν) (e : κ × ν) (es : List (κ × ν)) :
    d.update (e :: es) = (d.set e.1 e.2).update es := rfl

theorem keys_foldl_set_of_contains (es : List (κ × ν)) (d : Dict κ ν) :
    (es.foldl (fun d e => if d.contains e.1 then d.set e.1 e.2 else d) d).keys = d.keys := by
  induction es generalizing d with
  | nil => rfl
  | cons e es ih =>
    rw [List.foldl_cons, ih]
    split_ifs with hcontains
    · rw [keys_set, if_pos (get?_isSome.1 hcontains)]
    · rfl

theorem foldl_set_of_contains {es : List (κ × ν)} {d : Dict κ ν} (h : ∀ e ∈ es, e.1 ∈ d.keys) :
    es.foldl (fun d e => if d.contains e.1 then d.set e.1 e.2 else d) d = d.update es := by
  induction es generalizing d with
  | nil => rfl
  | cons e es ih =>
    have hcontains : d.contains e.1 = true := get?_isSome.2 (h e (List.mem_cons_self ..))
    rw [List.foldl_cons, if_pos hcontains, update_cons]
    refine ih fun e' he' => ?_
    rw [mem_keys_set]
    exact .inr (h e' (List.mem_cons_of_mem _ he'))

theorem get?_update_of_not_mem {d : Dict κ ν} {es : List (κ × ν)} {k : κ}
    (h : k ∉ es.map Prod.fst) : (d.update es).get? k = d.get? k := by
  induction es generalizing d with
  | nil => rfl
  | cons e es ih =>
    rw [List.map_cons, List.mem_cons, not_or] at h
    rw [update_cons, ih h.2, get?_set_ne _ _ h.1]

theorem get?_update_of_agree {d : Dict κ ν} {es : List (κ × ν)} {k : κ} {v : ν}
    (hk : k ∈ es.map Prod.fst) (hv : ∀ e ∈ es, e.1 = k → e.2 = v) :
    (d.update es).get? k = some v := by
  induction es generalizing d with
  | nil => simp at hk
  | cons e es ih =>
    rw [update_cons]
    by_cases h : k ∈ es.map Prod.fst
    · exact ih h fun e' he' => hv e' (List.mem_cons_of_mem _ he')
    · have hek : e.1 = k := by
        rw [List.map_cons, List.mem_cons] at hk
        exact (hk.resolve_right h).symm
      rw [get?_update_of_not_mem h, hek, get?_set_self, hv e (List.mem_cons_self ..) hek]

theorem mem_keys_update {d : Dict κ ν} {es : List (κ × ν)} {k : κ} :
    k ∈ (d.update es).keys ↔ k ∈ d.keys ∨ k ∈ es.map Prod.fst := by
  induction es generalizing d with
  | nil => simp
  | cons e es ih =>
    rw [update_cons, ih, mem_keys_set, List.map_cons, List.mem_cons]
    tauto

theorem get?_ofList_of_agree {es : List (κ × ν)} {k : κ} {v : ν}
    (hk : k ∈ es.map Prod.fst) (hv : ∀ e ∈ es, e.1 = k → e.2 = v) :
    (ofList es).get? k = some v :=
  get?_update_of_agree hk hv

theorem get?_ofList_map {ι : Type*} {l : List ι} {key : ι → κ} {val : ι → ν} {i : ι} (hi : i ∈ l)
    (hagree : ∀ j ∈ l, key j = key i → val j = val i) :
    (ofList (l.map fun j => (key j, val j))).get? (key i) = some (val i) := by
  refine get?_ofList_of_agree ?_ ?_
  · exact List.mem_map.2 ⟨_, List.mem_map_of_mem hi, rfl⟩
  · rintro e he hkey
    obtain ⟨j, hj, rfl⟩ := List.mem_map.1 he
    exact hagree j hj hkey

theorem mem_keys_ofList {es : List (κ × ν)} {k : κ} : k ∈ (ofList es).keys ↔ k ∈ es.map Prod.fst := by
  rw [ofList, mem_keys_update]
  exact or_iff_right List.not_mem_nil

theorem mem_of_get?_update {d : Dict κ ν} {es : List (κ × ν)} {k : κ} {v : ν}
    (h : (d.update es).get? k = some v) : (k, v) ∈ es ∨ d.get? k = some v := by
  induction es generalizing d with
  | nil => exact .inr h
  | cons e es ih =>
    rcases ih h with h | h
    · exact .inl (List.mem_cons_of_mem _ h)
    · rw [get?_set] at h
      split at h
      · rename_i hk
        cases h
        exact .inl (by rw [hk]; exact List.mem_cons_self ..)
      · exact .inr h

theorem mem_of_get?_ofList {es : List (κ × ν)} {k : κ} {v : ν} (h : (ofList es).get? k = some v) :
    (k, v) ∈ es :=
  (mem_of_get?_update h).resolve_right (by simp [empty, get?])

/-- Writing a dictionary over another: its own keys win, the others stay. -/
theorem get?_update_entries (d d' : Dict κ ν) (k : κ) :
    (d.update d'.entries).get? k = (d'.get? k).or (d.get? k) := by
  by_cases hk : k ∈ d'.keys
  · obtain ⟨v, hv⟩ := Option.isSome_iff_exists.1 (get?_isSome.2 hk)
    rw [hv, Option.some_or]
    refine get?_update_of_agree hk fun e he hek => ?_
    have := get?_of_mem_entries (show (e.1, e.2) ∈ d'.entries from he)
    rw [hek, hv] at this
    exact (Option.some.inj this).symm
  · rw [get?_eq_none.2 hk, Option.none_or, get?_update_of_not_mem hk]

end Dict
