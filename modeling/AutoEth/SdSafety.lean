import AutoEth.SdRoundTrip

/-!
# Any bytes

The listener calls the parser on whatever arrives, with no handler around the call.
`parseSdMessage_safe`: the parser returns on every byte string, the loop over the options moves on at
every turn, and the entries of a message that it returns fit the wire format (`SdEntry.Fits`), so that
each of them is built and read back as it is.
-/

namespace AutoEth
open BigEndian (field)

theorem fitsBits_field (data : Bytes) (off w : Nat) : FitsBits (8 * w) (field data off w) := by
  have hlt := BigEndian.field_lt data off w
  refine ⟨by positivity, ?_⟩
  rw [pow_mul]
  exact_mod_cast hlt

theorem FitsBits.natCast_mod (n w : Nat) : FitsBits w (n % 2 ^ w : Nat) := by
  refine ⟨by positivity, ?_⟩
  exact_mod_cast Nat.mod_lt n (by positivity)

/-! ### Options -/

theorem parseOption_fits {data : Bytes} {off next : Nat} {o : SdOption}
    (h : parseOption data off = .ok (some o, next)) : o.Fits := by
  have hport := fitsBits_field data (off + 10) 2
  have hl4 := fitsBits_field data (off + 9) 1
  have haddr : Inet.Canonical (u32ToIp (field data (off + 4) 4)) := by
    refine ⟨field data (off + 4) 4, ?_, rfl⟩
    simpa using BigEndian.field_lt data (off + 4) 4
  unfold parseOption at h
  split at h
  · cases h
  · obtain ⟨_, -, h⟩ := Except.bind_eq_ok.1 h
    obtain ⟨optType, -, h⟩ := Except.bind_eq_ok.1 h
    dsimp only at h
    split_ifs at h
    · cases h
    · obtain ⟨_, -, h⟩ := Except.bind_eq_ok.1 h
      cases h
      exact ⟨haddr, hport, hl4⟩
    · obtain ⟨_, -, h⟩ := Except.bind_eq_ok.1 h
      cases h
      exact ⟨haddr, hport⟩
    · cases h

/-- Every turn of the loop over the options moves on, whatever the option's length field says. -/
theorem optionsLoop_again {data : Bytes} {pos : Nat} (hpos : pos < data.length) (opts : List (Option SdOption)) :
    ∃ opt next, (optionsLoop data).step (pos, opts) = .again (next, opts ++ [opt]) ∧ pos < next := by
  obtain ⟨⟨opt, next⟩, hopt⟩ := exists_parseOption data pos
  refine ⟨opt, next, ?_, parseOption_lt hpos hopt⟩
  simp only [optionsLoop]
  rw [if_neg (Nat.not_le_of_lt hpos), hopt]

theorem parseOptions_fits {data : Bytes} {opts : List (Option SdOption)} (h : parseOptions data = .ok opts) :
    ∀ o, some o ∈ opts → o.Fits := by
  refine (optionsLoop data).result_inv (I := fun s => ∀ o, some o ∈ s.2 → o.Fits)
    (R := fun t => ∀ opts, t = .ok opts → ∀ o, some o ∈ opts → o.Fits) ?_ ?_ (0, []) ?_ opts h
  · intro s s' hs hstep
    simp only [optionsLoop] at hstep
    split at hstep
    · cases hstep
    · split at hstep
      · cases hstep
      · rename_i opt next hopt
        cases hstep
        intro o ho
        rcases List.mem_append.1 ho with ho | ho
        · exact hs o ho
        · rw [← List.mem_singleton.1 ho] at hopt
          exact parseOption_fits hopt
  · intro s t hs hstep opts hopts
    simp only [optionsLoop] at hstep
    split at hstep
    · cases hstep
      cases hopts
      exact hs
    · split at hstep
      · cases hstep
        cases hopts
      · cases hstep
  · simp

/-! ### Entries -/

theorem length_entryOptions_le (opts : List (Option SdOption)) (idx n : Nat) :
    (entryOptions opts idx n).length ≤ n :=
  (List.length_filterMap_le ..).trans (le_of_eq List.length_range')

theorem some_mem_of_mem_entryOptions {opts : List (Option SdOption)} {idx n : Nat} {o : SdOption}
    (h : o ∈ entryOptions opts idx n) : some o ∈ opts := by
  rw [entryOptions_eq] at h
  obtain ⟨o', ho', rfl⟩ := List.mem_filterMap.1 h
  exact List.mem_of_mem_drop (List.mem_of_mem_take ho')

theorem parseEntry_fits {opts : List (Option SdOption)} (hopts : ∀ o, some o ∈ opts → o.Fits) {data : Bytes}
    {off : Nat} {e : SdEntry} (h : parseEntry opts data off = .ok (some e)) : e.Fits := by
  have hcount := length_entryOptions_le opts (field data (off + 1) 1) (field data (off + 3) 1 / 16 % 16)
  have hfits : ∀ o ∈ entryOptions opts (field data (off + 1) 1) (field data (off + 3) 1 / 16 % 16), o.Fits :=
    fun o ho => hopts o (some_mem_of_mem_entryOptions ho)
  obtain ⟨_, -, h⟩ := Except.bind_eq_ok.1 h
  dsimp only at h
  split_ifs at h with hservice heventgroup
  · cases h
    refine ⟨⟨hservice, ?_, ?_, ?_, ?_, ?_⟩, hfits, by dsimp only [SdEntry.options]; omega⟩
    all_goals exact fitsBits_field ..
  · cases h
    refine ⟨⟨heventgroup, ?_, ?_, ?_, .natCast_mod _ 16, .natCast_mod _ 4, ?_⟩, hfits,
      by dsimp only [SdEntry.options]; omega⟩
    all_goals exact fitsBits_field ..
  · cases h

theorem parseEntries_fits {opts : List (Option SdOption)} (hopts : ∀ o, some o ∈ opts → o.Fits) {data : Bytes}
    {entries : List SdEntry} (h : parseEntries opts data = .ok entries) :
    16 * entries.length ≤ data.length ∧ ∀ e ∈ entries, e.Fits := by
  refine (entriesLoop opts data).result_inv
    (I := fun s => 16 * s.2.length ≤ s.1 ∧ 16 * s.2.length ≤ data.length ∧ ∀ e ∈ s.2, e.Fits)
    (R := fun t => ∀ es, t = .ok es → 16 * es.length ≤ data.length ∧ ∀ e ∈ es, e.Fits)
    ?_ ?_ (0, []) ?_ entries h
  · rintro s s' ⟨hpos, hlen, hs⟩ hstep
    simp only [entriesLoop] at hstep
    split at hstep
    · cases hstep
    · rename_i hmore
      split at hstep
      · cases hstep
      · rename_i entry hentry
        cases hstep
        have htoList : entry.toList.length ≤ 1 := by cases entry <;> simp
        unfold entrySize at hmore ⊢
        rw [List.length_append]
        refine ⟨by omega, by omega, fun e he => ?_⟩
        rcases List.mem_append.1 he with he | he
        · exact hs e he
        · rw [Option.mem_toList] at he
          subst he
          exact parseEntry_fits hopts hentry
  · rintro s t ⟨-, hlen, hs⟩ hstep es hes
    simp only [entriesLoop] at hstep
    split at hstep
    · cases hstep
      cases hes
      exact ⟨hlen, hs⟩
    · split at hstep
      · cases hstep
        cases hes
      · cases hstep
  · simp

/-! ### Messages -/

theorem parseSdMessage_fits {data : Bytes} {msg : SdMessage} (h : parseSdMessage data = .ok (some msg)) :
    28 + 16 * msg.entries.length ≤ data.length ∧ ∀ e ∈ msg.entries, e.Fits := by
  rw [parseSdMessage_eq] at h
  split_ifs at h with hpasses
  swap
  · cases h
  obtain ⟨opts, hopts, h⟩ := Except.bind_eq_ok.1 h
  obtain ⟨entries, hentries, h⟩ := Except.bind_eq_ok.1 h
  cases h
  obtain ⟨hlen, hfits⟩ := parseEntries_fits (parseOptions_fits hopts) hentries
  have hle := hpasses.length_le
  have hdata : (Sd.entriesData data).length ≤ Sd.entriesLength data := List.length_take_le ..
  exact ⟨by dsimp only; omega, hfits⟩

theorem entriesOnWire_withOptions {all : List SdOption} {start : Nat} {entries : List SdEntry}
    (h : ∀ e ∈ entries, e.Fits) :
    (entriesOnWire all start entries).map (SdEntry.withOptions []) = entries.map (SdEntry.withOptions []) := by
  induction entries generalizing start with
  | nil => rfl
  | cons e es ih =>
    have he := (h e (List.mem_cons_self ..)).fields.onWire_eq all start
    rw [entriesOnWire, List.map_cons, List.map_cons, ih fun e' he' => h e' (List.mem_cons_of_mem _ he'), he]
    cases e <;> rfl

theorem SdEntry.Fits.roundTrip {e : SdEntry} (h : e.Fits) (sessionId flags : Int) :
    ∃ data, buildSdMessage sessionId [e] flags = .ok data ∧
      parseSdMessage data = .ok (some ⟨sessionId % 2 ^ 16, flags % 2 ^ 8, [e]⟩) := by
  have hcount := h.count
  have hopts : [e].flatMap SdEntry.options = e.options := List.flatMap_singleton ..
  have hbuilds : ∃ data, buildSdMessage sessionId [e] flags = .ok data := by
    refine exists_buildSdMessage ?_ ?_
    · rw [hopts]
      exact fun o ho => (h.options o ho).packOption_ok
    · rw [hopts, List.length_singleton]
      omega
  obtain ⟨data, hdata⟩ := hbuilds
  have hfits : ∀ e' ∈ [e], e'.Fits := by
    rintro e' he'
    rw [List.mem_singleton.1 he']
    exact h
  have hwire : entriesOnWire ([e].flatMap SdEntry.options) 0 [e] = [e] := by
    refine @entriesOnWire_eq [] [e] hfits (.of_length ?_)
    rw [List.nil_append, hopts]
    omega
  refine ⟨data, hdata, ?_⟩
  rw [parseSdMessage_build hdata fun e' he' => (hfits e' he').typeOk, hwire]

/-- The parser is safe on every input. -/
theorem parseSdMessage_safe (data : Bytes) :
    (∃ msg, parseSdMessage data = .ok msg) ∧
    (∀ (optsData : Bytes) (pos : Nat), pos < optsData.length → ∀ opts, ∃ opt next,
      (optionsLoop optsData).step (pos, opts) = .again (next, opts ++ [opt]) ∧ pos < next) ∧
    ∀ msg, parseSdMessage data = .ok (some msg) →
      28 + 16 * msg.entries.length ≤ data.length ∧
      (∀ e ∈ msg.entries, e.Fits ∧ ∀ sessionId flags, ∃ data', buildSdMessage sessionId [e] flags = .ok data' ∧
        parseSdMessage data' = .ok (some ⟨sessionId % 2 ^ 16, flags % 2 ^ 8, [e]⟩)) ∧
      ∀ sessionId flags,
        ((∃ data', buildSdMessage sessionId msg.entries flags = .ok data') ↔
          20 + 16 * msg.entries.length + 12 * (msg.entries.flatMap SdEntry.options).length < 2 ^ 32) ∧
        ∀ data', buildSdMessage sessionId msg.entries flags = .ok data' → ∃ entries,
          parseSdMessage data' = .ok (some ⟨sessionId % 2 ^ 16, flags % 2 ^ 8, entries⟩) ∧
          entries.map (SdEntry.withOptions []) = msg.entries.map (SdEntry.withOptions []) := by
  refine ⟨exists_parseSdMessage data, fun optsData pos hpos opts => optionsLoop_again hpos opts, ?_⟩
  intro msg hmsg
  obtain ⟨hlen, hfits⟩ := parseSdMessage_fits hmsg
  refine ⟨hlen, fun e he => ⟨hfits e he, (hfits e he).roundTrip⟩, fun sessionId flags => ⟨⟨?_, ?_⟩, ?_⟩⟩
  · rintro ⟨data', hdata'⟩
    exact buildSdMessage_size hdata'
  · refine exists_buildSdMessage fun o ho => ?_
    obtain ⟨e, he, ho⟩ := List.mem_flatMap.1 ho
    exact ((hfits e he).options o ho).packOption_ok
  · intro data' hdata'
    exact ⟨_, parseSdMessage_build hdata' fun e he => (hfits e he).typeOk, entriesOnWire_withOptions hfits⟩

end AutoEth
