import AutoEth.Routes

/-!
# What encoding keeps of a value

`encode` stores a value as the nearest one that its signal can represent: no other raw value of the
type's range stands for a nearer physical value (`SignalDef.Valid.nearest`), whatever the sign of the
scale. `encode_decode_nearest` says this of all signals of a list, with the size of the encoding, what
decoding gives, and that encoding the decoded values gives the same bytes again.
-/

namespace AutoEth

namespace SignalDef

variable {s : SignalDef}

theorem abs_sub_phys (hscale : s.scale ≠ 0) (x : ℚ) (n : Int) :
    |x - s.phys n| = |(x - s.offset) / s.scale - n| * |s.scale| := by
  have hsplit : x - s.phys n = ((x - s.offset) / s.scale - n) * s.scale := by
    rw [phys_rat]
    field_simp
    ring
  rw [hsplit, abs_mul]

/-- No raw value of the range stands for a value nearer to the given one. -/
theorem Valid.nearest (h : s.Valid) (values : Dict String ℚ) {n : Int} (hlo : s.row.2.1 ≤ n)
    (hhi : n ≤ s.row.2.2) :
    |values.getD s.name s.default - s.phys (s.raw values)| ≤
      |values.getD s.name s.default - s.phys n| := by
  have hround := abs_sub_clamp_le ((values.getD s.name s.default - s.offset) / s.scale) hlo hhi
  rw [abs_sub_phys h.scale_ne, abs_sub_phys h.scale_ne]
  exact mul_le_mul_of_nonneg_right hround (abs_nonneg s.scale)

theorem Valid.phys_le_of_above (h : s.Valid) {values : Dict String ℚ}
    (habove : ∀ n, s.row.2.1 ≤ n → n ≤ s.row.2.2 → s.phys n < values.getD s.name s.default)
    {n : Int} (hlo : s.row.2.1 ≤ n) (hhi : n ≤ s.row.2.2) : s.phys n ≤ s.phys (s.raw values) := by
  have hraw := (s.fits_iff _).1 (s.fits_raw values)
  have hnear := h.nearest values hlo hhi
  have h₁ := habove _ hraw.1 hraw.2
  have h₂ := habove n hlo hhi
  rw [abs_of_pos (by linarith), abs_of_pos (by linarith)] at hnear
  linarith

theorem Valid.le_phys_of_below (h : s.Valid) {values : Dict String ℚ}
    (hbelow : ∀ n, s.row.2.1 ≤ n → n ≤ s.row.2.2 → values.getD s.name s.default < s.phys n)
    {n : Int} (hlo : s.row.2.1 ≤ n) (hhi : n ≤ s.row.2.2) : s.phys (s.raw values) ≤ s.phys n := by
  have hraw := (s.fits_iff _).1 (s.fits_raw values)
  have hnear := h.nearest values hlo hhi
  have h₁ := hbelow _ hraw.1 hraw.2
  have h₂ := hbelow n hlo hhi
  rw [abs_of_neg (by linarith), abs_of_neg (by linarith)] at hnear
  linarith

end SignalDef

/-- What `decode` gives back for one signal. -/
structure Quantized (s : SignalDef) (x y : ℚ) (lo hi raw : Int) : Prop where
  value_eq : y = s.offset + s.scale * raw
  lo_le : lo ≤ raw
  le_hi : raw ≤ hi
  nearest : ∀ n : Int, lo ≤ n → n ≤ hi → |x - y| ≤ |x - (s.offset + s.scale * n)|
  /-- Values beyond the range go to its nearer end. -/
  above : (∀ n : Int, lo ≤ n → n ≤ hi → s.offset + s.scale * n < x) →
    ∀ n : Int, lo ≤ n → n ≤ hi → s.offset + s.scale * n ≤ y
  below : (∀ n : Int, lo ≤ n → n ≤ hi → x < s.offset + s.scale * n) →
    ∀ n : Int, lo ≤ n → n ≤ hi → y ≤ s.offset + s.scale * n

theorem SignalDef.Valid.quantized {s : SignalDef} (h : s.Valid) (values : Dict String ℚ) :
    Quantized s (values.getD s.name s.default) (s.phys (s.raw values)) s.row.2.1 s.row.2.2
      (s.raw values) := by
  have hphys (n : Int) : s.offset + s.scale * n = s.phys n := by
    rw [SignalDef.phys_rat]
    ring
  have hraw := (s.fits_iff _).1 (s.fits_raw values)
  refine ⟨(hphys _).symm, hraw.1, hraw.2, ?_, ?_, ?_⟩
  all_goals simp only [hphys]
  · exact fun n hlo hhi => h.nearest values hlo hhi
  · exact fun habove n hlo hhi => h.phys_le_of_above habove hlo hhi
  · exact fun hbelow n hlo hhi => h.le_phys_of_below hbelow hlo hhi

theorem mem_keys_quantize {signals : List SignalDef} {values : Dict String ℚ} {k : String} :
    k ∈ (quantize signals values).keys ↔ k ∈ signals.map (·.name) := by
  rw [quantize, Dict.mem_keys_ofList, List.map_map]
  rfl

/-- Encoding and decoding the signal list of a message of an accepted catalog. -/
theorem encode_decode_nearest {cat : Catalog} {names : List String} {sigs : List SignalDef}
    (hcat : cat.validate = .ok ())
    (hsigs : (SignalIndex.fromSignals cat.signals).subset names = .ok sigs)
    (values : Dict String ℚ) :
    ∃ enc vals, encode sigs values = .ok enc ∧ encodedSize sigs = .ok enc.length ∧
      (∀ tail, decode sigs (enc ++ tail) = .ok vals) ∧
      (∀ k, k ∈ vals.keys ↔ k ∈ sigs.map (·.name)) ∧
      (∀ s ∈ sigs, ∃ code lo hi raw y, fmt s.type = .ok (code, lo, hi) ∧
        vals.get? s.name = some y ∧ Quantized s (values.getD s.name s.default) y lo hi raw) ∧
      encode sigs vals = .ok enc := by
  have hvalid := (Catalog.Valid.of_validate hcat).subset_valid hsigs
  have hone := SignalIndex.subset_oneEach hsigs
  refine ⟨encodedBytes sigs values, quantize sigs values, encode_eq hvalid values, ?_,
    decode_encodedBytes hvalid values, fun k => mem_keys_quantize, fun s hs => ?_, ?_⟩
  · rw [encodedSize_eq hvalid, length_encodedBytes]
  · exact ⟨_, _, _, _, _, (hvalid s hs).fmt_eq, get?_quantize hone hs values,
      (hvalid s hs).quantized values⟩
  · rw [encode_eq hvalid, encodedBytes_quantize hvalid hone]

theorem encode_decode_nearest_example :
    ∃ sigs enc vals, (SignalIndex.fromSignals exampleCatalog.signals).subset
        ["gear_position", "throttle_position", "gear_position"] = .ok sigs ∧
      encode sigs (Dict.ofList [("throttle_position", 999 / 2)]) = .ok enc ∧
      decode sigs (enc ++ [7]) = .ok vals ∧ encode sigs vals = .ok enc := by
  have hcat : exampleCatalog.validate = .ok () := by decide +kernel
  have hsigs := Except.eq_ok_get (x := (SignalIndex.fromSignals exampleCatalog.signals).subset
    ["gear_position", "throttle_position", "gear_position"]) (by decide +kernel)
  obtain ⟨enc, vals, henc, -, hdec, -, -, hagain⟩ :=
    encode_decode_nearest hcat hsigs (Dict.ofList [("throttle_position", 999 / 2)])
  exact ⟨_, enc, vals, hsigs, henc, hdec [7], hagain⟩

end AutoEth
