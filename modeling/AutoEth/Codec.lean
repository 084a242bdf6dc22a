import AutoEth.Config
import AutoEth.Lib.BigEndian
import AutoEth.Lib.Round
import Mathlib.Algebra.Order.Floor.Semiring
import Mathlib.Data.Rat.Floor
import Mathlib.Tactic.FieldSimp

/-!
# The signal codec

`encode` packs the values of a signal list one after another, `decode` reads them back into a
dictionary keyed by name, and `SignalIndex.subset` makes the signal list of a message. For signals
that passed validation `decode` succeeds exactly on payloads of at least `sizeOf` bytes (`decode_eq`),
and `encode` exactly on maps in which no value is infinitely many steps of its scale away
(`exists_encode_iff`). In exact arithmetic `encode` does not raise: it gives `encodedBytes`. Decoding
an encoded map gives `quantize`, and encoding that again gives the same bytes when a name stands for
one signal (`encodedBytes_quantize`).
-/

namespace AutoEth
open BigEndian (encodeInt signed length_encodeInt signed_decode_encodeInt decode_encodeInt_of_mem)

variable {V : Type}

/-! ### Struct formats -/

/-- The integer format codes of `struct`. -/
inductive Code where
  | B | b | H | h | I | i
deriving DecidableEq

namespace Code

/-- `struct.calcsize`. -/
def size : Code → Nat
  | B | b => 1
  | H | h => 2
  | I | i => 4

def isSigned : Code → Bool
  | B | H | I => false
  | b | h | i => true

/-- The integers that `struct.pack` takes. -/
def Fits (c : Code) (x : Int) : Prop :=
  if c.isSigned then -(256 ^ c.size) ≤ 2 * x ∧ 2 * x < 256 ^ c.size else 0 ≤ x ∧ x < 256 ^ c.size

instance (c : Code) (x : Int) : Decidable (c.Fits x) := by unfold Fits; infer_instance

def pack (c : Code) (x : Int) : Except PyErr Bytes :=
  if c.Fits x then .ok (encodeInt c.size x) else .error (.structError "argument out of range")

def unpack (c : Code) (bs : Bytes) : Int :=
  if c.isSigned then signed c.size (BigEndian.decode bs) else BigEndian.decode bs

theorem unpack_encodeInt {c : Code} {x : Int} (h : c.Fits x) : c.unpack (encodeInt c.size x) = x := by
  unfold Fits at h
  unfold unpack
  cases hc : c.isSigned
  · rw [hc, if_neg (by decide)] at h
    exact decode_encodeInt_of_mem h.1 h.2
  · rw [hc, if_pos rfl] at h
    exact signed_decode_encodeInt h.1 h.2

theorem fits_unpack {c : Code} {bs : Bytes} (h : bs.length = c.size) : c.Fits (c.unpack bs) := by
  unfold Fits unpack
  rw [← h]
  cases c.isSigned
  · simp only [Bool.false_eq_true, if_false]
    exact ⟨by positivity, by exact_mod_cast BigEndian.decode_lt bs⟩
  · exact BigEndian.signed_decode_mem bs

theorem encodeInt_unpack {c : Code} {bs : Bytes} (h : bs.length = c.size) :
    encodeInt c.size (c.unpack bs) = bs := by
  unfold unpack
  rw [← h]
  cases c.isSigned
  · exact BigEndian.encodeInt_decode bs
  · exact BigEndian.encodeInt_signed bs

end Code

/-- `_FMT`: the format of a signal type and its range. -/
def fmtTable : List (String × Code × Int × Int) :=
  [("u8", .B, 0, 255), ("i8", .b, -128, 127), ("u16", .H, 0, 65535), ("i16", .h, -32768, 32767),
    ("u32", .I, 0, 4294967295), ("i32", .i, -2147483648, 2147483647)]

def fmt (sigType : String) : Except PyErr (Code × Int × Int) :=
  match fmtTable.lookup sigType with
  | some r => .ok r
  | none => .error (.valueError s!"unsupported signal type: {sigType}")

/-! ### Encoding and decoding -/

namespace SignalDef

/-- `(phys - float(s.offset)) / float(s.scale)`. -/
def steps [FloatArith V] (s : SignalDef V) (phys : V) : V :=
  FloatArith.div (FloatArith.sub phys s.offset) s.scale

/-- `(float(raw) * float(s.scale)) + float(s.offset)`: the physical value of a raw value. -/
def phys [FloatArith V] (s : SignalDef V) (raw : Int) : V :=
  FloatArith.add (FloatArith.mul (FloatArith.ofInt raw) s.scale) s.offset

end SignalDef

def encodeSignal [FloatArith V] (values : Dict String V) (s : SignalDef V) : Except PyErr Bytes := do
  let (code, lo, hi) ← fmt s.type
  let phys := values.getD s.name s.default
  raiseIf (FloatArith.isZero s.scale = true) (.zeroDivisionError "float division by zero")
  code.pack (clamp lo hi (← FloatArith.roundInt (s.steps phys)))

def encode [FloatArith V] (signals : List (SignalDef V)) (values : Dict String V) : Except PyErr Bytes := do
  return (← signals.mapM (encodeSignal values)).flatten

def decodeFrom [FloatArith V] (payload : Bytes) : List (SignalDef V) → Nat → Dict String V →
    Except PyErr (Dict String V)
  | [], _, res => .ok res
  | s :: signals, off, res => do
    let (code, _, _) ← fmt s.type
    raiseIf (payload.length < off + code.size) (.valueError "payload too short for signal list")
    let raw := code.unpack ((payload.drop off).take code.size)
    decodeFrom payload signals (off + code.size) (res.set s.name (s.phys raw))

def decode [FloatArith V] (signals : List (SignalDef V)) (payload : Bytes) : Except PyErr (Dict String V) :=
  decodeFrom payload signals 0 ∅

def encodedSize (signals : List (SignalDef V)) : Except PyErr Nat := do
  return (← signals.mapM fun s => do return (← fmt s.type).1.size).sum

/-! ### The signal index -/

structure SignalIndex (V : Type := ℚ) where
  byName : Dict String (SignalDef V)

namespace SignalIndex

def fromSignals (signals : List (SignalDef V)) : SignalIndex V :=
  ⟨Dict.ofList (signals.map fun s => (s.name, s))⟩

def subset (idx : SignalIndex V) (names : List String) : Except PyErr (List (SignalDef V)) :=
  names.mapM fun n =>
    match idx.byName.get? n with
    | some s => .ok s
    | none => .error (.keyError s!"signal not found in catalog: {n}")

end SignalIndex

/-! ### Signals that passed validation -/

namespace SignalDef

/-- The row of the format table for the signal's type. -/
def row (s : SignalDef V) : Code × Int × Int := (fmtTable.lookup s.type).getD (.B, 0, 255)

def size (s : SignalDef V) : Nat := s.row.1.size

/-- The raw value of a physical value. -/
def rawOf (s : SignalDef) (v : ℚ) : Int :=
  clamp s.row.2.1 s.row.2.2 (roundHalfEven ((v - s.offset) / s.scale))

/-- The raw value that is packed for a map of physical values. -/
def raw (s : SignalDef) (values : Dict String ℚ) : Int := s.rawOf (values.getD s.name s.default)

/-- In exact arithmetic. -/
theorem phys_rat (s : SignalDef) (raw : Int) : s.phys raw = raw * s.scale + s.offset := rfl

/-- What `decode` reads for the signal at an offset. -/
def reading [FloatArith V] (s : SignalDef V) (payload : Bytes) (off : Nat) : V :=
  s.phys (s.row.1.unpack ((payload.drop off).take s.size))

/-- The value that a map has for the signal is a finite number of steps away from the offset. -/
def Encodes [FloatArith V] (s : SignalDef V) (values : Dict String V) : Prop :=
  ∃ n, FloatArith.roundInt (s.steps (values.getD s.name s.default)) = .ok n

theorem fmt_eq {s : SignalDef V} (h : s.type ∈ allowedTypes) : fmt s.type = .ok s.row := by
  have hmem : s.type ∈ fmtTable.map Prod.fst := h
  have hsome : (fmtTable.lookup s.type).isSome := by
    rw [List.lookup_isSome_iff]
    obtain ⟨p, hp, he⟩ := List.mem_map.1 hmem
    exact ⟨p, hp, by simp [he]⟩
  obtain ⟨r, hr⟩ := Option.isSome_iff_exists.1 hsome
  simp only [fmt, row, hr, Option.getD_some]

theorem Valid.fmt_eq [FloatArith V] {s : SignalDef V} (h : s.Valid) : fmt s.type = .ok s.row :=
  SignalDef.fmt_eq h.1

theorem row_mem (s : SignalDef V) : ∃ t, (t, s.row) ∈ fmtTable := by
  unfold row
  cases h : fmtTable.lookup s.type with
  | none => exact ⟨"u8", by decide⟩
  | some r =>
    obtain ⟨l₁, l₂, hl, -⟩ := List.lookup_eq_some_iff.1 h
    exact ⟨s.type, by rw [hl]; simp⟩

/-- The range of a type is the range of its struct format. -/
theorem fits_iff (s : SignalDef V) (x : Int) : s.row.1.Fits x ↔ s.row.2.1 ≤ x ∧ x ≤ s.row.2.2 := by
  obtain ⟨t, ht⟩ := s.row_mem
  generalize s.row = r at ht ⊢
  simp only [fmtTable, List.mem_cons, Prod.mk.injEq, List.not_mem_nil, or_false] at ht
  rcases ht with ⟨-, rfl⟩ | ⟨-, rfl⟩ | ⟨-, rfl⟩ | ⟨-, rfl⟩ | ⟨-, rfl⟩ | ⟨-, rfl⟩ <;>
    simp only [Code.Fits, Code.isSigned, Code.size] <;> norm_num <;> omega

theorem lo_le_hi (s : SignalDef V) : s.row.2.1 ≤ s.row.2.2 := by
  obtain ⟨t, ht⟩ := s.row_mem
  generalize s.row = r at ht ⊢
  simp only [fmtTable, List.mem_cons, Prod.mk.injEq, List.not_mem_nil, or_false] at ht
  rcases ht with ⟨-, rfl⟩ | ⟨-, rfl⟩ | ⟨-, rfl⟩ | ⟨-, rfl⟩ | ⟨-, rfl⟩ | ⟨-, rfl⟩ <;> decide

theorem fits_clamp (s : SignalDef V) (n : Int) : s.row.1.Fits (clamp s.row.2.1 s.row.2.2 n) :=
  (s.fits_iff _).2 ⟨le_clamp _ s.lo_le_hi, clamp_le _⟩

theorem fits_raw (s : SignalDef) (values : Dict String ℚ) : s.row.1.Fits (s.raw values) := s.fits_clamp _

theorem Valid.encodeSignal_eq_bind [FloatArith V] {s : SignalDef V} (h : s.Valid) (values : Dict String V) :
    encodeSignal values s = (FloatArith.roundInt (s.steps (values.getD s.name s.default))).bind fun n =>
      .ok (encodeInt s.size (clamp s.row.2.1 s.row.2.2 n)) := by
  simp only [encodeSignal, h.fmt_eq, Except.ok_bind, raiseIf, h.2, Bool.false_eq_true, if_false]
  cases FloatArith.roundInt (s.steps (values.getD s.name s.default)) with
  | error e => rfl
  | ok n => exact if_pos (s.fits_clamp n)

theorem Valid.encodeSignal_eq {s : SignalDef} (h : s.Valid) (values : Dict String ℚ) :
    encodeSignal values s = .ok (encodeInt s.size (s.raw values)) :=
  h.encodeSignal_eq_bind values

/-- A value that stands for a raw value of the range is encoded as that raw value. -/
theorem Valid.raw_of_phys {s : SignalDef} (h : s.Valid) {values : Dict String ℚ} {x : Int}
    (hx : s.row.1.Fits x) (hv : values.get? s.name = some (s.phys x)) : s.raw values = x := by
  have hs : s.scale ≠ 0 := h.scale_ne
  rw [s.fits_iff] at hx
  unfold raw rawOf Dict.getD
  rw [hv, Option.getD_some, phys_rat, add_sub_cancel_right, mul_div_assoc, div_self hs, mul_one,
    roundHalfEven_intCast]
  exact clamp_of_mem hx.1 hx.2

theorem reading_encodeInt [FloatArith V] (s : SignalDef V) (a b : Bytes) {x : Int} (hx : s.row.1.Fits x) :
    s.reading (a ++ (encodeInt s.size x ++ b)) a.length = s.phys x := by
  rw [reading, List.drop_left', List.take_left', size, Code.unpack_encodeInt hx]
  · exact length_encodeInt _ _
  · rfl

end SignalDef

/-! ### What encoding and decoding give -/

def sizeOf (signals : List (SignalDef V)) : Nat := (signals.map SignalDef.size).sum

/-- A name stands for one signal. -/
def OneEach (signals : List (SignalDef V)) : Prop :=
  ∀ s ∈ signals, ∀ t ∈ signals, s.name = t.name → s = t

section
variable [FloatArith V] {signals : List (SignalDef V)}

/-- The entries that `decode` sets, in order. -/
def readings (payload : Bytes) : List (SignalDef V) → Nat → List (String × V)
  | [], _ => []
  | s :: signals, off => (s.name, s.reading payload off) :: readings payload signals (off + s.size)

theorem map_fst_readings (payload : Bytes) (signals : List (SignalDef V)) (off : Nat) :
    (readings payload signals off).map Prod.fst = signals.map (·.name) := by
  induction signals generalizing off with
  | nil => rfl
  | cons s signals ih => simp [readings, ih]

theorem encodedSize_eq (h : ∀ s ∈ signals, s.Valid) : encodedSize signals = .ok (sizeOf signals) := by
  rw [encodedSize, Except.mapM_ok_of_forall SignalDef.size]
  · rfl
  · intro s hs
    rw [(h s hs).fmt_eq]
    rfl

theorem decodeFrom_eq (h : ∀ s ∈ signals, s.type ∈ allowedTypes) (payload : Bytes) (off : Nat)
    (res : Dict String V) (hoff : off ≤ payload.length) :
    decodeFrom payload signals off res =
      if off + sizeOf signals ≤ payload.length then .ok (res.update (readings payload signals off))
      else .error (.valueError "payload too short for signal list") := by
  induction signals generalizing off res with
  | nil => simp [decodeFrom, sizeOf, readings, hoff]
  | cons s signals ih =>
    have hs := h s (List.mem_cons_self ..)
    have hsize : sizeOf (s :: signals) = s.size + sizeOf signals := by simp [sizeOf]
    have hcode : s.row.1.size = s.size := rfl
    simp only [decodeFrom, SignalDef.fmt_eq hs, Except.ok_bind, hcode, raiseIf, hsize]
    by_cases hlt : payload.length < off + s.size
    · rw [if_pos hlt, if_neg (by omega)]; rfl
    · rw [if_neg hlt, Except.ok_bind, ih (fun t ht => h t (List.mem_cons_of_mem _ ht)) _ _ (by omega),
        Nat.add_assoc]
      rfl

theorem mem_allowedTypes_of_fmt {t : String} {r : Code × Int × Int} (h : fmt t = .ok r) :
    t ∈ allowedTypes := by
  unfold fmt at h
  split at h
  · rename_i hl
    obtain ⟨l₁, l₂, hl, -⟩ := List.lookup_eq_some_iff.1 hl
    show t ∈ fmtTable.map Prod.fst
    rw [hl]
    simp
  · cases h

theorem type_mem_of_decodeFrom {payload : Bytes} {off : Nat} {res values : Dict String V}
    (h : decodeFrom payload signals off res = .ok values) : ∀ s ∈ signals, s.type ∈ allowedTypes := by
  induction signals generalizing off res with
  | nil => simp
  | cons s signals ih =>
    obtain ⟨r, hr, h⟩ := Except.bind_eq_ok.1 h
    obtain ⟨_, -, h⟩ := Except.bind_eq_ok.1 h
    intro t ht
    rcases List.mem_cons.1 ht with rfl | ht
    · exact mem_allowedTypes_of_fmt hr
    · exact ih h t ht

theorem decode_eq (h : ∀ s ∈ signals, s.Valid) (payload : Bytes) :
    decode signals payload =
      if sizeOf signals ≤ payload.length then .ok (Dict.ofList (readings payload signals 0))
      else .error (.valueError "payload too short for signal list") := by
  rw [decode, decodeFrom_eq (fun s hs => (h s hs).1) _ _ _ (Nat.zero_le _), Nat.zero_add]
  rfl

theorem decode_eq_ok {payload : Bytes} {values : Dict String V} (h : decode signals payload = .ok values) :
    sizeOf signals ≤ payload.length ∧ values = Dict.ofList (readings payload signals 0) := by
  have htype := type_mem_of_decodeFrom h
  rw [decode, decodeFrom_eq htype _ _ _ (Nat.zero_le _), Nat.zero_add] at h
  split at h
  · rename_i hlen
    exact ⟨hlen, (Except.ok.inj h).symm⟩
  · cases h

theorem decode_isSome_iff {payload : Bytes} {values : Dict String V} (h : decode signals payload = .ok values)
    (k : String) : (values.get? k).isSome ↔ k ∈ signals.map (·.name) := by
  rw [(decode_eq_ok h).2, Dict.get?_isSome, Dict.mem_keys_ofList, map_fst_readings]

theorem encode_congr {values values' : Dict String V}
    (h : ∀ s ∈ signals, values.getD s.name s.default = values'.getD s.name s.default) :
    encode signals values = encode signals values' := by
  have hmap : signals.mapM (encodeSignal values) = signals.mapM (encodeSignal values') := by
    induction signals with
    | nil => rfl
    | cons s signals ih =>
      have hs : encodeSignal values s = encodeSignal values' s := by
        rw [encodeSignal, encodeSignal, h s (List.mem_cons_self ..)]
      rw [List.mapM_cons, List.mapM_cons, hs, ih fun t ht => h t (List.mem_cons_of_mem _ ht)]
  rw [encode, encode, hmap]

/-- Of signals of known types, encoding fails on a scale of zero and on a value that is infinitely many
steps away. -/
theorem exists_encode_iff (htype : ∀ s ∈ signals, s.type ∈ allowedTypes) {values : Dict String V} :
    (∃ bs, encode signals values = .ok bs) ↔
      ∀ s ∈ signals, FloatArith.isZero s.scale = false ∧ s.Encodes values := by
  constructor
  · rintro ⟨bs, hbs⟩ s hs
    obtain ⟨parts, hparts, -⟩ := Except.bind_eq_ok.1 hbs
    obtain ⟨part, -, hpart⟩ := List.Forall₂.exists_right (Except.mapM_eq_ok.1 hparts) hs
    obtain ⟨r, -, hpart⟩ := Except.bind_eq_ok.1 hpart
    obtain ⟨_, hraise, hpart⟩ := Except.bind_eq_ok.1 hpart
    obtain ⟨n, hn, -⟩ := Except.bind_eq_ok.1 hpart
    exact ⟨by simpa using raiseIf_eq_ok.1 hraise, n, hn⟩
  · intro hall
    obtain ⟨parts, hparts⟩ := Except.exists_mapM_ok (f := encodeSignal values) fun s hs => by
      obtain ⟨hscale, n, hn⟩ := hall s hs
      rw [SignalDef.Valid.encodeSignal_eq_bind ⟨htype s hs, hscale⟩, hn]
      exact ⟨_, rfl⟩
    exact ⟨parts.flatten, Except.bind_eq_ok.2 ⟨parts, hparts, rfl⟩⟩

theorem length_of_encode (h : ∀ s ∈ signals, s.Valid) {values : Dict String V} {bs : Bytes}
    (hbs : encode signals values = .ok bs) : bs.length = sizeOf signals := by
  obtain ⟨parts, hparts, he⟩ := Except.bind_eq_ok.1 hbs
  cases he
  replace hparts := Except.mapM_eq_ok.1 hparts
  clear hbs
  rw [List.length_flatten, sizeOf]
  induction hparts with
  | nil => rfl
  | cons hpart _ ih =>
    rw [(h _ (List.mem_cons_self ..)).encodeSignal_eq_bind] at hpart
    obtain ⟨n, -, he⟩ := Except.bind_eq_ok.1 hpart
    cases he
    rw [List.map_cons, List.map_cons, List.sum_cons, List.sum_cons, length_encodeInt,
      ih fun s hs => h s (List.mem_cons_of_mem _ hs)]

end

/-! ### In exact arithmetic -/

section
variable {signals : List SignalDef}

def encodedBytes (signals : List SignalDef) (values : Dict String ℚ) : Bytes :=
  signals.flatMap fun s => encodeInt s.size (s.raw values)

/-- What is left of a map of physical values once it has been encoded and decoded. -/
def quantize (signals : List SignalDef) (values : Dict String ℚ) : Dict String ℚ :=
  Dict.ofList (signals.map fun s => (s.name, s.phys (s.raw values)))

theorem length_encodedBytes (signals : List SignalDef) (values : Dict String ℚ) :
    (encodedBytes signals values).length = sizeOf signals := by
  simp [encodedBytes, sizeOf, List.length_flatMap]

theorem encode_eq (h : ∀ s ∈ signals, s.Valid) (values : Dict String ℚ) :
    encode signals values = .ok (encodedBytes signals values) := by
  rw [encode, Except.mapM_ok_of_forall (fun s => encodeInt s.size (s.raw values))
    fun s hs => (h s hs).encodeSignal_eq values]
  rfl

theorem readings_encodedBytes (signals : List SignalDef) (values : Dict String ℚ) (a b : Bytes) :
    readings (a ++ (encodedBytes signals values ++ b)) signals a.length =
      signals.map fun s => (s.name, s.phys (s.raw values)) := by
  induction signals generalizing a with
  | nil => rfl
  | cons s signals ih =>
    have hassoc : a ++ (encodedBytes (s :: signals) values ++ b) =
        (a ++ encodeInt s.size (s.raw values)) ++ (encodedBytes signals values ++ b) := by
      simp [encodedBytes]
    rw [readings, List.map_cons]
    congr 1
    · rw [hassoc, List.append_assoc, s.reading_encodeInt a _ (s.fits_raw values)]
    · have := ih (a ++ encodeInt s.size (s.raw values))
      rw [List.length_append, length_encodeInt] at this
      rw [hassoc, this]

theorem decode_encodedBytes (h : ∀ s ∈ signals, s.Valid) (values : Dict String ℚ) (b : Bytes) :
    decode signals (encodedBytes signals values ++ b) = .ok (quantize signals values) := by
  have hr := readings_encodedBytes signals values [] b
  rw [List.nil_append, List.length_nil] at hr
  rw [decode_eq h, if_pos (by rw [List.length_append, length_encodedBytes]; omega), hr]
  rfl

theorem get?_quantize (hone : OneEach signals) {s : SignalDef} (hs : s ∈ signals)
    (values : Dict String ℚ) :
    (quantize signals values).get? s.name = some (s.phys (s.raw values)) := by
  refine Dict.get?_ofList_map hs fun t ht hname => ?_
  rw [hone t ht s hs hname]

theorem encodedBytes_congr {values values' : Dict String ℚ}
    (h : ∀ s ∈ signals, s.raw values = s.raw values') :
    encodedBytes signals values = encodedBytes signals values' := by
  induction signals with
  | nil => rfl
  | cons s signals ih =>
    have := ih fun t ht => h t (List.mem_cons_of_mem _ ht)
    simp only [encodedBytes, List.flatMap_cons, h s (List.mem_cons_self ..)] at this ⊢
    rw [this]

theorem encodedBytes_quantize (h : ∀ s ∈ signals, s.Valid) (hone : OneEach signals)
    (values : Dict String ℚ) :
    encodedBytes signals (quantize signals values) = encodedBytes signals values :=
  encodedBytes_congr fun s hs =>
    (h s hs).raw_of_phys (s.fits_raw values) (get?_quantize hone hs values)

end

/-! ### Signal lists of a message -/

namespace SignalIndex

variable {signals sigs : List (SignalDef V)} {names : List String}

theorem get?_fromSignals {n : String} {s : SignalDef V}
    (h : (fromSignals signals).byName.get? n = some s) : s ∈ signals ∧ s.name = n := by
  have := Dict.mem_of_get?_ofList h
  obtain ⟨t, ht, he⟩ := List.mem_map.1 this
  cases he
  exact ⟨ht, rfl⟩

theorem subset_forall₂ {idx : SignalIndex V} (h : idx.subset names = .ok sigs) :
    List.Forall₂ (fun n s => idx.byName.get? n = some s) names sigs := by
  refine (Except.mapM_eq_ok.1 h).imp fun n s hn => ?_
  cases hg : idx.byName.get? n with
  | none => rw [hg] at hn; cases hn
  | some t => rw [hg] at hn; cases hn; rfl

theorem get?_of_mem_subset (h : (fromSignals signals).subset names = .ok sigs) {s : SignalDef V}
    (hs : s ∈ sigs) : (fromSignals signals).byName.get? s.name = some s := by
  have hf := subset_forall₂ h
  clear h
  induction hf with
  | nil => simp at hs
  | cons hn _ ih =>
    rcases List.mem_cons.1 hs with rfl | hs
    · rw [(get?_fromSignals hn).2, hn]
    · exact ih hs

theorem subset_mem (h : (fromSignals signals).subset names = .ok sigs) {s : SignalDef V}
    (hs : s ∈ sigs) : s ∈ signals :=
  (get?_fromSignals (get?_of_mem_subset h hs)).1

theorem subset_oneEach (h : (fromSignals signals).subset names = .ok sigs) : OneEach sigs := by
  intro s hs t ht hst
  have h₁ := get?_of_mem_subset h hs
  have h₂ := get?_of_mem_subset h ht
  rw [hst, h₂] at h₁
  exact (Option.some.inj h₁).symm

theorem subset_names (h : (fromSignals signals).subset names = .ok sigs) :
    sigs.map (·.name) = names := by
  have hf := subset_forall₂ h
  clear h
  induction hf with
  | nil => rfl
  | cons hn _ ih => rw [List.map_cons, ih, (get?_fromSignals hn).2]

theorem exists_subset (h : ∀ n ∈ names, n ∈ signals.map (·.name)) :
    ∃ sigs, (fromSignals signals).subset names = .ok sigs := by
  refine Except.exists_mapM_ok fun n hn => ?_
  have hkeys : n ∈ (fromSignals signals).byName.keys := by
    rw [fromSignals, Dict.mem_keys_ofList, List.map_map]
    exact h n hn
  obtain ⟨s, hs⟩ := Option.isSome_iff_exists.1 (Dict.get?_isSome.2 hkeys)
  exact ⟨s, by rw [hs]⟩

end SignalIndex

theorem Catalog.Valid.subset_valid [FloatArith V] {cat : Catalog V} (hcat : cat.Valid) {names : List String}
    {sigs : List (SignalDef V)} (h : (SignalIndex.fromSignals cat.signals).subset names = .ok sigs) :
    ∀ s ∈ sigs, s.Valid :=
  fun s hs => hcat.signal s (SignalIndex.subset_mem h hs)

end AutoEth
