import Mathlib.Algebra.Order.Ring.Nat
import Mathlib.Data.List.TakeWhile
import Mathlib.Tactic.Common

/-!
# IPv4 addresses as text

`ntoa` writes a 32-bit address in dotted decimal, `aton` reads an address the way the C library does:
one to four parts separated by dots, each decimal, octal (with a leading `0`) or hexadecimal (with a
leading `0x`), the last of which fills the remaining bytes; text behind a blank is ignored. `aton`
undoes `ntoa` (`aton_ntoa`), and a text is `Canonical` when `ntoa` writes it for an address.
-/

namespace Inet

/-- The value of an ASCII digit in the given base. -/
def digit (base : Nat) (c : Char) : Option Nat :=
  let n := c.toNat
  let v :=
    if 48 ≤ n ∧ n ≤ 57 then some (n - 48)
    else if 97 ≤ n ∧ n ≤ 102 then some (n - 87)
    else if 65 ≤ n ∧ n ≤ 70 then some (n - 55)
    else none
  v.filter (· < base)

def digits (base acc : Nat) : List Char → Option Nat
  | [] => some acc
  | c :: cs => (digit base c).bind fun d => digits base (acc * base + d) cs

/-- One part of an address. -/
def part : List Char → Option Nat
  | [] => none
  | ['0'] => some 0
  | '0' :: 'x' :: cs | '0' :: 'X' :: cs => if cs = [] then none else digits 16 0 cs
  | '0' :: cs => digits 8 0 cs
  | cs => digits 10 0 cs

/-- The address that the parts stand for; the last one fills the remaining bytes. -/
def combine : List Nat → Option Nat
  | [a] => if a < 2 ^ 32 then some a else none
  | [a, b] => if a < 256 ∧ b < 2 ^ 24 then some (a * 2 ^ 24 + b) else none
  | [a, b, c] => if a < 256 ∧ b < 256 ∧ c < 2 ^ 16 then some (a * 2 ^ 24 + b * 2 ^ 16 + c) else none
  | [a, b, c, d] =>
    if a < 256 ∧ b < 256 ∧ c < 256 ∧ d < 256 then some (a * 2 ^ 24 + b * 2 ^ 16 + c * 2 ^ 8 + d)
    else none
  | _ => none

def isBlank (c : Char) : Bool := c = ' ' || (9 ≤ c.toNat && c.toNat ≤ 13)

def aton (s : String) : Option Nat :=
  (((s.toList.takeWhile fun c => !isBlank c).splitOn '.').mapM part).bind combine

def decimal (n : Nat) : List Char := Nat.toDigits 10 n

def octets (v : Nat) : List Nat := [v / 2 ^ 24 % 256, v / 2 ^ 16 % 256, v / 2 ^ 8 % 256, v % 256]

def ntoa (v : Nat) : String := String.ofList (['.'].intercalate ((octets v).map decimal))

/-- The text of an address. -/
def Canonical (s : String) : Prop := ∃ v < 2 ^ 32, s = ntoa v

theorem part_decimal {n : Nat} (h : n < 256) : part (decimal n) = some n := by
  have hall : (List.range 256).all (fun n => part (decimal n) = some n) = true := by decide +kernel
  exact of_decide_eq_true (List.all_eq_true.1 hall n (List.mem_range.2 h))

theorem decimal_digits {n : Nat} {c : Char} (h : c ∈ decimal n) : c ≠ '.' ∧ isBlank c = false := by
  have hdigit : c.isDigit := Nat.isDigit_of_mem_toDigits (by decide) (by decide) h
  have hrange : 48 ≤ c.toNat ∧ c.toNat ≤ 57 := by
    unfold Char.isDigit at hdigit
    rw [Bool.and_eq_true, decide_eq_true_iff, decide_eq_true_iff, ge_iff_le, UInt32.le_iff_toNat_le,
      UInt32.le_iff_toNat_le] at hdigit
    exact hdigit
  constructor
  · rintro rfl
    exact absurd hrange.1 (by decide)
  · have hspace : c ≠ ' ' := by
      rintro rfl
      exact absurd hrange.1 (by decide)
    simp only [isBlank, hspace, decide_false, Bool.false_or, Bool.and_eq_false_iff,
      decide_eq_false_iff_not]
    omega

theorem octets_lt (v : Nat) : ∀ n ∈ octets v, n < 256 := by
  intro n hn
  simp only [octets, List.mem_cons, List.not_mem_nil, or_false] at hn
  omega

theorem mapM_part_decimal {l : List Nat} (h : ∀ n ∈ l, n < 256) : (l.map decimal).mapM part = some l := by
  induction l with
  | nil => rfl
  | cons n l ih =>
    rw [List.map_cons, List.mapM_cons, part_decimal (h n (by simp)),
      ih fun m hm => h m (by simp [hm])]
    rfl

theorem combine_octets {v : Nat} (h : v < 2 ^ 32) : combine (octets v) = some v := by
  simp only [octets, combine]
  rw [if_pos (by omega)]
  congr 1
  omega

theorem mem_intercalate {c : Char} {ls : List (List Char)} (h : c ∈ ['.'].intercalate ls) :
    c = '.' ∨ ∃ l ∈ ls, c ∈ l := by
  induction ls with
  | nil => simp at h
  | cons l ls ih =>
    by_cases hls : ls = []
    · subst hls
      rw [List.intercalate_singleton] at h
      exact .inr ⟨l, by simp, h⟩
    · rw [List.intercalate_cons_of_ne_nil hls] at h
      simp only [List.mem_append, List.mem_singleton] at h
      rcases h with (h | h) | h
      · exact .inr ⟨l, by simp, h⟩
      · exact .inl h
      · rcases ih h with h | ⟨l', hl', h⟩
        · exact .inl h
        · exact .inr ⟨l', by simp [hl'], h⟩

theorem aton_lt {s : String} {v : Nat} (h : aton s = some v) : v < 2 ^ 32 := by
  obtain ⟨l, -, h⟩ := Option.bind_eq_some_iff.1 h
  unfold combine at h
  split at h
  all_goals try split_ifs at h
  all_goals cases h
  all_goals omega

theorem aton_ntoa {v : Nat} (h : v < 2 ^ 32) : aton (ntoa v) = some v := by
  have hchars : ∀ l ∈ (octets v).map decimal, ∀ c ∈ l, c ≠ '.' ∧ isBlank c = false := by
    intro l hl c hc
    obtain ⟨n, hn, rfl⟩ := List.mem_map.1 hl
    exact decimal_digits hc
  have hblank : ∀ c ∈ ['.'].intercalate ((octets v).map decimal), isBlank c = false := by
    intro c hc
    rcases mem_intercalate hc with rfl | ⟨l, hl, hc⟩
    · rfl
    · exact (hchars l hl c hc).2
  have hsplit : (['.'].intercalate ((octets v).map decimal)).splitOn '.' = (octets v).map decimal :=
    List.splitOn_intercalate '.' (fun l hl hdot => (hchars l hl '.' hdot).1 rfl) (by simp [octets])
  have htake : (['.'].intercalate ((octets v).map decimal)).takeWhile (fun c => !isBlank c) =
      ['.'].intercalate ((octets v).map decimal) :=
    List.takeWhile_eq_self_iff.2 fun c hc => by rw [hblank c hc]; rfl
  rw [aton, ntoa, String.toList_ofList, htake, hsplit, mapM_part_decimal (octets_lt v),
    Option.bind_some, combine_octets h]

/-- Writing the address that a canonical text stands for gives the text. -/
theorem Canonical.exists_aton {s : String} (h : Canonical s) :
    ∃ v < 2 ^ 32, aton s = some v ∧ ntoa v = s := by
  obtain ⟨v, hv, rfl⟩ := h
  exact ⟨v, hv, aton_ntoa hv, rfl⟩

theorem Canonical.isSome_aton {s : String} (h : Canonical s) : (aton s).isSome := by
  obtain ⟨v, -, hv, -⟩ := h.exists_aton
  rw [hv]
  rfl

example : aton "127.0.0.1" = some 0x7f000001 ∧ aton "0x7f.1" = some 0x7f000001 := by decide

end Inet
