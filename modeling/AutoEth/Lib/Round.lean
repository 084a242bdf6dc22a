import Mathlib.Algebra.Order.Floor.Ring
import Mathlib.Algebra.Order.Field.Basic
import Mathlib.Tactic.Linarith
import Mathlib.Tactic.NormNum

/-!
# Rounding half to even

`roundHalfEven q` is the integer nearest to `q`; of two nearest ones it is the even one. Clamped to an
interval it is as near to `q` as any integer of that interval (`abs_sub_clamp_le`).
-/

variable {K : Type*} [Field K] [LinearOrder K] [IsStrictOrderedRing K] [FloorRing K]

def roundHalfEven (q : K) : ℤ :=
  if q - ⌊q⌋ < 1 / 2 then ⌊q⌋
  else if 1 / 2 < q - ⌊q⌋ then ⌊q⌋ + 1
  else if ⌊q⌋ % 2 = 0 then ⌊q⌋
  else ⌊q⌋ + 1

@[simp] theorem roundHalfEven_intCast (n : ℤ) : roundHalfEven (n : K) = n := by
  simp [roundHalfEven]

/-- Clamping an integer to an interval, the way two successive comparisons do it. -/
def clamp (lo hi n : ℤ) : ℤ :=
  let n := if n < lo then lo else n
  if hi < n then hi else n

theorem clamp_of_mem {lo hi n : ℤ} (h₀ : lo ≤ n) (h₁ : n ≤ hi) : clamp lo hi n = n := by
  simp [clamp, not_lt.2 h₀, not_lt.2 h₁]

theorem le_clamp {lo hi : ℤ} (n : ℤ) (h : lo ≤ hi) : lo ≤ clamp lo hi n := by
  unfold clamp; dsimp only; split <;> split <;> omega

theorem clamp_le {lo hi : ℤ} (n : ℤ) : clamp lo hi n ≤ hi := by
  unfold clamp; dsimp only; split <;> split <;> omega

theorem abs_sub_roundHalfEven_le (q : K) : |q - roundHalfEven q| ≤ 1 / 2 := by
  have h₀ := Int.floor_le q
  have h₁ := Int.lt_floor_add_one q
  unfold roundHalfEven
  rw [abs_le]
  split_ifs with hlow hhigh
  · constructor <;> linarith
  · push_cast
    constructor <;> linarith
  · constructor <;> linarith
  · push_cast
    constructor <;> linarith

/-- No integer of the interval is nearer to `q` than the clamped rounding of `q`. -/
theorem abs_sub_clamp_le (q : K) {lo hi n : ℤ} (hlo : lo ≤ n) (hhi : n ≤ hi) :
    |q - clamp lo hi (roundHalfEven q)| ≤ |q - n| := by
  obtain ⟨hbelow, habove⟩ := abs_le.1 (abs_sub_roundHalfEven_le q)
  set r := roundHalfEven q
  rcases lt_or_ge r lo with hlt | hge
  · -- `q` lies below the interval
    have hclamp : clamp lo hi r = lo := by
      unfold clamp
      rw [if_pos hlt]
      exact if_neg (not_lt.2 (hlo.trans hhi))
    have h₁ : (r : K) + 1 ≤ lo := by exact_mod_cast hlt
    have h₂ : (lo : K) ≤ n := by exact_mod_cast hlo
    rw [hclamp, abs_of_neg (by linarith), abs_of_neg (by linarith)]
    linarith
  rcases lt_or_ge hi r with hlt | hle
  · -- `q` lies above the interval
    have hclamp : clamp lo hi r = hi := by
      unfold clamp
      rw [if_neg (not_lt.2 hge)]
      exact if_pos hlt
    have h₁ : (hi : K) + 1 ≤ r := by exact_mod_cast hlt
    have h₂ : (n : K) ≤ hi := by exact_mod_cast hhi
    rw [hclamp, abs_of_pos (by linarith), abs_of_pos (by linarith)]
    linarith
  rw [clamp_of_mem hge hle]
  rcases lt_trichotomy n r with hlt | rfl | hgt
  · have h₁ : (n : K) + 1 ≤ r := by exact_mod_cast hlt
    exact (abs_sub_roundHalfEven_le q).trans (le_abs.2 (.inl (by linarith)))
  · exact le_refl _
  · have h₁ : (r : K) + 1 ≤ n := by exact_mod_cast hgt
    exact (abs_sub_roundHalfEven_le q).trans (le_abs.2 (.inr (by linarith)))
