import Mathlib

/-!
# Decimal arithmetic of a fixed precision

A result is rounded to so many significant digits, halves to the even neighbour.
-/

namespace DecimalContext

/-- The nearest whole number; of two, the even one. -/
def roundHalfEven (q : ℚ) : ℤ :=
  let f := ⌊q⌋
  if q - f < 1 / 2 then f
  else if 1 / 2 < q - f then f + 1
  else if f % 2 = 0 then f else f + 1

@[simp] theorem roundHalfEven_intCast (z : ℤ) : roundHalfEven z = z := by
  unfold roundHalfEven
  simp

variable {q : ℚ}

theorem roundHalfEven_nonneg (h : 0 ≤ q) : 0 ≤ roundHalfEven q := by
  have hfloor : 0 ≤ ⌊q⌋ := Int.floor_nonneg.2 h
  unfold roundHalfEven
  simp only []
  split_ifs <;> omega

/-- The places kept with `prec` significant digits; negative where whole digits are lost. -/
def places (prec : ℕ) (q : ℚ) : ℤ := prec - 1 - Int.log 10 |q|

def round (prec : ℕ) (q : ℚ) : ℚ :=
  if q = 0 then 0
  else roundHalfEven (q * (10 : ℚ) ^ places prec q) / (10 : ℚ) ^ places prec q

theorem round_nonneg {prec : ℕ} (h : 0 ≤ q) : 0 ≤ round prec q := by
  unfold round
  split_ifs
  · exact le_refl 0
  · have hpow : (0 : ℚ) < 10 ^ places prec q := zpow_pos (by norm_num) _
    refine div_nonneg ?_ hpow.le
    exact_mod_cast roundHalfEven_nonneg (mul_nonneg h hpow.le)

/-- A whole number of units of the place `k`. -/
def IsMultiple (k : ℕ) (q : ℚ) : Prop := ∃ z : ℤ, q = z / (10 : ℚ) ^ k

theorem isMultiple_zero (k : ℕ) : IsMultiple k 0 := ⟨0, by simp⟩

theorem IsMultiple.add {k : ℕ} {p q : ℚ} (hp : IsMultiple k p) (hq : IsMultiple k q) :
    IsMultiple k (p + q) := by
  obtain ⟨y, rfl⟩ := hp
  obtain ⟨z, rfl⟩ := hq
  exact ⟨y + z, by push_cast; ring⟩

theorem IsMultiple.round {k prec : ℕ} (h : IsMultiple k q) :
    IsMultiple k (DecimalContext.round prec q) := by
  unfold DecimalContext.round
  split_ifs
  · exact isMultiple_zero k
  have hten : (10 : ℚ) ≠ 0 := by norm_num
  rcases le_or_gt (k : ℤ) (places prec q) with hle | hlt
  · -- all the digits are kept
    obtain ⟨z, rfl⟩ := h
    obtain ⟨d, hd⟩ := Int.le.dest hle
    have hwhole : (z : ℚ) / 10 ^ k * (10 : ℚ) ^ places prec (z / 10 ^ k)
        = ((z * 10 ^ d : ℤ) : ℚ) := by
      rw [← hd, zpow_add₀ hten, zpow_natCast, zpow_natCast]
      push_cast
      field_simp
    rw [hwhole, roundHalfEven_intCast, ← hwhole, mul_div_assoc,
      div_self (zpow_ne_zero _ hten), mul_one]
    exact ⟨z, rfl⟩
  · -- the result is a multiple of a coarser unit
    obtain ⟨d, hd⟩ := Int.le.dest hlt.le
    refine ⟨roundHalfEven (q * (10 : ℚ) ^ places prec q) * 10 ^ d, ?_⟩
    have hpow : (10 : ℚ) ^ k = (10 : ℚ) ^ places prec q * 10 ^ d := by
      rw [← zpow_natCast (10 : ℚ) k, ← hd, zpow_add₀ hten, zpow_natCast]
    rw [hpow]
    push_cast
    field_simp

end DecimalContext
