import Mathlib.Algebra.Order.Field.Rat
import Mathlib.Data.Rat.Floor
import Mathlib.Tactic.Linarith
import Mathlib.Tactic.NormNum
import Mathlib.Tactic.Ring
import LmsBackend.Core.Schema

/-!
# Columns with two decimals

What a `NUMERIC(_, 2)` column makes of a number.

- `TwoDecimals`: the numbers that such a column keeps, `roundNumeric_eq_iff`.
- `roundNumeric_twice`: a stored number is kept when it is stored again.
- `roundNumeric_le`: rounding keeps the order.
-/

namespace LmsBackend

/-- At most two digits after the point. -/
def TwoDecimals (q : Rat) : Prop := ∃ n : Int, q = n / 100

/-- Rounding to two decimals keeps the order. -/
theorem roundNumeric_le {p q : Rat} (hp : 0 ≤ p) (h : p ≤ q) :
    roundNumeric 2 p ≤ roundNumeric 2 q := by
  have hk : (0 : Rat) < ((10 ^ 2 : Nat) : Rat) := by norm_num
  rw [roundNumeric, roundNumeric, if_pos hp, if_pos (hp.trans h)]
  rw [div_le_div_iff_of_pos_right hk, Int.cast_le]
  show Int.floor (_ : Rat) ≤ Int.floor (_ : Rat)
  exact Int.floor_mono (by linarith [mul_le_mul_of_nonneg_right h hk.le])

/-- What is stored has two decimals. -/
theorem roundNumeric_twoDecimals (q : Rat) : TwoDecimals (roundNumeric 2 q) := by
  unfold roundNumeric
  split
  · refine ⟨(q * ((10 ^ 2 : Nat) : Rat) + 1 / 2).floor, ?_⟩
    push_cast
    norm_num
  · refine ⟨-(-q * ((10 ^ 2 : Nat) : Rat) + 1 / 2).floor, ?_⟩
    push_cast
    ring

/-- A number with two decimals is stored as it is. -/
theorem TwoDecimals.roundNumeric {q : Rat} (h : TwoDecimals q) : roundNumeric 2 q = q := by
  obtain ⟨n, hn⟩ := h
  unfold LmsBackend.roundNumeric
  split
  · have hfloor : Int.floor (q * ((10 ^ 2 : Nat) : Rat) + 1 / 2) = n := by
      rw [Int.floor_eq_iff, hn]
      constructor <;> push_cast <;> linarith
    show ((Int.floor (q * ((10 ^ 2 : Nat) : Rat) + 1 / 2) : Int) : Rat) / _ = q
    rw [hfloor, hn]
    push_cast
    norm_num
  · have hfloor : Int.floor (-q * ((10 ^ 2 : Nat) : Rat) + 1 / 2) = -n := by
      rw [Int.floor_eq_iff, hn]
      constructor <;> push_cast <;> linarith
    show -(((Int.floor (-q * ((10 ^ 2 : Nat) : Rat) + 1 / 2) : Int) : Rat) / _) = q
    rw [hfloor, hn]
    push_cast
    ring

/-- The column keeps exactly the numbers with two decimals. -/
theorem roundNumeric_eq_iff {q : Rat} : roundNumeric 2 q = q ↔ TwoDecimals q :=
  ⟨fun h => h ▸ roundNumeric_twoDecimals q, TwoDecimals.roundNumeric⟩

theorem roundNumeric_twice (q : Rat) : roundNumeric 2 (roundNumeric 2 q) = roundNumeric 2 q :=
  (roundNumeric_twoDecimals q).roundNumeric

end LmsBackend
