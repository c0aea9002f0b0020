import Mathlib.Data.List.Basic

/-!
# Left outer joins

- `leftJoin on l r`: every row of `l` with each row of `r` that it matches, or with nothing if
  it matches none.
- `filter_leftJoin_none`: the rows that matched nothing. They are the rows of `l` without a
  partner, each once, however many rows the others match.
-/

namespace Joins

variable {α β : Type}

/-- The rows of `l LEFT OUTER JOIN r ON on`. -/
def leftJoin (on : α → β → Bool) (l : List α) (r : List β) : List (α × Option β) :=
  l.flatMap fun a =>
    if r.any (on a) then (r.filter (on a)).map fun b => (a, some b) else [(a, none)]

theorem leftJoin_cons (on : α → β → Bool) (a : α) (l : List α) (r : List β) :
    leftJoin on (a :: l) r =
      (if r.any (on a) then (r.filter (on a)).map fun b => (a, some b) else [(a, none)]) ++
        leftJoin on l r := List.flatMap_cons

/-- **Anti-join**: what a condition on the left row and `IS NULL` on the right leave. -/
theorem filter_leftJoin_none (on : α → β → Bool) (p : α → Bool) (l : List α) (r : List β) :
    (leftJoin on l r).filter (fun x => p x.1 && x.2.isNone) =
      (l.filter fun a => p a && !r.any (on a)).map fun a => (a, none) := by
  induction l with
  | nil => rfl
  | cons a l ih =>
    rw [leftJoin_cons, List.filter_append, ih]
    by_cases hmatch : r.any (on a) = true
    · -- every joined row of `a` has a partner, so none is left
      rw [if_pos hmatch, List.filter_cons_of_neg (by simp [hmatch])]
      have hnone : ((r.filter (on a)).map fun b => (a, some b)).filter
          (fun x => p x.1 && x.2.isNone) = [] := by
        rw [List.filter_eq_nil_iff]
        intro x hx
        obtain ⟨b, -, rfl⟩ := List.mem_map.mp hx
        simp
      rw [hnone, List.nil_append]
    · have halone : r.any (on a) = false := Bool.eq_false_iff.mpr hmatch
      rw [if_neg hmatch]
      cases hp : p a with
      | true => simp [hp, halone]
      | false => simp [hp]

end Joins
