import Mathlib.Data.List.Nodup
import Mathlib.Data.List.Perm.Basic

/-!
# Rows with unique keys

A list whose elements have keys of their own: at most one element is found by its key.
-/

namespace Keys

variable {α κ : Type} [DecidableEq κ] {f : α → κ} {l l' : List α} {a b : α} {k : κ}

/-- The element of a key is found by it, and no other. -/
theorem filter_key (hn : (l.map f).Nodup) (ha : a ∈ l) :
    l.filter (fun x => decide (f x = f a)) = [a] := by
  induction l with
  | nil => cases ha
  | cons b l ih =>
    rw [List.map_cons, List.nodup_cons] at hn
    rcases List.mem_cons.mp ha with rfl | ha
    · have hrest : l.filter (fun x => decide (f x = f a)) = [] := by
        refine List.filter_eq_nil_iff.mpr fun x hx heq => hn.1 ?_
        exact of_decide_eq_true heq ▸ List.mem_map_of_mem hx
      rw [List.filter_cons_of_pos (by simp), hrest]
    · have hne : f b ≠ f a := fun heq => hn.1 (heq ▸ List.mem_map_of_mem ha)
      rw [List.filter_cons_of_neg (by simpa using hne), ih hn.2 ha]

/-- So it is in every part of the list that has it. -/
theorem filter_key_sublist (hn : (l.map f).Nodup) (hsub : l'.Sublist l) (ha : a ∈ l') :
    l'.filter (fun x => decide (f x = f a)) = [a] :=
  filter_key (hn.sublist (hsub.map f)) ha

end Keys
