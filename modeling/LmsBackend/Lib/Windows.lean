import Mathlib.Data.Finset.Card
import Mathlib.Data.Finset.Max
import Mathlib.Order.Interval.Finset.Nat

/-!
# Windows of a counter

A counter that starts anew whenever its window has closed. Each hit falls into a window and
gets the number of hits in that window so far.

- `Ledger`: the windows opened so far, with the instant each was opened and the one it
  closes at, once that is known.
- `Ledger.Separated s`: a window but the last is known to close, not before `s` units after
  it was opened, and the next one is opened after that.
- `card_interval_le`: an interval of length `s` meets at most two windows, so it holds at
  most twice what a window holds.
- `card_le_bound`: of `n` hits numbered from one, `min n m` have a number up to `m`.
-/

namespace Windows

/-- The windows opened so far: window `k < size` was opened at `opened k`, closes at
`closes k` and has had `hits k` hits. -/
structure Ledger where
  size : Nat
  opened : Nat → Nat
  closes : Nat → Option Nat
  hits : Nat → Nat

/-- No window yet. -/
def Ledger.empty : Ledger := ⟨0, fun _ => 0, fun _ => none, fun _ => 0⟩

/-- Open a window with its first hit. -/
def Ledger.openAt (L : Ledger) (t : Nat) : Ledger where
  size := L.size + 1
  opened := Function.update L.opened L.size t
  closes := Function.update L.closes L.size none
  hits := Function.update L.hits L.size 1

/-- One more hit in the last window. -/
def Ledger.hit (L : Ledger) : Ledger :=
  { L with hits := Function.update L.hits (L.size - 1) (L.hits (L.size - 1) + 1) }

/-- The last window closes at this instant. -/
def Ledger.closeAt (L : Ledger) (t : Nat) : Ledger :=
  { L with closes := Function.update L.closes (L.size - 1) (some t) }

/-- A window lasts at least `s`, and closes before a later one is opened. -/
structure Ledger.Separated (s : Nat) (L : Ledger) : Prop where
  lasts : ∀ k c, k < L.size → L.closes k = some c → L.opened k + s ≤ c
  before : ∀ j k, j < k → k < L.size → ∃ c, L.closes j = some c ∧ c ≤ L.opened k

variable {s t : Nat} {L : Ledger}

theorem Ledger.separated_empty : Ledger.empty.Separated s where
  lasts k _ hk _ := absurd hk (Nat.not_lt_zero k)
  before _ k _ hk := absurd hk (Nat.not_lt_zero k)

theorem Ledger.Separated.openAt (h : L.Separated s)
    (hlast : ∀ k, k + 1 = L.size → ∃ c, L.closes k = some c ∧ c ≤ t) : (L.openAt t).Separated s := by
  constructor
  · intro k c hk hclose
    by_cases hnew : k = L.size
    · subst hnew
      simp [Ledger.openAt] at hclose
    · have hold : k < L.size := by
        simp only [Ledger.openAt] at hk
        omega
      simp only [Ledger.openAt, Function.update_of_ne hnew] at hclose ⊢
      exact h.lasts k c hold hclose
  · intro j k hjk hk
    have hj : j ≠ L.size := by
      simp only [Ledger.openAt] at hk
      omega
    simp only [Ledger.openAt, Function.update_of_ne hj] at hk ⊢
    by_cases hnew : k = L.size
    · subst hnew
      rw [Function.update_self]
      by_cases hjlast : j + 1 = L.size
      · exact hlast j hjlast
      · -- an earlier window closed before the last one was opened
        obtain ⟨c, hc, hle⟩ := h.before j (L.size - 1) (by omega) (by omega)
        obtain ⟨c', hc', hle'⟩ := hlast (L.size - 1) (by omega)
        have hlasts := h.lasts (L.size - 1) c' (by omega) hc'
        exact ⟨c, hc, by omega⟩
    · rw [Function.update_of_ne hnew]
      exact h.before j k hjk (by omega)

theorem Ledger.Separated.hit (h : L.Separated s) : L.hit.Separated s := ⟨h.lasts, h.before⟩

/-- The last window may be given its end. -/
theorem Ledger.Separated.closeAt (h : L.Separated s) (hsize : 0 < L.size)
    (ht : L.opened (L.size - 1) + s ≤ t) : (L.closeAt t).Separated s := by
  constructor
  · intro k c hk hclose
    by_cases hlast : k = L.size - 1
    · subst hlast
      simp only [Ledger.closeAt, Function.update_self, Option.some.injEq] at hclose ⊢
      exact hclose ▸ ht
    · simp only [Ledger.closeAt, Function.update_of_ne hlast] at hclose ⊢
      exact h.lasts k c hk hclose
  · intro j k hjk hk
    have hj : j ≠ L.size - 1 := by
      simp only [Ledger.closeAt] at hk
      omega
    simp only [Ledger.closeAt, Function.update_of_ne hj]
    exact h.before j k hjk hk

/-! ## Counting hits -/

section Counting

variable {ι : Type} [DecidableEq ι] {A : Finset ι} {window time count : ι → Nat} {m n : Nat}

omit [DecidableEq ι] in
/-- Hits in windows `j` and `k` with a third window between them are at least `s` apart. -/
theorem apart (h : L.Separated s) {i j : ι} (hi : window i + 1 < window j)
    (hj : window j < L.size) (hti : ∀ c, L.closes (window i) = some c → time i ≤ c)
    (htj : L.opened (window j) ≤ time j) : time i + s ≤ time j := by
  obtain ⟨c, hc, hle⟩ := h.before (window i) (window i + 1) (by omega) (by omega)
  obtain ⟨c', hc', hle'⟩ := h.before (window i + 1) (window j) hi hj
  have hlasts := h.lasts (window i + 1) c' (by omega) hc'
  have htime := hti c hc
  omega

/-- An interval of length `s` holds at most twice as many hits as a window. -/
theorem card_interval_le (h : L.Separated s) (hwindow : ∀ i ∈ A, window i < L.size)
    (hopened : ∀ i ∈ A, L.opened (window i) ≤ time i)
    (hcloses : ∀ i ∈ A, ∀ c, L.closes (window i) = some c → time i ≤ c)
    (hper : ∀ k, (A.filter fun i => window i = k).card ≤ m) (a : Nat) :
    (A.filter fun i => a ≤ time i ∧ time i < a + s).card ≤ 2 * m := by
  let B := A.filter fun i => a ≤ time i ∧ time i < a + s
  by_cases hB : B.Nonempty
  · -- the first window that the interval meets, and the one after it, are all it meets
    obtain ⟨i₀, hi₀, hmin⟩ := Finset.exists_min_image B window hB
    have hsub : B ⊆ (A.filter fun i => window i = window i₀) ∪
        A.filter fun i => window i = window i₀ + 1 := by
      intro j hj
      obtain ⟨hjA, -, hjlt⟩ := Finset.mem_filter.mp hj
      obtain ⟨hi₀A, hi₀le, -⟩ := Finset.mem_filter.mp hi₀
      have hle := hmin j hj
      rw [Finset.mem_union, Finset.mem_filter, Finset.mem_filter]
      by_cases hfirst : window j = window i₀
      · exact .inl ⟨hjA, hfirst⟩
      · by_cases hsecond : window j = window i₀ + 1
        · exact .inr ⟨hjA, hsecond⟩
        · have hfar := @apart s L ι window time h i₀ j (by omega) (hwindow j hjA)
            (hcloses i₀ hi₀A) (hopened j hjA)
          omega
    calc B.card ≤ _ := Finset.card_le_card hsub
      _ ≤ (A.filter fun i => window i = window i₀).card +
          (A.filter fun i => window i = window i₀ + 1).card := Finset.card_union_le _ _
      _ ≤ m + m := Nat.add_le_add (hper _) (hper _)
      _ = 2 * m := (Nat.two_mul m).symm
  · have hempty : B = ∅ := Finset.not_nonempty_iff_eq_empty.mp hB
    show B.card ≤ 2 * m
    rw [hempty, Finset.card_empty]
    exact Nat.zero_le _

omit [DecidableEq ι] in
/-- Hits numbered from one to `n`. -/
theorem card_of_numbered (hinj : Set.InjOn count A) (hle : ∀ i ∈ A, 1 ≤ count i ∧ count i ≤ n)
    (hall : ∀ c, 1 ≤ c → c ≤ n → ∃ i ∈ A, count i = c) : A.card = n := by
  have himage : A.image count = Finset.Icc 1 n := by
    ext c
    rw [Finset.mem_image, Finset.mem_Icc]
    constructor
    · rintro ⟨i, hi, rfl⟩
      exact hle i hi
    · rintro ⟨h1, hn⟩
      exact hall c h1 hn
  rw [← Finset.card_image_of_injOn hinj, himage, Nat.card_Icc]
  omega

omit [DecidableEq ι] in
/-- Of `n` hits numbered from one, `min n m` have a number up to `m`. -/
theorem card_le_bound (hinj : Set.InjOn count A) (hle : ∀ i ∈ A, 1 ≤ count i ∧ count i ≤ n)
    (hall : ∀ c, 1 ≤ c → c ≤ n → ∃ i ∈ A, count i = c) (m : Nat) :
    (A.filter fun i => count i ≤ m).card = min n m := by
  refine card_of_numbered (hinj.mono fun i hi => (Finset.mem_filter.mp hi).1) ?_ ?_
  · intro i hi
    obtain ⟨hA, hm⟩ := Finset.mem_filter.mp hi
    exact ⟨(hle i hA).1, le_min (hle i hA).2 hm⟩
  · intro c h1 hc
    obtain ⟨i, hi, rfl⟩ := hall c h1 (hc.trans (min_le_left n m))
    exact ⟨i, Finset.mem_filter.mpr ⟨hi, hc.trans (min_le_right n m)⟩, rfl⟩

end Counting

end Windows
