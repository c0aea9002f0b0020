import Mathlib.Data.List.Sort
import Mathlib.Data.List.Nodup
import Mathlib.Data.List.Perm.Basic

/-!
# Pages of a preordered list

Rows are put in an order that a total preorder allows and cut into pages of one size; each
page is taken from an order of its own.

- `Arrangement le rows l`: the rows, in an order that `le` allows.
- `page size n l`: the `n`-th page of an order, counted from zero.
- `Cuts le rows k`: the rows before position `k` come strictly before those after it.
- `pages_iff`: whatever orders the pages are taken from, together they hold every row once
  exactly if the preorder cuts the rows wherever a page ends.
-/

namespace Pages

variable {α : Type} {le : α → α → Prop} {rows l l' : List α} {size k n pages : Nat}

/-- The rows, in an order that `le` allows. -/
structure Arrangement (le : α → α → Prop) (rows l : List α) : Prop where
  perm : l.Perm rows
  sorted : l.Pairwise le

/-- The `n`-th page, counted from zero. -/
def page (size n : Nat) (l : List α) : List α := (l.drop (n * size)).take size

/-- A page past the end is empty. -/
theorem page_eq_nil {size n : Nat} {l : List α} (h : l.length ≤ n * size) : page size n l = [] := by
  unfold page
  rw [List.drop_eq_nil_of_le h, List.take_nil]

/-- The first pages, each of its own order, one after the other. -/
def concat (size pages : Nat) (orders : Nat → List α) : List α :=
  (List.range pages).flatMap fun n => page size n (orders n)

/-- In every arrangement the rows before position `k` come strictly before the others. -/
def Cuts (le : α → α → Prop) (rows : List α) (k : Nat) : Prop :=
  ∀ l, Arrangement le rows l → ∀ a ∈ l.take k, ∀ b ∈ l.drop k, ¬ le b a

/-! ## One order -/

theorem take_succ_page : l.take ((n + 1) * size) = l.take (n * size) ++ page size n l := by
  rw [Nat.succ_mul, List.take_add]
  rfl

/-- Pages of one order make up the list. The induction is over the pages. -/
theorem concat_same (size pages : Nat) (l : List α) :
    concat size pages (fun _ => l) = l.take (pages * size) := by
  induction pages with
  | zero => simp [concat]
  | succ pages ih =>
    have hlast : concat size (pages + 1) (fun _ => l) =
        concat size pages (fun _ => l) ++ page size pages l := by
      simp [concat, List.range_succ]
    rw [hlast, ih, take_succ_page]

theorem mem_page {i : Nat} {a : α} (hi : i < size) (h : l[n * size + i]? = some a) :
    a ∈ page size n l := by
  rw [page, List.mem_iff_getElem?]
  exact ⟨i, by rw [List.getElem?_take_of_lt hi, List.getElem?_drop, h]⟩

/-! ## Two orders -/

/-- The rows of a downward closed set come first. -/
theorem filter_eq_take {p : α → Bool} (h : l.Pairwise le)
    (hdown : ∀ a b, le a b → p b = true → p a = true) :
    l.filter p = l.take (l.filter p).length := by
  induction l with
  | nil => rfl
  | cons a l ih =>
    obtain ⟨hfirst, hrest⟩ := List.pairwise_cons.mp h
    by_cases ha : p a = true
    · rw [List.filter_cons_of_pos ha, List.length_cons, List.take_succ_cons, ← ih hrest]
    · have hnone : l.filter p = [] := by
        rw [List.filter_eq_nil_iff]
        intro b hb hpb
        exact ha (hdown a b (hfirst b hb) hpb)
      rw [List.filter_cons_of_neg ha, hnone]
      rfl

/-- Where one arrangement is cut, all arrangements have the same rows before the cut. -/
theorem take_perm (htotal : ∀ a b, le a b ∨ le b a) (htrans : ∀ a b c, le a b → le b c → le a c)
    (h : Arrangement le rows l) (h' : Arrangement le rows l')
    (hcut : ∀ a ∈ l.take k, ∀ b ∈ l.drop k, ¬ le b a) : (l'.take k).Perm (l.take k) := by
  classical
  -- the rows that are not after some row before the cut
  let p : α → Bool := fun x => decide (∃ a ∈ l.take k, le x a)
  have hdown : ∀ a b, le a b → p b = true → p a = true := by
    intro a b hab hb
    obtain ⟨c, hc, hbc⟩ := of_decide_eq_true hb
    exact decide_eq_true ⟨c, hc, htrans a b c hab hbc⟩
  have htake : l.filter p = l.take k := by
    have hall : (l.take k).filter p = l.take k := by
      rw [List.filter_eq_self]
      intro a ha
      exact decide_eq_true ⟨a, ha, (htotal a a).elim id id⟩
    have hnone : (l.drop k).filter p = [] := by
      rw [List.filter_eq_nil_iff]
      intro b hb hpb
      obtain ⟨a, ha, hba⟩ := of_decide_eq_true hpb
      exact hcut a ha b hb hba
    have hsplit : l.filter p = (l.take k).filter p ++ (l.drop k).filter p := by
      rw [← List.filter_append, List.take_append_drop]
    rw [hsplit, hall, hnone, List.append_nil]
  have hperm : l'.Perm l := h'.perm.trans h.perm.symm
  have hfilter : (l'.filter p).Perm (l.take k) := htake ▸ hperm.filter p
  have hlength : l'.take (l'.filter p).length = l'.take k := by
    rw [hfilter.length_eq, List.length_take, ← hperm.length_eq, List.take_eq_take_iff]
    omega
  rw [← hlength, ← filter_eq_take h'.sorted hdown]
  exact hfilter

/-- A page between two cuts has the same rows in all arrangements. -/
theorem page_perm (htotal : ∀ a b, le a b ∨ le b a)
    (htrans : ∀ a b c, le a b → le b c → le a c) (h : Arrangement le rows l)
    (h' : Arrangement le rows l') (hcuts : ∀ n, Cuts le rows (n * size)) (n : Nat) :
    (page size n l').Perm (page size n l) := by
  have hbefore := take_perm htotal htrans h h' (hcuts n l h)
  have hafter := take_perm htotal htrans h h' (hcuts (n + 1) l h)
  rw [take_succ_page, take_succ_page] at hafter
  exact (List.perm_append_left_iff _).mp ((hbefore.symm.append_right _).trans hafter)

/-- The pages hold every row once. -/
theorem concat_perm (htotal : ∀ a b, le a b ∨ le b a)
    (htrans : ∀ a b c, le a b → le b c → le a c) (hcuts : ∀ n, Cuts le rows (n * size))
    (hpages : rows.length ≤ pages * size) {orders : Nat → List α}
    (horders : ∀ n, Arrangement le rows (orders n)) : (concat size pages orders).Perm rows := by
  have hsame : (concat size pages orders).Perm (concat size pages fun _ => orders 0) :=
    List.Perm.flatMap_left _ fun n _ =>
      page_perm htotal htrans (horders 0) (horders n) hcuts n
  refine hsame.trans ?_
  rw [concat_same, List.take_of_length_le]
  · exact (horders 0).perm
  · rw [(horders 0).perm.length_eq]
    exact hpages

/-! ## A page that ends between two equal rows -/

/-- Where an arrangement is not cut, two rows next to each other may change places. -/
theorem exists_swapped (htotal : ∀ a b, le a b ∨ le b a)
    (htrans : ∀ a b c, le a b → le b c → le a c) (h : Arrangement le rows l) {a b : α}
    (ha : a ∈ l.take (k + 1)) (hb : b ∈ l.drop (k + 1)) (hba : le b a) :
    ∃ l' x, Arrangement le rows l' ∧ l[k]? = some x ∧ l'[k + 1]? = some x := by
  have hlength : k + 1 < l.length := by
    by_contra hle
    rw [List.drop_eq_nil_of_le (not_lt.mp hle)] at hb
    cases hb
  obtain ⟨x, y, rest, hl⟩ : ∃ x y rest, l = l.take k ++ x :: y :: rest := by
    refine ⟨l[k], l[k + 1], l.drop (k + 2), ?_⟩
    rw [← List.drop_eq_getElem_cons hlength, ← List.drop_eq_getElem_cons (Nat.lt_of_succ_lt hlength),
      List.take_append_drop]
  have hk : (l.take k).length = k := List.length_take_of_le (by omega)
  generalize l.take k = before at hl hk
  subst hl
  have hrefl : ∀ x, le x x := fun x => (htotal x x).elim id id
  have htake : (before ++ x :: y :: rest).take (k + 1) = before ++ [x] := by
    rw [List.take_append, List.take_of_length_le (by omega), hk]
    simp
  have hdrop : (before ++ x :: y :: rest).drop (k + 1) = y :: rest := by
    rw [List.drop_append, List.drop_eq_nil_of_le (by omega), hk]
    simp
  rw [htake] at ha
  rw [hdrop] at hb
  obtain ⟨hbefore, hafter, hcross⟩ := List.pairwise_append.mp h.sorted
  obtain ⟨hx, hyrest⟩ := List.pairwise_cons.mp hafter
  obtain ⟨hy, hrest⟩ := List.pairwise_cons.mp hyrest
  have hax : le a x := by
    rcases List.mem_append.mp ha with ha | ha
    · exact hcross a ha x List.mem_cons_self
    · rw [List.mem_singleton.mp ha]
      exact hrefl x
  have hyb : le y b := by
    rcases List.mem_cons.mp hb with rfl | hb
    · exact hrefl b
    · exact hy b hb
  have hyx : le y x := htrans y a x (htrans y b a hyb hba) hax
  refine ⟨before ++ y :: x :: rest, x, ⟨?_, ?_⟩, ?_, ?_⟩
  · exact ((List.Perm.swap x y rest).append_left before).trans h.perm
  · rw [List.pairwise_append]
    refine ⟨hbefore, ?_, fun z hz w hw => ?_⟩
    · rw [List.pairwise_cons, List.pairwise_cons]
      refine ⟨fun z hz => ?_, fun z hz => hx z (List.mem_cons_of_mem y hz), hrest⟩
      rcases List.mem_cons.mp hz with rfl | hz
      · exact hyx
      · exact hy z hz
    · refine hcross z hz w ?_
      simp only [List.mem_cons] at hw ⊢
      tauto
  · rw [List.getElem?_append_right (by omega), hk, Nat.sub_self]
    rfl
  · rw [List.getElem?_append_right (by omega), hk, Nat.add_sub_cancel_left]
    rfl

/-- Whatever orders the pages are taken from, together they hold every row once: exactly if
the preorder cuts the rows wherever a page ends. -/
theorem pages_iff (htotal : ∀ a b, le a b ∨ le b a)
    (htrans : ∀ a b c, le a b → le b c → le a c) (hsize : 0 < size) (hnodup : rows.Nodup)
    (hpages : rows.length ≤ pages * size) :
    (∀ orders, (∀ n, Arrangement le rows (orders n)) → (concat size pages orders).Perm rows) ↔
      ∀ n, Cuts le rows (n * size) := by
  refine ⟨fun hall n l hl a ha b hb hba => ?_, fun hcuts orders horders =>
    concat_perm htotal htrans hcuts hpages horders⟩
  cases n with
  | zero =>
    rw [Nat.zero_mul, List.take_zero] at ha
    cases ha
  | succ n =>
    -- the page before the boundary and the one after it show the same row
    have hk : (n + 1) * size = (n * size + (size - 1)) + 1 := by
      rw [Nat.succ_mul]
      omega
    rw [hk] at ha hb
    obtain ⟨l', x, hl', hx, hx'⟩ := exists_swapped htotal htrans hl ha hb hba
    have hlast : n + 1 < pages := by
      have hlength : n * size + (size - 1) + 1 < rows.length := by
        rw [← hl'.perm.length_eq]
        exact (List.getElem?_eq_some_iff.mp hx').1
      have hlt : (n + 1) * size < pages * size := by omega
      exact Nat.lt_of_mul_lt_mul_right hlt
    let orders : Nat → List α := fun m => if m = n + 1 then l' else l
    have horders : ∀ m, Arrangement le rows (orders m) := by
      intro m
      show Arrangement le rows (if m = n + 1 then l' else l)
      split
      · exact hl'
      · exact hl
    have hperm := (hall orders horders).nodup_iff.mpr hnodup
    rw [concat, List.nodup_flatMap] at hperm
    have hdisjoint := hperm.2
    have hfirst : x ∈ page size n (orders n) := by
      show x ∈ page size n (if n = n + 1 then l' else l)
      rw [if_neg (by omega)]
      exact mem_page (by omega) hx
    have hsecond : x ∈ page size (n + 1) (orders (n + 1)) := by
      show x ∈ page size (n + 1) (if n + 1 = n + 1 then l' else l)
      rw [if_pos rfl]
      refine @mem_page _ l' size (n + 1) 0 x hsize ?_
      rw [Nat.add_zero, hk]
      exact hx'
    rw [List.pairwise_iff_getElem] at hdisjoint
    have hpair := hdisjoint n (n + 1) (by simp; omega) (by simpa using hlast) (by omega)
    simp only [List.getElem_range] at hpair
    exact hpair hfirst hsecond

end Pages
