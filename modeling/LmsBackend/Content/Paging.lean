import LmsBackend.Content.Visibility
import LmsBackend.Lib.Pages

/-!
# Pages of the listings

Each page of a listing is a query of its own, and the database may return rows that
`ORDER BY` leaves unordered in another order each time.

- `Listing`: the listings, `Listing.rows` one page of each.
- `SortKey`: what a listing is sorted by; `sortKey` reads it off a `sort` parameter.
- `PagesComplete`: the pages together hold every matching row once, and every page knows
  how many rows there are.
- `pages_complete_iff`: exactly if the sort key differs wherever a page ends.
-/

namespace LmsBackend

open Mvcc Pages

variable {env : Env} {rc : RequestContext} {w : World} {tx : Tx} {txs : List Tx} {α : Type}

/-! ## Sorting -/

/-- The collation of the database is a total preorder. -/
structure Env.Collates (env : Env) : Prop where
  total : ∀ a b, env.collate a b = true ∨ env.collate b a = true
  trans : ∀ a b c, env.collate a b = true → env.collate b c = true → env.collate a c = true

/-- What `ORDER BY` compares, and whether it sorts downwards; nothing without `ORDER BY`. -/
abbrev SortKey (α : Type) := Option ((α → SortValue) × Bool)

/-- The first row may come before the second. -/
def SortKey.le (env : Env) (key : SortKey α) (a b : α) : Prop :=
  match key with
  | none => True
  | some (value, desc) =>
    (if desc then (value b).le env (value a) else (value a).le env (value b)) = true

/-- The rows, sorted by the key. -/
def ordered (env : Env) (key : SortKey α) (rows : List α) : List α :=
  match key with
  | none => rows
  | some (value, desc) => orderBy env value desc rows

/-- The key of a field name; `none` for an attribute that is not a column. -/
def fieldKey (getattr : String → Attribute α) (field : String) (desc : Bool) :
    Option (SortKey α) :=
  match getattr field with
  | .missing => some none
  | .column value => some (some (value, desc))
  | .other => none

/-- The key of a `sort` parameter. -/
def sortKey (getattr : String → Attribute α) (sort : Option String) : Option (SortKey α) :=
  match sort.map (·.toList) with
  | none => some none
  | some [] => some none
  | some ('-' :: field) => fieldKey getattr (String.ofList field) true
  | some field => fieldKey getattr (String.ofList field) false

theorem sortByField_eq {getattr : String → Attribute α} {field : String} {desc : Bool}
    {key : SortKey α} (h : fieldKey getattr field desc = some key) (rows : List α) :
    sortByField env getattr field desc rows = .ret (ordered env key rows) := by
  unfold fieldKey at h
  unfold sortByField
  cases hattr : getattr field with
  | missing =>
    rw [hattr] at h
    cases h
    rfl
  | column value =>
    rw [hattr] at h
    cases h
    rfl
  | other =>
    rw [hattr] at h
    cases h

/-- `_apply_sort` sorts by the key. -/
theorem applySort_eq {getattr : String → Attribute α} {sort : Option String} {key : SortKey α}
    (h : sortKey getattr sort = some key) (rows : List α) :
    applySort env getattr sort rows = .ret (ordered env key rows) := by
  unfold sortKey at h
  unfold applySort
  generalize sort.map (·.toList) = chars at h ⊢
  rcases chars with _ | _ | ⟨c, field⟩
  · cases h
    rfl
  · cases h
    rfl
  · by_cases hc : c = '-'
    · subst hc
      exact sortByField_eq h rows
    · have hkey : fieldKey getattr (String.ofList (c :: field)) false = some key := by
        simpa [hc] using h
      have hsort := @sortByField_eq env α getattr _ _ key hkey rows
      simpa [hc] using hsort

theorem SortValue.total (hcollate : env.Collates) (a b : SortValue) :
    a.le env b = true ∨ b.le env a = true := by
  cases a <;> cases b <;> simp [SortValue.le]
  · exact hcollate.total _ _
  · exact Rat.le_total

theorem SortValue.trans (hcollate : env.Collates) (a b c : SortValue)
    (hab : a.le env b = true) (hbc : b.le env c = true) : a.le env c = true := by
  cases a <;> cases b <;> cases c <;> simp [SortValue.le] at hab hbc ⊢
  · exact hcollate.trans _ _ _ hab hbc
  · exact Rat.le_trans hab hbc

theorem SortKey.total (hcollate : env.Collates) (key : SortKey α) (a b : α) :
    key.le env a b ∨ key.le env b a := by
  rcases key with _ | ⟨value, desc⟩
  · exact .inl trivial
  · cases desc with
    | true => exact SortValue.total hcollate _ _
    | false => exact SortValue.total hcollate _ _

theorem SortKey.trans (hcollate : env.Collates) (key : SortKey α) (a b c : α)
    (hab : key.le env a b) (hbc : key.le env b c) : key.le env a c := by
  rcases key with _ | ⟨value, desc⟩
  · trivial
  · cases desc with
    | true => exact SortValue.trans hcollate _ _ _ hbc hab
    | false => exact SortValue.trans hcollate _ _ _ hab hbc

/-- Sorted rows are an arrangement. -/
theorem ordered_arrangement (hcollate : env.Collates) (key : SortKey α) {rows rows' : List α}
    (h : rows'.Perm rows) : Arrangement (key.le env) rows (ordered env key rows') := by
  rcases key with _ | ⟨value, desc⟩
  · exact ⟨h, List.pairwise_of_forall fun _ _ => trivial⟩
  · refine ⟨(orderBy_perm value desc rows').trans h, ?_⟩
    have htotal : Std.Total (SortKey.le env (some (value, desc))) :=
      ⟨SortKey.total hcollate (some (value, desc))⟩
    have htrans : IsTrans α (SortKey.le env (some (value, desc))) :=
      ⟨SortKey.trans hcollate (some (value, desc))⟩
    exact @List.pairwise_insertionSort α (SortKey.le env (some (value, desc)))
      (fun a b => inferInstanceAs (Decidable ((if desc then (value b).le env (value a)
        else (value a).le env (value b)) = true))) htotal htrans rows'

/-- Sorting changes nothing in an arrangement. -/
theorem ordered_eq {key : SortKey α} {rows rows' : List α}
    (h : Arrangement (key.le env) rows rows') : ordered env key rows' = rows' := by
  rcases key with _ | ⟨value, desc⟩
  · rfl
  · exact List.Pairwise.insertionSort_eq h.sorted

/-! ## Listings -/

/-- The listings, with their parameters except the page. -/
inductive Listing
  | courses (f : CourseFilter) (publishedOnly : Bool)
  | users (params : PageParams)
  | assignments (f : AssignmentFilter) (publishedOnly : Bool)
  | progress (userId : Uuid) (params : PageParams)
  | grades (userId : Uuid) (params : PageParams)

namespace Listing

/-- The table whose rows are listed. -/
def table : Listing → Table
  | courses _ _ => .courses
  | users _ => .users
  | assignments _ _ => .assignments
  | progress _ _ => .lessonProgress
  | grades _ _ => .grades

def params : Listing → PageParams
  | courses f _ => f.toPageParams
  | users params => params
  | assignments f _ => f.toPageParams
  | progress _ params => params
  | grades _ params => params

/-- The condition of the query, `_select` aside. -/
def condition (env : Env) : (l : Listing) → Row l.table → Bool
  | courses f publishedOnly => filteredCourse env f publishedOnly
  | users params => fun u => match truthy params.search with
    | some term => searchUser env term u
    | none => true
  | assignments f publishedOnly => filteredAssignment f publishedOnly
  | progress userId _ => fun r => r.userId = userId
  | grades userId _ => fun g => g.userId = userId

/-- What the query sorts by; `none` if its `sort` parameter names something that is not a
column. -/
def key (env : Env) : (l : Listing) → Option (SortKey (Row l.table))
  | courses f _ => sortKey (courseAttribute env) (some ((truthy f.sort).getD "-created_at"))
  | users params => sortKey (userAttribute env) params.sort
  | assignments _ _ => some (some (fun a => .number a.createdAt, true))
  | progress _ _ => some none
  | grades _ _ => some (some (fun g => .number g.gradedAt, true))

/-- One page, and the number of all rows. -/
def rows (env : Env) (rc : RequestContext) (n : Nat) :
    (l : Listing) → M (List (Row l.table) × Nat)
  | courses f publishedOnly => listCourses env rc { f with page := n } publishedOnly
  | users params => do
    let r ← listUserRows env rc { params with page := n }
    return (r.1.map (·.user), r.2)
  | assignments f publishedOnly => do
    let r ← listAssignments env rc { f with page := n } publishedOnly
    return (r.1.map (·.assignment), r.2)
  | progress userId params => myProgress env rc userId { params with page := n }
  | grades userId params => listGrades env rc userId { params with page := n }

/-- The answer to a query for one page. -/
def reply (env : Env) (rc : RequestContext) (n : Nat) (l : Listing) : M (Page (Row l.table)) := do
  let r ← l.rows env rc n
  return Page.create r.1 r.2 { l.params with page := n }

/-- The rows that the listing is about. -/
def matching (env : Env) (rc : RequestContext) (w : World) (tx : Tx) (l : Listing) :
    List (Row l.table) :=
  (scopeRows rc w tx l.table).filter (l.condition env)

theorem select_matching (l : Listing) :
    (seen w tx l.table).filter (fun r => inScope rc l.table r && l.condition env r) =
      l.matching env rc w tx :=
  filter_scope _ _

end Listing

theorem runM_sent_map {β : Type} {p : M α} {params : PageParams} {a : α} {f : α → β}
    {st s' : State} (h : runM env p st = (sent params a, s')) :
    runM env (p >>= fun r => pure (f r)) st = (sent params (f a), s') := by
  rw [runM_bind, h]
  by_cases hfits : params.Fits
  · rw [sent_fits hfits, sent_fits hfits]
    rfl
  · rw [sent_unfit hfits, sent_unfit hfits]

/-- One page of a listing. -/
theorem runM_listing (l : Listing) {key : SortKey (Row l.table)} (hkey : l.key env = some key)
    (n : Nat) :
    ∃ s', runM env (l.rows env rc n) (w, tx :: txs) =
      (sent { l.params with page := n } (page l.params.size (n - 1) (ordered env key
        (arranged env w.draws (l.matching env rc w tx))), (l.matching env rc w tx).length), s') := by
  rw [← l.select_matching]
  cases l with
  | courses f publishedOnly =>
    have hsort : ∀ rows, applySort env (courseAttribute env)
        (some ((truthy f.sort).getD "-created_at")) rows = .ret (ordered env key rows) :=
      applySort_eq hkey
    show ∃ s', runM env (listCourses env rc { f with page := n } publishedOnly) (w, tx :: txs) = _
    unfold listCourses
    simp only [hsort]
    exact runM_sendPage { f.toPageParams with page := n } rfl
  | users params =>
    have hsort : ∀ rows, applySort env (userAttribute env) params.sort rows =
        .ret (ordered env key rows) := applySort_eq hkey
    obtain ⟨s', hrun⟩ : ∃ s', runM env (listUserRows env rc { params with page := n })
        (w, tx :: txs) = (sent { params with page := n } (loadUsersIn (seen w tx)
          (paginate { params with page := n } (ordered env key (arranged env w.draws
            ((seen w tx .users).filter fun r => inScope rc .users r &&
              (Listing.users params).condition env r)))),
          ((seen w tx .users).filter fun r => inScope rc .users r &&
            (Listing.users params).condition env r).length), s') := by
      unfold listUserRows
      simp only [hsort]
      exact runM_sendPage { params with page := n } rfl
    refine ⟨s', (runM_sent_map hrun).trans (congrArg (fun r => (sent _ r, s')) (Prod.ext ?_ rfl))⟩
    exact loadUsersIn_map_user _ _
  | assignments f publishedOnly =>
    cases hkey
    have hpage : ∃ loaded total s', runM env (listAssignments env rc { f with page := n }
        publishedOnly) (w, tx :: txs) = (sent { f.toPageParams with page := n } (loaded, total), s') ∧
        loaded.map (·.assignment) = paginate { f.toPageParams with page := n }
          (ordered env (some (fun a => .number a.createdAt, true)) (arranged env w.draws ((seen w tx .assignments).filter fun r =>
            inScope rc .assignments r && filteredAssignment f publishedOnly r))) ∧
        total = ((seen w tx .assignments).filter fun r =>
            inScope rc .assignments r && filteredAssignment f publishedOnly r).length := by
      refine ⟨_, _, (runM_sendPage { f.toPageParams with page := n } rfl).imp
        fun s' hrun => ⟨hrun, ?_, rfl⟩⟩
      exact (List.map_map ..).trans (List.map_id _)
    obtain ⟨loaded, total, s', hrun, hmap, rfl⟩ := hpage
    exact ⟨s', (runM_sent_map hrun).trans
      (congrArg (fun r => (sent _ r, s')) (Prod.ext hmap rfl))⟩
  | progress userId params =>
    cases hkey
    exact runM_sendPage { params with page := n } rfl
  | grades userId params =>
    cases hkey
    exact runM_sendPage { params with page := n } rfl

/-! ## Complete listings -/

/-- The platform, with a database that returns unordered rows in this order. -/
def Env.ordering (env : Env) (order : Nat → Nat → List Nat) : Env := { env with rowOrder := order }

/-- Every row comes back, once. -/
def LawfulOrder (order : Nat → Nat → List Nat) : Prop := ∀ i n, (order i n).Perm (List.range n)

/-- Whatever orders the database picks, query by query, the pages of the listing hold every
matching row once, and each of them says how many there are. -/
def PagesComplete (env : Env) (rc : RequestContext) (w : World) (l : Listing) : Prop :=
  ∀ order, LawfulOrder order → ∀ worlds : Nat → World, (∀ n, (worlds n).db = w.db) →
    ∃ replies : Nat → Page (Row l.table),
      (∀ n, n = 0 ∨ n < (replies 0).pages →
        (∃ s', runM (env.ordering order) (l.reply (env.ordering order) rc (n + 1))
          (worlds n, [requestTx env rc]) = (.ok (replies n), s')) ∧
        (replies n).total = (l.matching env rc w (requestTx env rc)).length) ∧
      ((List.range (replies 0).pages).flatMap fun n => (replies n).items).Perm
        (l.matching env rc w (requestTx env rc))

/-- Every order of rows is one the database may return them in. -/
theorem exists_indices {l rows : List α} (h : l.Perm rows) :
    ∃ idx : List Nat, idx.Perm (List.range rows.length) ∧ idx.filterMap (fun i => rows[i]?) = l := by
  have hstart : List.Forall₂ (fun a i => rows[i]? = some a) rows (List.range rows.length) := by
    rw [List.forall₂_iff_get]
    refine ⟨List.length_range.symm, fun i hi hi' => ?_⟩
    simp
  obtain ⟨idx, hidx, hperm⟩ := List.perm_comp_forall₂ h hstart
  refine ⟨idx, hperm, ?_⟩
  clear hperm hstart h
  induction hidx with
  | nil => rfl
  | cons hhead _ ih => rw [List.filterMap_cons, hhead, ih]

/-- A lawful order loses no row. -/
theorem arranged_ordering {order : Nat → Nat → List Nat} (hlaw : LawfulOrder order) (seed : Nat)
    (rows : List α) : (arranged (env.ordering order) seed rows).Perm rows := by
  have hidx := (hlaw seed rows.length).filterMap fun i => rows[i]?
  rw [filterMap_range] at hidx
  exact hidx

/-- The database may return the rows in any order, and in another one each time. -/
theorem exists_order {rows : List α} {orders : Nat → List α} (h : ∀ n, (orders n).Perm rows) :
    ∃ order, LawfulOrder order ∧
      ∀ (env : Env) n, arranged (env.ordering order) n rows = orders n := by
  choose idx hidx hrows using fun n => exists_indices (h n)
  refine ⟨fun n len => if len = rows.length then idx n else List.range len, fun n len => ?_,
    fun env n => ?_⟩
  · show (if len = rows.length then idx n else List.range len).Perm (List.range len)
    by_cases hlen : len = rows.length
    · rw [if_pos hlen, hlen]
      exact hidx n
    · rw [if_neg hlen]
  · rw [← hrows n]
    exact congrArg (List.filterMap _) (if_pos rfl)

/-- There are enough pages for all rows. -/
theorem length_le_pages (items : List α) (total : Nat) (params : PageParams)
    (hsize : 0 < params.size) : total ≤ (Page.create items total params).pages * params.size := by
  have hpages : (Page.create items total params).pages =
      (total + params.size - 1) / params.size := if_neg (by omega)
  rw [hpages, Nat.mul_comm]
  have hdiv := Nat.div_add_mod (total + params.size - 1) params.size
  have hmod := Nat.mod_lt (total + params.size - 1) hsize
  omega

/-- The page after the first one begins before the last row. -/
theorem offset_lt {total n size : Nat} (hsize : 0 < size)
    (hn : n < if size = 0 then 0 else (total + size - 1) / size) : n * size < total := by
  rw [if_neg (by omega)] at hn
  have hmul := (Nat.le_div_iff_mul_le hsize).mp (Nat.succ_le_of_lt hn)
  rw [Nat.succ_mul] at hmul
  omega

/-- One page of a listing, in the order the database picks. -/
theorem runM_reply {l : Listing} {key : SortKey (Row l.table)} (hkey : l.key env = some key)
    (order : Nat → Nat → List Nat) {w₁ : World} (hdb : w₁.db = w.db) {n : Nat}
    (hfits : ({ l.params with page := n + 1 } : PageParams).Fits) :
    ∃ s', runM (env.ordering order) (l.reply (env.ordering order) rc (n + 1)) (w₁, tx :: txs) =
      (.ok (Page.create (page l.params.size n (ordered env key
          (arranged (env.ordering order) w₁.draws (l.matching env rc w tx))))
        (l.matching env rc w tx).length { l.params with page := n + 1 }), s') := by
  have hkey' : l.key (env.ordering order) = some key := by
    cases l with
    | _ => exact hkey
  obtain ⟨s', hrun⟩ := @runM_listing (env.ordering order) rc w₁ tx txs l key hkey' (n + 1)
  have hmatching : l.matching (env.ordering order) rc w₁ tx = l.matching env rc w tx := by
    unfold Listing.matching scopeRows seen
    rw [hdb]
    rfl
  rw [hmatching, sent_fits hfits] at hrun
  exact ⟨s', runM_bind_ok hrun⟩

theorem matching_nodup (l : Listing) (hkeys : ((w.db l.table).map (keyOf l.table)).Nodup)
    (htx : tx.writes = []) : (l.matching env rc w tx).Nodup :=
  ((scopeRows_unique hkeys htx).of_map).filter _

/-- The bounds of every page that there is are `bigint`s. -/
theorem fits_of_page {l : Listing} (hsize : 0 < l.params.size) (hlimit : l.params.size ≤ 100)
    (hcount : (w.db l.table).length ≤ 2 ^ 63) {n : Nat}
    (hn : n = 0 ∨ n * l.params.size < (l.matching env rc w (requestTx env rc)).length) :
    ({ l.params with page := n + 1 } : PageParams).Fits := by
  refine ⟨?_, ?_⟩
  · show (n + 1 - 1) * l.params.size < 2 ^ 63
    rw [Nat.add_sub_cancel]
    rcases hn with rfl | hn
    · rw [Nat.zero_mul]
      exact Nat.two_pow_pos 63
    · have hrows : (l.matching env rc w (requestTx env rc)).length ≤ (w.db l.table).length :=
        (List.length_filter_le _ _).trans (length_scopeRows_le _)
      exact hn.trans_le (hrows.trans hcount)
  · show l.params.size < 2 ^ 63
    omega

/-- The pages of a listing are complete exactly if the sort key differs wherever a page
ends. -/
theorem pages_complete_iff (hcollate : env.Collates) (l : Listing)
    (hkeys : ((w.db l.table).map (keyOf l.table)).Nodup) (hcount : (w.db l.table).length ≤ 2 ^ 63)
    (hsize : 0 < l.params.size) (hlimit : l.params.size ≤ 100)
    {key : SortKey (Row l.table)} (hkey : l.key env = some key) :
    PagesComplete env rc w l ↔
      ∀ n, Cuts (key.le env) (l.matching env rc w (requestTx env rc)) (n * l.params.size) := by
  have hnodup := @matching_nodup env rc w (requestTx env rc) l hkeys rfl
  have hpages := @length_le_pages (Row l.table) [] (l.matching env rc w (requestTx env rc)).length
    l.params hsize
  rw [← pages_iff (SortKey.total hcollate key) (SortKey.trans hcollate key) hsize hnodup hpages]
  constructor
  · intro h orders horders
    -- the database picks the order that each page is taken from
    obtain ⟨order, hlaw, hrows⟩ := exists_order fun n => (horders n).perm
    obtain ⟨replies, hruns, hperm⟩ :=
      h order hlaw (fun n => { w with draws := n }) fun _ => rfl
    have hreply : ∀ n, n = 0 ∨ n < (replies 0).pages →
        ({ l.params with page := n + 1 } : PageParams).Fits →
        replies n = Page.create (page l.params.size n (orders n))
          (l.matching env rc w (requestTx env rc)).length { l.params with page := n + 1 } := by
      intro n hn hfits
      obtain ⟨⟨s', hrun⟩, -⟩ := hruns n hn
      obtain ⟨s₁, hrun₁⟩ := @runM_reply env rc w (requestTx env rc) [] l key hkey order
        { w with draws := n } rfl n hfits
      have harranged : arranged (env.ordering order) n
          (l.matching env rc w (requestTx env rc)) = orders n := hrows env n
      rw [hrun] at hrun₁
      have hsame := Except.ok.inj (congrArg Prod.fst hrun₁)
      rw [hsame]
      show Page.create (page l.params.size n (ordered env key (arranged (env.ordering order) n
        (l.matching env rc w (requestTx env rc))))) _ _ = _
      rw [harranged, ordered_eq (horders n)]
    have hfirst := hreply 0 (.inl rfl)
      (@fits_of_page env rc w l hsize hlimit hcount 0 (.inl rfl))
    have hcount₀ : (replies 0).pages = (Page.create ([] : List (Row l.table))
        (l.matching env rc w (requestTx env rc)).length l.params).pages := by
      rw [hfirst]
      rfl
    have hconcat : concat l.params.size (Page.create ([] : List (Row l.table))
        (l.matching env rc w (requestTx env rc)).length l.params).pages orders =
        (List.range (replies 0).pages).flatMap fun n => (replies n).items := by
      rw [← hcount₀]
      refine List.flatMap_congr fun n hn => ?_
      rw [List.mem_range] at hn
      rw [hreply n (.inr hn) (fits_of_page hsize hlimit hcount
        (.inr (offset_lt hsize (hcount₀ ▸ hn))))]
      rfl
    rw [hconcat]
    exact hperm
  · intro h order hlaw worlds hworlds
    refine ⟨fun n => Page.create (page l.params.size n (ordered env key
      (arranged (env.ordering order) (worlds n).draws (l.matching env rc w (requestTx env rc)))))
      (l.matching env rc w (requestTx env rc)).length { l.params with page := n + 1 },
      fun n hn => ⟨runM_reply hkey order (hworlds n)
        (fits_of_page hsize hlimit hcount (hn.imp_right (offset_lt hsize))), rfl⟩, ?_⟩
    exact h _ fun n => ordered_arrangement hcollate key (arranged_ordering hlaw _ _)

/-! ## Two lessons -/

namespace Catalogue

def progress (id lessonId : Uuid) : LessonProgress where
  id := id
  tenantId := 1
  lessonId := lessonId
  courseId := 2
  userId := 5
  status := .completed

/-- A learner completed both lessons of a course. -/
def completed : Database Row
  | .tenants => [{ id := 1, name := "A", slug := "a" }]
  | .users => [learner.user]
  | .courses => [course]
  | .lessons => [⟨3, 1, 2, none, "L", .text, none, 0, 0, false, none⟩,
      ⟨6, 1, 2, none, "M", .text, none, 1, 0, false, none⟩]
  | .lessonProgress => [progress 7 3, progress 8 6]
  | _ => []

/-- The database turns the order round after the first query. -/
def turning (i n : Nat) : List Nat := if i = 0 then List.range n else (List.range n).reverse

theorem turning_lawful : LawfulOrder turning := by
  intro i n
  by_cases hi : i = 0
  · rw [turning, if_pos hi]
  · rw [turning, if_neg hi]
    exact List.reverse_perm _

theorem platform_collates : platform.Collates where
  total a b := by
    show decide (a ≤ b) = true ∨ decide (b ≤ a) = true
    rw [decide_eq_true_iff, decide_eq_true_iff]
    exact String.le_total a b
  trans a b c hab hbc := by
    exact decide_eq_true (String.le_trans (of_decide_eq_true hab) (of_decide_eq_true hbc))

end Catalogue

/-- Both lessons fit on one page. -/
theorem progress_pages_complete :
    PagesComplete Catalogue.platform Catalogue.context (World.fresh 0 Catalogue.completed)
      (.progress 5 { size := 2 }) := by
  refine (pages_complete_iff Catalogue.platform_collates (.progress 5 { size := 2 }) (by decide)
    (by decide) (by decide) (by decide) rfl).mpr fun n l hl a ha b hb _ => ?_
  have hlength : l.length = 2 := hl.perm.length_eq
  cases n with
  | zero => cases ha
  | succ n =>
    rw [List.drop_eq_nil_of_le (by show l.length ≤ (n + 1) * 2; omega)] at hb
    cases hb

/-- One lesson to a page: the database may show the first lesson on both pages. -/
theorem progress_pages_repeat :
    ¬ PagesComplete Catalogue.platform Catalogue.context (World.fresh 0 Catalogue.completed)
      (.progress 5 { size := 1 }) := by
  intro h
  obtain ⟨replies, hruns, hperm⟩ := h Catalogue.turning Catalogue.turning_lawful
    (fun n => { World.fresh 0 Catalogue.completed with draws := n }) fun _ => rfl
  have hreply : ∀ n, (n = 0 ∨ n = 1) → (n = 0 ∨ n < (replies 0).pages) →
      replies n = ⟨[Catalogue.progress 7 3], 2, n + 1, 1, 2⟩ := by
    intro n hn hpage
    have hfits : ({ Listing.params (.progress 5 { size := 1 }) with page := n + 1 } :
        PageParams).Fits := by
      rcases hn with rfl | rfl <;> exact ⟨by decide, by decide⟩
    obtain ⟨⟨s', hrun⟩, -⟩ := hruns n hpage
    obtain ⟨s₁, hrun₁⟩ := @runM_reply Catalogue.platform Catalogue.context
      (World.fresh 0 Catalogue.completed) (requestTx Catalogue.platform Catalogue.context) []
      (.progress 5 { size := 1 }) none rfl Catalogue.turning
      { World.fresh 0 Catalogue.completed with draws := n } rfl n hfits
    rw [hrun] at hrun₁
    rw [Except.ok.inj (congrArg Prod.fst hrun₁)]
    rcases hn with rfl | rfl
    · rfl
    · rfl
  have hfirst := hreply 0 (.inl rfl) (.inl rfl)
  have hsecond := hreply 1 (.inr rfl) (.inr (by rw [hfirst]; decide))
  have hitems : ((List.range (replies 0).pages).flatMap fun n => (replies n).items) =
      [Catalogue.progress 7 3, Catalogue.progress 7 3] := by
    rw [hfirst]
    show (replies 0).items ++ ((replies 1).items ++ []) = _
    rw [hfirst, hsecond]
    rfl
  have hmatching : Listing.matching Catalogue.platform Catalogue.context
      (World.fresh 0 Catalogue.completed) (requestTx Catalogue.platform Catalogue.context)
      (.progress 5 { size := 1 }) = [Catalogue.progress 7 3, Catalogue.progress 8 6] := rfl
  rw [hitems, hmatching] at hperm
  have hmem : Catalogue.progress 8 6 ∈ [Catalogue.progress 7 3, Catalogue.progress 7 3] :=
    hperm.mem_iff.mpr (List.mem_cons_of_mem _ List.mem_cons_self)
  have hother : Catalogue.progress 8 6 ≠ Catalogue.progress 7 3 := by decide
  simp [hother] at hmem

end LmsBackend
