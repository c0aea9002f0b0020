import Mathlib.Data.List.Induction
import LmsBackend.Core.Platform
import LmsBackend.Effects.Serve

/-!
# What learners see of courses and their content

Two ways lead to a course or an assignment, the listing and the detail, and several to
the content of a course. Which rows each of them finds is read off here once.

- `getCourse_found`, `getAssignment_found`: the details.
- `courseListed_iff`, `assignmentListed_iff`: the pages of the unfiltered listings.
- `detail_agrees_iff`: the details agree with the listings unless an unpublished
  assignment is asked for by its identifier.
- `content_closed_iff`: the content of a course that learners do not see is closed only
  where there is none.
-/

namespace LmsBackend

open Mvcc

variable {env : Env} {rc : RequestContext} {s : Session} {w : World} {tx : Tx} {txs : List Tx}
  {α : Type}

/-- The program returns. -/
def Answers (env : Env) (p : M α) (s : State) : Prop := ∃ a s', runM env p s = (.ok a, s')

/-- The undeleted rows of the context's tenant that a query can find. -/
def scopeRows (rc : RequestContext) (w : World) (tx : Tx) (t : Table) : List (Row t) :=
  (seen w tx t).filter (inScope rc t)

theorem filter_scope (t : Table) (p : Row t → Bool) :
    (seen w tx t).filter (fun r => inScope rc t r && p r) = (scopeRows rc w tx t).filter p := by
  rw [scopeRows, List.filter_filter]
  refine List.filter_congr fun r _ => ?_
  exact Bool.and_comm _ _

theorem mem_scopeRows {t : Table} {r : Row t} :
    r ∈ scopeRows rc w tx t ↔ r ∈ seen w tx t ∧ inScope rc t r = true :=
  List.mem_filter

/-- Rows of a table that has unique keys. -/
theorem scopeRows_unique {t : Table} (hkeys : ((w.db t).map (keyOf t)).Nodup)
    (htx : tx.writes = []) : ((scopeRows rc w tx t).map (keyOf t)).Nodup := by
  have hsub : (scopeRows rc w tx t).Sublist (w.db t) := by
    have hview : view schema w.db tx = w.db := view_nil schema w.db htx
    have hseen : (seen w tx t).Sublist (view schema w.db tx t) := List.filter_sublist
    rw [hview] at hseen
    exact List.filter_sublist.trans hseen
  exact (hsub.map (keyOf t)).nodup hkeys

/-! ## Lookups by identifier -/

/-- What a lookup by key finds, among rows with unique keys. -/
theorem scalar_filter {β κ : Type} [DecidableEq κ] {rows : List β} {key : β → κ}
    (h : (rows.map key).Nodup) (k : κ) :
    (scalar (rows.filter fun r => key r = k) = .ok none ∧ ∀ r ∈ rows, key r ≠ k) ∨
      ∃ r ∈ rows, key r = k ∧ rows.filter (fun r => key r = k) = [r] := by
  induction rows with
  | nil => exact .inl ⟨rfl, fun r hr => absurd hr List.not_mem_nil⟩
  | cons a rows ih =>
    obtain ⟨hfresh, hrest⟩ := List.nodup_cons.mp h
    by_cases hk : key a = k
    · have hnone : rows.filter (fun r => key r = k) = [] := by
        rw [List.filter_eq_nil_iff]
        intro r hr heq
        refine hfresh ?_
        rw [hk, ← of_decide_eq_true heq]
        exact List.mem_map_of_mem hr
      refine .inr ⟨a, List.mem_cons_self, hk, ?_⟩
      rw [List.filter_cons_of_pos (by simpa using hk), hnone]
    · rw [List.filter_cons_of_neg (by simpa using hk)]
      obtain ⟨hnone, hall⟩ | ⟨r, hr, hkey, hone⟩ := ih hrest
      · refine .inl ⟨hnone, fun r hr => ?_⟩
        rcases List.mem_cons.mp hr with rfl | hr
        · exact hk
        · exact hall r hr
      · exact .inr ⟨r, List.mem_cons_of_mem a hr, hkey, hone⟩

theorem runM_repoSelect (t : Table) (p : Row t → Bool) :
    runM env (repoSelect rc t p) (w, tx :: txs) =
      (.ok ((scopeRows rc w tx t).filter p), (w, tx :: txs)) := by
  rw [repoSelect, runM_query, filter_scope]

theorem runM_repoFind (t : Table) (p : Row t → Bool) :
    runM env (repoFind rc t p) (w, tx :: txs) =
      (scalar ((scopeRows rc w tx t).filter p), (w, tx :: txs)) := by
  show runM env (repoSelect rc t p >>= scalarOneOrNone) (w, tx :: txs) = _
  rw [repoSelect, runM_bind, runM_query, filter_scope]
  exact runM_scalarOneOrNone _ _

/-- `repo.get_or_404` finds the row in scope with the identifier, or raises `NotFoundError`. -/
theorem repoGetOr404_cases {t : Table} (id : Uuid) (hkeys : ((w.db t).map (keyOf t)).Nodup)
    (htx : tx.writes = []) :
    (runM env (repoGetOr404 rc t id) (w, tx :: txs) =
        (.error (.app .notFound (modelName t ++ " " ++ uuidStr id ++ " not found") .none),
          (w, tx :: txs)) ∧
      ∀ r ∈ scopeRows rc w tx t, keyOf t r ≠ [id]) ∨
    ∃ r ∈ scopeRows rc w tx t, keyOf t r = [id] ∧
      runM env (repoGetOr404 rc t id) (w, tx :: txs) = (.ok r, (w, tx :: txs)) := by
  have hrows := scalar_filter (@scopeRows_unique rc w tx t hkeys htx) [id]
  unfold repoGetOr404
  rw [runM_bind, runM_repoFind]
  obtain ⟨hnone, hall⟩ | ⟨r, hr, hkey, hone⟩ := hrows
  · refine .inl ⟨?_, hall⟩
    rw [hnone]
    rfl
  · refine .inr ⟨r, hr, hkey, ?_⟩
    rw [hone]
    rfl

/-! ## Courses -/

/-- The course is published and in scope. -/
def CourseVisible (rc : RequestContext) (w : World) (tx : Tx) (id : Uuid) : Prop :=
  ∃ c ∈ scopeRows rc w tx .courses, c.id = id ∧ c.status = .published

/-- The learner's `get_course` finds a course that is published and in scope, and raises
`NotFoundError` for any other identifier. -/
theorem getCourse_cases (id : Uuid) (hkeys : ((w.db .courses).map (keyOf .courses)).Nodup)
    (htx : tx.writes = []) :
    ((∃ message, runM env (getCourse rc id true) (w, tx :: txs) =
        (.error (.app .notFound message .none), (w, tx :: txs))) ∧
      ¬ CourseVisible rc w tx id) ∨
    CourseVisible rc w tx id ∧ Answers env (getCourse rc id true) (w, tx :: txs) := by
  unfold getCourse
  obtain ⟨hrun, hall⟩ | ⟨c, hc, hkey, hrun⟩ :=
    @repoGetOr404_cases env rc w tx txs .courses id hkeys htx
  · refine .inl ⟨⟨_, runM_bind_error hrun⟩, ?_⟩
    rintro ⟨c, hc, hid, -⟩
    exact hall c hc (congrArg (fun i => [i]) hid)
  · have hid : c.id = id := List.head_eq_of_cons_eq hkey
    by_cases hpub : c.status = .published
    · refine .inr ⟨⟨c, hc, hid, hpub⟩, c, (w, tx :: txs), ?_⟩
      rw [runM_bind_ok hrun, if_neg (by simp [hpub])]
      rfl
    · refine .inl ⟨⟨"Course not found", ?_⟩, ?_⟩
      · rw [runM_bind_ok hrun, if_pos (by simp [hpub])]
        rfl
      · rintro ⟨c', hc', hid', hpub'⟩
        have hsame : c' = c := List.inj_on_of_nodup_map (scopeRows_unique hkeys htx) hc' hc
          ((congrArg (fun i => [i]) hid').trans hkey.symm)
        exact hpub (hsame ▸ hpub')

theorem getCourse_found (id : Uuid) (hkeys : ((w.db .courses).map (keyOf .courses)).Nodup)
    (htx : tx.writes = []) :
    Answers env (getCourse rc id true) (w, tx :: txs) ↔ CourseVisible rc w tx id := by
  obtain ⟨⟨message, hrun⟩, hno⟩ | ⟨hvis, hans⟩ :=
    @getCourse_cases env rc w tx txs id hkeys htx
  · refine iff_of_false ?_ hno
    rintro ⟨c, s', heq⟩
    rw [hrun] at heq
    cases congrArg Prod.fst heq
  · exact iff_of_true hans hvis

/-! ## Listings -/

/-- The rows of an unordered query, as the database returns them. -/
def arranged (env : Env) (seed : Nat) (rows : List α) : List α :=
  (env.rowOrder seed rows.length).filterMap fun i => rows[i]?

theorem runM_arrange (rows : List α) :
    runM env (arrange env rows) (w, txs) =
      (.ok (arranged env w.draws rows), ({ w with draws := w.draws + 1 }, txs)) := rfl

theorem filterMap_range (rows : List α) :
    (List.range rows.length).filterMap (fun i => rows[i]?) = rows := by
  induction rows using List.reverseRecOn with
  | nil => rfl
  | append_singleton rows a ih =>
    rw [List.length_append, List.length_singleton, List.range_succ, List.filterMap_append]
    have hold : (List.range rows.length).filterMap (fun i => (rows ++ [a])[i]?) =
        (List.range rows.length).filterMap (fun i => rows[i]?) := by
      refine List.filterMap_congr fun i hi => ?_
      exact List.getElem?_append_left (List.mem_range.mp hi)
    rw [hold, ih]
    simp

/-- No row is lost and none comes twice. -/
theorem arranged_perm (hlaw : env.Lawful) (seed : Nat) (rows : List α) :
    (arranged env seed rows).Perm rows := by
  have hperm := (hlaw.rowOrder_perm seed rows.length).filterMap fun i => rows[i]?
  rw [filterMap_range] at hperm
  exact hperm

theorem orderBy_perm (value : α → SortValue) (desc : Bool) (rows : List α) :
    (orderBy env value desc rows).Perm rows :=
  List.perm_insertionSort _ rows

/-- Every row stands on some page, and its bounds are `bigint`s if the number of rows is one. -/
theorem exists_page {rows : List α} {a : α} (ha : a ∈ rows) (hcount : rows.length ≤ 2 ^ 63) :
    ∃ n, ({ page := n } : PageParams).Fits ∧ a ∈ paginate { page := n } rows := by
  obtain ⟨i, hi, rfl⟩ := List.getElem_of_mem ha
  have hoffset : (i / 20 + 1 - 1) * 20 ≤ i := by omega
  have hlimit : i - (i / 20 + 1 - 1) * 20 < 20 := by omega
  refine ⟨i / 20 + 1, ⟨?_, (by decide : 20 < 2 ^ 63)⟩, ?_⟩
  · show (i / 20 + 1 - 1) * 20 < 2 ^ 63
    omega
  rw [paginate, PageParams.offset, PageParams.limit, List.mem_iff_getElem?]
  refine ⟨i - (i / 20 + 1 - 1) * 20, ?_⟩
  rw [List.getElem?_take_of_lt hlimit, List.getElem?_drop, Nat.add_sub_cancel' hoffset]
  exact List.getElem?_eq_getElem hi

theorem mem_of_mem_paginate {params : PageParams} {rows : List α} {a : α}
    (h : a ∈ paginate params rows) : a ∈ rows :=
  List.mem_of_mem_drop (List.mem_of_mem_take h)

/-- What a listing answers with, where the bounds of the page can be sent. -/
def sent (params : PageParams) (a : α) : Except Err α :=
  if params.Fits then .ok a else .error (.db (.invalidInput "value out of int64 range"))

theorem sent_fits {params : PageParams} (h : params.Fits) (a : α) : sent params a = .ok a :=
  if_pos h

theorem sent_unfit {params : PageParams} (h : ¬ params.Fits) (a : α) :
    sent params a = .error (.db (.invalidInput "value out of int64 range")) :=
  if_neg h

theorem sent_ok {params : PageParams} {a b : α} (h : sent params a = .ok b) :
    params.Fits ∧ a = b := by
  unfold sent at h
  split at h
  · exact ⟨‹_›, Except.ok.inj h⟩
  · cases h

/-- The page is sent before the listing answers. -/
theorem runM_sendPage (params : PageParams) {p : M α} {a : α} {st s' : State}
    (hp : runM env p st = (.ok a, s')) :
    ∃ s'', runM env (sendPage params >>= fun _ => p) st = (sent params a, s'') := by
  unfold sendPage sent
  split
  · exact ⟨s', hp⟩
  · exact ⟨st, rfl⟩

/-- The course stands on a page of the learners' listing without filters. -/
def CourseListed (env : Env) (rc : RequestContext) (st : State) (id : Uuid) : Prop :=
  ∃ n rows total s', runM env (listCourses env rc { page := n } true) st = (.ok (rows, total), s') ∧
    ∃ c ∈ rows, c.id = id

theorem truthy_none : truthy none = none := by simp [truthy]

/-- The listing is sorted by age unless a sort is asked for. -/
theorem applySort_createdAt (rows : List Course) :
    applySort env (courseAttribute env) (some "-created_at") rows =
      .ret (orderBy env (fun c : Course => .number c.createdAt) true rows) := rfl

/-- The rows of one page of the learners' listing without filters. -/
theorem runM_listCourses (n : Nat) :
    ∃ total w', runM env (listCourses env rc { page := n } true) (w, tx :: txs) =
      (sent { page := n } (paginate { page := n } (orderBy env
        (fun c : Course => .number c.createdAt) true (arranged env w.draws
          ((scopeRows rc w tx .courses).filter fun c => c.status = .published))), total),
        w') := by
  have hfilter : (fun c : Course => filteredCourse env { page := n } true c) =
      fun c => decide (c.status = .published) := by
    funext c
    simp [filteredCourse, truthy]
  have hselect : (seen w tx .courses).filter (fun r => inScope rc .courses r &&
      filteredCourse env { page := n } true r) =
      (scopeRows rc w tx .courses).filter fun c => c.status = .published := by
    rw [filter_scope]
    exact congrArg (fun p => (scopeRows rc w tx .courses).filter p) hfilter
  have hsort : (truthy ({ page := n } : CourseFilter).sort).getD "-created_at" =
      "-created_at" := by
    show (truthy none).getD _ = _
    rw [truthy_none]
    rfl
  rw [← hselect]
  unfold listCourses
  simp only [hsort, applySort_createdAt]
  exact ⟨_, runM_sendPage { page := n } rfl⟩

theorem courseListed_iff (hlaw : env.Lawful)
    (hcount : (scopeRows rc w tx .courses).length ≤ 2 ^ 63) (id : Uuid) :
    CourseListed env rc (w, tx :: txs) id ↔ CourseVisible rc w tx id := by
  have hmem : ∀ c, c ∈ orderBy env (fun c : Course => .number c.createdAt) true
      (arranged env w.draws
        ((scopeRows rc w tx .courses).filter fun c => c.status = .published)) ↔
      c ∈ scopeRows rc w tx .courses ∧ c.status = .published := by
    intro c
    rw [(orderBy_perm _ _ _).mem_iff, (arranged_perm hlaw _ _).mem_iff, List.mem_filter,
      decide_eq_true_iff]
  constructor
  · rintro ⟨n, rows, total, s', hrun, c, hc, hid⟩
    obtain ⟨total', w', hpage⟩ := @runM_listCourses env rc w tx txs n
    rw [hpage] at hrun
    obtain ⟨-, heq⟩ := sent_ok (congrArg Prod.fst hrun)
    cases heq
    obtain ⟨hscope, hpub⟩ := (hmem c).mp (mem_of_mem_paginate hc)
    exact ⟨c, hscope, hid, hpub⟩
  · rintro ⟨c, hscope, hid, hpub⟩
    have hlength : (orderBy env (fun c : Course => .number c.createdAt) true
        (arranged env w.draws ((scopeRows rc w tx .courses).filter
          fun c => c.status = .published))).length ≤ 2 ^ 63 := by
      rw [(orderBy_perm _ _ _).length_eq, (arranged_perm hlaw _ _).length_eq]
      exact (List.length_filter_le _ _).trans hcount
    obtain ⟨n, hfits, hn⟩ := exists_page ((hmem c).mpr ⟨hscope, hpub⟩) hlength
    obtain ⟨total, w', hpage⟩ := @runM_listCourses env rc w tx txs n
    rw [sent_fits hfits] at hpage
    exact ⟨n, _, total, w', hpage, c, hn, hid⟩

/-! ## Assignments -/

/-- An unordered query draws its order. -/
theorem still_drawn (w : World) (n : Nat) : w.Still { w with draws := n } :=
  ⟨rfl, rfl, fun _ => rfl⟩

/-- Loading quizzes changes neither which assignments there are nor any row. -/
theorem runM_loadAssignments (as : List Assignment) :
    ∃ loaded w', runM env (loadAssignments env as) (w, tx :: txs) = (.ok loaded, (w', tx :: txs)) ∧
      loaded.map (·.assignment) = as ∧ w.Still w' := by
  refine ⟨_, _, rfl, ?_, still_drawn w _⟩
  rw [List.map_map]
  exact List.map_id as

/-- `get_or_404` of an assignment finds the one in scope with the identifier, published or
not, and raises `NotFoundError` for any other identifier. -/
theorem getAssignmentOr404_cases (id : Uuid)
    (hkeys : ((w.db .assignments).map (keyOf .assignments)).Nodup) (htx : tx.writes = []) :
    ∃ w', w.Still w' ∧
      ((runM env (getAssignmentOr404 env rc id) (w, tx :: txs) =
          (.error (.app .notFound (modelName .assignments ++ " " ++ uuidStr id ++ " not found") .none),
            (w', tx :: txs)) ∧
        ∀ a ∈ scopeRows rc w tx .assignments, a.id ≠ id) ∨
      ∃ a, a.assignment ∈ scopeRows rc w tx .assignments ∧ a.assignment.id = id ∧
        runM env (getAssignmentOr404 env rc id) (w, tx :: txs) = (.ok a, (w', tx :: txs))) := by
  have hrows := scalar_filter (@scopeRows_unique rc w tx .assignments hkeys htx) [id]
  have hkey : (fun a : Assignment => decide (keyOf .assignments a = [id])) =
      fun a : Assignment => decide (a.id = id) := by
    funext a
    exact decide_eq_decide.mpr ⟨List.head_eq_of_cons_eq, congrArg fun i => [i]⟩
  have hkey' : ((scopeRows rc w tx .assignments).filter
      fun a => decide (keyOf .assignments a = [id])) =
      (scopeRows rc w tx .assignments).filter fun a => decide (a.id = id) :=
    congrArg (fun p => (scopeRows rc w tx .assignments).filter p) hkey
  obtain ⟨loaded, w', hload, hmap, hstill⟩ := @runM_loadAssignments env w tx txs
    ((scopeRows rc w tx .assignments).filter fun a => a.id = id)
  have hselect : runM env (repoSelect rc .assignments fun a => a.id = id) (w, tx :: txs) =
      (.ok ((scopeRows rc w tx .assignments).filter fun a => a.id = id), (w, tx :: txs)) := by
    rw [repoSelect, runM_query, filter_scope]
  refine ⟨w', hstill, ?_⟩
  unfold getAssignmentOr404
  rw [runM_bind_ok hselect, runM_bind_ok hload, runM_bind, runM_scalarOneOrNone]
  obtain ⟨hnone, hall⟩ | ⟨a, ha, hid, hone⟩ := hrows
  · have hempty : (scopeRows rc w tx .assignments).filter (fun a => a.id = id) = [] := by
      rw [← hkey']
      exact scalar_eq_none hnone
    rw [hempty] at hmap
    rw [List.map_eq_nil_iff.mp hmap]
    refine .inl ⟨rfl, fun a ha heq => hall a ha ?_⟩
    exact congrArg (fun i => [i]) heq
  · rw [← hkey', hone] at hmap
    obtain ⟨x, rfl, rfl⟩ := List.map_eq_singleton_iff.mp hmap
    exact .inr ⟨x, ha, List.head_eq_of_cons_eq hid, rfl⟩

theorem runM_getAssignment (user : LoadedUser) (id : Uuid) (st : State) :
    Answers env (userHandler env rc s user (.getAssignment id)) st ↔
      Answers env (getAssignmentOr404 env rc id) st := by
  have hhandler : userHandler env rc s user (.getAssignment id) =
      getAssignmentOr404 env rc id >>= fun a => pure (.assignment (.ofAssignment a)) := rfl
  rw [hhandler]
  constructor
  · rintro ⟨body, s', hrun⟩
    obtain ⟨a, s₁, ha, -⟩ := Prog.run_bind_eq_ok hrun
    exact ⟨a, s₁, ha⟩
  · rintro ⟨a, s', hrun⟩
    exact ⟨_, s', runM_bind_ok hrun⟩

/-- The assignment is in scope, published or not. -/
theorem getAssignment_found (id : Uuid)
    (hkeys : ((w.db .assignments).map (keyOf .assignments)).Nodup) (htx : tx.writes = []) :
    Answers env (getAssignmentOr404 env rc id) (w, tx :: txs) ↔
      ∃ a ∈ scopeRows rc w tx .assignments, a.id = id := by
  obtain ⟨w', -, ⟨hrun, hall⟩ | ⟨a, ha, hid, hrun⟩⟩ :=
    @getAssignmentOr404_cases env rc w tx txs id hkeys htx
  · refine iff_of_false ?_ fun ⟨a, ha, hid⟩ => hall a ha hid
    rintro ⟨a, s', heq⟩
    rw [hrun] at heq
    cases congrArg Prod.fst heq
  · exact iff_of_true ⟨a, _, hrun⟩ ⟨a.assignment, ha, hid⟩

/-- The assignments on one page of the learners' listing. -/
theorem runM_listAssignments (f : AssignmentFilter) :
    ∃ loaded total w', runM env (listAssignments env rc f true) (w, tx :: txs) =
        (sent f.toPageParams (loaded, total), w') ∧
      loaded.map (·.assignment) = paginate f.toPageParams
        (orderBy env (fun a : Assignment => .number a.createdAt) true (arranged env w.draws
          ((scopeRows rc w tx .assignments).filter (filteredAssignment f true)))) := by
  have hselect := @filter_scope rc w tx .assignments (filteredAssignment f true)
  rw [← hselect]
  refine ⟨_, _, (runM_sendPage f.toPageParams rfl).imp fun s' hrun => ⟨hrun, ?_⟩⟩
  rw [List.map_map]
  exact List.map_id _

theorem mem_listAssignments (hlaw : env.Lawful) {f : AssignmentFilter} {a : Assignment} :
    a ∈ orderBy env (fun a : Assignment => .number a.createdAt) true (arranged env w.draws
        ((scopeRows rc w tx .assignments).filter (filteredAssignment f true))) ↔
      a ∈ scopeRows rc w tx .assignments ∧ filteredAssignment f true a = true := by
  rw [(orderBy_perm _ _ _).mem_iff, (arranged_perm hlaw _ _).mem_iff, List.mem_filter]

/-- The assignment stands on a page of the learners' listing without filters. -/
def AssignmentListed (env : Env) (rc : RequestContext) (st : State) (id : Uuid) : Prop :=
  ∃ n rows total s', runM env (listAssignments env rc { page := n } true) st =
      (.ok (rows, total), s') ∧
    ∃ a ∈ rows, a.assignment.id = id

theorem assignmentListed_iff (hlaw : env.Lawful)
    (hcount : (scopeRows rc w tx .assignments).length ≤ 2 ^ 63) (id : Uuid) :
    AssignmentListed env rc (w, tx :: txs) id ↔
      ∃ a ∈ scopeRows rc w tx .assignments, a.id = id ∧ a.isPublished = true := by
  have hfilter : ∀ (n : Nat) (a : Assignment),
      filteredAssignment { page := n } true a = true ↔ a.isPublished = true := by
    intro n a
    simp [filteredAssignment]
  constructor
  · rintro ⟨n, rows, total, s', hrun, a, ha, hid⟩
    obtain ⟨loaded, total', w', hpage, hmap⟩ := @runM_listAssignments env rc w tx txs { page := n }
    rw [hpage] at hrun
    obtain ⟨-, heq⟩ := sent_ok (congrArg Prod.fst hrun)
    cases heq
    have hmem := List.mem_map_of_mem (f := fun a : LoadedAssignment => a.assignment) ha
    rw [hmap] at hmem
    obtain ⟨hscope, hpub⟩ := (mem_listAssignments hlaw).mp (mem_of_mem_paginate hmem)
    exact ⟨a.assignment, hscope, hid, (hfilter n _).mp hpub⟩
  · rintro ⟨a, hscope, hid, hpub⟩
    have hlength : (orderBy env (fun a : Assignment => .number a.createdAt) true
        (arranged env w.draws ((scopeRows rc w tx .assignments).filter
          (filteredAssignment {} true)))).length ≤ 2 ^ 63 := by
      rw [(orderBy_perm _ _ _).length_eq, (arranged_perm hlaw _ _).length_eq]
      exact (List.length_filter_le _ _).trans hcount
    obtain ⟨n, hfits, hn⟩ := exists_page
      ((@mem_listAssignments env rc w tx hlaw {} a).mpr ⟨hscope, (hfilter 1 a).mpr hpub⟩) hlength
    obtain ⟨loaded, total, w', hpage, hmap⟩ := @runM_listAssignments env rc w tx txs { page := n }
    rw [sent_fits hfits] at hpage
    have hmem : a ∈ loaded.map (·.assignment) := hmap ▸ hn
    obtain ⟨x, hx, rfl⟩ := List.mem_map.mp hmem
    exact ⟨n, loaded, total, w', hpage, x, hx, hid⟩

/-! ## A catalogue -/

namespace Catalogue

def course : Course where
  id := 2
  tenantId := 1
  title := "C"
  slug := "c"
  summary := none
  description := none
  categoryId := none
  status := .archived
  thumbnailUrl := none
  createdAt := 0
  updatedAt := 0

def assignment (published : Bool) : Assignment where
  id := 4
  tenantId := 1
  courseId := 2
  title := "T"
  description := none
  isPublished := published
  createdAt := 0
  updatedAt := 0

/-- A tenant's archived course with a lesson, and an assignment, published or not. -/
def tables (published : Bool) : Database Row
  | .tenants => [{ id := 1, name := "A", slug := "a" }]
  | .courses => [course]
  | .lessons => [⟨3, 1, 2, none, "L", .text, none, 0, 0, false, none⟩]
  | .assignments => [assignment published]
  | _ => []

def world (published : Bool) : World := World.fresh 0 (tables published)

def context : RequestContext := { requestId := "r", tenantId := some 1 }

def platform : Env := Env.reference {}

def learner : LoadedUser :=
  ⟨{ id := 5, tenantId := 1, email := "e", hashedPassword := "h", createdAt := 0, updatedAt := 0 }, []⟩

theorem keys (published : Bool) (t : Table) (h : t = .courses ∨ t = .lessons ∨ t = .assignments) :
    (((world published).db t).map (keyOf t)).Nodup := by
  rcases h with rfl | rfl | rfl <;> exact List.nodup_singleton _

theorem counts (published : Bool) (t : Table) : ((world published).db t).length ≤ 2 ^ 63 := by
  cases t <;> decide +revert

end Catalogue

/-! ## The detail and the listing -/

/-- The learners' details of a course and of an assignment return exactly for what stands
in the learners' listings. -/
structure DetailAgrees (env : Env) (rc : RequestContext) (s : Session) (user : LoadedUser)
    (st : State) (id : Uuid) : Prop where
  course : Answers env (getCourse rc id true) st ↔ CourseListed env rc st id
  assignment : Answers env (userHandler env rc s user (.getAssignment id)) st ↔
    AssignmentListed env rc st id

theorem length_scopeRows_le (t : Table) :
    (scopeRows rc w (requestTx env rc) t).length ≤ (w.db t).length := by
  unfold scopeRows seen visible
  rw [view_nil schema w.db rfl]
  exact (List.length_filter_le _ _).trans (List.length_filter_le _ _)

/-- Detail and listing agree on an identifier exactly where it is not that of an unpublished
assignment of the tenant. -/
theorem detail_agrees_iff (hlaw : env.Lawful) (hcount : ∀ t, (w.db t).length ≤ 2 ^ 63)
    (hcourses : ((w.db .courses).map (keyOf .courses)).Nodup)
    (hassignments : ((w.db .assignments).map (keyOf .assignments)).Nodup) (user : LoadedUser)
    (id : Uuid) :
    DetailAgrees env rc s user (w, [requestTx env rc]) id ↔
      ∀ a ∈ scopeRows rc w (requestTx env rc) .assignments, a.id = id → a.isPublished = true := by
  have hcourse := (@getCourse_found env rc w (requestTx env rc) [] id hcourses rfl).trans
    (@courseListed_iff env rc w (requestTx env rc) [] hlaw
      ((length_scopeRows_le .courses).trans (hcount .courses)) id).symm
  have hfound := (@runM_getAssignment env rc s user id (w, [requestTx env rc])).trans
    (getAssignment_found id hassignments rfl)
  have hlisted := @assignmentListed_iff env rc w (requestTx env rc) [] hlaw
    ((length_scopeRows_le .assignments).trans (hcount .assignments)) id
  constructor
  · rintro ⟨-, h⟩ a ha hid
    obtain ⟨b, hb, hid', hpub⟩ := hlisted.mp (h.mp (hfound.mpr ⟨a, ha, hid⟩))
    have hsame : a = b := List.inj_on_of_nodup_map (scopeRows_unique hassignments rfl) ha hb
      (congrArg (fun i => [i]) (hid.trans hid'.symm))
    exact hsame ▸ hpub
  · intro h
    refine ⟨hcourse, hfound.trans (Iff.trans ?_ hlisted.symm)⟩
    constructor
    · rintro ⟨a, ha, hid⟩
      exact ⟨a, ha, hid, h a ha hid⟩
    · rintro ⟨a, ha, hid, -⟩
      exact ⟨a, ha, hid⟩

theorem detail_agrees_published :
    DetailAgrees Catalogue.platform Catalogue.context ⟨0⟩ Catalogue.learner
      (Catalogue.world true, [requestTx Catalogue.platform Catalogue.context]) 4 :=
  (detail_agrees_iff (reference_lawful _) (Catalogue.counts true)
    (Catalogue.keys true .courses (by decide))
    (Catalogue.keys true .assignments (by decide)) Catalogue.learner 4).mpr (by decide +kernel)

/-- An unpublished assignment is not listed, and its detail is answered. -/
theorem detail_unpublished :
    ¬ DetailAgrees Catalogue.platform Catalogue.context ⟨0⟩ Catalogue.learner
      (Catalogue.world false, [requestTx Catalogue.platform Catalogue.context]) 4 := by
  rintro ⟨-, h⟩
  have hfound : ∃ a ∈ scopeRows Catalogue.context (Catalogue.world false)
      (requestTx Catalogue.platform Catalogue.context) .assignments, a.id = 4 := by
    decide +kernel
  have hlisted := h.mp ((runM_getAssignment Catalogue.learner 4 _).mpr
    ((getAssignment_found 4 (Catalogue.keys false .assignments (by decide)) rfl).mpr hfound))
  obtain ⟨a, ha, -, hpub⟩ := (assignmentListed_iff (reference_lawful _)
    ((length_scopeRows_le .assignments).trans (Catalogue.counts false .assignments)) 4).mp hlisted
  have hall : ∀ a ∈ scopeRows Catalogue.context (Catalogue.world false)
      (requestTx Catalogue.platform Catalogue.context) .assignments, a.isPublished = false := by
    decide +kernel
  exact Bool.false_ne_true ((hall a ha).symm.trans hpub)

/-! ## The content of a course -/

/-- The application declines the request, and nothing is written. -/
def Declined (env : Env) (p : M α) (w : World) (txs : List Tx) : Prop :=
  ∃ kind message w', runM env p (w, txs) = (.error (.app kind message .none), (w', txs)) ∧
    w.Still w' ∧ (kind = .notFound ∨ kind = .validation)

/-- No learner operation exposes or uses content of the course. -/
structure ContentClosed (env : Env) (rc : RequestContext) (s : Session) (userId : Uuid)
    (w : World) (txs : List Tx) (courseId : Uuid) : Prop where
  lessons : ∃ s', runM env (listLessons env rc courseId) (w, txs) = (.ok [], s')
  complete : ∀ l ∈ w.db .lessons, l.courseId = courseId → ∀ position,
    Declined env (completeLesson env rc s l.id userId position) w txs
  submit : ∀ a ∈ w.db .assignments, a.courseId = courseId → ∀ data,
    Declined env (submit env rc s a.id userId data) w txs
  list : ∀ f rows total s', runM env (listAssignments env rc f true) (w, txs) =
    (.ok (rows, total), s') → ∀ a ∈ rows, a.assignment.courseId ≠ courseId
  detail : ∀ id a s', runM env (getAssignmentOr404 env rc id) (w, txs) = (.ok a, s') →
    a.assignment.courseId ≠ courseId

/-- The lessons of a course that are listed are those in scope. -/
theorem runM_listLessons (courseId : Uuid) :
    ∃ loaded s', runM env (listLessons env rc courseId) (w, tx :: txs) = (.ok loaded, s') ∧
      loaded.map (·.lesson) = orderBy env (fun l : Lesson => .number l.orderIndex) false
        (arranged env w.draws ((scopeRows rc w tx .lessons).filter fun l => l.courseId = courseId)) := by
  have hselect := @filter_scope rc w tx .lessons fun l => decide (l.courseId = courseId)
  rw [← hselect]
  refine ⟨_, _, rfl, ?_⟩
  rw [List.map_map]
  exact List.map_id _

theorem listLessons_nil (hlaw : env.Lawful) (courseId : Uuid) :
    (∃ s', runM env (listLessons env rc courseId) (w, tx :: txs) = (.ok [], s')) ↔
      ∀ l ∈ scopeRows rc w tx .lessons, l.courseId ≠ courseId := by
  obtain ⟨loaded, s', hrun, hmap⟩ := @runM_listLessons env rc w tx txs courseId
  have hmem : ∀ l, l ∈ loaded.map (·.lesson) ↔
      l ∈ scopeRows rc w tx .lessons ∧ l.courseId = courseId := by
    intro l
    rw [hmap, (orderBy_perm _ _ _).mem_iff, (arranged_perm hlaw _ _).mem_iff, List.mem_filter,
      decide_eq_true_iff]
  constructor
  · rintro ⟨s'', hnil⟩ l hl hcourse
    rw [hrun] at hnil
    cases hnil
    exact absurd ((hmem l).mpr ⟨hl, hcourse⟩) List.not_mem_nil
  · intro h
    have hnil : loaded.map (·.lesson) = [] := by
      rw [List.eq_nil_iff_forall_not_mem]
      intro l hl
      obtain ⟨hscope, hcourse⟩ := (hmem l).mp hl
      exact h l hscope hcourse
    rw [List.map_eq_nil_iff.mp hnil] at hrun
    exact ⟨s', hrun⟩

theorem runM_requireTenantId {tid : Uuid} (h : rc.tenantId = some tid) (st : State) :
    runM env (requireTenantId rc) st = (.ok tid, st) := by
  rw [requireTenantId, h]
  rfl

/-- A lesson outside the scope is not completed. -/
theorem completeLesson_away {tid : Uuid} (htid : rc.tenantId = some tid) {id userId : Uuid}
    (hscope : ∀ l ∈ scopeRows rc w tx .lessons, l.id ≠ id) (position : Int) :
    Declined env (completeLesson env rc s id userId position) w (tx :: txs) := by
  have hnone : (scopeRows rc w tx .lessons).filter (fun l => l.id = id) = [] := by
    rw [List.filter_eq_nil_iff]
    intro l hl heq
    exact hscope l hl (of_decide_eq_true heq)
  have hfind : runM env (repoFind rc .lessons fun l => l.id = id) (w, tx :: txs) =
      (.ok none, (w, tx :: txs)) := by
    rw [runM_repoFind, hnone]
    rfl
  refine ⟨.notFound, modelName .lessons ++ " " ++ uuidStr id ++ " not found", w, ?_,
    World.Still.refl w, .inl rfl⟩
  unfold completeLesson
  rw [runM_bind_ok (runM_requireTenantId htid _), runM_bind_ok hfind]
  rfl

/-- An assignment outside the scope takes no submission. -/
theorem submit_away {tid : Uuid} (htid : rc.tenantId = some tid) {id userId : Uuid}
    (hkeys : ((w.db .assignments).map (keyOf .assignments)).Nodup) (htx : tx.writes = [])
    (hscope : ∀ a ∈ scopeRows rc w tx .assignments, a.id ≠ id) (data : SubmitRequest) :
    Declined env (submit env rc s id userId data) w (tx :: txs) := by
  obtain ⟨w', hstill, ⟨hrun, -⟩ | ⟨a, ha, hid, -⟩⟩ :=
    @getAssignmentOr404_cases env rc w tx txs id hkeys htx
  · refine ⟨.notFound, modelName .assignments ++ " " ++ uuidStr id ++ " not found", w', ?_, hstill,
      .inl rfl⟩
    unfold submit
    rw [runM_bind_ok (runM_requireTenantId htid _)]
    exact runM_bind_error hrun
  · exact absurd hid (hscope _ ha)

/-- The course has neither lessons nor assignments in the tenant. -/
def Contentless (rc : RequestContext) (w : World) (tx : Tx) (courseId : Uuid) : Prop :=
  (∀ l ∈ scopeRows rc w tx .lessons, l.courseId ≠ courseId) ∧
    ∀ a ∈ scopeRows rc w tx .assignments, a.courseId ≠ courseId

/-- The content of a course is closed exactly where there is none: no operation asks for
the course. -/
theorem contentClosed_iff (hlaw : env.Lawful) {tid : Uuid} (htid : rc.tenantId = some tid)
    (hlessons : ((w.db .lessons).map (keyOf .lessons)).Nodup)
    (hassignments : ((w.db .assignments).map (keyOf .assignments)).Nodup)
    (htx : tx.writes = []) (userId courseId : Uuid) :
    ContentClosed env rc s userId w (tx :: txs) courseId ↔ Contentless rc w tx courseId := by
  have hdb : ∀ {t : Table} {r : Row t}, r ∈ scopeRows rc w tx t → r ∈ w.db t := by
    intro t r hr
    have hview := (mem_visible.mp (mem_scopeRows.mp hr).1).1
    rw [view_nil schema w.db htx] at hview
    exact hview
  constructor
  · intro h
    refine ⟨(listLessons_nil hlaw courseId).mp h.lessons, fun a ha hcourse => ?_⟩
    obtain ⟨b, st, hrun⟩ := (getAssignment_found a.id hassignments htx).mpr ⟨a, ha, rfl⟩
    obtain ⟨w', -, ⟨herr, -⟩ | ⟨c, hc, hid, hfound⟩⟩ :=
      @getAssignmentOr404_cases env rc w tx txs a.id hassignments htx
    · rw [herr] at hrun
      cases congrArg Prod.fst hrun
    · have hsame : c.assignment = a := List.inj_on_of_nodup_map
        (scopeRows_unique hassignments htx) hc ha (congrArg (fun i => [i]) hid)
      exact h.detail _ _ _ hfound (hsame.symm ▸ hcourse)
  · rintro ⟨hnol, hnoa⟩
    constructor
    · exact (listLessons_nil hlaw courseId).mpr hnol
    · intro l hl hcourse position
      refine completeLesson_away htid (fun l' hl' hid => ?_) position
      have hsame : l' = l := List.inj_on_of_nodup_map hlessons (hdb hl') hl
        (congrArg (fun i => [i]) hid)
      exact hnol l' hl' (hsame ▸ hcourse)
    · intro a ha hcourse data
      refine submit_away htid hassignments htx (fun a' ha' hid => ?_) data
      have hsame : a' = a := List.inj_on_of_nodup_map hassignments (hdb ha') ha
        (congrArg (fun i => [i]) hid)
      exact hnoa a' ha' (hsame ▸ hcourse)
    · intro f rows total s' hrun a ha
      obtain ⟨loaded, total', w', hpage, hmap⟩ := @runM_listAssignments env rc w tx txs f
      rw [hpage] at hrun
      obtain ⟨-, heq⟩ := sent_ok (congrArg Prod.fst hrun)
      cases heq
      have hmem := List.mem_map_of_mem (f := fun a : LoadedAssignment => a.assignment) ha
      rw [hmap] at hmem
      exact hnoa _ ((mem_listAssignments hlaw).mp (mem_of_mem_paginate hmem)).1
    · intro id a s' hrun
      obtain ⟨w', -, ⟨herr, -⟩ | ⟨c, hc, -, hfound⟩⟩ :=
        @getAssignmentOr404_cases env rc w tx txs id hassignments htx
      · rw [herr] at hrun
        cases congrArg Prod.fst hrun
      · rw [hfound] at hrun
        cases hrun
        exact hnoa _ hc

/-- What learners see of a course is closed over its content exactly where they see the
course or it has no content. -/
theorem content_closed_iff (hlaw : env.Lawful) {tid : Uuid} (htid : rc.tenantId = some tid)
    (hcourses : ((w.db .courses).map (keyOf .courses)).Nodup)
    (hlessons : ((w.db .lessons).map (keyOf .lessons)).Nodup)
    (hassignments : ((w.db .assignments).map (keyOf .assignments)).Nodup)
    (userId courseId : Uuid) :
    ((∃ message s', runM env (getCourse rc courseId true) (w, [requestTx env rc]) =
        (.error (.app .notFound message .none), s')) →
      ContentClosed env rc s userId w [requestTx env rc] courseId) ↔
    CourseVisible rc w (requestTx env rc) courseId ∨
      Contentless rc w (requestTx env rc) courseId := by
  have hclosed := @contentClosed_iff env rc s w (requestTx env rc) [] hlaw tid htid hlessons
    hassignments rfl userId courseId
  obtain ⟨⟨message, hrun⟩, hno⟩ | ⟨hvis, c, s', hrun⟩ :=
    @getCourse_cases env rc w (requestTx env rc) [] courseId hcourses rfl
  · constructor
    · intro h
      exact .inr (hclosed.mp (h ⟨message, _, hrun⟩))
    · rintro (hvis | hnone) -
      · exact absurd hvis hno
      · exact hclosed.mpr hnone
  · refine iff_of_true ?_ (.inl hvis)
    rintro ⟨message, s'', herr⟩
    rw [hrun] at herr
    cases congrArg Prod.fst herr

theorem content_closed_unknown :
    ContentClosed Catalogue.platform Catalogue.context ⟨0⟩ 5 (Catalogue.world true)
      [requestTx Catalogue.platform Catalogue.context] 9 :=
  (content_closed_iff (reference_lawful _) (rfl : Catalogue.context.tenantId = some 1)
    (Catalogue.keys true .courses (by decide)) (Catalogue.keys true .lessons (by decide))
    (Catalogue.keys true .assignments (by decide)) 5 9).mpr
      (.inr ⟨by decide +kernel, by decide +kernel⟩) ⟨_, _, rfl⟩

/-- Learners do not find the archived course, and its lessons are listed. -/
theorem content_of_archived :
    ¬ ((∃ message s', runM Catalogue.platform (getCourse Catalogue.context 2 true)
        (Catalogue.world true, [requestTx Catalogue.platform Catalogue.context]) =
          (.error (.app .notFound message .none), s')) →
      ContentClosed Catalogue.platform Catalogue.context ⟨0⟩ 5 (Catalogue.world true)
        [requestTx Catalogue.platform Catalogue.context] 2) := by
  intro h
  have hclosed := h ⟨"Course not found", _, rfl⟩
  have hnone := (listLessons_nil (reference_lawful _) 2).mp hclosed.lessons
  have hsome : ∃ l ∈ scopeRows Catalogue.context (Catalogue.world true)
      (requestTx Catalogue.platform Catalogue.context) .lessons, l.courseId = 2 := by
    decide +kernel
  obtain ⟨l, hl, hcourse⟩ := hsome
  exact hnone l hl hcourse

end LmsBackend
