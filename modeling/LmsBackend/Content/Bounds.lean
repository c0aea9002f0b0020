import LmsBackend.Content.Paging
import LmsBackend.Effects.Creations

/-!
# The integers of requests

Python's integers have no bounds, those of the database do: a page's offset is a `bigint`,
and the positions in a lesson and in a course are `integer`s.

- `IntegerRequest`: the requests whose integers reach the database, `IntegerRequest.Fits` the
  range of these integers.
- `IntegersAccepted`: no run of the request fails at an integer, and a page past the end is
  empty.
- `integers_accepted_iff`: exactly if the integers are in range.
-/

namespace LmsBackend

open Mvcc Pages

variable {env : Env} {rc : RequestContext} {w : World} {tx : Tx} {txs : List Tx} {s : Session}
  {α : Type}

/-! ## Requests with integers -/

/-- The requests whose integers are sent to the database. -/
inductive IntegerRequest
  | listing (l : Listing)
  | assignmentRows (f : AssignmentFilter)
  | completeLesson (lessonId userId : Uuid) (lastPositionSeconds : Int)
  | createLesson (courseId : Uuid) (data : AdminLessonCreate)

/-- The service that handles the request. -/
def IntegerRequest.run (env : Env) (rc : RequestContext) (s : Session) : IntegerRequest → M Unit
  | listing l => do let _ ← l.rows env rc l.params.page
  | assignmentRows f => do let _ ← listAssignmentRows env rc f
  | completeLesson lessonId userId lastPositionSeconds => do
    let _ ← LmsBackend.completeLesson env rc s lessonId userId lastPositionSeconds
  | createLesson courseId data => do let _ ← LmsBackend.createLesson rc courseId data

/-- `PageParams` admits the page. -/
def PageParams.Admitted (p : PageParams) : Prop := 1 ≤ p.page ∧ 1 ≤ p.size ∧ p.size ≤ 100

/-- The schemas admit the request. -/
def IntegerRequest.Admitted : IntegerRequest → Prop
  | listing l => l.params.Admitted
  | assignmentRows f => f.toPageParams.Admitted
  | completeLesson _ _ _ => True
  | createLesson _ data => 2 ≤ data.title.length ∧ data.title.length ≤ 200

/-- The value is one of a column of type `integer`. -/
def Int32 (value : Int) : Prop := -2147483648 ≤ value ∧ value ≤ 2147483647

/-- The integers of the request are in range. A listing whose `sort` parameter cannot be
sorted by sends none. -/
def IntegerRequest.Fits (env : Env) : IntegerRequest → Prop
  | listing l => l.key env = none ∨ (l.params.page - 1) * l.params.size < 2 ^ 63
  | assignmentRows f => (f.page - 1) * f.size < 2 ^ 63
  | completeLesson _ _ lastPositionSeconds => Int32 lastPositionSeconds
  | createLesson _ data => Int32 data.orderIndex

/-- The error of an integer that is out of range. -/
def IntegerRefused (e : Err) : Prop :=
  e = .db (.invalidInput "value out of int64 range") ∨ ∃ column, e = .db (.outOfRange column)

/-- In no state does the request fail at an integer. -/
def Accepts (env : Env) (req : IntegerRequest) : Prop :=
  ∀ rc s w guc e, (runM env (req.run env rc s) (w, [⟨guc, [], []⟩])).1 = .error e →
    ¬ IntegerRefused e

/-- In no state does the request fail at an integer, and a page past the end is empty. -/
structure IntegersAccepted (env : Env) (req : IntegerRequest) : Prop where
  accepted : Accepts env req
  past_end : ∀ l, req = .listing l → ∀ rc w guc rows total,
    (runM env (l.rows env rc l.params.page) (w, [⟨guc, [], []⟩])).1 = .ok (rows, total) →
    total ≤ l.params.offset → rows = []

/-! ## Pages -/

theorem PageParams.Admitted.fits_iff {p : PageParams} (h : p.Admitted) :
    p.Fits ↔ (p.page - 1) * p.size < 2 ^ 63 := by
  have hlimit : p.limit < 2 ^ 63 := by
    have hsize : p.limit ≤ 100 := h.2.2
    omega
  exact and_iff_left hlimit

/-- A parameter that cannot be sorted by raises. -/
theorem applySort_none {getattr : String → Attribute α} {sort : Option String}
    (h : sortKey getattr sort = none) (rows : List α) :
    ∃ message, applySort env getattr sort rows = .raise (.unhandled (.runtimeError message)) := by
  have hfield : ∀ field desc, fieldKey getattr field desc = none →
      ∃ message, sortByField env getattr field desc rows =
        .raise (.unhandled (.runtimeError message)) := by
    intro field desc hnone
    unfold fieldKey at hnone
    unfold sortByField
    cases hattr : getattr field with
    | missing =>
      rw [hattr] at hnone
      cases hnone
    | column value =>
      rw [hattr] at hnone
      cases hnone
    | other => exact ⟨_, rfl⟩
  unfold sortKey at h
  unfold applySort
  generalize sort.map (·.toList) = chars at h ⊢
  rcases chars with _ | _ | ⟨c, field⟩
  · cases h
  · cases h
  · by_cases hc : c = '-'
    · subst hc
      exact hfield _ _ h
    · have hkey : fieldKey getattr (String.ofList (c :: field)) false = none := by
        simpa [hc] using h
      simpa [hc] using hfield _ _ hkey

/-- A listing that cannot be sorted fails before its page is sent. -/
theorem runM_listing_unsorted {l : Listing} (hkey : l.key env = none) (n : Nat) :
    ∃ message s', runM env (l.rows env rc n) (w, tx :: txs) =
      (.error (.unhandled (.runtimeError message)), s') := by
  cases l with
  | courses f publishedOnly =>
    have hraises : ∀ rows, ∃ message, applySort env (courseAttribute env)
        (some ((truthy f.sort).getD "-created_at")) rows =
          .raise (.unhandled (.runtimeError message)) := applySort_none hkey
    choose message hraise using hraises
    show ∃ message s', runM env (listCourses env rc { f with page := n } publishedOnly)
      (w, tx :: txs) = _
    unfold listCourses
    simp only [hraise]
    exact ⟨_, _, rfl⟩
  | users params =>
    have hraises : ∀ rows, ∃ message, applySort env (userAttribute env) params.sort rows =
        .raise (.unhandled (.runtimeError message)) := applySort_none hkey
    choose message hraise using hraises
    obtain ⟨message, s', hrun⟩ : ∃ message s', runM env (listUserRows env rc
        { params with page := n }) (w, tx :: txs) =
          (.error (.unhandled (.runtimeError message)), s') := by
      unfold listUserRows
      simp only [hraise]
      exact ⟨_, _, rfl⟩
    exact ⟨message, s', runM_bind_error hrun⟩
  | assignments f publishedOnly => cases hkey
  | progress userId params => cases hkey
  | grades userId params => cases hkey

/-- The rows of the admins' listing of assignments. -/
theorem runM_listAssignmentRows (f : AssignmentFilter) : ∃ r s',
    runM env (listAssignmentRows env rc f) (w, tx :: txs) = (sent f.toPageParams r, s') := by
  unfold listAssignmentRows
  exact ⟨_, (runM_sendPage f.toPageParams rfl).imp fun _ hrun => hrun⟩

/-- What sends a page in every state is refused exactly if the page does not fit. -/
theorem sent_accepted_iff {params : PageParams} {p : RequestContext → Session → M Unit}
    (h : ∀ rc s w guc, ∃ s', runM env (p rc s) (w, [⟨guc, [], []⟩]) = (sent params (), s')) :
    (∀ rc s w guc e, (runM env (p rc s) (w, [⟨guc, [], []⟩])).1 = .error e → ¬ IntegerRefused e) ↔
      params.Fits := by
  constructor
  · intro haccepted
    by_contra hfits
    obtain ⟨s', hrun⟩ := h { requestId := "" } ⟨0⟩ (World.fresh 0 fun _ => []) {}
    rw [sent_unfit hfits] at hrun
    exact haccepted _ _ _ _ _ (congrArg Prod.fst hrun) (.inl rfl)
  · intro hfits rc s w guc e herror
    obtain ⟨s', hrun⟩ := h rc s w guc
    rw [hrun, sent_fits hfits] at herror
    cases herror

theorem listing_past_end (hlaw : env.Lawful) {l : Listing} {rows : List (Row l.table)}
    {total : Nat} (h : (runM env (l.rows env rc l.params.page) (w, tx :: txs)).1 = .ok (rows, total))
    (hpast : total ≤ l.params.offset) : rows = [] := by
  cases hkey : l.key env with
  | none =>
    obtain ⟨message, s', hrun⟩ := @runM_listing_unsorted env rc w tx txs l hkey l.params.page
    rw [hrun] at h
    cases h
  | some key =>
    obtain ⟨s', hrun⟩ := @runM_listing env rc w tx txs l key hkey l.params.page
    rw [hrun] at h
    obtain ⟨-, hpage⟩ := sent_ok h
    obtain ⟨rfl, rfl⟩ := Prod.mk.inj hpage
    refine page_eq_nil (le_of_eq_of_le ?_ hpast)
    have hperm : (ordered env key (arranged env w.draws (l.matching env rc w tx))).Perm
        (l.matching env rc w tx) := by
      rcases key with _ | ⟨value, desc⟩
      · exact arranged_perm hlaw _ _
      · exact (orderBy_perm value desc _).trans (arranged_perm hlaw _ _)
    exact hperm.length_eq

/-! ## Integer columns -/

theorem IntegerRefused.db {e : Err} (h : IntegerRefused e) : ∃ d, e = .db d := by
  rcases h with rfl | ⟨column, rfl⟩
  · exact ⟨_, rfl⟩
  · exact ⟨_, rfl⟩

theorem firstError_some {checks : List (Option DbError)} {d : DbError}
    (h : firstError checks = some d) : some d ∈ checks := by
  obtain ⟨c, hc, hd⟩ := List.exists_of_findSome?_eq_some h
  rw [← show c = some d from hd]
  exact hc

/-- The check does not fail at an integer. -/
def IntegerSafe (check : Option DbError) : Prop := ∀ d, check = some d → ¬ IntegerRefused (.db d)

theorem integerSafe_none : IntegerSafe none := fun _ h => by cases h

theorem integerSafe_taken {constraint : String} {hit : Bool} : IntegerSafe (taken constraint hit) := by
  intro d h
  unfold taken at h
  split at h
  · cases h
    simp [IntegerRefused]
  · cases h

theorem integerSafe_references {constraint : String} {found : Bool} :
    IntegerSafe (references constraint found) := by
  intro d h
  unfold references at h
  split at h
  · cases h
  · cases h
    simp [IntegerRefused]

theorem integerSafe_firstError {checks : List (Option DbError)} (h : ∀ c ∈ checks, IntegerSafe c) :
    IntegerSafe (firstError checks) := fun d hd => h _ (firstError_some hd) d rfl

theorem integerSafe_uniqueError {db : Database Row} {t : Table} {r : Row t} :
    IntegerSafe (uniqueError db t r) := by
  refine integerSafe_firstError (List.forall_mem_cons.mpr ⟨integerSafe_taken,
    List.forall_mem_singleton.mpr ?_⟩)
  cases t <;> first | exact integerSafe_taken | exact integerSafe_none

theorem integerSafe_referenceError {db : Database Row} {t : Table} {r : Row t} :
    IntegerSafe (referenceError db t r) := by
  have hpair : ∀ {a b : Option DbError}, IntegerSafe a → IntegerSafe b → IntegerSafe (firstError [a, b]) :=
    fun ha hb => integerSafe_firstError (List.forall_mem_cons.mpr ⟨ha, List.forall_mem_singleton.mpr hb⟩)
  refine hpair ?_ ?_
  · cases tenantOf t r with
    | none => exact integerSafe_none
    | some tid => exact integerSafe_references
  · cases t with
    | lessonProgress => exact integerSafe_firstError (List.forall_mem_cons.mpr
        ⟨integerSafe_references, List.forall_mem_cons.mpr ⟨integerSafe_references,
          List.forall_mem_singleton.mpr integerSafe_references⟩⟩)
    | courses =>
      dsimp only
      cases r.categoryId with
      | none => exact integerSafe_none
      | some c => exact integerSafe_references
    | _ => first | exact integerSafe_none | exact integerSafe_references |
        exact hpair integerSafe_references integerSafe_references

/-- A row whose columns fit is not refused for an integer. -/
theorem insertError_integerSafe {db : Database Row} {t : Table} {r : Row t}
    (h : columnError t r = none) : IntegerSafe (insertError schema db tx t r) := by
  unfold insertError
  split
  · refine integerSafe_firstError fun c hc => ?_
    simp only [List.mem_cons, List.not_mem_nil, or_false] at hc
    rcases hc with rfl | rfl | rfl
    · rw [h]
      exact integerSafe_none
    · exact integerSafe_uniqueError
    · exact integerSafe_referenceError
  · intro d hd
    cases hd
    simp [IntegerRefused, schema]

/-- A row that only fails at an integer is refused for it. -/
theorem insertError_column {db : Database Row} {t : Table} {r : Row t} {d : DbError}
    (hpolicy : policy tx.guc t r = true) (h : columnError t r = some d) :
    insertError schema db tx t r = some d := by
  show (if policy tx.guc t r then firstError [columnError t r, _, _] else _) = _
  rw [if_pos hpolicy, h]
  rfl

theorem updateError_integerSafe {db : Database Row} {old new : LessonProgress}
    (h : columnError .lessonProgress new = none) :
    IntegerSafe (updateError schema db tx .lessonProgress old new) := by
  unfold updateError
  split
  · show IntegerSafe (firstError [columnError .lessonProgress new, none])
    rw [h]
    exact integerSafe_none
  · intro d hd
    cases hd
    simp [IntegerRefused, schema]

/-! ## Lessons -/

theorem scalar_integerSafe {rows : List α} {e : Err} (h : scalar rows = .error e) :
    ¬ IntegerRefused e := by
  intro hrefused
  obtain ⟨d, rfl⟩ := hrefused.db
  unfold scalar at h
  split at h <;> cases h

/-- A lookup changes nothing, and does not fail at an integer. -/
theorem repoFind_ends {t : Table} {p : Row t → Bool} {Q : Option (Row t) → State → Prop}
    {E : Err → State → Prop} (hok : ∀ r, Q r (w, tx :: txs))
    (herror : ∀ e, ¬ IntegerRefused e → E e (w, tx :: txs)) :
    Ends env (repoFind rc t p) (w, tx :: txs) Q E := by
  have hrun := @runM_repoFind env rc w tx txs t p
  rcases hr : scalar ((scopeRows rc w tx t).filter p) with e | r
  · rw [hr] at hrun
    exact .of_error hrun (herror e (scalar_integerSafe hr))
  · rw [hr] at hrun
    exact .of_ok hrun (hok r)

/-- The row of a completed lesson is not refused for its position, if that is in range. -/
theorem recordProgress_accepted (hp : tx.pending = []) {tenantId userId : Uuid} {lesson : Lesson}
    {progress : Option LessonProgress} {lastPositionSeconds : Int}
    (hfits : Int32 lastPositionSeconds) :
    Ends env (recordProgress s tenantId userId lesson progress lastPositionSeconds)
      (w, tx :: txs) (fun _ _ => True) fun e _ => ¬ IntegerRefused e := by
  have hcolumn : integer "last_position_seconds" lastPositionSeconds = none :=
    integer_eq_none.mpr hfits
  unfold recordProgress
  refine .bind_ok (runM_now _ _) ?_
  cases progress with
  | none =>
    refine .bind_ok (runM_uuid4 _ _) ?_
    refine .bind (repoAdd_ends hp (fun _ => .ret trivial) fun d hd => ?_)
    refine insertError_integerSafe ?_ d hd
    exact hcolumn
  | some progress =>
    have hrun := @runM_updateRow env s .lessonProgress progress.id (fun p : LessonProgress =>
      { p with
        status := .completed
        completedAt := some (env.clock w.ticks)
        lastPositionSeconds := lastPositionSeconds }) w.tick tx txs
    cases htarget : target schema w.tick.db tx .lessonProgress [progress.id] (fun _ => true) with
    | none =>
      rw [htarget] at hrun
      exact .bind (.of_error hrun (by simp [IntegerRefused]))
    | some old =>
      rw [htarget] at hrun
      dsimp only at hrun
      split at hrun
      · rename_i d hd
        refine .bind (.of_error hrun ?_)
        refine updateError_integerSafe ?_ d hd
        exact hcolumn
      · exact .bind_ok hrun (.ret trivial)

theorem requireTenantId_accepted {st : State} {Q : Uuid → State → Prop} (h : ∀ tid, Q tid st) :
    Ends env (requireTenantId rc) st Q fun e _ => ¬ IntegerRefused e := by
  unfold requireTenantId
  cases rc.tenantId with
  | none => exact .raise (by simp [IntegerRefused])
  | some tid => exact .ret (h tid)

theorem completeLesson_accepted (hp : tx.pending = []) {lessonId userId : Uuid}
    {lastPositionSeconds : Int} (hfits : Int32 lastPositionSeconds) :
    Ends env (completeLesson env rc s lessonId userId lastPositionSeconds) (w, tx :: txs)
      (fun _ _ => True) fun e _ => ¬ IntegerRefused e := by
  unfold completeLesson
  refine .bind (requireTenantId_accepted fun tid => ?_)
  refine .bind (repoFind_ends (fun lesson => ?_) fun e he => he)
  refine .bind_ok (show runM env (loadLessons lesson.toList) (w, tx :: txs) =
    (.ok _, (w, tx :: txs)) from rfl) ?_
  cases lesson with
  | none => exact .raise (by simp [IntegerRefused])
  | some lesson =>
    refine .bind (repoFind_ends (fun progress => ?_) fun e he => he)
    refine .bind ((recordProgress_accepted hp hfits).mono (fun progress s' _ => ?_) fun e s' he => he)
    exact .bind (publish_ends fun w' _ _ => .ret trivial)

theorem createLesson_accepted (hp : tx.pending = []) {courseId : Uuid} {data : AdminLessonCreate}
    (htitle : data.title.length ≤ 200) (hfits : Int32 data.orderIndex) :
    Ends env (createLesson rc courseId data) (w, tx :: txs) (fun _ _ => True)
      fun e _ => ¬ IntegerRefused e := by
  unfold createLesson getCourse repoGetOr404
  refine .bind (.bind (.bind (repoFind_ends (fun course => ?_) fun e he => he)))
  cases course with
  | none => exact .raise (by simp [IntegerRefused])
  | some course =>
    refine .ret (.ret (.bind (requireTenantId_accepted fun tid => ?_)))
    refine .bind_ok (runM_uuid4 _ _) ?_
    refine .bind (repoAdd_ends hp (fun _ => .ret trivial) fun d hd => ?_)
    refine insertError_integerSafe ?_ d hd
    refine firstError_eq_none.mpr fun c hc => ?_
    simp only [List.mem_cons, List.not_mem_nil, or_false] at hc
    rcases hc with rfl | rfl | rfl
    · exact if_neg htitle.not_gt
    · exact integer_eq_none.mpr hfits
    · rfl

/-! ## Out of range -/

theorem columnError_position {progress : LessonProgress}
    (h : ¬ Int32 progress.lastPositionSeconds) :
    columnError .lessonProgress progress = some (.outOfRange "last_position_seconds") := if_neg h

theorem columnError_order {lesson : Lesson} (htitle : lesson.title.length ≤ 200)
    (h : ¬ Int32 lesson.orderIndex) :
    columnError .lessons lesson = some (.outOfRange "order_index") := by
  have htitle' : varchar 200 "title" lesson.title = none := if_neg htitle.not_gt
  have horder : integer "order_index" lesson.orderIndex = some (.outOfRange "order_index") :=
    if_neg h
  simp [columnError, firstError, htitle', horder]

/-- A position out of range is refused where there is a lesson to complete. -/
theorem completeLesson_refused {lessonId userId : Uuid} {lastPositionSeconds : Int}
    (h : ¬ Int32 lastPositionSeconds) {lesson : Lesson} {tid : Uuid} (htid : rc.tenantId = some tid)
    (hp : tx.pending = []) (hguc : tx.guc.tenantId = some tid)
    (hlesson : scalar ((scopeRows rc w tx .lessons).filter fun l => l.id = lessonId) =
      .ok (some lesson))
    (hprogress : scalar ((scopeRows rc w tx .lessonProgress).filter fun p =>
      p.userId = userId && p.lessonId = lessonId) = .ok none) :
    ∃ s', runM env (completeLesson env rc s lessonId userId lastPositionSeconds) (w, tx :: txs) =
      (.error (.db (.outOfRange "last_position_seconds")), s') := by
  have hlookup := @runM_repoFind env rc w tx txs .lessons fun l => decide (l.id = lessonId)
  rw [hlesson] at hlookup
  have hnone := @runM_repoFind env rc w tx txs .lessonProgress fun p =>
    decide (p.userId = userId) && decide (p.lessonId = lessonId)
  rw [hprogress] at hnone
  have htenant : runM env (requireTenantId rc) (w, tx :: txs) = (.ok tid, (w, tx :: txs)) := by
    unfold requireTenantId
    rw [htid]
    rfl
  have hload : runM env (loadLessons (some lesson).toList) (w, tx :: txs) =
    (.ok _, (w, tx :: txs)) := rfl
  have hrecord : ∃ s', runM env (recordProgress s tid userId lesson none lastPositionSeconds)
      (w, tx :: txs) = (.error (.db (.outOfRange "last_position_seconds")), s') := by
    unfold recordProgress
    rw [runM_bind_ok (runM_now _ _), runM_bind_ok (runM_uuid4 _ _)]
    rw [runM_bind, runM_repoAdd hp, show insertError schema _ tx .lessonProgress _ =
      some (.outOfRange "last_position_seconds") from
        insertError_column (policy_of_tenant hguc rfl) (columnError_position h)]
    exact ⟨_, rfl⟩
  obtain ⟨s', hrecord⟩ := hrecord
  unfold completeLesson getForUserLesson
  rw [runM_bind_ok htenant, runM_bind_ok hlookup, runM_bind_ok hload]
  dsimp only
  rw [runM_bind_ok hnone, runM_bind_error hrecord]
  exact ⟨s', rfl⟩

/-- A position in a course out of range is refused where there is the course. -/
theorem createLesson_refused {courseId : Uuid} {data : AdminLessonCreate}
    (htitle : data.title.length ≤ 200) (h : ¬ Int32 data.orderIndex) {course : Course} {tid : Uuid}
    (htid : rc.tenantId = some tid) (hp : tx.pending = []) (hguc : tx.guc.tenantId = some tid)
    (hcourse : scalar ((scopeRows rc w tx .courses).filter fun c =>
      decide (keyOf .courses c = [courseId])) = .ok (some course)) :
    ∃ s', runM env (createLesson rc courseId data) (w, tx :: txs) =
      (.error (.db (.outOfRange "order_index")), s') := by
  have hlookup := @runM_repoFind env rc w tx txs .courses fun c =>
    decide (keyOf .courses c = [courseId])
  rw [hcourse] at hlookup
  have htenant : runM env (requireTenantId rc) (w, tx :: txs) = (.ok tid, (w, tx :: txs)) := by
    unfold requireTenantId
    rw [htid]
    rfl
  have hget : runM env (getCourse rc courseId false) (w, tx :: txs) =
      (.ok course, (w, tx :: txs)) := by
    unfold getCourse repoGetOr404
    rw [runM_bind_ok (runM_bind_ok hlookup)]
    rfl
  unfold createLesson
  rw [runM_bind_ok hget, runM_bind_ok htenant, runM_bind_ok (runM_uuid4 _ _), runM_bind,
    runM_repoAdd hp]
  rw [show insertError schema _ tx .lessons _ = some (.outOfRange "order_index") from
    insertError_column (policy_of_tenant hguc rfl) (columnError_order htitle h)]
  exact ⟨_, rfl⟩

/-- A course with a lesson that nobody has opened yet. -/
def classroom (courseId lessonId : Uuid) : World := World.fresh 0 fun
  | .courses => [{ Catalogue.course with id := courseId }]
  | .lessons => [⟨lessonId, 1, courseId, none, "L", .text, none, 0, 0, false, none⟩]
  | _ => []

/-- The settings of the tenant's requests. -/
def classroomGuc : Guc := { tenantId := some 1 }

theorem classroom_lesson (courseId lessonId : Uuid) :
    scalar ((scopeRows Catalogue.context (classroom courseId lessonId) ⟨classroomGuc, [], []⟩
      .lessons).filter fun l => l.id = lessonId) =
      .ok (some ⟨lessonId, 1, courseId, none, "L", .text, none, 0, 0, false, none⟩) := by
  have hscope : scopeRows Catalogue.context (classroom courseId lessonId) ⟨classroomGuc, [], []⟩
      .lessons = [⟨lessonId, 1, courseId, none, "L", .text, none, 0, 0, false, none⟩] := rfl
  rw [hscope]
  simp [scalar]

theorem classroom_course (courseId lessonId : Uuid) :
    scalar ((scopeRows Catalogue.context (classroom courseId lessonId) ⟨classroomGuc, [], []⟩
      .courses).filter fun c => decide (keyOf .courses c = [courseId])) =
      .ok (some { Catalogue.course with id := courseId }) := by
  have hscope : scopeRows Catalogue.context (classroom courseId lessonId) ⟨classroomGuc, [], []⟩
      .courses = [{ Catalogue.course with id := courseId }] := rfl
  rw [hscope]
  simp [scalar, keyOf]

theorem listing_accepts_iff {l : Listing} {key : SortKey (Row l.table)}
    (hkey : l.key env = some key) : Accepts env (.listing l) ↔ l.params.Fits := by
  refine sent_accepted_iff fun rc s w guc => ?_
  obtain ⟨s', hrows⟩ := @runM_listing env rc w ⟨guc, [], []⟩ [] l key hkey l.params.page
  exact ⟨s', runM_sent_map hrows⟩

theorem unsorted_accepts {l : Listing} (hkey : l.key env = none) : Accepts env (.listing l) := by
  intro rc s w guc e hrun
  obtain ⟨message, s', hrows⟩ :=
    @runM_listing_unsorted env rc w ⟨guc, [], []⟩ [] l hkey l.params.page
  rw [show runM env (IntegerRequest.run env rc s (.listing l)) _ = _ from
    runM_bind_error hrows] at hrun
  cases hrun
  simp [IntegerRefused]

theorem assignmentRows_accepts_iff {f : AssignmentFilter} :
    Accepts env (.assignmentRows f) ↔ f.toPageParams.Fits := by
  refine sent_accepted_iff fun rc s w guc => ?_
  obtain ⟨r, s', hrows⟩ := @runM_listAssignmentRows env rc w ⟨guc, [], []⟩ [] f
  exact ⟨s', runM_sent_map hrows⟩

theorem completeLesson_accepts_iff {lessonId userId : Uuid} {lastPositionSeconds : Int} :
    Accepts env (.completeLesson lessonId userId lastPositionSeconds) ↔
      Int32 lastPositionSeconds := by
  constructor
  · intro haccepts
    by_contra hfits
    obtain ⟨s', hrun⟩ := @completeLesson_refused env Catalogue.context (classroom 2 lessonId)
      ⟨classroomGuc, [], []⟩ [] ⟨0⟩ lessonId userId lastPositionSeconds hfits _ 1 rfl rfl rfl
      (classroom_lesson 2 lessonId) rfl
    exact haccepts Catalogue.context ⟨0⟩ _ classroomGuc _
      (congrArg Prod.fst (runM_bind_error hrun)) (.inr ⟨_, rfl⟩)
  · intro hfits rc s w guc e herror
    have hends := (@completeLesson_accepted env rc w ⟨guc, [], []⟩ [] s rfl lessonId userId
      lastPositionSeconds hfits).discard
    exact hends.error (Prod.ext herror rfl)

theorem createLesson_accepts_iff {courseId : Uuid} {data : AdminLessonCreate}
    (htitle : data.title.length ≤ 200) :
    Accepts env (.createLesson courseId data) ↔ Int32 data.orderIndex := by
  constructor
  · intro haccepts
    by_contra hfits
    obtain ⟨s', hrun⟩ := @createLesson_refused env Catalogue.context (classroom courseId 3)
      ⟨classroomGuc, [], []⟩ [] courseId data htitle hfits _ 1 rfl rfl rfl
      (classroom_course courseId 3)
    exact haccepts Catalogue.context ⟨0⟩ _ classroomGuc _
      (congrArg Prod.fst (runM_bind_error hrun)) (.inr ⟨_, rfl⟩)
  · intro hfits rc s w guc e herror
    have hends := (@createLesson_accepted env rc w ⟨guc, [], []⟩ [] rfl courseId data htitle
      hfits).discard
    exact hends.error (Prod.ext herror rfl)

/-- **Integers at the boundary**: the database refuses none of a request's integers, and pages
past the end are empty, exactly if the integers are in range. -/
theorem integers_accepted_iff (hlaw : env.Lawful) {req : IntegerRequest} (hreq : req.Admitted) :
    IntegersAccepted env req ↔ req.Fits env := by
  suffices hiff : Accepts env req ↔ req.Fits env from
    ⟨fun h => hiff.mp h.accepted, fun h => ⟨hiff.mpr h, fun l _ rc w guc rows total hrun =>
      listing_past_end hlaw hrun⟩⟩
  cases req with
  | listing l =>
    cases hkey : l.key env with
    | none => exact iff_of_true (unsorted_accepts hkey) (.inl hkey)
    | some key =>
      rw [listing_accepts_iff hkey, @PageParams.Admitted.fits_iff l.params hreq]
      simp [IntegerRequest.Fits, hkey]
  | assignmentRows f =>
    rw [assignmentRows_accepts_iff, @PageParams.Admitted.fits_iff f.toPageParams hreq]
    rfl
  | completeLesson lessonId userId lastPositionSeconds => exact completeLesson_accepts_iff
  | createLesson courseId data => exact createLesson_accepts_iff hreq.2

/-- The largest page of a hundred rows whose offset can be sent. -/
theorem integers_accepted_last : IntegersAccepted Catalogue.platform
    (.listing (.progress 5 { page := 92233720368547759, size := 100 })) := by
  have hreq : (IntegerRequest.listing (.progress 5
      { page := 92233720368547759, size := 100 })).Admitted :=
    ⟨by decide, by decide, by decide⟩
  exact (integers_accepted_iff (reference_lawful {}) hreq).mpr (.inr (by decide))

/-- The page after it is an error, and so are a position and an order of 2^31. -/
theorem integers_refused :
    ¬ IntegersAccepted Catalogue.platform
      (.listing (.progress 5 { page := 92233720368547760, size := 100 })) ∧
    ¬ IntegersAccepted Catalogue.platform (.completeLesson 3 5 2147483648) ∧
    ¬ IntegersAccepted Catalogue.platform
      (.createLesson 2 { title := "Loops", orderIndex := 2147483648 }) := by
  refine ⟨fun h => ?_, fun h => ?_, fun h => ?_⟩
  · exact absurd ((@listing_accepts_iff _ _ none rfl).mp h.accepted) (by decide)
  · exact absurd (completeLesson_accepts_iff.mp h.accepted).2 (by decide)
  · exact absurd ((createLesson_accepts_iff (by decide)).mp h.accepted).2 (by decide)

end LmsBackend
