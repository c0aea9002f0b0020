import LmsBackend.Concurrency.CatalogRaces
import LmsBackend.Content.Visibility
import LmsBackend.Effects.Exchanges

/-!
# Enrolling

A learner who has no enrolment in a course, or only a cancelled one, enrols.

- `MayEnrol`: the course is open to the user, as far as the checks of `enroll` say.
- `runM_enroll`: what is left of `enroll` after its checks.
- `enrols_iff`: it succeeds exactly if no row stands for the course and the user, and one
  more enrolment can be counted.
-/

namespace LmsBackend

open Mvcc

variable {env : Env} {rc : RequestContext} {s : Session} {w w' : World} {tid courseId userId : Uuid}
  {course : Course}

/-- The enrolment of the user in the course. -/
def isFor (courseId userId : Uuid) (e : CourseEnrollment) : Bool :=
  decide (e.courseId = courseId) && decide (e.userId = userId)

/-- The tenant has the published, undeleted course and the user, who has no enrolment in it
that is not cancelled. -/
structure MayEnrol (env : Env) (rc : RequestContext) (w : World) (tid courseId userId : Uuid)
    (course : Course) : Prop where
  rls : env.settings.enableRowLevelSecurity = true
  context : rc.tenantId = some tid
  tenant : ∃ t ∈ w.db .tenants, t.id = tid
  courses : ((w.db .courses).map (keyOf .courses)).Nodup
  found : course ∈ w.db .courses ∧ course.id = courseId ∧ course.tenantId = tid
  undeleted : course.deletedAt = none
  published : course.status = .published
  /-- the row is one that the columns admit -/
  stored : columnError .courses (coerce .courses course) = none
  user : ∃ u ∈ w.db .users, u.id = userId ∧ u.tenantId = tid
  /-- the unique constraint -/
  unique : ((w.db .courseEnrollments).filter (isFor courseId userId)).length ≤ 1
  cancelled : ∀ e ∈ w.db .courseEnrollments, isFor courseId userId e = true → e.status = .cancelled
  /-- `uuid4` draws identifiers that are not in use -/
  drawn : ∀ e ∈ w.db .courseEnrollments, e.id ≠ w.nextUuid

/-- One row stands for the course and the user, and is active; the other enrolments are what
they were. -/
structure Enrolled (w w' : World) (courseId userId : Uuid) : Prop where
  one : ∃ e, (w'.db .courseEnrollments).filter (isFor courseId userId) = [e] ∧ e.status = .active
  others : (w'.db .courseEnrollments).filter (fun e => !isFor courseId userId e) =
    (w.db .courseEnrollments).filter fun e => !isFor courseId userId e

/-- The enrolment succeeds, and stands afterwards. -/
def Enrols (env : Env) (rc : RequestContext) (w : World) (courseId userId : Uuid) : Prop :=
  ∃ e w', runM env (getDb env (some rc) fun s => enroll env rc s courseId userId) (w, []) =
    (.ok e, (w', [])) ∧ Enrolled w w' courseId userId

/-- The row that `enroll` adds. -/
def newEnrollment (env : Env) (w : World) (tid courseId userId : Uuid) : CourseEnrollment where
  id := w.nextUuid
  tenantId := tid
  courseId := courseId
  userId := userId
  status := .active
  enrolledAt := env.clock w.ticks

/-- What `enroll` does after its checks. -/
def storeEnrollment (env : Env) (s : Session) (course : Course) (e : CourseEnrollment) :
    M CourseEnrollment := do
  repoAdd .courseEnrollments e
  updateRow s .courses course.id fun c => { c with enrollmentCount := course.enrollmentCount + 1 }
  publish env ⟨some e.tenantId, some e.userId, .courseEnrolled e.courseId e.id⟩
  return e

/-- The transaction of the request. -/
abbrev contextTx (env : Env) (rc : RequestContext) : Tx := boundTx env rc.tenantId rc.isSuperadmin

/-- A unit of work whose body returns is committed. -/
theorem runM_getDb_ok {α : Type} {body : Session → M α} {a : α} {tx : Tx}
    (h : runM env (body ⟨env.clock w.ticks⟩) (w.tick, [contextTx env rc]) = (.ok a, (w', [tx]))) :
    runM env (getDb env (some rc) body) (w, []) = (.ok a, (committed w' tx, [])) := by
  rw [runM_getDb, Option.bind_some, Option.map_some, Option.getD_some, h]
  dsimp only
  rw [runM_commitSession]

/-- The body of a unit of work that returns has returned. -/
theorem runM_getDb_returned {α : Type} {body : Session → M α} {a : α} {s' : State}
    (h : runM env (getDb env (some rc) body) (w, []) = (.ok a, s')) :
    ∃ s₁, runM env (body ⟨env.clock w.ticks⟩) (w.tick, [contextTx env rc]) = (.ok a, s₁) := by
  rw [runM_getDb, Option.bind_some, Option.map_some, Option.getD_some] at h
  rcases hbody : runM env (body ⟨env.clock w.ticks⟩) (w.tick, [contextTx env rc]) with ⟨r, s₁⟩
  rw [hbody] at h
  cases r with
  | ok a' =>
    cases Except.ok.inj (congrArg Prod.fst h)
    exact ⟨s₁, rfl⟩
  | error e => cases congrArg Prod.fst h

/-- The checks let the user pass. -/
theorem runM_enroll (h : MayEnrol env rc w tid courseId userId course) :
    runM env (enroll env rc s courseId userId) (w, [contextTx env rc]) =
      runM env (storeEnrollment env s course (newEnrollment env w tid courseId userId))
        ({ w.tick with nextUuid := w.nextUuid + 1 }, [contextTx env rc]) := by
  obtain ⟨hcourse, hid, htenant⟩ := h.found
  have hpolicy : ∀ {t : Table} {r : Row t}, tenantOf t r = some tid →
      schema.policy (contextTx env rc).guc t r = true := bound_policy h.rls h.context
  have hscope : course ∈ scopeRows rc w (contextTx env rc) .courses := by
    rw [mem_scopeRows]
    refine ⟨(mem_seen rfl).mpr ⟨hcourse, @hpolicy .courses course (congrArg some htenant)⟩, ?_⟩
    exact (inScope_iff h.context (by decide)).mpr ⟨h.undeleted, congrArg some htenant⟩
  have hget : runM env (repoGetOr404 rc .courses courseId) (w, [contextTx env rc]) =
      (.ok course, (w, [contextTx env rc])) := by
    obtain ⟨-, hall⟩ | ⟨c, hc, hkey, hrun⟩ :=
      @repoGetOr404_cases env rc w (contextTx env rc) [] .courses courseId h.courses rfl
    · exact absurd (congrArg (fun i => [i]) hid) (hall course hscope)
    · have hsame : c = course := List.inj_on_of_nodup_map (scopeRows_unique h.courses rfl) hc
        hscope (hkey.trans (congrArg (fun i => [i]) hid.symm))
      rw [hrun, hsame]
  obtain ⟨existing, hexisting, hnone⟩ : ∃ existing,
      runM env (getForUserCourse rc userId courseId) (w, [contextTx env rc]) =
        (.ok existing, (w, [contextTx env rc])) ∧
      (existing.any fun e => e.status ≠ .cancelled) = false := by
    have hrun : runM env (getForUserCourse rc userId courseId) (w, [contextTx env rc]) =
        (scalar ((seen w (contextTx env rc) .courseEnrollments).filter fun e =>
          inScope rc .courseEnrollments e && (e.userId = userId && e.courseId = courseId)),
          (w, [contextTx env rc])) := runM_scalarOneOrNone _ _
    have hrows : ∀ e, e ∈ (seen w (contextTx env rc) .courseEnrollments).filter (fun e =>
        inScope rc .courseEnrollments e && (e.userId = userId && e.courseId = courseId)) →
        e.status = .cancelled := by
      intro e he
      obtain ⟨hseen, hcond⟩ := List.mem_filter.mp he
      simp only [Bool.and_eq_true, decide_eq_true_iff] at hcond
      refine h.cancelled e ((mem_seen rfl).mp hseen).1 ?_
      simp [isFor, hcond.2.1, hcond.2.2]
    have hlength : ((seen w (contextTx env rc) .courseEnrollments).filter fun e =>
        inScope rc .courseEnrollments e && (e.userId = userId && e.courseId = courseId)).length ≤
          1 := by
      refine le_trans ?_ h.unique
      rw [← List.countP_eq_length_filter, ← List.countP_eq_length_filter]
      rw [seen, visible_fresh rfl, List.countP_filter]
      refine List.countP_mono_left fun e _ he => ?_
      simp only [Bool.and_eq_true, decide_eq_true_iff] at he
      simp [isFor, he.1.2.1, he.1.2.2]
    rw [hrun]
    rcases hfound : (seen w (contextTx env rc) .courseEnrollments).filter (fun e =>
      inScope rc .courseEnrollments e && (e.userId = userId && e.courseId = courseId)) with
      _ | ⟨e, _ | ⟨e', rest⟩⟩
    · exact ⟨none, rfl, rfl⟩
    · refine ⟨some e, rfl, ?_⟩
      have hcancelled := hrows e (hfound ▸ List.mem_singleton_self e)
      simp [hcancelled]
    · rw [hfound] at hlength
      exact absurd hlength (by simp)
  unfold enroll
  rw [runM_bind_ok (runM_requireTenantId h.context _), runM_bind_ok hget]
  rw [if_neg (by simp [h.published]), runM_bind_ok hexisting, if_neg (Bool.eq_false_iff.mp hnone)]
  rfl

theorem MayEnrol.tick (h : MayEnrol env rc w tid courseId userId course) :
    MayEnrol env rc w.tick tid courseId userId course :=
  ⟨h.rls, h.context, h.tenant, h.courses, h.found, h.undeleted, h.published, h.stored, h.user,
    h.unique, h.cancelled, h.drawn⟩

/-- The counter of a stored course can be written below its maximum. -/
theorem countedCourse_fits (hstored : columnError .courses (coerce .courses course) = none) :
    columnError .courses (countedCourse s course) = none ↔ course.enrollmentCount < 2147483647 := by
  obtain ⟨htitle, hslug, hsummary, hprice, hthumbnail, hcount⟩ := columnError_courses.mp hstored
  rw [columnError_courses]
  have hrange := integer_eq_none.mp hcount
  constructor
  · intro h
    have hlast := integer_eq_none.mp h.2.2.2.2.2
    have hnext : course.enrollmentCount + 1 ≤ 2147483647 := hlast.2
    omega
  · intro h
    refine ⟨htitle, hslug, hsummary, hprice, hthumbnail, integer_eq_none.mpr ⟨?_, ?_⟩⟩
    · show -2147483648 ≤ course.enrollmentCount + 1
      have hlow : -2147483648 ≤ course.enrollmentCount := hrange.1
      omega
    · show course.enrollmentCount + 1 ≤ 2147483647
      omega

/-- The row is inserted exactly if none stands for the course and the user. -/
theorem insert_enrollment (h : MayEnrol env rc w tid courseId userId course) {w₁ : World}
    (hdb : w₁.db = w.db) :
    insertError schema w₁.db (contextTx env rc) .courseEnrollments
        (newEnrollment env w tid courseId userId) = none ↔
      ∀ e ∈ w.db .courseEnrollments, isFor courseId userId e = false := by
  have hview : view schema w₁.db (contextTx env rc) = w.db := (view_nil schema w₁.db rfl).trans hdb
  constructor
  · intro hnone e he
    have hunique := (checkInsert_eq_none.mp (insertError_none hnone).2).2.1
    rw [hview] at hunique
    have hkeys := (uniqueError_courseEnrollments.mp hunique).2 e he
    by_cases hcourse : e.courseId = courseId
    · rw [isFor, Bool.and_eq_false_iff]
      exact .inr (decide_eq_false (hkeys hcourse))
    · simp [isFor, hcourse]
  · intro hfree
    refine insertError_eq_none (bound_policy h.rls h.context rfl) rfl ?_ ?_
    · rw [hview, uniqueError_courseEnrollments]
      refine ⟨h.drawn, fun e he hcourse huser => ?_⟩
      have hnot := hfree e he
      have hcourse : e.courseId = courseId := hcourse
      have huser : e.userId = userId := huser
      simp [isFor, hcourse, huser] at hnot
    · rw [hview, referenceError_courseEnrollments]
      obtain ⟨u, hu, huid, -⟩ := h.user
      exact ⟨h.tenant, ⟨course, h.found.1, h.found.2.1⟩, u, hu, huid⟩

/-- The counter is written exactly if it fits. -/
theorem update_counter (h : MayEnrol env rc w tid courseId userId course) {w₁ : World}
    (hdb : w₁.db = w.db) (e : CourseEnrollment) :
    target schema w₁.db (enrolledTx env rc e) .courses [course.id] (fun _ => true) = some course ∧
      (updateError schema w₁.db (enrolledTx env rc e) .courses course (countedCourse s course) =
        none ↔ course.enrollmentCount < 2147483647) := by
  obtain ⟨hcourse, hid, htenant⟩ := h.found
  have hview : view schema w₁.db (enrolledTx env rc e) .courses = w.db .courses :=
    (enrolledTx_courses w₁.db e).trans (congrFun hdb .courses)
  have hpolicy : ∀ c : Course, c.tenantId = tid →
      schema.policy (enrolledTx env rc e).guc .courses c = true := fun c hc =>
    bound_policy h.rls h.context (t := .courses) (congrArg some hc)
  constructor
  · refine find_only (mem_visible.mpr ⟨hview ▸ hcourse, hpolicy course htenant⟩) ?_ ?_
    · simp [schema, keyOf]
    · intro c hc hkey
      have hc' : c ∈ w.db .courses := hview ▸ (mem_visible.mp hc).1
      rw [Bool.and_true, decide_eq_true_iff] at hkey
      exact List.inj_on_of_nodup_map h.courses hc' hcourse hkey
  · rw [← countedCourse_fits (s := s) h.stored, updateError,
      if_pos (hpolicy (countedCourse s course) htenant)]
    exact checkUpdate_course rfl

/-- The rows after the enrolment was stored. -/
theorem enrolledTx_rows {db : Database Row} {x : Mvcc.Write Row (List Uuid)}
    (hx : x.table ≠ .courseEnrollments) (e : CourseEnrollment) :
    view schema db ((enrolledTx env rc e).push x) .courseEnrollments =
      db .courseEnrollments ++ [e] := by
  rw [view_push, Write.apply_other hx, enrolledTx, view_push, view_nil schema db rfl,
    inserting, Write.apply_insert]
  rfl

/-- Without a row for the course and the user, and below the maximum, the row is stored. -/
theorem storeEnrollment_ok (h : MayEnrol env rc w tid courseId userId course) {w₁ : World}
    (hdb : w₁.db = w.db)
    (hfree : ∀ e ∈ w.db .courseEnrollments, isFor courseId userId e = false)
    (hcount : course.enrollmentCount < 2147483647) :
    ∃ w₂ tx, runM env (storeEnrollment env s course (newEnrollment env w tid courseId userId))
        (w₁, [contextTx env rc]) =
          (.ok (newEnrollment env w tid courseId userId), (w₂, [tx])) ∧ tx.pending = [] ∧
      view schema w₂.db tx .courseEnrollments =
        w.db .courseEnrollments ++ [newEnrollment env w tid courseId userId] := by
  obtain ⟨htarget, hupdate⟩ := @update_counter env rc s w tid courseId userId course h w₁ hdb
    (newEnrollment env w tid courseId userId)
  have hinsert : runM env (repoAdd .courseEnrollments (newEnrollment env w tid courseId userId))
      (w₁, [contextTx env rc]) = (.ok (), (w₁,
        [enrolledTx env rc (newEnrollment env w tid courseId userId)])) := by
    have hnone : insertError schema w₁.db (contextTx env rc) .courseEnrollments
        (schema.coerce .courseEnrollments (newEnrollment env w tid courseId userId)) = none :=
      (insert_enrollment h hdb).mpr hfree
    rw [runM_repoAdd rfl, hnone]
    rfl
  have hcounter : runM env (updateRow s .courses course.id fun c =>
        { c with enrollmentCount := course.enrollmentCount + 1 })
      (w₁, [enrolledTx env rc (newEnrollment env w tid courseId userId)]) = (.ok (), (w₁,
        [(enrolledTx env rc (newEnrollment env w tid courseId userId)).push
          (.update .courses [course.id] (countedCourse s course))])) := by
    have hnone : updateError schema w₁.db
        (enrolledTx env rc (newEnrollment env w tid courseId userId)) .courses course
        (schema.coerce .courses (touch s.startedAt .courses
          { course with enrollmentCount := course.enrollmentCount + 1 })) = none :=
      hupdate.mpr hcount
    rw [runM_updateRow, htarget]
    dsimp only
    rw [hnone]
    rfl
  obtain ⟨w₂, hpublish, hlog, -, -⟩ := @runM_publish env ⟨some tid, some userId,
    .courseEnrolled courseId w.nextUuid⟩ w₁
      [(enrolledTx env rc (newEnrollment env w tid courseId userId)).push
        (.update .courses [course.id] (countedCourse s course))]
  refine ⟨w₂, (enrolledTx env rc (newEnrollment env w tid courseId userId)).push
    (.update .courses [course.id] (countedCourse s course)), ?_, rfl, ?_⟩
  · unfold storeEnrollment
    rw [runM_bind_ok hinsert, runM_bind_ok hcounter]
    exact runM_bind_ok hpublish
  · rw [enrolledTx_rows (by rintro ⟨⟩), hlog .courseEnrollments (by rintro ⟨⟩), hdb]

/-- What was stored says that no row stood for the course and the user, and that the counter
was below its maximum. -/
theorem storeEnrollment_free (h : MayEnrol env rc w tid courseId userId course) {w₁ : World}
    (hdb : w₁.db = w.db) {e : CourseEnrollment} {s' : State}
    (hrun : runM env (storeEnrollment env s course (newEnrollment env w tid courseId userId))
      (w₁, [contextTx env rc]) = (.ok e, s')) :
    (∀ e ∈ w.db .courseEnrollments, isFor courseId userId e = false) ∧
      course.enrollmentCount < 2147483647 := by
  obtain ⟨_, s₁, hinsert, hrun⟩ := Prog.run_bind_eq_ok hrun
  obtain ⟨_, s₂, hcounter, -⟩ := Prog.run_bind_eq_ok hrun
  have hs₁ := runM_repoAdd_ok rfl hinsert
  subst hs₁
  constructor
  · refine (insert_enrollment h hdb).mp ?_
    replace hinsert := (runM_repoAdd rfl .courseEnrollments
      (newEnrollment env w tid courseId userId)).symm.trans hinsert
    cases herror : insertError schema w₁.db (contextTx env rc) .courseEnrollments
      (schema.coerce .courseEnrollments (newEnrollment env w tid courseId userId)) with
    | none => exact herror
    | some e =>
      rw [herror] at hinsert
      cases congrArg Prod.fst hinsert
  · obtain ⟨htarget, hupdate⟩ := @update_counter env rc s w tid courseId userId course h w₁ hdb
      (newEnrollment env w tid courseId userId)
    refine hupdate.mp ?_
    replace hcounter := (runM_updateRow s .courses course.id _ w₁
      (enrolledTx env rc (newEnrollment env w tid courseId userId)) []).symm.trans hcounter
    rw [htarget] at hcounter
    dsimp only at hcounter
    cases herror : updateError schema w₁.db
      (enrolledTx env rc (newEnrollment env w tid courseId userId)) .courses course
      (schema.coerce .courses (touch s.startedAt .courses
        { course with enrollmentCount := course.enrollmentCount + 1 })) with
    | none => exact herror
    | some e =>
      rw [herror] at hcounter
      cases congrArg Prod.fst hcounter

/-- Enrolling, where no row stands for the course and the user. -/
theorem enroll_ok (h : MayEnrol env rc w tid courseId userId course)
    (hfree : ∀ e ∈ w.db .courseEnrollments, isFor courseId userId e = false)
    (hcount : course.enrollmentCount < 2147483647) :
    ∃ w₂ tx, runM env (enroll env rc s courseId userId) (w, [contextTx env rc]) =
        (.ok (newEnrollment env w tid courseId userId), (w₂, [tx])) ∧ tx.pending = [] ∧
      view schema w₂.db tx .courseEnrollments =
        w.db .courseEnrollments ++ [newEnrollment env w tid courseId userId] := by
  rw [runM_enroll h]
  exact storeEnrollment_ok h rfl hfree hcount

/-- What an enrolment that returns says of the rows before it. -/
theorem enroll_free (h : MayEnrol env rc w tid courseId userId course) {e : CourseEnrollment}
    {s' : State}
    (hrun : runM env (enroll env rc s courseId userId) (w, [contextTx env rc]) = (.ok e, s')) :
    (∀ e ∈ w.db .courseEnrollments, isFor courseId userId e = false) ∧
      course.enrollmentCount < 2147483647 := by
  rw [runM_enroll h] at hrun
  have hdb : ({ w.tick with nextUuid := w.nextUuid + 1 } : World).db = w.db := rfl
  exact storeEnrollment_free h hdb hrun

/-- A user without a live enrolment enrols exactly if no row stands for the course and the
user, and one more enrolment can be counted. -/
theorem enrols_iff (h : MayEnrol env rc w tid courseId userId course) :
    Enrols env rc w courseId userId ↔
      (∀ e ∈ w.db .courseEnrollments, isFor courseId userId e = false) ∧
        course.enrollmentCount < 2147483647 := by
  constructor
  · rintro ⟨e, w', hrun, -⟩
    obtain ⟨s₁, hbody⟩ := runM_getDb_returned hrun
    have hfree := @enroll_free env rc ⟨env.clock w.ticks⟩ w.tick tid courseId userId course h.tick
      e s₁ hbody
    exact hfree
  · rintro ⟨hfree, hcount⟩
    obtain ⟨w₂, tx, hbody, hpending, hrows⟩ :=
      @enroll_ok env rc ⟨env.clock w.ticks⟩ w.tick tid courseId userId course h.tick hfree hcount
    have hcommitted : (committed w₂ tx).db .courseEnrollments =
        w.db .courseEnrollments ++ [newEnrollment env w.tick tid courseId userId] := by
      rw [committed_nil hpending]
      exact hrows
    refine ⟨newEnrollment env w.tick tid courseId userId, committed w₂ tx, runM_getDb_ok hbody,
      ?_, ?_⟩
    · refine ⟨newEnrollment env w.tick tid courseId userId, ?_, rfl⟩
      rw [hcommitted, List.filter_append,
        List.filter_eq_nil_iff.mpr fun e he => by simp [hfree e he]]
      simp [isFor, newEnrollment]
    · rw [hcommitted, List.filter_append]
      simp [isFor, newEnrollment]

/-! ## A learner with and without a cancelled enrolment -/

namespace Campus

/-- The learner 5 of tenant 1 cancelled an earlier enrolment in course 2. -/
def cancelled : CourseEnrollment where
  id := 6
  tenantId := 1
  courseId := 2
  userId := 5
  status := .cancelled
  enrolledAt := 0

/-- The published course, the learner and these enrolments. -/
def world (enrollments : List CourseEnrollment) : World := World.fresh 0 fun
  | .tenants => [{ id := 1, name := "A", slug := "a" }]
  | .courses => [{ Catalogue.course with status := .published }]
  | .users => [Catalogue.learner.user]
  | .courseEnrollments => enrollments
  | _ => []

theorem open_to_learner {enrollments : List CourseEnrollment}
    (hunique : (enrollments.filter (isFor 2 5)).length ≤ 1)
    (hcancelled : ∀ e ∈ enrollments, isFor 2 5 e = true → e.status = .cancelled)
    (hdrawn : ∀ e ∈ enrollments, e.id ≠ 1000) :
    MayEnrol Catalogue.platform Catalogue.context (world enrollments) 1 2 5
      { Catalogue.course with status := .published } where
  rls := rfl
  context := rfl
  tenant := ⟨_, List.mem_singleton_self _, rfl⟩
  courses := List.nodup_singleton _
  found := ⟨List.mem_singleton_self _, rfl, rfl⟩
  undeleted := rfl
  published := rfl
  stored := by decide +kernel
  user := ⟨_, List.mem_singleton_self _, rfl, rfl⟩
  unique := hunique
  cancelled := hcancelled
  drawn := hdrawn

end Campus

/-- A learner who never enrolled. -/
theorem newcomer_enrols : Enrols Catalogue.platform Catalogue.context (Campus.world []) 2 5 :=
  (enrols_iff (Campus.open_to_learner (by simp) (by simp) (by simp))).mpr
    ⟨List.forall_mem_nil _, by decide⟩

/-- A cancelled enrolment stands in the way of the next one. -/
theorem cancelled_cannot_enrol :
    MayEnrol Catalogue.platform Catalogue.context (Campus.world [Campus.cancelled]) 1 2 5
        { Catalogue.course with status := .published } ∧
      ¬ Enrols Catalogue.platform Catalogue.context (Campus.world [Campus.cancelled]) 2 5 := by
  have hopen := @Campus.open_to_learner [Campus.cancelled] (by decide) (by simp [Campus.cancelled])
    (by simp [Campus.cancelled])
  refine ⟨hopen, ?_⟩
  rintro ⟨e, w', hrun, -⟩
  obtain ⟨s₁, hbody⟩ := runM_getDb_returned hrun
  obtain ⟨hfree, -⟩ := enroll_free hopen.tick hbody
  have hnot : isFor 2 5 Campus.cancelled = false := hfree _ (List.mem_singleton_self _)
  exact absurd hnot (by decide)

end LmsBackend
