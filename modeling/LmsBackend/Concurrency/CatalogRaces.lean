import LmsBackend.Concurrency.RaceSteps
import LmsBackend.Modules.Courses
import LmsBackend.Modules.Learning

/-!
# Courses, enrolments and progress rows that race

What `create_course`, `enroll` and `complete_lesson` do in the company of others with the
same key. The first two raise `ConflictError` if their check finds a row; `complete_lesson`
changes the row that it finds.
-/

namespace LmsBackend

open Mvcc Interleave

variable {env : Env} {w₀ : World} {rc : RequestContext} {s : Session}

/-! ## Courses -/

/-- The row of a new course. -/
def CourseCreate.row (data : CourseCreate) (tenantId id : Uuid) (now : Time) : Course where
  id := id
  tenantId := tenantId
  title := data.title
  slug := data.slug
  summary := data.summary
  description := data.description
  categoryId := data.categoryId
  level := data.level
  isFree := data.isFree
  price := data.price
  thumbnailUrl := data.thumbnailUrl
  createdAt := now
  updatedAt := now

/-- The course fits its columns and names a category that exists, if any. -/
structure CourseCreate.Valid (data : CourseCreate) (db : Database Row) : Prop where
  fits : ∀ tid id now, columnError .courses (coerce .courses (data.row tid id now)) = none
  category : ∀ c, data.categoryId = some c → ∃ r ∈ db .categories, r.id = c

theorem createCourse_races {data : CourseCreate} {tid : Uuid}
    (hopen : RaceOpen env w₀ (.course tid data.slug)) (htid : rc.tenantId = some tid)
    (hvalid : data.Valid w₀.db) :
    Races env w₀ (.course tid data.slug) (fun q l _ => RaceEnds w₀ (.course tid data.slug) q l)
      (FailsOpen (.course tid data.slug)) .start [boundTx env rc.tenantId rc.isSuperadmin] (createCourse env rc s data) := by
  unfold createCourse repoSelect
  refine Does.requireTenantId (fun h => ?_) fun tid' htid' => ?_
  · rw [htid] at h
    cases h
  obtain rfl : tid = tid' := Option.some.inj (htid.symm.trans htid')
  -- what the check finds stands for the key, and the other way round
  have hcheck : ∀ c : Course, (inScope rc .courses c && decide (c.slug = data.slug)) = true ↔
      (RaceKey.course tid data.slug).stands .courses c = true := by
    intro c
    rw [Bool.and_eq_true, decide_eq_true_iff, inScope_iff htid (by decide), RaceKey.stands_iff]
    simp only [RaceKey.hits, RaceKey.tenantId, RaceKey.counts, tenantOf, Bool.and_eq_true,
      decide_eq_true_iff, Option.some.injEq]
    tauto
  refine race_check .courses rfl hopen trivial rfl
    (fun c hc => RaceKey.hits_of_stands ((hcheck c).mp hc))
    (fun c hc => ⟨(hcheck c).mpr hc, bound_policy hopen.rls htid (RaceKey.stands_iff.mp hc).2.1.2⟩)
    (fun rows _ hrows _ => ?_) fun c _ _ => ?_
  · have hnil : rows = [] := by
      refine List.eq_nil_iff_forall_not_mem.mpr fun c hc => ?_
      obtain ⟨hfound, hstands⟩ := hrows c hc
      rw [(hcheck c).mp hfound] at hstands
      cases hstands
    subst hnil
    rw [if_neg (fun h => h rfl)]
    refine Does.op trivial fun w₁ id w' l' hrely hexec => ?_
    cases hexec
    have hnew : ∀ c ∈ w₀.db .courses, c.id < w₁.nextUuid := fun c hc =>
      (hopen.drawn c hc c.id List.mem_cons_self).trans_le hrely.1
    refine race_insert .courses rfl rfl rfl ?_ (fun db hb hfree => ?_) (fun e => ⟨⟨_, rfl⟩, .inl rfl⟩) ?_
    · simp [RaceKey.hits, schema, coerce]
    · refine insertError_eq_none (bound_policy hopen.rls htid rfl) (hvalid.fits _ _ _) ?_ ?_
      · rw [view_nil schema db rfl, uniqueError_courses]
        refine ⟨fun c hc => ?_, fun c hc htenant hslug => ?_⟩
        · rw [hb .courses (by rintro ⟨⟩)] at hc
          exact (hnew c hc).ne
        · have hhit := hfree c hc
          simp [RaceKey.hits] at hhit
          exact hhit htenant hslug
      · rw [view_nil schema db rfl, referenceError_courses, hb .tenants (by rintro ⟨⟩),
          hb .categories (by rintro ⟨⟩)]
        exact ⟨hopen.tenant, hvalid.category⟩
    · refine Does.publish (race_starts _) (race_audits (.inl rfl) (List.cons_ne_nil _ _)) ?_
      refine ⟨_, rfl, rfl, .inl ⟨rfl, fun db hb hunused => ?_⟩⟩
      refine AfterRace.of_writes .courses rfl hb hunused rfl (by rintro x ⟨⟩) ?_ (fun c hc => ?_)
        fun h => absurd rfl h
      · simp [RaceKey.stands, RaceKey.hits, RaceKey.counts, RaceKey.tenantId, tenantOf, deletedAtOf,
          schema, coerce]
      · simpa [keyOf, schema, coerce] using (hnew c hc).ne
  · rw [if_pos (List.cons_ne_nil _ _)]
    exact ⟨⟨_, rfl⟩, .inr ⟨rfl, ⟨_, rfl⟩, _, rfl⟩⟩

/-! ## Enrolments -/

/-- The tenant's course is open, and one more enrolment can be counted; the user exists. -/
structure EnrollmentOpen (db : Database Row) (tid courseId userId : Uuid) (course : Course) :
    Prop where
  only : (db .courses).filter (fun c => c.id = courseId) = [course]
  tenant : course.tenantId = tid
  undeleted : course.deletedAt = none
  published : course.status = .published
  fits : columnError .courses
    (coerce .courses { course with enrollmentCount := course.enrollmentCount + 1 }) = none
  user : ∃ u ∈ db .users, u.id = userId

theorem EnrollmentOpen.unique {db : Database Row} {tid courseId userId : Uuid} {course c : Course}
    (h : EnrollmentOpen db tid courseId userId course) (hc : c ∈ db .courses)
    (hid : c.id = courseId) : c = course := by
  have hmem : c ∈ (db .courses).filter fun c => c.id = courseId :=
    List.mem_filter.mpr ⟨hc, decide_eq_true hid⟩
  rw [h.only] at hmem
  exact List.mem_singleton.mp hmem

theorem EnrollmentOpen.mem {db : Database Row} {tid courseId userId : Uuid} {course : Course}
    (h : EnrollmentOpen db tid courseId userId course) :
    course ∈ db .courses ∧ course.id = courseId := by
  have hmem : course ∈ (db .courses).filter fun c => c.id = courseId := by
    rw [h.only]
    exact List.mem_singleton_self course
  rw [List.mem_filter, decide_eq_true_iff] at hmem
  exact hmem

/-- Whoever has won, the course is found, and it is open. -/
theorem EnrollmentOpen.found {tid courseId userId : Uuid} {course : Course}
    (h : EnrollmentOpen w₀.db tid courseId userId course)
    (hrls : env.settings.enableRowLevelSecurity = true) (htid : rc.tenantId = some tid)
    {q : RaceRecord} {w : World} (hrely : RaceRely w₀ (.enrollment tid courseId userId) q w) :
    ∃ c, (visible schema w.db (boundTx env rc.tenantId rc.isSuperadmin) .courses).filter
        (fun r => inScope rc .courses r && decide (keyOf .courses r = [courseId])) = [c] ∧
      c.id = courseId ∧ c.status = .published := by
  obtain ⟨f, hcourses, hf⟩ : ∃ f : Course → Course, w.db .courses = (w₀.db .courses).map f ∧
      ∀ c, (f c).id = c.id ∧ (f c).tenantId = c.tenantId ∧ (f c).status = c.status ∧
        (f c).deletedAt = c.deletedAt := by
    rcases hrely.2 with ⟨hb, -⟩ | ⟨key, ha, -⟩
    · exact ⟨id, by rw [List.map_id, hb _ (by rintro ⟨⟩)], fun c => ⟨rfl, rfl, rfl, rfl⟩⟩
    · exact ha.courses (by rintro ⟨⟩)
  obtain ⟨hid, htenant, hstatus, hdeleted⟩ := hf course
  refine ⟨f course, ?_, hid.trans h.mem.2, hstatus.trans h.published⟩
  have hscope : (schema.policy (boundTx env rc.tenantId rc.isSuperadmin).guc .courses (f course) &&
      (inScope rc .courses (f course) && decide (keyOf .courses (f course) = [courseId]))) =
        true := by
    have hpolicy := @bound_policy env rc hrls tid htid .courses (f course)
      (congrArg some (htenant.trans h.tenant))
    have hin := (@inScope_iff rc tid htid .courses (by decide) (f course)).mpr
      ⟨hdeleted.trans h.undeleted, congrArg some (htenant.trans h.tenant)⟩
    rw [hpolicy, hin, Bool.true_and, Bool.true_and, decide_eq_true_iff]
    exact congrArg (fun x => [x]) (hid.trans h.mem.2)
  rw [visible_fresh rfl, List.filter_filter, hcourses, List.filter_map]
  have hsame : (w₀.db .courses).filter ((fun r =>
        (inScope rc .courses r && decide (keyOf .courses r = [courseId])) &&
          schema.policy (boundTx env rc.tenantId rc.isSuperadmin).guc .courses r) ∘ f) = [course] := by
    rw [← h.only]
    refine List.filter_congr fun c hc => ?_
    by_cases hcid : c.id = courseId
    · obtain rfl := h.unique hc hcid
      rw [Function.comp_apply, Bool.and_comm, hscope, decide_eq_true hcid]
    · have hne : keyOf .courses (f c) ≠ [courseId] := by
        intro heq
        exact hcid ((hf c).1.symm.trans (List.cons.inj heq).1)
      simp [hne, hcid]
  rw [hsame]
  rfl

/-- The transaction of a request that has inserted an enrolment. -/
def enrolledTx (env : Env) (rc : RequestContext) (e : CourseEnrollment) : Tx :=
  (boundTx env rc.tenantId rc.isSuperadmin).push (inserting ⟨.courseEnrollments, e⟩)

/-- The row of the course after an enrolment. -/
def countedCourse (s : Session) (course : Course) : Course :=
  schema.coerce .courses
    (touch s.startedAt .courses { course with enrollmentCount := course.enrollmentCount + 1 })

theorem enrolledTx_courses (db : Database Row) (e : CourseEnrollment) :
    view schema db (enrolledTx env rc e) .courses = db .courses :=
  foldl_apply_other fun x hx => by
    rw [List.mem_singleton.mp hx]
    rintro ⟨⟩

/-- The counter can be written. -/
theorem EnrollmentOpen.counted {tid courseId userId : Uuid} {course : Course}
    (h : EnrollmentOpen w₀.db tid courseId userId course)
    (hrls : env.settings.enableRowLevelSecurity = true) (htid : rc.tenantId = some tid)
    {db : Database Row} (hb : BeforeRace w₀ db) (e : CourseEnrollment) :
    target schema db (enrolledTx env rc e) .courses [course.id] (fun _ => true) = some course ∧
      updateError schema db (enrolledTx env rc e) .courses course (countedCourse s course) =
        none := by
  constructor
  · have hmem := h.mem
    refine find_only (mem_visible.mpr ⟨?_, bound_policy hrls htid (congrArg some h.tenant)⟩) ?_ ?_
    · rw [enrolledTx_courses, hb .courses (by rintro ⟨⟩)]
      exact hmem.1
    · simp [schema, keyOf]
    · intro c hc hkey
      have hc' := (mem_visible.mp hc).1
      rw [enrolledTx_courses, hb .courses (by rintro ⟨⟩)] at hc'
      rw [Bool.and_true, decide_eq_true_iff] at hkey
      exact h.unique hc' ((List.cons.inj hkey).1.trans hmem.2)
  · have hpolicy : schema.policy (enrolledTx env rc e).guc .courses (countedCourse s course) =
        true := bound_policy hrls htid (congrArg some h.tenant)
    rw [updateError, if_pos hpolicy]
    exact (checkUpdate_course rfl).mpr h.fits

/-- An enrolment and the counter, committed. -/
theorem EnrollmentOpen.committed {tid courseId userId : Uuid} {course : Course}
    (h : EnrollmentOpen w₀.db tid courseId userId course) {db : Database Row}
    (hb : BeforeRace w₀ db)
    (hunused : ∀ r ∈ db .courseEnrollments,
      (RaceKey.enrollment tid courseId userId).hits .courseEnrollments r = false)
    {e : CourseEnrollment} (hkeys : e.courseId = courseId ∧ e.userId = userId ∧ e.tenantId = tid ∧
      e.status ≠ .cancelled) (hnew : ∀ r ∈ w₀.db .courseEnrollments, r.id < e.id) :
    ∃ key, AfterRace (.enrollment tid courseId userId) w₀ key
      (view schema db ((enrolledTx env rc e).push
        (.update .courses [course.id] (countedCourse s course)))) := by
  obtain ⟨hcourse, huser, htenant, hactive⟩ := hkeys
  refine AfterRace.of_writes .courseEnrollments rfl hb hunused rfl (fun x hx => ?_) ?_
    (fun r hr => ?_) fun _ => ?_
  · rw [List.mem_singleton.mp hx]
    exact List.mem_singleton_self _
  · rw [RaceKey.stands_iff]
    simp [RaceKey.hits, RaceKey.tenantId, RaceKey.counts, tenantOf, deletedAtOf, schema, coerce,
      hcourse, huser, htenant, hactive]
  · have hne := (hnew r hr).ne
    simpa [keyOf, schema, coerce] using hne
  · refine ⟨fun c => if c = course then countedCourse s course else c, ?_, fun c => ?_⟩
    · rw [view_push, Write.apply_update, enrolledTx_courses]
      refine List.map_congr_left fun c hc => ?_
      rw [hb .courses (by rintro ⟨⟩)] at hc
      by_cases hsame : c = course
      · have hkey : schema.key .courses c = [course.id] := by rw [hsame]; rfl
        rw [if_pos hkey, if_pos hsame]
      · rw [if_neg hsame, if_neg]
        intro hkey
        exact hsame (h.unique hc ((List.cons.inj hkey).1.trans h.mem.2))
    · dsimp only
      by_cases hsame : c = course
      · rw [if_pos hsame, hsame]
        exact ⟨rfl, rfl, rfl, rfl⟩
      · rw [if_neg hsame]
        exact ⟨rfl, rfl, rfl, rfl⟩

theorem enroll_races {tid courseId userId : Uuid} {course : Course}
    (hopen : RaceOpen env w₀ (.enrollment tid courseId userId)) (htid : rc.tenantId = some tid)
    (hcourse : EnrollmentOpen w₀.db tid courseId userId course) :
    Races env w₀ (.enrollment tid courseId userId)
      (fun q l _ => RaceEnds w₀ (.enrollment tid courseId userId) q l) (FailsOpen (.enrollment tid courseId userId)) .start
      [boundTx env rc.tenantId rc.isSuperadmin] (enroll env rc s courseId userId) := by
  unfold enroll
  refine Does.requireTenantId (fun h => ?_) fun tid' htid' => ?_
  · rw [htid] at h
    cases h
  obtain rfl : tid = tid' := Option.some.inj (htid.symm.trans htid')
  refine Does.repoGetOr404 (fun _ => ⟨_, [], rfl, rfl⟩) (fun w c hrely hvisible hscope hkey => ?_)
    fun w e hrely hnone => ?_
  · have hid : c.id = courseId := (List.cons.inj hkey).1
    have hopened : c.status = .published := by
      obtain ⟨c', hfound, -, hpublished⟩ := hcourse.found hopen.rls htid hrely
      have hmem : c ∈ [c'] := by
        rw [← hfound, List.mem_filter, Bool.and_eq_true, decide_eq_true_iff]
        exact ⟨hvisible, hscope, hkey⟩
      rw [List.mem_singleton.mp hmem]
      exact hpublished
    show Races env w₀ _ _ _ (.read c) _ _
    rw [if_neg (fun h => h hopened)]
    unfold getForUserCourse repoSelect
    simp only [bind_assoc]
    have hcheck : ∀ e : CourseEnrollment,
        (inScope rc .courseEnrollments e &&
          (decide (e.userId = userId) && decide (e.courseId = courseId))) = true ↔
        (RaceKey.enrollment tid courseId userId).hits .courseEnrollments e = true ∧
          tenantOf .courseEnrollments e = some tid := by
      intro e
      rw [Bool.and_eq_true, Bool.and_eq_true, decide_eq_true_iff, decide_eq_true_iff,
        inScope_iff htid (by decide)]
      simp only [RaceKey.hits, deletedAtOf, Bool.and_eq_true, decide_eq_true_iff]
      tauto
    have hstands : ∀ e : CourseEnrollment,
        (RaceKey.enrollment tid courseId userId).stands .courseEnrollments e = true ↔
        ((RaceKey.enrollment tid courseId userId).hits .courseEnrollments e = true ∧
          tenantOf .courseEnrollments e = some tid) ∧ e.status ≠ .cancelled := by
      intro e
      rw [RaceKey.stands_iff]
      simp only [RaceKey.tenantId, deletedAtOf, RaceKey.counts, decide_eq_true_iff]
      tauto
    refine race_check .courseEnrollments rfl hopen trivial rfl (fun e he => ((hcheck e).mp he).1)
      (fun e he => ⟨(hcheck e).mpr ((hstands e).mp he).1,
        bound_policy hopen.rls htid ((hstands e).mp he).1.2⟩)
      (fun rows hlength hrows hread => ?_) fun e hfound he => ?_
    · -- no enrolment, or a cancelled one
      obtain rfl := hcourse.unique (hread c rfl) hid
      obtain ⟨existing, hone, hany⟩ : ∃ existing : Option CourseEnrollment,
          (scalarOneOrNone rows : M _) = .ret existing ∧
          (existing.any fun e => e.status ≠ .cancelled) = false := by
        rcases rows with _ | ⟨e, _ | ⟨e', rest⟩⟩
        · exact ⟨none, rfl, rfl⟩
        · obtain ⟨hfound, hnot⟩ := hrows e List.mem_cons_self
          have hcancelled : ¬ e.status ≠ .cancelled := fun hne => by
            rw [(hstands e).mpr ⟨(hcheck e).mp hfound, hne⟩] at hnot
            cases hnot
          exact ⟨some e, rfl, decide_eq_false hcancelled⟩
        · exact absurd hlength (by simp)
      refine Does.query (race_reads id) fun _ => ?_
      rw [hone]
      show Races env w₀ _ _ _ _ _ (if (existing.any fun e => e.status ≠ .cancelled) = true then _
        else _)
      rw [if_neg (Bool.eq_false_iff.mp hany)]
      refine Does.op trivial fun w₁ now w' l' _ hexec => ?_
      cases hexec
      refine Does.op trivial fun w₂ id w' l' hrely₂ hexec => ?_
      cases hexec
      have hnew : ∀ e ∈ w₀.db .courseEnrollments, e.id < w₂.nextUuid := fun e he =>
        (hopen.drawn e he e.id List.mem_cons_self).trans_le hrely₂.1
      refine race_insert .courseEnrollments rfl rfl rfl ?_ (fun db hb hfree => ?_)
        (fun e => ⟨⟨_, rfl⟩, .inl rfl⟩) ?_
      · simp [RaceKey.hits, schema, coerce]
      · refine insertError_eq_none (bound_policy hopen.rls htid rfl) rfl ?_ ?_
        · rw [view_nil schema db rfl, uniqueError_courseEnrollments]
          refine ⟨fun e he => ?_, fun e he hsame huser => ?_⟩
          · rw [hb .courseEnrollments (by rintro ⟨⟩)] at he
            exact (hnew e he).ne
          · have hhit := hfree e he
            simp [RaceKey.hits] at hhit
            exact hhit hsame huser
        · rw [view_nil schema db rfl, referenceError_courseEnrollments, hb .tenants (by rintro ⟨⟩),
            hb .courses (by rintro ⟨⟩), hb .users (by rintro ⟨⟩)]
          exact ⟨hopen.tenant, ⟨c, hcourse.mem⟩, hcourse.user⟩
      · show Races env w₀ _ _ _ _ [enrolledTx env rc _] _
        refine Does.updateRow (fun h => (by cases h)) (fun w₃ old hrely₃ htarget _ => ?_)
          fun w₃ a e hrely₃ hfail => ?_
        · obtain ⟨hfound, -⟩ := @EnrollmentOpen.counted env w₀ rc s tid courseId userId c hcourse
            hopen.rls htid w₃.db hrely₃.before _
          obtain rfl : c = old := Option.some.inj (hfound.symm.trans htarget)
          refine Does.publish (race_starts _) (race_audits (.inl rfl) (List.cons_ne_nil _ _)) ?_
          refine ⟨_, rfl, rfl, .inl ⟨rfl, fun db hb hunused => ?_⟩⟩
          exact hcourse.committed hb hunused ⟨rfl, rfl, rfl, by rintro ⟨⟩⟩ hnew
        · obtain ⟨hfound, hwritten⟩ := @EnrollmentOpen.counted env w₀ rc s tid courseId userId c
            hcourse hopen.rls htid w₃.db hrely₃.before _
          exact absurd hwritten (hfail c hfound)
    · refine Does.query (race_reads id) fun _ => ?_
      show Races env w₀ _ _ _ _ _ (if (Option.any (fun e : CourseEnrollment =>
        decide (e.status ≠ .cancelled)) (some e)) = true then _ else _)
      rw [if_pos (by simpa using ((hstands e).mp he).2)]
      exact ⟨⟨_, rfl⟩, .inr ⟨rfl, ⟨_, rfl⟩, _, rfl⟩⟩
  · obtain ⟨c, hfound, -⟩ := hcourse.found hopen.rls htid hrely
    exact absurd hfound (hnone c)

/-! ## Progress rows -/

/-- The tenant's lesson, its course and the user exist. -/
structure ProgressOpen (db : Database Row) (tid lessonId userId : Uuid) (lesson : Lesson) :
    Prop where
  only : (db .lessons).filter (fun x => x.id = lessonId) = [lesson]
  tenant : lesson.tenantId = tid
  undeleted : lesson.deletedAt = none
  course : ∃ c ∈ db .courses, c.id = lesson.courseId
  user : ∃ u ∈ db .users, u.id = userId

theorem ProgressOpen.mem {db : Database Row} {tid lessonId userId : Uuid} {lesson : Lesson}
    (h : ProgressOpen db tid lessonId userId lesson) :
    lesson ∈ db .lessons ∧ lesson.id = lessonId := by
  have hmem : lesson ∈ (db .lessons).filter fun x => x.id = lessonId := by
    rw [h.only]
    exact List.mem_singleton_self lesson
  rw [List.mem_filter, decide_eq_true_iff] at hmem
  exact hmem

/-- The lesson is found. -/
theorem ProgressOpen.found {tid lessonId userId : Uuid} {lesson : Lesson}
    (h : ProgressOpen w₀.db tid lessonId userId lesson)
    (hrls : env.settings.enableRowLevelSecurity = true) (htid : rc.tenantId = some tid)
    {q : RaceRecord} {w : World} (hrely : RaceRely w₀ (.progress tid lessonId userId) q w) :
    (visible schema w.db (boundTx env rc.tenantId rc.isSuperadmin) .lessons).filter
      (fun r => inScope rc .lessons r && decide (r.id = lessonId)) = [lesson] := by
  rw [visible_fresh rfl, List.filter_filter, hrely.rest ⟨by rintro ⟨⟩, by simp [RaceKey.others],
    by rintro ⟨⟩⟩, ← h.only]
  refine List.filter_congr fun x hx => ?_
  by_cases hid : x.id = lessonId
  · have hsame : x = lesson := by
      have hmem : x ∈ (w₀.db .lessons).filter fun x => x.id = lessonId :=
        List.mem_filter.mpr ⟨hx, decide_eq_true hid⟩
      rw [h.only] at hmem
      exact List.mem_singleton.mp hmem
    have hscope := (@inScope_iff rc tid htid .lessons (by decide) x).mpr
      ⟨by rw [hsame]; exact h.undeleted, by rw [hsame]; exact congrArg some h.tenant⟩
    have hpolicy := @bound_policy env rc hrls tid htid .lessons x
      (by rw [hsame]; exact congrArg some h.tenant)
    rw [hscope, hpolicy, Bool.true_and, Bool.and_true]
  · simp [hid]

/-- The row of a completed lesson. -/
def completedRow (lastPositionSeconds : Int) (now : Time) (p : LessonProgress) : LessonProgress :=
  { p with status := .completed, completedAt := some now, lastPositionSeconds }

/-- A transaction that has completed the row with this key keeps the race decided. -/
theorem AfterRace.completed {tid lessonId userId id : Uuid} {db : Database Row} {tx : Tx}
    (h : AfterRace (.progress tid lessonId userId) w₀ [id] db) {row : LessonProgress}
    (hw : tx.writes = [.update .lessonProgress [id] row]) (hid : row.id = id)
    (hstands : (RaceKey.progress tid lessonId userId).stands .lessonProgress row = true) :
    AfterRace (.progress tid lessonId userId) w₀ [id] (view schema db tx) := by
  have hother : ∀ t, t ≠ .lessonProgress → view schema db tx t = db t := by
    intro t ht
    rw [view, hw, List.foldl_cons, List.foldl_nil]
    exact Write.apply_other ht.symm
  obtain ⟨r, hrows, -, hkey, hapart⟩ := h.row_at .lessonProgress rfl
  refine ⟨h.unused, ⟨row, ?_, hstands, congrArg (fun x => [x]) hid, hapart⟩,
    fun t ht ho ha => (hother t ht).trans (h.rest t ht ho ha), fun _ => ?_⟩
  · show view schema db tx .lessonProgress = _
    have hsame : (w₀.db .lessonProgress).map
        (fun r' => if schema.key .lessonProgress r' = [id] then row else r') =
        w₀.db .lessonProgress := by
      refine (List.map_congr_left fun r' hr' => ?_).trans (List.map_id _)
      exact if_neg (hapart r' hr')
    have hkey' : schema.key .lessonProgress r = [id] := hkey
    rw [view, hw, List.foldl_cons, List.foldl_nil, Write.apply_update, hrows, List.map_append,
      hsame, List.map_singleton, if_pos hkey']
    rfl
  · rw [hother _ (by rintro ⟨⟩)]
    exact h.courses (by rintro ⟨⟩)

theorem completeLesson_races {tid lessonId userId : Uuid} {lesson : Lesson}
    {lastPositionSeconds : Int} (hopen : RaceOpen env w₀ (.progress tid lessonId userId))
    (htid : rc.tenantId = some tid) (hlesson : ProgressOpen w₀.db tid lessonId userId lesson)
    (hfits : integer "last_position_seconds" lastPositionSeconds = none) :
    Races env w₀ (.progress tid lessonId userId)
      (fun q l _ => RaceEnds w₀ (.progress tid lessonId userId) q l) (FailsOpen (.progress tid lessonId userId)) .start
      [boundTx env rc.tenantId rc.isSuperadmin]
      (completeLesson env rc s lessonId userId lastPositionSeconds) := by
  unfold completeLesson repoFind repoSelect
  simp only [bind_assoc]
  refine Does.requireTenantId (fun h => ?_) fun tid' htid' => ?_
  · rw [htid] at h
    cases h
  obtain rfl : tid = tid' := Option.some.inj (htid.symm.trans htid')
  refine race_select rfl ⟨by rintro ⟨⟩, by rintro ⟨⟩⟩ fun w hrely => ?_
  rw [hlesson.found hopen.rls htid hrely]
  show Races env w₀ _ _ _ _ _ (loadLessons [lesson] >>= _)
  unfold loadLessons
  simp only [bind_assoc]
  refine race_select rfl ⟨by rintro ⟨⟩, by rintro ⟨⟩⟩ fun w₁ _ => ?_
  refine race_select rfl ⟨by rintro ⟨⟩, by rintro ⟨⟩⟩ fun w₂ _ => ?_
  show Races env w₀ _ _ _ _ _ (getForUserLesson rc userId lessonId >>= _)
  unfold getForUserLesson repoFind repoSelect
  simp only [bind_assoc]
  have hcheck : ∀ p : LessonProgress, (inScope rc .lessonProgress p &&
        (decide (p.userId = userId) && decide (p.lessonId = lessonId))) = true ↔
      (RaceKey.progress tid lessonId userId).stands .lessonProgress p = true := by
    intro p
    rw [Bool.and_eq_true, Bool.and_eq_true, decide_eq_true_iff, decide_eq_true_iff,
      inScope_iff htid (by decide), RaceKey.stands_iff]
    simp only [RaceKey.hits, RaceKey.tenantId, RaceKey.counts, Bool.and_eq_true,
      decide_eq_true_iff]
    tauto
  refine race_check .lessonProgress rfl hopen trivial rfl
    (fun p hp => RaceKey.hits_of_stands ((hcheck p).mp hp))
    (fun p hp => ⟨(hcheck p).mpr hp, bound_policy hopen.rls htid (RaceKey.stands_iff.mp hp).2.1.2⟩)
    (fun rows _ hrows _ => ?_) fun p _ hp => ?_
  · have hnil : rows = [] := by
      refine List.eq_nil_iff_forall_not_mem.mpr fun p hp => ?_
      obtain ⟨hfound, hstands⟩ := hrows p hp
      rw [(hcheck p).mp hfound] at hstands
      cases hstands
    subst hnil
    show Races env w₀ _ _ _ _ _ (recordProgress s tid userId lesson none lastPositionSeconds >>= _)
    unfold recordProgress
    simp only [bind_assoc]
    refine Does.op trivial fun w₃ now w' l' _ hexec => ?_
    cases hexec
    refine Does.op trivial fun w₄ id w' l' hrely₄ hexec => ?_
    cases hexec
    have hnew : ∀ p ∈ w₀.db .lessonProgress, p.id < w₄.nextUuid := fun p hp =>
      (hopen.drawn p hp p.id List.mem_cons_self).trans_le hrely₄.1
    refine race_insert .lessonProgress rfl rfl rfl ?_ (fun db hb hfree => ?_)
      (fun e => ⟨⟨_, rfl⟩, .inl rfl⟩) ?_
    · simp [RaceKey.hits, schema, coerce, hlesson.mem.2]
    · refine insertError_eq_none (bound_policy hopen.rls htid rfl) hfits ?_ ?_
      · rw [view_nil schema db rfl, uniqueError_lessonProgress]
        refine ⟨fun p hp => ?_, fun p hp hsame huser => ?_⟩
        · rw [hb .lessonProgress (by rintro ⟨⟩)] at hp
          exact (hnew p hp).ne
        · have hhit := hfree p hp
          simp [RaceKey.hits] at hhit
          exact hhit (hsame.trans hlesson.mem.2) huser
      · rw [view_nil schema db rfl, referenceError_lessonProgress, hb .tenants (by rintro ⟨⟩),
          hb .lessons (by rintro ⟨⟩), hb .courses (by rintro ⟨⟩), hb .users (by rintro ⟨⟩)]
        exact ⟨hopen.tenant, ⟨lesson, hlesson.mem.1, rfl⟩, hlesson.course, hlesson.user⟩
    · refine Does.publish (race_starts _) (race_audits (.inl rfl) (List.cons_ne_nil _ _)) ?_
      refine ⟨_, rfl, rfl, .inl ⟨rfl, fun db hb hunused => ?_⟩⟩
      refine AfterRace.of_writes .lessonProgress rfl hb hunused rfl (by rintro x ⟨⟩) ?_
        (fun p hp => ?_) fun _ => ⟨id, ?_, fun _ => ⟨rfl, rfl, rfl, rfl⟩⟩
      · rw [RaceKey.stands_iff]
        simp [RaceKey.hits, RaceKey.tenantId, RaceKey.counts, tenantOf, deletedAtOf, schema, coerce,
          hlesson.mem.2]
      · simpa [keyOf, schema, coerce] using (hnew p hp).ne
      · rw [List.map_id]
        exact foldl_apply_other fun x hx => by
          rw [List.mem_singleton.mp hx]
          rintro ⟨⟩
  · show Races env w₀ _ _ _ (.held [p.id]) _
      (recordProgress s tid userId lesson (some p) lastPositionSeconds >>= _)
    unfold recordProgress
    simp only [bind_assoc]
    refine Does.op trivial fun w₃ now w' l' _ hexec => ?_
    cases hexec
    show Races env w₀ _ _ _ (.held [p.id]) _ _
    -- the row that was found is the one that has won, and it stays
    have hrow : ∀ w, RaceRely w₀ (.progress tid lessonId userId) (.held [p.id]) w →
        ∃ r, target schema w.db (boundTx env rc.tenantId rc.isSuperadmin) .lessonProgress [p.id]
            (fun _ => true) = some r ∧ r.id = p.id ∧
          (RaceKey.progress tid lessonId userId).stands .lessonProgress r = true := by
      intro w hrely
      rcases hrely.2 with ⟨-, hearly⟩ | ⟨key, hafter, rfl⟩
      · exact hearly.elim
      · obtain ⟨r, hrows, hstands, hkey, hapart⟩ := hafter.row_at .lessonProgress rfl
        refine ⟨r, find_only (mem_visible.mpr ⟨?_, bound_policy hopen.rls htid
          (RaceKey.stands_iff.mp hstands).2.1.2⟩) ?_ fun r' hr' hkey' => ?_,
          (List.cons.inj hkey).1, hstands⟩
        · rw [view_nil schema w.db rfl, hrows]
          exact List.mem_append_right _ List.mem_cons_self
        · rw [Bool.and_true, decide_eq_true_iff]
          exact hkey
        · have hr' := (mem_visible.mp hr').1
          rw [view_nil schema w.db rfl, hrows] at hr'
          rw [Bool.and_true, decide_eq_true_iff] at hkey'
          rcases List.mem_append.mp hr' with hr' | hr'
          · exact absurd hkey' (hapart r' hr')
          · exact List.mem_singleton.mp hr'
    have hnote : ∀ o a, raceNote (.progress tid lessonId userId) (.held [p.id])
        [boundTx env rc.tenantId rc.isSuperadmin]
        (.db (.update .lessonProgress [p.id] (fun _ => true) o)) a = .kept [p.id] :=
      fun _ _ => rfl
    refine Does.updateRow (fun _ h => (by cases h)) (fun w₄ old hrely htarget _ => ?_)
      fun w₄ a e hrely hfail => ?_
    · rw [hnote]
      obtain ⟨r, hfound, hid, hstands⟩ := hrow w₄ hrely
      obtain rfl : r = old := Option.some.inj (hfound.symm.trans htarget)
      refine Does.publish (race_starts _) (race_audits (.inr ⟨_, rfl⟩) (List.cons_ne_nil _ _)) ?_
      refine ⟨_, rfl, rfl, .inr ⟨[p.id], rfl, rfl, fun db hafter => ?_⟩⟩
      refine hafter.completed rfl hid ?_
      rw [RaceKey.stands_iff] at hstands ⊢
      exact hstands
    · obtain ⟨r, hfound, -, hstands⟩ := hrow w₄ hrely
      refine absurd ?_ (hfail r hfound)
      have hpolicy := @bound_policy env rc hopen.rls tid htid .lessonProgress
        (completedRow lastPositionSeconds (env.clock w₃.ticks) r)
        (RaceKey.stands_iff.mp hstands).2.1.2
      refine (if_pos hpolicy).trans (firstError_eq_none.mpr fun check hmem => ?_)
      rcases List.mem_cons.mp hmem with rfl | hmem
      · exact hfits
      · rw [List.mem_singleton.mp hmem]
        rfl

end LmsBackend
