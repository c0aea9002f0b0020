import LmsBackend.Effects.Reads
import LmsBackend.Isolation.Requests
import LmsBackend.Lib.Joins
import Mathlib.Data.Set.Card

/-!
# The pending count of the dashboard

- `Pending tid u db`: the assignments that are pending for a user of the tenant.
- `Duties`: the rows that the count depends on, for one user.
- `Keeps`: a program in the innermost transaction that leaves the duties of the user as they are.
- `pending_tracks`: the count is exact, and moves with what the user submits and enrols in.
-/

namespace LmsBackend

open Mvcc

variable {env : Env} {rc : RequestContext} {s : Session} {w w' : World} {tid u : Uuid} {α β : Type}

/-! ## What is pending -/

/-- The published, undeleted assignments of the tenant in a course that the user is actively
enrolled in, without a submission of the user. -/
def Pending (tid u : Uuid) (db : Database Row) : Set Uuid :=
  {x | ∃ a ∈ db .assignments, a.id = x ∧ a.tenantId = tid ∧ a.isPublished = true ∧
    a.deletedAt = none ∧
    (∃ e ∈ db .courseEnrollments, e.tenantId = tid ∧ e.userId = u ∧ e.courseId = a.courseId ∧
      e.status = .active) ∧
    ∀ r ∈ db .submissions, r.tenantId = tid → r.userId = u → r.assignmentId ≠ x}

/-- The published, undeleted assignments of the course without a submission of the user. -/
def Unsubmitted (tid u courseId : Uuid) (db : Database Row) : Set Uuid :=
  {x | ∃ a ∈ db .assignments, a.id = x ∧ a.tenantId = tid ∧ a.isPublished = true ∧
    a.deletedAt = none ∧ a.courseId = courseId ∧
    ∀ r ∈ db .submissions, r.tenantId = tid → r.userId = u → r.assignmentId ≠ x}

/-- The submissions of the user. -/
def submissionsOf (tid u : Uuid) (db : Database Row) : Nat :=
  ((db .submissions).filter fun r => r.tenantId = tid && r.userId = u).length

/-- The rows that the count selects, as the query has them: assignments joined with the user's
submissions to them. -/
def pendingRows (u : Uuid) (db : Database Row) : List (Assignment × Option Submission) :=
  (Joins.leftJoin (fun a r => decide (r.assignmentId = a.id) && decide (r.userId = u))
    (db .assignments) (db .submissions)).filter fun x =>
      (x.1.isPublished && x.1.deletedAt.isNone && (db .courseEnrollments).any fun e =>
        decide (e.userId = u) && decide (e.status = .active) &&
          decide (e.courseId = x.1.courseId)) && x.2.isNone

/-- The joined rows are the pending assignments, each once. -/
theorem pendingRows_length (u : Uuid) (db : Database Row) :
    (pendingRows u db).length = ((db .assignments).filter (isPending u db)).length := by
  have hanti := Joins.filter_leftJoin_none
    (fun (a : Assignment) (r : Submission) => decide (r.assignmentId = a.id) && decide (r.userId = u))
    (fun a => a.isPublished && a.deletedAt.isNone && (db .courseEnrollments).any fun e =>
      decide (e.userId = u) && decide (e.status = .active) && decide (e.courseId = a.courseId))
    (db .assignments) (db .submissions)
  rw [pendingRows]
  exact (congrArg List.length hanti).trans (List.length_map _)

/-- With a tenant bound, a session sees the rows of that tenant. -/
theorem seen_tenant (hrls : env.settings.enableRowLevelSecurity = true)
    (htid : rc.tenantId = some tid) {t : Table} (ht : t ∈ rlsTables) :
    seen w (requestTx env rc) t = (w.db t).filter fun r => decide (tenantOf t r = some tid) := by
  have hguc : (requestTx env rc).guc = ⟨some tid, false⟩ := by
    rw [requestTx, boundTx, if_pos hrls, htid]
  rw [seen, visible, view_nil schema w.db rfl]
  refine List.filter_congr fun r _ => ?_
  show policy (requestTx env rc).guc t r = _
  rw [hguc, policy, if_pos ht]
  simp

/-- The condition of the query, on the rows of the tenant. -/
theorem isPending_iff (hrls : env.settings.enableRowLevelSecurity = true)
    (htid : rc.tenantId = some tid) {a : Assignment} :
    a ∈ (seen w (requestTx env rc) .assignments).filter
        (isPending u (seen w (requestTx env rc))) ↔
      a ∈ w.db .assignments ∧ a.tenantId = tid ∧ a.isPublished = true ∧ a.deletedAt = none ∧
      (∃ e ∈ w.db .courseEnrollments, e.tenantId = tid ∧ e.userId = u ∧
        e.courseId = a.courseId ∧ e.status = .active) ∧
      ∀ r ∈ w.db .submissions, r.tenantId = tid → r.userId = u → r.assignmentId ≠ a.id := by
  have hseen : ∀ {t : Table}, t ∈ rlsTables → seen w (requestTx env rc) t =
      (w.db t).filter fun r => decide (tenantOf t r = some tid) := seen_tenant hrls htid
  rw [List.mem_filter, isPending, hseen (t := .assignments) (by simp [rlsTables]),
    hseen (t := .courseEnrollments) (by simp [rlsTables]),
    hseen (t := .submissions) (by simp [rlsTables])]
  simp only [List.mem_filter, Bool.and_eq_true, Bool.not_eq_true', List.any_eq_true,
    List.any_eq_false, decide_eq_true_eq, Option.isNone_iff_eq_none, tenantOf, Option.some.injEq]
  constructor
  · rintro ⟨⟨hmem, htenant⟩, ⟨⟨hpublished, hdeleted⟩, e, ⟨he, hetenant⟩, ⟨huser, hactive⟩,
      hcourse⟩, hnone⟩
    refine ⟨hmem, htenant, hpublished, hdeleted, ⟨e, he, hetenant, huser, hcourse, hactive⟩, ?_⟩
    exact fun r hr hrtenant hruser hra => hnone r ⟨hr, hrtenant⟩ ⟨hra, hruser⟩
  · rintro ⟨hmem, htenant, hpublished, hdeleted, ⟨e, he, hetenant, huser, hcourse, hactive⟩,
      hnone⟩
    refine ⟨⟨hmem, htenant⟩, ⟨⟨hpublished, hdeleted⟩, e, ⟨he, hetenant⟩, ⟨huser, hactive⟩,
      hcourse⟩, ?_⟩
    intro r hr hsubmission
    exact hnone r hr.1 hr.2 hsubmission.2 hsubmission.1

/-- **The count is a cardinality**: every pending assignment is counted once. -/
theorem pending_card (hrls : env.settings.enableRowLevelSecurity = true)
    (htid : rc.tenantId = some tid) (hids : ((w.db .assignments).map (·.id)).Nodup) :
    ((seen w (requestTx env rc) .assignments).filter
      (isPending u (seen w (requestTx env rc)))).length = (Pending tid u w.db).ncard := by
  set rows := (seen w (requestTx env rc) .assignments).filter
    (isPending u (seen w (requestTx env rc))) with hrows
  have hset : Pending tid u w.db = ↑(rows.map (·.id)).toFinset := by
    ext x
    rw [List.coe_toFinset, Set.mem_ofPred_eq, List.mem_map]
    constructor
    · rintro ⟨a, hmem, rfl, hrest⟩
      exact ⟨a, (isPending_iff hrls htid).mpr ⟨hmem, hrest⟩, rfl⟩
    · rintro ⟨a, ha, rfl⟩
      obtain ⟨hmem, hrest⟩ := (isPending_iff hrls htid).mp ha
      exact ⟨a, hmem, rfl, hrest⟩
  have hnodup : (rows.map (·.id)).Nodup := by
    refine hids.sublist ?_
    rw [hrows, seen_tenant hrls htid (by simp [rlsTables])]
    exact (List.filter_sublist.trans List.filter_sublist).map _
  rw [hset, Set.ncard_coe_finset, List.toFinset_card_of_nodup hnodup, List.length_map]

/-! ## The rows that the count depends on -/

/-- The published assignments, the user's enrolments, and what the user submitted. -/
structure Duties where
  published : List Assignment
  enrolled : List CourseEnrollment
  submitted : List (Uuid × Uuid)

/-- The duties of a user. -/
def duties (u : Uuid) (db : Database Row) : Duties where
  published := (db .assignments).filter (·.isPublished)
  enrolled := (db .courseEnrollments).filter fun e => e.userId = u
  submitted := ((db .submissions).filter fun r => r.userId = u).map fun r =>
    (r.tenantId, r.assignmentId)

/-- What is pending among the duties. -/
def Duties.pending (tid : Uuid) (d : Duties) : Set Uuid :=
  {x | ∃ a ∈ d.published, a.id = x ∧ a.tenantId = tid ∧ a.deletedAt = none ∧
    (∃ e ∈ d.enrolled, e.tenantId = tid ∧ e.courseId = a.courseId ∧ e.status = .active) ∧
    (tid, x) ∉ d.submitted}

/-- What is pending in a course, or would be if the user were enrolled in it. -/
def Duties.unsubmitted (tid courseId : Uuid) (d : Duties) : Set Uuid :=
  {x | ∃ a ∈ d.published, a.id = x ∧ a.tenantId = tid ∧ a.deletedAt = none ∧
    a.courseId = courseId ∧ (tid, x) ∉ d.submitted}

theorem not_mem_submitted {db : Database Row} {x : Uuid} : (tid, x) ∉ (duties u db).submitted ↔
    ∀ r ∈ db .submissions, r.tenantId = tid → r.userId = u → r.assignmentId ≠ x := by
  simp only [duties, List.mem_map, List.mem_filter, decide_eq_true_eq, Prod.mk.injEq, not_exists,
    not_and]
  constructor
  · exact fun h r hr htenant huser hx => h r ⟨hr, huser⟩ htenant hx
  · exact fun h r hr htenant hx => h r hr.1 htenant hr.2 hx

theorem pending_duties (db : Database Row) : Pending tid u db = (duties u db).pending tid := by
  ext x
  simp only [Pending, Duties.pending, Set.mem_ofPred_eq, not_mem_submitted]
  simp only [duties, List.mem_filter, decide_eq_true_eq]
  constructor
  · rintro ⟨a, ha, hx, htenant, hpublished, hdeleted, ⟨e, he, hetenant, huser, hcourse, hactive⟩,
      hnone⟩
    exact ⟨a, ⟨ha, hpublished⟩, hx, htenant, hdeleted,
      ⟨e, ⟨he, huser⟩, hetenant, hcourse, hactive⟩, hnone⟩
  · rintro ⟨a, ⟨ha, hpublished⟩, hx, htenant, hdeleted,
      ⟨e, ⟨he, huser⟩, hetenant, hcourse, hactive⟩, hnone⟩
    exact ⟨a, ha, hx, htenant, hpublished, hdeleted, ⟨e, he, hetenant, huser, hcourse, hactive⟩,
      hnone⟩

theorem unsubmitted_duties (courseId : Uuid) (db : Database Row) :
    Unsubmitted tid u courseId db = (duties u db).unsubmitted tid courseId := by
  ext x
  simp only [Unsubmitted, Duties.unsubmitted, Set.mem_ofPred_eq, not_mem_submitted]
  simp only [duties, List.mem_filter]
  constructor
  · rintro ⟨a, ha, hx, htenant, hpublished, hrest⟩
    exact ⟨a, ⟨ha, hpublished⟩, hx, htenant, hrest⟩
  · rintro ⟨a, ⟨ha, hpublished⟩, hx, htenant, hrest⟩
    exact ⟨a, ha, hx, htenant, hpublished, hrest⟩

theorem submissionsOf_duties (db : Database Row) :
    submissionsOf tid u db = ((duties u db).submitted.filter fun x => x.1 = tid).length := by
  rw [submissionsOf, duties, List.filter_map, List.length_map, List.filter_filter]
  rfl

/-- A submission takes its assignment off, and nothing else. -/
theorem Duties.pending_submit (d : Duties) (x : Uuid) :
    Duties.pending tid { d with submitted := d.submitted ++ [(tid, x)] } =
      d.pending tid \ {x} := by
  ext y
  simp only [Duties.pending, Set.mem_ofPred_eq, Set.mem_sdiff, Set.mem_singleton_iff, List.mem_append,
    List.mem_singleton, Prod.mk.injEq, true_and, not_or]
  constructor
  · rintro ⟨a, ha, hy, htenant, hdeleted, henrolled, hnone, hne⟩
    exact ⟨⟨a, ha, hy, htenant, hdeleted, henrolled, hnone⟩, hne⟩
  · rintro ⟨⟨a, ha, hy, htenant, hdeleted, henrolled, hnone⟩, hne⟩
    exact ⟨a, ha, hy, htenant, hdeleted, henrolled, hnone, hne⟩

/-- An active enrolment adds what is open in its course. -/
theorem Duties.pending_enroll (d : Duties) {e : CourseEnrollment} (he : e.tenantId = tid)
    (hactive : e.status = .active) :
    Duties.pending tid { d with enrolled := d.enrolled ++ [e] } =
      d.pending tid ∪ d.unsubmitted tid e.courseId := by
  ext y
  simp only [Duties.pending, Duties.unsubmitted, Set.mem_ofPred_eq, Set.mem_union, List.mem_append,
    List.mem_singleton]
  constructor
  · rintro ⟨a, ha, hy, htenant, hdeleted, ⟨e', he' | rfl, hetenant, hcourse, hstatus⟩, hnone⟩
    · exact .inl ⟨a, ha, hy, htenant, hdeleted, ⟨e', he', hetenant, hcourse, hstatus⟩, hnone⟩
    · exact .inr ⟨a, ha, hy, htenant, hdeleted, hcourse.symm, hnone⟩
  · rintro (⟨a, ha, hy, htenant, hdeleted, ⟨e', he', hetenant, hcourse, hstatus⟩, hnone⟩ |
      ⟨a, ha, hy, htenant, hdeleted, hcourse, hnone⟩)
    · exact ⟨a, ha, hy, htenant, hdeleted, ⟨e', .inl he', hetenant, hcourse, hstatus⟩, hnone⟩
    · exact ⟨a, ha, hy, htenant, hdeleted, ⟨e, .inr rfl, he, hcourse.symm, hactive⟩, hnone⟩

/-- Nothing of a course is pending for a user who is not enrolled in it. -/
theorem Duties.pending_disjoint (d : Duties) {courseId : Uuid}
    (hids : (d.published.map (·.id)).Nodup) (hnone : ∀ e ∈ d.enrolled, e.courseId ≠ courseId) :
    ∀ x ∈ d.pending tid, x ∉ d.unsubmitted tid courseId := by
  rintro x ⟨a, ha, hax, -, -, ⟨e, he, -, hcourse, -⟩, -⟩ ⟨b, hb, hbx, -, -, hopen, -⟩
  have hsame : a = b := List.inj_on_of_nodup_map hids ha hb (hax.trans hbx.symm)
  exact hnone e he (by rw [hcourse, hsame, hopen])

theorem Duties.finite_pending (d : Duties) : (d.pending tid).Finite := by
  refine ((d.published.map (·.id)).toFinset.finite_toSet).subset ?_
  rintro x ⟨a, ha, rfl, -⟩
  exact List.mem_toFinset.mpr (List.mem_map_of_mem ha)

theorem Duties.finite_unsubmitted (d : Duties) (courseId : Uuid) :
    (d.unsubmitted tid courseId).Finite := by
  refine ((d.published.map (·.id)).toFinset.finite_toSet).subset ?_
  rintro x ⟨a, ha, rfl, -⟩
  exact List.mem_toFinset.mpr (List.mem_map_of_mem ha)

/-! ## Work that keeps the duties -/

/-- A row whose insertion leaves the duties of the user alone. -/
def Harmless (u : Uuid) : AnyRow Row → Prop
  | ⟨.assignments, a⟩ => a.isPublished = false
  | ⟨.courseEnrollments, e⟩ => e.userId ≠ u
  | ⟨.submissions, r⟩ => r.userId ≠ u
  | _ => True

/-- The tables with the duties. -/
def dutyTables : List Table := [.assignments, .courseEnrollments, .submissions]

theorem duties_congr {db db' : Database Row} (h : ∀ t ∈ dutyTables, db' t = db t) :
    duties u db' = duties u db := by
  rw [duties, duties, h .assignments (by simp [dutyTables]),
    h .courseEnrollments (by simp [dutyTables]), h .submissions (by simp [dutyTables])]

/-- The duties of a database with one more row. -/
theorem duties_insert {db : Database Row} {x : AnyRow Row} (h : Harmless u x) :
    duties u (Write.apply schema db (inserting x)) = duties u db := by
  obtain ⟨t, r⟩ := x
  have hother : ∀ {t' : Table}, t ≠ t' → Write.apply schema db (inserting ⟨t, r⟩) t' = db t' :=
    fun hne => Write.apply_other hne
  have hsame : Write.apply schema db (inserting ⟨t, r⟩) t = db t ++ [schema.coerce t r] := by
    rw [inserting, Write.apply_insert]
  cases t with
  | assignments =>
    have hrow : (schema.coerce .assignments r).isPublished = false := h
    rw [duties, hsame, hother (by rintro ⟨⟩), hother (by rintro ⟨⟩), List.filter_append]
    simp [duties, hrow]
  | courseEnrollments =>
    have hrow : (schema.coerce .courseEnrollments r).userId ≠ u := h
    rw [duties, hsame, hother (by rintro ⟨⟩), hother (by rintro ⟨⟩), List.filter_append]
    simp [duties, hrow]
  | submissions =>
    have hrow : (schema.coerce .submissions r).userId ≠ u := h
    rw [duties, hsame, hother (by rintro ⟨⟩), hother (by rintro ⟨⟩), List.filter_append]
    simp [duties, hrow]
  | _ => exact duties_congr fun t' ht' => hother (by rintro rfl; simp [dutyTables] at ht')

/-- The duties with one more submission of the user. -/
theorem duties_submission {db : Database Row} {r : Submission} (h : r.userId = u) :
    duties u (Write.apply schema db (inserting ⟨.submissions, r⟩)) =
      { duties u db with submitted := (duties u db).submitted ++ [(r.tenantId, r.assignmentId)] } := by
  have hsame : Write.apply schema db (inserting ⟨.submissions, r⟩) .submissions =
      db .submissions ++ [r] := by
    rw [inserting, Write.apply_insert]
    rfl
  have hother : ∀ {t' : Table}, .submissions ≠ t' →
      Write.apply schema db (inserting ⟨.submissions, r⟩) t' = db t' :=
    fun hne => Write.apply_other hne
  rw [duties, hsame, hother (by rintro ⟨⟩), hother (by rintro ⟨⟩), List.filter_append]
  simp [duties, h]

/-- The duties with one more enrolment of the user. -/
theorem duties_enrollment {db : Database Row} {e : CourseEnrollment} (h : e.userId = u) :
    duties u (Write.apply schema db (inserting ⟨.courseEnrollments, e⟩)) =
      { duties u db with enrolled := (duties u db).enrolled ++ [e] } := by
  have hsame : Write.apply schema db (inserting ⟨.courseEnrollments, e⟩) .courseEnrollments =
      db .courseEnrollments ++ [e] := by
    rw [inserting, Write.apply_insert]
    rfl
  have hother : ∀ {t' : Table}, .courseEnrollments ≠ t' →
      Write.apply schema db (inserting ⟨.courseEnrollments, e⟩) t' = db t' :=
    fun hne => Write.apply_other hne
  rw [duties, hsame, hother (by rintro ⟨⟩), hother (by rintro ⟨⟩), List.filter_append]
  simp [duties, h]

/-- A row that is inserted has an identifier of its own. -/
theorem nodup_insert {db : Database Row} {r : Submission}
    (hids : ((db .submissions).map (·.id)).Nodup)
    (hunique : uniqueError db .submissions (schema.coerce .submissions r) = none) :
    ((Write.apply schema db (inserting ⟨.submissions, r⟩) .submissions).map (·.id)).Nodup := by
  have hfresh := fresh_key hunique
  rw [inserting, Write.apply_insert, List.map_append, List.nodup_append]
  refine ⟨hids, List.nodup_singleton _, ?_⟩
  rintro i hi j hj rfl
  obtain ⟨r', hr', rfl⟩ := List.mem_map.mp hi
  exact hfresh r' hr' (congrArg (fun i => [i]) (List.mem_singleton.mp hj))

/-- A change of a submission that leaves its key, its tenant, its user and its assignment. -/
structure SameSubmission (r r' : Submission) : Prop where
  id : r'.id = r.id
  tenant : r'.tenantId = r.tenantId
  user : r'.userId = r.userId
  assignment : r'.assignmentId = r.assignmentId

/-- Where only rows with the key are replaced, by rows with the same submission, the duties
stay. -/
theorem duties_replace {db db' : Database Row} {f : Submission → Submission}
    (hother : ∀ t, t ≠ .submissions → db' t = db t)
    (hrows : db' .submissions = (db .submissions).map f)
    (hf : ∀ r ∈ db .submissions, SameSubmission r (f r)) :
    duties u db' = duties u db ∧
      (db' .submissions).map (·.id) = (db .submissions).map (·.id) := by
  constructor
  · have hsubmitted : (((db .submissions).map f).filter fun r => decide (r.userId = u)).map
        (fun r => (r.tenantId, r.assignmentId)) =
        ((db .submissions).filter fun r => decide (r.userId = u)).map
          fun r => (r.tenantId, r.assignmentId) := by
      rw [List.filter_map, List.map_map]
      have hfilter : (db .submissions).filter ((fun r => decide (r.userId = u)) ∘ f) =
          (db .submissions).filter fun r => decide (r.userId = u) :=
        List.filter_congr fun r hr => by simp [(hf r hr).user]
      rw [hfilter]
      refine List.map_congr_left fun r hr => ?_
      have hsame := hf r (List.mem_of_mem_filter hr)
      simp [hsame.tenant, hsame.assignment]
    rw [duties, duties, hother .assignments (by rintro ⟨⟩),
      hother .courseEnrollments (by rintro ⟨⟩), hrows, hsubmitted]
  · rw [hrows, List.map_map]
    exact List.map_congr_left fun r hr => (hf r hr).id

/-- A state of the work: the committed rows are the same up to the log, and in the view of the
transaction the user has these duties. -/
structure Kept (u : Uuid) (w₀ : World) (d : Duties) (w : World) (tx : Tx) : Prop where
  logged : w₀.Logged w
  duties : duties u (view schema w.db tx) = d
  unique : ((view schema w.db tx .submissions).map (·.id)).Nodup
  pending : ∀ x ∈ tx.pending, Harmless u x

/-- The program works in the innermost transaction and keeps the duties. -/
structure Keeps (env : Env) (u : Uuid) (w₀ : World) (d : Duties) (p : M α) : Prop where
  run : ∀ w tx, Kept u w₀ d w tx →
    ∃ w' tx', (runM env p (w, [tx])).2 = (w', [tx']) ∧ Kept u w₀ d w' tx'

variable {w₀ : World} {d : Duties} {tx : Tx}

/-- What others commit to the log does not show in the view. -/
theorem Kept.later (h : Kept u w₀ d w tx) (hlog : w.Logged w') : Kept u w₀ d w' tx := by
  have hview : ∀ t ∈ dutyTables, view schema w'.db tx t = view schema w.db tx t := by
    intro t ht
    refine foldl_apply_congr (hlog t ?_)
    rintro rfl
    simp [dutyTables] at ht
  refine ⟨h.logged.trans hlog, (duties_congr hview).trans h.duties, ?_, h.pending⟩
  rw [hview .submissions (by simp [dutyTables])]
  exact h.unique

/-- A row that is inserted. -/
theorem Kept.insert {x : AnyRow Row} (h : Kept u w₀ d w tx) (hx : Harmless u x)
    (hinsert : insertError schema w.db tx x.1 (schema.coerce x.1 x.2) = none) :
    Kept u w₀ d w (tx.push (inserting x)) := by
  refine ⟨h.logged, ?_, ?_, h.pending⟩
  · rw [view_push, duties_insert hx]
    exact h.duties
  · obtain ⟨t, r⟩ := x
    by_cases ht : t = .submissions
    · subst ht
      rw [view_push]
      exact nodup_insert h.unique (checkInsert_eq_none.mp (insertError_none hinsert).2).2.1
    · have hne : (inserting ⟨t, r⟩).table ≠ .submissions := ht
      rw [view_push, Write.apply_other hne]
      exact h.unique

namespace Keeps

theorem of_quiet {p : M α} (h : Quiet env p) : Keeps env u w₀ d p := by
  refine ⟨fun w tx hkept => ?_⟩
  obtain ⟨w', hrun, hstill, -⟩ := h.run w [tx]
  exact ⟨w', tx, congrArg Prod.snd hrun, hkept.later hstill.logged⟩

theorem pure (a : α) : Keeps env u w₀ d (Pure.pure a : M α) := of_quiet (Quiet.pure a)

theorem raise (e : Err) : Keeps env u w₀ d (.raise e : M α) := of_quiet (Quiet.raise e)

theorem bind {p : M α} {f : α → M β} (hp : Keeps env u w₀ d p)
    (hf : ∀ a, Keeps env u w₀ d (f a)) : Keeps env u w₀ d (p >>= f) := by
  refine ⟨fun w tx hkept => ?_⟩
  obtain ⟨w₁, tx₁, hrun₁, hkept₁⟩ := hp.run w tx hkept
  rw [runM_bind]
  rcases hrun : runM env p (w, [tx]) with ⟨r, s₁⟩
  rw [hrun] at hrun₁
  cases hrun₁
  cases r with
  | error e => exact ⟨w₁, tx₁, rfl, hkept₁⟩
  | ok a => exact (hf a).run w₁ tx₁ hkept₁

theorem publish {e : DomainEvent} : Keeps env u w₀ d (publish env e) := by
  refine ⟨fun w tx hkept => ?_⟩
  obtain ⟨w', hrun, hlog, -, -⟩ := @runM_publish env e w [tx]
  exact ⟨w', tx, congrArg Prod.snd hrun, hkept.later hlog⟩

theorem add {t : Table} {r : Row t} (h : Harmless u ⟨t, r⟩) : Keeps env u w₀ d (add t r) := by
  refine ⟨fun w tx hkept => ⟨w, { tx with pending := tx.pending ++ [⟨t, r⟩] }, rfl,
    hkept.logged, hkept.duties, hkept.unique, fun x hx => ?_⟩⟩
  rcases List.mem_append.mp hx with hx | hx
  · exact hkept.pending x hx
  · rw [List.mem_singleton.mp hx]
    exact h

theorem insertAll_kept {w : World} (xs : List (AnyRow Row)) : ∀ tx : Tx,
    (∀ x ∈ xs, Harmless u x) → Kept u w₀ d w tx → Kept u w₀ d w (insertAll w.db tx xs).2 := by
  induction xs with
  | nil => exact fun tx _ hkept => hkept
  | cons x xs ih =>
    intro tx hxs hkept
    unfold insertAll
    cases hinsert : insertError schema w.db tx x.1 (schema.coerce x.1 x.2) with
    | some e => exact hkept
    | none =>
      exact ih _ (fun y hy => hxs y (List.mem_cons_of_mem x hy))
        (hkept.insert (hxs x List.mem_cons_self) hinsert)

theorem flush : Keeps env u w₀ d flush := by
  refine ⟨fun w tx hkept => ⟨w, (flushed w.db tx).2, ?_, ?_⟩⟩
  · rw [runM_flush]
  · exact insertAll_kept tx.pending { tx with pending := [] } hkept.pending
      ⟨hkept.logged, hkept.duties, hkept.unique, fun x hx => by cases hx⟩

theorem repoAdd {t : Table} {r : Row t} (h : Harmless u ⟨t, r⟩) :
    Keeps env u w₀ d (repoAdd t r) := (add h).bind fun _ => flush

/-- A change of another table. -/
theorem updateRow {t : Table} {id : Uuid} {f : Row t → Row t} (ht : t ∉ dutyTables) :
    Keeps env u w₀ d (updateRow s t id f) := by
  refine ⟨fun w tx hkept => ?_⟩
  rw [runM_updateRow]
  cases target schema w.db tx t [id] fun _ => true with
  | none => exact ⟨w, tx, rfl, hkept⟩
  | some old =>
    dsimp only
    cases updateError schema w.db tx t old (schema.coerce t (touch s.startedAt t (f old))) with
    | some e => exact ⟨w, tx, rfl, hkept⟩
    | none =>
      refine ⟨w, _, rfl, hkept.logged, ?_, ?_, hkept.pending⟩
      · rw [view_push]
        refine (duties_congr fun t' ht' => Write.apply_other ?_).trans hkept.duties
        rintro rfl
        exact ht ht'
      · rw [view_push, Write.apply_other (by rintro rfl; exact ht (by simp [dutyTables]))]
        exact hkept.unique

/-- A change of a submission's status or content. -/
theorem updateSubmission {id : Uuid} {f : Submission → Submission}
    (hf : ∀ r, SameSubmission r (f r)) :
    Keeps env u w₀ d (LmsBackend.updateRow s .submissions id f) := by
  refine ⟨fun w tx hkept => ?_⟩
  rw [runM_updateRow]
  cases htarget : target schema w.db tx .submissions [id] fun _ => true with
  | none => exact ⟨w, tx, rfl, hkept⟩
  | some old =>
    dsimp only
    cases updateError schema w.db tx .submissions old
      (schema.coerce .submissions (touch s.startedAt .submissions (f old))) with
    | some e => exact ⟨w, tx, rfl, hkept⟩
    | none =>
      obtain ⟨hold, -, hkey, -⟩ := target_some htarget
      have hreplace := @duties_replace u (view schema w.db tx)
        (view schema w.db (tx.push (.update .submissions [id] (f old))))
        (fun r => if keyOf .submissions r = [id] then f old else r)
        (fun t ht => by rw [view_push]; exact Write.apply_other (Ne.symm ht))
        (by rw [view_push, Write.apply_update]; rfl)
        (by
          intro r hr
          split
          · -- the row with the key is the one that was read
            rename_i hid
            have hsame : r = old := List.inj_on_of_nodup_map hkept.unique hr hold
              (List.singleton_injective (hid.trans hkey.symm))
            rw [hsame]
            exact hf old
          · exact ⟨rfl, rfl, rfl, rfl⟩)
      refine ⟨w, _, rfl, hkept.logged, hreplace.1.trans hkept.duties, ?_, hkept.pending⟩
      exact (congrArg List.Nodup hreplace.2).mpr hkept.unique

/-! ### The operations that write duties -/

/-- A grade changes the grades and the status of the submission. -/
theorem recordGrade {submission : Submission} {points maxPoints : Rat} {isAuto : Bool}
    {gradedBy : Option Uuid} {feedback : Option String} :
    Keeps env u w₀ d (recordGrade env rc s submission points maxPoints isAuto gradedBy feedback) := by
  refine (of_quiet Quiet.requireTenantId).bind fun t => (of_quiet Quiet.now).bind fun now => ?_
  refine (of_quiet Quiet.repoFind).bind fun existing => bind ?_ fun grade => ?_
  · cases existing with
    | none =>
      refine (of_quiet Quiet.uuid4).bind fun id => bind (add ?_) fun _ => pure _
      exact trivial
    | some grade => exact (updateRow (by simp [dutyTables])).bind fun _ => pure _
  · refine bind (updateSubmission ?_) fun _ => flush.bind fun _ => publish.bind fun _ => pure _
    exact fun r => ⟨rfl, rfl, rfl, rfl⟩

theorem gradeQuiz {a : LoadedAssignment} {submission : Submission}
    {answers : List (Uuid × List Uuid)} :
    Keeps env u w₀ d (gradeQuiz env rc s a submission answers) := by
  unfold LmsBackend.gradeQuiz
  split
  · exact recordGrade.bind fun _ => pure _
  · exact pure _

theorem gradeSubmission {submissionId graderId : Uuid} {data : GradeRequest} :
    Keeps env u w₀ d (gradeSubmission env rc s submissionId data graderId) := by
  refine (of_quiet Quiet.query).bind fun rows => (of_quiet Quiet.loadSubmissions).bind fun rows => ?_
  refine (of_quiet Quiet.scalarOneOrNone).bind fun found => ?_
  match found with
  | none => exact raise _
  | some (submission, _) =>
    refine (of_quiet Quiet.getAssignmentOr404).bind fun a => ?_
    split
    · exact raise _
    · exact recordGrade

/-- Another user submits. -/
theorem submit {assignmentId userId : Uuid} {data : SubmitRequest} (hother : userId ≠ u) :
    Keeps env u w₀ d (submit env rc s assignmentId userId data) := by
  refine (of_quiet Quiet.requireTenantId).bind fun t => ?_
  refine (of_quiet Quiet.getAssignmentOr404).bind fun a => ?_
  split
  · exact raise _
  · refine (of_quiet Quiet.now).bind fun now => (of_quiet Quiet.uuid4).bind fun id => ?_
    refine bind (repoAdd ?_) fun _ => publish.bind fun _ => gradeQuiz.bind fun _ =>
      (of_quiet Quiet.query).bind fun _ => pure _
    exact hother

/-- Another user enrols. -/
theorem enroll {courseId userId : Uuid} (hother : userId ≠ u) :
    Keeps env u w₀ d (enroll env rc s courseId userId) := by
  refine (of_quiet Quiet.requireTenantId).bind fun t => ?_
  refine (of_quiet Quiet.repoGetOr404).bind fun course => ?_
  split
  · exact raise _
  · refine (of_quiet Quiet.getForUserCourse).bind fun existing => ?_
    split
    · exact raise _
    · refine (of_quiet Quiet.now).bind fun now => (of_quiet Quiet.uuid4).bind fun id => ?_
      refine bind (repoAdd ?_) fun _ => (updateRow (by simp [dutyTables])).bind fun _ =>
        publish.bind fun _ => pure _
      exact hother

/-- An assignment that is not published is no duty. -/
theorem createAssignment {courseId : Uuid} {data : AdminAssignmentCreate}
    (hpublished : data.isPublished = false) :
    Keeps env u w₀ d (createAssignment env rc s courseId data) := by
  refine (of_quiet Quiet.getCourse).bind fun course => (of_quiet Quiet.parseDueAt).bind fun due => ?_
  refine (of_quiet Quiet.requireTenantId).bind fun t => (of_quiet Quiet.uuid4).bind fun id => ?_
  refine (of_quiet Quiet.encodeDueAt).bind fun due => bind (repoAdd ?_) fun _ => pure _
  exact hpublished

end Keeps

/-! ## Requests of others -/

/-- The route publishes an assignment. -/
def Endpoint.publishesAssignment : Endpoint → Prop
  | .createAdminCourseAssignment _ data => data.isPublished = true
  | _ => False

/-- A request starts with the duties of the committed rows. -/
theorem Kept.start {req : Request} {caller : Option Caller}
    (hids : ((w.db .submissions).map (·.id)).Nodup)
    (h : Admitted env w req rc caller s w') :
    Kept u w' (LmsBackend.duties u w.db) w' (requestTx env rc) := by
  have hview : view schema w'.db (requestTx env rc) = w.db :=
    (view_nil schema w'.db rfl).trans h.still.db
  refine ⟨World.Logged.refl w', by rw [hview], ?_, fun x hx => by cases hx⟩
  rw [hview]
  exact hids

/-- How a unit of work ends that kept the duties: whether it commits or not, they stay. -/
theorem Kept.finish (h : Kept u w₀ (LmsBackend.duties u w₀.db) w tx) (r : Except Err α) :
    LmsBackend.duties u (finish env (r, (w, [tx]))).2.db = LmsBackend.duties u w₀.db := by
  have hbefore : LmsBackend.duties u w.db = LmsBackend.duties u w₀.db :=
    duties_congr fun t ht => h.logged t (by rintro rfl; simp [dutyTables] at ht)
  cases r with
  | error e => exact hbefore
  | ok a =>
    show LmsBackend.duties u (runM env commitSession (w, [tx])).2.1.db = _
    rw [runM_commitSession]
    show LmsBackend.duties u (committed w tx).db = _
    have hflushed := @Keeps.insertAll_kept u w₀ _ w tx.pending { tx with pending := [] } h.pending
      ⟨h.logged, h.duties, h.unique, fun x hx => by cases hx⟩
    unfold committed
    rcases hflush : flushed w.db tx with ⟨e | _, tx'⟩
    · exact hbefore
    · rw [flushed] at hflush
      rw [hflush] at hflushed
      exact hflushed.duties

/-- A request whose handler keeps the duties of a user. -/
theorem serve_duties {req : Request} (hrouted : req.endpoint.routed)
    (hids : ((w.db .submissions).map (·.id)).Nodup)
    (hkeeps : ∀ rc caller s w', Admitted env w req rc caller s w' →
      ∀ d, Keeps env u w' d (handler env rc s req caller)) :
    duties u (serve env w req).2.db = duties u w.db := by
  obtain ⟨e, w', heq, hstill⟩ | ⟨rc, caller, s, w', hadmitted, heq⟩ := @serve_cases env w req hrouted
  · rw [heq]
    exact congrArg (duties u) hstill.db
  · obtain ⟨w₁, tx₁, hrun, hkept⟩ := (hkeeps rc caller s w' hadmitted _).run w' (requestTx env rc)
      (Kept.start (u := u) hids hadmitted)
    rcases hhandler : runM env (handler env rc s req caller) (w', [requestTx env rc]) with ⟨r, s₁⟩
    rw [hhandler] at hrun heq
    cases hrun
    rw [← hadmitted.still.db] at hkept ⊢
    rw [heq]
    exact hkept.finish r

/-- **Requests of others** leave the duties of a user alone, unless they publish an
assignment. -/
theorem serve_other {req : Request} (hids : ((w.db .submissions).map (·.id)).Nodup)
    (hcaller : CallerIs env w req (· ≠ u)) (hpublish : ¬ req.endpoint.publishesAssignment) :
    duties u (serve env w req).2.db = duties u w.db := by
  by_cases hwrites : ∀ t ∈ dutyTables, t ∉ req.endpoint.writes
  · exact duties_congr fun t ht => serve_frame env w req (hwrites t ht)
  · -- only four routes write duties, all of them for a caller
    have hroute : req.endpoint.user = true ∧ req.endpoint.isTenantAdmin = false ∧
        ∀ rc s (user : LoadedUser), user.user.id ≠ u → ∀ w₀ d,
          Keeps env u w₀ d (userHandler env rc s user req.endpoint) := by
      obtain ⟨headers, client, e, valid⟩ := req
      cases e with
      | enroll courseId =>
        exact ⟨rfl, rfl, fun rc s user hne w₀ d => (Keeps.enroll hne).bind fun _ => Keeps.pure _⟩
      | submit assignmentId data =>
        exact ⟨rfl, rfl, fun rc s user hne w₀ d => (Keeps.submit hne).bind fun _ => Keeps.pure _⟩
      | grade submissionId data =>
        exact ⟨rfl, rfl, fun rc s user hne w₀ d =>
          Keeps.gradeSubmission.bind fun _ => Keeps.pure _⟩
      | createAdminCourseAssignment courseId data =>
        exact ⟨rfl, rfl, fun rc s user hne w₀ d =>
          (Keeps.createAssignment (Bool.eq_false_iff.mpr hpublish)).bind fun _ => Keeps.pure _⟩
      | _ => exact absurd (by simp [dutyTables, Endpoint.writes]) hwrites
    obtain ⟨huser, hadmin, hkeeps⟩ := hroute
    refine serve_duties (Endpoint.routed_of_user huser) hids fun rc caller s w' hadmitted d => ?_
    obtain ⟨c, rfl⟩ := hadmitted.some_caller huser
    have hhandler : handler env rc s req (some c) =
        userHandler env (rc.enrich c) s c.user req.endpoint := if_neg (by simp [hadmin])
    rw [hhandler]
    exact hkeeps (rc.enrich c) s c.user (hcaller rc c s w' hadmitted) w' d

/-! ## Requests of the user -/

/-- A run that returns ends with nothing left to flush, and with duties that satisfy `Q`. A
program that is `clean` is only run with nothing to flush. -/
structure Moves (env : Env) (u : Uuid) (w₀ : World) (clean : Bool) (d : Duties) (p : M α)
    (Q : Duties → Prop) : Prop where
  run : ∀ w tx a s', Kept u w₀ d w tx → (clean = true → tx.pending = []) →
    runM env p (w, [tx]) = (.ok a, s') →
    ∃ w' tx' d', s' = (w', [tx']) ∧ Kept u w₀ d' w' tx' ∧ tx'.pending = [] ∧ Q d'

namespace Moves

variable {clean : Bool} {Q : Duties → Prop}

theorem pure {a : α} (h : Q d) : Moves env u w₀ true d (Pure.pure a : M α) Q := by
  refine ⟨fun w tx a' s' hkept hclean hrun => ?_⟩
  cases hrun
  exact ⟨w, tx, d, rfl, hkept, hclean rfl, h⟩

theorem raise {e : Err} : Moves env u w₀ clean d (.raise e : M α) Q :=
  ⟨fun _ _ _ _ _ _ hrun => by cases congrArg Prod.fst hrun⟩

/-- What is only run clean may also be run where it is clean. -/
theorem weaken {p : M α} (h : Moves env u w₀ false d p Q) : Moves env u w₀ true d p Q :=
  ⟨fun w tx a s' hkept _ => h.run w tx a s' hkept fun hfalse => by cases hfalse⟩

/-- A lookup first. -/
theorem after {p : M α} {f : α → M β} (hp : Quiet env p)
    (hf : ∀ a, Moves env u w₀ clean d (f a) Q) : Moves env u w₀ clean d (p >>= f) Q := by
  refine ⟨fun w tx b s' hkept hclean hrun => ?_⟩
  obtain ⟨a, s₁, hp₁, hrun⟩ := Prog.run_bind_eq_ok hrun
  obtain ⟨w₁, hquiet, hstill, -⟩ := hp.run w [tx]
  obtain rfl : s₁ = (w₁, [tx]) := (congrArg Prod.snd hp₁).symm.trans (congrArg Prod.snd hquiet)
  exact (hf a).run w₁ tx b s' (hkept.later hstill.logged) hclean hrun

/-- Work that keeps the duties first, flushed later. -/
theorem dirty {p : M α} {f : α → M β} (hp : Keeps env u w₀ d p)
    (hf : ∀ a, Moves env u w₀ false d (f a) Q) : Moves env u w₀ false d (p >>= f) Q := by
  refine ⟨fun w tx b s' hkept _ hrun => ?_⟩
  obtain ⟨a, s₁, hp₁, hrun⟩ := Prog.run_bind_eq_ok hrun
  obtain ⟨w₁, tx₁, hs₁, hkept₁⟩ := hp.run w tx hkept
  obtain rfl : s₁ = (w₁, [tx₁]) := (congrArg Prod.snd hp₁).symm.trans hs₁
  exact (hf a).run w₁ tx₁ b s' hkept₁ (fun hfalse => by cases hfalse) hrun

theorem flush {f : Unit → M β} (hf : Moves env u w₀ true d (f ()) Q) :
    Moves env u w₀ false d (flush >>= f) Q := by
  refine ⟨fun w tx b s' hkept _ hrun => ?_⟩
  obtain ⟨_, s₁, hflush, hrun⟩ := Prog.run_bind_eq_ok hrun
  obtain ⟨w₁, tx₁, hs₁, hkept₁⟩ := Keeps.flush.run w tx hkept
  obtain rfl : s₁ = (w₁, [tx₁]) := (congrArg Prod.snd hflush).symm.trans hs₁
  have hclean : tx₁.pending = [] := by
    cases runM_flush_ok hflush
    rfl
  exact hf.run w₁ tx₁ b s' hkept₁ (fun _ => hclean) hrun

theorem publish {e : DomainEvent} {f : Unit → M β} (hf : Moves env u w₀ clean d (f ()) Q) :
    Moves env u w₀ clean d (publish env e >>= f) Q := by
  refine ⟨fun w tx b s' hkept hclean hrun => ?_⟩
  obtain ⟨_, s₁, hpublish, hrun⟩ := Prog.run_bind_eq_ok hrun
  obtain ⟨w₁, rfl, hlog, -⟩ := publish_ok hpublish
  exact hf.run w₁ tx b s' (hkept.later hlog) hclean hrun

theorem updateRow {t : Table} {id : Uuid} {g : Row t → Row t} {f : Unit → M β}
    (ht : t ∉ dutyTables) (hf : Moves env u w₀ clean d (f ()) Q) :
    Moves env u w₀ clean d (updateRow s t id g >>= f) Q := by
  refine ⟨fun w tx b s' hkept hclean hrun => ?_⟩
  obtain ⟨_, s₁, hupdate, hrun⟩ := Prog.run_bind_eq_ok hrun
  obtain ⟨w₁, tx₁, hs₁, hkept₁⟩ := (Keeps.updateRow (s := s) (f := g) ht).run w tx hkept
  obtain rfl : s₁ = (w₁, [tx₁]) := (congrArg Prod.snd hupdate).symm.trans hs₁
  have hpending : tx₁.pending = tx.pending := by
    obtain ⟨old, -, hs⟩ := runM_updateRow_ok hupdate
    cases hs
    rfl
  exact hf.run w₁ tx₁ b s' hkept₁ (fun h => hpending.trans (hclean h)) hrun

/-- A sequence of two parts. -/
theorem bind {R : Duties → Prop} {p : M α} {f : α → M β} (hp : Moves env u w₀ clean d p Q)
    (hf : ∀ a d', Q d' → Moves env u w₀ true d' (f a) R) : Moves env u w₀ clean d (p >>= f) R := by
  refine ⟨fun w tx b s' hkept hclean hrun => ?_⟩
  obtain ⟨a, s₁, hp₁, hrun⟩ := Prog.run_bind_eq_ok hrun
  obtain ⟨w₁, tx₁, d₁, rfl, hkept₁, hclean₁, hQ⟩ := hp.run w tx a s₁ hkept hclean hp₁
  exact (hf a d₁ hQ).run w₁ tx₁ b s' hkept₁ (fun _ => hclean₁) hrun

theorem requireTenantId {f : Uuid → M β} (htid : rc.tenantId = some tid)
    (hf : Moves env u w₀ clean d (f tid) Q) :
    Moves env u w₀ clean d (requireTenantId rc >>= f) Q := by
  unfold LmsBackend.requireTenantId
  rw [htid]
  exact hf

/-- **A row of the user's own** is inserted. -/
theorem repoAdd {t : Table} {r : Row t} {f : Unit → M β}
    (h : ∀ db, duties u db = d → ((db .submissions).map (·.id)).Nodup →
      uniqueError db t (schema.coerce t r) = none →
      ∃ d', duties u (Write.apply schema db (inserting ⟨t, r⟩)) = d' ∧
        ((Write.apply schema db (inserting ⟨t, r⟩) .submissions).map (·.id)).Nodup ∧
        Moves env u w₀ true d' (f ()) Q) :
    Moves env u w₀ true d (repoAdd t r >>= f) Q := by
  refine ⟨fun w tx b s' hkept hclean hrun => ?_⟩
  obtain ⟨_, s₁, hadd, hrun⟩ := Prog.run_bind_eq_ok hrun
  have hs₁ := runM_repoAdd_ok (hclean rfl) hadd
  subst hs₁
  have hinsert : insertError schema w.db tx t (schema.coerce t r) = none := by
    replace hadd := (runM_repoAdd (hclean rfl) t r).symm.trans hadd
    cases herror : insertError schema w.db tx t (schema.coerce t r) with
    | none => rfl
    | some e =>
      rw [herror] at hadd
      cases congrArg Prod.fst hadd
  have hunique := (checkInsert_eq_none.mp (insertError_none hinsert).2).2.1
  obtain ⟨d', hd', hids, hf⟩ := h _ hkept.duties hkept.unique hunique
  refine hf.run w (tx.push (inserting ⟨t, r⟩)) b s' ⟨hkept.logged, ?_, ?_, hkept.pending⟩
    (fun _ => hclean rfl) hrun
  · rw [view_push]
    exact hd'
  · rw [view_push]
    exact hids

/-- The duties after a grade: the same. -/
theorem recordGrade {submission : Submission} {points maxPoints : Rat} {isAuto : Bool}
    {gradedBy : Option Uuid} {feedback : Option String} (h : Q d) :
    Moves env u w₀ true d
      (recordGrade env rc s submission points maxPoints isAuto gradedBy feedback) Q := by
  refine after Quiet.requireTenantId fun t => after Quiet.now fun now => ?_
  refine after Quiet.repoFind fun existing => weaken (dirty ?_ fun grade => ?_)
  · cases existing with
    | none =>
      refine (Keeps.of_quiet Quiet.uuid4).bind fun id => Keeps.bind (Keeps.add ?_) fun _ => Keeps.pure _
      exact trivial
    | some grade => exact (Keeps.updateRow (by simp [dutyTables])).bind fun _ => Keeps.pure _
  · refine dirty (Keeps.updateSubmission ?_) fun _ => flush (publish (pure h))
    exact fun r => ⟨rfl, rfl, rfl, rfl⟩

/-- The user submits. -/
theorem submit {assignmentId : Uuid} {data : SubmitRequest} (htid : rc.tenantId = some tid) :
    Moves env u w₀ true d (submit env rc s assignmentId u data)
      (· = { d with submitted := d.submitted ++ [(tid, assignmentId)] }) := by
  refine requireTenantId htid (after Quiet.getAssignmentOr404 fun a => ?_)
  split
  · exact raise
  · refine after Quiet.now fun now => after Quiet.uuid4 fun id => repoAdd fun db hd hids hunique => ?_
    set submitted : Duties := { d with submitted := d.submitted ++ [(tid, assignmentId)] }
    refine ⟨submitted, ?_, ?_, ?_⟩
    · subst hd
      exact duties_submission rfl
    · exact nodup_insert hids hunique
    · refine publish (bind (Q := (· = submitted)) ?_ fun status d' hd' =>
        after Quiet.query fun _ => pure hd')
      unfold gradeQuiz
      split
      · exact bind (Q := (· = submitted)) (recordGrade rfl) fun _ d' hd' => pure hd'
      · exact pure rfl

/-- The user enrols: one active enrolment in a course without one. -/
theorem enroll {courseId : Uuid} (htid : rc.tenantId = some tid) :
    Moves env u w₀ true d (enroll env rc s courseId u) fun d' =>
      (∃ e : CourseEnrollment, e.tenantId = tid ∧ e.courseId = courseId ∧ e.status = .active ∧
        d' = { d with enrolled := d.enrolled ++ [e] }) ∧
      ∀ e ∈ d.enrolled, e.courseId ≠ courseId := by
  refine requireTenantId htid (after Quiet.repoGetOr404 fun course => ?_)
  split
  · exact raise
  · refine after Quiet.getForUserCourse fun existing => ?_
    split
    · exact raise
    · refine after Quiet.now fun now => after Quiet.uuid4 fun id =>
        repoAdd fun db hd hids hunique => ?_
      let e : CourseEnrollment :=
        { id, tenantId := tid, courseId, userId := u, status := .active, enrolledAt := now }
      refine ⟨_, rfl, ?_,
        updateRow (by simp [dutyTables]) (publish (pure ⟨⟨e, rfl, rfl, rfl, ?_⟩, ?_⟩))⟩
      · rw [inserting, Write.apply_other (by rintro ⟨⟩)]
        exact hids
      · subst hd
        exact duties_enrollment rfl
      · subst hd
        intro e he
        obtain ⟨hmem, huser⟩ := List.mem_filter.mp he
        have hkeys := (uniqueError_courseEnrollments.mp hunique).2 e hmem
        exact fun hcourse => hkeys hcourse (of_decide_eq_true huser)

end Moves

/-- An answer to a request of the user: the duties moved, and the commit kept them. -/
theorem serve_moves {req : Request} {body : Body} {Q : Duties → Prop}
    (hroute : req.endpoint.user = true ∧ req.endpoint.isTenantAdmin = false)
    (hids : ((w.db .submissions).map (·.id)).Nodup)
    (hmoves : ∀ rc c s w₁, Admitted env w req rc (some c) s w₁ →
      Moves env u w₁ true (duties u w.db) (userHandler env (rc.enrich c) s c.user req.endpoint) Q)
    (h : serve env w req = (.ok body, w')) : Q (duties u w'.db) := by
  obtain ⟨rc, c, s, w₁, s', hadmitted, hrun, rfl⟩ := serve_user_ok hroute.1 hroute.2 h
  obtain ⟨w₂, tx, d', rfl, hkept, hclean, hQ⟩ := (hmoves rc c s w₁ hadmitted).run w₁
    (requestTx env rc) body s' (Kept.start hids hadmitted) (fun _ => rfl) hrun
  rw [runM_commitSession]
  show Q (duties u (committed w₂ tx).db)
  rw [committed_nil hclean]
  exact hkept.duties ▸ hQ

/-! ## The count -/

/-- The pending count of the dashboard, and what moves it. -/
structure PendingTracks (env : Env) (w : World) (tid u : Uuid) : Prop where
  /-- the dashboard counts the pending assignments, each once -/
  exact : ∀ rc, rc.tenantId = some tid → ∃ d s',
    runM env (dashboard env u) (w, [requestTx env rc]) = (.ok d, s') ∧
    d.pendingAssignments = (Pending tid u w.db).ncard ∧
    d.pendingAssignments = (pendingRows u (seen w (requestTx env rc))).length ∧
    d.submissions = submissionsOf tid u w.db
  /-- a submission of the user takes one off, if it was counted -/
  submit : ∀ req assignmentId data body w', req.endpoint = .submit assignmentId data →
    CallerIs env w req (· = u) → serve env w req = (.ok body, w') →
    (assignmentId ∈ Pending tid u w.db →
      (Pending tid u w'.db).ncard + 1 = (Pending tid u w.db).ncard) ∧
    (assignmentId ∉ Pending tid u w.db →
      (Pending tid u w'.db).ncard = (Pending tid u w.db).ncard) ∧
    submissionsOf tid u w'.db = submissionsOf tid u w.db + 1
  /-- an enrolment of the user adds what is published in the course and not submitted -/
  enroll : ∀ req courseId body w', req.endpoint = .enroll courseId →
    CallerIs env w req (· = u) → serve env w req = (.ok body, w') →
    (Pending tid u w'.db).ncard =
      (Pending tid u w.db).ncard + (Unsubmitted tid u courseId w.db).ncard
  /-- requests of others change nothing, unless they publish an assignment -/
  others : ∀ req, CallerIs env w req (· ≠ u) → ¬ req.endpoint.publishesAssignment →
    Pending tid u (serve env w req).2.db = Pending tid u w.db

/-- **The pending count** is exact and moves with the operations. -/
theorem pending_tracks (hrls : env.settings.enableRowLevelSecurity = true)
    (hassignments : ((w.db .assignments).map (·.id)).Nodup)
    (hsubmissions : ((w.db .submissions).map (·.id)).Nodup)
    (huser : ∀ v ∈ w.db .users, v.id = u → v.tenantId = tid) : PendingTracks env w tid u := by
  have htenant : ∀ {req rc c s w₁}, CallerIs env w req (· = u) →
      Admitted env w req rc (some c) s w₁ → (rc.enrich c).tenantId = some tid := by
    intro req rc c s w₁ hcaller hadmitted
    have hknown := hadmitted.known
    rw [hknown.enrich_tenant, hknown.tenant,
      huser _ hknown.account (hcaller rc c s w₁ hadmitted)]
  refine ⟨?_, ?_, ?_, ?_⟩
  · intro rc htid
    refine ⟨_, _, runM_dashboard u _ [], pending_card hrls htid hassignments,
      (pendingRows_length u _).symm, ?_⟩
    show ((seen w (requestTx env rc) .submissions).filter fun r => decide (r.userId = u)).length = _
    rw [seen_tenant hrls htid (by simp [rlsTables]), List.filter_filter, submissionsOf]
    refine congrArg List.length (List.filter_congr fun r _ => ?_)
    simp [tenantOf, Bool.and_comm]
  · intro req assignmentId data body w' he hcaller hserve
    let submitted : Duties :=
      { duties u w.db with submitted := (duties u w.db).submitted ++ [(tid, assignmentId)] }
    have hmoved : duties u w'.db = submitted := by
      refine serve_moves (Q := (· = submitted)) (by rw [he]; exact ⟨rfl, rfl⟩) hsubmissions
        (fun rc c s w₁ hadmitted => ?_) hserve
      rw [he]
      have hself := hcaller rc c s w₁ hadmitted
      show Moves env u w₁ true _ (LmsBackend.submit env (rc.enrich c) s assignmentId c.user.user.id
        data >>= _) _
      rw [hself]
      exact (Moves.submit (htenant hcaller hadmitted)).bind fun _ _ hd => Moves.pure hd
    have hpending : Duties.pending tid submitted = (duties u w.db).pending tid \ {assignmentId} :=
      Duties.pending_submit _ _
    have hcount : (submitted.submitted.filter fun x => decide (x.1 = tid)).length =
        ((duties u w.db).submitted.filter fun x => decide (x.1 = tid)).length + 1 := by
      simp [submitted, List.filter_append]
    rw [submissionsOf_duties, submissionsOf_duties, pending_duties, pending_duties, hmoved,
      hpending]
    refine ⟨fun hmem => ?_, fun hmem => ?_, hcount⟩
    · exact Set.ncard_sdiff_singleton_add_one hmem (Duties.finite_pending _)
    · rw [Set.sdiff_singleton_eq_self hmem]
  · intro req courseId body w' he hcaller hserve
    have hmoved : (∃ e : CourseEnrollment, e.tenantId = tid ∧ e.courseId = courseId ∧
        e.status = .active ∧
        duties u w'.db = { duties u w.db with enrolled := (duties u w.db).enrolled ++ [e] }) ∧
        ∀ e ∈ (duties u w.db).enrolled, e.courseId ≠ courseId := by
      refine serve_moves (Q := fun d' => (∃ e : CourseEnrollment, e.tenantId = tid ∧
          e.courseId = courseId ∧ e.status = .active ∧
          d' = { duties u w.db with enrolled := (duties u w.db).enrolled ++ [e] }) ∧
          ∀ e ∈ (duties u w.db).enrolled, e.courseId ≠ courseId)
        (by rw [he]; exact ⟨rfl, rfl⟩) hsubmissions (fun rc c s w₁ hadmitted => ?_) hserve
      rw [he]
      have hself := hcaller rc c s w₁ hadmitted
      show Moves env u w₁ true _ (LmsBackend.enroll env (rc.enrich c) s courseId c.user.user.id
        >>= _) _
      rw [hself]
      exact (Moves.enroll (htenant hcaller hadmitted)).bind fun _ _ hd => Moves.pure hd
    obtain ⟨⟨e, hetenant, rfl, hactive, hduties⟩, hnone⟩ := hmoved
    have hpublished : ((duties u w.db).published.map (·.id)).Nodup :=
      hassignments.sublist (List.filter_sublist.map _)
    rw [pending_duties, pending_duties, unsubmitted_duties, hduties,
      Duties.pending_enroll _ hetenant hactive,
      Set.ncard_union_eq (Set.disjoint_left.mpr (Duties.pending_disjoint _ hpublished hnone))
        (Duties.finite_pending _) (Duties.finite_unsubmitted _ _)]
  · intro req hcaller hpublish
    rw [pending_duties, pending_duties, serve_other hsubmissions hcaller hpublish]

/-- The learner of a tenant is enrolled in the course with the published assignment. -/
def assignedWorld : World := World.fresh 0 fun
  | .users => [Catalogue.learner.user]
  | .courseEnrollments => [{ id := 6, tenantId := 1, courseId := 2, userId := 5, enrolledAt := 0 }]
  | t => Catalogue.tables true t

/-- One assignment is pending for the learner. -/
theorem assignedWorld_tracks : PendingTracks Catalogue.platform assignedWorld 1 5 ∧
    (Pending 1 5 assignedWorld.db).ncard = 1 := by
  have hassignments : ((assignedWorld.db .assignments).map (·.id)).Nodup := List.nodup_singleton _
  refine ⟨pending_tracks rfl hassignments List.nodup_nil fun v hv _ => ?_, ?_⟩
  · rw [List.mem_singleton.mp hv]
    rfl
  · have hcount := @pending_card Catalogue.platform Catalogue.context assignedWorld 1 5 rfl rfl
      hassignments
    exact hcount.symm.trans (by decide +kernel)

end LmsBackend
