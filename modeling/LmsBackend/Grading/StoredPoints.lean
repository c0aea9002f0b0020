import LmsBackend.Content.Paging
import LmsBackend.Effects.Creations
import LmsBackend.Grading.AutoGrade

/-!
# The points of a grade, in the answer and in the table

`grade_submission` answers with the grade as the teacher gave it; the column keeps two
decimals of it.

- `recordGrade_ok`: the rows after a grade was recorded, new or changed.
- `GradeRead`: the two ways to read grades later on.
- `points_agree_iff`: every later read has the points of the answer exactly if these have at
  most two decimals.
-/

namespace LmsBackend

open Mvcc

variable {env : Env} {rc bound : RequestContext} {w w' : World} {tx : Tx} {txs : List Tx}
  {s : Session}

/-! ## The rows after a grade was recorded -/

/-- Grades have an identifier of their own, and a submission has one grade. -/
structure GradeKeys (db : Database Row) : Prop where
  ids : ∀ g ∈ db .grades, ∀ g' ∈ db .grades, g.id = g'.id → g = g'
  single : ∀ g ∈ db .grades, ∀ g' ∈ db .grades, g.submissionId = g'.submissionId → g = g'
  submissions : ∀ r ∈ db .submissions, ∀ r' ∈ db .submissions, r.id = r'.id → r = r'

/-- The grade as the table has it: a row of its own, rounded, that the session may read, and no
other row of its submission. -/
structure GradeStored (db : Database Row) (guc : Guc) (grade : Grade) (points : Rat) : Prop where
  row : ∃ r ∈ db .grades, r.id = grade.id ∧ policy guc .grades r = true
  only : ∀ r ∈ db .grades, r.id = grade.id → r.points = roundNumeric 2 points ∧
    r.submissionId = grade.submissionId
  single : ∀ r ∈ db .grades, r.submissionId = grade.submissionId → r.id = grade.id

/-- What a session stored: the grade, and the submission it is of. -/
structure Recorded (db : Database Row) (guc : Guc) (submission : Submission) (points : Rat)
    (grade : Grade) : Prop where
  stored : GradeStored db guc grade points
  answered : grade.points = points
  submissionId : grade.submissionId = submission.id
  graded : { submission with status := .graded } ∈ db .submissions

/-- The submission is marked as graded. -/
theorem graded_submission {submission : Submission} (hkeys : GradeKeys w.db)
    (hview : view schema w.db tx .submissions = w.db .submissions)
    (hsub : submission ∈ w.db .submissions) {old : Submission}
    (htarget : target schema w.db tx .submissions [submission.id] (fun _ => true) = some old)
    {db : Database Row} (hdb : db .submissions = w.db .submissions) :
    { submission with status := .graded } ∈ Mvcc.Write.apply schema db
      (.update .submissions [submission.id] { old with status := .graded }) .submissions := by
  obtain ⟨hmem, -, hkey, -⟩ := target_some htarget
  rw [hview] at hmem
  obtain rfl := hkeys.submissions old hmem submission hsub (List.head_eq_of_cons_eq hkey)
  rw [Write.apply_update, hdb]
  exact List.mem_map.mpr ⟨old, hsub, if_pos rfl⟩

/-- A new grade is stored. -/
theorem recorded_new {submission oldSub : Submission} {grade : Grade} (hkeys : GradeKeys w.db)
    (hw : tx.writes = []) (hsub : submission ∈ w.db .submissions)
    (hgrade : grade.submissionId = submission.id) (hlog : w.Logged w')
    (htarget : target schema w.db tx .submissions [submission.id] (fun _ => true) = some oldSub)
    (hinsert : insertError schema w.db (tx.push (.update .submissions [submission.id]
      { oldSub with status := .graded })) .grades (schema.coerce .grades grade) = none) :
    Recorded (view schema w'.db ((tx.push (.update .submissions [submission.id]
      { oldSub with status := .graded })).push (inserting ⟨.grades, grade⟩))) tx.guc submission
      grade.points grade := by
  have hview : view schema w.db tx .submissions = w.db .submissions := by
    rw [view_nil schema w.db hw]
  have hgrades : ∀ db : Database Row, Mvcc.Write.apply schema db (.update .submissions
      [submission.id] { oldSub with status := .graded }) .grades = db .grades :=
    fun db => Write.apply_other (by simp [Write.table])
  obtain ⟨hpolicy, hcheck⟩ := insertError_none hinsert
  have hunique := uniqueError_grades.mp (checkInsert_eq_none.mp hcheck).2.1
  rw [view_push, view_nil schema w.db hw, hgrades] at hunique
  have hrows : view schema w'.db ((tx.push (.update .submissions [submission.id]
      { oldSub with status := .graded })).push (inserting ⟨.grades, grade⟩)) .grades =
      w.db .grades ++ [schema.coerce .grades grade] := by
    rw [view_push, view_push, view_nil schema w'.db hw, inserting, Write.apply_insert, hgrades,
      hlog .grades (by decide)]
  refine ⟨⟨⟨schema.coerce .grades grade, ?_, rfl, hpolicy⟩, fun r hr hid => ?_,
    fun r hr hof => ?_⟩, rfl, hgrade, ?_⟩
  · rw [hrows]
    exact List.mem_append_right _ List.mem_cons_self
  · rw [hrows] at hr
    rcases List.mem_append.mp hr with hr | hr
    · exact absurd hid (hunique r hr).1
    · obtain rfl := List.mem_singleton.mp hr
      exact ⟨rfl, rfl⟩
  · rw [hrows] at hr
    rcases List.mem_append.mp hr with hr | hr
    · exact absurd hof (hunique r hr).2
    · obtain rfl := List.mem_singleton.mp hr
      rfl
  · rw [view_push, view_push, view_nil schema w'.db hw, Write.apply_other (by simp [inserting, Write.table])]
    exact graded_submission hkeys hview hsub htarget (hlog .submissions (by decide))

/-- A grade that was there is changed. -/
theorem recorded_again {submission oldSub : Submission} {existing old : Grade}
    (hkeys : GradeKeys w.db) (hw : tx.writes = []) (hsub : submission ∈ w.db .submissions)
    (hexisting : existing ∈ w.db .grades) (hof : existing.submissionId = submission.id)
    (htarget : target schema w.db tx .grades [existing.id] (fun _ => true) = some old)
    {f : Grade → Grade} (hf : ∀ g, (f g).id = g.id ∧ (f g).submissionId = g.submissionId)
    (hpolicy : policy tx.guc .grades (schema.coerce .grades (f old)) = true)
    (hlog : w.Logged w')
    (htargetSub : target schema w.db (tx.push (.update .grades [existing.id]
      (schema.coerce .grades (f old)))) .submissions [submission.id] (fun _ => true) = some oldSub) :
    Recorded (view schema w'.db ((tx.push (.update .grades [existing.id]
      (schema.coerce .grades (f old)))).push (.update .submissions [submission.id]
      { oldSub with status := .graded }))) tx.guc submission (f existing).points (f existing) := by
  obtain ⟨hmem, -, hkey, -⟩ := target_some htarget
  rw [view_nil schema w.db hw] at hmem
  obtain rfl := hkeys.ids old hmem existing hexisting (List.head_eq_of_cons_eq hkey)
  have hsubmissions : ∀ db : Database Row, Mvcc.Write.apply schema db (.update .grades [old.id]
      (schema.coerce .grades (f old))) .submissions = db .submissions :=
    fun db => Write.apply_other (by simp [Write.table])
  have hrows : view schema w'.db ((tx.push (.update .grades [old.id]
      (schema.coerce .grades (f old)))).push (.update .submissions [submission.id]
      { oldSub with status := .graded })) .grades = (w.db .grades).map fun r =>
        if schema.key .grades r = [old.id] then schema.coerce .grades (f old) else r := by
    rw [view_push, Write.apply_other (by simp [Write.table]), view_push, view_nil schema w'.db hw,
      Write.apply_update, hlog .grades (by decide)]
  -- a row is the changed one or has another identifier
  have hrow : ∀ r ∈ view schema w'.db ((tx.push (.update .grades [old.id]
      (schema.coerce .grades (f old)))).push (.update .submissions [submission.id]
      { oldSub with status := .graded })) .grades,
      r = schema.coerce .grades (f old) ∨ r ∈ w.db .grades ∧ r.id ≠ old.id := by
    intro r hr
    rw [hrows] at hr
    obtain ⟨r', hr', rfl⟩ := List.mem_map.mp hr
    by_cases hid : schema.key .grades r' = [old.id]
    · exact .inl (if_pos hid)
    · rw [if_neg hid]
      exact .inr ⟨hr', fun heq => hid (congrArg (fun i => [i]) heq)⟩
  refine ⟨⟨⟨schema.coerce .grades (f old), ?_, rfl, hpolicy⟩, fun r hr hid => ?_,
    fun r hr hsame => ?_⟩, rfl, (hf old).2.trans hof, ?_⟩
  · rw [hrows]
    exact List.mem_map.mpr ⟨old, hexisting, if_pos rfl⟩
  · rcases hrow r hr with rfl | ⟨-, hne⟩
    · exact ⟨rfl, rfl⟩
    · exact absurd (hid.trans (hf old).1) hne
  · rcases hrow r hr with rfl | ⟨hr, hne⟩
    · rfl
    · exact absurd (congrArg (·.id) (hkeys.single r hr old hexisting
        (hsame.trans (hf old).2))) hne
  · rw [view_push]
    refine graded_submission hkeys ?_ hsub htargetSub ?_
    · rw [view_push, view_nil schema w.db hw, hsubmissions]
    · rw [view_push, view_nil schema w'.db hw, hsubmissions, hlog .submissions (by decide)]

/-- A grade is recorded, and is what the table has of it. -/
theorem recordGrade_ends {submission : Submission} {points maxPoints : Rat} {isAuto : Bool}
    {gradedBy : Option Uuid} {feedback : Option String} (hkeys : GradeKeys w.db)
    (hw : tx.writes = []) (hp : tx.pending = []) (hsub : submission ∈ w.db .submissions) :
    Ends env (recordGrade env rc s submission points maxPoints isAuto gradedBy feedback)
      (w, tx :: txs)
      (Closes (fun grade w' => Recorded w'.db tx.guc submission points grade) txs)
      fun _ _ => True := by
  unfold recordGrade
  refine .bind (requireTenantId_ends (fun _ _ => trivial) fun tid _ => ?_)
  refine .bind_ok (runM_now _ _) ?_
  unfold getBySubmission
  have hlookup := @runM_repoFind env rc w.tick tx txs .grades fun g =>
    decide (g.submissionId = submission.id)
  rcases hscalar : scalar ((scopeRows rc w.tick tx .grades).filter fun g =>
    decide (g.submissionId = submission.id)) with e | existing
  · rw [hscalar] at hlookup
    exact .bind (.of_error hlookup trivial)
  rw [hscalar] at hlookup
  refine .bind_ok hlookup ?_
  unfold saveGrade
  cases existing with
  | none =>
    -- a new row waits while the submission is marked, and is inserted by the flush
    refine .bind (.bind_ok (runM_uuid4 _ _) (.bind_ok (runM_add _ _ _ _ _) (.ret ?_)))
    refine .bind (rewrite_ends (fun oldSub htarget _ => ?_) (fun _ => trivial)
      fun _ _ _ _ => trivial)
    let grade : Grade :=
      { id := w.nextUuid, tenantId := tid, submissionId := submission.id,
        assignmentId := submission.assignmentId, userId := submission.userId, points := points,
        maxPoints := maxPoints, feedback := feedback, isAuto := isAuto, gradedBy := gradedBy,
        gradedAt := env.clock w.ticks }
    refine .bind (@flush_one_ends env _ (tx.push (.update .submissions [submission.id]
      { oldSub with status := .graded })) txs ⟨.grades, grade⟩ _ _ hp (fun hinsert => ?_)
      fun _ _ => trivial)
    refine .bind (publish_ends fun w' hlog _ => .ret (.intro hp ?_))
    exact recorded_new hkeys hw hsub rfl hlog htarget hinsert
  | some existing =>
    refine .bind (.bind (rewrite_ends (fun old htarget hupdate => .ret ?_) (fun _ => trivial)
      fun _ _ _ _ => trivial))
    refine .bind (rewrite_ends (fun oldSub htargetSub _ => ?_) (fun _ => trivial)
      fun _ _ _ _ => trivial)
    refine .bind_ok (Quiet.runM_flush_nil _ _ _ hp) ?_
    refine .bind (publish_ends fun w' hlog _ => .ret (.intro hp ?_))
    obtain ⟨hscope, hof⟩ := List.mem_filter.mp
      (scalar_eq_some hscalar ▸ List.mem_singleton_self existing)
    have hexisting : existing ∈ w.db .grades :=
      ((mem_seen hw).mp (mem_scopeRows.mp hscope).1).1
    exact recorded_again hkeys hw hsub hexisting (of_decide_eq_true hof) htarget
      (f := fun g => { g with
        points := points
        feedback := feedback <|> existing.feedback
        isAuto := isAuto
        gradedBy := gradedBy
        gradedAt := env.clock w.ticks })
      (fun _ => ⟨rfl, rfl⟩) (updateError_none hupdate).1 hlog htargetSub

/-- A grade that a teacher gives is recorded for a submission that the session sees. -/
theorem gradeSubmission_ends {submissionId graderId : Uuid} {data : GradeRequest}
    (hkeys : GradeKeys w.db) (hw : tx.writes = []) (hp : tx.pending = []) :
    Ends env (gradeSubmission env rc s submissionId data graderId) (w, tx :: txs)
      (Closes (fun grade w' => ∃ submission ∈ scopeRows rc w tx .submissions,
        Recorded w'.db tx.guc submission data.points grade) txs) fun _ _ => True := by
  unfold gradeSubmission
  refine .bind_ok (runM_repoSelect _ _) ?_
  refine .bind_ok (show runM env (loadSubmissions _) (w, tx :: txs) = (.ok _, (w, tx :: txs))
    from rfl) ?_
  have hscalar := @runM_scalarOneOrNone env _ (((scopeRows rc w tx .submissions).filter fun r =>
    r.id = submissionId).map fun r => (r, ((seen w tx .grades).filter fun g =>
      ((scopeRows rc w tx .submissions).filter fun r => r.id = submissionId).any fun r =>
        r.id = g.submissionId).find? fun g => g.submissionId = r.id)) (w, tx :: txs)
  rcases hfound : scalar (((scopeRows rc w tx .submissions).filter fun r =>
    r.id = submissionId).map fun r => (r, ((seen w tx .grades).filter fun g =>
      ((scopeRows rc w tx .submissions).filter fun r => r.id = submissionId).any fun r =>
        r.id = g.submissionId).find? fun g => g.submissionId = r.id)) with e | found
  · rw [hfound] at hscalar
    exact .bind (.of_error hscalar trivial)
  rw [hfound] at hscalar
  refine .bind_ok hscalar ?_
  cases found with
  | none => exact .raise trivial
  | some found =>
    obtain ⟨submission, hmem, rfl⟩ := List.mem_map.mp
      (scalar_eq_some hfound ▸ List.mem_singleton_self found)
    have hscope := (List.mem_filter.mp hmem).1
    refine .bind (quiet_ends Quiet.getAssignmentOr404 (fun a w₁ hstill _ => ?_)
      fun _ _ _ => trivial)
    split
    · exact .raise trivial
    · have hsub : submission ∈ w.db .submissions := ((mem_seen hw).mp (mem_scopeRows.mp hscope).1).1
      rw [← hstill.db] at hkeys hsub
      exact (recordGrade_ends hkeys hw hp hsub).mono (fun grade s' hcloses =>
        hcloses.imp fun w₂ h => h.imp fun tx' h => ⟨h.1, h.2.1, submission, hscope, h.2.2⟩)
        fun _ _ _ => trivial

/-! ## Reading grades -/

/-- The ways to read grades. -/
inductive GradeRead
  | mine (userId : Uuid) (params : PageParams)
  | ofAssignment (assignmentId : Uuid)

/-- The grades in the answer: those of `list_grades`, or of the submissions that
`list_submissions_for_assignment` returns. -/
def GradeRead.run (env : Env) (rc : RequestContext) : GradeRead → M (List GradeOut)
  | mine userId params => do
    let r ← listGrades env rc userId params
    return r.1.map .ofGrade
  | ofAssignment assignmentId => do
    let rows ← listSubmissionsForAssignment env rc assignmentId
    return rows.filterMap fun r => (SubmissionOut.ofSubmission r.1 r.2).grade

/-- As long as the table keeps the grades, whoever reads the grade, and however, gets the points
of the answer. -/
def PointsAgree (env : Env) (w : World) (answer : GradeOut) : Prop :=
  ∀ w', w'.db .grades = w.db .grades → ∀ (read : GradeRead) rc guc grades s',
    runM env (read.run env rc) (w', [⟨guc, [], []⟩]) = (.ok grades, s') →
    ∀ g ∈ grades, g.id = answer.id → g.points = answer.points

/-- The submissions of an assignment, in some order, and the grades loaded with them. -/
theorem runM_listSubmissions (hlaw : env.Lawful) (assignmentId : Uuid) :
    ∃ (rows : List Submission) (s' : State), rows.Perm ((scopeRows rc w tx .submissions).filter fun r =>
        r.assignmentId = assignmentId) ∧
      runM env (listSubmissionsForAssignment env rc assignmentId) (w, tx :: txs) =
        (.ok (rows.map fun r => (r, ((seen w tx .grades).filter fun g =>
          rows.any fun r => r.id = g.submissionId).find? fun g => g.submissionId = r.id)), s') := by
  refine ⟨orderBy env (fun r : Submission => .number r.submittedAt) true (arranged env w.draws
    ((scopeRows rc w tx .submissions).filter fun r => r.assignmentId = assignmentId)),
    ({ w with draws := w.draws + 1 }, tx :: txs),
    (orderBy_perm _ _ _).trans (arranged_perm hlaw _ _), ?_⟩
  unfold listSubmissionsForAssignment
  rw [runM_bind_ok (runM_repoSelect _ _)]
  rfl

/-- What is read is in the table. -/
theorem gradeRead_mem (hlaw : env.Lawful) {read : GradeRead} {grades : List GradeOut} {s' : State}
    (hw : tx.writes = []) (h : runM env (read.run env rc) (w, tx :: txs) = (.ok grades, s')) :
    ∀ g ∈ grades, ∃ row ∈ w.db .grades, g = GradeOut.ofGrade row := by
  cases read with
  | mine userId params =>
    obtain ⟨r, s₁, hlist, hret⟩ := Prog.run_bind_eq_ok h
    cases hret
    obtain ⟨s₂, hrun⟩ := @runM_listing env rc w tx txs (.grades userId params) _ rfl params.page
    rw [show Prog.run (exec env) (listGrades env rc userId params) _ = _ from hrun] at hlist
    obtain ⟨-, rfl⟩ := sent_ok (congrArg Prod.fst hlist)
    intro g hg
    obtain ⟨row, hrow, rfl⟩ := List.mem_map.mp hg
    have hmatching := ((orderBy_perm _ _ _).trans (arranged_perm hlaw _ _)).mem_iff.mp
      (mem_of_mem_paginate hrow)
    have hscope := (List.mem_filter.mp hmatching).1
    exact ⟨row, ((mem_seen hw).mp (mem_scopeRows.mp hscope).1).1, rfl⟩
  | ofAssignment assignmentId =>
    obtain ⟨r, s₁, hlist, hret⟩ := Prog.run_bind_eq_ok h
    cases hret
    obtain ⟨rows, s₂, -, hrun⟩ := @runM_listSubmissions env rc w tx txs hlaw assignmentId
    rw [show Prog.run (exec env) _ _ = _ from hrun] at hlist
    cases hlist
    intro g hg
    obtain ⟨x, hx, hgrade⟩ := List.mem_filterMap.mp hg
    obtain ⟨r, -, rfl⟩ := List.mem_map.mp hx
    obtain ⟨row, hrow, rfl⟩ := Option.map_eq_some_iff.mp hgrade
    have hseen := (List.mem_filter.mp (List.mem_of_find?_eq_some hrow)).1
    exact ⟨row, ((mem_seen hw).mp hseen).1, rfl⟩

/-- The teacher who gave the grade reads it among the submissions of the assignment. -/
theorem gradeRead_own (hlaw : env.Lawful) {submission : Submission} {points : Rat} {grade : Grade}
    (hsub : submission ∈ scopeRows rc w tx .submissions) {guc : Guc} (hguc : guc = tx.guc)
    (h : Recorded w'.db guc submission points grade) :
    ∃ grades s', runM env (GradeRead.run env rc (.ofAssignment submission.assignmentId))
      (w', [⟨guc, [], []⟩]) = (.ok grades, s') ∧ ∃ g ∈ grades, g.id = grade.id ∧
        g.points = roundNumeric 2 points := by
  subst hguc
  obtain ⟨rows, s', hperm, hrun⟩ :=
    @runM_listSubmissions env rc w' ⟨tx.guc, [], []⟩ [] hlaw submission.assignmentId
  refine ⟨_, s', runM_bind_ok hrun, ?_⟩
  -- the submission is among the rows, with the status changed
  have hmem : { submission with status := .graded } ∈ rows := by
    refine hperm.mem_iff.mpr (List.mem_filter.mpr ⟨mem_scopeRows.mpr ⟨?_, ?_⟩, decide_eq_true rfl⟩)
    · refine (mem_seen rfl).mpr ⟨h.graded, ?_⟩
      exact (mem_visible.mp (mem_scopeRows.mp hsub).1).2
    · exact (mem_scopeRows.mp hsub).2
  obtain ⟨row, hrow, hid, hpolicy⟩ := h.stored.row
  have hof : row.submissionId = submission.id := (h.stored.only row hrow hid).2.trans h.submissionId
  have hsome : (((seen w' ⟨tx.guc, [], []⟩ .grades).filter fun g =>
      rows.any fun r => r.id = g.submissionId).find? fun g =>
        g.submissionId = submission.id).isSome := by
    refine List.find?_isSome.mpr ⟨row, List.mem_filter.mpr ⟨(mem_seen rfl).mpr ⟨hrow, hpolicy⟩, ?_⟩,
      decide_eq_true hof⟩
    exact List.any_eq_true.mpr ⟨_, hmem, decide_eq_true hof.symm⟩
  obtain ⟨found, hfound⟩ := Option.isSome_iff_exists.mp hsome
  have hcond := List.find?_some hfound
  have hfoundOf : found.submissionId = submission.id := of_decide_eq_true hcond
  have hfoundRow := ((mem_seen rfl).mp
    (List.mem_filter.mp (List.mem_of_find?_eq_some hfound)).1).1
  have hfoundId := h.stored.single found hfoundRow (hfoundOf.trans h.submissionId.symm)
  refine ⟨GradeOut.ofGrade found, List.mem_filterMap.mpr ⟨_, List.mem_map.mpr ⟨_, hmem, rfl⟩, ?_⟩,
    hfoundId, (h.stored.only found hfoundRow hfoundId).1⟩
  exact congrArg (Option.map GradeOut.ofGrade) hfound

/-- A grade that was given is recorded when the request is over. -/
theorem gradeSubmission_recorded (hkeys : GradeKeys w.db) {submissionId graderId : Uuid}
    {data : GradeRequest} {grade : Grade} {s' : State}
    (hrun : runM env (getDb env (some bound) fun s =>
      gradeSubmission env rc s submissionId data graderId) (w, []) = (.ok grade, s')) :
    ∃ submission ∈ scopeRows rc w.tick (boundTx env bound.tenantId bound.isSuperadmin) .submissions,
      Recorded s'.1.db (boundTx env bound.tenantId bound.isSuperadmin).guc submission data.points
        grade := by
  have hends := @getDb_ends env w bound Grade
    (fun s => gradeSubmission env rc s submissionId data graderId)
    (fun grade w' => ∃ submission ∈ scopeRows rc w.tick
      (boundTx env bound.tenantId bound.isSuperadmin) .submissions, Recorded w'.db
        (boundTx env bound.tenantId bound.isSuperadmin).guc submission data.points grade)
    (fun _ _ => True) (gradeSubmission_ends (w := w.tick) hkeys rfl rfl)
  exact hends.ok hrun

/-- A grade whose points are not those of the table is read with other points. -/
theorem Recorded.not_agree (hlaw : env.Lawful) {submission : Submission} {points : Rat}
    {grade : Grade} (hsub : submission ∈ scopeRows rc w tx .submissions)
    (h : Recorded w'.db tx.guc submission points grade) (hround : roundNumeric 2 points ≠ points) :
    ¬ PointsAgree env w' (GradeOut.ofGrade grade) := by
  intro hagree
  obtain ⟨grades, s', hread, g, hg, hid, hrounded⟩ := gradeRead_own hlaw hsub rfl h
  refine hround (hrounded.symm.trans ((hagree w' rfl _ rc _ grades s' hread g hg hid).trans ?_))
  exact h.answered

/-- **Points of the answer and of the table**: whoever reads a grade that was just given gets
the points of the answer exactly if these have at most two decimals. -/
theorem points_agree_iff (hlaw : env.Lawful) (hkeys : GradeKeys w.db) {submissionId graderId : Uuid}
    {data : GradeRequest} {grade : Grade} {s' : State}
    (hrun : runM env (getDb env (some bound) fun s =>
      gradeSubmission env rc s submissionId data graderId) (w, []) = (.ok grade, s')) :
    PointsAgree env s'.1 (GradeOut.ofGrade grade) ↔ TwoDecimals data.points := by
  obtain ⟨submission, hsub, hrecorded⟩ := gradeSubmission_recorded hkeys hrun
  rw [← roundNumeric_eq_iff]
  constructor
  · intro hagree
    by_contra hround
    exact hrecorded.not_agree hlaw hsub hround hagree
  · intro hround w' hgrades read rc' guc grades s₁ hread g hg hid
    obtain ⟨row, hrow, rfl⟩ := gradeRead_mem hlaw rfl hread g hg
    rw [hgrades] at hrow
    refine (hrecorded.stored.only row hrow hid).1.trans (hround.trans ?_)
    exact hrecorded.answered.symm

/-! ## A submission to be graded -/

namespace Grading

/-- A tenant with an assignment of a hundred points and a submission. -/
def tables : Database Row
  | .tenants => [{ id := 1, name := "A", slug := "a" }]
  | .assignments => [Quizzes.assignment 100]
  | .submissions => [Quizzes.submission]
  | _ => []

def world : World := World.fresh 100 tables

theorem world_keys : GradeKeys world.db where
  ids := fun _ hg => by cases hg
  single := fun _ hg => by cases hg
  submissions := by decide

/-- A teacher grades the submission. -/
def give (points : Rat) : M Grade :=
  getDb (Env.reference {}) (some Quizzes.context) fun s =>
    gradeSubmission (Env.reference {}) Quizzes.context s 10 { points := points } 4

end Grading

theorem points_agree_half : ∃ grade s',
    runM (Env.reference {}) (Grading.give (85 / 2)) (Grading.world, []) = (.ok grade, s') ∧
      (PointsAgree (Env.reference {}) s'.1 (GradeOut.ofGrade grade) ↔ TwoDecimals (85 / 2)) := by
  have hok : (runM (Env.reference {}) (Grading.give (85 / 2)) (Grading.world, [])).1.isOk := by
    decide +kernel
  rcases hrun : runM (Env.reference {}) (Grading.give (85 / 2)) (Grading.world, []) with ⟨r, s'⟩
  rw [hrun] at hok
  cases r with
  | error e => cases hok
  | ok grade =>
    exact ⟨grade, s', rfl, points_agree_iff (reference_lawful {}) Grading.world_keys hrun⟩

/-- A third of the points is answered with, and 33.33 is read. -/
theorem points_third : ∃ grade s',
    runM (Env.reference {}) (Grading.give 33.333) (Grading.world, []) = (.ok grade, s') ∧
      ¬ PointsAgree (Env.reference {}) s'.1 (GradeOut.ofGrade grade) := by
  have hok : (runM (Env.reference {}) (Grading.give 33.333) (Grading.world, [])).1.isOk := by
    decide +kernel
  rcases hrun : runM (Env.reference {}) (Grading.give 33.333) (Grading.world, []) with ⟨r, s'⟩
  rw [hrun] at hok
  cases r with
  | error e => cases hok
  | ok grade =>
    obtain ⟨submission, hsub, hrecorded⟩ := gradeSubmission_recorded Grading.world_keys hrun
    refine ⟨grade, s', rfl, hrecorded.not_agree (reference_lawful {}) hsub ?_⟩
    show roundNumeric 2 33.333 ≠ 33.333
    decide +kernel

end LmsBackend
