import LmsBackend.Content.Visibility
import LmsBackend.Effects.Exchanges

/-!
# What the modules read, and for whom

- The lookups of the modules are quiet.
- `CallerIs`: whose request a request is.
- `serve_user_ok`: an answer to a user's request is that of the user's handler.
- `runM_dashboard`: the dashboard as a function of the rows that are seen.
-/

namespace LmsBackend

open Mvcc

variable {env : Env} {rc : RequestContext} {w w' w'' : World} {α : Type}

/-! ## Lookups of the modules -/

namespace Quiet

theorem repoFind {t : Table} {p : Row t → Bool} : Quiet env (repoFind rc t p) :=
  query.bind fun _ => scalarOneOrNone

theorem repoGetOr404 {t : Table} {id : Uuid} : Quiet env (repoGetOr404 rc t id) := by
  refine repoFind.bind fun r => ?_
  cases r with
  | some r => exact pure _
  | none => exact raise _

theorem arrange {rows : List α} : Quiet env (arrange env rows) := draw.bind fun _ => pure _

theorem queryAll {t : Table} {p : Row t → Bool} : Quiet env (queryAll env t p) :=
  query.bind fun _ => arrange

theorem getCourse {courseId : Uuid} {publishedOnly : Bool} :
    Quiet env (getCourse rc courseId publishedOnly) := by
  refine repoGetOr404.bind fun course => ?_
  split
  · exact raise _
  · exact pure _

theorem getForUserCourse {userId courseId : Uuid} :
    Quiet env (getForUserCourse rc userId courseId) :=
  query.bind fun _ => query.bind fun _ => scalarOneOrNone

theorem loadLessons {lessons : List Lesson} : Quiet env (loadLessons lessons) :=
  query.bind fun _ => query.bind fun _ => pure _

theorem loadAssignments {assignments : List Assignment} :
    Quiet env (loadAssignments env assignments) :=
  query.bind fun _ => queryAll.bind fun _ => queryAll.bind fun _ => pure _

theorem getAssignmentOr404 {id : Uuid} : Quiet env (getAssignmentOr404 env rc id) := by
  refine query.bind fun _ => loadAssignments.bind fun _ => scalarOneOrNone.bind fun a => ?_
  cases a with
  | some a => exact pure _
  | none => exact raise _

theorem loadSubmissions {submissions : List Submission} :
    Quiet env (loadSubmissions submissions) := query.bind fun _ => pure _

theorem hashPassword {plain : String} : Quiet env (hashPassword env plain) :=
  draw.bind fun _ => pure _

theorem getRolesByCodes {codes : List String} : Quiet env (getRolesByCodes rc codes) :=
  query.bind fun _ => join.bind fun _ => pure _

theorem getUserOr404 {id : Uuid} : Quiet env (getUserOr404 rc id) := by
  refine findUser.bind fun u => ?_
  cases u with
  | some u => exact pure _
  | none => exact raise _

theorem parseDueAt {dueAt : Option String} : Quiet env (parseDueAt dueAt) := by
  unfold LmsBackend.parseDueAt
  split
  · exact pure _
  · split
    · exact pure _
    · exact raise _

theorem encodeDueAt {t : Option IsoFormat.DateTime} : Quiet env (encodeDueAt env t) := by
  unfold LmsBackend.encodeDueAt
  split
  · exact pure _
  · split
    · exact pure _
    · exact raise _

end Quiet

/-! ## The caller of a request -/

/-- Whoever the guards find to be the request's caller satisfies `φ`. -/
def CallerIs (env : Env) (w : World) (req : Request) (φ : Uuid → Prop) : Prop :=
  ∀ rc c s w', Admitted env w req rc (some c) s w' → φ c.user.user.id

theorem Endpoint.routed_of_user {e : Endpoint} (h : e.user = true) : e.routed := by
  cases e <;> trivial

/-- An answer to a request of a user. -/
theorem serve_user_ok {req : Request} {body : Body} (huser : req.endpoint.user = true)
    (hadmin : req.endpoint.isTenantAdmin = false) (h : serve env w req = (.ok body, w'')) :
    ∃ rc c s w' s', Admitted env w req rc (some c) s w' ∧
      runM env (userHandler env (rc.enrich c) s c.user req.endpoint) (w', [requestTx env rc]) =
        (.ok body, s') ∧ w'' = (runM env commitSession s').2.1 := by
  obtain ⟨rc, caller, s, w', s', hadmitted, hrun, hw⟩ :=
    serve_ok (Endpoint.routed_of_user huser) h
  obtain ⟨c, rfl⟩ := hadmitted.some_caller huser
  refine ⟨rc, c, s, w', s', hadmitted, ?_, hw⟩
  have hhandler : handler env rc s req (some c) =
      userHandler env (rc.enrich c) s c.user req.endpoint := if_neg (by simp [hadmin])
  rw [← hhandler]
  exact hrun

/-- A request that is answered. -/
theorem serve_answered {req : Request} (h : (serve env w req).1.toOption.isSome = true) :
    ∃ body w', serve env w req = (.ok body, w') := by
  rcases hserve : serve env w req with ⟨r, w'⟩
  rw [hserve] at h
  cases r with
  | ok body => exact ⟨body, w', rfl⟩
  | error e => cases h

/-! ## The dashboard -/

/-- `ActivityItem` of a row of the log. -/
def activityOf (r : AuditLog) : ActivityItem := ⟨r.action, r.resource, r.resourceId, r.createdAt⟩

/-- What the dashboard shows of these rows, for an order of the database. -/
def dashboardOf (env : Env) (userId : Uuid) (seed : Nat) (db : Database Row) : DashboardOut where
  enrolledCourses := ((db .courseEnrollments).filter fun e =>
    e.userId = userId && e.status ≠ .cancelled).length
  completedLessons := ((db .lessonProgress).filter fun p =>
    p.userId = userId && p.status = .completed).length
  pendingAssignments := ((db .assignments).filter (isPending userId db)).length
  submissions := ((db .submissions).filter fun s => s.userId = userId).length
  recentActivity := ((orderBy env (fun a : AuditLog => .number a.createdAt) true
    (arranged env seed ((db .auditLogs).filter fun a => a.userId = some userId))).take 10).map
      activityOf

/-- The dashboard always returns. -/
theorem runM_dashboard (userId : Uuid) (tx : Tx) (txs : List Tx) :
    runM env (dashboard env userId) (w, tx :: txs) =
      (.ok (dashboardOf env userId w.draws (seen w tx)), ({ w with draws := w.draws + 1 }, tx :: txs)) :=
  rfl

/-- An entry that is shown stands in the log and names the user. -/
theorem mem_recentActivity {userId : Uuid} {seed : Nat} {db : Database Row} {item : ActivityItem}
    (h : item ∈ (dashboardOf env userId seed db).recentActivity) :
    ∃ r ∈ db .auditLogs, r.userId = some userId ∧ item = activityOf r := by
  obtain ⟨r, hr, rfl⟩ := List.mem_map.mp h
  have hr := (orderBy_perm _ _ _).mem_iff.mp (List.mem_of_mem_take hr)
  obtain ⟨i, -, hi⟩ := List.mem_filterMap.mp hr
  obtain ⟨hmem, huser⟩ := List.mem_filter.mp (List.mem_of_getElem? hi)
  exact ⟨r, hmem, of_decide_eq_true huser, rfl⟩

end LmsBackend
