import LmsBackend.Core.Session

/-!
# Dashboard

`app.modules.dashboard`: the read side that aggregates other modules' tables.
Its queries carry no tenant condition of their own.
-/

namespace LmsBackend

variable (env : Env)

/-- `ActivityItem`. -/
structure ActivityItem where
  action : String
  resource : String
  resourceId : Option Uuid
  createdAt : Time
  deriving DecidableEq

/-- `DashboardOut`. -/
structure DashboardOut where
  enrolledCourses : Nat
  completedLessons : Nat
  pendingAssignments : Nat
  submissions : Nat
  recentActivity : List ActivityItem
  deriving DecidableEq

/-- The `where` clause of the pending count: published, not deleted, in a course
the user is actively enrolled in, and no submission of the user. -/
def isPending (userId : Uuid) (db : Mvcc.Database Row) (a : Assignment) : Bool :=
  a.isPublished && a.deletedAt.isNone &&
  ((db .courseEnrollments).any fun e =>
    decide (e.userId = userId) && decide (e.status = .active) && decide (e.courseId = a.courseId)) &&
  !(db .submissions).any fun s => decide (s.assignmentId = a.id) && decide (s.userId = userId)

/-- `DashboardService.for_user`. -/
def dashboard (userId : Uuid) : M DashboardOut := do
  let enrolled ← count .courseEnrollments fun e => e.userId = userId && e.status ≠ .cancelled
  let completedLessons ← count .lessonProgress fun p =>
    p.userId = userId && p.status = .completed
  let submissions ← count .submissions fun s => s.userId = userId
  let pending ← sql (.select .assignments (isPending userId))
  let rows ← queryAll env .auditLogs fun a => a.userId = some userId
  let rows := (orderBy env (fun a : AuditLog => .number a.createdAt) true rows).take 10
  return { enrolledCourses := enrolled, completedLessons, pendingAssignments := pending.length,
           submissions,
           recentActivity := rows.map fun a => ⟨a.action, a.resource, a.resourceId, a.createdAt⟩ }

end LmsBackend
