import LmsBackend.Core.Session

/-!
# Domain events and the audit log

`app.core.events` and `app.core.audit`. The one consumer that the application
registers is `audit_domain_event`, on the base class: every published event with
an audit descriptor and a tenant is written to the log, in a session of its own.
The bus swallows what its handlers raise.
-/

namespace LmsBackend

variable (env : Env)

/-- The events of the modules, each with the fields it adds to `DomainEvent`. -/
inductive EventKind
  | userRegistered (email : String)
  | userLoggedIn (email : String)
  | userUpdated (changes : List (String × Json))
  | courseCreated (courseId : Uuid) (title : String)
  | courseEnrolled (courseId enrollmentId : Uuid)
  | lessonCompleted (lessonId courseId : Uuid)
  | assignmentSubmitted (assignmentId submissionId : Uuid)
  | submissionGraded (submissionId : Uuid) (points : Rat) (isAuto : Bool)

/-- `DomainEvent`. -/
structure DomainEvent where
  tenantId : Option Uuid
  userId : Option Uuid
  kind : EventKind

/-- What `event.audit()` returns. -/
structure Descriptor where
  action : String
  resource : String
  resourceId : Option Uuid := none
  newValues : Option (List (String × Json)) := none

/-- `event.audit()`. -/
def DomainEvent.audit (e : DomainEvent) : Descriptor :=
  match e.kind with
  | .userRegistered email =>
    { action := "user.registered", resource := "user", resourceId := e.userId,
      newValues := some [("email", .text email)] }
  | .userLoggedIn _ =>
    { action := "auth.login", resource := "user", resourceId := e.userId }
  | .userUpdated changes =>
    { action := "user.updated", resource := "user", resourceId := e.userId,
      newValues := some changes }
  | .courseCreated courseId title =>
    { action := "course.created", resource := "course", resourceId := some courseId,
      newValues := some [("title", .text title)] }
  | .courseEnrolled courseId enrollmentId =>
    { action := "course.enrolled", resource := "enrollment", resourceId := some enrollmentId,
      newValues := some [("course_id", .text (uuidStr courseId))] }
  | .lessonCompleted lessonId courseId =>
    { action := "lesson.completed", resource := "lesson", resourceId := some lessonId,
      newValues := some [("course_id", .text (uuidStr courseId))] }
  | .assignmentSubmitted assignmentId submissionId =>
    { action := "assignment.submitted", resource := "submission",
      resourceId := some submissionId,
      newValues := some [("assignment_id", .text (uuidStr assignmentId))] }
  | .submissionGraded submissionId points isAuto =>
    { action := "submission.graded", resource := "submission", resourceId := some submissionId,
      newValues := some [("points", .number points), ("auto", .bool isAuto)] }

/-- `write_audit`, as the event consumer calls it. -/
def writeAudit (tenantId : Uuid) (userId : Option Uuid) (d : Descriptor) : M Unit :=
  tenantSession env (some tenantId) false fun s => do
    add .auditLogs
      { id := ← uuid4, tenantId, userId, action := d.action, resource := d.resource,
        resourceId := d.resourceId, oldValues := none, newValues := d.newValues,
        ipAddress := none, createdAt := s.startedAt }

/-- `audit_domain_event`. -/
def auditDomainEvent (e : DomainEvent) : M Unit :=
  match e.tenantId with
  | none => .ret ()
  | some tenantId => writeAudit env tenantId e.userId e.audit

/-- `event_bus.publish`. -/
def publish (e : DomainEvent) : M Unit := do
  let _ ← Prog.attempt (auditDomainEvent env e)
  return ()

end LmsBackend
