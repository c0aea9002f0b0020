import LmsBackend.Core.Text

/-!
# The rows of the database

One structure per table, field by field as the models declare them. Timestamps
maintained by the database (`created_at`, `updated_at`) are kept only where a
query reads them.

- `Table`: the 25 tables, and `Row t` the type of their rows.
- `rlsTables`: the 19 tables that migration `0002` puts under row-level security.
- `tenantOf`, `deletedAtOf`: the columns contributed by `TenantMixin` and
  `SoftDeleteMixin`, where a model has them.
-/

namespace LmsBackend

/-! ## Platform tables -/

structure Tenant where
  id : Uuid
  name : String
  slug : String
  isActive : Bool := true
  deletedAt : Option Time := none
  deriving DecidableEq

/-- The licensing catalogue. -/
structure Module where
  id : Uuid
  code : String
  name : String
  isActive : Bool := true
  isCore : Bool := false
  deriving DecidableEq

/-- Per-tenant enable flag. Control-plane data, not under row-level security. -/
structure TenantModule where
  id : Uuid
  tenantId : Uuid
  moduleId : Uuid
  enabled : Bool := true
  enabledAt : Option Time := none
  expiresAt : Option Time := none
  deriving DecidableEq

/-- The global permission catalogue. -/
structure Permission where
  id : Uuid
  code : String
  deriving DecidableEq

structure UserRole where
  userId : Uuid
  roleId : Uuid
  deriving DecidableEq

structure RolePermission where
  roleId : Uuid
  permissionId : Uuid
  deriving DecidableEq

/-! ## Identity -/

structure Role where
  id : Uuid
  tenantId : Uuid
  code : String
  name : String
  deriving DecidableEq

structure User where
  id : Uuid
  tenantId : Uuid
  email : String
  hashedPassword : String
  fullName : String := ""
  isActive : Bool := true
  isVerified : Bool := false
  isSuperuser : Bool := false
  lastLoginAt : Option Time := none
  createdAt : Time
  updatedAt : Time
  deletedAt : Option Time := none
  deriving DecidableEq

/-- A role with the permissions that are loaded with it. -/
structure LoadedRole where
  role : Role
  permissions : List Permission
  deriving DecidableEq

/-- A user with the roles that are loaded with it. -/
structure LoadedUser where
  user : User
  roles : List LoadedRole
  deriving DecidableEq

/-- `User.permission_codes`, as a list that stands for the set. -/
def LoadedUser.permissionCodes (u : LoadedUser) : List String :=
  u.roles.flatMap fun r => r.permissions.map (·.code)

/-- `User.role_codes`. -/
def LoadedUser.roleCodes (u : LoadedUser) : List String := u.roles.map (·.role.code)

/-- One row per issued refresh token. Revocation sets `revokedAt`. -/
structure UserSession where
  id : Uuid
  tenantId : Uuid
  userId : Uuid
  jti : Uuid
  userAgent : Option String
  ipAddress : Option String
  expiresAt : Time
  revokedAt : Option Time := none
  deriving DecidableEq

/-- `UserSession.is_active`. -/
def UserSession.isActive (s : UserSession) : Bool := s.revokedAt.isNone

/-! ## Courses -/

inductive CourseStatus | draft | published | archived
  deriving DecidableEq

inductive CourseLevel | beginner | intermediate | advanced
  deriving DecidableEq

inductive EnrollmentStatus | active | completed | cancelled
  deriving DecidableEq

structure Category where
  id : Uuid
  tenantId : Uuid
  name : String
  slug : String
  parentId : Option Uuid
  deletedAt : Option Time := none
  deriving DecidableEq

structure Course where
  id : Uuid
  tenantId : Uuid
  title : String
  slug : String
  summary : Option String
  description : Option String
  categoryId : Option Uuid
  status : CourseStatus := .draft
  level : CourseLevel := .beginner
  isFree : Bool := true
  price : Rat := 0
  thumbnailUrl : Option String
  enrollmentCount : Int := 0
  publishedAt : Option Time := none
  createdAt : Time
  updatedAt : Time
  deletedAt : Option Time := none
  deriving DecidableEq

structure CourseInstructor where
  id : Uuid
  tenantId : Uuid
  courseId : Uuid
  userId : Uuid
  isLead : Bool := false
  deriving DecidableEq

structure CourseEnrollment where
  id : Uuid
  tenantId : Uuid
  courseId : Uuid
  userId : Uuid
  status : EnrollmentStatus := .active
  progressPct : Int := 0
  enrolledAt : Time
  completedAt : Option Time := none
  deriving DecidableEq

/-! ## Learning -/

inductive LessonType | video | document | text
  deriving DecidableEq

inductive ProgressStatus | notStarted | inProgress | completed
  deriving DecidableEq

/-- The curriculum section, not to be confused with the licensing `Module`. -/
structure CourseModule where
  id : Uuid
  tenantId : Uuid
  courseId : Uuid
  title : String
  orderIndex : Int := 0
  deletedAt : Option Time := none
  deriving DecidableEq

structure Lesson where
  id : Uuid
  tenantId : Uuid
  courseId : Uuid
  moduleId : Option Uuid
  title : String
  contentType : LessonType := .text
  content : Option String
  orderIndex : Int := 0
  durationSeconds : Int := 0
  isPreview : Bool := false
  deletedAt : Option Time := none
  deriving DecidableEq

structure VideoAsset where
  id : Uuid
  tenantId : Uuid
  lessonId : Uuid
  url : String
  hlsUrl : Option String
  durationSeconds : Int := 0
  deriving DecidableEq

structure DocumentAsset where
  id : Uuid
  tenantId : Uuid
  lessonId : Uuid
  fileUrl : String
  fileType : String := "pdf"
  sizeBytes : Int := 0
  deriving DecidableEq

structure LessonProgress where
  id : Uuid
  tenantId : Uuid
  lessonId : Uuid
  courseId : Uuid
  userId : Uuid
  status : ProgressStatus := .notStarted
  lastPositionSeconds : Int := 0
  completedAt : Option Time := none
  deriving DecidableEq

/-! ## Assignments -/

inductive AssignmentType | assignment | quiz
  deriving DecidableEq

inductive SubmissionStatus | submitted | graded | returned
  deriving DecidableEq

inductive QuestionType | single | multiple | boolean
  deriving DecidableEq

structure Assignment where
  id : Uuid
  tenantId : Uuid
  courseId : Uuid
  title : String
  description : Option String
  type : AssignmentType := .assignment
  maxPoints : Rat := 100
  passPoints : Rat := 50
  dueAt : Option Instant := none
  isPublished : Bool := false
  createdAt : Time
  updatedAt : Time
  deletedAt : Option Time := none
  deriving DecidableEq

structure Quiz where
  id : Uuid
  tenantId : Uuid
  assignmentId : Uuid
  timeLimitSeconds : Int := 0
  deriving DecidableEq

structure QuizQuestion where
  id : Uuid
  tenantId : Uuid
  quizId : Uuid
  text : String
  type : QuestionType := .single
  points : Rat := 1
  orderIndex : Int := 0
  deriving DecidableEq

structure QuizAnswer where
  id : Uuid
  tenantId : Uuid
  questionId : Uuid
  text : String
  isCorrect : Bool := false
  deriving DecidableEq

structure Submission where
  id : Uuid
  tenantId : Uuid
  assignmentId : Uuid
  userId : Uuid
  content : Option String
  fileUrl : Option String
  answers : Option (List (Uuid × List Uuid))
  status : SubmissionStatus := .submitted
  submittedAt : Time
  deriving DecidableEq

structure Grade where
  id : Uuid
  tenantId : Uuid
  submissionId : Uuid
  assignmentId : Uuid
  userId : Uuid
  points : Rat := 0
  maxPoints : Rat := 100
  feedback : Option String
  isAuto : Bool := false
  gradedBy : Option Uuid
  gradedAt : Time
  deriving DecidableEq

/-! ## Audit -/

/-- A value of the JSON columns of the audit log. -/
inductive Json
  | text (s : String)
  | bool (b : Bool)
  | number (q : Rat)
  | null
  deriving DecidableEq

structure AuditLog where
  id : Uuid
  tenantId : Uuid
  userId : Option Uuid
  action : String
  resource : String
  resourceId : Option Uuid
  oldValues : Option (List (String × Json))
  newValues : Option (List (String × Json))
  ipAddress : Option String
  createdAt : Time
  deriving DecidableEq

/-! ## Tables -/

inductive Table
  | tenants | modules | tenantModules | permissions | userRoles | rolePermissions
  | users | roles | userSessions | categories | courses | courseInstructors | courseEnrollments
  | courseModules | lessons | videoAssets | documentAssets | lessonProgress | assignments
  | quizzes | quizQuestions | quizAnswers | submissions | grades | auditLogs
  deriving DecidableEq

/-- The rows of a table. -/
@[reducible] def Row : Table → Type
  | .tenants => Tenant
  | .modules => Module
  | .tenantModules => TenantModule
  | .permissions => Permission
  | .userRoles => UserRole
  | .rolePermissions => RolePermission
  | .users => User
  | .roles => Role
  | .userSessions => UserSession
  | .categories => Category
  | .courses => Course
  | .courseInstructors => CourseInstructor
  | .courseEnrollments => CourseEnrollment
  | .courseModules => CourseModule
  | .lessons => Lesson
  | .videoAssets => VideoAsset
  | .documentAssets => DocumentAsset
  | .lessonProgress => LessonProgress
  | .assignments => Assignment
  | .quizzes => Quiz
  | .quizQuestions => QuizQuestion
  | .quizAnswers => QuizAnswer
  | .submissions => Submission
  | .grades => Grade
  | .auditLogs => AuditLog

/-- `RLS_TABLES` of the row-level security migration. -/
def rlsTables : List Table :=
  [.users, .roles, .userSessions, .categories, .courses, .courseInstructors, .courseEnrollments,
    .courseModules, .lessons, .videoAssets, .documentAssets, .lessonProgress, .assignments,
    .quizzes, .quizQuestions, .quizAnswers, .submissions, .grades, .auditLogs]

/-- The primary key of a row: its `id`, or both columns of an association table. -/
def keyOf : (t : Table) → Row t → List Uuid
  | .tenants, r => [r.id]
  | .modules, r => [r.id]
  | .tenantModules, r => [r.id]
  | .permissions, r => [r.id]
  | .userRoles, r => [r.userId, r.roleId]
  | .rolePermissions, r => [r.roleId, r.permissionId]
  | .users, r => [r.id]
  | .roles, r => [r.id]
  | .userSessions, r => [r.id]
  | .categories, r => [r.id]
  | .courses, r => [r.id]
  | .courseInstructors, r => [r.id]
  | .courseEnrollments, r => [r.id]
  | .courseModules, r => [r.id]
  | .lessons, r => [r.id]
  | .videoAssets, r => [r.id]
  | .documentAssets, r => [r.id]
  | .lessonProgress, r => [r.id]
  | .assignments, r => [r.id]
  | .quizzes, r => [r.id]
  | .quizQuestions, r => [r.id]
  | .quizAnswers, r => [r.id]
  | .submissions, r => [r.id]
  | .grades, r => [r.id]
  | .auditLogs, r => [r.id]

/-- `tenant_id` of a model with `TenantMixin`. -/
def tenantOf : (t : Table) → Row t → Option Uuid
  | .users, r => some r.tenantId
  | .roles, r => some r.tenantId
  | .userSessions, r => some r.tenantId
  | .categories, r => some r.tenantId
  | .courses, r => some r.tenantId
  | .courseInstructors, r => some r.tenantId
  | .courseEnrollments, r => some r.tenantId
  | .courseModules, r => some r.tenantId
  | .lessons, r => some r.tenantId
  | .videoAssets, r => some r.tenantId
  | .documentAssets, r => some r.tenantId
  | .lessonProgress, r => some r.tenantId
  | .assignments, r => some r.tenantId
  | .quizzes, r => some r.tenantId
  | .quizQuestions, r => some r.tenantId
  | .quizAnswers, r => some r.tenantId
  | .submissions, r => some r.tenantId
  | .grades, r => some r.tenantId
  | .auditLogs, r => some r.tenantId
  | .tenants, _ => none
  | .modules, _ => none
  | .tenantModules, _ => none
  | .permissions, _ => none
  | .userRoles, _ => none
  | .rolePermissions, _ => none

/-- `deleted_at` of a model with `SoftDeleteMixin`; `none` for the others too. -/
def deletedAtOf : (t : Table) → Row t → Option Time
  | .tenants, r => r.deletedAt
  | .users, r => r.deletedAt
  | .categories, r => r.deletedAt
  | .courses, r => r.deletedAt
  | .courseModules, r => r.deletedAt
  | .lessons, r => r.deletedAt
  | .assignments, r => r.deletedAt
  | _, _ => none

/-- `updated_at = now()`, which every `UPDATE` of the ORM adds. -/
def touch (now : Time) : (t : Table) → Row t → Row t
  | .users, r => { r with updatedAt := now }
  | .courses, r => { r with updatedAt := now }
  | .assignments, r => { r with updatedAt := now }
  | _, r => r

/-- Exactly the tables under row-level security have a `TenantMixin` column. -/
theorem tenantOf_isSome_iff (t : Table) (r : Row t) :
    (tenantOf t r).isSome = true ↔ t ∈ rlsTables := by
  cases t <;> simp [tenantOf, rlsTables]

end LmsBackend
