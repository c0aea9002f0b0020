import LmsBackend.Lib.Mvcc
import LmsBackend.Core.Models

/-!
# Constraints and policies

The `Mvcc.Schema` of the application's database, read off the table definitions
and the row-level security migration.

- `policy`: `tenant_id = NULLIF(current_setting('app.tenant_id', true), '')::uuid
  OR current_setting('app.bypass_rls', true) = 'on'` on the 19 tables, no
  restriction on the others. An unset or empty `app.tenant_id` equals nothing.
- `columnError`: the column types (`VARCHAR(n)`, `INTEGER`, `NUMERIC(p, s)`).
- `uniqueError`, `referenceError`: primary keys, unique constraints and foreign
  keys. They look at every row, whatever the policy.
-/

namespace LmsBackend

open Mvcc

/-- The database errors a statement can fail with. -/
inductive DbError
  | uniqueViolation (constraint : String)
  | foreignKeyViolation (constraint : String)
  | valueTooLong (column : String)
  | outOfRange (column : String)
  | notNullViolation (column : String)
  | insufficientPrivilege
  | noTransaction
  | invalidInput (message : String)
  deriving DecidableEq

/-- The transaction-local settings `app.tenant_id` and `app.bypass_rls`. -/
structure Guc where
  tenantId : Option Uuid := none
  bypassRls : Bool := false
  deriving DecidableEq

/-- The policy `tenant_isolation`. -/
def policy (g : Guc) (t : Table) (r : Row t) : Bool :=
  if t ∈ rlsTables then
    (g.tenantId.isSome && decide (tenantOf t r = g.tenantId)) || g.bypassRls
  else true

/-! ## Column types -/

/-- `VARCHAR(n)`. -/
def varchar (n : Nat) (column : String) (value : String) : Option DbError :=
  if n < value.length then some (.valueTooLong column) else none

/-- A nullable `VARCHAR(n)`. -/
def varchar? (n : Nat) (column : String) : Option String → Option DbError
  | some value => varchar n column value
  | none => none

/-- `INTEGER`. -/
def integer (column : String) (value : Int) : Option DbError :=
  if -2147483648 ≤ value ∧ value ≤ 2147483647 then none else some (.outOfRange column)

/-- The value `NUMERIC(_, scale)` stores: rounded half away from zero. -/
def roundNumeric (scale : Nat) (q : Rat) : Rat :=
  let k : Rat := (10 ^ scale : Nat)
  if 0 ≤ q then ((q * k + 1 / 2).floor : Rat) / k else -(((-q * k + 1 / 2).floor : Rat) / k)

/-- `NUMERIC(precision, scale)`, on a rounded value. -/
def numeric (precision scale : Nat) (column : String) (q : Rat) : Option DbError :=
  if -((10 ^ (precision - scale) : Nat) : Rat) < q ∧ q < ((10 ^ (precision - scale) : Nat) : Rat)
  then none else some (.outOfRange column)

/-- The first error of a list of checks. -/
def firstError (checks : List (Option DbError)) : Option DbError := checks.findSome? id

/-- The values the columns store. -/
def coerce : (t : Table) → Row t → Row t
  | .courses, r => { r with price := roundNumeric 2 r.price }
  | .assignments, r =>
    { r with maxPoints := roundNumeric 2 r.maxPoints, passPoints := roundNumeric 2 r.passPoints }
  | .grades, r =>
    { r with points := roundNumeric 2 r.points, maxPoints := roundNumeric 2 r.maxPoints }
  | .quizQuestions, r => { r with points := roundNumeric 2 r.points }
  | _, r => r

/-- The column whose type does not admit the row's value, if any. -/
def columnError : (t : Table) → Row t → Option DbError
  | .tenants, r => firstError [varchar 200 "name" r.name, varchar 80 "slug" r.slug]
  | .users, r => firstError
    [varchar 255 "email" r.email, varchar 255 "hashed_password" r.hashedPassword,
      varchar 200 "full_name" r.fullName]
  | .userSessions, r => firstError
    [varchar? 400 "user_agent" r.userAgent, varchar? 64 "ip_address" r.ipAddress]
  | .courses, r => firstError
    [varchar 200 "title" r.title, varchar 220 "slug" r.slug, varchar? 500 "summary" r.summary,
      numeric 10 2 "price" r.price, varchar? 500 "thumbnail_url" r.thumbnailUrl,
      integer "enrollment_count" r.enrollmentCount]
  | .courseEnrollments, r => integer "progress_pct" r.progressPct
  | .lessons, r => firstError
    [varchar 200 "title" r.title, integer "order_index" r.orderIndex,
      integer "duration_seconds" r.durationSeconds]
  | .lessonProgress, r => integer "last_position_seconds" r.lastPositionSeconds
  | .assignments, r => firstError
    [varchar 200 "title" r.title, numeric 6 2 "max_points" r.maxPoints,
      numeric 6 2 "pass_points" r.passPoints]
  | .submissions, r => varchar? 1000 "file_url" r.fileUrl
  | .grades, r => firstError
    [numeric 6 2 "points" r.points, numeric 6 2 "max_points" r.maxPoints]
  | .auditLogs, r => firstError
    [varchar 100 "action" r.action, varchar 100 "resource" r.resource,
      varchar? 64 "ip_address" r.ipAddress]
  | _, _ => none

/-! ## Uniqueness and references -/

/-- A row with these key values exists already. -/
def taken (constraint : String) (hit : Bool) : Option DbError :=
  if hit then some (.uniqueViolation constraint) else none

/-- The referenced row exists. -/
def references (constraint : String) (found : Bool) : Option DbError :=
  if found then none else some (.foreignKeyViolation constraint)

/-- The unique constraint that a new row would violate, primary key first. -/
def uniqueError (db : Database Row) (t : Table) (r : Row t) : Option DbError :=
  firstError [taken "pk" ((db t).any fun r' => decide (keyOf t r' = keyOf t r)),
    match t, r with
    | .tenants, r => taken "ix_tenants_slug" ((db .tenants).any fun r' => decide (r'.slug = r.slug))
    | .modules, r => taken "ix_modules_code" ((db .modules).any fun r' => decide (r'.code = r.code))
    | .tenantModules, r => taken "uq_tenant_modules_tenant_module" ((db .tenantModules).any fun r' =>
        decide (r'.tenantId = r.tenantId) && decide (r'.moduleId = r.moduleId))
    | .permissions, r =>
      taken "ix_permissions_code" ((db .permissions).any fun r' => decide (r'.code = r.code))
    | .users, r => taken "uq_users_tenant_email" ((db .users).any fun r' =>
        decide (r'.tenantId = r.tenantId) && decide (r'.email = r.email))
    | .roles, r => taken "uq_roles_tenant_code" ((db .roles).any fun r' =>
        decide (r'.tenantId = r.tenantId) && decide (r'.code = r.code))
    | .userSessions, r =>
      taken "ix_user_sessions_jti" ((db .userSessions).any fun r' => decide (r'.jti = r.jti))
    | .categories, r => taken "uq_categories_tenant_slug" ((db .categories).any fun r' =>
        decide (r'.tenantId = r.tenantId) && decide (r'.slug = r.slug))
    | .courses, r => taken "uq_courses_tenant_slug" ((db .courses).any fun r' =>
        decide (r'.tenantId = r.tenantId) && decide (r'.slug = r.slug))
    | .courseEnrollments, r =>
      taken "uq_enrollments_course_user" ((db .courseEnrollments).any fun r' =>
        decide (r'.courseId = r.courseId) && decide (r'.userId = r.userId))
    | .lessonProgress, r =>
      taken "uq_lesson_progress_lesson_user" ((db .lessonProgress).any fun r' =>
        decide (r'.lessonId = r.lessonId) && decide (r'.userId = r.userId))
    | .grades, r =>
      taken "uq_grades_submission_id" ((db .grades).any fun r' =>
        decide (r'.submissionId = r.submissionId))
    | _, _ => none]

/-- The foreign key that a new row would violate. -/
def referenceError (db : Database Row) (t : Table) (r : Row t) : Option DbError :=
  let row (t' : Table) (id : Uuid) : Bool := (db t').any fun r' => decide (keyOf t' r' = [id])
  firstError [
    match tenantOf t r with
    | some tid => references "fk_tenant_id_tenants" (row .tenants tid)
    | none => none,
    match t, r with
    | .tenantModules, r => firstError
      [references "fk_tenant_modules_tenant_id_tenants" (row .tenants r.tenantId),
        references "fk_tenant_modules_module_id_modules" (row .modules r.moduleId)]
    | .userRoles, r => firstError
      [references "fk_user_roles_user_id_users" (row .users r.userId),
        references "fk_user_roles_role_id_roles" (row .roles r.roleId)]
    | .rolePermissions, r => firstError
      [references "fk_role_permissions_role_id_roles" (row .roles r.roleId),
        references "fk_role_permissions_permission_id_permissions"
          (row .permissions r.permissionId)]
    | .userSessions, r => references "fk_user_sessions_user_id_users" (row .users r.userId)
    | .courses, r =>
      match r.categoryId with
      | some c => references "fk_courses_category_id_categories" (row .categories c)
      | none => none
    | .courseEnrollments, r => firstError
      [references "fk_course_enrollments_course_id_courses" (row .courses r.courseId),
        references "fk_course_enrollments_user_id_users" (row .users r.userId)]
    | .lessons, r => references "fk_lessons_course_id_courses" (row .courses r.courseId)
    | .lessonProgress, r => firstError
      [references "fk_lesson_progress_lesson_id_lessons" (row .lessons r.lessonId),
        references "fk_lesson_progress_course_id_courses" (row .courses r.courseId),
        references "fk_lesson_progress_user_id_users" (row .users r.userId)]
    | .assignments, r => references "fk_assignments_course_id_courses" (row .courses r.courseId)
    | .submissions, r => firstError
      [references "fk_submissions_assignment_id_assignments" (row .assignments r.assignmentId),
        references "fk_submissions_user_id_users" (row .users r.userId)]
    | .grades, r => firstError
      [references "fk_grades_submission_id_submissions" (row .submissions r.submissionId),
        references "fk_grades_assignment_id_assignments" (row .assignments r.assignmentId)]
    | _, _ => none]

/-- Foreign keys are rechecked on the columns an update changes; the only such
column the application updates is `courses.category_id`. -/
def changedReferenceError (db : Database Row) : (t : Table) → Row t → Row t → Option DbError
  | .courses, old, new =>
    match new.categoryId with
    | some c =>
      if old.categoryId = some c then none
      else references "fk_courses_category_id_categories"
        ((db .categories).any fun r => decide (r.id = c))
    | none => none
  | _, _, _ => none

/-- The application's database. -/
def schema : Schema Row (List Uuid) Guc DbError where
  key := keyOf
  guc₀ := {}
  policy := policy
  coerce := coerce
  checkInsert db t r := firstError [columnError t r, uniqueError db t r, referenceError db t r]
  checkUpdate db t old new := firstError [columnError t new, changedReferenceError db t old new]
  policyError := .insufficientPrivilege
  noTransaction := .noTransaction

/-! ## Reading the policy -/

/-- Without bypass, the rows a policy admits belong to the tenant that is set. -/
theorem policy_tenant {g : Guc} {t : Table} {r : Row t} (hrls : t ∈ rlsTables)
    (hb : g.bypassRls = false) (h : policy g t r = true) :
    ∃ tid, g.tenantId = some tid ∧ tenantOf t r = some tid := by
  rw [policy, if_pos hrls, hb, Bool.or_false, Bool.and_eq_true, decide_eq_true_iff] at h
  obtain ⟨tid, htid⟩ := Option.isSome_iff_exists.mp h.1
  exact ⟨tid, htid, h.2.trans htid⟩

/-- With a tenant set, the policy admits that tenant's rows. -/
theorem policy_of_tenant {g : Guc} {t : Table} {r : Row t} {tid : Uuid}
    (hg : g.tenantId = some tid) (h : tenantOf t r = some tid) : policy g t r = true := by
  unfold policy
  split
  · simp [hg, h]
  · rfl

theorem firstError_eq_none {checks : List (Option DbError)} :
    firstError checks = none ↔ ∀ c ∈ checks, c = none := by
  simp [firstError, List.findSome?_eq_none_iff]

theorem integer_eq_none {column : String} {value : Int} :
    integer column value = none ↔ -2147483648 ≤ value ∧ value ≤ 2147483647 := by
  unfold integer
  split
  · simpa
  · rename_i hout
    simpa using fun hlow => not_le.mp fun hhigh => hout ⟨hlow, hhigh⟩

theorem varchar_eq_none {n : Nat} {column value : String} :
    varchar n column value = none ↔ value.length ≤ n := by
  unfold varchar
  split
  · rename_i hlong
    simpa using hlong
  · rename_i hshort
    simpa using hshort

/-- The columns of a course that have a limit. -/
theorem columnError_courses {c : Course} : columnError .courses c = none ↔
    varchar 200 "title" c.title = none ∧ varchar 220 "slug" c.slug = none ∧
      varchar? 500 "summary" c.summary = none ∧ numeric 10 2 "price" c.price = none ∧
      varchar? 500 "thumbnail_url" c.thumbnailUrl = none ∧
      integer "enrollment_count" c.enrollmentCount = none := by
  simp [columnError, firstError_eq_none]

/-- A course that keeps its category may be updated if its columns fit. -/
theorem checkUpdate_course {db : Database Row} {old new : Course}
    (h : new.categoryId = old.categoryId) :
    schema.checkUpdate db .courses old new = none ↔ columnError .courses new = none := by
  have hreference : changedReferenceError db .courses old new = none := by
    simp only [changedReferenceError, h]
    cases old.categoryId with
    | none => rfl
    | some c => exact if_pos rfl
  show firstError [columnError .courses new, changedReferenceError db .courses old new] = none ↔ _
  rw [hreference, firstError_eq_none]
  simp

/-- What a row that may be inserted satisfies. -/
theorem checkInsert_eq_none {db : Database Row} {t : Table} {r : Row t} :
    schema.checkInsert db t r = none ↔
      columnError t r = none ∧ uniqueError db t r = none ∧ referenceError db t r = none := by
  simp [schema, firstError_eq_none]

theorem references_eq_none {constraint : String} {found : Bool} :
    references constraint found = none ↔ found = true := by
  cases found <;> simp [references]

theorem taken_eq_none {constraint : String} {hit : Bool} :
    taken constraint hit = none ↔ hit = false := by
  cases hit <;> simp [taken]

section Constraints

-- the lemmas below unfold the constraints at one table each
attribute [local simp] keyOf tenantOf uniqueError referenceError firstError_eq_none taken_eq_none
  references_eq_none

/-- A session row refers to its tenant and its user. -/
theorem referenceError_userSessions {db : Database Row} {r : UserSession} :
    referenceError db .userSessions r = none ↔
      (∃ t ∈ db .tenants, t.id = r.tenantId) ∧ ∃ u ∈ db .users, u.id = r.userId := by
  simp

/-- An account refers to its tenant. -/
theorem referenceError_users {db : Database Row} {r : User} :
    referenceError db .users r = none ↔ ∃ t ∈ db .tenants, t.id = r.tenantId := by
  simp

/-- A granted role refers to the account and the role. -/
theorem referenceError_userRoles {db : Database Row} {r : UserRole} :
    referenceError db .userRoles r = none ↔
      (∃ u ∈ db .users, u.id = r.userId) ∧ ∃ role ∈ db .roles, role.id = r.roleId := by
  simp

/-- A course refers to its tenant and its category. -/
theorem referenceError_courses {db : Database Row} {r : Course} :
    referenceError db .courses r = none ↔ (∃ t ∈ db .tenants, t.id = r.tenantId) ∧
      ∀ c, r.categoryId = some c → ∃ r' ∈ db .categories, r'.id = c := by
  rcases hc : r.categoryId with _ | c <;>
    simp [hc]

/-- An enrolment refers to its tenant, its course and its user. -/
theorem referenceError_courseEnrollments {db : Database Row} {r : CourseEnrollment} :
    referenceError db .courseEnrollments r = none ↔ (∃ t ∈ db .tenants, t.id = r.tenantId) ∧
      (∃ c ∈ db .courses, c.id = r.courseId) ∧ ∃ u ∈ db .users, u.id = r.userId := by
  simp

/-- A progress row refers to its tenant, its lesson, the lesson's course and its user. -/
theorem referenceError_lessonProgress {db : Database Row} {r : LessonProgress} :
    referenceError db .lessonProgress r = none ↔ (∃ t ∈ db .tenants, t.id = r.tenantId) ∧
      (∃ x ∈ db .lessons, x.id = r.lessonId) ∧ (∃ c ∈ db .courses, c.id = r.courseId) ∧
      ∃ u ∈ db .users, u.id = r.userId := by
  simp

/-- A new row has a key of its own. -/
theorem fresh_key {db : Database Row} {t : Table} {r : Row t} (h : uniqueError db t r = none) :
    ∀ r' ∈ db t, keyOf t r' ≠ keyOf t r := by
  have hkey := firstError_eq_none.mp h _ List.mem_cons_self
  rw [taken_eq_none, List.any_eq_false] at hkey
  exact fun r' hr' heq => hkey r' hr' (decide_eq_true heq)

/-- An account has an identifier of its own, and within its tenant an address of its own. -/
theorem uniqueError_users {db : Database Row} {r : User} :
    uniqueError db .users r = none ↔ (∀ r' ∈ db .users, r'.id ≠ r.id) ∧
      ∀ r' ∈ db .users, r'.tenantId = r.tenantId → r'.email ≠ r.email := by
  simp

/-- A course has an identifier of its own, and within its tenant a slug of its own. -/
theorem uniqueError_courses {db : Database Row} {r : Course} :
    uniqueError db .courses r = none ↔ (∀ r' ∈ db .courses, r'.id ≠ r.id) ∧
      ∀ r' ∈ db .courses, r'.tenantId = r.tenantId → r'.slug ≠ r.slug := by
  simp

/-- A user has one enrolment in a course. -/
theorem uniqueError_courseEnrollments {db : Database Row} {r : CourseEnrollment} :
    uniqueError db .courseEnrollments r = none ↔ (∀ r' ∈ db .courseEnrollments, r'.id ≠ r.id) ∧
      ∀ r' ∈ db .courseEnrollments, r'.courseId = r.courseId → r'.userId ≠ r.userId := by
  simp

/-- A user has one progress row of a lesson. -/
theorem uniqueError_lessonProgress {db : Database Row} {r : LessonProgress} :
    uniqueError db .lessonProgress r = none ↔ (∀ r' ∈ db .lessonProgress, r'.id ≠ r.id) ∧
      ∀ r' ∈ db .lessonProgress, r'.lessonId = r.lessonId → r'.userId ≠ r.userId := by
  simp

/-- A submission has one grade. -/
theorem uniqueError_grades {db : Database Row} {r : Grade} :
    uniqueError db .grades r = none ↔
      ∀ r' ∈ db .grades, r'.id ≠ r.id ∧ r'.submissionId ≠ r.submissionId := by
  simp [forall_and]

/-- An assignment refers to its tenant and its course. -/
theorem referenceError_assignments {db : Database Row} {r : Assignment} :
    referenceError db .assignments r = none ↔
      (∃ t ∈ db .tenants, t.id = r.tenantId) ∧ ∃ c ∈ db .courses, c.id = r.courseId := by
  simp

/-- An assignment has an identifier of its own. -/
theorem uniqueError_assignments {db : Database Row} {r : Assignment} :
    uniqueError db .assignments r = none ↔ ∀ r' ∈ db .assignments, r'.id ≠ r.id := by
  simp

/-- A session row has an identifier and a token identifier of its own. -/
theorem uniqueError_userSessions {db : Database Row} {r : UserSession} :
    uniqueError db .userSessions r = none ↔
      ∀ r' ∈ db .userSessions, r'.id ≠ r.id ∧ r'.jti ≠ r.jti := by
  simp [forall_and]

end Constraints

end LmsBackend
