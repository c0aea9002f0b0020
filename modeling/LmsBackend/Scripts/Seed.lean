import LmsBackend.Core.Licensing

/-!
# The seeded database

What `scripts.seed` leaves in a database that has just been migrated, where each of its
lookups finds nothing. Hashes, the instant and the first identifier are parameters.

- `RoleCode`, `roleMatrix`: the system roles and their permissions.
- `Script`: the tables so far and the next identifier.
- `main`, `database`, `world`.
-/

namespace LmsBackend

open Mvcc

/-- `app.modules.auth.permissions.RoleCode`. -/
inductive RoleCode | superAdmin | tenantAdmin | instructor | student
  deriving DecidableEq

/-- `RoleCode.value`. -/
def RoleCode.value : RoleCode → String
  | .superAdmin => "super_admin"
  | .tenantAdmin => "tenant_admin"
  | .instructor => "instructor"
  | .student => "student"

/-- `list(RoleCode)`. -/
def RoleCode.all : List RoleCode := [.superAdmin, .tenantAdmin, .instructor, .student]

namespace Seed

/-! ## Permissions and roles -/

def authPermissions : List String :=
  ["user:read", "user:create", "user:update", "user:delete", "role:read", "role:assign",
    "tenant:read", "tenant:manage"]

def coursePermissions : List String :=
  ["course:read", "course:create", "course:update", "course:delete", "course:enroll",
    "category:manage"]

def learnPermissions : List String :=
  ["lesson:read", "lesson:create", "lesson:update", "lesson:delete", "progress:read"]

def assignPermissions : List String :=
  ["assignment:read", "assignment:create", "assignment:update", "assignment:delete",
    "assignment:submit", "grade:read", "grade:write"]

def adminPermissions : List String := ["report:read", "admin:access"]

/-- `ALL_PERMISSIONS`, without the descriptions. -/
def allPermissions : List String :=
  authPermissions ++ coursePermissions ++ learnPermissions ++ assignPermissions ++ adminPermissions

/-- `ROLE_MATRIX`. -/
def roleMatrix : RoleCode → List String
  | .superAdmin => allPermissions
  | .tenantAdmin => allPermissions.filter (· ≠ "tenant:manage")
  | .instructor =>
    ["course:read", "course:create", "course:update", "lesson:read", "lesson:create",
      "lesson:update", "lesson:delete", "assignment:read", "assignment:create",
      "assignment:update", "grade:read", "grade:write", "progress:read", "report:read",
      "admin:access", "user:read"]
  | .student =>
    ["course:read", "course:enroll", "lesson:read", "progress:read", "assignment:read",
      "assignment:submit", "grade:read"]

/-- `ROLE_NAMES`. -/
def roleName : RoleCode → String
  | .superAdmin => "Super Admin"
  | .tenantAdmin => "Tenant Admin"
  | .instructor => "Instructor"
  | .student => "Student"

/-- A tenant to seed: slug, name and licensed modules. -/
structure TenantSeed where
  slug : String
  name : String
  modules : List ModuleCode

/-- `TENANTS`. -/
def tenants : List TenantSeed :=
  [⟨"abc-academy", "ABC Academy", [.auth, .courses, .learning, .admin]⟩,
    ⟨"full-lms", "Full LMS Inc", allModuleCodes⟩]

/-! ## The script -/

/-- The tables so far and the next identifier. -/
abbrev Script := StateM (Database Row × Uuid)

/-- A new row with the next identifier. -/
def save (t : Table) (row : Uuid → Row t) : Script Uuid :=
  modifyGet fun (db, id) => (id, Function.update db t (db t ++ [row id]), id + 1)

/-- A row without an identifier of its own. -/
def link (t : Table) (row : Row t) : Script Unit :=
  modify fun (db, id) => (Function.update db t (db t ++ [row]), id)

variable (hash : String → String) (now : Time)

/-- `seed_modules`. -/
def seedModules : Script (List (ModuleCode × Uuid)) :=
  allModuleCodes.mapM fun code => do
    let id ← save .modules fun id =>
      { id, code := code.value, name := code.catalogName, isCore := decide (code ∈ coreModuleCodes) }
    return (code, id)

/-- `seed_permissions`. -/
def seedPermissions : Script (List (String × Uuid)) :=
  allPermissions.mapM fun code => do
    let id ← save .permissions fun id => { id, code }
    return (code, id)

/-- A role of `seed_tenant`, with its permissions. -/
def seedRole (perms : List (String × Uuid)) (tenantId : Uuid) (rc : RoleCode) : Script Uuid := do
  let role ← save .roles fun id => { id, tenantId, code := rc.value, name := roleName rc }
  (perms.filter fun p => p.1 ∈ roleMatrix rc).forM fun p => link .rolePermissions ⟨role, p.2⟩
  return role

/-- `_seed_user`. -/
def seedUser (tenantId : Uuid) (email fullName : String) (role : Uuid) (password : String)
    (isSuperuser : Bool) : Script Unit := do
  let user ← save .users fun id =>
    { id, tenantId, email, hashedPassword := hash password, fullName, isVerified := true,
      isSuperuser, createdAt := now, updatedAt := now }
  link .userRoles ⟨user, role⟩

/-- `seed_tenant`. -/
def seedTenant (modules : List (ModuleCode × Uuid)) (perms : List (String × Uuid))
    (seed : TenantSeed) : Script Uuid := do
  let tenant ← save .tenants fun id => { id, name := seed.name, slug := seed.slug }
  (modules.filter fun m => m.1 ∈ seed.modules).forM fun m => do
    let _ ← save .tenantModules fun id =>
      { id, tenantId := tenant, moduleId := m.2, enabledAt := some now }
  let superAdmin ← seedRole perms tenant .superAdmin
  let tenantAdmin ← seedRole perms tenant .tenantAdmin
  let instructor ← seedRole perms tenant .instructor
  let student ← seedRole perms tenant .student
  let domain := seed.slug ++ ".com"
  seedUser hash now tenant ("admin@" ++ domain) "Tenant Admin" tenantAdmin "Admin123!" false
  seedUser hash now tenant ("instructor@" ++ domain) "Jane Instructor" instructor "Teach123!" false
  seedUser hash now tenant ("student@" ++ domain) "Sam Student" student "Learn123!" false
  if seed.slug = "full-lms" then
    seedUser hash now tenant "root@platform.com" "Platform Root" superAdmin "Root123!" true
  return tenant

/-- The quiz of `seed_content`. -/
def seedQuiz (tenantId courseId : Uuid) : Script Unit := do
  let assignment ← save .assignments fun id =>
    { id, tenantId, courseId, title := "Python Basics Quiz",
      description := some "Check your understanding.", type := .quiz, maxPoints := 10,
      passPoints := 6, isPublished := true, createdAt := now, updatedAt := now }
  let quiz ← save .quizzes fun id => { id, tenantId, assignmentId := assignment }
  let question ← save .quizQuestions fun id =>
    { id, tenantId, quizId := quiz, text := "What keyword defines a function in Python?",
      points := 10 }
  [("def", true), ("func", false), ("lambda", false)].forM fun answer => do
    let _ ← save .quizAnswers fun id =>
      { id, tenantId, questionId := question, text := answer.1, isCorrect := answer.2 }

/-- `seed_content`. -/
def seedContent (seed : TenantSeed) (tenantId : Uuid) : Script Unit := do
  let category ← save .categories fun id =>
    { id, tenantId, name := "Programming", slug := "programming", parentId := none }
  let course ← save .courses fun id =>
    { id, tenantId, title := "Python for Beginners", slug := "python-for-beginners",
      summary := some "Learn Python from scratch.",
      description := some "A complete introduction to Python programming.",
      categoryId := some category, status := .published, thumbnailUrl := none,
      publishedAt := some now, createdAt := now, updatedAt := now }
  let module ← save .courseModules fun id =>
    { id, tenantId, courseId := course, title := "Getting Started" }
  let _ ← save .lessons fun id =>
    { id, tenantId, courseId := course, moduleId := some module, title := "Welcome",
      content := some "Welcome to the course!", isPreview := true }
  let _ ← save .lessons fun id =>
    { id, tenantId, courseId := course, moduleId := some module, title := "Installing Python",
      contentType := .video, content := none, orderIndex := 1, durationSeconds := 600 }
  if seed.slug = "full-lms" then seedQuiz now tenantId course

/-- `main`. -/
def main : Script Unit := do
  let modules ← seedModules
  let perms ← seedPermissions
  let seeded ← tenants.mapM fun seed => do
    let id ← seedTenant hash now modules perms seed
    return (seed, id)
  seeded.forM fun x => seedContent now x.1 x.2

/-- The tables after the script, and the next identifier. -/
def database (first : Uuid) : Database Row × Uuid :=
  ((main hash now).run (fun _ => [], first)).2

end Seed

end LmsBackend
