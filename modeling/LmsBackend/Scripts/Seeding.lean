import LmsBackend.Modules.Admin
import LmsBackend.Scripts.Seed

/-!
# The seed script

`scripts.seed`, on a database in any state: each of its functions looks for what it is about
to create, and creates or corrects it.

- `Account`, `accounts`: the users of each tenant.
- `seedModules`, `seedPermissions`, `seedTenant`, `seedUser`, `seedContent`.
- `main`: the whole script, one unit of work that bypasses row-level security.
-/

namespace LmsBackend

namespace Seeding

open Seed

variable (env : Env)

/-! ## Catalogues -/

/-- A module of the catalogue that is not among the existing ones. -/
def addModule (existing : List Module) (code : ModuleCode) : M Unit :=
  if existing.any fun m => m.code = code.value then pure ()
  else do
    add .modules
      { id := ← uuid4, code := code.value, name := code.catalogName,
        isCore := decide (code ∈ coreModuleCodes) }

/-- `seed_modules`. -/
def seedModules : M Unit := do
  let existing ← query .modules fun _ => true
  Prog.forEach allModuleCodes (addModule existing)
  flush

/-- The loop of `seed_permissions`, with the permissions known so far. -/
def addPermissions : List Permission → List String → M (List Permission)
  | existing, [] => return existing
  | existing, code :: codes =>
    if existing.any fun p => p.code = code then addPermissions existing codes
    else do
      let p : Permission := { id := ← uuid4, code }
      add .permissions p
      addPermissions (existing ++ [p]) codes

/-- `seed_permissions`. -/
def seedPermissions : M (List Permission) := do
  let perms ← addPermissions (← query .permissions fun _ => true) allPermissions
  flush
  return perms

/-! ## Tenants -/

/-- The tenant with the slug. -/
def seedTenantRow (seed : TenantSeed) : M Tenant := do
  match ← scalarOneOrNone (← query .tenants fun t => t.slug = seed.slug) with
  | some tenant => return tenant
  | none =>
    let tenant : Tenant := { id := ← uuid4, name := seed.name, slug := seed.slug }
    add .tenants tenant
    flush
    return tenant

/-- A role of the tenant as it was loaded, or a new one, and the permissions it is to have. -/
def seedRole (perms : List Permission) (tenantId : Uuid) (rc : RoleCode) :
    M (LoadedRole × List Permission) := do
  let granted := (roleMatrix rc).filterMap fun c => perms.find? fun p => p.code = c
  match ← scalarOneOrNone (← loadRoles (← query .roles fun r =>
      r.tenantId = tenantId && r.code = rc.value)) with
  | some role => return (role, granted)
  | none =>
    let role : Role := { id := ← uuid4, tenantId, code := rc.value, name := roleName rc }
    add .roles role
    return (⟨role, []⟩, granted)

/-- Write a changed `permissions` collection: the rows of `role_permissions` that went, then
those that came. -/
def grantPermissions (entry : LoadedRole × List Permission) : M Unit := do
  let role := entry.1
  let granted := entry.2
  let gone := role.permissions.filter fun p => granted.all fun p' => p'.id ≠ p.id
  let new := granted.filter fun p => role.permissions.all fun p' => p'.id ≠ p.id
  Prog.forEach gone fun p => deleteRow .rolePermissions [role.role.id, p.id]
  Prog.forEach new fun p =>
    insertRow ⟨.rolePermissions, (⟨role.role.id, p.id⟩ : RolePermission)⟩

/-- A user to seed. -/
structure Account where
  email : String
  fullName : String
  role : RoleCode
  password : String
  isSuperuser : Bool := false
  deriving DecidableEq

/-- The users of a tenant. -/
def accounts (slug : String) : List Account :=
  [⟨"admin@" ++ slug ++ ".com", "Tenant Admin", .tenantAdmin, "Admin123!", false⟩,
    ⟨"instructor@" ++ slug ++ ".com", "Jane Instructor", .instructor, "Teach123!", false⟩,
    ⟨"student@" ++ slug ++ ".com", "Sam Student", .student, "Learn123!", false⟩] ++
  if slug = "full-lms" then
    [⟨"root@platform.com", "Platform Root", .superAdmin, "Root123!", true⟩]
  else []

/-- A user of the tenant as it was loaded, or a new one. -/
def userEntry (s : Session) (tenantId : Uuid) (a : Account) : M LoadedUser := do
  match ← scalarOneOrNone (← loadUsers (← query .users fun u =>
      u.tenantId = tenantId && u.email = a.email)) with
  | some user => return user
  | none => do
    let hashedPassword ← hashPassword env a.password
    let user : User :=
      { id := ← uuid4, tenantId, email := a.email, hashedPassword, fullName := a.fullName,
        isActive := true, isVerified := true, isSuperuser := a.isSuperuser,
        createdAt := s.startedAt, updatedAt := s.startedAt }
    add .users user
    return ⟨user, []⟩

/-- `_seed_user`. -/
def seedUser (s : Session) (tenantId : Uuid) (a : Account) (role : LoadedRole) : M Unit := do
  let user ← userEntry env s tenantId a
  flush
  assignRoles user [role]

/-- What belongs to each role. -/
def byCode {α : Type} (superAdmin tenantAdmin instructor student : α) : RoleCode → α
  | .superAdmin => superAdmin
  | .tenantAdmin => tenantAdmin
  | .instructor => instructor
  | .student => student

/-- The roles of `seed_tenant`, by their codes. -/
def roleEntries (perms : List Permission) (tenantId : Uuid) :
    M (RoleCode → LoadedRole × List Permission) := do
  let superAdmin ← seedRole perms tenantId .superAdmin
  let tenantAdmin ← seedRole perms tenantId .tenantAdmin
  let instructor ← seedRole perms tenantId .instructor
  let student ← seedRole perms tenantId .student
  return byCode superAdmin tenantAdmin instructor student

/-- The roles of `seed_tenant`, flushed with their permissions. -/
def seedRoles (perms : List Permission) (tenantId : Uuid) : M (RoleCode → LoadedRole) := do
  let roles ← roleEntries perms tenantId
  flush
  Prog.forEach RoleCode.all fun rc => grantPermissions (roles rc)
  return fun rc => (roles rc).1

/-- `seed_tenant`. -/
def seedTenant (s : Session) (perms : List Permission) (seed : TenantSeed) : M Tenant := do
  let tenant ← seedTenantRow seed
  Prog.forEach seed.modules fun code => setLicense env s tenant.id code true
  let roles ← seedRoles perms tenant.id
  Prog.forEach (accounts seed.slug) fun a => seedUser env s tenant.id a (roles a.role)
  return tenant

/-- `seed_tenant`, for one tenant after the other. -/
def seedTenants (s : Session) (perms : List Permission) : List TenantSeed → M (List Tenant)
  | [] => return []
  | seed :: seeds => do
    let tenant ← seedTenant env s perms seed
    return tenant :: (← seedTenants s perms seeds)

/-! ## Content -/

/-- The quiz of `seed_content`. -/
def seedQuiz (s : Session) (tenantId courseId : Uuid) : M Unit := do
  let assignment ← uuid4
  repoAdd .assignments
    { id := assignment, tenantId, courseId, title := "Python Basics Quiz",
      description := some "Check your understanding.", type := .quiz, maxPoints := 10,
      passPoints := 6, isPublished := true, createdAt := s.startedAt, updatedAt := s.startedAt }
  let quiz ← uuid4
  repoAdd .quizzes { id := quiz, tenantId, assignmentId := assignment }
  let question ← uuid4
  repoAdd .quizQuestions
    { id := question, tenantId, quizId := quiz,
      text := "What keyword defines a function in Python?", points := 10 }
  add .quizAnswers
    { id := ← uuid4, tenantId, questionId := question, text := "def", isCorrect := true }
  add .quizAnswers
    { id := ← uuid4, tenantId, questionId := question, text := "func", isCorrect := false }
  add .quizAnswers
    { id := ← uuid4, tenantId, questionId := question, text := "lambda", isCorrect := false }

/-- `seed_content`. -/
def seedContent (s : Session) (tenant : Tenant) : M Unit := do
  let courses ← query .courses fun c => c.tenantId = tenant.id
  if courses ≠ [] then pure ()
  else do
    let tenantId := tenant.id
    let category ← uuid4
    repoAdd .categories
      { id := category, tenantId, name := "Programming", slug := "programming", parentId := none }
    let publishedAt ← now
    let course ← uuid4
    repoAdd .courses
      { id := course, tenantId, title := "Python for Beginners", slug := "python-for-beginners",
        summary := some "Learn Python from scratch.",
        description := some "A complete introduction to Python programming.",
        categoryId := some category, status := .published, isFree := true, thumbnailUrl := none,
        publishedAt := some publishedAt, createdAt := s.startedAt, updatedAt := s.startedAt }
    let module ← uuid4
    repoAdd .courseModules
      { id := module, tenantId, courseId := course, title := "Getting Started", orderIndex := 0 }
    add .lessons
      { id := ← uuid4, tenantId, courseId := course, moduleId := some module, title := "Welcome",
        contentType := .text, content := some "Welcome to the course!", orderIndex := 0,
        isPreview := true }
    add .lessons
      { id := ← uuid4, tenantId, courseId := course, moduleId := some module,
        title := "Installing Python", contentType := .video, content := none, orderIndex := 1,
        durationSeconds := 600 }
    flush
    if tenant.slug = "full-lms" then seedQuiz s tenantId course else pure ()
    flush

/-- `main`. -/
def main : M Unit :=
  tenantSession env none true fun s => do
    seedModules
    let perms ← seedPermissions
    let seeded ← seedTenants env s perms tenants
    Prog.forEach seeded (seedContent s)

end Seeding

end LmsBackend
