import LmsBackend.Core.Tenancy
import LmsBackend.Lib.IsoFormat
import LmsBackend.Modules.Assignments
import LmsBackend.Modules.Auth
import LmsBackend.Modules.Courses
import LmsBackend.Modules.Learning

/-!
# Administration

`app.modules.admin`: user management, content management for admins, the tenant
report, and the platform-level tenant and licensing administration, which runs
in sessions of its own that bypass row-level security.
-/

namespace LmsBackend

variable (env : Env)

/-! ## Schemas -/

/-- `AdminLessonCreate`. -/
structure AdminLessonCreate where
  title : String
  contentType : LessonType := .text
  content : Option String := none
  isPreview : Bool := false
  orderIndex : Int := 0

/-- `AdminAssignmentCreate`. -/
structure AdminAssignmentCreate where
  title : String
  description : Option String := none
  maxPoints : Rat := 100
  passPoints : Rat := 50
  dueAt : Option String := none
  isPublished : Bool := false

/-- `AdminUserCreate`. -/
structure AdminUserCreate where
  email : String
  password : String
  fullName : String := ""
  roleCodes : List String := []
  isActive : Bool := true

/-- `AdminUserUpdate`; role codes that are absent or null leave the roles alone. -/
structure AdminUserUpdate where
  fullName : Change String := none
  isActive : Change Bool := none
  roleCodes : Option (List String) := none

/-- `TenantCreate`. -/
structure TenantCreate where
  name : String
  slug : String
  modules : List ModuleCode := []
  adminEmail : String
  adminPassword : String

/-- `TenantOut`. -/
structure TenantOut where
  id : Uuid
  name : String
  slug : String
  isActive : Bool
  deriving DecidableEq

/-- `TenantOut.model_validate`. -/
def TenantOut.ofTenant (t : Tenant) : TenantOut := ⟨t.id, t.name, t.slug, t.isActive⟩

/-- `TenantModuleOut`. -/
structure TenantModuleOut where
  code : String
  name : String
  enabled : Bool
  deriving DecidableEq

/-- `ReportOut`. -/
structure ReportOut where
  users : Nat
  courses : Nat
  enrollments : Nat
  submissions : Nat
  activeModules : List String
  deriving DecidableEq

/-! ## Content -/

/-- `AdminLessonService.create_lesson`. -/
def createLesson (rc : RequestContext) (courseId : Uuid) (data : AdminLessonCreate) :
    M LoadedLesson := do
  let _ ← getCourse rc courseId false
  let tenantId ← requireTenantId rc
  let lesson : Lesson :=
    { id := ← uuid4, tenantId, courseId, moduleId := none, title := data.title,
      contentType := data.contentType, content := data.content, isPreview := data.isPreview,
      orderIndex := data.orderIndex, durationSeconds := 0 }
  repoAdd .lessons lesson
  return ⟨lesson, none, none⟩

/-- `text.replace("Z", "+00:00")`. -/
def replaceZ (text : String) : String :=
  String.ofList (text.toList.flatMap fun c => if c = 'Z' then "+00:00".toList else [c])

/-- The due date of a payload: nothing for an absent or empty text. -/
def parseDueAt (dueAt : Option String) : M (Option IsoFormat.DateTime) :=
  match truthy dueAt with
  | none => .ret none
  | some text =>
    match IsoFormat.parse (replaceZ text).toList with
    | some t => .ret (some t)
    | none => .raise (.unhandled (.valueError "Invalid isoformat string"))

/-- The instant that the driver sends for a `timestamptz`. -/
def encodeDueAt : Option IsoFormat.DateTime → M (Option Instant)
  | none => .ret none
  | some t =>
    match t.utc env.naiveInstant with
    | some instant => .ret (some instant)
    | none => .raise (.db (.invalidInput "due_at"))

/-- `AdminAssignmentService.create_assignment`. -/
def createAssignment (rc : RequestContext) (s : Session) (courseId : Uuid)
    (data : AdminAssignmentCreate) : M LoadedAssignment := do
  let _ ← getCourse rc courseId false
  let dueAt ← parseDueAt data.dueAt
  let tenantId ← requireTenantId rc
  let id ← uuid4
  let dueAt ← encodeDueAt env dueAt
  let assignment : Assignment :=
    { id, tenantId, courseId, title := data.title, description := data.description,
      type := .assignment, maxPoints := data.maxPoints, passPoints := data.passPoints, dueAt,
      isPublished := data.isPublished, createdAt := s.startedAt, updatedAt := s.startedAt }
  repoAdd .assignments assignment
  return ⟨assignment, none⟩

/-- The listing behind the admin assignments route: `AssignmentRepository.list` is
inherited, so of the filter only the paging applies. -/
def listAssignmentRows (rc : RequestContext) (f : AssignmentFilter) :
    M (List LoadedAssignment × Nat) := do
  let total ← count .assignments fun r => inScope rc .assignments r
  let rows ← arrange env (← repoSelect rc .assignments fun _ => true)
  sendPage f.toPageParams
  return (← loadAssignments env (paginate f.toPageParams rows), total)

/-! ## Users -/

/-- The `DELETE` of one row of an association table. -/
def deleteRow (t : Table) (key : List Uuid) : M Unit := do
  match ← sql (.delete t key) with
  | .ok 0 => .raise (.unhandled .staleData)
  | .ok _ => pure ()
  | .error e => .raise (.db e)

/-- Write a changed `roles` collection: the rows of `user_roles` that went, then
those that came. -/
def assignRoles (user : LoadedUser) (roles : List LoadedRole) : M Unit := do
  let gone := user.roles.filter fun r => roles.all fun r' => r'.role.id ≠ r.role.id
  let new := roles.filter fun r => user.roles.all fun r' => r'.role.id ≠ r.role.id
  Prog.forEach gone fun r => deleteRow .userRoles [user.user.id, r.role.id]
  Prog.forEach new fun r => insertRow ⟨.userRoles, (⟨user.user.id, r.role.id⟩ : UserRole)⟩

/-- The roles of a new user: none is asked for, or those with the codes. -/
def rolesOf (rc : RequestContext) (codes : List String) : M (List LoadedRole) :=
  if codes = [] then pure [] else getRolesByCodes rc codes

/-- `AdminUserService.create_user`. -/
def createUser (rc : RequestContext) (s : Session) (data : AdminUserCreate) : M LoadedUser := do
  let tenantId ← requireTenantId rc
  match ← getByEmail env rc (env.lower data.email) with
  | some _ => throwApp .conflict "Email already registered"
  | none =>
    let hashedPassword ← hashPassword env data.password
    let user : User :=
      { id := ← uuid4, tenantId, email := env.lower data.email, hashedPassword,
        fullName := data.fullName, isActive := data.isActive, createdAt := s.startedAt,
        updatedAt := s.startedAt }
    repoAdd .users user
    let roles ← rolesOf rc data.roleCodes
    assignRoles ⟨user, []⟩ roles
    publish env ⟨some tenantId, some user.id, .userRegistered user.email⟩
    return ⟨user, roles⟩

/-- `changes`, for the event: everything but the role codes. -/
def AdminUserUpdate.changes (d : AdminUserUpdate) : List (String × Json) :=
  (match d.fullName with
    | none => []
    | some none => [("full_name", .null)]
    | some (some v) => [("full_name", .text v)]) ++
  (match d.isActive with
    | none => []
    | some none => [("is_active", .null)]
    | some (some v) => [("is_active", .bool v)])

/-- The user's columns that the payload sets. -/
def AdminUserUpdate.apply (d : AdminUserUpdate) (u : User) : User :=
  { u with fullName := d.fullName.join.getD u.fullName
           isActive := d.isActive.join.getD u.isActive }

/-- The first `NOT NULL` column of `users` that is set to null. -/
def AdminUserUpdate.nullColumn (d : AdminUserUpdate) : Option String :=
  if d.fullName = some none then some "full_name"
  else if d.isActive = some none then some "is_active"
  else none

/-- The roles of an updated user: those with the codes, or the ones it has. -/
def newRoles (rc : RequestContext) (user : LoadedUser) : Option (List String) → M (List LoadedRole)
  | some codes => getRolesByCodes rc codes
  | none => pure user.roles

/-- The flush writes the user's columns that changed, if any. -/
def saveUser (s : Session) (user : User) (data : AdminUserUpdate) : M Unit :=
  if data.apply user = user then pure () else updateRow s .users user.id data.apply

/-- `AdminUserService.update_user`. -/
def updateUser (rc : RequestContext) (s : Session) (userId : Uuid) (data : AdminUserUpdate) :
    M LoadedUser := do
  let user ← getUserOr404 rc userId
  let roles ← newRoles rc user data.roleCodes
  match data.nullColumn with
  | some column => .raise (.db (.notNullViolation column))
  | none =>
    saveUser s user.user data
    assignRoles user roles
    let tenantId ← requireTenantId rc
    publish env ⟨some tenantId, some userId, .userUpdated data.changes⟩
    return ⟨data.apply user.user, roles⟩

/-! ## Report -/

/-- `ReportService.tenant_report`. The counts carry no condition. -/
def tenantReport (rc : RequestContext) : M ReportOut := do
  let tenantId ← requireTenantId rc
  let activeModules := sortedSet (← enabledCodes env tenantId)
  let users ← count .users fun _ => true
  let courses ← count .courses fun _ => true
  let enrollments ← count .courseEnrollments fun _ => true
  let submissions ← count .submissions fun _ => true
  return { users, courses, enrollments, submissions, activeModules }

/-! ## Tenants and licensing -/

/-- The part of `create_tenant` after the slug was found to be free. -/
def provision (s : Session) (data : TenantCreate) : M Tenant := do
  let tenant ← createTenantRow data.name data.slug
  Prog.forEach (data.modules ++ [ModuleCode.auth]).dedup fun code =>
    setLicense env s tenant.id code true
  let hashedPassword ← hashPassword env data.adminPassword
  add .users
    { id := ← uuid4, tenantId := tenant.id, email := env.lower data.adminEmail,
      hashedPassword, fullName := "Tenant Admin", isActive := true, isSuperuser := true,
      createdAt := s.startedAt, updatedAt := s.startedAt }
  flush
  return tenant

/-- The body of `create_tenant`'s session. -/
def createTenantIn (s : Session) (data : TenantCreate) : M Tenant := do
  match ← getTenantBySlug data.slug with
  | some _ => throwApp .conflict ("Tenant slug '" ++ data.slug ++ "' already exists")
  | none => provision env s data

/-- `TenantAdminService.create_tenant`. -/
def createTenant (data : TenantCreate) : M Tenant :=
  tenantSession env none true fun s => createTenantIn env s data

/-- `TenantAdminService.list_modules`. -/
def listModules (tenantId : Uuid) : M (List TenantModuleOut) :=
  tenantSession env none true fun _ => do
    let enabled ← enabledCodes env tenantId
    let modules ← queryAll env .modules fun _ => true
    modules.mapM fun m =>
      match ModuleCode.ofValue m.code with
      | some code =>
        pure { code := m.code, name := code.catalogName, enabled := m.code ∈ enabled }
      | none => .raise (.unhandled (.valueError (m.code ++ " is not a valid ModuleCode")))

/-- `TenantAdminService.list_tenants`. -/
def listTenants : M (List Tenant) := tenantSession env none true fun _ => listAllTenants env

/-- `TenantAdminService.set_module`. -/
def setModule (tenantId : Uuid) (code : ModuleCode) (enabled : Bool) : M Unit :=
  if code = .auth ∧ enabled = false then
    throwApp .validation "AUTH is a core module and cannot be disabled"
  else tenantSession env none true fun s => do
    if (← query .tenants fun t => t.id = tenantId) = [] then
      throwApp .notFound ("Tenant " ++ uuidStr tenantId ++ " not found")
    else setLicense env s tenantId code enabled

end LmsBackend
