import LmsBackend.Core.Middleware
import LmsBackend.Core.Licensing

/-!
# Users, roles and the caller of a request

The identity repositories of `app.modules.auth` and the dependencies that other
modules import from it.

- Every query for users also loads their roles, and every query for roles their
  permissions (`lazy="selectin"`).
- `getCurrentUser`: the bearer token's user, and the request context enriched
  with what the user may do.
- `requirePermission`: all the codes, or a superuser.
-/

namespace LmsBackend

variable (env : Env)

/-! ## Repositories -/

/-- The permissions of some roles, loaded after them. -/
def loadRoles (roles : List Role) : M (List LoadedRole) := do
  let granted ← sql (.join .rolePermissions .permissions fun rp p =>
    (roles.any fun r => r.id = rp.roleId) && decide (rp.permissionId = p.id))
  return roles.map fun r =>
    { role := r, permissions := (granted.filter fun x => x.1.roleId = r.id).map (·.2) }

/-- The roles of some users, loaded after them. -/
def loadUsers (users : List User) : M (List LoadedUser) := do
  let assigned ← sql (.join .userRoles .roles fun ur r =>
    (users.any fun u => u.id = ur.userId) && decide (ur.roleId = r.id))
  let loaded ← loadRoles (assigned.map (·.2)).dedup
  return users.map fun u =>
    { user := u,
      roles := loaded.filter fun lr => assigned.any fun x =>
        decide (x.1.userId = u.id) && decide (x.2.id = lr.role.id) }

/-- A lookup of `UserRepository` that ends in `scalar_one_or_none`. -/
def findUser (rc : RequestContext) (p : User → Bool) : M (Option LoadedUser) := do
  scalarOneOrNone (← loadUsers (← repoSelect rc .users p))

/-- `UserRepository.get`. -/
def getUser (rc : RequestContext) (id : Uuid) : M (Option LoadedUser) :=
  findUser rc fun u => u.id = id

/-- `UserRepository.get_or_404`. -/
def getUserOr404 (rc : RequestContext) (id : Uuid) : M LoadedUser := do
  match ← getUser rc id with
  | some u => return u
  | none => notFound .users id

/-- `UserRepository.get_by_email`. -/
def getByEmail (rc : RequestContext) (email : String) : M (Option LoadedUser) :=
  findUser rc fun u => u.email = env.lower email

/-- `UserRepository._apply_search`. -/
def searchUser (term : String) (u : User) : Bool :=
  env.ilike u.email (like term) || env.ilike u.fullName (like term)

/-- The attributes of the model class `User`. -/
def userAttribute : String → Attribute User
  | "id" => .column fun u => .number u.id
  | "tenant_id" => .column fun u => .number u.tenantId
  | "email" => .column fun u => .text u.email
  | "hashed_password" => .column fun u => .text u.hashedPassword
  | "full_name" => .column fun u => .text u.fullName
  | "is_active" => .column fun u => .number (if u.isActive then 1 else 0)
  | "is_verified" => .column fun u => .number (if u.isVerified then 1 else 0)
  | "is_superuser" => .column fun u => .number (if u.isSuperuser then 1 else 0)
  | "last_login_at" => .column fun u => .number? u.lastLoginAt
  | "created_at" => .column fun u => .number u.createdAt
  | "updated_at" => .column fun u => .number u.updatedAt
  | "deleted_at" => .column fun u => .number? u.deletedAt
  | "is_deleted" => .other
  | "roles" => .other
  | "permission_codes" => .other
  | "role_codes" => .other
  | "metadata" => .other
  | "registry" => .other
  | name => if env.classAttribute name then .other else .missing

/-- `UserRepository.list`. -/
def listUserRows (rc : RequestContext) (params : PageParams) : M (List LoadedUser × Nat) := do
  let p := fun u => match truthy params.search with
    | some term => searchUser env term u
    | none => true
  let total ← count .users fun r => inScope rc .users r && p r
  let rows ← arrange env (← repoSelect rc .users p)
  let rows ← applySort env (userAttribute env) params.sort rows
  sendPage params
  return (← loadUsers (paginate params rows), total)

/-- `RoleRepository.get_by_code`. -/
def getRoleByCode (rc : RequestContext) (code : String) : M (Option LoadedRole) := do
  scalarOneOrNone (← loadRoles (← repoSelect rc .roles fun r => r.code = code))

/-- `RoleRepository.get_by_codes`. -/
def getRolesByCodes (rc : RequestContext) (codes : List String) : M (List LoadedRole) := do
  loadRoles (← repoSelect rc .roles fun r => r.code ∈ codes)

/-! ## Dependencies -/

/-- The enriched request context of `get_current_user`. -/
def RequestContext.enrich (rc : RequestContext) (c : Caller) : RequestContext :=
  { rc with
    tenantId := rc.tenantId <|> some c.payload.tid
    roles := c.user.roleCodes
    permissions := c.user.permissionCodes
    userId := some c.user.user.id
    isSuperadmin := c.user.user.isSuperuser }

/-- `get_current_user`. -/
def getCurrentUser (rc : RequestContext) (headers : Headers) : M Caller := do
  match (headers.find "authorization").bind env.bearerCredentials with
  | none => throwApp .authentication "Missing bearer token"
  | some credentials =>
    match ← decodeToken env credentials "access" with
    | .error message => throwApp .authentication message
    | .ok payload =>
      match ← getUser rc payload.sub with
      | none => throwApp .authentication "User not found or inactive"
      | some user =>
        if user.user.isActive then return ⟨payload, user⟩
        else throwApp .authentication "User not found or inactive"

/-- The guard of `require_permission(*codes)`. -/
def requirePermission (codes : List String) (user : LoadedUser) : M Unit :=
  if user.user.isSuperuser then .ret ()
  else
    let missing := sortedSet (codes.filter (· ∉ user.permissionCodes))
    if missing ≠ [] then
      throwApp .permissionDenied ("Missing permission(s): " ++ ", ".intercalate missing)
        (.required codes)
    else .ret ()

end LmsBackend
