import LmsBackend.Core.Events
import LmsBackend.Modules.Identity

/-!
# Authentication

`app.modules.auth`: registration, login, token rotation, logout and password
reset.

- `issueTokens` adds the session row to the unit of work; the row is inserted by
  the next flush, which for `refresh` is the one of the commit.
- `revokeAllForUser` is one bulk `UPDATE`: it takes the rows its snapshot shows,
  then locks each and writes it if the condition still holds.
-/

namespace LmsBackend

variable (env : Env)

/-! ## Schemas -/

/-- `RegisterRequest`. -/
structure RegisterRequest where
  email : String
  password : String
  fullName : String := ""

/-- `LoginRequest`. -/
structure LoginRequest where
  email : String
  password : String

/-- `TokenResponse`. -/
structure TokenResponse where
  accessToken : String
  refreshToken : String
  tokenType : String := "bearer"
  expiresIn : Nat
  deriving DecidableEq

/-- `RoleOut`. -/
structure RoleOut where
  id : Uuid
  code : String
  name : String
  deriving DecidableEq

/-- `UserOut`. -/
structure UserOut where
  id : Uuid
  tenantId : Uuid
  email : String
  fullName : String
  isActive : Bool
  isVerified : Bool
  lastLoginAt : Option Time
  createdAt : Time
  roles : List RoleOut
  deriving DecidableEq

/-- `UserOut.model_validate`. -/
def UserOut.ofUser (u : LoadedUser) : UserOut where
  id := u.user.id
  tenantId := u.user.tenantId
  email := u.user.email
  fullName := u.user.fullName
  isActive := u.user.isActive
  isVerified := u.user.isVerified
  lastLoginAt := u.user.lastLoginAt
  createdAt := u.user.createdAt
  roles := u.roles.map fun r => ⟨r.role.id, r.role.code, r.role.name⟩

/-- `MeOut`: a `UserOut` with the sorted permission codes. -/
structure MeOut where
  user : UserOut
  permissions : List String
  deriving DecidableEq

/-! ## Registration -/

/-- Add a user and its `user_roles` rows to the unit of work. -/
def addUser (user : User) (roles : List LoadedRole) : M Unit := do
  add .users user
  Prog.forEach roles fun r => add .userRoles ⟨user.id, r.role.id⟩

/-- `AuthService.register`. -/
def register (rc : RequestContext) (s : Session) (data : RegisterRequest) : M LoadedUser := do
  let tenantId ← requireTenantId rc
  let email := env.lower data.email
  match ← getByEmail env rc email with
  | some _ => throwApp .conflict "Email already registered"
  | none =>
    let student ← getRoleByCode rc "student"
    let defaultRoles := student.toList
    let hashedPassword ← hashPassword env data.password
    let user : User :=
      { id := ← uuid4, tenantId, email, hashedPassword, fullName := data.fullName,
        isActive := true, createdAt := s.startedAt, updatedAt := s.startedAt }
    addUser user defaultRoles
    flush
    publish env ⟨some tenantId, some user.id, .userRegistered user.email⟩
    return ⟨user, defaultRoles⟩

/-! ## Login and tokens -/

/-- `AuthService.authenticate`. -/
def authenticate (rc : RequestContext) (email password : String) : M LoadedUser := do
  match ← getByEmail env rc (env.lower email) with
  | none => throwApp .authentication "Invalid credentials"
  | some u =>
    if verifyPassword env password u.user.hashedPassword then
      if u.user.isActive then return u else throwApp .authentication "Account disabled"
    else throwApp .authentication "Invalid credentials"

/-- `AuthService._issue_tokens`. -/
def issueTokens (userId tenantId : Uuid) (userAgent ip : Option String) : M TokenResponse := do
  let (refreshToken, jti) ← createRefreshToken env userId tenantId
  let now ← now
  add .userSessions
    { id := ← uuid4, tenantId, userId, jti, userAgent, ipAddress := ip,
      expiresAt := now + env.settings.refreshTokenTtlSeconds }
  let accessToken ← createAccessToken env userId tenantId
  return { accessToken, refreshToken, expiresIn := env.settings.accessTokenTtlSeconds }

/-- `AuthService.login`. -/
def login (rc : RequestContext) (s : Session) (data : LoginRequest)
    (userAgent ip : Option String) : M TokenResponse := do
  let tenantId ← requireTenantId rc
  let user ← authenticate env rc data.email data.password
  let tokens ← issueTokens env user.user.id tenantId userAgent ip
  let now ← now
  updateRow s .users user.user.id fun u => { u with lastLoginAt := some now }
  flush
  publish env ⟨some tenantId, some user.user.id, .userLoggedIn user.user.email⟩
  return tokens

/-- `SessionRepository.get_by_jti`: no condition besides the identifier. -/
def getByJti (jti : Uuid) : M (Option UserSession) := do
  scalarOneOrNone (← query .userSessions fun r => r.jti = jti)

/-- `session.revoked_at = datetime.now(UTC)`, flushed. -/
def revokeSession (s : Session) (session : UserSession) : M Unit := do
  let now ← now
  updateRow s .userSessions session.id fun r => { r with revokedAt := some now }

/-- `AuthService.refresh`. -/
def refresh (rc : RequestContext) (s : Session) (refreshToken : String) : M TokenResponse := do
  match ← decodeToken env refreshToken "refresh" with
  | .error message => throwApp .authentication message
  | .ok payload =>
    match ← getByJti payload.jti with
    | none => throwApp .authentication "Session revoked or expired"
    | some session =>
      if !session.isActive then throwApp .authentication "Session revoked or expired"
      else if session.expiresAt < (← now) then
        throwApp .authentication "Refresh token expired"
      else do
        let user ← getUserOr404 rc payload.sub
        revokeSession s session
        issueTokens env user.user.id payload.tid session.userAgent session.ipAddress

/-- `AuthService.logout`. -/
def logout (s : Session) (refreshToken : Option String) : M Unit := do
  match truthy refreshToken with
  | none => return ()
  | some refreshToken =>
    match ← decodeToken env refreshToken "refresh" with
    | .error _ => return ()
    | .ok payload =>
      match ← getByJti payload.jti with
      | none => return ()
      | some session => if session.isActive then revokeSession s session

/-! ## Password reset -/

/-- `f"{tenant_id}:{user.id}"`. -/
def resetValue (tenantId userId : Uuid) : String := uuidStr tenantId ++ ":" ++ uuidStr userId

/-- `AuthService.forgot_password`. -/
def forgotPassword (rc : RequestContext) (email : String) : M (Option String) := do
  let tenantId ← requireTenantId rc
  match ← getByEmail env rc (env.lower email) with
  | none => return none
  | some user =>
    let token := env.tokenUrlsafe (← perform .draw)
    let value := resetValue tenantId user.user.id
    if env.settings.hasRedis then
      perform (.redisSet (.reset token) (.text value) env.settings.passwordResetTtlSeconds)
    else
      let now ← now
      perform (.resetSet token value (now + env.settings.passwordResetTtlSeconds))
    return some token

/-- `_get_reset`. -/
def getReset (token : String) : M (Option String) := do
  match ← perform (.resetGet token) with
  | none => return none
  | some (value, expires) =>
    if expires < (← now) then
      perform (.resetDelete token)
      return none
    else return some value

/-- The value stored for a reset token, in Redis or in the process. -/
def lookupReset (token : String) : M (Option String) := do
  if env.settings.hasRedis then
    match ← perform (.redisGet (.reset token)) with
    | some (.text value) => return some value
    | _ => return none
  else getReset token

/-- Forget a reset token. -/
def deleteReset (token : String) : M Unit :=
  if env.settings.hasRedis then perform (.redisDelete (.reset token))
  else perform (.resetDelete token)

/-- `uuid.UUID(text)`, where a malformed text raises. -/
@[irreducible] def uuidOf (text : String) : M Uuid :=
  match parseUuid text with
  | some u => .ret u
  | none => .raise (.unhandled (.valueError "badly formed hexadecimal UUID string"))

/-- The tenant part and the user part of a stored value. -/
def resetParts (raw : String) : String × String :=
  let p := Text.partition ':' raw.toList
  (String.ofList p.1, String.ofList p.2)

/-- The rows that the bulk revocation is about. -/
def live (userId : Uuid) (r : UserSession) : Bool :=
  decide (r.userId = userId) && r.revokedAt.isNone

/-- The bulk revocation's write of one row. -/
def revokeRow (s : Session) (userId : Uuid) (row : UserSession) : M Unit := do
  match ← sql (.update .userSessions [row.id] (live userId) fun r =>
      { r with revokedAt := some s.startedAt }) with
  | .ok _ => pure ()
  | .error e => .raise (.db e)

/-- `SessionRepository.revoke_all_for_user`. -/
def revokeAllForUser (s : Session) (userId : Uuid) : M Unit := do
  let rows ← query .userSessions (live userId)
  Prog.forEach rows (revokeRow s userId)

/-- `AuthService.reset_password`. -/
def resetPassword (rc : RequestContext) (s : Session) (token newPassword : String) : M Unit := do
  match truthy (← lookupReset env token) with
  | none => throwApp .validation "Invalid or expired reset token"
  | some raw =>
    if (← uuidOf (resetParts raw).1) ≠ (← requireTenantId rc) then
      throwApp .validation "Invalid reset token for tenant"
    else do
      match ← getUser rc (← uuidOf (resetParts raw).2) with
      | none => throwApp .notFound "User not found"
      | some user =>
        let hashedPassword ← hashPassword env newPassword
        updateRow s .users user.user.id fun u => { u with hashedPassword := hashedPassword }
        revokeAllForUser s user.user.id
        deleteReset env token

end LmsBackend
