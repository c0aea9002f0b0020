import LmsBackend.Modules.Admin
import LmsBackend.Modules.Dashboard

/-!
# The API surface

Every route with its path operation function and its dependencies, and what the
application does with one request.

- `Endpoint`: the routes, with their validated parameters.
- `Endpoint.module`, `Endpoint.user`, `Endpoint.permissions`: the dependencies
  of a route. They run in this order: rate limit, module guard, current user and
  permissions; then the parameters are validated and the function is called.
- `handle`, `serve`: one request from the middleware to the answer.
- `Run`: requests served one after the other, with their history.
-/

namespace LmsBackend

variable (env : Env)

/-! ## Routes -/

/-- The routes of the application. -/
inductive Endpoint
  | register (data : RegisterRequest)
  | login (data : LoginRequest)
  | refresh (refreshToken : String)
  | logout (refreshToken : Option String)
  | forgotPassword (email : String)
  | resetPassword (token newPassword : String)
  | me
  | listCourses (filters : CourseFilter)
  | getCourse (courseId : Uuid)
  | enroll (courseId : Uuid)
  | listLessons (courseId : Uuid)
  | completeLesson (lessonId : Uuid) (lastPositionSeconds : Int)
  | myProgress (params : PageParams)
  | listAssignments (filters : AssignmentFilter)
  | getAssignment (assignmentId : Uuid)
  | submit (assignmentId : Uuid) (data : SubmitRequest)
  | grade (submissionId : Uuid) (data : GradeRequest)
  | listSubmissions (assignmentId : Uuid)
  | myGrades (params : PageParams)
  | dashboard
  | listAdminCourses (filters : CourseFilter)
  | getAdminCourse (courseId : Uuid)
  | createCourse (data : CourseCreate)
  | updateCourse (courseId : Uuid) (data : CourseUpdate)
  | deleteCourse (courseId : Uuid)
  | getAdminCourseLessons (courseId : Uuid)
  | createAdminCourseLesson (courseId : Uuid) (data : AdminLessonCreate)
  | getAdminCourseAssignments (courseId : Uuid)
  | createAdminCourseAssignment (courseId : Uuid) (data : AdminAssignmentCreate)
  | listUsers (params : PageParams)
  | createUser (data : AdminUserCreate)
  | updateUser (userId : Uuid) (data : AdminUserUpdate)
  | reports
  | createTenant (data : TenantCreate)
  | listTenants
  | listTenantModules (tenantId : String)
  | toggleTenantModule (tenantId : String) (code : ModuleCode) (enabled : Bool)
  | health
  | ready

/-- A request whose route has been found. `valid` says whether its parameters pass
the route's schemas. -/
structure Request where
  headers : Headers := []
  client : Option String := none
  endpoint : Endpoint
  valid : Bool := true

/-- The bodies of successful answers. -/
inductive Body
  | message (text : String)
  | user (u : UserOut)
  | tokens (t : TokenResponse)
  | me (m : MeOut)
  | courses (p : Page CourseOut)
  | course (c : CourseOut)
  | courseDetail (c : CourseDetailOut)
  | enrollment (e : EnrollmentOut)
  | lessons (ls : List LessonOut)
  | lesson (l : LessonOut)
  | progress (p : LessonProgressOut)
  | progressPage (p : Page LessonProgressOut)
  | assignments (p : Page AssignmentOut)
  | assignmentList (as : List AssignmentOut)
  | assignment (a : AssignmentOut)
  | submission (s : SubmissionOut)
  | submissions (ss : List SubmissionOut)
  | grade (g : GradeOut)
  | grades (p : Page GradeOut)
  | dashboard (d : DashboardOut)
  | users (p : Page UserOut)
  | report (r : ReportOut)
  | tenant (t : TenantOut)
  | tenants (ts : List TenantOut)
  | tenantModules (ms : List TenantModuleOut)
  | status (text : String)
  deriving DecidableEq

/-! ## Dependencies -/

/-- The module of the router the route is included from; `none` for the routes
without `require_module`. -/
def Endpoint.module : Endpoint → Option ModuleCode
  | .register _ | .login _ | .refresh _ | .logout _ | .forgotPassword _ | .resetPassword _ _
  | .me | .health | .ready => none
  | .listCourses _ | .getCourse _ | .enroll _ => some .courses
  | .listLessons _ | .completeLesson _ _ | .myProgress _ => some .learning
  | .listAssignments _ | .getAssignment _ | .submit _ _ | .grade _ _ | .listSubmissions _
  | .myGrades _ => some .assignments
  | .dashboard => some .dashboard
  | .listAdminCourses _ | .getAdminCourse _ | .createCourse _ | .updateCourse _ _
  | .deleteCourse _ | .getAdminCourseLessons _ | .createAdminCourseLesson _ _
  | .getAdminCourseAssignments _ | .createAdminCourseAssignment _ _ | .listUsers _
  | .createUser _ | .updateUser _ _ | .reports | .createTenant _ | .listTenants
  | .listTenantModules _ | .toggleTenantModule _ _ _ => some .admin

/-- The route depends on `CurrentUser`. -/
def Endpoint.user : Endpoint → Bool
  | .register _ | .login _ | .refresh _ | .logout _ | .forgotPassword _ | .resetPassword _ _
  | .health | .ready => false
  | _ => true

/-- The codes of the route's `require_permission`. -/
def Endpoint.permissions : Endpoint → List String
  | .enroll _ => ["course:enroll"]
  | .listLessons _ => ["lesson:read"]
  | .myProgress _ => ["progress:read"]
  | .listAssignments _ => ["assignment:read"]
  | .getAssignment _ => ["assignment:read"]
  | .submit _ _ => ["assignment:submit"]
  | .grade _ _ => ["grade:write"]
  | .listSubmissions _ => ["grade:write"]
  | .myGrades _ => ["grade:read"]
  | .listAdminCourses _ => ["course:read"]
  | .getAdminCourse _ => ["course:read"]
  | .createCourse _ => ["course:create"]
  | .updateCourse _ _ => ["course:update"]
  | .deleteCourse _ => ["course:delete"]
  | .getAdminCourseLessons _ => ["course:read"]
  | .createAdminCourseLesson _ _ => ["course:update"]
  | .getAdminCourseAssignments _ => ["course:read"]
  | .createAdminCourseAssignment _ _ => ["course:update"]
  | .listUsers _ => ["user:read"]
  | .createUser _ => ["user:create"]
  | .updateUser _ _ => ["user:update"]
  | .reports => ["report:read"]
  | .createTenant _ => ["tenant:manage"]
  | .listTenants => ["tenant:manage"]
  | .listTenantModules _ => ["tenant:manage"]
  | .toggleTenantModule _ _ _ => ["tenant:manage"]
  | _ => []

/-- The path of a route that depends on the rate limiter. -/
def Endpoint.limited : Endpoint → Option String
  | .register _ => some "/api/v1/auth/register"
  | .login _ => some "/api/v1/auth/login"
  | .forgotPassword _ => some "/api/v1/auth/forgot-password"
  | _ => none

/-- The `/admin/tenants` routes. -/
def Endpoint.isTenantAdmin : Endpoint → Bool
  | .createTenant _ | .listTenants | .listTenantModules _ | .toggleTenantModule _ _ _ => true
  | _ => false

/-- The rate limiter of the route, if it has one. -/
def limitRate (rc : RequestContext) (e : Endpoint) : M Unit :=
  match e.limited, parseRate env.settings.rateLimitAuth with
  | some path, some spec => rateLimit env spec path rc
  | _, _ => .ret ()

/-- The `require_module` guard of the route's router, if it has one. -/
def moduleGuard (rc : RequestContext) (e : Endpoint) : M Unit :=
  match e.module with
  | some code => requireModule env rc code
  | none => .ret ()

/-- The current user of the route, and its `require_permission` guard. -/
def userGuard (rc : RequestContext) (req : Request) : M (Option Caller) :=
  if req.endpoint.user then do
    let caller ← getCurrentUser env rc req.headers
    requirePermission req.endpoint.permissions caller.user
    return some caller
  else .ret none

/-- The guards of the route, and the caller they found. -/
def guards (rc : RequestContext) (req : Request) : M (Option Caller) := do
  moduleGuard env rc req.endpoint
  userGuard env rc req

/-! ## Path operation functions -/

/-- `Page.create` of the validated rows. -/
def pageOf {α β : Type} (f : α → β) (rows : List α × Nat) (params : PageParams) : Page β :=
  Page.create (rows.1.map f) rows.2 params

/-- `resolve_tenant_id` of a path parameter, or `NotFoundError`. -/
def resolveOr404 (tenantId : String) : M Uuid := do
  match ← resolveTenantId env tenantId with
  | some u => return u
  | none => throwApp .notFound ("Tenant " ++ tenantId ++ " not found")

/-- The routes that do not ask who calls. -/
def publicHandler (rc : RequestContext) (s : Session) (req : Request) : M Body := do
  match req.endpoint with
  | .register data => return .user (.ofUser (← register env rc s data))
  | .login data =>
    return .tokens (← login env rc s data (req.headers.find "user-agent") req.client)
  | .refresh refreshToken => return .tokens (← refresh env rc s refreshToken)
  | .logout refreshToken =>
    logout env s refreshToken
    return .message "Logged out"
  | .forgotPassword email =>
    match ← forgotPassword env rc email with
    | some token =>
      if token ≠ "" ∧ env.lower env.settings.environment ≠ "production" then
        return .message ("Reset token (dev only): " ++ token)
      else return .message "If the email exists, a reset link has been sent"
    | none => return .message "If the email exists, a reset link has been sent"
  | .resetPassword token newPassword =>
    resetPassword env rc s token newPassword
    return .message "Password reset successful"
  | _ => return .status "ok"

/-- The routes of an authenticated user. -/
def userHandler (rc : RequestContext) (s : Session) (user : LoadedUser) (e : Endpoint) :
    M Body := do
  match e with
  | .me => return .me ⟨.ofUser user, sortedSet user.permissionCodes⟩
  | .listCourses f =>
    return .courses (pageOf .ofCourse (← listCourses env rc f true) f.toPageParams)
  | .getCourse courseId =>
    let c ← getCourse rc courseId true
    return .courseDetail ⟨.ofCourse c, c.description⟩
  | .enroll courseId =>
    return .enrollment (.ofEnrollment (← enroll env rc s courseId user.user.id))
  | .listLessons courseId => return .lessons ((← listLessons env rc courseId).map .ofLesson)
  | .completeLesson lessonId position =>
    return .progress (.ofProgress (← completeLesson env rc s lessonId user.user.id position))
  | .myProgress params =>
    return .progressPage (pageOf .ofProgress (← myProgress env rc user.user.id params) params)
  | .listAssignments f =>
    return .assignments (pageOf .ofAssignment (← listAssignments env rc f true) f.toPageParams)
  | .getAssignment assignmentId =>
    return .assignment (.ofAssignment (← getAssignmentOr404 env rc assignmentId))
  | .submit assignmentId data =>
    let r ← submit env rc s assignmentId user.user.id data
    return .submission (.ofSubmission r.1 r.2)
  | .grade submissionId data =>
    return .grade (.ofGrade (← gradeSubmission env rc s submissionId data user.user.id))
  | .listSubmissions assignmentId =>
    let rows ← listSubmissionsForAssignment env rc assignmentId
    return .submissions (rows.map fun r => .ofSubmission r.1 r.2)
  | .myGrades params =>
    return .grades (pageOf .ofGrade (← listGrades env rc user.user.id params) params)
  | .dashboard => return .dashboard (← dashboard env user.user.id)
  | .listAdminCourses f =>
    return .courses (pageOf .ofCourse (← listCourses env rc f false) f.toPageParams)
  | .getAdminCourse courseId => return .course (.ofCourse (← getCourse rc courseId false))
  | .createCourse data => return .course (.ofCourse (← createCourse env rc s data))
  | .updateCourse courseId data =>
    return .course (.ofCourse (← updateCourse rc s courseId data))
  | .deleteCourse courseId =>
    deleteCourse rc s courseId
    return .message "Course deleted"
  | .getAdminCourseLessons courseId =>
    return .lessons ((← listLessons env rc courseId).map .ofLesson)
  | .createAdminCourseLesson courseId data =>
    return .lesson (.ofLesson (← createLesson rc courseId data))
  | .getAdminCourseAssignments courseId =>
    let rows ← listAssignmentRows env rc { courseId := some courseId }
    return .assignmentList (rows.1.map .ofAssignment)
  | .createAdminCourseAssignment courseId data =>
    return .assignment (.ofAssignment (← createAssignment env rc s courseId data))
  | .listUsers params => return .users (pageOf .ofUser (← listUserRows env rc params) params)
  | .createUser data => return .user (.ofUser (← createUser env rc s data))
  | .updateUser userId data => return .user (.ofUser (← updateUser env rc s userId data))
  | .reports => return .report (← tenantReport env rc)
  | _ => return .status "ok"

/-- The `/admin/tenants` routes, which do not use the request's session. -/
def tenantAdminHandler (e : Endpoint) : M Body := do
  match e with
  | .createTenant data => return .tenant (.ofTenant (← createTenant env data))
  | .listTenants => return .tenants ((← listTenants env).map .ofTenant)
  | .listTenantModules tenantId =>
    return .tenantModules (← listModules env (← resolveOr404 env tenantId))
  | .toggleTenantModule tenantId code enabled =>
    setModule env (← resolveOr404 env tenantId) code enabled
    return .message ("Module " ++ code.value ++ " " ++ (if enabled then "enabled" else "disabled") ++
      " for tenant")
  | _ => return .status "ok"

/-- The path operation function of the route. -/
def handler (rc : RequestContext) (s : Session) (req : Request) : Option Caller → M Body
  | none => publicHandler env rc s req
  | some caller =>
    if req.endpoint.isTenantAdmin then tenantAdminHandler env req.endpoint
    else userHandler env (rc.enrich caller) s caller.user req.endpoint

/-! ## Requests -/

/-- The part of a request that runs in the request's unit of work. -/
def operation (rc : RequestContext) (req : Request) (s : Session) : M Body := do
  let caller ← guards env rc req
  if req.valid then
    perform (.enter caller)
    handler env rc s req caller
  else .raise .requestValidation

/-- A request behind the middleware. -/
def route (rc : RequestContext) (req : Request) : M Body := do
  match req.endpoint with
  | .health => return .status "ok"
  | .ready =>
    let _ ← beginSession
    sql .rollback
    return .status "ready"
  | _ =>
    limitRate env rc req.endpoint
    getDb env (some rc) (operation env rc req)

/-- One request, from the middleware to the answer. -/
def handle (req : Request) : M Body := do
  let rc ← requestContext env req.headers req.client
  route env rc req

/-- What a client gets. -/
abbrev Response := Except Err Body

/-- Serve one request while no other runs. -/
def serve (w : World) (req : Request) : Response × World :=
  let r := (handle env req).run (exec env) (w, [])
  (r.1, r.2.1)

/-! ## Runs -/

/-- A request that was served: the world before it, its answer and the world after it. -/
structure Exchange where
  pre : World
  req : Request
  resp : Response
  post : World

/-- The exchange of a request in a world. -/
def exchange (w : World) (req : Request) : Exchange :=
  ⟨w, req, (serve env w req).1, (serve env w req).2⟩

/-- Requests served one after the other lead from `w₀` to `w`, each allowed by `Ok` in
the history and the world before it; the history has the newest exchange first. -/
inductive Run (Ok : List Exchange → World → Request → Prop) (w₀ : World) :
    List Exchange → World → Prop
  | start : Run Ok w₀ [] w₀
  | serve {h : List Exchange} {w : World} (req : Request) (run : Run Ok w₀ h w)
      (ok : Ok h w req) : Run Ok w₀ (exchange env w req :: h) (serve env w req).2

end LmsBackend
