import LmsBackend.Isolation.Services

/-!
# Footprints of the path operation functions

`Covers F _ p` for the services of every module, and from them for the
operations behind the routes: `operation_tenant` for the routes that work in
the tenant of the context, `Endpoint.writes` naming the tables each may write.
-/

namespace LmsBackend

open Mvcc

/-- The tables that the function of a route may write. -/
def Endpoint.writes : Endpoint → List Table
  | .register _ => [.users, .userRoles, .auditLogs]
  | .login _ => [.users, .userSessions, .auditLogs]
  | .refresh _ => [.userSessions]
  | .logout _ => [.userSessions]
  | .resetPassword _ _ => [.users, .userSessions]
  | .enroll _ => [.courses, .courseEnrollments, .auditLogs]
  | .completeLesson _ _ => [.lessonProgress, .auditLogs]
  | .submit _ _ => [.submissions, .grades, .auditLogs]
  | .grade _ _ => [.submissions, .grades, .auditLogs]
  | .createCourse _ => [.courses, .auditLogs]
  | .updateCourse _ _ => [.courses]
  | .deleteCourse _ => [.courses]
  | .createAdminCourseLesson _ _ => [.lessons]
  | .createAdminCourseAssignment _ _ => [.assignments]
  | .createUser _ => [.users, .userRoles, .auditLogs]
  | .updateUser _ _ => [.users, .userRoles, .auditLogs]
  | .createTenant _ => [.tenants, .tenantModules, .users]
  | .toggleTenantModule _ _ _ => [.tenantModules]
  | _ => []

/-- The reset tokens whose entries a route may change. -/
def Endpoint.resets : Endpoint → String → Prop
  | .forgotPassword _, _ => True
  | .resetPassword token _, token' => token' = token
  | _, _ => False

namespace Covers

variable {F : Footprint} {env : Env} {rc : RequestContext} {s : Session}

/-! ## Authentication -/

theorem addUser {user : User} {roles : List LoadedRole} (hu : F.writes .users)
    (hr : F.writes .userRoles) : Covers F (fun _ => True) (addUser user roles) :=
  seq (add hu) fun _ => forEach fun _ _ => add hr

theorem register {data : RegisterRequest} (h : F.InContext rc) (hu : F.writes .users)
    (hr : F.writes .userRoles) : Covers F (fun _ => True) (register env rc s data) := by
  refine bind requireTenantId fun tid htid => ?_
  refine seq getByEmail fun u => ?_
  cases u with
  | some _ => exact raise _
  | none =>
    refine seq getRoleByCode fun student => ?_
    refine seq hashPassword fun hashed => ?_
    refine seq uuid4 fun id => ?_
    refine seq (addUser hu hr) fun _ => ?_
    refine seq flush fun _ => ?_
    exact seq (publish (h.binds tid htid) h.audit) fun _ => pure trivial

theorem authenticate {email password : String} :
    Covers F (fun _ => True) (authenticate env rc email password) := by
  refine seq getByEmail fun u => ?_
  cases u with
  | none => exact raise _
  | some u =>
    dsimp only
    split
    · split
      · exact pure trivial
      · exact raise _
    · exact raise _

theorem issueTokens {userId tenantId : Uuid} {userAgent ip : Option String}
    (h : F.writes .userSessions) :
    Covers F (fun _ => True) (issueTokens env userId tenantId userAgent ip) :=
  seq createRefreshToken fun _ => seq now fun _ => seq uuid4 fun _ => seq (add h) fun _ =>
  seq createAccessToken fun _ => pure trivial

theorem login {data : LoginRequest} {userAgent ip : Option String} (h : F.InContext rc)
    (hu : F.writes .users) (hs : F.writes .userSessions) :
    Covers F (fun _ => True) (login env rc s data userAgent ip) := by
  refine bind requireTenantId fun tid htid => ?_
  refine seq authenticate fun user => ?_
  refine seq (issueTokens hs) fun tokens => ?_
  refine seq now fun _ => seq (updateRow hu) fun _ => seq flush fun _ => ?_
  exact seq (publish (h.binds tid htid) h.audit) fun _ => pure trivial

theorem getByJti {jti : Uuid} : Covers F (fun _ => True) (getByJti jti) :=
  seq (query fun r _ => reads_of_none (fun _ => rfl) r).weaken fun _ => scalarOneOrNone.weaken

theorem revokeSession {session : UserSession} (h : F.writes .userSessions) :
    Covers F (fun _ => True) (revokeSession s session) :=
  seq now fun _ => updateRow h

theorem refresh {token : String} (h : F.writes .userSessions) :
    Covers F (fun _ => True) (refresh env rc s token) := by
  refine seq decodeToken.weaken fun r => ?_
  cases r with
  | error m => exact raise _
  | ok payload =>
    refine seq getByJti fun session => ?_
    cases session with
    | none => exact raise _
    | some session =>
      dsimp only
      split
      · exact raise _
      · refine seq now fun n => ?_
        split
        · exact raise _
        · refine seq getUserOr404 fun user => ?_
          exact seq (revokeSession h) fun _ => issueTokens h

theorem logout {token : Option String} (h : F.writes .userSessions) :
    Covers F (fun _ => True) (logout env s token) := by
  unfold LmsBackend.logout
  split
  · exact pure trivial
  · refine seq decodeToken.weaken fun r => ?_
    cases r with
    | error m => exact pure trivial
    | ok payload =>
      refine seq getByJti fun session => ?_
      cases session with
      | none => exact pure trivial
      | some session =>
        dsimp only
        split
        · exact revokeSession h
        · exact pure trivial

theorem forgotPassword {email : String} (hr : ∀ token, F.resets token) :
    Covers F (fun _ => True) (forgotPassword env rc email) := by
  refine seq requireTenantId.weaken fun tid => ?_
  refine seq getByEmail fun u => ?_
  cases u with
  | none => exact pure trivial
  | some u =>
    refine seq (perform .draw trivial) fun i => ?_
    dsimp only
    split
    · exact seq (perform (.redisSet _ _ _) (hr _)) fun _ => pure trivial
    · exact seq now fun _ => seq (perform (.resetSet _ _ _) (hr _)) fun _ => pure trivial

theorem lookupReset {token : String} (hr : F.resets token) :
    Covers F (fun _ => True) (lookupReset env token) := by
  have hget : Covers F (fun _ => True) (getReset token) := by
    refine seq (perform (.resetGet _) trivial) fun e => ?_
    cases e with
    | none => exact pure trivial
    | some e =>
      refine seq now fun n => ?_
      split
      · exact seq (perform (.resetDelete _) hr) fun _ => pure trivial
      · exact pure trivial
  unfold LmsBackend.lookupReset
  split
  · refine seq (perform (.redisGet _) trivial) fun e => ?_
    split
    · exact pure trivial
    · exact pure trivial
  · exact hget

theorem deleteReset {token : String} (hr : F.resets token) :
    Covers F (fun _ => True) (deleteReset env token) := by
  unfold LmsBackend.deleteReset
  split
  · exact perform (.redisDelete _) hr
  · exact perform (.resetDelete _) hr

theorem uuidOf {text : String} : Covers F (fun _ => True) (uuidOf text) := by
  unfold LmsBackend.uuidOf
  split
  · exact pure trivial
  · exact raise _

theorem revokeAllForUser {userId : Uuid} (h : F.writes .userSessions) :
    Covers F (fun _ => True) (revokeAllForUser s userId) := by
  refine seq (query fun r _ => reads_of_none (fun _ => rfl) r).weaken fun rows => ?_
  refine forEach fun row _ => seq (sqlUpdate h) fun r => ?_
  cases r with
  | ok _ => exact pure trivial
  | error _ => exact raise _

theorem resetPassword {token newPassword : String} (hu : F.writes .users)
    (hs : F.writes .userSessions) (hr : F.resets token) :
    Covers F (fun _ => True) (resetPassword env rc s token newPassword) := by
  unfold LmsBackend.resetPassword
  refine seq (lookupReset hr) fun raw => ?_
  split
  · exact raise _
  · refine seq uuidOf fun tid => ?_
    refine seq requireTenantId.weaken fun t => ?_
    split
    · exact raise _
    · refine seq uuidOf fun uid => ?_
      refine seq getUser.weaken fun u => ?_
      cases u with
      | none => exact raise _
      | some u =>
        refine seq hashPassword fun hashed => ?_
        refine seq (updateRow hu) fun _ => ?_
        exact seq (revokeAllForUser hs) fun _ => deleteReset hr

/-! ## Courses -/

theorem getForUserCourse {userId courseId : Uuid} :
    Covers F (fun _ => True) (getForUserCourse rc userId courseId) :=
  seq (repoSelect fun _ => rfl).weaken fun _ =>
  seq (query fun r _ => reads_of_none (fun _ => rfl) r).weaken fun _ => scalarOneOrNone.weaken

theorem listCourses {f : CourseFilter} {publishedOnly : Bool} :
    Covers F (fun _ => True) (listCourses env rc f publishedOnly) :=
  seq (count fun r _ => reads_of_none (fun _ => rfl) r) fun _ =>
  seq (repoSelect fun _ => rfl).weaken fun _ => seq arrange.weaken fun _ =>
  seq applySort fun _ => seq sendPage fun _ => pure trivial

theorem getCourse {courseId : Uuid} {publishedOnly : Bool} :
    Covers F (fun _ => True) (getCourse rc courseId publishedOnly) := by
  refine seq (repoGetOr404 fun _ => rfl) fun course => ?_
  split
  · exact raise _
  · exact pure trivial

theorem enroll {courseId userId : Uuid} (h : F.InContext rc) (hc : F.writes .courses)
    (he : F.writes .courseEnrollments) :
    Covers F (fun _ => True) (enroll env rc s courseId userId) := by
  refine bind requireTenantId fun tid htid => ?_
  refine seq (repoGetOr404 fun _ => rfl) fun course => ?_
  split
  · exact raise _
  · refine seq getForUserCourse fun existing => ?_
    split
    · exact raise _
    · refine seq now fun _ => seq uuid4 fun _ => ?_
      refine seq (repoAdd he) fun _ => seq (updateRow hc) fun _ => ?_
      exact seq (publish (h.binds tid htid) h.audit) fun _ => pure trivial

theorem createCourse {data : CourseCreate} (h : F.InContext rc) (hc : F.writes .courses) :
    Covers F (fun _ => True) (createCourse env rc s data) := by
  refine bind requireTenantId fun tid htid => ?_
  refine seq (repoSelect fun _ => rfl).weaken fun rows => ?_
  split
  · exact raise _
  · refine seq uuid4 fun _ => seq (repoAdd hc) fun _ => ?_
    exact seq (publish (h.binds tid htid) h.audit) fun _ => pure trivial

theorem updateCourse {courseId : Uuid} {data : CourseUpdate} (hc : F.writes .courses) :
    Covers F (fun _ => True) (updateCourse rc s courseId data) := by
  have hdate : ∀ course, Covers F (fun _ => True) (publicationDate course data) := by
    intro course
    unfold publicationDate
    split
    · exact seq now fun _ => pure trivial
    · exact pure trivial
  refine seq (repoGetOr404 fun _ => rfl) fun course => ?_
  refine seq (hdate course) fun publishedAt => ?_
  split
  · exact raise _
  · dsimp only
    split
    · exact pure trivial
    · exact seq (updateRow hc) fun _ => pure trivial

theorem deleteCourse {courseId : Uuid} (hc : F.writes .courses) :
    Covers F (fun _ => True) (deleteCourse rc s courseId) :=
  seq (repoGetOr404 fun _ => rfl) fun _ => updateRow hc

/-! ## Learning -/

theorem loadLessons {lessons : List Lesson} : Covers F (fun _ => True) (loadLessons lessons) :=
  seq (query fun r _ => reads_of_none (fun _ => rfl) r).weaken fun _ =>
  seq (query fun r _ => reads_of_none (fun _ => rfl) r).weaken fun _ => pure trivial

theorem listLessons {courseId : Uuid} :
    Covers F (fun _ => True) (listLessons env rc courseId) :=
  seq (repoSelect fun _ => rfl).weaken fun _ => seq arrange.weaken fun _ => loadLessons

theorem getForUserLesson {userId lessonId : Uuid} :
    Covers F (fun _ => True) (getForUserLesson rc userId lessonId) := by
  unfold LmsBackend.getForUserLesson
  exact @repoFind F rc .lessonProgress _ fun _ => rfl

theorem recordProgress {tenantId userId : Uuid} {lesson : Lesson} {position : Int}
    {progress : Option LessonProgress} (hp : F.writes .lessonProgress) :
    Covers F (fun _ => True) (recordProgress s tenantId userId lesson progress position) := by
  refine seq now fun _ => ?_
  cases progress with
  | none => exact seq uuid4 fun _ => seq (repoAdd hp) fun _ => pure trivial
  | some progress => exact seq (updateRow hp) fun _ => pure trivial

theorem completeLesson {lessonId userId : Uuid} {position : Int} (h : F.InContext rc)
    (hp : F.writes .lessonProgress) :
    Covers F (fun _ => True) (completeLesson env rc s lessonId userId position) := by
  refine bind requireTenantId fun tid htid => ?_
  refine seq (repoFind fun _ => rfl) fun lesson => ?_
  refine seq loadLessons fun _ => ?_
  cases lesson with
  | none => exact raise _
  | some lesson =>
    refine seq getForUserLesson fun progress => ?_
    refine seq (recordProgress hp) fun _ => ?_
    exact seq (publish (h.binds tid htid) h.audit) fun _ => pure trivial

theorem myProgress {userId : Uuid} {params : PageParams} :
    Covers F (fun _ => True) (myProgress env rc userId params) :=
  seq (count fun r _ => reads_of_none (fun _ => rfl) r) fun _ =>
  seq (repoSelect fun _ => rfl).weaken fun _ => seq arrange.weaken fun _ =>
  seq sendPage fun _ => pure trivial

/-! ## Assignments -/

theorem loadAssignments {assignments : List Assignment} :
    Covers F (fun _ => True) (loadAssignments env assignments) :=
  seq (query fun r _ => reads_of_none (fun _ => rfl) r).weaken fun _ =>
  seq (queryAll fun r _ => reads_of_none (fun _ => rfl) r) fun _ =>
  seq (queryAll fun r _ => reads_of_none (fun _ => rfl) r) fun _ => pure trivial

theorem getAssignmentOr404 {id : Uuid} :
    Covers F (fun _ => True) (getAssignmentOr404 env rc id) := by
  refine seq (repoSelect fun _ => rfl).weaken fun _ => seq loadAssignments fun _ => ?_
  refine seq scalarOneOrNone.weaken fun a => ?_
  cases a with
  | some a => exact pure trivial
  | none => exact raise _

theorem loadSubmissions {submissions : List Submission} :
    Covers F (fun _ => True) (loadSubmissions submissions) :=
  seq (query fun r _ => reads_of_none (fun _ => rfl) r).weaken fun _ => pure trivial

theorem listAssignments {f : AssignmentFilter} {publishedOnly : Bool} :
    Covers F (fun _ => True) (listAssignments env rc f publishedOnly) :=
  seq (count fun r _ => reads_of_none (fun _ => rfl) r) fun _ =>
  seq (repoSelect fun _ => rfl).weaken fun _ => seq arrange.weaken fun _ =>
  seq sendPage fun _ => seq loadAssignments fun _ => pure trivial

theorem getBySubmission {submissionId : Uuid} :
    Covers F (fun _ => True) (getBySubmission rc submissionId) := by
  unfold LmsBackend.getBySubmission
  exact @repoFind F rc .grades _ fun _ => rfl

theorem saveGrade {tenantId : Uuid} {submission : Submission} {existing : Option Grade}
    {points maxPoints : Rat} {isAuto : Bool} {gradedBy : Option Uuid} {feedback : Option String}
    {gradedAt : Time} (hg : F.writes .grades) :
    Covers F (fun _ => True) (saveGrade s tenantId submission existing points maxPoints isAuto
      gradedBy feedback gradedAt) := by
  cases existing with
  | none => exact seq uuid4 fun _ => seq (add hg) fun _ => pure trivial
  | some grade => exact seq (updateRow hg) fun _ => pure trivial

theorem recordGrade {submission : Submission} {points maxPoints : Rat} {isAuto : Bool}
    {gradedBy : Option Uuid} {feedback : Option String} (h : F.InContext rc)
    (hg : F.writes .grades) (hs : F.writes .submissions) :
    Covers F (fun _ => True)
      (recordGrade env rc s submission points maxPoints isAuto gradedBy feedback) := by
  refine bind requireTenantId fun tid htid => ?_
  refine seq now fun _ => seq getBySubmission fun existing => ?_
  refine seq (saveGrade hg) fun _ => seq (updateRow hs) fun _ => seq flush fun _ => ?_
  exact seq (publish (h.binds tid htid) h.audit) fun _ => pure trivial

theorem gradeQuiz {a : LoadedAssignment} {submission : Submission}
    {answers : List (Uuid × List Uuid)} (h : F.InContext rc) (hg : F.writes .grades)
    (hs : F.writes .submissions) :
    Covers F (fun _ => True) (gradeQuiz env rc s a submission answers) := by
  unfold LmsBackend.gradeQuiz
  split
  · exact seq (recordGrade h hg hs) fun _ => pure trivial
  · exact pure trivial

theorem submit {assignmentId userId : Uuid} {data : SubmitRequest} (h : F.InContext rc)
    (hg : F.writes .grades) (hs : F.writes .submissions) :
    Covers F (fun _ => True) (submit env rc s assignmentId userId data) := by
  refine bind requireTenantId fun tid htid => ?_
  refine seq getAssignmentOr404 fun a => ?_
  split
  · exact raise _
  · refine seq now fun _ => seq uuid4 fun _ => seq (repoAdd hs) fun _ => ?_
    refine seq (publish (h.binds tid htid) h.audit) fun _ => seq (gradeQuiz h hg hs) fun _ => ?_
    exact seq (query fun r _ => reads_of_none (fun _ => rfl) r).weaken fun _ => pure trivial

theorem gradeSubmission {submissionId graderId : Uuid} {data : GradeRequest}
    (h : F.InContext rc) (hg : F.writes .grades) (hs : F.writes .submissions) :
    Covers F (fun _ => True) (gradeSubmission env rc s submissionId data graderId) := by
  refine seq (repoSelect fun _ => rfl).weaken fun _ => seq loadSubmissions fun _ => ?_
  refine seq scalarOneOrNone.weaken fun r => ?_
  cases r with
  | none => exact raise _
  | some r =>
    refine seq getAssignmentOr404 fun a => ?_
    split
    · exact raise _
    · exact recordGrade h hg hs

theorem listGrades {userId : Uuid} {params : PageParams} :
    Covers F (fun _ => True) (listGrades env rc userId params) :=
  seq (count fun r _ => reads_of_none (fun _ => rfl) r) fun _ =>
  seq (repoSelect fun _ => rfl).weaken fun _ => seq arrange.weaken fun _ =>
  seq sendPage fun _ => pure trivial

theorem listSubmissionsForAssignment {assignmentId : Uuid} :
    Covers F (fun _ => True) (listSubmissionsForAssignment env rc assignmentId) :=
  seq (repoSelect fun _ => rfl).weaken fun _ => seq arrange.weaken fun _ => loadSubmissions

/-! ## Dashboard and reports -/

theorem dashboard {userId : Uuid} : Covers F (fun _ => True) (dashboard env userId) :=
  seq (count fun r _ => reads_of_none (fun _ => rfl) r) fun _ =>
  seq (count fun r _ => reads_of_none (fun _ => rfl) r) fun _ =>
  seq (count fun r _ => reads_of_none (fun _ => rfl) r) fun _ =>
  seq (perform (.db (.select .assignments _)) fun _ r _ => reads_of_none (fun _ => rfl) r) fun _ =>
  seq (queryAll fun r _ => reads_of_none (fun _ => rfl) r) fun _ => pure trivial

theorem tenantReport (h : ∀ tid, rc.tenantId = some tid → F.platform tid) :
    Covers F (fun _ => True) (tenantReport env rc) := by
  refine bind requireTenantId fun tid htid => ?_
  refine seq (enabledCodes (h tid htid)) fun _ => ?_
  exact seq (count fun r _ => reads_of_none (fun _ => rfl) r) fun _ =>
    seq (count fun r _ => reads_of_none (fun _ => rfl) r) fun _ =>
    seq (count fun r _ => reads_of_none (fun _ => rfl) r) fun _ =>
    seq (count fun r _ => reads_of_none (fun _ => rfl) r) fun _ => pure trivial

/-! ## Administration -/

theorem createLesson {courseId : Uuid} {data : AdminLessonCreate} (hl : F.writes .lessons) :
    Covers F (fun _ => True) (createLesson rc courseId data) :=
  seq getCourse fun _ => seq requireTenantId.weaken fun _ => seq uuid4 fun _ =>
  seq (repoAdd hl) fun _ => pure trivial

theorem parseDueAt {dueAt : Option String} :
    Covers F (fun _ => True) (parseDueAt dueAt) := by
  unfold LmsBackend.parseDueAt
  split
  · exact pure trivial
  · split
    · exact pure trivial
    · exact raise _

theorem encodeDueAt {t : Option IsoFormat.DateTime} :
    Covers F (fun _ => True) (encodeDueAt env t) := by
  unfold LmsBackend.encodeDueAt
  split
  · exact pure trivial
  · split
    · exact pure trivial
    · exact raise _

theorem createAssignment {courseId : Uuid} {data : AdminAssignmentCreate}
    (ha : F.writes .assignments) :
    Covers F (fun _ => True) (createAssignment env rc s courseId data) :=
  seq getCourse fun _ => seq parseDueAt fun _ => seq requireTenantId.weaken fun _ =>
  seq uuid4 fun _ => seq encodeDueAt fun _ => seq (repoAdd ha) fun _ => pure trivial

theorem listAssignmentRows {f : AssignmentFilter} :
    Covers F (fun _ => True) (listAssignmentRows env rc f) :=
  seq (count fun r _ => reads_of_none (fun _ => rfl) r) fun _ =>
  seq (repoSelect fun _ => rfl).weaken fun _ => seq arrange.weaken fun _ =>
  seq sendPage fun _ => seq loadAssignments fun _ => pure trivial

theorem assignRoles {user : LoadedUser} {roles : List LoadedRole} (h : F.writes .userRoles) :
    Covers F (fun _ => True) (assignRoles user roles) := by
  refine seq (forEach fun r _ => seq (sqlDelete h) fun n => ?_) fun _ =>
    forEach fun r _ => insertRow h
  match n with
  | .ok 0 => exact raise _
  | .ok (_ + 1) => exact pure trivial
  | .error _ => exact raise _

theorem createUser {data : AdminUserCreate} (h : F.InContext rc) (hu : F.writes .users)
    (hr : F.writes .userRoles) : Covers F (fun _ => True) (createUser env rc s data) := by
  refine bind requireTenantId fun tid htid => ?_
  refine seq getByEmail fun u => ?_
  cases u with
  | some _ => exact raise _
  | none =>
    have hroles : Covers F (fun _ => True) (rolesOf rc data.roleCodes) := by
      unfold rolesOf
      split
      · exact pure trivial
      · exact getRolesByCodes
    refine seq hashPassword fun _ => seq uuid4 fun _ => seq (repoAdd hu) fun _ => ?_
    refine seq hroles fun roles => seq (assignRoles hr) fun _ => ?_
    exact seq (publish (h.binds tid htid) h.audit) fun _ => pure trivial

theorem updateUser {userId : Uuid} {data : AdminUserUpdate} (h : F.InContext rc)
    (hu : F.writes .users) (hr : F.writes .userRoles) :
    Covers F (fun _ => True) (updateUser env rc s userId data) := by
  refine seq getUserOr404 fun user => ?_
  have hroles : Covers F (fun _ => True) (newRoles rc user data.roleCodes) := by
    cases data.roleCodes with
    | some codes => exact getRolesByCodes
    | none => exact pure trivial
  have hsave : Covers F (fun _ => True) (saveUser s user.user data) := by
    unfold saveUser
    split
    · exact pure trivial
    · exact updateRow hu
  refine seq hroles fun roles => ?_
  split
  · exact raise _
  · refine seq hsave fun _ => seq (assignRoles hr) fun _ => ?_
    refine bind requireTenantId fun tid htid => ?_
    exact seq (publish (h.binds tid htid) h.audit) fun _ => pure trivial

/-! ## Platform-level work -/

theorem getTenantBySlug {slug : String} (h : ∀ u, F.platform u) :
    Covers F (fun _ => True) (getTenantBySlug slug) :=
  seq (query fun _ _ _ _ => h _).weaken fun _ => scalarOneOrNone.weaken

theorem setLicense {tenantId : Uuid} {code : ModuleCode} {enabled : Bool}
    (h : ∀ u, F.platform u) (hw : F.writes .tenantModules) :
    Covers F (fun _ => True) (setLicense env s tenantId code enabled) := by
  refine seq (query fun r _ => reads_of_none (fun _ => rfl) r).weaken fun _ => ?_
  refine seq scalarOneOrNone.weaken fun m => ?_
  cases m with
  | none => exact raise _
  | some m =>
    refine seq (query fun _ _ _ _ => h _).weaken fun _ => seq scalarOneOrNone.weaken fun tm => ?_
    have hsave : Covers F (fun _ => True) (saveLicense s tenantId m.id tm enabled) := by
      refine seq now fun _ => ?_
      cases tm with
      | none => exact seq uuid4 fun _ => add hw
      | some tm => exact updateRow hw
    refine seq hsave fun _ => seq flush fun _ => ?_
    unfold invalidate
    split
    · exact perform (.redisDelete _) trivial
    · exact pure trivial

theorem createTenant {data : TenantCreate} (hb : F.Binds none true) (h : ∀ u, F.platform u)
    (ht : F.writes .tenants) (hm : F.writes .tenantModules) (hu : F.writes .users) :
    Covers F (fun _ => True) (createTenant env data) := by
  refine tenantSession hb fun s => seq (getTenantBySlug h) fun t => ?_
  cases t with
  | some _ => exact raise _
  | none =>
    have hrow : Covers F (fun _ => True) (createTenantRow data.name data.slug) :=
      seq uuid4 fun _ => seq (add ht) fun _ => seq flush fun _ => pure trivial
    refine seq hrow fun tenant => seq (forEach fun code _ => setLicense h hm) fun _ => ?_
    exact seq hashPassword fun _ => seq uuid4 fun _ => seq (add hu) fun _ => seq flush fun _ =>
      pure trivial

theorem listTenants (hb : F.Binds none true) (h : ∀ u, F.platform u) :
    Covers F (fun _ => True) (listTenants env) := by
  refine tenantSession hb fun _ => ?_
  unfold listAllTenants
  exact @queryAll F env .tenants _ fun _ _ _ _ => h _

theorem mapM {α β : Type} {f : α → M β} (h : ∀ a, Covers F (fun _ => True) (f a)) :
    ∀ as : List α, Covers F (fun _ => True) (as.mapM f)
  | [] => pure trivial
  | a :: as => by
    rw [List.mapM_cons]
    exact seq (h a) fun _ => seq (mapM h as) fun _ => pure trivial

theorem listModules {tenantId : Uuid} (hb : F.Binds none true) (h : ∀ u, F.platform u) :
    Covers F (fun _ => True) (listModules env tenantId) := by
  refine tenantSession hb fun _ => seq (enabledCodes (h tenantId)) fun enabled => ?_
  refine seq (queryAll fun r _ => reads_of_none (fun _ => rfl) r) fun modules => ?_
  refine mapM (fun m => ?_) modules
  split
  · exact pure trivial
  · exact raise _

theorem setModule {tenantId : Uuid} {code : ModuleCode} {enabled : Bool}
    (hb : F.Binds none true) (h : ∀ u, F.platform u) (hw : F.writes .tenantModules) :
    Covers F (fun _ => True) (setModule env tenantId code enabled) := by
  unfold LmsBackend.setModule
  split
  · exact raise _
  · refine tenantSession hb fun s => seq (query fun _ _ _ _ => h _).weaken fun rows => ?_
    split
    · exact raise _
    · exact setLicense h hw

theorem resolveTenantId {identifier : String} (hb : F.Binds none true)
    (h : ∀ u, F.platform u) : Covers F (fun _ => True) (resolveTenantId env identifier) := by
  have hslug : Covers F (fun _ => True) (resolveSlug env identifier) := by
    refine tenantSession hb fun _ => seq (getTenantBySlug h) fun t => ?_
    cases t with
    | none => exact pure trivial
    | some t =>
      have hcache : Covers F (fun _ => True) (cacheSlug env identifier t.id) := by
        unfold cacheSlug
        split
        · exact perform (.redisSet _ _ _) trivial
        · exact pure trivial
      dsimp only
      split
      · exact seq hcache fun _ => pure trivial
      · exact pure trivial
  unfold LmsBackend.resolveTenantId
  split
  · exact pure trivial
  · split
    · refine seq (perform (.redisGet _) trivial) fun cached => ?_
      split
      · exact pure trivial
      · exact hslug
    · exact hslug

/-! ## Routes -/

/-- What a route's function needs of a footprint, in a context. -/
structure Serves (F : Footprint) (rc : RequestContext) (e : Endpoint) : Prop where
  binds : ∀ tid, rc.tenantId = some tid → F.Binds (some tid) false
  platform : ∀ tid, rc.tenantId = some tid → F.platform tid
  writes : ∀ t ∈ e.writes, F.writes t
  resets : ∀ token, e.resets token → F.resets token

theorem Serves.inContext {e : Endpoint} (h : Serves F rc e) (ha : Table.auditLogs ∈ e.writes) :
    F.InContext rc :=
  ⟨h.binds, h.writes _ ha⟩

theorem publicHandler {req : Request} (h : Serves F rc req.endpoint) :
    Covers F (fun _ => True) (publicHandler env rc s req) := by
  obtain ⟨headers, client, e, valid⟩ := req
  have hw : ∀ t, t ∈ e.writes → F.writes t := h.writes
  cases e with
  | register data =>
    exact seq (register (h.inContext (by simp [Endpoint.writes])) (hw .users (by simp [Endpoint.writes]))
      (hw .userRoles (by simp [Endpoint.writes]))) fun _ => pure trivial
  | login data =>
    exact seq (login (h.inContext (by simp [Endpoint.writes])) (hw .users (by simp [Endpoint.writes]))
      (hw .userSessions (by simp [Endpoint.writes]))) fun _ => pure trivial
  | refresh token => exact seq (refresh (hw .userSessions (by simp [Endpoint.writes]))) fun _ => pure trivial
  | logout token => exact seq (logout (hw .userSessions (by simp [Endpoint.writes]))) fun _ => pure trivial
  | forgotPassword email =>
    refine seq (forgotPassword fun token => h.resets token trivial) fun token => ?_
    cases token with
    | none => exact pure trivial
    | some token =>
      dsimp only
      split
      · exact pure trivial
      · exact pure trivial
  | resetPassword token newPassword =>
    exact seq (resetPassword (hw .users (by simp [Endpoint.writes])) (hw .userSessions (by simp [Endpoint.writes]))
      (h.resets token rfl)) fun _ => pure trivial
  | _ => exact pure trivial

theorem userHandler {e : Endpoint} {user : LoadedUser} (h : Serves F rc e) :
    Covers F (fun _ => True) (userHandler env rc s user e) := by
  have hw := h.writes
  cases e with
  | listCourses f => exact seq listCourses fun _ => pure trivial
  | getCourse courseId => exact seq getCourse fun _ => pure trivial
  | enroll courseId =>
    exact seq (enroll (h.inContext (by simp [Endpoint.writes])) (hw .courses (by simp [Endpoint.writes]))
      (hw .courseEnrollments (by simp [Endpoint.writes]))) fun _ => pure trivial
  | listLessons courseId => exact seq listLessons fun _ => pure trivial
  | completeLesson lessonId position =>
    exact seq (completeLesson (h.inContext (by simp [Endpoint.writes])) (hw .lessonProgress (by simp [Endpoint.writes]))) fun _ =>
      pure trivial
  | myProgress params => exact seq myProgress fun _ => pure trivial
  | listAssignments f => exact seq listAssignments fun _ => pure trivial
  | getAssignment assignmentId => exact seq getAssignmentOr404 fun _ => pure trivial
  | submit assignmentId data =>
    exact seq (submit (h.inContext (by simp [Endpoint.writes])) (hw .grades (by simp [Endpoint.writes]))
      (hw .submissions (by simp [Endpoint.writes]))) fun _ => pure trivial
  | grade submissionId data =>
    exact seq (gradeSubmission (h.inContext (by simp [Endpoint.writes])) (hw .grades (by simp [Endpoint.writes]))
      (hw .submissions (by simp [Endpoint.writes]))) fun _ => pure trivial
  | listSubmissions assignmentId => exact seq listSubmissionsForAssignment fun _ => pure trivial
  | myGrades params => exact seq listGrades fun _ => pure trivial
  | dashboard => exact seq dashboard fun _ => pure trivial
  | listAdminCourses f => exact seq listCourses fun _ => pure trivial
  | getAdminCourse courseId => exact seq getCourse fun _ => pure trivial
  | createCourse data =>
    exact seq (createCourse (h.inContext (by simp [Endpoint.writes])) (hw .courses (by simp [Endpoint.writes]))) fun _ =>
      pure trivial
  | updateCourse courseId data =>
    exact seq (updateCourse (hw .courses (by simp [Endpoint.writes]))) fun _ => pure trivial
  | deleteCourse courseId =>
    exact seq (deleteCourse (hw .courses (by simp [Endpoint.writes]))) fun _ => pure trivial
  | getAdminCourseLessons courseId => exact seq listLessons fun _ => pure trivial
  | createAdminCourseLesson courseId data =>
    exact seq (createLesson (hw .lessons (by simp [Endpoint.writes]))) fun _ => pure trivial
  | getAdminCourseAssignments courseId => exact seq listAssignmentRows fun _ => pure trivial
  | createAdminCourseAssignment courseId data =>
    exact seq (createAssignment (hw .assignments (by simp [Endpoint.writes]))) fun _ => pure trivial
  | listUsers params => exact seq listUserRows fun _ => pure trivial
  | createUser data =>
    exact seq (createUser (h.inContext (by simp [Endpoint.writes])) (hw .users (by simp [Endpoint.writes]))
      (hw .userRoles (by simp [Endpoint.writes]))) fun _ => pure trivial
  | updateUser userId data =>
    exact seq (updateUser (h.inContext (by simp [Endpoint.writes])) (hw .users (by simp [Endpoint.writes]))
      (hw .userRoles (by simp [Endpoint.writes]))) fun _ => pure trivial
  | reports => exact seq (tenantReport h.platform) fun _ => pure trivial
  | _ => exact pure trivial

theorem resolveOr404 {tenantId : String} (hb : F.Binds none true) (h : ∀ u, F.platform u) :
    Covers F (fun _ => True) (resolveOr404 env tenantId) := by
  refine seq (resolveTenantId hb h) fun u => ?_
  cases u with
  | some u => exact pure trivial
  | none => exact raise _

theorem tenantAdminHandler {e : Endpoint} (hb : F.Binds none true) (h : ∀ u, F.platform u)
    (hw : ∀ t ∈ e.writes, F.writes t) :
    Covers F (fun _ => True) (tenantAdminHandler env e) := by
  cases e with
  | createTenant data =>
    exact seq (createTenant hb h (hw .tenants (by simp [Endpoint.writes])) (hw .tenantModules (by simp [Endpoint.writes]))
      (hw .users (by simp [Endpoint.writes]))) fun _ => pure trivial
  | listTenants => exact seq (listTenants hb h) fun _ => pure trivial
  | listTenantModules tenantId =>
    exact seq (resolveOr404 hb h) fun _ => seq (listModules hb h) fun _ => pure trivial
  | toggleTenantModule tenantId code enabled =>
    exact seq (resolveOr404 hb h) fun _ =>
      seq (setModule hb h (hw .tenantModules (by simp [Endpoint.writes]))) fun _ => pure trivial
  | _ => exact pure trivial

end Covers

end LmsBackend
