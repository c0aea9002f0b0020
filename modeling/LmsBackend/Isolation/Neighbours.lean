import LmsBackend.Isolation.Beside

/-!
# The rows of other tenants

- `serve_avoids`: a request in another context than that of the tenant `B` leaves the rows of `B`
  alone.
- `Run.avoids`: over every run of such requests, the rows of `B` stay as they are.
- `route_touches`: the same of the statements of one request, the reads among them.
-/

namespace LmsBackend

open Mvcc

variable {env : Env} {w w' w₀ : World} {req : Request} {rc : RequestContext} {s : Session}
  {tx : Tx} {B : Uuid}

namespace Avoids

/-! ### The services of learning and administration -/

theorem enroll {courseId userId : Uuid} (hrls : env.settings.enableRowLevelSecurity = true)
    (hother : rc.tenantId ≠ some B) : Avoids env B (enroll env rc s courseId userId) := by
  refine requireTenantId hother fun tid htid => (of_quiet Quiet.repoGetOr404).bind fun course => ?_
  split
  · exact raise _
  · refine (of_quiet Quiet.getForUserCourse).bind fun existing => ?_
    split
    · exact raise _
    · refine (of_quiet Quiet.now).bind fun now => (of_quiet Quiet.uuid4).bind fun id => ?_
      exact bind repoAdd fun _ => bind (updateRow fun _ => rfl) fun _ =>
        (publish hrls htid).bind fun _ => pure _

theorem completeLesson {lessonId userId : Uuid} {position : Int}
    (hrls : env.settings.enableRowLevelSecurity = true) (hother : rc.tenantId ≠ some B) :
    Avoids env B (completeLesson env rc s lessonId userId position) := by
  refine requireTenantId hother fun tid htid => (of_quiet Quiet.repoFind).bind fun lesson => ?_
  refine (of_quiet Quiet.loadLessons).bind fun _ => ?_
  cases lesson with
  | none => exact raise _
  | some lesson =>
    refine (of_quiet Quiet.repoFind).bind fun progress => bind ?_ fun progress =>
      (publish hrls htid).bind fun _ => pure _
    refine (of_quiet Quiet.now).bind fun now => ?_
    cases progress with
    | none => exact (of_quiet Quiet.uuid4).bind fun id => bind repoAdd fun _ => pure _
    | some progress => exact bind (updateRow fun _ => rfl) fun _ => pure _

theorem recordGrade {submission : Submission} {points maxPoints : Rat} {isAuto : Bool}
    {gradedBy : Option Uuid} {feedback : Option String}
    (hrls : env.settings.enableRowLevelSecurity = true) (hother : rc.tenantId ≠ some B) :
    Avoids env B
      (recordGrade env rc s submission points maxPoints isAuto gradedBy feedback) := by
  refine requireTenantId hother fun tid htid => (of_quiet Quiet.now).bind fun now => ?_
  refine (of_quiet Quiet.repoFind).bind fun existing => bind ?_ fun grade => ?_
  · cases existing with
    | none => exact (of_quiet Quiet.uuid4).bind fun id => bind add fun _ => pure _
    | some grade => exact bind (updateRow fun _ => rfl) fun _ => pure _
  · exact bind (updateRow fun _ => rfl) fun _ => bind flush fun _ =>
      (publish hrls htid).bind fun _ => pure _

theorem submit {assignmentId userId : Uuid} {data : SubmitRequest}
    (hrls : env.settings.enableRowLevelSecurity = true) (hother : rc.tenantId ≠ some B) :
    Avoids env B (submit env rc s assignmentId userId data) := by
  refine requireTenantId hother fun tid htid => (of_quiet Quiet.getAssignmentOr404).bind fun a => ?_
  split
  · exact raise _
  · refine (of_quiet Quiet.now).bind fun now => (of_quiet Quiet.uuid4).bind fun id => ?_
    refine bind repoAdd fun _ => (publish hrls htid).bind fun _ => bind ?_ fun _ =>
      (of_quiet Quiet.query).bind fun _ => pure _
    unfold gradeQuiz
    split
    · exact (recordGrade hrls hother).bind fun _ => pure _
    · exact pure _

theorem gradeSubmission {submissionId graderId : Uuid} {data : GradeRequest}
    (hrls : env.settings.enableRowLevelSecurity = true) (hother : rc.tenantId ≠ some B) :
    Avoids env B (gradeSubmission env rc s submissionId data graderId) := by
  refine (of_quiet Quiet.query).bind fun rows => ?_
  refine (of_quiet Quiet.loadSubmissions).bind fun rows => ?_
  refine (of_quiet Quiet.scalarOneOrNone).bind fun found => ?_
  match found with
  | none => exact raise _
  | some (submission, _) =>
    refine (of_quiet Quiet.getAssignmentOr404).bind fun a => ?_
    split
    · exact raise _
    · exact recordGrade hrls hother

theorem createCourse {data : CourseCreate} (hrls : env.settings.enableRowLevelSecurity = true)
    (hother : rc.tenantId ≠ some B) : Avoids env B (createCourse env rc s data) := by
  refine requireTenantId hother fun tid htid => (of_quiet Quiet.query).bind fun rows => ?_
  split
  · exact raise _
  · exact (of_quiet Quiet.uuid4).bind fun id => bind repoAdd fun _ =>
      (publish hrls htid).bind fun _ => pure _

theorem updateCourse {courseId : Uuid} {data : CourseUpdate} :
    Avoids env B (updateCourse rc s courseId data) := by
  refine (of_quiet Quiet.repoGetOr404).bind fun course => bind ?_ fun publishedAt => ?_
  · unfold publicationDate
    split
    · exact (of_quiet Quiet.now).bind fun _ => pure _
    · exact pure _
  · split
    · exact raise _
    · dsimp only
      split
      · exact pure _
      · exact bind (updateRow fun _ => rfl) fun _ => pure _

theorem deleteCourse {courseId : Uuid} : Avoids env B (deleteCourse rc s courseId) :=
  (of_quiet Quiet.repoGetOr404).bind fun _ => updateRow fun _ => rfl

theorem createLesson {courseId : Uuid} {data : AdminLessonCreate} :
    Avoids env B (createLesson rc courseId data) :=
  (of_quiet Quiet.getCourse).bind fun _ => (of_quiet Quiet.requireTenantId).bind fun _ =>
    (of_quiet Quiet.uuid4).bind fun _ => bind repoAdd fun _ => pure _

theorem createAssignment {courseId : Uuid} {data : AdminAssignmentCreate} :
    Avoids env B (createAssignment env rc s courseId data) :=
  (of_quiet Quiet.getCourse).bind fun _ => (of_quiet Quiet.parseDueAt).bind fun _ =>
    (of_quiet Quiet.requireTenantId).bind fun _ => (of_quiet Quiet.uuid4).bind fun _ =>
      (of_quiet Quiet.encodeDueAt).bind fun _ => bind repoAdd fun _ => pure _

theorem assignRoles {user : LoadedUser} {roles : List LoadedRole} :
    Avoids env B (assignRoles user roles) := by
  refine bind (forEach fun r => ?_) fun _ => forEach fun r => insertRow
  refine bind sqlDelete fun n => ?_
  match n with
  | .ok 0 => exact raise _
  | .ok (_ + 1) => exact pure _
  | .error _ => exact raise _

theorem createUser {data : AdminUserCreate} (hrls : env.settings.enableRowLevelSecurity = true)
    (hother : rc.tenantId ≠ some B) : Avoids env B (createUser env rc s data) := by
  refine requireTenantId hother fun tid htid => (of_quiet Quiet.findUser).bind fun u => ?_
  cases u with
  | some _ => exact raise _
  | none =>
    refine (of_quiet Quiet.hashPassword).bind fun hashed => (of_quiet Quiet.uuid4).bind fun id => ?_
    refine bind repoAdd fun _ => bind ?_ fun roles => bind assignRoles fun _ =>
      (publish hrls htid).bind fun _ => pure _
    unfold rolesOf
    split
    · exact pure _
    · exact of_quiet Quiet.getRolesByCodes

theorem updateUser {userId : Uuid} {data : AdminUserUpdate}
    (hrls : env.settings.enableRowLevelSecurity = true) (hother : rc.tenantId ≠ some B) :
    Avoids env B (updateUser env rc s userId data) := by
  refine (of_quiet Quiet.getUserOr404).bind fun user => bind ?_ fun roles => ?_
  · unfold newRoles
    split
    · exact of_quiet Quiet.getRolesByCodes
    · exact pure _
  · split
    · exact raise _
    · refine bind ?_ fun _ => bind assignRoles fun _ => requireTenantId hother fun tid htid =>
        (publish hrls htid).bind fun _ => pure _
      unfold saveUser
      split
      · exact pure _
      · exact updateRow fun _ => rfl

/-- The path operation functions of the routes that write, in another context. -/
theorem handler {caller : Option Caller} (hrls : env.settings.enableRowLevelSecurity = true)
    (hother : rc.tenantId ≠ some B)
    (henriched : ∀ c, caller = some c → (rc.enrich c).tenantId = rc.tenantId)
    (hadmin : req.endpoint.isTenantAdmin = false) (hwrites : req.endpoint.writes ≠ []) :
    Avoids env B (handler env rc s req caller) := by
  obtain ⟨headers, client, endpoint, valid⟩ := req
  cases caller with
  | none =>
    cases endpoint with
    | register data => exact (register hrls hother).bind fun _ => pure _
    | login data => exact (login hrls hother).bind fun _ => pure _
    | refresh token => exact bind refresh fun _ => pure _
    | logout token => exact bind logout fun _ => pure _
    | resetPassword token newPassword => exact bind resetPassword fun _ => pure _
    | forgotPassword email => exact (hwrites rfl).elim
    | _ => exact pure _
  | some c =>
    have hother' : (rc.enrich c).tenantId ≠ some B := (henriched c rfl).symm ▸ hother
    cases endpoint with
    | enroll courseId => exact (enroll hrls hother').bind fun _ => pure _
    | completeLesson lessonId position => exact (completeLesson hrls hother').bind fun _ => pure _
    | submit assignmentId data => exact (submit hrls hother').bind fun _ => pure _
    | grade submissionId data => exact (gradeSubmission hrls hother').bind fun _ => pure _
    | createCourse data => exact (createCourse hrls hother').bind fun _ => pure _
    | updateCourse courseId data => exact bind updateCourse fun _ => pure _
    | deleteCourse courseId => exact bind deleteCourse fun _ => pure _
    | createAdminCourseLesson courseId data => exact bind createLesson fun _ => pure _
    | createAdminCourseAssignment courseId data => exact bind createAssignment fun _ => pure _
    | createUser data => exact (createUser hrls hother').bind fun _ => pure _
    | updateUser userId data => exact (updateUser hrls hother').bind fun _ => pure _
    | createTenant data => cases hadmin
    | toggleTenantModule tenantId code enabled => cases hadmin
    | register data => exact pure _
    | login data => exact pure _
    | refresh token => exact pure _
    | logout token => exact pure _
    | resetPassword token newPassword => exact pure _
    | _ => exact (hwrites rfl).elim

end Avoids

/-! ## Requests in other contexts -/

/-- **One request** in another context, but for the tenant administration, leaves the rows of the
tenant as they are, and their keys to them. -/
theorem serve_avoids (hrls : env.settings.enableRowLevelSecurity = true) (hkeys : OwnKeys B w)
    (hadmin : req.endpoint.isTenantAdmin = false) (hother : ctxTenant env w req ≠ some B) :
    hidden (belongs B) (serve env w req).2.db = hidden (belongs B) w.db ∧
      OwnKeys B (serve env w req).2 := by
  by_cases hwrites : req.endpoint.writes = []
  · have hdb : (serve env w req).2.db = w.db :=
      funext fun t => serve_frame env w req (by rw [hwrites]; exact List.not_mem_nil)
    rw [OwnKeys, hdb]
    exact ⟨rfl, hkeys⟩
  · have hrouted : req.endpoint.routed := by
      obtain ⟨headers, client, endpoint, valid⟩ := req
      cases endpoint <;> trivial
    obtain ⟨e, w', heq, hstill⟩ | ⟨rc, caller, s, w', hadm, heq⟩ := @serve_cases env w req hrouted
    · rw [heq, OwnKeys, hstill.db]
      exact ⟨rfl, hkeys⟩
    · rw [hadm.tenant] at hother
      have hsec : Secluded schema (belongs B) w'.db (requestTx env rc) := by
        rw [hadm.still.db]
        exact ⟨boundTx_hides hrls hother, hkeys, fun x hx => by cases hx⟩
      have hcaller : ∀ c, caller = some c → (rc.enrich c).tenantId = rc.tenantId := by
        rintro c rfl
        exact hadm.known.enrich_tenant
      obtain ⟨w₁, tx₁, hstate, hsec₁, hsame⟩ :=
        (Avoids.handler (s := s) hrls hother hcaller hadmin hwrites).run w' _ [] hsec
      rcases hrun : runM env (handler env rc s req caller) (w', [requestTx env rc]) with ⟨r, s₁⟩
      rw [hrun] at hstate heq
      obtain rfl := hstate
      rw [hadm.still.db] at hsame
      rw [heq]
      cases r with
      | error e => exact ⟨hsame, hsec₁.apart⟩
      | ok body =>
        obtain ⟨hcommit, hkeys'⟩ := Avoids.committed_same (w := w₁) hsec₁
        have hfinish : (finish env (Except.ok body, (w₁, [tx₁]))).2 = committed w₁ tx₁ := by
          show (runM env commitSession (w₁, [tx₁])).2.1 = _
          rw [runM_commitSession]
        rw [hfinish]
        exact ⟨hcommit.trans hsame, hkeys'⟩

/-- **The rows of a tenant** are the same after any run of requests in other contexts, however many
and of whatever tenants, but for the tenant administration. -/
theorem Run.avoids {h : List Exchange} {Ok : List Exchange → World → Request → Prop}
    (hr : Run env Ok w₀ h w) (hrls : env.settings.enableRowLevelSecurity = true)
    (hkeys : ∀ t, ((w₀.db t).map (keyOf t)).Nodup)
    (hok : ∀ h w req, Ok h w req →
      req.endpoint.isTenantAdmin = false ∧ ctxTenant env w req ≠ some B) :
    ∀ t, (w.db t).filter (belongs B t) = (w₀.db t).filter (belongs B t) := by
  have hrun : hidden (belongs B) w.db = hidden (belongs B) w₀.db ∧ OwnKeys B w := by
    induction hr with
    | start => exact ⟨rfl, .of_nodup hkeys⟩
    | serve req run ok ih =>
      obtain ⟨hadmin, hother⟩ := hok _ _ _ ok
      obtain ⟨hsame, hkeys'⟩ := serve_avoids hrls ih.2 hadmin hother
      exact ⟨hsame.trans ih.1, hkeys'⟩
  exact congrFun hrun.1

namespace Neighbours

/-- Two tenants with an account each, which have the same address. -/
def tables : Database Row
  | .tenants => [{ id := 1, name := "A", slug := "a" }, { id := 2, name := "B", slug := "b" }]
  | .users =>
    [{ id := 3, tenantId := 1, email := "s@x.com", hashedPassword := "#Secret123", createdAt := 0,
       updatedAt := 0 },
     { id := 4, tenantId := 2, email := "s@x.com", hashedPassword := "#Secret123", createdAt := 0,
       updatedAt := 0 }]
  | _ => []

/-- The account of the first tenant logs in. -/
def entering : Request where
  headers := [("x-request-id", "r"), ("x-tenant-id", "a")]
  endpoint := .login ⟨"s@x.com", "Secret123"⟩

/-- Requests in other contexts than that of the second tenant. -/
def Elsewhere (_ : List Exchange) (w : World) (req : Request) : Prop :=
  req.endpoint.isTenantAdmin = false ∧ ctxTenant (Env.reference {}) w req ≠ some 2

end Neighbours

open Neighbours in
/-- A login in one tenant leaves the account of the other one alone. -/
theorem login_avoids :
    ((serve (Env.reference {}) (World.fresh 1 tables) entering).2.db .users).filter
        (belongs 2 .users) =
      (tables .users).filter (belongs 2 .users) := by
  have hctx : ctxTenant (Env.reference {}) (World.fresh 1 tables) entering ≠ some 2 := by
    decide +kernel
  have hrun : Run (Env.reference {}) Elsewhere (World.fresh 1 tables) _ _ :=
    .serve entering .start ⟨rfl, hctx⟩
  exact hrun.avoids rfl (fun t => by cases t <;> decide) (fun _ _ _ hok => hok) .users

/-! ## Statements -/

/-- **Behind the middleware**, every statement of a request reads, inserts, updates and deletes only
rows of the tenant of its context, in the tables under row-level security; in a context without a
tenant it finds none there. -/
theorem route_touches {w₁ : World}
    (hrc : runM env (requestContext env req.headers req.client) (w, []) = (.ok rc, (w₁, [])))
    (hadmin : req.endpoint.isTenantAdmin = false) :
    ∀ e ∈ traceM env (route env rc req) (w₁, []), ∀ x ∈ touchedBy e.1 e.2, x.1 ∈ rlsTables →
      ∃ tid, ctxTenant env w req = some tid ∧ tenantOf x.1 x.2 = some tid := by
  have hplain : rc.isSuperadmin = false := requestContext_ok hrc
  have hctx : ctxTenant env w req = rc.tenantId := by rw [ctxTenant, hrc]
  let F := Footprint.tenant rc.tenantId (fun _ => True) fun _ => True
  have hcovers : Covers F (fun _ => True) (route env rc req) := by
    have hbinds : ∀ {t : Option Uuid} tid, rc.tenantId = some tid → t = some tid →
        F.Binds t false := by
      rintro t tid htid rfl
      exact htid ▸ Footprint.binds_tenant
    have hserves : ∀ rc' : RequestContext, rc'.tenantId = rc.tenantId →
        Covers.Serves F rc' req.endpoint := fun rc' heq =>
      ⟨fun tid htid => hbinds tid (heq.symm.trans htid) rfl, fun tid htid => heq.symm.trans htid,
        fun _ _ => trivial, fun _ _ => trivial⟩
    have hhosts : Covers.Hosts F rc req := by
      refine ⟨hserves rc rfl, fun c hc _ => hserves _ ?_, fun h => absurd h (by simp [hadmin])⟩
      -- who is seen belongs to the tenant of the context
      obtain ⟨tid, htid, -⟩ := Footprint.sees_tenant hc (by simp [rlsTables])
      simp [RequestContext.enrich, htid]
    have hsession : F.Binds ((some rc).bind (·.tenantId))
        (((some rc).map (·.isSuperadmin)).getD false) := by
      show F.Binds rc.tenantId rc.isSuperadmin
      rw [hplain]
      exact Footprint.binds_tenant
    unfold route
    split
    · exact .pure trivial
    · exact .seq .beginSession fun _ => .seq .sqlRollback fun _ => .pure trivial
    · exact .seq .limitRate fun _ => .getDb hsession fun s => .operation hhosts fun _ => trivial
  intro e he x hx hrls
  rw [hctx]
  exact Footprint.sees_tenant ((hcovers.trace_touched w₁ e he).2 x hx) hrls

open Neighbours in
/-- The statements of a login in the first tenant. -/
theorem login_touches : ∃ rc w₁, runM (Env.reference {})
      (requestContext (Env.reference {}) entering.headers entering.client)
      (World.fresh 1 tables, []) =
        (.ok rc, (w₁, [])) ∧
    ∀ e ∈ traceM (Env.reference {}) (route (Env.reference {}) rc entering) (w₁, []),
      ∀ x ∈ touchedBy e.1 e.2, x.1 ∈ rlsTables → tenantOf x.1 x.2 = some 1 := by
  have hctx : ctxTenant (Env.reference {}) (World.fresh 1 tables) entering = some 1 := by
    decide +kernel
  obtain ⟨w₁, hrc, -, -⟩ :=
    (@Quiet.requestContext (Env.reference {}) entering.headers entering.client).run
      (World.fresh 1 tables) []
  cases hr : (runM (Env.reference {})
      (requestContext (Env.reference {}) entering.headers entering.client)
      (World.fresh 1 tables, [])).1 with
  | error e =>
    rw [ctxTenant, hr] at hctx
    cases hctx
  | ok rc =>
    rw [hr] at hrc
    refine ⟨rc, w₁, hrc, fun e he x hx hrls => ?_⟩
    obtain ⟨tid, htid, htenant⟩ := route_touches hrc rfl e he x hx hrls
    exact htenant.trans (htid.symm.trans hctx)

end LmsBackend
