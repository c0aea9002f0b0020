import LmsBackend.Isolation.Gateway

/-!
# The admin surface

Which callers the routes under `/api/v1/admin` turn away.

- `Learner db tid u`: an account without `admin:access`, "Access the admin module".
- `TurnedAway env w req`: the route's path operation function is not called, and the
  request is answered with an error.
- `admin_turns_away_iff`: a learner is turned away exactly where the licence or one of the
  route's own codes is missing. No route asks for `admin:access` itself
  (`admin_access_unasked`).
-/

namespace LmsBackend

open Mvcc

variable {env : Env} {w : World} {req : Request}

/-- A role of the tenant grants the account the permission. -/
def HoldsIn (db : Database Row) (tenantId userId : Uuid) (code : String) : Prop :=
  ∃ ur ∈ db .userRoles, ∃ r ∈ db .roles,
    ur.userId = userId ∧ ur.roleId = r.id ∧ r.tenantId = tenantId ∧ Grants db r.id code

/-- An account that is not meant to use the admin module. -/
structure Learner (db : Database Row) (tenantId : Uuid) (u : User) : Prop where
  plain : u.isSuperuser = false
  noAccess : ¬ HoldsIn db tenantId u.id "admin:access"

/-- The request does not reach its path operation function, and fails. -/
structure TurnedAway (env : Env) (w : World) (req : Request) : Prop where
  out : ¬ ∃ c, Entered env w req c
  failed : ∃ e, (serve env w req).1 = .error e

/-- The codes that the routes ask for do not include `admin:access`. -/
theorem admin_access_unasked (e : Endpoint) : "admin:access" ∉ e.permissions := by
  cases e <;> simp [Endpoint.permissions]

/-- A valid request that is authorised whenever the guards look reaches its path operation
function. -/
theorem entered_of_authorised (henabled : env.settings.enableRowLevelSecurity = true)
    (hkeys : Keyed w.db) {code : ModuleCode} (hm : req.endpoint.module = some code)
    (hvalid : req.valid = true) {tid : Uuid} (htid : ctxTenant env w req = some tid)
    (h : ∀ w₁ i, w.Still w₁ → Authorised env w₁ (env.clock i) req code tid) :
    ∃ c, Entered env w req c := by
  obtain ⟨rc, w₁, i, htenant, hstill, -, -, -, hentered, -, -⟩ :=
    @serve_guards env w req hkeys.slugs code hm
  obtain ⟨c, tid', hpass, -, -⟩ | ⟨kind, message, details, -, hrefused⟩ :=
    @guardsIn_cases env w req rc henabled hkeys.users w₁ hstill.db code hm (env.clock i)
  · exact ⟨some c, (hentered (some c)).mpr ⟨hvalid, hpass⟩⟩
  · rw [htenant.symm.trans htid] at hrefused
    exact (hrefused.not_authorised (h w₁ i hstill)).elim

/-- A request that the guards refuse, or that is not valid, is turned away. -/
theorem turnedAway_of_out {code : ModuleCode} (hslugs : ((w.db .tenants).map (·.slug)).Nodup)
    (hm : req.endpoint.module = some code) (hout : ¬ ∃ c, Entered env w req c) :
    TurnedAway env w req := by
  obtain ⟨rc, w₁, i, -, -, -, -, -, hentered, hfailed, hinvalid⟩ :=
    @serve_guards env w req hslugs code hm
  refine ⟨hout, ?_⟩
  cases hg : guardsIn env rc req w₁ (seen w (requestTx env rc)) (env.clock i) with
  | error e =>
    obtain ⟨w', hserve, -⟩ := hfailed e hg
    exact ⟨e, by rw [hserve]⟩
  | ok c =>
    have hvalid : req.valid = false := by
      by_contra h
      exact hout ⟨c, (hentered c).mpr ⟨Bool.eq_true_of_not_eq_false h, hg⟩⟩
    obtain ⟨e, w', hserve, -⟩ := hinvalid hvalid
    exact ⟨e, by rw [hserve]⟩

/-- **The admin surface**: a learner's request to an admin route is turned away iff it is
not valid, the tenant has no licence of the admin module, or the learner lacks one of the
codes that the route shares with other modules. -/
theorem admin_turns_away_iff (henabled : env.settings.enableRowLevelSecurity = true)
    (hkeys : Keyed w.db) (hm : req.endpoint.module = some .admin) :
    ∃ w₁ i, w.Still w₁ ∧ w.Older w₁ ∧ w₁.ticks ≤ i ∧ i ≤ (serve env w req).2.ticks ∧
      ∀ tid u, ctxTenant env w req = some tid → Authenticated env w.db tid req (env.clock i) u →
        Learner w.db tid u →
        (TurnedAway env w req ↔ req.valid = false ∨ ¬ hasModule env w₁ tid .admin ∨
          ∃ code ∈ req.endpoint.permissions, ¬ HoldsIn w.db tid u.id code) := by
  obtain ⟨rc, w₁, i, htenant, hstill, holder, hi, hi', hentered, -, -⟩ :=
    @serve_guards env w req hkeys.slugs .admin hm
  refine ⟨w₁, i, hstill, holder, hi, hi', fun tid u htid hauth hlearner => ?_⟩
  have hrc : rc.tenantId = some tid := htenant.symm.trans htid
  constructor
  · intro haway
    by_contra hopen
    obtain ⟨hvalid, hmodule, hcodes⟩ : req.valid = true ∧ hasModule env w₁ tid .admin ∧
        ∀ code ∈ req.endpoint.permissions, HoldsIn w.db tid u.id code := by
      rw [not_or, not_or] at hopen
      refine ⟨Bool.eq_true_of_not_eq_false hopen.1, not_not.mp hopen.2.1, fun code hcode => ?_⟩
      by_contra hnot
      exact hopen.2.2 ⟨code, hcode, hnot⟩
    -- every condition is met, so the guards cannot refuse
    obtain ⟨c, tid', hpass, -, -⟩ | ⟨kind, message, details, -, hrefused⟩ :=
      @guardsIn_cases env w req rc henabled hkeys.users w₁ hstill.db .admin hm (env.clock i)
    · exact haway.out ⟨some c, (hentered (some c)).mpr ⟨hvalid, hpass⟩⟩
    · rw [hrc] at hrefused
      refine hrefused.not_authorised ⟨hmodule, u, ?_, .inr ?_⟩
      · rw [hstill.db]
        exact hauth
      · rw [hstill.db]
        exact hcodes
  · intro hclosed
    refine turnedAway_of_out hkeys.slugs hm ?_
    rintro ⟨c, hc⟩
    obtain ⟨hvalid, hpass⟩ := (hentered c).mp hc
    obtain ⟨c', tid', -, hrc', hmodule, v, hv, hperm⟩ | ⟨kind, message, details, hfail, -⟩ :=
      @guardsIn_cases env w req rc henabled hkeys.users w₁ hstill.db .admin hm (env.clock i)
    · cases hrc.symm.trans hrc'
      rw [hstill.db] at hv hperm
      -- the token of the request has one subject
      have hsame : v = u := by
        obtain ⟨c₁, hc₁, rfl⟩ := hauth.found henabled hkeys.users hrc
        obtain ⟨c₂, hc₂, rfl⟩ := hv.found henabled hkeys.users hrc
        cases hc₁.symm.trans hc₂
        rfl
      subst hsame
      obtain hinvalid | hunlicensed | ⟨code, hcode, hnot⟩ := hclosed
      · rw [hvalid] at hinvalid
        cases hinvalid
      · exact hunlicensed hmodule
      · obtain hsuper | hcodes := hperm
        · rw [hlearner.plain] at hsuper
          cases hsuper
        · exact hnot (hcodes code hcode)
    · cases hfail.symm.trans hpass

/-! ## A student on an admin route -/

namespace AdminSurface

open Gateway

/-- The permissions that the seed gives the role `student`. -/
def studentCodes : List String :=
  ["course:read", "course:enroll", "lesson:read", "progress:read", "assignment:read",
    "assignment:submit", "grade:read"]

/-- A tenant that licenses the admin module, with one student. -/
def tables : Database Row
  | .tenants => [{ id := 1, name := "A", slug := "a" }]
  | .modules => [{ id := 10, code := "ADMIN", name := "Administration" }]
  | .tenantModules => [{ id := 20, tenantId := 1, moduleId := 10 }]
  | .users => [student]
  | .roles => [{ id := 4, tenantId := 1, code := "student", name := "Student" }]
  | .userRoles => [⟨3, 4⟩]
  | .permissions => studentCodes.zipIdx.map fun c => ⟨100 + c.2, c.1⟩
  | .rolePermissions => studentCodes.zipIdx.map fun c => ⟨4, 100 + c.2⟩
  | _ => []

/-- The world of these tables. -/
def world : World := World.fresh 5 tables

/-- The student asks the admin module for the courses, drafts included. -/
def request : Request where
  headers := [("authorization", "Bearer " ++ token)]
  endpoint := .listAdminCourses {}

theorem world_keyed : Keyed world.db :=
  ⟨List.nodup_singleton "a", List.nodup_singleton 3⟩

theorem request_authorization :
    request.headers.find "authorization" = some ("Bearer " ++ token) := by
  simp [request, Headers.find]

theorem request_licensed {w₁ : World} (h : world.Still w₁) : hasModule frozen w₁ 1 .admin := by
  have hcache : ∀ cs, cachedIn frozen w₁ 1 ≠ some (.codes cs) := by
    intro cs hcs
    cases hcs
  refine .inr ?_
  rw [enabledIn_uncached hcache, mem_entitledIn, h.db]
  refine .inr ⟨⟨_, List.mem_singleton_self _, _, List.mem_singleton_self _, rfl, rfl, rfl, rfl⟩, ?_⟩
  rintro ⟨m, -, tm, htm, -, -, -, hexp⟩
  rw [List.mem_singleton.mp htm] at hexp
  cases hexp

/-- The codes of the student are those of the seeded role. -/
theorem student_holds (code : String) : HoldsIn tables 1 3 code ↔ code ∈ studentCodes := by
  constructor
  · rintro ⟨ur, -, r, -, -, -, -, rp, -, p, hp, -, -, rfl⟩
    obtain ⟨c, hc, rfl⟩ := List.mem_map.mp hp
    obtain ⟨-, -, hget⟩ := List.mem_zipIdx hc
    rw [hget]
    exact List.getElem_mem _
  · intro hcode
    obtain ⟨i, hi, rfl⟩ := List.mem_iff_getElem.mp hcode
    have hmem : (studentCodes[i], i) ∈ studentCodes.zipIdx :=
      List.mk_mem_zipIdx_iff_getElem?.mpr (List.getElem?_eq_getElem hi)
    exact ⟨_, List.mem_singleton_self _, _, List.mem_singleton_self _, rfl, rfl, rfl, _,
      List.mem_map_of_mem hmem, _, List.mem_map_of_mem hmem, rfl, rfl, rfl⟩

theorem student_learner : Learner tables 1 student :=
  ⟨rfl, fun h => absurd ((student_holds _).mp h) (by decide)⟩

end AdminSurface

open Gateway AdminSurface in
/-- With the licence and the code `course:read`, the student is not turned away. -/
theorem admin_turns_away_student : ¬ TurnedAway frozen AdminSurface.world AdminSurface.request := by
  obtain ⟨w₁, i, hstill, -, -, -, hiff⟩ :=
    @admin_turns_away_iff frozen AdminSurface.world AdminSurface.request rfl
      AdminSurface.world_keyed rfl
  have hclosed := hiff 1 student (bearer_tenant AdminSurface.request_authorization)
    (bearer_authenticated AdminSurface.request_authorization (List.mem_singleton_self _) i)
    student_learner
  rw [hclosed]
  rintro (hinvalid | hunlicensed | ⟨code, hcode, hnot⟩)
  · cases hinvalid
  · exact hunlicensed (AdminSurface.request_licensed hstill)
  · rw [List.mem_singleton.mp hcode] at hnot
    exact hnot ((student_holds _).mpr (by decide))

open Gateway AdminSurface in
/-- A student without `admin:access` reaches the admin list of courses. -/
theorem admin_route_admits_student : Learner AdminSurface.world.db 1 student ∧
    (∃ c, Entered frozen AdminSurface.world AdminSurface.request c) ∧
    ctxTenant frozen AdminSurface.world AdminSurface.request = some 1 ∧
    ∀ i, Authenticated frozen AdminSurface.world.db 1 AdminSurface.request (frozen.clock i)
      student := by
  have htenant := @bearer_tenant AdminSurface.world _ AdminSurface.request_authorization
  have hauth := fun i => @bearer_authenticated AdminSurface.world.db _
    AdminSurface.request_authorization (List.mem_singleton_self _) i
  refine ⟨student_learner, ?_, htenant, hauth⟩
  refine @entered_of_authorised frozen AdminSurface.world AdminSurface.request rfl
    AdminSurface.world_keyed .admin rfl rfl 1 htenant fun w₁ i hstill => ?_
  refine ⟨AdminSurface.request_licensed hstill, student, ?_, .inr fun code hcode => ?_⟩
  · rw [hstill.db]
    exact hauth i
  · rw [List.mem_singleton.mp hcode, hstill.db]
    exact (student_holds "course:read").mpr (by decide)

end LmsBackend
