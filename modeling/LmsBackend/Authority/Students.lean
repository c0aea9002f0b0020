import LmsBackend.Core.Platform
import LmsBackend.History.Registry
import LmsBackend.Scripts.Seed

/-!
# What a registration makes of a user

`AuthService.register` gives the new user the role of the tenant with the code `student`,
if there is one. The seed script makes such a role for each of its tenants;
`create_tenant` makes none, and no route writes `roles`.

- `HoldsStudentRole db tid id`: the student role of the tenant is the only role of the user,
  and its permissions are those of the script's matrix.
- `Seeded w`: the roles and permissions that the script leaves. `seeded_database`: it does.
- `registers_student_iff`: over every run from a seeded state, a registration makes a
  student of the tenants that were seeded, and of no other.
-/

namespace LmsBackend

open Mvcc

variable {env : Env} {w w'' w₀ : World} {req : Request} {h : List Exchange}
  {Ok : List Exchange → World → Request → Prop}

/-- The user holds exactly the student role of the tenant, and the student permissions. -/
structure HoldsStudentRole (db : Database Row) (tenantId userId : Uuid) : Prop where
  role : ∃ r ∈ db .roles, (r.tenantId = tenantId ∧ r.code = RoleCode.student.value) ∧
    ∀ roleId, (∃ ur ∈ db .userRoles, ur.userId = userId ∧ ur.roleId = roleId) ↔ roleId = r.id
  permissions : ∀ code, Holds db userId code ↔ code ∈ Seed.roleMatrix .student

/-- Each tenant has one student role, with the student permissions, and each role is of a
tenant. -/
structure Seeded (w : World) : Prop where
  registry : Registry w
  roles : ∀ r ∈ w.db .roles, ∃ t ∈ w.db .tenants, t.id = r.tenantId
  student : ∀ t ∈ w.db .tenants, ∃ r ∈ w.db .roles,
    (r.tenantId = t.id ∧ r.code = RoleCode.student.value) ∧
    (∀ r' ∈ w.db .roles, r'.tenantId = t.id ∧ r'.code = RoleCode.student.value → r'.id = r.id) ∧
    ∀ code, Grants w.db r.id code ↔ code ∈ Seed.roleMatrix .student

/-! ## Roles over runs -/

theorem not_mem_writes_roles (req : Request) : .roles ∉ req.endpoint.writes := by
  obtain ⟨headers, client, endpoint, valid⟩ := req
  cases endpoint <;> simp [Endpoint.writes]

theorem not_mem_writes_permissions (req : Request) : .permissions ∉ req.endpoint.writes := by
  obtain ⟨headers, client, endpoint, valid⟩ := req
  cases endpoint <;> simp [Endpoint.writes]

theorem not_mem_writes_rolePermissions (req : Request) :
    .rolePermissions ∉ req.endpoint.writes := by
  obtain ⟨headers, client, endpoint, valid⟩ := req
  cases endpoint <;> simp [Endpoint.writes]

theorem grants_congr {db db' : Database Row} (hgranted : db' .rolePermissions = db .rolePermissions)
    (hpermissions : db' .permissions = db .permissions) (roleId : Uuid) (code : String) :
    Grants db' roleId code ↔ Grants db roleId code := by
  unfold Grants
  rw [hgranted, hpermissions]

/-! ## A registration -/

/-- The transaction of a request that may insert an account is bound to its tenant. -/
theorem requestTx_tenant {rc : RequestContext} {u : User}
    (h : policy (requestTx env rc).guc .users u = true) :
    (requestTx env rc).guc.tenantId = some u.tenantId := by
  have hbypass : (requestTx env rc).guc.bypassRls = false := by
    unfold requestTx boundTx
    dsimp only
    split <;> rfl
  obtain ⟨tid, hguc, htenant⟩ := policy_tenant (by simp [rlsTables]) hbypass h
  rw [hguc, ← htenant]
  rfl

/-- The roles that a registration attaches: those of the tenant with the student code. -/
theorem mem_rolesByCodeIn {rc : RequestContext} {tid : Uuid} (htid : rc.tenantId = some tid)
    (hguc : (requestTx env rc).guc.tenantId = some tid) {code : String} {roleId : Uuid} :
    (∃ lr ∈ rolesByCodeIn (seen w (requestTx env rc)) rc code, lr.role.id = roleId) ↔
      ∃ r ∈ w.db .roles, (r.tenantId = tid ∧ r.code = code) ∧ r.id = roleId := by
  have hmem : ∀ r : Role, r ∈ (seen w (requestTx env rc) .roles).filter
      (fun r => inScope rc .roles r && decide (r.code = code)) ↔
      r ∈ w.db .roles ∧ r.tenantId = tid ∧ r.code = code := by
    intro r
    rw [List.mem_filter, Bool.and_eq_true, decide_eq_true_iff]
    constructor
    · rintro ⟨hr, hscope, hcode⟩
      obtain ⟨hr, tid', htid', htenant⟩ := mem_seen_rls (by simp [rlsTables]) hr
      cases htid.symm.trans htid'
      exact ⟨hr, Option.some.inj htenant, hcode⟩
    · rintro ⟨hr, htenant, hcode⟩
      refine ⟨(mem_seen rfl).mpr ⟨hr, policy_of_tenant hguc (congrArg some htenant)⟩, ?_, hcode⟩
      simp [inScope, deletedAtOf, tenantOf, htid, htenant]
  constructor
  · rintro ⟨lr, hlr, hid⟩
    obtain ⟨hr, htenant, hcode⟩ := (hmem lr.role).mp (mem_loadRolesIn hlr).1
    exact ⟨lr.role, hr, ⟨htenant, hcode⟩, hid⟩
  · rintro ⟨r, hr, ⟨htenant, hcode⟩, hid⟩
    exact ⟨_, List.mem_map_of_mem ((hmem r).mpr ⟨hr, htenant, hcode⟩), hid⟩

/-- **Registration**: in every run from a seeded state, a user who registers holds exactly
the student role of its tenant, and the student permissions, iff the tenant is one of the
seeded ones. -/
theorem registers_student_iff (hseed : Seeded w₀) (hrun : Run env Ok w₀ h w)
    {data : RegisterRequest} (he : req.endpoint = .register data) {body : Body}
    (hs : serve env w req = (.ok body, w'')) :
    ∃ tid v, ctxTenant env w req = some tid ∧ body = .user v ∧
      (HoldsStudentRole w''.db tid v.id ↔ ∃ t ∈ w₀.db .tenants, t.id = tid) := by
  obtain ⟨rc, tid, out, htenant, htid, rfl, hjoined, hpolicy, hroles, hassigned, -⟩ :=
    serve_register he hs
  have hkept : ∀ {t}, (∀ req : Request, t ∉ req.endpoint.writes) → w''.db t = w₀.db t := by
    intro t ht
    have hframe := serve_frame env w req (ht req)
    rw [hs] at hframe
    exact hframe.trans (hrun.frame ht)
  have hrolesKept := hkept not_mem_writes_roles
  have hgrants := grants_congr (hkept not_mem_writes_rolePermissions)
    (hkept not_mem_writes_permissions)
  have hguc := requestTx_tenant hpolicy
  rw [hjoined.tenant] at hguc
  -- the assignments of the new user are those that its registration made
  have hown : ∀ roleId, (∃ ur ∈ w''.db .userRoles, ur.userId = out.user.id ∧ ur.roleId = roleId) ↔
      ∃ r ∈ w₀.db .roles, (r.tenantId = tid ∧ r.code = "student") ∧ r.id = roleId := by
    intro roleId
    rw [← hrun.frame not_mem_writes_roles, ← mem_rolesByCodeIn htid hguc, ← hroles, hassigned]
    constructor
    · rintro ⟨ur, hur, huser, hrole⟩
      rcases List.mem_append.mp hur with hur | hur
      · have hdrawn := (hrun.registry hseed.registry).assigned ur hur
        rw [huser] at hdrawn
        exact absurd hjoined.fresh (Nat.not_le.mpr hdrawn)
      · obtain ⟨lr, hlr, rfl⟩ := List.mem_map.mp hur
        exact ⟨lr, hlr, hrole⟩
    · rintro ⟨lr, hlr, rfl⟩
      exact ⟨_, List.mem_append_right _ (List.mem_map_of_mem hlr), rfl, rfl⟩
  refine ⟨tid, .ofUser out, htenant.trans htid, rfl, ?_, ?_⟩
  · rintro ⟨⟨r, hr, ⟨rfl, -⟩, -⟩, -⟩
    rw [hrolesKept] at hr
    exact hseed.roles r hr
  · rintro ⟨t, ht, rfl⟩
    obtain ⟨r, hr, hrole, hunique, hcodes⟩ := hseed.student t ht
    have hone : ∀ roleId,
        (∃ ur ∈ w''.db .userRoles, ur.userId = out.user.id ∧ ur.roleId = roleId) ↔
          roleId = r.id := by
      intro roleId
      rw [hown]
      constructor
      · rintro ⟨r', hr', hrole', rfl⟩
        exact hunique r' hr' hrole'
      · rintro rfl
        exact ⟨r, hr, hrole, rfl⟩
    refine ⟨⟨r, hrolesKept ▸ hr, hrole, hone⟩, fun code => ?_⟩
    rw [← hcodes code, ← hgrants]
    constructor
    · rintro ⟨ur, hur, r', -, huser, hid, hgranted⟩
      have hsame := (hone ur.roleId).mp ⟨ur, hur, huser, rfl⟩
      rw [← hid, hsame] at hgranted
      exact hgranted
    · intro hgranted
      obtain ⟨ur, hur, huser, hid⟩ := (hone r.id).mpr rfl
      exact ⟨ur, hur, r, hrolesKept ▸ hr, huser, hid, hgranted⟩

/-! ## A seeded tenant and a provisioned one -/

/-- The permissions of a role. -/
def grantedCodes (db : Database Row) (roleId : Uuid) : List String :=
  ((db .permissions).filter fun p =>
    p.id ∈ ((db .rolePermissions).filter fun rp => rp.roleId = roleId).map (·.permissionId)).map
      (·.code)

theorem mem_grantedCodes {db : Database Row} {roleId : Uuid} {code : String} :
    code ∈ grantedCodes db roleId ↔ Grants db roleId code := by
  simp only [grantedCodes, List.mem_map, List.mem_filter, decide_eq_true_eq]
  constructor
  · rintro ⟨p, ⟨hp, rp, ⟨hrp, hrole⟩, hid⟩, rfl⟩
    exact ⟨rp, hrp, p, hp, hrole, hid, rfl⟩
  · rintro ⟨rp, hrp, p, hp, hrole, hid, rfl⟩
    exact ⟨p, ⟨hp, rp, ⟨hrp, hrole⟩, hid⟩, rfl⟩

/-- The account in an answer. -/
def Response.user? : Response → Option UserOut
  | .ok (.user v) => some v
  | _ => none

theorem Response.user?_eq_some {r : Response} {v : UserOut} (h : r.user? = some v) :
    r = .ok (.user v) := by
  cases r with
  | error e => cases h
  | ok body =>
    cases body with
    | user u =>
      cases h
      rfl
    | _ => cases h

namespace Students

/-- The claims of the platform administrator's access token in the run below. -/
def claims : TokenPayload :=
  { sub := 61, tid := 47, type := "access", jti := 80, exp := 905, iat := 5 }

/-- The reference platform, which signs these claims with a short text. -/
def platform : Env :=
  { Env.reference {} with
    jwtEncode := fun key algorithm p => if p = claims then "root" else Platform.sign key algorithm p
    jwtVerify := fun key algorithm token =>
      if token = "root" then some claims else Platform.verify key algorithm token }

/-- After the seed script. -/
def world : World :=
  { World.fresh 1 (Seed.database (platform.hash 0) 0 1).1 with
    nextUuid := (Seed.database (platform.hash 0) 0 1).2 }

def login : Request where
  headers := [("x-request-id", "r"), ("x-tenant-id", "full-lms")]
  endpoint := .login ⟨"root@platform.com", "Root123!"⟩

def provision : Request where
  headers := [("x-request-id", "r"), ("authorization", "Bearer root")]
  endpoint := .createTenant
    { name := "Acme", slug := "acme", adminEmail := "admin@acme.com", adminPassword := "Admin123!" }

/-- Somebody registers in the tenant with the slug. -/
def join (slug : String) : Request where
  headers := [("x-request-id", "r"), ("x-tenant-id", slug)]
  endpoint := .register { email := "new@" ++ slug ++ ".com", password := "password" }

theorem platform_lawful : platform.Lawful where
  clock_mono _ _ h := h
  rowOrder_perm _ _ := List.Perm.refl _
  verify_encode key algorithm p := by
    show (if (if p = claims then "root" else Platform.sign key algorithm p) = "root" then
      some claims else Platform.verify key algorithm
        (if p = claims then "root" else Platform.sign key algorithm p)) = some p
    by_cases hp : p = claims
    · rw [if_pos hp, if_pos rfl, hp]
    · -- a signature has dots in it
      have hsign : Platform.sign key algorithm p ≠ "root" := by
        intro h
        have htext := congrArg String.toList h
        rw [Platform.sign, String.toList_ofList,
          show "root".toList = ['r', 'o', 'o', 't'] from rfl] at htext
        have hdot : '.' ∈ ['r', 'o', 'o', 't'] := by
          rw [← htext]
          exact List.mem_append_right _ List.mem_cons_self
        exact absurd hdot (by decide)
      rw [if_neg hp, if_neg hsign]
      exact Platform.verify_sign key algorithm p

/-- What the script leaves, by its identifiers. -/
theorem tables :
    (world.db .tenants).map (·.id) = [35, 47] ∧
    (world.db .roles).map (fun r => (r.id, r.tenantId, r.code)) =
      [(40, 35, "super_admin"), (41, 35, "tenant_admin"), (42, 35, "instructor"),
        (43, 35, "student"), (54, 47, "super_admin"), (55, 47, "tenant_admin"),
        (56, 47, "instructor"), (57, 47, "student")] ∧
    (world.db .users).map (·.id) = [44, 45, 46, 58, 59, 60, 61] ∧
    (world.db .userRoles).map (·.userId) = [44, 45, 46, 58, 59, 60, 61] ∧
    world.db .userSessions = [] ∧ world.nextUuid = 78 ∧
    grantedCodes world.db 43 = Seed.roleMatrix .student ∧
    grantedCodes world.db 57 = Seed.roleMatrix .student := by
  decide +kernel

end Students

/-- **The script** leaves a seeded state. -/
theorem seeded_database : Seeded Students.world := by
  obtain ⟨htenants, hroles, husers, hassigned, hsessions, hnext, hfirst, hsecond⟩ :=
    Students.tables
  have hcodes : ∀ {id : Uuid}, grantedCodes Students.world.db id = Seed.roleMatrix .student →
      ∀ code, Grants Students.world.db id code ↔ code ∈ Seed.roleMatrix .student := by
    intro id h code
    rw [← h, mem_grantedCodes]
  -- the student role of one of the two tenants
  have hstudent : ∀ {tid roleId : Uuid},
      (roleId, tid, "student") ∈ (Students.world.db .roles).map (fun r => (r.id, r.tenantId, r.code)) →
      (∀ x ∈ (Students.world.db .roles).map (fun r => (r.id, r.tenantId, r.code)),
        x.2 = (tid, "student") → x.1 = roleId) →
      grantedCodes Students.world.db roleId = Seed.roleMatrix .student →
      ∃ r ∈ Students.world.db .roles, (r.tenantId = tid ∧ r.code = RoleCode.student.value) ∧
        (∀ r' ∈ Students.world.db .roles,
          r'.tenantId = tid ∧ r'.code = RoleCode.student.value → r'.id = r.id) ∧
        ∀ code, Grants Students.world.db r.id code ↔ code ∈ Seed.roleMatrix .student := by
    intro tid roleId hin hunique hgranted
    obtain ⟨r, hr, heq⟩ := List.mem_map.mp hin
    obtain ⟨hid, htenant, hcode⟩ : r.id = roleId ∧ r.tenantId = tid ∧ r.code = "student" :=
      ⟨congrArg (·.1) heq, congrArg (·.2.1) heq, congrArg (·.2.2) heq⟩
    refine ⟨r, hr, ⟨htenant, hcode⟩, fun r' hr' hrole' => ?_, ?_⟩
    · rw [hid]
      exact hunique _ (List.mem_map_of_mem hr') (Prod.ext hrole'.1 hrole'.2)
    · rw [hid]
      exact hcodes hgranted
  rw [hroles] at hstudent
  have hids : ∀ {t : Tenant}, t ∈ Students.world.db .tenants → t.id = 35 ∨ t.id = 47 := by
    intro t ht
    have hid : t.id ∈ [35, 47] := htenants ▸ List.mem_map_of_mem ht
    simpa using hid
  have hdrawn : ∀ id ∈ [44, 45, 46, 58, 59, 60, 61], id < Students.world.nextUuid := by
    rw [hnext]
    decide
  refine ⟨⟨⟨?_, fun u hu => ?_⟩, ?_, ?_, fun ur hur => ?_⟩, fun r hr => ?_, fun t ht => ?_⟩
  · rw [husers]
    decide
  · exact hdrawn _ (husers ▸ List.mem_map_of_mem (f := fun u : User => u.id) hu)
  · rw [hsessions]
    exact List.nodup_nil
  · rw [hsessions]
    intro r hr
    cases hr
  · exact hdrawn _ (hassigned ▸ List.mem_map_of_mem (f := fun ur : UserRole => ur.userId) hur)
  · have hrole := hroles ▸ List.mem_map_of_mem (f := fun r : Role => (r.id, r.tenantId, r.code)) hr
    have htenant : r.tenantId ∈ [35, 47] := by
      simp only [List.mem_cons, Prod.mk.injEq, List.not_mem_nil, or_false] at hrole
      rcases hrole with h | h | h | h | h | h | h | h <;> rw [h.2.1] <;> decide
    rw [← htenants] at htenant
    exact List.mem_map.mp htenant
  · rcases hids ht with hid | hid
    · rw [hid]
      exact hstudent (by decide) (by decide) hfirst
    · rw [hid]
      exact hstudent (by decide) (by decide) hsecond

/-- A registration in a tenant that the script made. -/
theorem registers_student_seeded : ∃ w'' tid v,
    serve Students.platform Students.world (Students.join "abc-academy") = (.ok (.user v), w'') ∧
    HoldsStudentRole w''.db tid v.id := by
  have hanswer : (serve Students.platform Students.world
      (Students.join "abc-academy")).1.user?.isSome = true := by decide +kernel
  obtain ⟨v, hv⟩ := Option.isSome_iff_exists.mp hanswer
  have hs : serve Students.platform Students.world (Students.join "abc-academy") =
      (.ok (.user v), (serve Students.platform Students.world (Students.join "abc-academy")).2) :=
    Prod.ext (Response.user?_eq_some hv) rfl
  have htenant : ctxTenant Students.platform Students.world (Students.join "abc-academy") =
      some 35 := by decide +kernel
  obtain ⟨tid, v', htid, hbody, hiff⟩ := @registers_student_iff Students.platform Students.world _
    Students.world (Students.join "abc-academy") [] (fun _ _ _ => True) seeded_database .start _ rfl
    _ hs
  cases hbody
  cases htid.symm.trans htenant
  have hseeded : (35 : Uuid) ∈ (Students.world.db .tenants).map (·.id) := by
    rw [Students.tables.1]
    decide
  exact ⟨_, 35, v, hs, hiff.mpr (List.mem_map.mp hseeded)⟩

/-- The platform administrator logs in and provisions a tenant, and somebody registers in
it: the new user has no role, as the tenant has none. -/
theorem registered_without_role : ∃ h w w'' tid v,
    Run Students.platform (fun _ _ _ => True) Students.world h w ∧
    (∃ t ∈ w.db .tenants, t.id = tid ∧ t.slug = "acme") ∧
    ctxTenant Students.platform w (Students.join "acme") = some tid ∧
    serve Students.platform w (Students.join "acme") = (.ok (.user v), w'') ∧
    ¬ HoldsStudentRole w''.db tid v.id := by
  have hrun : Run Students.platform (fun _ _ _ => True) Students.world _ _ :=
    .serve Students.provision (.serve Students.login .start trivial) trivial
  have hanswer : (serve Students.platform (serve Students.platform
      (serve Students.platform Students.world Students.login).2 Students.provision).2
      (Students.join "acme")).1.user?.isSome = true := by decide +kernel
  obtain ⟨v, hv⟩ := Option.isSome_iff_exists.mp hanswer
  refine ⟨_, _, _, 82, v, hrun, by decide +kernel, by decide +kernel,
    Prod.ext (Response.user?_eq_some hv) rfl, ?_⟩
  rintro ⟨⟨r, hr, ⟨htenant, -⟩, -⟩, -⟩
  -- no route writes `roles`
  rw [serve_frame _ _ _ (not_mem_writes_roles _), hrun.frame not_mem_writes_roles] at hr
  have hmem := Students.tables.2.1 ▸
    List.mem_map_of_mem (f := fun r : Role => (r.id, r.tenantId, r.code)) hr
  rw [htenant] at hmem
  simp at hmem

end LmsBackend
