import LmsBackend.Api.Router
import LmsBackend.Effects.Quiet

/-!
# What the lookups and the guards find

Users, roles and the caller of a request as functions of the rows that a session
sees, and the guards in terms of them.

- `usersIn db rc p`: the users a lookup finds, loaded with their roles.
- `Holds db u code`: the user's roles in these rows grant the permission.
- `currentUserIn`: the answer of `get_current_user`.
- `enabledIn`: the module codes that the licensing service answers.
- `guardsIn`: the answer of all the guards of a route.
-/

namespace LmsBackend

open Mvcc

variable {env : Env} {rc : RequestContext}

/-! ## Users and roles -/

/-- Roles with the permissions granted to them in these rows. -/
def loadRolesIn (db : Database Row) (roles : List Role) : List LoadedRole :=
  let granted := joined db .rolePermissions .permissions fun rp p =>
    (roles.any fun r => r.id = rp.roleId) && decide (rp.permissionId = p.id)
  roles.map fun r =>
    { role := r, permissions := (granted.filter fun x => x.1.roleId = r.id).map (·.2) }

/-- Users with the roles assigned to them in these rows. -/
def loadUsersIn (db : Database Row) (users : List User) : List LoadedUser :=
  let assigned := joined db .userRoles .roles fun ur r =>
    (users.any fun u => u.id = ur.userId) && decide (ur.roleId = r.id)
  let loaded := loadRolesIn db (assigned.map (·.2)).dedup
  users.map fun u =>
    { user := u,
      roles := loaded.filter fun lr => assigned.any fun x =>
        decide (x.1.userId = u.id) && decide (x.2.id = lr.role.id) }

/-- The users in scope that satisfy a condition. -/
def usersIn (db : Database Row) (rc : RequestContext) (p : User → Bool) : List LoadedUser :=
  loadUsersIn db ((db .users).filter fun u => inScope rc .users u && p u)

/-- The roles in scope with one of the codes. -/
def rolesByCodesIn (db : Database Row) (rc : RequestContext) (codes : List String) :
    List LoadedRole :=
  loadRolesIn db ((db .roles).filter fun r => inScope rc .roles r && r.code ∈ codes)

theorem runM_loadRoles (roles : List Role) (w : World) (tx : Tx) (txs : List Tx) :
    runM env (loadRoles roles) (w, tx :: txs) =
      (.ok (loadRolesIn (seen w tx) roles), (w, tx :: txs)) := rfl

theorem runM_loadUsers (users : List User) (w : World) (tx : Tx) (txs : List Tx) :
    runM env (loadUsers users) (w, tx :: txs) =
      (.ok (loadUsersIn (seen w tx) users), (w, tx :: txs)) := rfl

theorem runM_findUser (p : User → Bool) (w : World) (tx : Tx) (txs : List Tx) :
    runM env (findUser rc p) (w, tx :: txs) =
      (scalar (usersIn (seen w tx) rc p), (w, tx :: txs)) :=
  runM_scalarOneOrNone _ _

/-- A lookup that returns leaves the state as it is. -/
theorem findUser_ok {p : User → Bool} {w : World} {tx : Tx} {txs : List Tx}
    {r : Option LoadedUser} {s' : State}
    (h : runM env (findUser rc p) (w, tx :: txs) = (.ok r, s')) :
    scalar (usersIn (seen w tx) rc p) = .ok r ∧ s' = (w, tx :: txs) := by
  rw [runM_findUser] at h
  exact ⟨congrArg Prod.fst h, (congrArg Prod.snd h).symm⟩

theorem getUserOr404_ok {id : Uuid} {w : World} {tx : Tx} {txs : List Tx} {u : LoadedUser}
    {s' : State} (h : runM env (getUserOr404 rc id) (w, tx :: txs) = (.ok u, s')) :
    usersIn (seen w tx) rc (fun u => u.id = id) = [u] ∧ s' = (w, tx :: txs) := by
  obtain ⟨r, s₁, hfind, h⟩ := Prog.run_bind_eq_ok h
  obtain ⟨hone, rfl⟩ := findUser_ok hfind
  cases r with
  | none => cases congrArg Prod.fst h
  | some u' =>
    cases h
    exact ⟨scalar_eq_some hone, rfl⟩

theorem requireTenantId_ok {tid : Uuid} {s s' : State}
    (h : runM env (requireTenantId rc) s = (.ok tid, s')) : rc.tenantId = some tid ∧ s' = s := by
  unfold requireTenantId at h
  cases hrc : rc.tenantId with
  | none => rw [hrc] at h; cases congrArg Prod.fst h
  | some t => rw [hrc] at h; cases h; exact ⟨rfl, rfl⟩

theorem runM_getRolesByCodes (codes : List String) (w : World) (tx : Tx) (txs : List Tx) :
    runM env (getRolesByCodes rc codes) (w, tx :: txs) =
      (.ok (rolesByCodesIn (seen w tx) rc codes), (w, tx :: txs)) := rfl

theorem loadUsersIn_map_user (db : Database Row) (users : List User) :
    (loadUsersIn db users).map (·.user) = users := by
  rw [loadUsersIn, List.map_map]
  exact List.map_id _

/-- A user that is found is one of the rows, in scope, and satisfies the condition. -/
theorem mem_usersIn {db : Database Row} {p : User → Bool} {u : LoadedUser}
    (h : u ∈ usersIn db rc p) : u.user ∈ db .users ∧ inScope rc .users u.user = true ∧
      p u.user = true := by
  have hmem : u.user ∈ (usersIn db rc p).map (·.user) := List.mem_map.mpr ⟨u, h, rfl⟩
  rw [usersIn, loadUsersIn_map_user, List.mem_filter, Bool.and_eq_true] at hmem
  exact hmem

/-- A user in scope: not deleted, and of the context's tenant if there is one. -/
theorem inScope_users {u : User} (h : inScope rc .users u = true) :
    u.deletedAt = none ∧ ∀ tid, rc.tenantId = some tid → u.tenantId = tid := by
  unfold inScope at h
  rw [Bool.and_eq_true, Option.isNone_iff_eq_none] at h
  refine ⟨h.1, fun tid htid => ?_⟩
  have hscope := h.2
  rw [htid] at hscope
  exact of_decide_eq_true hscope

/-! ## Permissions -/

/-- The role grants the permission. -/
def Grants (db : Database Row) (roleId : Uuid) (code : String) : Prop :=
  ∃ rp ∈ db .rolePermissions, ∃ p ∈ db .permissions,
    rp.roleId = roleId ∧ rp.permissionId = p.id ∧ p.code = code

/-- A role of the user grants the permission. -/
def Holds (db : Database Row) (userId : Uuid) (code : String) : Prop :=
  ∃ ur ∈ db .userRoles, ∃ r ∈ db .roles,
    ur.userId = userId ∧ ur.roleId = r.id ∧ Grants db r.id code

theorem mem_loadRolesIn {db : Database Row} {roles : List Role} {lr : LoadedRole}
    (h : lr ∈ loadRolesIn db roles) :
    lr.role ∈ roles ∧ ∀ code, code ∈ lr.permissions.map (·.code) ↔ Grants db lr.role.id code := by
  obtain ⟨r, hr, rfl⟩ := List.mem_map.mp h
  refine ⟨hr, fun code => ?_⟩
  simp only [List.mem_map, List.mem_filter, decide_eq_true_iff, Grants]
  constructor
  · rintro ⟨p, ⟨x, ⟨hx, hrole⟩, rfl⟩, hcode⟩
    obtain ⟨hrp, hp, hcond⟩ := mem_joined.mp hx
    rw [Bool.and_eq_true, decide_eq_true_iff] at hcond
    exact ⟨x.1, hrp, x.2, hp, hrole, hcond.2, hcode⟩
  · rintro ⟨rp, hrp, p, hp, hrole, hpid, hcode⟩
    refine ⟨p, ⟨(rp, p), ⟨mem_joined.mpr ⟨hrp, hp, ?_⟩, hrole⟩, rfl⟩, hcode⟩
    simp only [Bool.and_eq_true, List.any_eq_true, decide_eq_true_iff]
    exact ⟨⟨r, hr, hrole.symm⟩, hpid⟩

/-- Every role is loaded. -/
theorem exists_loadRolesIn {db : Database Row} {roles : List Role} {r : Role} (h : r ∈ roles) :
    ∃ lr ∈ loadRolesIn db roles, lr.role = r :=
  ⟨_, List.mem_map.mpr ⟨r, h, rfl⟩, rfl⟩

/-- The permission codes of a loaded user are those it holds. -/
theorem mem_permissionCodes {db : Database Row} {users : List User} {u : LoadedUser}
    (h : u ∈ loadUsersIn db users) (code : String) :
    code ∈ u.permissionCodes ↔ Holds db u.user.id code := by
  obtain ⟨u', hu', rfl⟩ := List.mem_map.mp h
  simp only [LoadedUser.permissionCodes, List.mem_flatMap, List.mem_filter, Bool.and_eq_true,
    List.any_eq_true, decide_eq_true_iff, Holds]
  constructor
  · rintro ⟨lr, ⟨hlr, x, hx, huser, hid⟩, hcode⟩
    obtain ⟨hrole, hgrants⟩ := mem_loadRolesIn hlr
    obtain ⟨y, hy, heq⟩ := List.mem_map.mp (List.mem_dedup.mp hrole)
    have hx := mem_joined.mp hx
    have hcond := hx.2.2
    simp only [Bool.and_eq_true, decide_eq_true_iff] at hcond
    refine ⟨x.1, hx.1, lr.role, heq ▸ (mem_joined.mp hy).2.1, huser, hcond.2.trans hid, ?_⟩
    exact (hgrants code).mp hcode
  · rintro ⟨ur, hur, r, hr, huser, hrole, hgrants⟩
    have hx : ((ur, r) : UserRole × Role) ∈ joined db .userRoles .roles fun ur r =>
        (users.any fun u => u.id = ur.userId) && decide (ur.roleId = r.id) := by
      refine mem_joined.mpr ⟨hur, hr, ?_⟩
      simp only [Bool.and_eq_true, List.any_eq_true, decide_eq_true_iff]
      exact ⟨⟨u', hu', huser.symm⟩, hrole⟩
    have hmem : r ∈ ((joined db .userRoles .roles fun ur r =>
        (users.any fun u => u.id = ur.userId) && decide (ur.roleId = r.id)).map (·.2)).dedup :=
      List.mem_dedup.mpr (List.mem_map.mpr ⟨(ur, r), hx, rfl⟩)
    obtain ⟨lr, hlr, rfl⟩ := @exists_loadRolesIn db _ _ hmem
    exact ⟨lr, ⟨hlr, (ur, lr.role), hx, huser, rfl⟩, ((mem_loadRolesIn hlr).2 code).mpr hgrants⟩

/-! ## The caller -/

/-- What `decode_token` answers at an instant. -/
def decodeIn (env : Env) (token type : String) (now : Time) : Except String TokenPayload :=
  match signed env token with
  | none => .error "Invalid token"
  | some p => checkClaims type p now

theorem runM_decodeToken (token type : String) (w : World) (txs : List Tx) :
    (runM env (decodeToken env token type) (w, txs)).1 =
      .ok (decodeIn env token type (env.clock w.ticks)) := by
  unfold decodeToken decodeIn
  cases signed env token with
  | none => rfl
  | some p => rfl

/-- A decoded token took one reading of the clock. -/
theorem decodeToken_ok {token type : String} {w : World} {txs : List Tx} {p : TokenPayload}
    {s' : State} (h : runM env (decodeToken env token type) (w, txs) = (.ok (.ok p), s')) :
    decodeIn env token type (env.clock w.ticks) = .ok p ∧ s' = (w.tick, txs) := by
  have hfst := @runM_decodeToken env token type w txs
  rw [h] at hfst
  refine ⟨(Except.ok.inj hfst).symm, ?_⟩
  unfold decodeToken at h
  cases hs : signed env token with
  | none => rw [hs] at h; cases congrArg Prod.fst h
  | some q => rw [hs] at h; exact (congrArg Prod.snd h).symm

theorem decodeIn_ok {token type : String} {now : Time} {p : TokenPayload}
    (h : decodeIn env token type now = .ok p) :
    signed env token = some p ∧ p.iat ≤ now ∧ now < p.exp ∧ p.type = type := by
  unfold decodeIn at h
  split at h
  · cases h
  · rename_i q hq
    obtain ⟨rfl, hiat, hexp, htype⟩ := checkClaims_ok h
    exact ⟨hq, hiat, hexp, htype⟩

theorem decodeIn_of {token type : String} {now : Time} {p : TokenPayload}
    (hs : signed env token = some p) (hiat : p.iat ≤ now) (hexp : now < p.exp)
    (htype : p.type = type) : decodeIn env token type now = .ok p := by
  rw [decodeIn, hs]
  exact checkClaims_of hiat hexp htype

/-- What `get_current_user` answers at an instant on the rows that its session sees. -/
def currentUserIn (env : Env) (rc : RequestContext) (headers : Headers) (now : Time)
    (db : Database Row) : Except Err Caller :=
  match (headers.find "authorization").bind env.bearerCredentials with
  | none => .error (.app .authentication "Missing bearer token" .none)
  | some credentials =>
    match decodeIn env credentials "access" now with
    | .error message => .error (.app .authentication message .none)
    | .ok payload =>
      match scalar (usersIn db rc fun u => u.id = payload.sub) with
      | .error e => .error e
      | .ok none => .error (.app .authentication "User not found or inactive" .none)
      | .ok (some user) =>
        if user.user.isActive then .ok ⟨payload, user⟩
        else .error (.app .authentication "User not found or inactive" .none)

theorem Quiet.findUser {p : User → Bool} : Quiet env (findUser rc p) :=
  query.bind fun _ => (join.bind fun _ => (join.bind fun _ => pure _).bind fun _ => pure _).bind
    fun _ => scalarOneOrNone

theorem Quiet.getCurrentUser {headers : Headers} : Quiet env (getCurrentUser env rc headers) := by
  unfold LmsBackend.getCurrentUser
  split
  · exact raise _
  · refine decodeToken.bind fun r => ?_
    cases r with
    | error m => exact raise _
    | ok payload =>
      refine findUser.bind fun u => ?_
      cases u with
      | none => exact raise _
      | some u =>
        dsimp only
        split
        · exact pure _
        · exact raise _

theorem runM_getCurrentUser (headers : Headers) (w : World) (tx : Tx) (txs : List Tx) :
    (runM env (getCurrentUser env rc headers) (w, tx :: txs)).1 =
      currentUserIn env rc headers (env.clock w.ticks) (seen w tx) := by
  unfold getCurrentUser currentUserIn
  cases (headers.find "authorization").bind env.bearerCredentials with
  | none => rfl
  | some credentials =>
    obtain ⟨w', hrun, hstill, -⟩ :=
      (@Quiet.decodeToken env credentials "access").run w (tx :: txs)
    rw [runM_decodeToken] at hrun
    dsimp only
    rw [runM_bind_ok hrun]
    cases decodeIn env credentials "access" (env.clock w.ticks) with
    | error m => rfl
    | ok payload =>
      dsimp only
      rw [runM_bind, getUser, runM_findUser, hstill.seen]
      cases scalar (usersIn (seen w tx) rc fun u => u.id = payload.sub) with
      | error e => rfl
      | ok u =>
        cases u with
        | none => rfl
        | some u =>
          dsimp only
          split
          · rfl
          · rfl

/-- A caller: claims that the request's token carries, and the one account in
scope with their subject, which is active. -/
theorem currentUserIn_ok {headers : Headers} {now : Time} {db : Database Row} {c : Caller}
    (h : currentUserIn env rc headers now db = .ok c) :
    (∃ credentials, (headers.find "authorization").bind env.bearerCredentials = some credentials ∧
      decodeIn env credentials "access" now = .ok c.payload) ∧
    usersIn db rc (fun u => u.id = c.payload.sub) = [c.user] ∧ c.user.user.isActive = true := by
  unfold currentUserIn at h
  split at h
  · cases h
  · rename_i credentials hcred
    split at h
    · cases h
    · rename_i payload hdecode
      split at h
      · cases h
      · cases h
      · rename_i u hu
        split at h
        · rename_i hactive
          cases h
          exact ⟨⟨credentials, hcred, hdecode⟩, scalar_eq_some hu, hactive⟩
        · cases h

/-! ## Licensing -/

/-- The cached set of a tenant, if Redis has it at this moment. -/
def cachedIn (env : Env) (w : World) (tenantId : Uuid) : Option RedisValue :=
  if env.settings.hasRedis then
    (w.redisAt (env.clock w.ticks) (.enabled tenantId)).map (·.value)
  else none

/-- The codes of the modules joined to the tenant's flags that satisfy `p`. -/
def joinedCodesIn (db : Database Row) (tenantId : Uuid) (p : Module → TenantModule → Bool) :
    List String :=
  (joined db .modules .tenantModules fun m tm =>
    decide (tm.moduleId = m.id) && decide (tm.tenantId = tenantId) && p m tm).map (·.1.code)

/-- What `enabled_codes` answers. -/
def enabledIn (env : Env) (w : World) (db : Database Row) (tenantId : Uuid) : List String :=
  match cachedIn env w tenantId with
  | some (.codes cs) => cs
  | _ =>
    (joinedCodesIn db tenantId fun m tm => tm.enabled && m.isActive).filter
      (· ∉ joinedCodesIn db tenantId fun _ tm => tm.expiresAt.any (· < env.clock w.ticks)) ++
    coreModuleCodes.map (·.value)

/-- What `require_module` answers. -/
def moduleIn (env : Env) (rc : RequestContext) (w : World) (db : Database Row)
    (code : ModuleCode) : Except Err Unit :=
  match rc.tenantId with
  | none => .error (.app .tenantResolution "Tenant could not be resolved" .none)
  | some tenantId =>
    if code ∈ coreModuleCodes ∨ code.value ∈ enabledIn env w db tenantId then .ok ()
    else .error (.app .moduleNotEnabled "Module not enabled for tenant" .none)

namespace Quiet

theorem joinedCodes {tenantId : Uuid} {p : Module → TenantModule → Bool} :
    Quiet env (joinedCodes tenantId p) := join.bind fun _ => pure _

theorem cachedCodes {tenantId : Uuid} : Quiet env (cachedCodes env tenantId) := by
  unfold LmsBackend.cachedCodes
  split
  · exact perform trivial
  · exact pure _

theorem enabledCodes {tenantId : Uuid} : Quiet env (enabledCodes env tenantId) := by
  have hset : ∀ codes, Quiet env (cacheCodes env tenantId codes) := by
    intro codes
    unfold cacheCodes
    split
    · exact perform fun token => by simp
    · exact pure _
  refine cachedCodes.bind fun cached => ?_
  have hcompute : Quiet env (computeEnabled tenantId) :=
    now.bind fun _ => joinedCodes.bind fun _ => joinedCodes.bind fun _ => pure _
  split
  · exact pure _
  · exact hcompute.bind fun codes => (hset codes).bind fun _ => pure _

theorem requireModule {code : ModuleCode} : Quiet env (requireModule env rc code) := by
  unfold LmsBackend.requireModule tenantHasModule
  split
  · exact raise _
  · refine bind ?_ fun b => ?_
    · split
      · exact pure _
      · exact enabledCodes.bind fun _ => pure _
    · split
      · exact pure _
      · exact raise _

theorem requirePermission {codes : List String} {user : LoadedUser} :
    Quiet env (requirePermission codes user) := by
  unfold LmsBackend.requirePermission
  split
  · exact pure _
  · dsimp only
    split
    · exact raise _
    · exact pure _

theorem moduleGuard {e : Endpoint} : Quiet env (moduleGuard env rc e) := by
  unfold LmsBackend.moduleGuard
  split
  · exact requireModule
  · exact pure _

theorem guards {req : Request} : Quiet env (guards env rc req) := by
  refine moduleGuard.bind fun _ => ?_
  unfold userGuard
  split
  · exact getCurrentUser.bind fun _ => requirePermission.bind fun _ => pure _
  · exact pure _

end Quiet

theorem runM_enabledCodes (tenantId : Uuid) (w : World) (tx : Tx) (txs : List Tx) :
    (runM env (enabledCodes env tenantId) (w, tx :: txs)).1 =
      .ok (enabledIn env w (seen w tx) tenantId) := by
  have hcached : runM env (cachedCodes env tenantId) (w, tx :: txs) =
      (.ok (cachedIn env w tenantId), (w, tx :: txs)) := by
    unfold cachedCodes cachedIn
    split
    · rfl
    · rfl
  have hcompute : (runM env (do
      let codes ← computeEnabled tenantId
      cacheCodes env tenantId codes
      return codes) (w, tx :: txs)).1 = .ok
        ((joinedCodesIn (seen w tx) tenantId fun m tm => tm.enabled && m.isActive).filter
          (· ∉ joinedCodesIn (seen w tx) tenantId fun _ tm =>
            tm.expiresAt.any (· < env.clock w.ticks)) ++ coreModuleCodes.map (·.value)) := by
    unfold cacheCodes
    split
    · rfl
    · rfl
  unfold enabledCodes enabledIn
  rw [runM_bind_ok hcached]
  match cachedIn env w tenantId with
  | some (.codes cs) => rfl
  | some (.text _) => exact hcompute
  | some (.uuid _) => exact hcompute
  | some (.count _) => exact hcompute
  | none => exact hcompute

theorem runM_requireModule (code : ModuleCode) (w : World) (tx : Tx) (txs : List Tx) :
    (runM env (requireModule env rc code) (w, tx :: txs)).1 =
      moduleIn env rc w (seen w tx) code := by
  unfold requireModule moduleIn
  cases rc.tenantId with
  | none => rfl
  | some tid =>
    have henabled := @runM_enabledCodes env tid w tx txs
    dsimp only
    unfold tenantHasModule
    by_cases hcore : code ∈ coreModuleCodes
    · rw [if_pos hcore, if_pos (.inl hcore)]
      rfl
    · rw [if_neg hcore, runM_bind, runM_bind]
      rcases hrun : runM env (enabledCodes env tid) (w, tx :: txs) with ⟨r, s⟩
      rw [hrun] at henabled
      cases henabled
      simp only [runM_pure, hcore, false_or, decide_eq_true_iff]
      split
      · rfl
      · rfl

/-! ## All the guards -/

/-- What the guard of `require_permission` answers. -/
def permissionIn (codes : List String) (user : LoadedUser) : Except Err Unit :=
  if user.user.isSuperuser = true ∨ ∀ c ∈ codes, c ∈ user.permissionCodes then .ok ()
  else .error (.app .permissionDenied
    ("Missing permission(s): " ++
      ", ".intercalate (sortedSet (codes.filter (· ∉ user.permissionCodes))))
    (.required codes))

theorem runM_requirePermission (codes : List String) (user : LoadedUser) (s : State) :
    runM env (requirePermission codes user) s = (permissionIn codes user, s) := by
  have hmissing : sortedSet (codes.filter (· ∉ user.permissionCodes)) = [] ↔
      ∀ c ∈ codes, c ∈ user.permissionCodes := by
    simp only [List.eq_nil_iff_forall_not_mem, mem_sortedSet, List.mem_filter, not_and,
      decide_eq_true_iff, Decidable.not_not]
  unfold requirePermission permissionIn
  by_cases hsuper : user.user.isSuperuser = true
  · rw [if_pos hsuper, if_pos (Or.inl hsuper)]
    rfl
  · rw [if_neg hsuper]
    dsimp only
    by_cases hcodes : ∀ c ∈ codes, c ∈ user.permissionCodes
    · rw [if_neg (not_not_intro (hmissing.mpr hcodes)), if_pos (Or.inr hcodes)]
      rfl
    · rw [if_pos (mt hmissing.mp hcodes), if_neg (not_or.mpr ⟨hsuper, hcodes⟩)]
      rfl

/-- What the module guard of a route answers. -/
def moduleGuardIn (env : Env) (rc : RequestContext) (w : World) (db : Database Row)
    (e : Endpoint) : Except Err Unit :=
  match e.module with
  | some code => moduleIn env rc w db code
  | none => .ok ()

/-- What the user guard of a route answers. -/
def userGuardIn (env : Env) (rc : RequestContext) (req : Request) (now : Time)
    (db : Database Row) : Except Err (Option Caller) :=
  if req.endpoint.user then do
    let c ← currentUserIn env rc req.headers now db
    permissionIn req.endpoint.permissions c.user
    return some c
  else .ok none

/-- What the guards of a route answer: the module guard at the moment of `w`, the
others at the instant `now`. -/
def guardsIn (env : Env) (rc : RequestContext) (req : Request) (w : World) (db : Database Row)
    (now : Time) : Except Err (Option Caller) := do
  moduleGuardIn env rc w db req.endpoint
  userGuardIn env rc req now db

theorem runM_moduleGuard (e : Endpoint) (w : World) (tx : Tx) (txs : List Tx) :
    (runM env (moduleGuard env rc e) (w, tx :: txs)).1 = moduleGuardIn env rc w (seen w tx) e := by
  unfold moduleGuard moduleGuardIn
  cases e.module with
  | none => rfl
  | some code => exact runM_requireModule code w tx txs

theorem Quiet.userGuard {req : Request} : Quiet env (userGuard env rc req) := by
  unfold LmsBackend.userGuard
  split
  · exact getCurrentUser.bind fun _ => requirePermission.bind fun _ => pure _
  · exact pure _

theorem runM_userGuard (req : Request) (w : World) (tx : Tx) (txs : List Tx) :
    (runM env (userGuard env rc req) (w, tx :: txs)).1 =
      userGuardIn env rc req (env.clock w.ticks) (seen w tx) := by
  unfold userGuard userGuardIn
  split
  · obtain ⟨w₁, hrun, -, -⟩ :=
      (@Quiet.getCurrentUser env rc req.headers).run w (tx :: txs)
    rw [runM_getCurrentUser] at hrun
    cases hc : currentUserIn env rc req.headers (env.clock w.ticks) (seen w tx) with
    | error e =>
      rw [hc] at hrun
      rw [runM_bind_error hrun]
      rfl
    | ok c =>
      rw [hc] at hrun
      rw [runM_bind_ok hrun, runM_bind, runM_requirePermission]
      cases hp : permissionIn req.endpoint.permissions c.user with
      | error e => simp [hp, bind, Except.bind]
      | ok u => simp [hp, bind, Except.bind, pure, Except.pure]
  · rfl

/-- The guards leave the state alone. The user's token is read against a clock
reading between the beginning and the end of the guards. -/
theorem runM_guards (req : Request) (w : World) (tx : Tx) (txs : List Tx) :
    ∃ i w', runM env (guards env rc req) (w, tx :: txs) =
        (guardsIn env rc req w (seen w tx) (env.clock i), (w', tx :: txs)) ∧
      w.Still w' ∧ w.Older w' ∧ w.ticks ≤ i ∧ i ≤ w'.ticks := by
  obtain ⟨w₁, hmodule, hstill₁, holder₁⟩ :=
    (@Quiet.moduleGuard env rc req.endpoint).run w (tx :: txs)
  obtain ⟨w₂, huser, hstill₂, holder₂⟩ :=
    (@Quiet.userGuard env rc req).run w₁ (tx :: txs)
  rw [runM_moduleGuard] at hmodule
  rw [runM_userGuard, hstill₁.seen] at huser
  have heq : guardsIn env rc req w (seen w tx) (env.clock w₁.ticks) =
      (moduleGuardIn env rc w (seen w tx) req.endpoint >>= fun _ =>
        userGuardIn env rc req (env.clock w₁.ticks) (seen w tx)) := rfl
  cases hm : moduleGuardIn env rc w (seen w tx) req.endpoint with
  | error e =>
    rw [hm] at hmodule heq
    refine ⟨w₁.ticks, w₁, ?_, hstill₁, holder₁, holder₁.ticks, le_refl _⟩
    rw [heq, guards, runM_bind_error hmodule]
    rfl
  | ok u =>
    rw [hm] at hmodule heq
    refine ⟨w₁.ticks, w₂, ?_, hstill₁.trans hstill₂, holder₁.trans holder₂, holder₁.ticks,
      holder₂.ticks⟩
    rw [heq, guards, runM_bind_ok hmodule, huser]
    rfl

/-- The guards that let a request pass found an admissible caller, or none where
the route asks for none. -/
theorem guardsIn_ok {req : Request} {w : World} {db : Database Row} {now : Time}
    {caller : Option Caller} (h : guardsIn env rc req w db now = .ok caller) :
    moduleGuardIn env rc w db req.endpoint = .ok () ∧
      match caller with
      | none => req.endpoint.user = false
      | some c => req.endpoint.user = true ∧
        currentUserIn env rc req.headers now db = .ok c ∧
        permissionIn req.endpoint.permissions c.user = .ok () := by
  cases hm : moduleGuardIn env rc w db req.endpoint with
  | error e => rw [guardsIn, hm] at h; cases h
  | ok u =>
    rw [guardsIn, hm] at h
    refine ⟨rfl, ?_⟩
    replace h : userGuardIn env rc req now db = .ok caller := h
    unfold userGuardIn at h
    split at h
    · rename_i huser
      cases hc : currentUserIn env rc req.headers now db with
      | error e => rw [hc] at h; cases h
      | ok c =>
        rw [hc] at h
        cases hp : permissionIn req.endpoint.permissions c.user with
        | error e => simp [hp, bind, Except.bind] at h
        | ok u =>
          simp only [hp, bind, Except.bind, pure, Except.pure, Except.ok.injEq] at h
          cases h
          exact ⟨huser, rfl, hp⟩
    · rename_i huser
      cases h
      exact Bool.eq_false_iff.mpr huser

end LmsBackend
