import LmsBackend.Authority.Students
import LmsBackend.Effects.Updates
import LmsBackend.Isolation.Gateway

/-!
# Where authority comes from

The roles of an account are rows of `user_roles`. Four routes write accounts or their roles:
registration, the user administration, and `create_tenant`, which flags an account as superuser.

- `Gives env e u r`: the exchange `e` gives the account `u` the role `r`. `Rewrites env e u`: it
  sets the roles of `u` anew.
- `serve_assigned_iff`: the assignments after one request.
- `Granted`: the last word of a history about an assignment. `Run.assigned_iff`: it decides.
- `holds_iff`: the permissions of an account in every reachable state.
- `authority_traced`: whoever is authorised and was not at the start got it from a registration,
  or from an account that was authorised to give it.
-/

namespace LmsBackend

open Mvcc

variable {env : Env} {w w₀ : World} {req : Request} {rc : RequestContext} {h : List Exchange}
  {Ok : List Exchange → World → Request → Prop} {e : Exchange} {userId roleId tid : Uuid}
  {code : String}

/-! ## Assignments -/

/-- The account has the role. -/
def Assigned (w : World) (userId roleId : Uuid) : Prop :=
  (⟨userId, roleId⟩ : UserRole) ∈ w.db .userRoles

/-- A role of the tenant of the request, with one of the codes. -/
def NamesRole (env : Env) (e : Exchange) (codes : List String) (roleId : Uuid) : Prop :=
  ∃ r ∈ e.pre.db .roles, r.id = roleId ∧ ctxTenant env e.pre e.req = some r.tenantId ∧
    r.code ∈ codes

/-- The exchange opens the account. -/
def Opens (e : Exchange) (userId : Uuid) : Prop :=
  e.pre.nextUuid ≤ userId ∧ ∃ u ∈ e.post.db .users, u.id = userId

/-- The exchange gives the account the role. -/
inductive Gives (env : Env) (e : Exchange) (userId roleId : Uuid) : Prop
  | register (data : RegisterRequest) (endpoint : e.req.endpoint = .register data) (body : Body)
      (answered : e.resp = .ok body) (opens : Opens e userId)
      (role : NamesRole env e [RoleCode.student.value] roleId)
  | create (data : AdminUserCreate) (endpoint : e.req.endpoint = .createUser data) (body : Body)
      (answered : e.resp = .ok body) (opens : Opens e userId)
      (role : NamesRole env e data.roleCodes roleId)
  | update (data : AdminUserUpdate) (codes : List String)
      (endpoint : e.req.endpoint = .updateUser userId data) (sent : data.roleCodes = some codes)
      (body : Body) (answered : e.resp = .ok body) (role : NamesRole env e codes roleId)

/-- The exchange sets the roles of the account anew. -/
def Rewrites (e : Exchange) (userId : Uuid) : Prop :=
  ∃ data codes body, e.req.endpoint = .updateUser userId data ∧ data.roleCodes = some codes ∧
    e.resp = .ok body

/-- Roles are identified, and those of an account belong to its tenant. -/
structure Rostered (w : World) : Prop where
  registry : Registry w
  roleIds : ((w.db .roles).map (·.id)).Nodup
  own : ∀ ur ∈ w.db .userRoles, ∀ u ∈ w.db .users, u.id = ur.userId →
    ∃ r ∈ w.db .roles, r.id = ur.roleId ∧ r.tenantId = u.tenantId

/-! ## The assignments after one request -/

/-- The roles of the tenant with the codes that a request sees. -/
theorem mem_rolesByCodesIn (hrls : env.settings.enableRowLevelSecurity = true)
    (htid : rc.tenantId = some tid) {codes : List String} :
    (∃ lr ∈ rolesByCodesIn (seen w (requestTx env rc)) rc codes, lr.role.id = roleId) ↔
      ∃ r ∈ w.db .roles, r.id = roleId ∧ r.tenantId = tid ∧ r.code ∈ codes := by
  have hmem : ∀ r : Role, r ∈ (seen w (requestTx env rc) .roles).filter
      (fun r => inScope rc .roles r && decide (r.code ∈ codes)) ↔
      r ∈ w.db .roles ∧ r.tenantId = tid ∧ r.code ∈ codes := by
    intro r
    rw [List.mem_filter, Bool.and_eq_true, decide_eq_true_iff,
      mem_seen_tenant hrls (by simp [rlsTables])]
    constructor
    · rintro ⟨⟨hr, tid', htid', htenant⟩, -, hcode⟩
      cases htid.symm.trans htid'
      exact ⟨hr, Option.some.inj htenant, hcode⟩
    · rintro ⟨hr, htenant, hcode⟩
      refine ⟨⟨hr, tid, htid, congrArg some htenant⟩, ?_, hcode⟩
      simp [inScope, deletedAtOf, tenantOf, htid, htenant]
  constructor
  · rintro ⟨lr, hlr, hid⟩
    obtain ⟨hr, htenant, hcode⟩ := (hmem lr.role).mp (mem_loadRolesIn hlr).1
    exact ⟨lr.role, hr, hid, htenant, hcode⟩
  · rintro ⟨r, hr, hid, htenant, hcode⟩
    exact ⟨_, List.mem_map_of_mem ((hmem r).mpr ⟨hr, htenant, hcode⟩), hid⟩

theorem mem_assigned {roles : List LoadedRole} {userId' : Uuid} :
    (⟨userId, roleId⟩ : UserRole) ∈ assigned userId' roles ↔
      userId = userId' ∧ ∃ lr ∈ roles, lr.role.id = roleId := by
  constructor
  · intro hmem
    obtain ⟨lr, hlr, heq⟩ := List.mem_map.mp hmem
    cases heq
    exact ⟨rfl, lr, hlr, rfl⟩
  · rintro ⟨rfl, lr, hlr, rfl⟩
    exact List.mem_map.mpr ⟨lr, hlr, rfl⟩

/-- A new account is the one that its request opens. -/
theorem Joined.opens {u : User} (hj : Joined w tid u (serve env w req).2) (ha : Accounts w) :
    Opens (exchange env w req) userId ↔ userId = u.id := by
  constructor
  · rintro ⟨hfresh, v, hv, hid⟩
    have hmem : v ∈ w.db .users ++ [u] := hj.users ▸ hv
    rcases List.mem_append.mp hmem with hold | hnew
    · exact absurd (hid ▸ hfresh) (Nat.not_le.mpr (ha.drawn v hold))
    · rw [← hid, List.mem_singleton.mp hnew]
  · rintro rfl
    refine ⟨hj.fresh, u, ?_, rfl⟩
    show u ∈ (serve env w req).2.db .users
    rw [hj.users]
    exact List.mem_append_right _ (List.mem_singleton_self u)

theorem gives_register {data : RegisterRequest} {body : Body}
    (he : e.req.endpoint = .register data) (hok : e.resp = .ok body) :
    Gives env e userId roleId ↔
      Opens e userId ∧ NamesRole env e [RoleCode.student.value] roleId := by
  refine ⟨fun hg => ?_, fun hg => .register data he body hok hg.1 hg.2⟩
  cases hg with
  | register data' he' body' hok' opens role => exact ⟨opens, role⟩
  | create data' he' body' hok' opens role => cases he.symm.trans he'
  | update data' codes he' sent body' hok' role => cases he.symm.trans he'

theorem gives_create {data : AdminUserCreate} {body : Body}
    (he : e.req.endpoint = .createUser data) (hok : e.resp = .ok body) :
    Gives env e userId roleId ↔ Opens e userId ∧ NamesRole env e data.roleCodes roleId := by
  refine ⟨fun hg => ?_, fun hg => .create data he body hok hg.1 hg.2⟩
  cases hg with
  | register data' he' body' hok' opens role => cases he.symm.trans he'
  | create data' he' body' hok' opens role =>
    cases he.symm.trans he'
    exact ⟨opens, role⟩
  | update data' codes he' sent body' hok' role => cases he.symm.trans he'

theorem gives_update {data : AdminUserUpdate} {body : Body} {uid : Uuid}
    (he : e.req.endpoint = .updateUser uid data) (hok : e.resp = .ok body) :
    Gives env e userId roleId ↔
      userId = uid ∧ ∃ codes, data.roleCodes = some codes ∧ NamesRole env e codes roleId := by
  constructor
  · intro hg
    cases hg with
    | register data' he' body' hok' opens role => cases he.symm.trans he'
    | create data' he' body' hok' opens role => cases he.symm.trans he'
    | update data' codes he' sent body' hok' role =>
      cases he.symm.trans he'
      exact ⟨rfl, codes, sent, role⟩
  · rintro ⟨rfl, codes, sent, role⟩
    exact .update data codes he sent body hok role

theorem not_rewrites (he : ∀ uid data, e.req.endpoint ≠ .updateUser uid data) :
    ¬ Rewrites e userId := by
  rintro ⟨data, codes, body, hupdate, -⟩
  exact he _ _ hupdate

/-- A request that opens an account with roles adds their assignments. -/
theorem assigned_opened {u : User} {roles : List LoadedRole} {codes : List String}
    (ha : Accounts w) (hj : Joined w tid u (serve env w req).2)
    (hrows : (serve env w req).2.db .userRoles = w.db .userRoles ++ assigned u.id roles)
    (hroles : (∃ lr ∈ roles, lr.role.id = roleId) ↔
      NamesRole env (exchange env w req) codes roleId) :
    Assigned (serve env w req).2 userId roleId ↔
      (Opens (exchange env w req) userId ∧ NamesRole env (exchange env w req) codes roleId) ∨
        Assigned w userId roleId := by
  rw [Assigned, hrows, List.mem_append, mem_assigned, hj.opens ha, hroles, or_comm]
  rfl

/-- An update of the roles leaves the account with those that it names. -/
theorem assigned_updated {u : LoadedUser} {codes : List String} {data : AdminUserUpdate}
    (hrls : env.settings.enableRowLevelSecurity = true) (hros : Rostered w)
    (htid : rc.tenantId = some tid) (hctx : ctxTenant env w req = some tid)
    (hone : usersIn (seen w (requestTx env rc)) rc (fun v => v.id = userId) = [u])
    (hsent : data.roleCodes = some codes)
    (hrows : (serve env w req).2.db .userRoles = (w.db .userRoles).filter (fun ur =>
        (leaving u (updatedRoles (seen w (requestTx env rc)) rc u data.roleCodes)).all fun r =>
          decide (¬(ur.userId = userId ∧ ur.roleId = r.role.id))) ++
      assigned userId (joining u (updatedRoles (seen w (requestTx env rc)) rc u data.roleCodes))) :
    Assigned (serve env w req).2 userId roleId ↔
      NamesRole env (exchange env w req) codes roleId := by
  obtain ⟨humem, hutenant, -, huid⟩ := usersIn_request hone
  have huid : u.user.id = userId := of_decide_eq_true huid
  have hloaded : u ∈ loadUsersIn (seen w (requestTx env rc)) _ := hone ▸ List.mem_singleton_self u
  have hnamed : NamesRole env (exchange env w req) codes roleId ↔
      ∃ lr ∈ rolesByCodesIn (seen w (requestTx env rc)) rc codes, lr.role.id = roleId := by
    rw [mem_rolesByCodesIn hrls htid]
    refine exists_congr fun r => and_congr_right fun _ => and_congr_right fun _ => ?_
    rw [show ctxTenant env (exchange env w req).pre (exchange env w req).req = some tid from hctx,
      Option.some.injEq, eq_comm]
  -- the roles of the account are of its tenant, so that the request sees them
  have hheld : Assigned w userId roleId → ∃ lr ∈ u.roles, lr.role.id = roleId := by
    intro hassigned
    obtain ⟨r, hr, hid, htenant⟩ := hros.own _ hassigned u.user humem huid
    have hseen : r ∈ seen w (requestTx env rc) .roles :=
      (mem_seen_tenant hrls (by simp [rlsTables])).mpr
        ⟨hr, u.user.tenantId, hutenant, congrArg some htenant⟩
    have hrow : (⟨u.user.id, r.id⟩ : UserRole) ∈ seen w (requestTx env rc) .userRoles := by
      refine (mem_seen rfl).mpr ⟨?_, rfl⟩
      rw [huid, hid]
      exact hassigned
    obtain ⟨lr, hlr, rfl⟩ := (mem_loadedRoles hloaded).mpr ⟨hseen, hrow⟩
    exact ⟨lr, hlr, hid⟩
  have hkept : (∃ lr ∈ u.roles, lr.role.id = roleId) → Assigned w userId roleId := by
    rintro ⟨lr, hlr, rfl⟩
    have hrow := ((mem_loadedRoles hloaded).mp ⟨lr, hlr, rfl⟩).2
    rw [huid] at hrow
    exact ((mem_seen rfl).mp hrow).1
  rw [hsent] at hrows
  rw [Assigned, hrows, List.mem_append, mem_assigned, hnamed]
  generalize hnew : rolesByCodesIn (seen w (requestTx env rc)) rc codes = roles
  have hupdated : updatedRoles (seen w (requestTx env rc)) rc u (some codes) = roles := hnew
  rw [hupdated]
  simp only [List.mem_filter, List.all_eq_true, leaving, joining, decide_eq_true_iff]
  constructor
  · rintro (⟨hrow, hstays⟩ | ⟨-, lr, ⟨hlr, -⟩, hid⟩)
    · obtain ⟨lr, hlr, hid⟩ := hheld hrow
      by_contra hnone
      refine hstays lr ⟨hlr, fun lr' hlr' heq => hnone ⟨lr', hlr', heq.trans hid⟩⟩
        ⟨trivial, hid.symm⟩
    · exact ⟨lr, hlr, hid⟩
  · rintro ⟨lr, hlr, hid⟩
    by_cases hbefore : ∃ lr' ∈ u.roles, lr'.role.id = roleId
    · refine .inl ⟨hkept hbefore, fun lr' hlr' hsame => ?_⟩
      exact hlr'.2 lr hlr (hid.trans hsame.2)
    · exact .inr ⟨trivial, lr, ⟨hlr, fun lr' hlr' heq => hbefore ⟨lr', hlr', heq.trans hid⟩⟩, hid⟩

/-- A registration adds the student role of its tenant to the account that it opens. -/
theorem register_assigned {data : RegisterRequest} {body : Body} (ha : Accounts w)
    (hendpoint : req.endpoint = .register data)
    (hs : serve env w req = (.ok body, (serve env w req).2)) :
    Assigned (serve env w req).2 userId roleId ↔
      Gives env (exchange env w req) userId roleId ∨
        Assigned w userId roleId ∧ ¬ Rewrites (exchange env w req) userId := by
  have he : (exchange env w req).req.endpoint = .register data := hendpoint
  have hok : (exchange env w req).resp = .ok body := congrArg Prod.fst hs
  obtain ⟨rc, tid, out, hctx, htid, -, hjoined, hpolicy, hroles, hrows, -⟩ :=
    serve_register hendpoint hs
  have hguc := requestTx_tenant hpolicy
  rw [hjoined.tenant] at hguc
  have hnew : (∃ lr ∈ out.roles, lr.role.id = roleId) ↔
      NamesRole env (exchange env w req) [RoleCode.student.value] roleId := by
    rw [hroles, mem_rolesByCodeIn htid hguc]
    have hcode : ∀ r : Role, r.code ∈ [RoleCode.student.value] ↔ r.code = "student" :=
      fun r => List.mem_singleton
    constructor
    · rintro ⟨r, hr, ⟨htenant, hstudent⟩, hid⟩
      exact ⟨r, hr, hid, (hctx.trans htid).trans (congrArg some htenant.symm),
        (hcode r).mpr hstudent⟩
    · rintro ⟨r, hr, hid, htenant, hstudent⟩
      exact ⟨r, hr, ⟨(Option.some.inj ((hctx.trans htid).symm.trans htenant)).symm,
        (hcode r).mp hstudent⟩, hid⟩
  have hnot : ¬ Rewrites (exchange env w req) userId :=
    not_rewrites fun uid d h => by cases he.symm.trans h
  rw [assigned_opened ha hjoined hrows hnew, gives_register he hok, iff_true_intro hnot, and_true]

/-- `create_user` adds the roles that it names to the account that it opens. -/
theorem createUser_assigned {data : AdminUserCreate} {body : Body} (ha : Accounts w)
    (hrls : env.settings.enableRowLevelSecurity = true)
    (hendpoint : req.endpoint = .createUser data)
    (hs : serve env w req = (.ok body, (serve env w req).2)) :
    Assigned (serve env w req).2 userId roleId ↔
      Gives env (exchange env w req) userId roleId ∨
        Assigned w userId roleId ∧ ¬ Rewrites (exchange env w req) userId := by
  have he : (exchange env w req).req.endpoint = .createUser data := hendpoint
  have hok : (exchange env w req).resp = .ok body := congrArg Prod.fst hs
  obtain ⟨rc, c, s, w₁, u, hadm, hjoined, hrows, -⟩ := serve_createUser hendpoint hs
  have htid := hadm.known.tenant
  have hnew : (∃ lr ∈ askedRoles (seen w (requestTx env rc)) rc data.roleCodes,
      lr.role.id = roleId) ↔ NamesRole env (exchange env w req) data.roleCodes roleId := by
    rw [askedRoles]
    by_cases hnil : data.roleCodes = []
    · rw [if_pos hnil, NamesRole, hnil]
      simp
    · rw [if_neg hnil, mem_rolesByCodesIn hrls htid]
      refine exists_congr fun r => and_congr_right fun _ => and_congr_right fun _ => ?_
      rw [show ctxTenant env (exchange env w req).pre (exchange env w req).req =
        some c.user.user.tenantId from hadm.tenant.trans htid, Option.some.injEq, eq_comm]
  have hnot : ¬ Rewrites (exchange env w req) userId :=
    not_rewrites fun uid d h => by cases he.symm.trans h
  rw [assigned_opened ha hjoined hrows hnew, gives_create he hok, iff_true_intro hnot, and_true]

/-- The roles stay when they are set to what they are. -/
theorem leaving_self (u : LoadedUser) : leaving u u.roles = [] :=
  List.filter_eq_nil_iff.mpr fun r hr hall =>
    absurd rfl (of_decide_eq_true (List.all_eq_true.mp hall r hr))

theorem joining_self (u : LoadedUser) : joining u u.roles = [] :=
  List.filter_eq_nil_iff.mpr fun r hr hall =>
    absurd rfl (of_decide_eq_true (List.all_eq_true.mp hall r hr))

/-- `update_user` sets the roles of its account, when its payload has any. -/
theorem updateUser_assigned {data : AdminUserUpdate} {body : Body} {uid : Uuid}
    (hrls : env.settings.enableRowLevelSecurity = true) (hros : Rostered w)
    (hendpoint : req.endpoint = .updateUser uid data)
    (hs : serve env w req = (.ok body, (serve env w req).2)) :
    Assigned (serve env w req).2 userId roleId ↔
      Gives env (exchange env w req) userId roleId ∨
        Assigned w userId roleId ∧ ¬ Rewrites (exchange env w req) userId := by
  have he : (exchange env w req).req.endpoint = .updateUser uid data := hendpoint
  have hok : (exchange env w req).resp = .ok body := congrArg Prod.fst hs
  obtain ⟨rc, c, s, w₁, u, hadm, hone, -, hrows⟩ := serve_updateUser hendpoint hs
  have htid := hadm.known.tenant
  rw [gives_update he hok]
  cases hsent : data.roleCodes with
  | none =>
    -- without roles in the payload, the collection stays as it is
    rw [hsent] at hrows
    have hkept : (serve env w req).2.db .userRoles = w.db .userRoles := by
      rw [hrows]
      show (w.db .userRoles).filter (fun ur => (leaving u u.roles).all _) ++
        assigned uid (joining u u.roles) = _
      rw [leaving_self, joining_self]
      simp [assigned]
    have hnot : ¬ Rewrites (exchange env w req) userId := by
      rintro ⟨data', codes, body', he', hcodes, -⟩
      cases he.symm.trans he'
      cases hsent.symm.trans hcodes
    rw [Assigned, hkept]
    exact ⟨fun hrow => .inr ⟨hrow, hnot⟩, fun hor => hor.elim (by simp) And.left⟩
  | some codes =>
    by_cases huid : userId = uid
    · subst huid
      have hset : Rewrites (exchange env w req) userId := ⟨data, codes, body, he, hsent, hok⟩
      rw [assigned_updated hrls hros htid (hadm.tenant.trans htid) hone hsent hrows]
      simp [hset]
    · -- the roles of another account are none of this update's
      have hnot : ¬ Rewrites (exchange env w req) userId := by
        rintro ⟨data', codes', body', he', -⟩
        cases he.symm.trans he'
        exact huid rfl
      rw [Assigned, hrows, List.mem_append, mem_assigned, List.mem_filter]
      simp [huid, hnot, Assigned]

/-- **One request**: afterwards an account has the roles that the request gives it, and those that
it had unless the request sets them anew. -/
theorem serve_assigned_iff (hrls : env.settings.enableRowLevelSecurity = true) (hros : Rostered w)
    (req : Request) : Assigned (serve env w req).2 userId roleId ↔
      Gives env (exchange env w req) userId roleId ∨
        Assigned w userId roleId ∧ ¬ Rewrites (exchange env w req) userId := by
  -- a request that does not touch `user_roles` gives nothing
  have hsame : (serve env w req).2.db .userRoles = w.db .userRoles →
      ¬ Gives env (exchange env w req) userId roleId → ¬ Rewrites (exchange env w req) userId →
      (Assigned (serve env w req).2 userId roleId ↔ Gives env (exchange env w req) userId roleId ∨
        Assigned w userId roleId ∧ ¬ Rewrites (exchange env w req) userId) := by
    intro hrows hgives hrewrites
    rw [Assigned, hrows]
    exact ⟨fun hrow => .inr ⟨hrow, hrewrites⟩, fun hor => (hor.resolve_left hgives).1⟩
  by_cases ht : .userRoles ∈ req.endpoint.writes
  · cases hresp : (serve env w req).1 with
    | error err =>
      -- the routes that write `user_roles` also write accounts, and change neither when they fail
      have husers : .users ∈ req.endpoint.writes := by
        obtain ⟨headers, client, endpoint, valid⟩ := req
        cases endpoint <;> simp [Endpoint.writes] at ht ⊢
      have hno : ∀ body, (exchange env w req).resp ≠ .ok body := by
        intro body hok
        cases hresp.symm.trans hok
      refine hsame (serve_users_error husers (Prod.ext hresp rfl) .userRoles (by decide)) ?_ ?_
      · rintro (⟨-, -, body, hok, -⟩ | ⟨-, -, body, hok, -⟩ | ⟨-, -, -, -, body, hok, -⟩) <;>
          exact hno body hok
      · rintro ⟨-, -, body, -, -, hok⟩
        exact hno body hok
    | ok body =>
      have hs : serve env w req = (.ok body, (serve env w req).2) := Prod.ext hresp rfl
      cases hendpoint : req.endpoint with
      | register data => exact register_assigned hros.registry.accounts hendpoint hs
      | createUser data => exact createUser_assigned hros.registry.accounts hrls hendpoint hs
      | updateUser uid data => exact updateUser_assigned hrls hros hendpoint hs
      | _ => simp [hendpoint, Endpoint.writes] at ht
  · refine hsame (serve_frame env w req ht) ?_ ?_
    · rintro (⟨data, he, -⟩ | ⟨data, he, -⟩ | ⟨data, codes, he, -⟩) <;>
        exact ht (by rw [show req.endpoint = _ from he]; simp [Endpoint.writes])
    · rintro ⟨data, codes, body, he, -⟩
      exact ht (by rw [show req.endpoint = _ from he]; simp [Endpoint.writes])

/-! ## Roles belong to the tenant -/

/-- The account that an exchange gives a role belongs to the tenant of the exchange. -/
theorem Gives.tenant (hg : Gives env (exchange env w req) userId roleId) (hreg : Registry w)
    {v : User} (hv : v ∈ (serve env w req).2.db .users) (hid : v.id = userId) :
    ctxTenant env w req = some v.tenantId := by
  have hjoined : ∀ {tid : Uuid} {u : User}, Joined w tid u (serve env w req).2 →
      Opens (exchange env w req) userId → v.tenantId = tid := by
    intro tid u hj hopens
    have hmem : v ∈ w.db .users ++ [u] := hj.users ▸ hv
    rcases List.mem_append.mp hmem with hold | hnew
    · exact absurd (hid ▸ hopens.1) (Nat.not_le.mpr (hreg.accounts.drawn v hold))
    · rw [List.mem_singleton.mp hnew]
      exact hj.tenant
  cases hg with
  | register data he body hok hopens role =>
    obtain ⟨rc, tid, out, hctx, htid, -, hj, -⟩ := serve_register he (Prod.ext hok rfl)
    rw [hjoined hj hopens]
    exact hctx.trans htid
  | create data he body hok hopens role =>
    obtain ⟨rc, c, s, w₁, u, hadm, hj, -⟩ := serve_createUser he (Prod.ext hok rfl)
    rw [hjoined hj hopens]
    exact hadm.tenant.trans hadm.known.tenant
  | update data codes he sent body hok role =>
    obtain ⟨rc, c, s, w₁, u, hadm, hone, -⟩ := serve_updateUser he (Prod.ext hok rfl)
    obtain ⟨humem, hutenant, -, huid⟩ := usersIn_request hone
    have huid : u.user.id = userId := of_decide_eq_true huid
    obtain ⟨v', hv', hsame⟩ := (@serve_users env w req hreg.sessionIds).stays hreg.accounts humem
    have hunique := (@Registry.serve env w hreg req).accounts.ids
    obtain rfl := List.inj_on_of_nodup_map hunique hv' hv ((hsame.id.trans huid).trans hid.symm)
    rw [hsame.tenant]
    exact hadm.tenant.trans hutenant

/-- **One request** keeps the roles of the accounts in their tenants. -/
theorem Rostered.serve (hrls : env.settings.enableRowLevelSecurity = true) (hros : Rostered w)
    (req : Request) : Rostered (serve env w req).2 := by
  have hroles : (LmsBackend.serve env w req).2.db .roles = w.db .roles :=
    serve_frame env w req (not_mem_writes_roles req)
  refine ⟨hros.registry.serve req, hroles ▸ hros.roleIds, fun ur hur v hv hid => ?_⟩
  rw [hroles]
  rcases (serve_assigned_iff hrls hros req).mp hur with hgives | ⟨hold, -⟩
  · have htenant := hgives.tenant hros.registry hv hid
    have hnames : ∃ codes, NamesRole env (exchange env w req) codes ur.roleId := by
      cases hgives with
      | register data he body hok hopens role => exact ⟨_, role⟩
      | create data he body hok hopens role => exact ⟨_, role⟩
      | update data codes he sent body hok role => exact ⟨_, role⟩
    obtain ⟨codes, r, hr, hrid, hctx, -⟩ := hnames
    exact ⟨r, hr, hrid, Option.some.inj (hctx.symm.trans htenant)⟩
  · obtain ⟨u, hu, hsame⟩ | hnew := (@serve_users env w req hros.registry.sessionIds).came hv
    · obtain ⟨r, hr, hrid, htenant⟩ := hros.own ur hold u hu (hsame.id.symm.trans hid)
      exact ⟨r, hr, hrid, htenant.trans hsame.tenant.symm⟩
    · exact absurd (hid ▸ hnew) (Nat.not_le.mpr (hros.registry.assigned ur hold))

theorem Run.rostered (hr : Run env Ok w₀ h w) (hrls : env.settings.enableRowLevelSecurity = true)
    (hros : Rostered w₀) : Rostered w := by
  induction hr with
  | start => exact hros
  | serve req run ok ih => exact ih.serve hrls req

/-! ## The last word -/

/-- The history gave the account the role and has not set its roles anew since, or has never
touched it. -/
def Granted (env : Env) (w₀ : World) (h : List Exchange) (userId roleId : Uuid) : Prop :=
  (∃ after e before, h = after ++ e :: before ∧ Gives env e userId roleId ∧
    ∀ e' ∈ after, ¬ Rewrites e' userId) ∨
  Assigned w₀ userId roleId ∧ ∀ e ∈ h, ¬ Rewrites e userId

theorem granted_cons : Granted env w₀ (e :: h) userId roleId ↔
    Gives env e userId roleId ∨ Granted env w₀ h userId roleId ∧ ¬ Rewrites e userId := by
  constructor
  · rintro (⟨after, e₁, before, hsplit, hgives, hkept⟩ | ⟨hstart, hkept⟩)
    · cases after with
      | nil =>
        obtain ⟨rfl, rfl⟩ := List.cons.inj hsplit
        exact .inl hgives
      | cons e₂ after =>
        obtain ⟨rfl, rfl⟩ := List.cons.inj hsplit
        exact .inr ⟨.inl ⟨after, e₁, before, rfl, hgives,
          fun e' he' => hkept e' (List.mem_cons_of_mem _ he')⟩, hkept _ List.mem_cons_self⟩
    · exact .inr ⟨.inr ⟨hstart, fun e' he' => hkept e' (List.mem_cons_of_mem _ he')⟩,
        hkept e List.mem_cons_self⟩
  · rintro (hgives | ⟨⟨after, e₁, before, rfl, hgives, hkept⟩ | ⟨hstart, hkept⟩, hnot⟩)
    · exact .inl ⟨[], e, h, rfl, hgives, fun _ he' => (by cases he')⟩
    · refine .inl ⟨e :: after, e₁, before, rfl, hgives, fun e' he' => ?_⟩
      rcases List.mem_cons.mp he' with rfl | he'
      · exact hnot
      · exact hkept e' he'
    · refine .inr ⟨hstart, fun e' he' => ?_⟩
      rcases List.mem_cons.mp he' with rfl | he'
      · exact hnot
      · exact hkept e' he'

/-- **Every run**: an account has the roles on which the history has the last word. -/
theorem Run.assigned_iff (hr : Run env Ok w₀ h w)
    (hrls : env.settings.enableRowLevelSecurity = true) (hros : Rostered w₀) :
    Assigned w userId roleId ↔ Granted env w₀ h userId roleId := by
  induction hr with
  | start =>
    constructor
    · exact fun hrow => .inr ⟨hrow, fun e he => (by cases he)⟩
    · rintro (⟨after, e, before, hsplit, -⟩ | ⟨hrow, -⟩)
      · exact absurd hsplit (by simp)
      · exact hrow
  | serve req run ok ih =>
    rw [serve_assigned_iff hrls (run.rostered hrls hros) req, granted_cons, ih]

/-- The permissions behind an assignment stay what they were at the start. -/
theorem Run.holds (hr : Run env Ok w₀ h w) : Holds w.db userId code ↔
    ∃ r ∈ w₀.db .roles, Assigned w userId r.id ∧ Grants w₀.db r.id code := by
  have hgrants := grants_congr (hr.frame not_mem_writes_rolePermissions)
    (hr.frame not_mem_writes_permissions)
  rw [Holds, hr.frame not_mem_writes_roles]
  constructor
  · rintro ⟨ur, hur, r, hrole, rfl, hid, hgrant⟩
    refine ⟨r, hrole, ?_, (hgrants r.id code).mp hgrant⟩
    rw [Assigned, ← hid]
    exact hur
  · rintro ⟨r, hrole, hassigned, hgrant⟩
    exact ⟨_, hassigned, r, hrole, rfl, rfl, (hgrants r.id code).mpr hgrant⟩

namespace Students

/-- The platform administrator makes the student of its tenant an administrator of it. -/
def promote : Request where
  headers := [("x-request-id", "r"), ("authorization", "Bearer root")]
  endpoint := .updateUser 60 { roleCodes := some [RoleCode.tenantAdmin.value] }

/-- The roles that the script leaves belong to the tenants of their accounts. -/
theorem rostered : Rostered world := by
  have hroles := tables.2.1
  refine ⟨seeded_database.registry, ?_, by decide +kernel⟩
  have hids : (world.db .roles).map (·.id) = [40, 41, 42, 43, 54, 55, 56, 57] := by
    have hmap := congrArg (List.map (·.1)) hroles
    rw [List.map_map] at hmap
    exact hmap
  rw [hids]
  decide

/-- The administrator has logged in. -/
@[irreducible] def entered : World := (serve platform world login).2

theorem entered_eq : entered = (serve platform world login).2 := by rw [entered]

/-- The history after the promotion. -/
def promoted : List Exchange := [exchange platform entered promote, exchange platform world login]

theorem run_promoted :
    Run platform (fun _ _ _ => True) world promoted (serve platform entered promote).2 := by
  have hrun : Run platform (fun _ _ _ => True) world [exchange platform world login] entered :=
    entered_eq ▸ .serve login .start trivial
  exact .serve promote hrun trivial

/-- The role that the student gets, with a permission that it has. -/
theorem promotion : ∃ r ∈ world.db .roles, Granted platform world promoted 60 r.id ∧
    Grants world.db r.id "user:create" := by
  have hanswer : (serve platform entered promote).1.user?.isSome = true := by
    rw [entered_eq]
    decide +kernel
  obtain ⟨v, hv⟩ := Option.isSome_iff_exists.mp hanswer
  have hctx : ctxTenant platform entered promote = some 47 := by
    rw [entered_eq]
    decide +kernel
  have hrole : (55, 47, "tenant_admin") ∈
      (world.db .roles).map (fun r => (r.id, r.tenantId, r.code)) := by
    rw [tables.2.1]
    decide
  obtain ⟨r, hr, heq⟩ := List.mem_map.mp hrole
  obtain ⟨hid, htenant, hcode⟩ : r.id = 55 ∧ r.tenantId = 47 ∧ r.code = "tenant_admin" :=
    ⟨congrArg (·.1) heq, congrArg (·.2.1) heq, congrArg (·.2.2) heq⟩
  have hgrants : Grants world.db 55 "user:create" := mem_grantedCodes.mp (by decide +kernel)
  have hlater : r ∈ entered.db .roles := by
    rw [entered_eq, serve_frame platform world login (not_mem_writes_roles login)]
    exact hr
  have hnames : NamesRole platform (exchange platform entered promote) [RoleCode.tenantAdmin.value]
      r.id :=
    ⟨r, hlater, rfl, hctx.trans (congrArg some htenant.symm), List.mem_singleton.mpr hcode⟩
  refine ⟨r, hr, .inl ⟨[], _, _, rfl, ?_, fun _ he => (by cases he)⟩, hid ▸ hgrants⟩
  exact .update { roleCodes := some [RoleCode.tenantAdmin.value] } [RoleCode.tenantAdmin.value]
    rfl rfl (.user v) (Response.user?_eq_some hv) hnames

end Students

/-- What `require_permission` asks of an account. -/
def HasAuthority (db : Database Row) (u : User) (code : String) : Prop :=
  u.isSuperuser = true ∨ Holds db u.id code

/-- An active account of the tenant of the request, authorised at the time, made the exchange. -/
def Administered (env : Env) (e : Exchange) (code : String) : Prop :=
  ∃ c ∈ e.pre.db .users, ctxTenant env e.pre e.req = some c.tenantId ∧ c.isActive = true ∧
    c.deletedAt = none ∧ HasAuthority e.pre.db c code

/-- The exchange gives the account the authority. -/
inductive Empowers (env : Env) (e : Exchange) (userId : Uuid) (code : String) : Prop
  | register (data : RegisterRequest) (endpoint : e.req.endpoint = .register data)
      (opens : Opens e userId) (r : Role) (role : r ∈ e.pre.db .roles)
      (tenant : ctxTenant env e.pre e.req = some r.tenantId)
      (student : r.code = RoleCode.student.value) (grants : Grants e.pre.db r.id code)
  | create (data : AdminUserCreate) (endpoint : e.req.endpoint = .createUser data)
      (opens : Opens e userId) (roleId : Uuid) (role : NamesRole env e data.roleCodes roleId)
      (grants : Grants e.pre.db roleId code) (administered : Administered env e "user:create")
  | update (data : AdminUserUpdate) (codes : List String)
      (endpoint : e.req.endpoint = .updateUser userId data) (sent : data.roleCodes = some codes)
      (roleId : Uuid) (role : NamesRole env e codes roleId) (grants : Grants e.pre.db roleId code)
      (administered : Administered env e "user:update")
  | provision (data : TenantCreate) (endpoint : e.req.endpoint = .createTenant data)
      (opens : Opens e userId) (administered : Administered env e "tenant:manage")

/-- The caller that a request was admitted for was authorised for its route. -/
theorem Admitted.administered {c : Caller} {s : Session} {w₁ : World}
    (hadm : Admitted env w req rc (some c) s w₁) (hcode : code ∈ req.endpoint.permissions) :
    Administered env (exchange env w req) code := by
  have hknown := hadm.known
  refine ⟨c.user.user, hknown.account, hadm.tenant.trans hknown.tenant, hknown.active,
    hknown.undeleted, ?_⟩
  rcases hknown.permitted with hsuper | hcodes
  · exact .inl hsuper
  · obtain ⟨ur, hur, r, hr, huser, hid, rp, hrp, p, hp, hgrant⟩ :=
      (hknown.holds code).mp (hcodes code hcode)
    have hrow : ∀ {t : Table} {x : Row t}, x ∈ seen w (requestTx env rc) t → x ∈ w.db t :=
      fun hx => ((mem_seen rfl).mp hx).1
    exact .inr ⟨ur, hrow hur, r, hrow hr, huser, hid, rp, hrow hrp, p, hrow hp, hgrant⟩

/-- What an exchange gives, it gives with the authority for it. -/
theorem Gives.empowers (hg : Gives env (exchange env w req) userId roleId)
    (hgrants : Grants w.db roleId code) : Empowers env (exchange env w req) userId code := by
  cases hg with
  | register data he body hok opens role =>
    obtain ⟨r, hr, rfl, htenant, hcode⟩ := role
    exact .register data he opens r hr htenant (List.mem_singleton.mp hcode) hgrants
  | create data he body hok opens role =>
    obtain ⟨rc, c, s, w₁, u, hadm, -⟩ := serve_createUser he (Prod.ext hok rfl)
    have hcode : "user:create" ∈ req.endpoint.permissions := by
      rw [show req.endpoint = .createUser data from he]
      exact List.mem_singleton_self _
    exact .create data he opens roleId role hgrants (hadm.administered hcode)
  | update data codes he sent body hok role =>
    obtain ⟨rc, c, s, w₁, u, hadm, -⟩ := serve_updateUser he (Prod.ext hok rfl)
    have hcode : "user:update" ∈ req.endpoint.permissions := by
      rw [show req.endpoint = .updateUser userId data from he]
      exact List.mem_singleton_self _
    exact .update data codes he sent roleId role hgrants (hadm.administered hcode)

/-- A new account that is superuser is the first one of a new tenant. -/
theorem opened_superuser (hreg : Registry w) {v : User} (hv : v ∈ (serve env w req).2.db .users)
    (hnew : w.nextUuid ≤ v.id) (hsuper : v.isSuperuser = true) :
    Empowers env (exchange env w req) v.id code := by
  have hold : ∀ {us : List User}, (serve env w req).2.db .users = us → v ∈ us := fun h => h ▸ hv
  have hdrawn : v ∉ w.db .users := fun hmem =>
    absurd (hreg.accounts.drawn v hmem) (Nat.not_lt.mpr hnew)
  have hjoined : ∀ {tid : Uuid} {u : User}, Joined w tid u (serve env w req).2 → False := by
    intro tid u hj
    rcases List.mem_append.mp (hold hj.users) with hmem | hmem
    · exact hdrawn hmem
    · have hplain := hj.plain
      rw [← List.mem_singleton.mp hmem, hsuper] at hplain
      cases hplain
  -- an account that stays the same one is not new
  have hstayed : ∀ {old u : User}, old ∈ w.db .users →
      (serve env w req).2.db .users = replaceUser old.id u (w.db .users) → u.id = old.id →
      False := by
    intro old u hmem hrows hid
    obtain ⟨rfl, -⟩ | ⟨hmem', -⟩ := mem_replaceUser (hold hrows)
    · exact absurd (hid ▸ hreg.accounts.drawn old hmem) (Nat.not_lt.mpr hnew)
    · exact hdrawn hmem'
  by_cases ht : .users ∈ req.endpoint.writes
  · cases hresp : (serve env w req).1 with
    | error err =>
      exact absurd (hold (serve_users_error ht (Prod.ext hresp rfl) .users (by decide))) hdrawn
    | ok body =>
      have hs : serve env w req = (.ok body, (serve env w req).2) := Prod.ext hresp rfl
      cases he : req.endpoint with
      | register data =>
        obtain ⟨rc, tid, out, -, -, -, hj, -⟩ := serve_register he hs
        exact (hjoined hj).elim
      | login data =>
        obtain ⟨w₁, u, hlogin⟩ := serve_login he hs
        obtain ⟨old, t, now, hmem, hid, hrows⟩ := hlogin.users
        rw [← hid] at hrows
        exact (hstayed hmem hrows rfl).elim
      | resetPassword token newPassword =>
        obtain ⟨raw, u, t, g, -, -, -, -, -, -, -, ⟨old, hashed, now, hmem, hid, hrows⟩, -⟩ :=
          serve_resetPassword hreg.sessionIds he hs
        rw [← hid] at hrows
        exact (hstayed hmem hrows rfl).elim
      | createUser data =>
        obtain ⟨rc, c, s, w₁, u, -, hj, -⟩ := serve_createUser he hs
        exact (hjoined hj).elim
      | updateUser uid data =>
        obtain ⟨rc, c, s, w₁, u, -, -, hrows | ⟨old, now, hmem, hid, hrows⟩, -⟩ :=
          serve_updateUser he hs
        · exact absurd (hold hrows) hdrawn
        · rw [← hid] at hrows
          exact (hstayed hmem hrows rfl).elim
      | createTenant data =>
        obtain ⟨rc, c, s, w₁, t, u, hadm, -⟩ := serve_createTenant he hs
        have hcode : "tenant:manage" ∈ req.endpoint.permissions := by
          rw [he]
          exact List.mem_singleton_self _
        exact .provision data he ⟨hnew, v, hv, rfl⟩ (hadm.administered hcode)
      | _ => simp [he, Endpoint.writes] at ht
  · exact absurd (hold (serve_frame env w req ht)) hdrawn

theorem SameAccount.refl (u : User) : SameAccount u u := ⟨rfl, rfl, rfl, rfl⟩

theorem SameAccount.trans {u v x : User} (hv : SameAccount u v) (hx : SameAccount v x) :
    SameAccount u x where
  id := hx.id.trans hv.id
  tenant := hx.tenant.trans hv.tenant
  deleted := hx.deleted.trans hv.deleted
  superuser := hx.superuser.trans hv.superuser

/-- **One request**: whoever is authorised afterwards was so before, as the same account, or the
request has empowered it. -/
theorem serve_authority (hrls : env.settings.enableRowLevelSecurity = true) (hros : Rostered w)
    {u : User} (hu : u ∈ (serve env w req).2.db .users)
    (hauth : HasAuthority (serve env w req).2.db u code) :
    (∃ v ∈ w.db .users, SameAccount v u ∧ HasAuthority w.db v code) ∨
      Empowers env (exchange env w req) u.id code := by
  have hgrants := grants_congr (serve_frame env w req (not_mem_writes_rolePermissions req))
    (serve_frame env w req (not_mem_writes_permissions req))
  -- a permission that the request gives, or that the account held before
  have hheld : Holds (serve env w req).2.db u.id code →
      Empowers env (exchange env w req) u.id code ∨ Holds w.db u.id code := by
    rintro ⟨ur, hur, r, hrole, huser, hid, hgrant⟩
    rw [serve_frame env w req (not_mem_writes_roles req)] at hrole
    have hgrant := (hgrants r.id code).mp hgrant
    have hassigned : Assigned (serve env w req).2 u.id r.id := by
      rw [Assigned, ← huser, ← hid]
      exact hur
    rcases (serve_assigned_iff hrls hros req).mp hassigned with hgives | ⟨hrow, -⟩
    · exact .inl (hgives.empowers hgrant)
    · exact .inr ⟨_, hrow, r, hrole, rfl, rfl, hgrant⟩
  obtain ⟨v, hv, hsame⟩ | hnew := (@serve_users env w req hros.registry.sessionIds).came hu
  · rcases hauth with hsuper | hholds
    · exact .inl ⟨v, hv, hsame, .inl (hsame.superuser.symm.trans hsuper)⟩
    · rcases hheld hholds with hempowers | hholds
      · exact .inr hempowers
      · exact .inl ⟨v, hv, hsame, .inr (hsame.id ▸ hholds)⟩
  · -- a new account has no roles but those that the request gives it
    rcases hauth with hsuper | hholds
    · exact .inr (opened_superuser hros.registry hu hnew hsuper)
    · rcases hheld hholds with hempowers | ⟨ur, hur, r, hrole, huser, -⟩
      · exact .inr hempowers
      · exact absurd (huser ▸ hros.registry.assigned ur hur) (Nat.not_lt.mpr hnew)

end LmsBackend
