import LmsBackend.Core.Platform
import LmsBackend.Effects.Exchanges
import LmsBackend.Licensing.Entitlements

/-!
# The gateway

Which requests reach the path operation function of their route, and how the others
are refused.

- `Entered env w req c`: the path operation function is called, for the caller `c`.
  `entered_iff`: exactly when the guards of the route return `c`.
- `Authorised`: what a licensed route asks of a request.
- `gateway_admits`: a valid request to a licensed route enters iff it is authorised;
  otherwise it is refused with the error of the first guard that fails, and nothing
  is written.
-/

namespace LmsBackend

open Mvcc

variable {env : Env} {w w' : World} {req : Request} {rc : RequestContext}

/-! ## Entering the path operation function -/

/-- The path operation function of the route is called for this caller. -/
def Entered (env : Env) (w : World) (req : Request) (caller : Option Caller) : Prop :=
  ∃ s, (s, Op.enter caller) ∈ traceM env (handle env req) (w, [])

/-- The program calls no path operation function. -/
structure Doorless {α : Type} (p : M α) : Prop where
  covers : Covers (Footprint.platformWide (fun _ => True) fun _ => False) (fun _ => True) p

namespace Doorless

variable {α : Type}

theorem run {p : M α} (h : Doorless p) (s : State) (c : Option Caller) (s' : State) :
    (s', Op.enter c) ∉ traceM env p s := by
  intro hmem
  have hstart : (Footprint.platformWide (fun _ => True) fun _ => False).Inv s.1.db s :=
    ⟨fun tx _ => ⟨trivial, fun _ _ => trivial, fun _ _ => trivial⟩,
      fun t ht => (ht trivial).elim⟩
  exact (Prog.All.trace_inv h.covers.all _ Footprint.Inv.step hstart _ hmem).2

theorem sees {t : Table} (r : Row t) :
    (Footprint.platformWide (fun _ => True) fun _ => False).sees t r := by
  refine ⟨{ bypassRls := true }, trivial, ?_⟩
  unfold policy
  split
  · simp
  · rfl

theorem handler {s : Session} {caller : Option Caller} :
    Doorless (handler env rc s req caller) := by
  have hserves : ∀ rc, Covers.Serves (Footprint.platformWide (fun _ => True) fun _ => False) rc
      req.endpoint :=
    fun rc => ⟨fun _ _ => Footprint.binds_platformWide, fun _ _ => trivial, fun _ _ => trivial,
      fun _ _ => trivial⟩
  exact ⟨Covers.handler ⟨hserves rc, fun c _ _ => hserves (rc.enrich c), fun _ =>
    ⟨Footprint.binds_platformWide, fun _ => trivial⟩⟩ caller fun c _ => sees _⟩

theorem requestContext {headers : Headers} {client : Option String} :
    Doorless (requestContext env headers client) :=
  ⟨Covers.requestContext Footprint.binds_platformWide fun _ => trivial⟩

theorem limitRate {e : Endpoint} : Doorless (limitRate env rc e) := ⟨Covers.limitRate⟩

theorem guards : Doorless (guards env rc req) :=
  ⟨(Covers.guards fun _ _ => trivial).weaken⟩

end Doorless

/-- What a unit of work lets in, its body lets in, in a transaction of the unit's own. -/
theorem enter_getDb {α : Type} {body : Session → M α} {c : Option Caller} {s : State} :
    (s, Op.enter c) ∈ traceM env (getDb env (some rc) body) (w, []) ↔
      (s, Op.enter c) ∈ traceM env (body ⟨env.clock w.ticks⟩)
        (w.tick, [boundTx env rc.tenantId rc.isSuperadmin]) := by
  have hbegin : Doorless beginSession := ⟨Covers.beginSession⟩
  have hbind : Doorless (bindRls env rc.tenantId rc.isSuperadmin) :=
    ⟨Covers.bindRls Footprint.binds_platformWide⟩
  unfold getDb
  constructor
  · intro h
    rcases Prog.mem_trace_bind.mp h with h | ⟨s₁, st, hrun, h⟩
    · exact (hbegin.run _ c s h).elim
    cases hrun
    rcases Prog.mem_trace_bind.mp h with h | ⟨r, st, hrun, h⟩
    · rw [Prog.trace_attempt] at h
      rcases Prog.mem_trace_bind.mp h with h | ⟨u, st, hrun, h⟩
      · exact (hbind.run _ c s h).elim
      · cases (runM_bindRls w.tick [] _ _).symm.trans hrun
        exact h
    · refine (Doorless.run ⟨?_⟩ st c s h).elim
      cases r with
      | ok a => exact Covers.seq Covers.commitSession fun _ => Covers.pure trivial
      | error e => exact Covers.seq Covers.sqlRollback fun _ => Covers.raise e
  · intro h
    refine Prog.mem_trace_bind.mpr (.inr ⟨_, _, runM_beginSession w [], ?_⟩)
    refine Prog.mem_trace_bind.mpr (.inl ?_)
    rw [Prog.trace_attempt]
    exact Prog.mem_trace_bind.mpr (.inr ⟨_, _, runM_bindRls w.tick [] _ _, h⟩)

/-- The operation of a request lets in whom its guards found, if the request is valid. -/
theorem enter_operation {s : Session} {c : Option Caller} {st : State} :
    (∃ s', (s', Op.enter c) ∈ traceM env (operation env rc req s) st) ↔
      req.valid = true ∧ ∃ st', runM env (guards env rc req) st = (.ok c, st') := by
  unfold operation
  constructor
  · rintro ⟨s', h⟩
    rcases Prog.mem_trace_bind.mp h with h | ⟨c', st', hrun, h⟩
    · exact (Doorless.guards.run st c s' h).elim
    · split at h
      · rename_i hvalid
        rcases Prog.mem_trace_bind.mp h with h | ⟨u, st'', -, h⟩
        · cases List.mem_singleton.mp h
          exact ⟨hvalid, s', hrun⟩
        · exact (Doorless.handler.run st'' c s' h).elim
      · cases h
  · rintro ⟨hvalid, st', hrun⟩
    refine ⟨st', Prog.mem_trace_bind.mpr (.inr ⟨c, st', hrun, ?_⟩)⟩
    rw [if_pos hvalid]
    exact Prog.mem_trace_bind.mpr (.inl List.mem_cons_self)

/-! ## The middleware returns -/

/-- What the gateway relies on about the keys of the database. -/
structure Keyed (db : Database Row) : Prop where
  slugs : ((db .tenants).map (·.slug)).Nodup
  users : ((db .users).map (·.id)).Nodup

/-- Of rows with different keys at most one has a given key. -/
theorem filter_one {α β : Type} {f : α → β} {l : List α} (h : (l.map f).Nodup) {p : α → Bool}
    {b : β} (hp : ∀ a ∈ l, p a = true → f a = b) : (l.filter p).length ≤ 1 := by
  induction l with
  | nil => exact Nat.zero_le _
  | cons a l ih =>
    rw [List.map_cons, List.nodup_cons] at h
    have hrest := ih h.2 fun a' ha' => hp a' (List.mem_cons_of_mem a ha')
    rw [List.filter_cons]
    split
    · rename_i ha
      have hnone : l.filter p = [] := by
        rw [List.filter_eq_nil_iff]
        intro a' ha' hpa'
        have hsame : f a' = f a :=
          (hp a' (List.mem_cons_of_mem a ha') hpa').trans (hp a List.mem_cons_self ha).symm
        exact h.1 (hsame ▸ List.mem_map_of_mem ha')
      rw [hnone]
      exact le_refl 1
    · exact hrest

theorem scalar_of_length {α : Type} {rows : List α} (h : rows.length ≤ 1) :
    ∃ r, scalar rows = .ok r := by
  cases rows with
  | nil => exact ⟨none, rfl⟩
  | cons a rows =>
    cases rows with
    | nil => exact ⟨some a, rfl⟩
    | cons b rows => exact absurd h (by simp)

/-- The program returns, whatever transactions are open. -/
structure Returns (env : Env) {α : Type} (p : M α) : Prop where
  quiet : Quiet env p
  ok : ∀ w txs, ((w.db .tenants).map (·.slug)).Nodup → ∃ a, (runM env p (w, txs)).1 = .ok a

namespace Returns

variable {α β : Type}

theorem pure (a : α) : Returns env (Pure.pure a : M α) := ⟨Quiet.pure a, fun _ _ _ => ⟨a, rfl⟩⟩

theorem bind {p : M α} {f : α → M β} (hp : Returns env p) (hf : ∀ a, Returns env (f a)) :
    Returns env (p >>= f) := by
  refine ⟨hp.quiet.bind fun a => (hf a).quiet, fun w txs h => ?_⟩
  obtain ⟨w', hrun, hstill, -⟩ := hp.quiet.run w txs
  obtain ⟨a, ha⟩ := hp.ok w txs h
  rw [ha] at hrun
  rw [runM_bind_ok hrun]
  exact (hf a).ok w' txs (hstill.db.symm ▸ h)

theorem decodeToken {token type : String} : Returns env (decodeToken env token type) :=
  ⟨Quiet.decodeToken, fun _ _ _ => ⟨_, runM_decodeToken _ _ _ _⟩⟩

theorem resolveSlug {identifier : String} : Returns env (resolveSlug env identifier) := by
  refine ⟨Quiet.resolveSlug, fun w txs hslugs => ?_⟩
  set tx := boundTx env none true with htx
  have hrows : ((seen w.tick tx .tenants).filter fun r =>
      decide (r.slug = identifier) && r.deletedAt.isNone).length ≤ 1 := by
    rw [show seen w.tick tx .tenants = w.db .tenants from seen_platform (by decide) rfl]
    refine @filter_one _ _ (·.slug) _ hslugs _ identifier fun r _ hr => ?_
    rw [Bool.and_eq_true, decide_eq_true_iff] at hr
    exact hr.1
  obtain ⟨found, hfound⟩ := scalar_of_length hrows
  have hfind : runM env (getTenantBySlug identifier) (w.tick, tx :: txs) =
      (.ok found, (w.tick, tx :: txs)) := by
    rw [← hfound]
    exact runM_scalarOneOrNone _ _
  have hclose : ∀ (w' : World), runM env commitSession (w', tx :: txs) =
      (.ok (.ok ()), (committed w' tx, txs)) := by
    intro w'
    rw [runM_commitSession, flushed_nil rfl]
    rfl
  unfold LmsBackend.resolveSlug
  rw [runM_tenantSession, runM_bind_ok hfind]
  cases found with
  | none =>
    dsimp only
    rw [runM_pure]
    dsimp only
    rw [hclose]
    exact ⟨none, rfl⟩
  | some t =>
    dsimp only
    by_cases hactive : t.isActive = true
    · obtain ⟨w₁, hcache, -, -⟩ :=
        (@Quiet.cacheSlug env identifier t.id).run w.tick (tx :: txs)
      have hdone : (runM env (cacheSlug env identifier t.id) (w.tick, tx :: txs)).1 = .ok () := by
        unfold LmsBackend.cacheSlug
        split
        · rfl
        · rfl
      rw [hdone] at hcache
      rw [if_pos hactive, runM_bind_ok hcache, runM_pure]
      dsimp only
      rw [hclose]
      exact ⟨some t.id, rfl⟩
    · rw [if_neg hactive, runM_pure]
      dsimp only
      rw [hclose]
      exact ⟨none, rfl⟩

theorem resolveTenantId {identifier : String} : Returns env (resolveTenantId env identifier) := by
  unfold LmsBackend.resolveTenantId
  cases parseUuid identifier with
  | some u => exact pure _
  | none =>
    dsimp only
    split
    · have hget : Returns env (LmsBackend.perform (.redisGet (.slug identifier))) :=
        ⟨Quiet.perform trivial, fun _ _ _ => ⟨_, rfl⟩⟩
      refine hget.bind fun cached => ?_
      split
      · exact pure _
      · exact resolveSlug
    · exact resolveSlug

theorem requestContext {headers : Headers} {client : Option String} :
    Returns env (requestContext env headers client) := by
  have hid : Returns env (requestId headers) := by
    unfold requestId
    split
    · exact pure _
    · exact bind ⟨Quiet.uuid4, fun _ _ _ => ⟨_, rfl⟩⟩ fun _ => pure _
  have hheader : Returns env (resolveFromHeader env headers) := by
    unfold resolveFromHeader
    split
    · exact resolveTenantId.bind fun _ => pure _
    · exact pure _
  have hidentity : Returns env (resolveIdentity env headers) := by
    unfold resolveIdentity
    split
    · refine decodeToken.bind fun r => ?_
      cases r with
      | ok p => exact pure _
      | error m => exact hheader
    · exact hheader
  exact hid.bind fun _ => hidentity.bind fun _ => pure _

end Returns

/-! ## What a licensed route asks of a request -/

/-- At an instant, the request carries an access token of this service that is in force,
and its subject is this account of the tenant. -/
structure Authenticated (env : Env) (db : Database Row) (tenantId : Uuid) (req : Request)
    (now : Time) (u : User) : Prop where
  token : ∃ credentials p,
    (req.headers.find "authorization").bind env.bearerCredentials = some credentials ∧
    signed env credentials = some p ∧ p.type = "access" ∧ p.iat ≤ now ∧ now < p.exp ∧ p.sub = u.id
  account : u ∈ db .users
  tenant : u.tenantId = tenantId
  undeleted : u.deletedAt = none
  active : u.isActive = true

/-- A superuser, or one whose roles in the tenant grant all the codes. -/
def Permitted (db : Database Row) (tenantId : Uuid) (u : User) (codes : List String) : Prop :=
  u.isSuperuser = true ∨ ∀ code ∈ codes, ∃ ur ∈ db .userRoles, ∃ r ∈ db .roles,
    ur.userId = u.id ∧ ur.roleId = r.id ∧ r.tenantId = tenantId ∧ Grants db r.id code

/-- What a licensed route asks of a request whose context has this tenant: the licence in
the world `w`, the caller at the instant `now`. -/
structure Authorised (env : Env) (w : World) (now : Time) (req : Request) (code : ModuleCode)
    (tenantId : Uuid) : Prop where
  module : hasModule env w tenantId code
  caller : ∃ u, Authenticated env w.db tenantId req now u ∧
    Permitted w.db tenantId u req.endpoint.permissions

/-- Why a licensed route refuses a request: the first condition that it does not meet. -/
inductive Refused (env : Env) (w : World) (now : Time) (req : Request) (code : ModuleCode) :
    Option Uuid → ErrorKind → Prop
  | tenant : Refused env w now req code none .tenantResolution
  | module (tid : Uuid) (h : ¬ hasModule env w tid code) :
      Refused env w now req code (some tid) .moduleNotEnabled
  | caller (tid : Uuid) (h : hasModule env w tid code)
      (hnone : ∀ u, ¬ Authenticated env w.db tid req now u) :
      Refused env w now req code (some tid) .authentication
  | permission (tid : Uuid) (h : hasModule env w tid code)
      (hcaller : ∃ u, Authenticated env w.db tid req now u)
      (hnot : ∀ u, Authenticated env w.db tid req now u →
        ¬ Permitted w.db tid u req.endpoint.permissions) :
      Refused env w now req code (some tid) .permissionDenied

/-- A request that is refused does not meet the conditions. -/
theorem Refused.not_authorised {now : Time} {code : ModuleCode} {tid : Uuid} {kind : ErrorKind}
    (h : Refused env w now req code (some tid) kind) : ¬ Authorised env w now req code tid := by
  rintro ⟨hmodule, u, hu, hperm⟩
  cases h with
  | module _ hnot => exact hnot hmodule
  | caller _ _ hnone => exact hnone u hu
  | permission _ _ _ hnot => exact hnot u hu hperm

/-! ## The guards decide it -/

/-- With row-level security, a request sees the rows of its tenant. -/
theorem mem_seen_tenant (henabled : env.settings.enableRowLevelSecurity = true) {t : Table}
    (hrls : t ∈ rlsTables) {r : Row t} :
    r ∈ seen w (requestTx env rc) t ↔
      r ∈ w.db t ∧ ∃ tid, rc.tenantId = some tid ∧ tenantOf t r = some tid := by
  constructor
  · exact mem_seen_rls hrls
  · rintro ⟨hmem, tid, hrc, htenant⟩
    refine (mem_seen rfl).mpr ⟨hmem, policy_of_tenant ?_ htenant⟩
    show (boundTx env rc.tenantId false).guc.tenantId = some tid
    rw [boundTx, if_pos henabled, hrc]

/-- The roles of a request's tenant are those a permission can come from. -/
theorem holds_seen (henabled : env.settings.enableRowLevelSecurity = true) {tid : Uuid}
    (hrc : rc.tenantId = some tid) {userId : Uuid} {code : String} :
    Holds (seen w (requestTx env rc)) userId code ↔
      ∃ ur ∈ w.db .userRoles, ∃ r ∈ w.db .roles,
        ur.userId = userId ∧ ur.roleId = r.id ∧ r.tenantId = tid ∧ Grants w.db r.id code := by
  have hplain : ∀ t ∉ rlsTables, seen w (requestTx env rc) t = w.db t :=
    fun t ht => seen_platform ht rfl
  have hgrants : ∀ roleId, Grants (seen w (requestTx env rc)) roleId code ↔
      Grants w.db roleId code := by
    intro roleId
    unfold Grants
    rw [hplain .rolePermissions (by decide), hplain .permissions (by decide)]
  unfold Holds
  rw [hplain .userRoles (by decide)]
  constructor
  · rintro ⟨ur, hur, r, hr, huser, hrole, hgrant⟩
    obtain ⟨hmem, tid', htid', htenant⟩ := (mem_seen_tenant henabled (by decide)).mp hr
    cases hrc.symm.trans htid'
    exact ⟨ur, hur, r, hmem, huser, hrole, Option.some.inj htenant, (hgrants _).mp hgrant⟩
  · rintro ⟨ur, hur, r, hr, huser, hrole, htenant, hgrant⟩
    have hseen := (@mem_seen_tenant env w rc henabled .roles (by decide) r).mpr
      ⟨hr, tid, hrc, congrArg some htenant⟩
    exact ⟨ur, hur, r, hseen, huser, hrole, (hgrants _).mpr hgrant⟩

/-- At most one account of the tenant has a given identifier. -/
theorem length_usersIn_id (hids : ((w.db .users).map (·.id)).Nodup) (id : Uuid) :
    (usersIn (seen w (requestTx env rc)) rc fun u => decide (u.id = id)).length ≤ 1 := by
  have hsub : ((seen w (requestTx env rc) .users).map (·.id)).Nodup := by
    refine hids.sublist (List.Sublist.map _ ?_)
    show (visible schema w.db (requestTx env rc) .users).Sublist _
    rw [visible, view_nil schema w.db rfl]
    exact List.filter_sublist
  rw [← List.length_map (·.user), usersIn, loadUsersIn_map_user]
  refine filter_one hsub (b := id) fun u _ hu => ?_
  rw [Bool.and_eq_true, decide_eq_true_iff] at hu
  exact hu.2

/-- The account of an access token that is in force is found. -/
theorem Authenticated.found (henabled : env.settings.enableRowLevelSecurity = true)
    (hids : ((w.db .users).map (·.id)).Nodup) {tid : Uuid} (hrc : rc.tenantId = some tid)
    {now : Time} {u : User} (h : Authenticated env w.db tid req now u) :
    ∃ c, currentUserIn env rc req.headers now (seen w (requestTx env rc)) = .ok c ∧
      c.user.user = u := by
  obtain ⟨credentials, p, hcred, hsigned, htype, hiat, hexp, hsub⟩ := h.token
  have hseen : u ∈ seen w (requestTx env rc) .users :=
    (mem_seen_tenant henabled (by decide)).mpr ⟨h.account, tid, hrc, congrArg some h.tenant⟩
  have hscope : inScope rc .users u = true := by
    simp [inScope, deletedAtOf, h.undeleted, hrc, tenantOf, h.tenant]
  have hmem : u ∈ (usersIn (seen w (requestTx env rc)) rc
      fun u => decide (u.id = p.sub)).map (·.user) := by
    rw [usersIn, loadUsersIn_map_user, List.mem_filter, hscope, hsub]
    exact ⟨hseen, by simp⟩
  obtain ⟨lu, hlu, hsame⟩ := List.mem_map.mp hmem
  have hone : usersIn (seen w (requestTx env rc)) rc (fun u => decide (u.id = p.sub)) = [lu] := by
    have hlength := @length_usersIn_id env w rc hids p.sub
    rcases husers : usersIn (seen w (requestTx env rc)) rc fun u => decide (u.id = p.sub)
      with _ | ⟨a, _ | ⟨b, rest⟩⟩
    · rw [husers] at hlu
      cases hlu
    · rw [husers] at hlu
      rw [List.mem_singleton.mp hlu]
    · rw [husers] at hlength
      exact absurd hlength (by simp)
  refine ⟨⟨p, lu⟩, ?_, hsame⟩
  have hactive : lu.user.isActive = true := hsame ▸ h.active
  unfold currentUserIn
  rw [hcred]
  dsimp only
  rw [decodeIn_of hsigned hiat hexp htype]
  dsimp only
  rw [hone]
  simp [scalar, hactive]

/-- Who `get_current_user` accepts, and how it refuses the others. -/
theorem currentUserIn_cases (henabled : env.settings.enableRowLevelSecurity = true)
    (hids : ((w.db .users).map (·.id)).Nodup) {tid : Uuid} (hrc : rc.tenantId = some tid)
    (now : Time) :
    (∃ c, currentUserIn env rc req.headers now (seen w (requestTx env rc)) = .ok c ∧
      Authenticated env w.db tid req now c.user.user) ∨
    ((∃ message, currentUserIn env rc req.headers now (seen w (requestTx env rc)) =
        .error (.app .authentication message .none)) ∧
      ∀ u, ¬ Authenticated env w.db tid req now u) := by
  cases hc : currentUserIn env rc req.headers now (seen w (requestTx env rc)) with
  | ok c =>
    refine .inl ⟨c, rfl, ?_⟩
    obtain ⟨⟨credentials, hcred, hdecode⟩, hone, hactive⟩ := currentUserIn_ok hc
    obtain ⟨hsigned, hiat, hexp, htype⟩ := decodeIn_ok hdecode
    obtain ⟨hseen, hscope, hid⟩ := mem_usersIn (hone ▸ List.mem_singleton_self c.user)
    obtain ⟨hdeleted, htenant⟩ := inScope_users hscope
    exact ⟨⟨credentials, c.payload, hcred, hsigned, htype, hiat, hexp, (of_decide_eq_true hid).symm⟩,
      (mem_seen_rls (by decide) hseen).1, htenant tid hrc, hdeleted, hactive⟩
  | error e =>
    refine .inr ⟨?_, fun u hu => ?_⟩
    · unfold currentUserIn at hc
      split at hc
      · cases hc
        exact ⟨_, rfl⟩
      · split at hc
        · cases hc
          exact ⟨_, rfl⟩
        · rename_i p _
          obtain ⟨r, hr⟩ := scalar_of_length (@length_usersIn_id env w rc hids p.sub)
          rw [hr] at hc
          cases r with
          | none =>
            cases hc
            exact ⟨_, rfl⟩
          | some lu =>
            dsimp only at hc
            split at hc
            · cases hc
            · cases hc
              exact ⟨_, rfl⟩
    · obtain ⟨c, hok, -⟩ := hu.found henabled hids hrc
      rw [hc] at hok
      cases hok

/-- A licensed route has no rate limiter, asks for a user and uses the request's session. -/
theorem Endpoint.licensed {e : Endpoint} {code : ModuleCode} (h : e.module = some code) :
    e.routed ∧ e.limited = none ∧ e.user = true := by
  cases e <;> first | exact ⟨trivial, rfl, rfl⟩ | cases h

/-- **The guards**: they pass exactly the authorised requests, and refuse the others with
the error of the first condition that is not met. -/
theorem guardsIn_cases (henabled : env.settings.enableRowLevelSecurity = true)
    (hids : ((w.db .users).map (·.id)).Nodup) {w₁ : World} (hdb : w₁.db = w.db) {code : ModuleCode}
    (hm : req.endpoint.module = some code) (now : Time) :
    (∃ c tid, guardsIn env rc req w₁ (seen w (requestTx env rc)) now = .ok (some c) ∧
      rc.tenantId = some tid ∧ Authorised env w₁ now req code tid) ∨
    ∃ kind message details,
      guardsIn env rc req w₁ (seen w (requestTx env rc)) now =
        .error (.app kind message details) ∧
      Refused env w₁ now req code rc.tenantId kind := by
  have huser : req.endpoint.user = true := (Endpoint.licensed hm).2.2
  have hmodule : moduleGuardIn env rc w₁ (seen w (requestTx env rc)) req.endpoint =
      moduleIn env rc w₁ (seen w (requestTx env rc)) code := by
    rw [moduleGuardIn, hm]
  cases hrc : rc.tenantId with
  | none =>
    refine .inr ⟨.tenantResolution, "Tenant could not be resolved", .none, ?_, .tenant⟩
    rw [guardsIn, hmodule, moduleIn, hrc]
    rfl
  | some tid =>
    have hlicence : (code ∈ coreModuleCodes ∨
        code.value ∈ enabledIn env w₁ (seen w (requestTx env rc)) tid) ↔
        hasModule env w₁ tid code := by
      have hm : seen w (requestTx env rc) .modules = w₁.db .modules := by
        rw [seen_platform (by decide) rfl, hdb]
      have htm : seen w (requestTx env rc) .tenantModules = w₁.db .tenantModules := by
        rw [seen_platform (by decide) rfl, hdb]
      rw [enabledIn_congr hm htm]
      exact Iff.rfl
    by_cases hlicensed : hasModule env w₁ tid code
    · have hpass : moduleGuardIn env rc w₁ (seen w (requestTx env rc)) req.endpoint = .ok () := by
        rw [hmodule, moduleIn, hrc]
        exact if_pos (hlicence.mpr hlicensed)
      have hguards : guardsIn env rc req w₁ (seen w (requestTx env rc)) now =
          userGuardIn env rc req now (seen w (requestTx env rc)) := by
        rw [guardsIn, hpass]
        rfl
      rw [hguards, userGuardIn, if_pos huser]
      rcases currentUserIn_cases henabled hids hrc now with ⟨c, hc, hauth⟩ | ⟨⟨message, hc⟩, hnone⟩
      · -- the caller is known: the permissions decide
        have hperms : (∀ x ∈ req.endpoint.permissions, x ∈ c.user.permissionCodes) ↔
            ∀ x ∈ req.endpoint.permissions, ∃ ur ∈ w.db .userRoles, ∃ r ∈ w.db .roles,
              ur.userId = c.user.user.id ∧ ur.roleId = r.id ∧ r.tenantId = tid ∧
                Grants w.db r.id x := by
          obtain ⟨-, hone, -⟩ := currentUserIn_ok hc
          have hloaded : c.user ∈ usersIn (seen w (requestTx env rc)) rc
              fun u => decide (u.id = c.payload.sub) := hone ▸ List.mem_singleton_self c.user
          refine forall_congr' fun x => imp_congr_right fun _ => ?_
          rw [mem_permissionCodes hloaded, holds_seen henabled hrc]
        by_cases hpermitted : Permitted w.db tid c.user.user req.endpoint.permissions
        · refine .inl ⟨c, tid, ?_, rfl, hlicensed, c.user.user, hdb.symm ▸ hauth, hdb.symm ▸ hpermitted⟩
          have hok : permissionIn req.endpoint.permissions c.user = .ok () :=
            permissionIn_eq_ok.mpr (hpermitted.imp_right hperms.mpr)
          simp [hc, hok, bind, Except.bind, pure, Except.pure]
        · have hdenied : ¬ (c.user.user.isSuperuser = true ∨
              ∀ x ∈ req.endpoint.permissions, x ∈ c.user.permissionCodes) :=
            fun h => hpermitted (h.imp_right hperms.mp)
          obtain ⟨message, details, hno⟩ : ∃ message details,
              permissionIn req.endpoint.permissions c.user =
                .error (.app .permissionDenied message details) :=
            ⟨_, _, if_neg hdenied⟩
          refine .inr ⟨.permissionDenied, message, details, ?_, .permission tid hlicensed
            ⟨c.user.user, hdb.symm ▸ hauth⟩ fun u hu hperm => ?_⟩
          · simp [hc, hno, bind, Except.bind]
          · obtain ⟨c', hc', hsame⟩ := Authenticated.found henabled hids hrc (hdb ▸ hu)
            cases hc.symm.trans hc'
            exact hpermitted (hsame ▸ hdb ▸ hperm)
      · refine .inr ⟨.authentication, message, .none, ?_,
          .caller tid hlicensed fun u hu => hnone u (hdb ▸ hu)⟩
        rw [hc]
        rfl
    · refine .inr ⟨.moduleNotEnabled, "Module not enabled for tenant", .none, ?_,
        .module tid hlicensed⟩
      rw [guardsIn, hmodule, moduleIn, hrc]
      dsimp only
      rw [if_neg (mt hlicence.mp hlicensed)]
      rfl

/-! ## The gateway -/

/-- Ending a request's unit of work takes time forward. -/
theorem finish_older {α : Type} (r : Except Err α) (s : State) :
    s.1.Older (finish env (r, s)).2 := by
  cases r with
  | ok a => exact runM_older commitSession s
  | error e =>
    obtain ⟨w₁, _ | ⟨tx, txs⟩⟩ := s
    · exact ⟨le_refl _, le_refl _⟩
    · exact ⟨le_refl _, le_refl _⟩

/-- A request to a licensed route: the middleware returns a context, and what the guards
answer in it decides whether the path operation function is entered. The licence is read in
a world `w₁` that differs from `w` in clock and caches only, the caller's token at a reading
`i` of the clock after that. -/
theorem serve_guards (hslugs : ((w.db .tenants).map (·.slug)).Nodup) {code : ModuleCode}
    (hm : req.endpoint.module = some code) :
    ∃ rc w₁ i, ctxTenant env w req = rc.tenantId ∧ w.Still w₁ ∧ w.Older w₁ ∧ w₁.ticks ≤ i ∧
      i ≤ (serve env w req).2.ticks ∧
      (∀ c, Entered env w req c ↔ req.valid = true ∧
        guardsIn env rc req w₁ (seen w (requestTx env rc)) (env.clock i) = .ok c) ∧
      (∀ e, guardsIn env rc req w₁ (seen w (requestTx env rc)) (env.clock i) = .error e →
        ∃ w', serve env w req = (.error e, w') ∧ w.Still w') ∧
      (req.valid = false → ∃ e w', serve env w req = (.error e, w') ∧ w.Still w') := by
  obtain ⟨hrouted, hlimited, -⟩ := Endpoint.licensed hm
  obtain ⟨w₀, hrc, hstill₀, holder₀⟩ :=
    (@Quiet.requestContext env req.headers req.client).run w []
  obtain ⟨rc, hok⟩ := (@Returns.requestContext env req.headers req.client).ok w [] hslugs
  rw [hok] at hrc
  have hplain : rc.isSuperadmin = false := requestContext_ok hrc
  have hlimit : limitRate env rc req.endpoint = .ret () := by rw [limitRate, hlimited]
  have hserve : serve env w req = finish env
      (runM env (operation env rc req ⟨env.clock w₀.ticks⟩) (w₀.tick, [requestTx env rc])) :=
    serve_context hrouted hrc (by rw [hlimit]; rfl)
  have htick : w.Still w₀.tick := hstill₀.trans ⟨rfl, rfl, fun _ => rfl⟩
  obtain ⟨i, w₃, hguards, hstill₃, -, hi, hi'⟩ :=
    @runM_guards env rc req w₀.tick (requestTx env rc) []
  rw [htick.seen] at hguards
  refine ⟨rc, w₀.tick, i, by rw [ctxTenant, hok], htick, holder₀.trans ⟨Nat.le_succ _, le_refl _⟩,
    hi, ?_, fun c => ?_, fun e he => ?_, fun hinvalid => ?_⟩
  · have hend : w₃.Older (serve env w req).2 := by
      rw [hserve]
      unfold operation
      rw [runM_bind, hguards]
      cases guardsIn env rc req w₀.tick (seen w (requestTx env rc)) (env.clock i) with
      | ok c => exact (runM_older _ (w₃, [requestTx env rc])).trans (finish_older _ _)
      | error e => exact finish_older _ (w₃, [requestTx env rc])
    exact hi'.trans hend.ticks
  · -- behind the middleware, only the operation can enter
    have hroute : Entered env w req c ↔ ∃ s, (s, Op.enter c) ∈
        traceM env (getDb env (some rc) (operation env rc req)) (w₀, []) := by
      unfold Entered handle
      refine exists_congr fun s => Prog.mem_trace_bind.trans ⟨?_, fun h => .inr ?_⟩
      · rintro (h | ⟨rc', st, hrun, h⟩)
        · exact (Doorless.requestContext.run _ c s h).elim
        · cases hrc.symm.trans hrun
          rw [route_routed hrouted, hlimit] at h
          exact h
      · refine ⟨rc, (w₀, []), hrc, ?_⟩
        rw [route_routed hrouted, hlimit]
        exact h
    rw [hroute, exists_congr fun s => enter_getDb, enter_operation, hplain]
    refine and_congr_right fun _ => ⟨?_, fun h => ?_⟩
    · rintro ⟨st', hrun⟩
      exact congrArg Prod.fst (hguards.symm.trans hrun)
    · rw [h] at hguards
      exact ⟨_, hguards⟩
  · refine ⟨w₃, ?_, htick.trans hstill₃⟩
    rw [he] at hguards
    rw [hserve]
    unfold operation
    rw [runM_bind_error hguards]
    rfl
  · rw [hserve]
    unfold operation
    rw [runM_bind, hguards]
    cases guardsIn env rc req w₀.tick (seen w (requestTx env rc)) (env.clock i) with
    | error e => exact ⟨e, w₃, rfl, htick.trans hstill₃⟩
    | ok c =>
      refine ⟨.requestValidation, w₃, ?_, htick.trans hstill₃⟩
      dsimp only
      rw [if_neg (by rw [hinvalid]; exact Bool.false_ne_true)]
      rfl

/-- **The gateway**: a valid request to a licensed route enters its path operation function
iff the middleware resolved a tenant and the request is authorised for it; otherwise it is
refused with the error of the first condition it does not meet, and nothing is written. -/
theorem gateway_admits (henabled : env.settings.enableRowLevelSecurity = true)
    (hkeys : Keyed w.db) {code : ModuleCode} (hm : req.endpoint.module = some code)
    (hvalid : req.valid = true) :
    ∃ w₁ i, w.Still w₁ ∧ w.Older w₁ ∧ w₁.ticks ≤ i ∧ i ≤ (serve env w req).2.ticks ∧
      ((∃ c, Entered env w req c) ↔
        ∃ tid, ctxTenant env w req = some tid ∧ Authorised env w₁ (env.clock i) req code tid) ∧
      ((¬ ∃ c, Entered env w req c) → ∃ kind message details w',
        serve env w req = (.error (.app kind message details), w') ∧
        Refused env w₁ (env.clock i) req code (ctxTenant env w req) kind ∧ w.Still w') := by
  obtain ⟨rc, w₁, i, htenant, hstill, holder, hi, hi', hentered, hfailed, -⟩ :=
    @serve_guards env w req hkeys.slugs code hm
  refine ⟨w₁, i, hstill, holder, hi, hi', ?_⟩
  rw [htenant]
  obtain ⟨c, tid, hpass, hrctid, hauth⟩ | ⟨kind, message, details, hfail, hrefused⟩ :=
    @guardsIn_cases env w req rc henabled hkeys.users w₁ hstill.db code hm (env.clock i)
  · have hin : ∃ c, Entered env w req c := ⟨some c, (hentered (some c)).mpr ⟨hvalid, hpass⟩⟩
    exact ⟨iff_of_true hin ⟨tid, hrctid, hauth⟩, fun hout => (hout hin).elim⟩
  · obtain ⟨w', hserve, hstill'⟩ := hfailed _ hfail
    have hout : ¬ ∃ c, Entered env w req c := by
      rintro ⟨c, hc⟩
      cases hfail.symm.trans ((hentered c).mp hc).2
    refine ⟨iff_of_false hout ?_, fun _ => ⟨kind, message, details, w', hserve, hrefused, hstill'⟩⟩
    rintro ⟨tid, hrctid, hauth⟩
    rw [hrctid] at hrefused
    exact hrefused.not_authorised hauth

/-! ## A role of another tenant -/

/-- The tenant of a bearer token that the middleware accepts is the tenant of the context. -/
theorem ctxTenant_bearer {token : String} {p : TokenPayload}
    (hbearer : bearerPart env ((req.headers.find "authorization").getD "") = some token)
    (htoken : decodeIn env token "access" (env.clock w.ticks) = .ok p) :
    ctxTenant env w req = some p.tid := by
  obtain ⟨id, w₁, hid, hticks⟩ : ∃ id w₁, runM env (requestId req.headers) (w, []) =
      (.ok id, (w₁, [])) ∧ w₁.ticks = w.ticks := by
    unfold requestId
    split
    · exact ⟨_, w, rfl, rfl⟩
    · exact ⟨_, _, rfl, rfl⟩
  obtain ⟨w₂, hdecode, -, -⟩ := (@Quiet.decodeToken env token "access").run w₁ []
  rw [runM_decodeToken, hticks, htoken] at hdecode
  have hidentity : runM env (resolveIdentity env req.headers) (w₁, []) =
      (.ok (some p.tid, some p.sub), (w₂, [])) := by
    rw [resolveIdentity, hbearer]
    exact runM_bind_ok hdecode
  rw [ctxTenant, requestContext, runM_bind_ok hid, runM_bind_ok hidentity]
  rfl

namespace Gateway

/-- The reference platform at one instant. -/
def frozen : Env := { Env.reference {} with clock := fun _ => 5 }

/-- The claims of a student of the first tenant. -/
def claims : TokenPayload := { sub := 3, tid := 1, type := "access", jti := 0, exp := 60, iat := 0 }

/-- The student's access token. -/
@[irreducible] def token : String :=
  Platform.sign frozen.settings.jwtSecretKey frozen.settings.jwtAlgorithm claims

/-- The student asks to enrol. -/
def request : Request where
  headers := [("authorization", "Bearer " ++ token)]
  endpoint := .enroll 7

/-- A student of the tenant `1`. -/
def student : User :=
  { id := 3, tenantId := 1, email := "s@a", hashedPassword := "#", createdAt := 0, updatedAt := 0 }

/-- Two tenants; a student of the first one, and the student's only role, a role of the
tenant `roleTenant` that grants `course:enroll`. -/
def tables (roleTenant : Uuid) : Database Row
  | .tenants => [{ id := 1, name := "A", slug := "a" }, { id := 2, name := "B", slug := "b" }]
  | .modules => [{ id := 10, code := "COURSES", name := "Courses" }]
  | .tenantModules => [{ id := 20, tenantId := 1, moduleId := 10 }]
  | .users => [student]
  | .roles => [{ id := 4, tenantId := roleTenant, code := "student", name := "Student" }]
  | .userRoles => [⟨3, 4⟩]
  | .permissions => [⟨5, "course:enroll"⟩]
  | .rolePermissions => [⟨4, 5⟩]
  | _ => []

/-- The world of these tables. -/
def world (roleTenant : Uuid) : World := World.fresh 5 (tables roleTenant)

theorem world_keyed (t : Uuid) : Keyed (world t).db :=
  ⟨(by decide : ["a", "b"].Nodup), List.nodup_singleton 3⟩

theorem request_authorization :
    request.headers.find "authorization" = some ("Bearer " ++ token) := by
  simp [request, Headers.find]

theorem token_signed : signed frozen token = some claims := by
  unfold token
  exact @signed_sign frozen rfl claims

theorem token_ne_empty : token ≠ "" := by
  unfold token
  exact sign_ne_empty claims

/-- A request with the student's token runs in the first tenant's context. -/
theorem bearer_tenant {w : World} {req : Request}
    (h : req.headers.find "authorization" = some ("Bearer " ++ token)) :
    ctxTenant frozen w req = some 1 := by
  have hbearer : bearerPart frozen ((req.headers.find "authorization").getD "") = some token := by
    rw [h]
    exact @bearerPart_bearer frozen token rfl
  have hdecode : decodeIn frozen token "access" (frozen.clock w.ticks) = .ok claims :=
    decodeIn_of token_signed (Nat.zero_le _) (by decide : 5 < 60) rfl
  exact ctxTenant_bearer hbearer hdecode

/-- A request with the student's token is the student's, where the student's row is. -/
theorem bearer_authenticated {db : Database Row} {req : Request}
    (h : req.headers.find "authorization" = some ("Bearer " ++ token))
    (haccount : student ∈ db .users) (i : Nat) :
    Authenticated frozen db 1 req (frozen.clock i) student where
  token := by
    have hbearer : frozen.bearerCredentials = Platform.bearer := by
      rw [frozen, Env.reference]
    refine ⟨token, claims, ?_, token_signed, rfl, Nat.zero_le _, ?_, rfl⟩
    · rw [h, Option.bind_some, hbearer]
      exact bearer_bearer token_ne_empty
    · show 5 < 60
      decide
  account := haccount
  tenant := rfl
  undeleted := rfl
  active := rfl

theorem request_tenant (t : Uuid) : ctxTenant frozen (world t) request = some 1 :=
  bearer_tenant request_authorization

theorem request_licensed {t : Uuid} {w₁ : World} (h : (world t).Still w₁) :
    hasModule frozen w₁ 1 .courses := by
  have hcache : ∀ cs, cachedIn frozen w₁ 1 ≠ some (.codes cs) := by
    intro cs hcs
    cases hcs
  refine .inr ?_
  rw [enabledIn_uncached hcache, mem_entitledIn, h.db]
  refine .inr ⟨⟨_, List.mem_singleton_self _, _, List.mem_singleton_self _, rfl, rfl, rfl, rfl⟩, ?_⟩
  rintro ⟨m, -, tm, htm, -, -, -, hexp⟩
  rw [List.mem_singleton.mp htm] at hexp
  cases hexp

theorem request_authenticated {t : Uuid} {w₁ : World} (h : (world t).Still w₁) (i : Nat) :
    Authenticated frozen w₁.db 1 request (frozen.clock i) student := by
  refine bearer_authenticated request_authorization ?_ i
  rw [h.db]
  exact List.mem_singleton_self student

theorem role_grants (t : Uuid) : ∀ code ∈ request.endpoint.permissions,
    Grants (tables t) 4 code := by
  intro code hcode
  rw [List.mem_singleton.mp hcode]
  exact ⟨_, List.mem_singleton_self _, _, List.mem_singleton_self _, rfl, rfl, rfl⟩

end Gateway

open Gateway in
/-- With a role of the own tenant, the student enters. -/
theorem gateway_admits_own_role : ∃ c, Entered frozen (world 1) request c := by
  obtain ⟨w₁, i, hstill, -, -, -, hiff, -⟩ :=
    gateway_admits (rfl : frozen.settings.enableRowLevelSecurity = true) (world_keyed 1)
      (rfl : request.endpoint.module = some .courses) rfl
  refine hiff.mpr ⟨1, request_tenant 1, request_licensed hstill, student,
    request_authenticated hstill i, .inr fun code hcode => ?_⟩
  rw [hstill.db]
  exact ⟨_, List.mem_singleton_self _, _, List.mem_singleton_self _, rfl, rfl, rfl,
    role_grants 1 code hcode⟩

open Gateway in
/-- With a role of another tenant the student's roles grant the permission as well, but the
request does not enter: row-level security hides the role. -/
theorem gateway_foreign_role : (¬ ∃ c, Entered frozen (world 2) request c) ∧
    ctxTenant frozen (world 2) request = some 1 ∧
    ∀ w₁ i, (world 2).Still w₁ → hasModule frozen w₁ 1 .courses ∧
      Authenticated frozen w₁.db 1 request (frozen.clock i) student ∧
      ∀ code ∈ request.endpoint.permissions, Holds w₁.db student.id code := by
  refine ⟨?_, request_tenant 2, fun w₁ i hstill => ⟨request_licensed hstill,
    request_authenticated hstill i, fun code hcode => ?_⟩⟩
  · rintro ⟨c, hc⟩
    obtain ⟨rc, w₁, i, -, hstill, -, -, -, hentered, -, -⟩ :=
      @serve_guards frozen (world 2) request (world_keyed 2).slugs .courses rfl
    have hpass := ((hentered c).mp hc).2
    obtain ⟨c', tid, -, -, hauth⟩ | ⟨kind, message, details, hfail, -⟩ :=
      @guardsIn_cases frozen (world 2) request rc rfl (world_keyed 2).users w₁ hstill.db .courses
        rfl (frozen.clock i)
    · obtain ⟨-, u, hu, hperm⟩ := hauth
      have haccount := hu.account
      rw [hstill.db] at haccount hperm
      cases List.mem_singleton.mp haccount
      obtain hsuper | hcodes := hperm
      · cases hsuper
      · obtain ⟨ur, -, r, hr, -, -, htenant, -⟩ := hcodes "course:enroll" (by decide)
        rw [List.mem_singleton.mp hr] at htenant
        rw [← hu.tenant] at htenant
        cases htenant
    · cases hfail.symm.trans hpass
  · rw [hstill.db]
    exact ⟨_, List.mem_singleton_self _, _, List.mem_singleton_self _, rfl, rfl,
      role_grants 2 code hcode⟩

end LmsBackend
