import LmsBackend.Effects.Admin
import LmsBackend.Isolation.Requests

/-!
# What a request leaves in the tables

For each route that writes accounts or sessions: the rows of `users`,
`user_sessions`, `user_roles` and `tenants` after a request that was answered, in
terms of the rows before it. A request that fails changes at most the audit log.

- `serve_login`, `serve_refresh`, `serve_logout`, `serve_resetPassword`.
- `serve_register`, `serve_createUser`, `serve_updateUser`, `serve_createTenant`.
-/

namespace LmsBackend

open Mvcc

variable {env : Env} {w w'' : World} {req : Request} {rc : RequestContext}

/-! ## The transaction of a request -/

theorem view_requestTx : view schema w.db (requestTx env rc) = w.db :=
  view_nil schema w.db rfl

theorem mem_seen {tx : Tx} (htx : tx.writes = []) {t : Table} {r : Row t} :
    r ∈ seen w tx t ↔ r ∈ w.db t ∧ policy tx.guc t r = true := by
  rw [seen, mem_visible, view_nil schema w.db htx]
  rfl

/-- Rows under row-level security that a request sees belong to the context's tenant. -/
theorem mem_seen_rls {t : Table} {r : Row t} (hrls : t ∈ rlsTables)
    (h : r ∈ seen w (requestTx env rc) t) :
    r ∈ w.db t ∧ ∃ tid, rc.tenantId = some tid ∧ tenantOf t r = some tid := by
  have hmem : r ∈ w.db t ∧ policy (requestTx env rc).guc t r = true := (mem_seen rfl).mp h
  have hbypass : (requestTx env rc).guc.bypassRls = false := by
    unfold requestTx boundTx
    dsimp only
    split <;> rfl
  obtain ⟨tid, htid, htenant⟩ := policy_tenant hrls hbypass hmem.2
  refine ⟨hmem.1, tid, ?_, htenant⟩
  unfold requestTx boundTx at htid
  dsimp only at htid
  split at htid
  · exact htid
  · cases htid

/-- The row that an update of a request finds. -/
theorem target_requestTx {t : Table} {k : List Uuid} {p : Row t → Bool} {r : Row t}
    (h : target schema w.db (requestTx env rc) t k p = some r) :
    r ∈ w.db t ∧ keyOf t r = k ∧ p r = true := by
  obtain ⟨hmem, -, hkey, hp⟩ := target_some h
  rw [view_requestTx] at hmem
  exact ⟨hmem, hkey, hp⟩

/-- The one account that a lookup of a request finds. -/
theorem usersIn_request {p : User → Bool} {u : LoadedUser}
    (h : usersIn (seen w (requestTx env rc)) rc p = [u]) :
    u.user ∈ w.db .users ∧ rc.tenantId = some u.user.tenantId ∧ u.user.deletedAt = none ∧
      p u.user = true := by
  obtain ⟨hmem, hscope, hp⟩ := mem_usersIn (h ▸ List.mem_singleton_self u)
  obtain ⟨hdb, tid, htid, htenant⟩ := mem_seen_rls (by simp [rlsTables]) hmem
  cases htenant
  exact ⟨hdb, htid, (inScope_users hscope).1, hp⟩

/-- The rows of a table after the commit of a request. -/
theorem commit_table {w' : World} {tx : Tx} {t : Table} (hlog : w.Logged w') (hp : tx.pending = [])
    (ht : t ≠ .auditLogs) :
    (runM env commitSession (w', [tx])).2.1.db t = view schema w.db tx t := by
  rw [runM_commitSession]
  show (committed w' tx).db t = _
  rw [committed_nil hp]
  exact foldl_apply_congr (hlog t ht)

/-- Replace the row with an identifier. -/
def replaceUser (id : Uuid) (v : User) (us : List User) : List User :=
  us.map fun r => if r.id = id then v else r

/-- Replace the session row with an identifier. -/
def replaceSession (id : Uuid) (v : UserSession) (rows : List UserSession) : List UserSession :=
  rows.map fun r => if r.id = id then v else r

theorem apply_update_users {db : Database Row} {id : Uuid} {v : User} :
    Write.apply schema db (.update .users [id] v) .users = replaceUser id v (db .users) := by
  rw [Write.apply_update]
  refine List.map_congr_left fun r _ => ?_
  simp [schema, keyOf]

theorem apply_update_sessions {db : Database Row} {id : Uuid} {v : UserSession} :
    Write.apply schema db (.update .userSessions [id] v) .userSessions =
      replaceSession id v (db .userSessions) := by
  rw [Write.apply_update]
  refine List.map_congr_left fun r _ => ?_
  simp [schema, keyOf]

/-! ## Requests that fail -/

/-- A request whose operation works in its transaction changes nothing when it fails. -/
theorem serve_error {e : Err} {W : List Table} (h : req.endpoint.routed)
    (hworks : ∀ rc s caller, (∃ w', Admitted env w req rc caller s w') →
      Works env W (handler env rc s req caller))
    (hs : serve env w req = (.error e, w'')) : w.Logged w'' := by
  obtain ⟨e', w', heq, hstill⟩ | ⟨rc, caller, s, w', hadm, heq⟩ := @serve_cases env w req h
  · rw [hs] at heq
    cases heq
    exact hstill.logged
  · obtain ⟨w₁, tx₁, hstate, hlog, -⟩ := (hworks rc s caller ⟨w', hadm⟩).run w' (requestTx env rc) []
      (fun x hx => (by cases hx))
    rcases hrun : runM env (handler env rc s req caller) (w', [requestTx env rc]) with ⟨r, s'⟩
    rw [hrun] at heq hstate
    rw [hs] at heq
    cases r with
    | ok b => cases congrArg Prod.fst heq
    | error e' =>
      cases hstate
      cases heq
      exact hadm.still.logged.trans hlog

/-- A route that asks for no caller gets none. -/
theorem Admitted.no_caller {caller : Option Caller} {s : Session} {w' : World}
    (h : Admitted env w req rc caller s w') (huser : req.endpoint.user = false) :
    caller = none := by
  obtain ⟨i, w₁, -, -, -, hg⟩ := h.guards
  have hcaller := (guardsIn_ok hg).2
  cases caller with
  | none => rfl
  | some c => rw [huser] at hcaller; cases hcaller.1

/-- A route that asks for a caller gets one. -/
theorem Admitted.some_caller {caller : Option Caller} {s : Session} {w' : World}
    (h : Admitted env w req rc caller s w') (huser : req.endpoint.user = true) :
    ∃ c, caller = some c := by
  obtain ⟨i, w₁, -, -, -, hg⟩ := h.guards
  have hcaller := (guardsIn_ok hg).2
  cases caller with
  | none => rw [huser] at hcaller; cases hcaller
  | some c => exact ⟨c, rfl⟩

/-- What is known of the caller of an admitted request. -/
structure KnownCaller (env : Env) (w : World) (req : Request) (rc : RequestContext) (c : Caller) :
    Prop where
  account : c.user.user ∈ w.db .users
  tenant : rc.tenantId = some c.user.user.tenantId
  undeleted : c.user.user.deletedAt = none
  active : c.user.user.isActive = true
  subject : c.user.user.id = c.payload.sub
  claims : ∃ credentials, (req.headers.find "authorization").bind env.bearerCredentials =
    some credentials ∧ signed env credentials = some c.payload ∧ c.payload.type = "access"
  permitted : c.user.user.isSuperuser = true ∨
    ∀ code ∈ req.endpoint.permissions, code ∈ c.user.permissionCodes
  holds : ∀ code, code ∈ c.user.permissionCodes ↔
    Holds (seen w (requestTx env rc)) c.user.user.id code

theorem permissionIn_eq_ok {codes : List String} {user : LoadedUser} :
    permissionIn codes user = .ok () ↔
      user.user.isSuperuser = true ∨ ∀ c ∈ codes, c ∈ user.permissionCodes := by
  unfold permissionIn
  split
  · rename_i h
    exact ⟨fun _ => h, fun _ => rfl⟩
  · rename_i h
    constructor
    · intro heq
      cases heq
    · exact fun h' => (h h').elim

theorem Admitted.known {c : Caller} {s : Session} {w' : World}
    (h : Admitted env w req rc (some c) s w') : KnownCaller env w req rc c := by
  obtain ⟨i, w₁, -, -, -, hg⟩ := h.guards
  obtain ⟨-, -, hcaller, hpermission⟩ := guardsIn_ok hg
  obtain ⟨⟨credentials, hcred, hdecode⟩, hone, hactive⟩ := currentUserIn_ok hcaller
  obtain ⟨hsigned, -, -, htype⟩ := decodeIn_ok hdecode
  obtain ⟨hmem, htenant, hundeleted, hid⟩ := usersIn_request hone
  exact ⟨hmem, htenant, hundeleted, hactive, of_decide_eq_true hid,
    ⟨credentials, hcred, hsigned, htype⟩, permissionIn_eq_ok.mp hpermission,
    fun code => mem_permissionCodes (hone ▸ List.mem_singleton_self c.user) code⟩

/-- The caller is of the context's tenant, so enriching the context keeps its tenant. -/
theorem KnownCaller.enrich_tenant {c : Caller} (h : KnownCaller env w req rc c) :
    (rc.enrich c).tenantId = rc.tenantId := by
  simp [RequestContext.enrich, h.tenant]

/-! ## Login -/

/-- A login that was answered: an active account of the context's tenant, its tokens,
and its new session row. -/
structure LoggedIn (env : Env) (w : World) (req : Request) (data : LoginRequest) (body : Body)
    (w'' : World) (w₁ : World) (u : User) : Prop where
  tenant : ctxTenant env w req = some u.tenantId
  still : w.Still w₁
  before : w.Older w₁
  after : w₁.issued.Older w''
  account : u ∈ w.db .users
  undeleted : u.deletedAt = none
  active : u.isActive = true
  password : env.verify data.password u.hashedPassword = true
  answer : body = .tokens (issuedTokens env w₁ u.id u.tenantId)
  users : ∃ old t now, old ∈ w.db .users ∧ old.id = u.id ∧
    w''.db .users =
      replaceUser u.id { old with lastLoginAt := some t, updatedAt := now } (w.db .users)
  sessions : ∃ userAgent ip, w''.db .userSessions =
      w.db .userSessions ++ [issuedSession env w₁ u.id u.tenantId userAgent ip] ∧
    columnError .userSessions (issuedSession env w₁ u.id u.tenantId userAgent ip) = none
  tenantRow : ∃ t ∈ w.db .tenants, t.id = u.tenantId

theorem serve_login {data : LoginRequest} {body : Body} (he : req.endpoint = .login data)
    (h : serve env w req = (.ok body, w'')) :
    ∃ w₁ u, LoggedIn env w req data body w'' w₁ u := by
  obtain ⟨rc, caller, s, w₁, s', hadm, hrun, rfl⟩ := serve_ok (by rw [he]; trivial) h
  cases hadm.no_caller (by rw [he]; rfl)
  have hhandler : handler env rc s req none =
      (login env rc s data (req.headers.find "user-agent") req.client >>= fun t =>
        pure (.tokens t)) := by
    obtain ⟨headers, client, e, valid⟩ := req
    cases he
    rfl
  rw [hhandler] at hrun
  obtain ⟨tokens, s₁, hlogin, hret⟩ := Prog.run_bind_eq_ok hrun
  obtain ⟨tid, u, old, w₂, htid, hone, hverify, hactive, htarget, htokens, hlog, holder, hinsert,
    rfl⟩ := login_ok rfl hlogin
  cases hret
  rw [hadm.still.seen] at hone
  obtain ⟨hmem, htenant, hundeleted, -⟩ := usersIn_request hone
  cases htid.symm.trans htenant
  obtain ⟨holdmem, holdkey, -⟩ := target_requestTx htarget
  rw [hadm.still.db] at holdmem
  have holdid : old.id = u.user.id := List.singleton_injective holdkey
  have hlog' : w.Logged w₂ := hadm.still.logged.trans hlog
  obtain ⟨hcolumns, -, hrefs⟩ := checkInsert_eq_none.mp (insertError_none hinsert).2
  refine ⟨w₁, u.user, hadm.tenant.trans htenant, hadm.still, hadm.older, ?_, hmem, hundeleted,
    hactive, hverify, by rw [htokens], ⟨old, env.clock (w₁.ticks + 3), s.startedAt, holdmem, holdid, ?_⟩,
    ⟨req.headers.find "user-agent", req.client, ?_, ?_⟩, ?_⟩
  · exact holder.trans (runM_older commitSession (w₂, _))
  · rw [commit_table hlog' rfl (by simp), view_push, view_push,
      Write.apply_other (by simp [inserting, Write.table]), apply_update_users, view_requestTx]
  · rw [commit_table hlog' rfl (by simp), view_push, view_push, inserting, Write.apply_insert,
      Write.apply_other (by simp [Write.table]), view_requestTx]
    rfl
  · exact hcolumns
  · have href := (referenceError_userSessions.mp hrefs).1
    rw [view_push, Write.apply_other (by simp [Write.table]), view_requestTx, hadm.still.db] at href
    exact href

/-! ## Refresh -/

/-- What a transaction that sees a row under row-level security is bound to. -/
theorem requestTx_guc {t : Table} {r : Row t} {tid : Uuid} (hrls : t ∈ rlsTables)
    (h : r ∈ seen w (requestTx env rc) t) (htid : tenantOf t r = some tid) :
    (requestTx env rc).guc.tenantId = some tid := by
  have hmem : r ∈ w.db t ∧ policy (requestTx env rc).guc t r = true := (mem_seen rfl).mp h
  have hbypass : (requestTx env rc).guc.bypassRls = false := by
    unfold requestTx boundTx
    dsimp only
    split <;> rfl
  obtain ⟨tid', hguc, htenant⟩ := policy_tenant hrls hbypass hmem.2
  rw [hguc, ← htenant, htid]

/-- A refresh that was answered: the session row and the account of its token, and its
new tokens. The rotation is committed if the new row satisfies the constraints. -/
structure Refreshed (env : Env) (w : World) (req : Request) (token : String) (body : Body)
    (w'' : World) (w₁ : World) (p : TokenPayload) (row : UserSession) (u : User) : Prop where
  tenant : ctxTenant env w req = some u.tenantId
  still : w.Still w₁
  before : w.Older w₁
  after : w₁.rotated.issued.Older w''
  claims : decodeIn env token "refresh" (env.clock w₁.ticks) = .ok p
  session : row ∈ w.db .userSessions ∧ row.jti = p.jti ∧ row.tenantId = u.tenantId
  active : row.revokedAt = none
  unexpired : env.clock (w₁.ticks + 1) ≤ row.expiresAt
  account : u ∈ w.db .users ∧ u.id = p.sub ∧ u.deletedAt = none
  answer : body = .tokens (issuedTokens env w₁.rotated u.id p.tid)
  stored : w''.db .userSessions = w.db .userSessions ∨
    ∃ old, old ∈ w.db .userSessions ∧ old.id = row.id ∧
      w''.db .userSessions = replaceSession row.id
          { old with revokedAt := some (env.clock (w₁.ticks + 2)) } (w.db .userSessions) ++
        [issuedSession env w₁.rotated u.id p.tid row.userAgent row.ipAddress]
  sessions : p.tid = u.tenantId →
    columnError .userSessions
      (issuedSession env w₁.rotated u.id p.tid row.userAgent row.ipAddress) = none →
    (∀ r ∈ w.db .userSessions, r.id < w₁.nextUuid ∧ r.jti < w₁.nextUuid) →
    (∃ t ∈ w.db .tenants, t.id = p.tid) →
    ∃ old, old ∈ w.db .userSessions ∧ old.id = row.id ∧
      w''.db .userSessions = replaceSession row.id
          { old with revokedAt := some (env.clock (w₁.ticks + 2)) } (w.db .userSessions) ++
        [issuedSession env w₁.rotated u.id p.tid row.userAgent row.ipAddress]

theorem replaceSession_forall {P : UserSession → Prop} {id : Uuid} {v : UserSession}
    {rows : List UserSession} (h : ∀ r ∈ rows, P r) (hv : P v) :
    ∀ r ∈ replaceSession id v rows, P r := by
  intro r hr
  obtain ⟨r', hr', rfl⟩ := List.mem_map.mp hr
  split
  · exact hv
  · exact h r' hr'

theorem serve_refresh {token : String} {body : Body} (he : req.endpoint = .refresh token)
    (h : serve env w req = (.ok body, w'')) :
    ∃ w₁ p row u, Refreshed env w req token body w'' w₁ p row u := by
  obtain ⟨rc, caller, s, w₁, s', hadm, hrun, rfl⟩ := serve_ok (by rw [he]; trivial) h
  cases hadm.no_caller (by rw [he]; rfl)
  have hhandler : handler env rc s req none =
      (refresh env rc s token >>= fun t => pure (.tokens t)) := by
    obtain ⟨headers, client, e, valid⟩ := req
    cases he
    rfl
  rw [hhandler] at hrun
  obtain ⟨tokens, s₁, hrefresh, hret⟩ := Prog.run_bind_eq_ok hrun
  obtain ⟨p, row, u, old, hclaims, hrow, hactive, hexpiry, hone, htarget, htokens, rfl⟩ :=
    refresh_ok hrefresh
  cases hret
  rw [hadm.still.seen] at hrow hone
  obtain ⟨hmem, htenant, hundeleted, hid⟩ := usersIn_request hone
  have hid : u.user.id = p.sub := of_decide_eq_true hid
  have hseen := List.mem_filter.mp (hrow ▸ List.mem_singleton_self row)
  obtain ⟨hrowmem, tid, htid, hrowtenant⟩ := mem_seen_rls (by simp [rlsTables]) hseen.1
  cases htid.symm.trans htenant
  have hrowtenant : row.tenantId = u.user.tenantId := Option.some.inj hrowtenant
  obtain ⟨holdmem, holdkey, -⟩ := target_requestTx htarget
  rw [hadm.still.db] at holdmem
  have hguc := requestTx_guc (by simp [rlsTables]) hseen.1 (congrArg some hrowtenant)
  set new := issuedSession env w₁.rotated u.user.id p.tid row.userAgent row.ipAddress with hnew
  set revoked : UserSession := { old with revokedAt := some (env.clock (w₁.ticks + 2)) } with hrevoked
  set tx := (requestTx env rc).push (.update .userSessions [row.id] revoked) with htx
  have hsessions : view schema w₁.rotated.issued.db tx .userSessions =
      replaceSession row.id revoked (w.db .userSessions) := by
    rw [htx, view_push, apply_update_sessions, view_requestTx]
    exact congrArg _ (congrFun hadm.still.db _)
  have hother : ∀ t, t ≠ .userSessions → view schema w₁.rotated.issued.db tx t = w.db t := by
    intro t ht
    rw [htx, view_push, Write.apply_other (Ne.symm ht), view_requestTx]
    exact congrFun hadm.still.db _
  have hcommit : (runM env commitSession (w₁.rotated.issued,
      [withPending tx ⟨.userSessions, new⟩])).2.1 =
        committed w₁.rotated.issued (withPending tx ⟨.userSessions, new⟩) := by
    rw [runM_commitSession]
  -- the rotation, if the new row is inserted
  have hrotated : insertError schema w₁.rotated.issued.db tx .userSessions new = none →
      (runM env commitSession (w₁.rotated.issued,
        [withPending tx ⟨.userSessions, new⟩])).2.1.db .userSessions =
        replaceSession row.id revoked (w.db .userSessions) ++ [new] := by
    intro hinsert
    rw [hcommit, @committed_one w₁.rotated.issued (withPending tx ⟨.userSessions, new⟩)
      ⟨.userSessions, new⟩ rfl hinsert]
    show view schema w₁.rotated.issued.db (tx.push (inserting ⟨.userSessions, new⟩)) .userSessions = _
    rw [view_push, inserting, Write.apply_insert, hsessions]
    rfl
  refine ⟨w₁, p, row, u.user, hadm.tenant.trans htenant, hadm.still, hadm.older,
    runM_older commitSession (w₁.rotated.issued, _), hclaims,
    ⟨hrowmem, of_decide_eq_true hseen.2, hrowtenant⟩, hactive, hexpiry, ⟨hmem, hid, hundeleted⟩,
    by rw [htokens], ?_, fun hp hcolumns hfresh htenants =>
      ⟨old, holdmem, List.singleton_injective holdkey, hrotated ?_⟩⟩
  · cases hinsert : insertError schema w₁.rotated.issued.db tx .userSessions new with
    | none => exact .inr ⟨old, holdmem, List.singleton_injective holdkey, hrotated hinsert⟩
    | some e =>
      refine .inl ?_
      show (runM env commitSession (w₁.rotated.issued,
        [withPending tx ⟨.userSessions, new⟩])).2.1.db .userSessions = _
      rw [hcommit, @committed_refused w₁.rotated.issued (withPending tx ⟨.userSessions, new⟩)
        ⟨.userSessions, new⟩ e rfl hinsert]
      exact congrFun hadm.still.db _
  · have hold := hfresh old holdmem
    have hunique : ∀ r ∈ replaceSession row.id revoked (w.db .userSessions),
        r.id ≠ new.id ∧ r.jti ≠ new.jti :=
      replaceSession_forall
        (fun r hr => ⟨Nat.ne_of_lt (Nat.lt_succ_of_lt (hfresh r hr).1), Nat.ne_of_lt (hfresh r hr).2⟩)
        ⟨Nat.ne_of_lt (Nat.lt_succ_of_lt hold.1), Nat.ne_of_lt hold.2⟩
    have hpolicy : schema.policy tx.guc .userSessions new = true :=
      policy_of_tenant hguc (show tenantOf .userSessions new = _ from congrArg some hp)
    unfold insertError
    rw [if_pos hpolicy]
    refine checkInsert_eq_none.mpr ⟨hcolumns, uniqueError_userSessions.mpr ?_,
      referenceError_userSessions.mpr ⟨?_, ?_⟩⟩
    · rw [hsessions]; exact hunique
    · rw [hother _ (by simp)]; exact htenants
    · rw [hother _ (by simp)]; exact ⟨u.user, hmem, rfl⟩

/-! ## Logout -/

/-- A logout that was answered revoked the session row of its token, or there was no
active session row of it to see. -/
theorem serve_logout {refreshToken : Option String} {body : Body}
    (he : req.endpoint = .logout refreshToken) (h : serve env w req = (.ok body, w'')) :
    ∃ rc w₁, ctxTenant env w req = rc.tenantId ∧ w.Still w₁ ∧ w.Older w₁ ∧ w₁.Older w'' ∧
      ((∃ row old t, LogsOut env refreshToken (env.clock w₁.ticks) (seen w (requestTx env rc)) row ∧
          old ∈ w.db .userSessions ∧ old.id = row.id ∧
          w''.db .userSessions =
            replaceSession row.id { old with revokedAt := some t } (w.db .userSessions)) ∨
        (∀ row, ¬ LogsOut env refreshToken (env.clock w₁.ticks) (seen w (requestTx env rc)) row) ∧
          w''.db .userSessions = w.db .userSessions) := by
  obtain ⟨rc, caller, s, w₁, s', hadm, hrun, rfl⟩ := serve_ok (by rw [he]; trivial) h
  cases hadm.no_caller (by rw [he]; rfl)
  have hhandler : handler env rc s req none =
      (logout env s refreshToken >>= fun _ => pure (.message "Logged out")) := by
    obtain ⟨headers, client, e, valid⟩ := req
    cases he
    rfl
  rw [hhandler] at hrun
  have holder := @runM_older env _ (handler env rc s req none) (w₁, [requestTx env rc])
  rw [hhandler, hrun] at holder
  obtain ⟨_, s₁, hlogout, hret⟩ := Prog.run_bind_eq_ok hrun
  cases hret
  refine ⟨rc, w₁, hadm.tenant, hadm.still, hadm.older, holder.trans (runM_older _ _), ?_⟩
  obtain ⟨row, old, w₂, hlogs, htarget, hstill, -, rfl⟩ | ⟨hnone, w₂, hstill, -, rfl⟩ :=
    logout_ok hlogout
  · rw [hadm.still.seen] at hlogs
    obtain ⟨holdmem, holdkey, -⟩ := target_requestTx htarget
    rw [hadm.still.db] at holdmem
    refine .inl ⟨row, old, env.clock (w₁.ticks + 1), hlogs, holdmem, List.singleton_injective holdkey, ?_⟩
    rw [commit_table (hadm.still.trans hstill).logged rfl (by simp), view_push,
      apply_update_sessions, view_requestTx]
  · rw [hadm.still.seen] at hnone
    refine .inr ⟨hnone, ?_⟩
    rw [commit_table (hadm.still.trans hstill).logged rfl (by simp), view_requestTx]

/-! ## Password reset -/

theorem storedReset_still {w' : World} (h : w.Still w') (token : String) :
    storedReset env w' token = storedReset env w token := by
  simp only [storedReset, h.resetStore, h.resetKeys]

/-- A reset that was answered: the account its token stands for gets a new password,
and the account's sessions of the context's tenant are revoked. -/
theorem serve_resetPassword {token newPassword : String} {body : Body}
    (hids : ((w.db .userSessions).map (·.id)).Nodup)
    (he : req.endpoint = .resetPassword token newPassword)
    (h : serve env w req = (.ok body, w'')) :
    ∃ raw u t g, storedReset env w token = some raw ∧ resetUser raw = some u.id ∧
      u ∈ w.db .users ∧ ctxTenant env w req = some u.tenantId ∧ u.deletedAt = none ∧
      g.tenantId = some u.tenantId ∧ g.bypassRls = false ∧
      (∃ old hashed now, old ∈ w.db .users ∧ old.id = u.id ∧ w''.db .users =
        replaceUser u.id { old with hashedPassword := hashed, updatedAt := now } (w.db .users)) ∧
      w''.db .userSessions = revokeLive g u.id t (w.db .userSessions) := by
  obtain ⟨rc, caller, s, w₁, s', hadm, hrun, rfl⟩ := serve_ok (by rw [he]; trivial) h
  cases hadm.no_caller (by rw [he]; rfl)
  have hhandler : handler env rc s req none = (resetPassword env rc s token newPassword >>=
      fun _ => pure (.message "Password reset successful")) := by
    obtain ⟨headers, client, e, valid⟩ := req
    cases he
    rfl
  rw [hhandler] at hrun
  obtain ⟨_, s₁, hreset, hret⟩ := Prog.run_bind_eq_ok hrun
  cases hret
  have hview₁ : view schema w₁.db (requestTx env rc) = w.db :=
    view_requestTx.trans hadm.still.db
  obtain ⟨raw, tid, u, old, d, w₂, tx', hstored, htid, hraw, hone, htarget, hdb, holder, rfl,
    hrewrote, hsessions⟩ := resetPassword_ok (by rw [hview₁]; exact hids) hreset
  rw [storedReset_still hadm.still] at hstored
  rw [hadm.still.seen] at hone
  obtain ⟨hmem, htenant, hundeleted, -⟩ := usersIn_request hone
  have hseen := (mem_usersIn (hone ▸ List.mem_singleton_self u)).1
  have hguc := requestTx_guc (by simp [rlsTables]) hseen rfl
  have hbypass : (requestTx env rc).guc.bypassRls = false := by
    unfold requestTx boundTx
    dsimp only
    split <;> rfl
  obtain ⟨holdmem, holdkey, -⟩ := target_requestTx htarget
  rw [hadm.still.db] at holdmem
  have hlog : w.Logged w₂ := fun t _ => by rw [hdb, hadm.still.db]
  refine ⟨raw, u.user, s.startedAt, (requestTx env rc).guc, hstored, hraw, hmem,
    hadm.tenant.trans htenant, hundeleted, hguc, hbypass, ⟨old, env.hash d newPassword, s.startedAt,
      holdmem, List.singleton_injective holdkey, ?_⟩, ?_⟩
  · rw [commit_table hlog hrewrote.pending (by simp), hrewrote.view _ (by simp), view_push,
      apply_update_users, view_requestTx]
  · rw [commit_table hlog hrewrote.pending (by simp), ← hadm.still.db, hsessions, hview₁,
      hadm.still.db]

/-! ## New and changed accounts -/

/-- A registration or a user creation that was answered: one new account of the
context's tenant. -/
structure Joined (w : World) (tid : Uuid) (u : User) (w'' : World) : Prop where
  users : w''.db .users = w.db .users ++ [u]
  fresh : w.nextUuid ≤ u.id
  id : u.id < w''.nextUuid
  tenant : u.tenantId = tid
  plain : u.isSuperuser = false

/-- The columns of `user_roles` rows. -/
def assigned (userId : Uuid) (roles : List LoadedRole) : List UserRole :=
  roles.map fun r => ⟨userId, r.role.id⟩

theorem apply_roleRows (userId : Uuid) (roles : List LoadedRole) (db : Database Row) :
    ((roleRows userId roles).map inserting).foldl (Write.apply schema) db .userRoles =
      db .userRoles ++ assigned userId roles := by
  induction roles generalizing db with
  | nil => simp [roleRows, assigned]
  | cons r roles ih =>
    show ((roleRows userId roles).map inserting).foldl (Write.apply schema)
      ((inserting ⟨.userRoles, (⟨userId, r.role.id⟩ : UserRole)⟩).apply schema db) .userRoles = _
    rw [ih, inserting, Write.apply_insert, List.append_assoc]
    rfl

theorem roleRows_table {userId : Uuid} {roles : List LoadedRole}
    {x : Mvcc.Write Row (List Uuid)} (hx : x ∈ (roleRows userId roles).map inserting) :
    x.table = .userRoles := by
  obtain ⟨y, hy, rfl⟩ := List.mem_map.mp hx
  obtain ⟨r, -, rfl⟩ := List.mem_map.mp hy
  rfl

/-- A registration that was answered: the account, and the roles that the tenant has under
the student code. -/
theorem serve_register {data : RegisterRequest} {body : Body} (he : req.endpoint = .register data)
    (h : serve env w req = (.ok body, w'')) :
    ∃ rc tid out, ctxTenant env w req = rc.tenantId ∧ rc.tenantId = some tid ∧
      body = .user (.ofUser out) ∧ Joined w tid out.user w'' ∧
      policy (requestTx env rc).guc .users out.user = true ∧
      out.roles = rolesByCodeIn (seen w (requestTx env rc)) rc "student" ∧
      w''.db .userRoles = w.db .userRoles ++ assigned out.user.id out.roles ∧
      out.user.deletedAt = none := by
  obtain ⟨rc, caller, s, w₁, s', hadm, hrun, rfl⟩ := serve_ok (by rw [he]; trivial) h
  cases hadm.no_caller (by rw [he]; rfl)
  have hhandler : handler env rc s req none =
      (register env rc s data >>= fun u => pure (.user (.ofUser u))) := by
    obtain ⟨headers, client, e, valid⟩ := req
    cases he
    rfl
  rw [hhandler] at hrun
  obtain ⟨out, s₁, hregister, hret⟩ := Prog.run_bind_eq_ok hrun
  cases hret
  obtain ⟨tid, w₂, tx', htid, hid, htenant, hplain, hroles, hpolicy, hlog, huuid, rfl, hp,
    hwrites, hlive⟩ := register_ok rfl hregister
  have hlog' := hadm.still.logged.trans hlog
  rw [hadm.still.seen] at hroles
  have hview : ∀ t, view schema w.db tx' t = ((roleRows out.user.id out.roles).map inserting).foldl
      (Write.apply schema) ((inserting ⟨.users, out.user⟩).apply schema w.db) t := by
    intro t
    rw [view, hwrites]
    rfl
  refine ⟨rc, tid, out, hadm.tenant, htid, rfl,
    ⟨?_, hid ▸ hadm.older.uuid, ?_, htenant, hplain⟩, hpolicy, hroles, ?_, hlive⟩
  · rw [commit_table hlog' hp (by simp), hview,
      foldl_apply_other fun x hx => by rw [roleRows_table hx]; simp]
    rfl
  · rw [hid]
    exact huuid.trans_le (runM_older commitSession (w₂, [tx'])).uuid
  · rw [commit_table hlog' hp (by simp), hview, apply_roleRows,
      Write.apply_other (by simp [inserting, Write.table])]

theorem rolesByCodesIn_enrich {db : Database Row} {c : Caller} {codes : List String}
    (h : (rc.enrich c).tenantId = rc.tenantId) :
    rolesByCodesIn db (rc.enrich c) codes = rolesByCodesIn db rc codes := by
  have hscope : ∀ r, inScope (rc.enrich c) .roles r = inScope rc .roles r := by
    intro r
    simp only [inScope, h]
  simp only [rolesByCodesIn, hscope]

theorem usersIn_enrich {db : Database Row} {c : Caller} {p : User → Bool}
    (h : (rc.enrich c).tenantId = rc.tenantId) :
    usersIn db (rc.enrich c) p = usersIn db rc p := by
  have hscope : ∀ r, inScope (rc.enrich c) .users r = inScope rc .users r := by
    intro r
    simp only [inScope, h]
  simp only [usersIn, hscope]

theorem serve_createUser {data : AdminUserCreate} {body : Body}
    (he : req.endpoint = .createUser data) (h : serve env w req = (.ok body, w'')) :
    ∃ rc c s w₁ u, Admitted env w req rc (some c) s w₁ ∧
      Joined w c.user.user.tenantId u w'' ∧
      w''.db .userRoles = w.db .userRoles ++
        assigned u.id (askedRoles (seen w (requestTx env rc)) rc data.roleCodes) ∧
      u.deletedAt = none := by
  obtain ⟨rc, caller, s, w₁, s', hadm, hrun, rfl⟩ := serve_ok (by rw [he]; trivial) h
  obtain ⟨c, rfl⟩ := hadm.some_caller (by rw [he]; rfl)
  have hknown := hadm.known
  have hhandler : handler env rc s req (some c) =
      (createUser env (rc.enrich c) s data >>= fun u => pure (.user (.ofUser u))) := by
    obtain ⟨headers, client, e, valid⟩ := req
    cases he
    rfl
  rw [hhandler] at hrun
  obtain ⟨out, s₁, hcreate, hret⟩ := Prog.run_bind_eq_ok hrun
  cases hret
  obtain ⟨tid, w₂, htid, hid, htenant, hplain, hroles, hlog, huuid, rfl, hlive⟩ :=
    createUser_ok rfl hcreate
  rw [hknown.enrich_tenant, hknown.tenant] at htid
  cases htid
  rw [hadm.still.seen, askedRoles, rolesByCodesIn_enrich hknown.enrich_tenant] at hroles
  have hlog' := hadm.still.logged.trans hlog
  refine ⟨rc, c, s, w₁, out.user, hadm, ⟨?_, hid ▸ hadm.older.uuid, ?_, htenant, hplain⟩, ?_, hlive⟩
  · rw [commit_table hlog' rfl (by simp)]
    show ((roleRows out.user.id out.roles).map inserting).foldl (Write.apply schema)
      ((inserting ⟨.users, out.user⟩).apply schema w.db) .users = _
    rw [foldl_apply_other fun x hx => by rw [roleRows_table hx]; simp]
    rfl
  · rw [hid]
    exact huuid.trans_le (runM_older commitSession (w₂, _)).uuid
  · rw [commit_table hlog' rfl (by simp)]
    show ((roleRows out.user.id out.roles).map inserting).foldl (Write.apply schema)
      ((inserting ⟨.users, out.user⟩).apply schema w.db) .userRoles = _
    rw [apply_roleRows, hroles, Write.apply_other (by simp [inserting, Write.table])]
    rfl

/-- The rows of `user_roles` after the deletions of a changed collection. -/
theorem apply_unassign (userId : Uuid) (roles : List LoadedRole) (db : Database Row) :
    (unassign userId roles).foldl (Write.apply schema) db .userRoles =
      (db .userRoles).filter fun ur => roles.all fun r =>
        decide (¬(ur.userId = userId ∧ ur.roleId = r.role.id)) := by
  induction roles generalizing db with
  | nil => simp [unassign]
  | cons r roles ih =>
    show (unassign userId roles).foldl (Write.apply schema)
      (Write.apply schema db (.delete .userRoles [userId, r.role.id])) .userRoles = _
    rw [ih, Write.apply_delete, List.filter_filter]
    refine List.filter_congr fun ur _ => ?_
    simp [schema, keyOf, Bool.and_comm]

theorem unassign_table {userId : Uuid} {roles : List LoadedRole}
    {x : Mvcc.Write Row (List Uuid)} (hx : x ∈ unassign userId roles) : x.table = .userRoles := by
  obtain ⟨r, -, rfl⟩ := List.mem_map.mp hx
  rfl

/-- What the writes of a user update leave. -/
theorem reassigned_view {ws : List (Mvcc.Write Row (List Uuid))} (hws : ∀ x ∈ ws, x.table = .users)
    (db : Database Row) (tx : Tx) (userId : Uuid) (u : LoadedUser) (roles : List LoadedRole) :
    view schema db ⟨tx.guc, tx.writes ++ ws ++ unassign userId (leaving u roles) ++
        (roleRows userId (joining u roles)).map inserting, tx.pending⟩ .users =
      ws.foldl (Write.apply schema) (view schema db tx) .users ∧
    view schema db ⟨tx.guc, tx.writes ++ ws ++ unassign userId (leaving u roles) ++
        (roleRows userId (joining u roles)).map inserting, tx.pending⟩ .userRoles =
      (view schema db tx .userRoles).filter (fun ur => (leaving u roles).all fun r =>
        decide (¬(ur.userId = userId ∧ ur.roleId = r.role.id))) ++
      assigned userId (joining u roles) ∧
    ∀ t, t ≠ .users → t ≠ .userRoles →
      view schema db ⟨tx.guc, tx.writes ++ ws ++ unassign userId (leaving u roles) ++
        (roleRows userId (joining u roles)).map inserting, tx.pending⟩ t = view schema db tx t := by
  have hold : ∀ t, t ≠ .users → (tx.writes ++ ws).foldl (Write.apply schema) db t =
      view schema db tx t := by
    intro t ht
    rw [List.foldl_append, foldl_apply_other fun x hx => by rw [hws x hx]; exact ht.symm]
    rfl
  have hrest : ∀ t, t ≠ .userRoles → view schema db ⟨tx.guc, tx.writes ++ ws ++
      unassign userId (leaving u roles) ++ (roleRows userId (joining u roles)).map inserting,
      tx.pending⟩ t = (tx.writes ++ ws).foldl (Write.apply schema) db t := by
    intro t ht
    rw [view, List.foldl_append, List.foldl_append]
    rw [foldl_apply_other fun x hx => by rw [roleRows_table hx]; exact ht.symm,
      foldl_apply_other fun x hx => by rw [unassign_table hx]; exact ht.symm]
  refine ⟨?_, ?_, fun t hu hr => (hrest t hr).trans (hold t hu)⟩
  · rw [hrest .users (by decide), List.foldl_append]
    rfl
  · rw [view, List.foldl_append, List.foldl_append, apply_roleRows, apply_unassign,
      hold .userRoles (by decide)]

/-- A user update that was answered: the one account of the context's tenant with the
identifier, its row and its roles changed. -/
theorem serve_updateUser {userId : Uuid} {data : AdminUserUpdate} {body : Body}
    (he : req.endpoint = .updateUser userId data) (h : serve env w req = (.ok body, w'')) :
    ∃ rc c s w₁ u, Admitted env w req rc (some c) s w₁ ∧
      usersIn (seen w (requestTx env rc)) rc (fun v => v.id = userId) = [u] ∧
      (w''.db .users = w.db .users ∨ ∃ old now, old ∈ w.db .users ∧ old.id = userId ∧
        w''.db .users =
          replaceUser userId { data.apply old with updatedAt := now } (w.db .users)) ∧
      w''.db .userRoles =
        (w.db .userRoles).filter (fun ur =>
          (leaving u (updatedRoles (seen w (requestTx env rc)) rc u data.roleCodes)).all fun r =>
            decide (¬(ur.userId = userId ∧ ur.roleId = r.role.id))) ++
        assigned userId
          (joining u (updatedRoles (seen w (requestTx env rc)) rc u data.roleCodes)) := by
  obtain ⟨rc, caller, s, w₁, s', hadm, hrun, rfl⟩ := serve_ok (by rw [he]; trivial) h
  obtain ⟨c, rfl⟩ := hadm.some_caller (by rw [he]; rfl)
  have hknown := hadm.known
  have hhandler : handler env rc s req (some c) =
      (updateUser env (rc.enrich c) s userId data >>= fun u => pure (.user (.ofUser u))) := by
    obtain ⟨headers, client, e, valid⟩ := req
    cases he
    rfl
  rw [hhandler] at hrun
  obtain ⟨out, s₁, hupdate, hret⟩ := Prog.run_bind_eq_ok hrun
  cases hret
  obtain ⟨u, w₂, ws, hone, hws, hlog, rfl⟩ := updateUser_ok hupdate
  have hroles : updatedRoles (seen w₁ (requestTx env rc)) (rc.enrich c) u data.roleCodes =
      updatedRoles (seen w (requestTx env rc)) rc u data.roleCodes := by
    rw [hadm.still.seen]
    cases data.roleCodes with
    | none => rfl
    | some codes => exact rolesByCodesIn_enrich hknown.enrich_tenant
  rw [hadm.still.seen, usersIn_enrich hknown.enrich_tenant] at hone
  rw [hroles]
  have hlog' := hadm.still.logged.trans hlog
  have hws' : ∀ x ∈ ws, x.table = .users := by
    intro x hx
    obtain rfl | ⟨old, -, rfl⟩ := hws
    · cases hx
    · rw [List.mem_singleton.mp hx]
      rfl
  refine ⟨rc, c, s, w₁, u, hadm, hone, ?_, ?_⟩ <;>
    generalize updatedRoles (seen w (requestTx env rc)) rc u data.roleCodes = roles
  · rw [commit_table hlog' rfl (by simp), (reassigned_view hws' _ _ _ _ _).1]
    obtain rfl | ⟨old, htarget, rfl⟩ := hws
    · exact .inl rfl
    · obtain ⟨holdmem, holdkey, -⟩ := target_requestTx htarget
      rw [hadm.still.db] at holdmem
      exact .inr ⟨old, s.startedAt, holdmem, List.singleton_injective holdkey, apply_update_users⟩
  · rw [commit_table hlog' rfl (by simp), (reassigned_view hws' _ _ _ _ _).2.1]
    rfl

/-! ## New tenants -/

theorem serve_createTenant {data : TenantCreate} {body : Body}
    (he : req.endpoint = .createTenant data) (h : serve env w req = (.ok body, w'')) :
    ∃ rc c s w₁ t u, Admitted env w req rc (some c) s w₁ ∧ body = .tenant (.ofTenant t) ∧
      w.Older w₁ ∧ Provisioned w₁ t u w'' ∧ w₁.db = w.db ∧ u.deletedAt = none := by
  obtain ⟨rc, caller, s, w₁, s', hadm, hrun, rfl⟩ := serve_ok (by rw [he]; trivial) h
  obtain ⟨c, rfl⟩ := hadm.some_caller (by rw [he]; rfl)
  have hhandler : handler env rc s req (some c) =
      (createTenant env data >>= fun t => pure (.tenant (.ofTenant t))) := by
    obtain ⟨headers, client, e, valid⟩ := req
    cases he
    rfl
  rw [hhandler] at hrun
  obtain ⟨t, s₁, hcreate, hret⟩ := Prog.run_bind_eq_ok hrun
  cases hret
  obtain ⟨u, w₂, rfl, hprov, hlive⟩ := createTenant_ok hcreate
  have hcommit : (runM env commitSession (w₂, [requestTx env rc])).2.1 = w₂ := by
    rw [Quiet.runM_commitSession_nil w₂ _ _ rfl rfl]
  rw [hcommit]
  exact ⟨rc, c, s, w₁, t, u, hadm, rfl, hadm.older, hprov, hadm.still.db, hlive⟩

end LmsBackend
