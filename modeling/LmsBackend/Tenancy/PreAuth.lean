import LmsBackend.Tenancy.Resolution

/-!
# Requests before login without a tenant

The operations that need no login run in the tenant of the request context. What they do
when there is none is read off here.

- `Endpoint.preAuth`: the five operations.
- `unresolved_handler`: how each of them ends.
- `tenant_required_never`: none of them ever raises `TenantResolutionError`.
-/

namespace LmsBackend

open Mvcc

variable {env : Env} {rc : RequestContext} {s : Session} {w : World} {req : Request} {txs : List Tx}
  {α β : Type}

/-- Registration, login, refresh and the two halves of a password reset. -/
def Endpoint.preAuth : Endpoint → Prop
  | .register _ => True
  | .login _ => True
  | .refresh _ => True
  | .forgotPassword _ => True
  | .resetPassword _ _ => True
  | _ => False

/-- `TenantResolutionError`. -/
def Err.isTenantResolution : Err → Bool
  | .app .tenantResolution _ _ => true
  | _ => false

/-! ## How they end -/

/-- The exceptions with which an operation ends that finds no tenant. -/
def Endpoint.unresolvedError : Endpoint → Err → Prop
  | .refresh _, e => ∃ message, e = .app .authentication message .none
  | .resetPassword _ _, e => e = .app .validation "Invalid or expired reset token" .none ∨
      ∃ u, e = .unhandled u
  | _, e => ∃ message, e = .unhandled (.runtimeError message)

/-- No session row is visible without a tenant. -/
theorem sessions_unseen (htenant : rc.tenantId = none) :
    seen w (requestTx env rc) .userSessions = [] := by
  rw [List.eq_nil_iff_forall_not_mem]
  intro r hr
  have hpolicy : policy (requestTx env rc).guc .userSessions r = true := (mem_visible.mp hr).2
  have hbypass : (requestTx env rc).guc.bypassRls = false := by
    unfold requestTx boundTx
    split <;> rfl
  obtain ⟨tid, hset, -⟩ := policy_tenant (by decide) hbypass hpolicy
  have hunset : (requestTx env rc).guc.tenantId = none := by
    unfold requestTx boundTx
    rw [htenant]
    split <;> rfl
  rw [hunset] at hset
  cases hset

theorem requireTenantId_none (htenant : rc.tenantId = none) (st : State) :
    ∃ message, runM env (requireTenantId rc) st =
      (.error (.unhandled (.runtimeError message)), st) := by
  unfold requireTenantId
  rw [htenant]
  exact ⟨_, rfl⟩

/-- A refresh finds no session row, whatever the token says. -/
theorem refresh_unresolved (htenant : rc.tenantId = none) (token : String) :
    ∃ message s', runM env (refresh env rc s token) (w, [requestTx env rc]) =
      (.error (.app .authentication message .none), s') := by
  obtain ⟨w₁, hdecode, -, -⟩ :=
    (@Quiet.decodeToken env token "refresh").run w [requestTx env rc]
  unfold refresh
  rw [runM_decodeToken] at hdecode
  rw [runM_bind_ok hdecode]
  cases decodeIn env token "refresh" (env.clock w.ticks) with
  | error message => exact ⟨message, _, rfl⟩
  | ok p =>
    have hsession : runM env (getByJti p.jti) (w₁, [requestTx env rc]) =
        (.ok none, (w₁, [requestTx env rc])) := by
      unfold getByJti
      rw [runM_bind, runM_query, sessions_unseen htenant]
      rfl
    dsimp only
    rw [runM_bind_ok hsession]
    exact ⟨_, _, rfl⟩

/-- The exceptions of a reset that finds no tenant. -/
def Err.resetError (e : Err) : Prop :=
  e = .app .validation "Invalid or expired reset token" .none ∨ ∃ u, e = .unhandled u

/-- A reset ends at the tenant part of the token's value at the latest. -/
theorem resetPassword_unresolved (htenant : rc.tenantId = none) (token newPassword : String)
    (st : State) : ∃ e s', runM env (resetPassword env rc s token newPassword) st =
      (.error e, s') ∧ e.resetError := by
  have hscoped : requireTenantId rc = .raise (.unhandled (.runtimeError
      "No tenant in context — tenant-scoped operation attempted unscoped")) := by
    unfold requireTenantId
    rw [htenant]
  have hlookup : Prog.Raises Err.resetError (lookupReset env token) := by
    unfold lookupReset getReset
    split
    · refine (Prog.Raises.op _).bind fun value => ?_
      split
      · trivial
      · trivial
    · refine (Prog.Raises.op _).bind fun stored => ?_
      split
      · trivial
      · refine (Prog.Raises.op _).bind fun now => ?_
        split
        · exact fun _ => trivial
        · trivial
  have huuid : ∀ text, Prog.Raises Err.resetError (uuidOf text) := by
    intro text
    unfold uuidOf
    split
    · trivial
    · exact .inr ⟨_, rfl⟩
  have hraises : Prog.Raises Err.resetError (resetPassword env rc s token newPassword) := by
    refine hlookup.bind fun raw => ?_
    cases truthy raw with
    | none => exact .inl rfl
    | some raw =>
      refine (huuid _).bind fun u => ?_
      rw [hscoped]
      exact .inr ⟨_, rfl⟩
  have hall : Prog.All (fun _ => True) (fun _ _ => True) (fun _ => False)
      (resetPassword env rc s token newPassword) := by
    have hany : ∀ {β : Type} (p : M β), Prog.All (fun _ => True) (fun _ _ => True) (fun _ => True) p :=
      Prog.All.of_forall (fun _ => trivial) fun _ => trivial
    refine (hany _).bind fun raw _ => ?_
    cases truthy raw with
    | none => trivial
    | some raw =>
      refine (hany _).bind fun u _ => ?_
      rw [hscoped]
      trivial
  rcases hrun : runM env (resetPassword env rc s token newPassword) st with ⟨r, s'⟩
  cases r with
  | ok a => exact (hall.run_ok (fun _ => True) (fun _ _ _ _ => ⟨trivial, trivial⟩) trivial hrun).elim
  | error e => exact ⟨e, s', rfl, hraises.run hrun⟩

/-- How an operation ends that finds no tenant. -/
theorem unresolved_handler (hpre : req.endpoint.preAuth) (htenant : rc.tenantId = none) :
    ∃ e s', runM env (handler env rc s req none) (w, [requestTx env rc]) = (.error e, s') ∧
      req.endpoint.unresolvedError e := by
  obtain ⟨headers, client, endpoint, valid⟩ := req
  cases endpoint with
  | register data =>
    obtain ⟨message, hnone⟩ := @requireTenantId_none env rc htenant (w, [requestTx env rc])
    exact ⟨_, _, runM_bind_error (runM_bind_error hnone), message, rfl⟩
  | login data =>
    obtain ⟨message, hnone⟩ := @requireTenantId_none env rc htenant (w, [requestTx env rc])
    exact ⟨_, _, runM_bind_error (runM_bind_error hnone), message, rfl⟩
  | refresh token =>
    obtain ⟨message, s', hrun⟩ := @refresh_unresolved env rc s w htenant token
    exact ⟨_, s', runM_bind_error hrun, message, rfl⟩
  | forgotPassword email =>
    obtain ⟨message, hnone⟩ := @requireTenantId_none env rc htenant (w, [requestTx env rc])
    exact ⟨_, _, runM_bind_error (runM_bind_error hnone), message, rfl⟩
  | resetPassword token newPassword =>
    obtain ⟨e, s', hrun, he⟩ :=
      @resetPassword_unresolved env rc s htenant token newPassword (w, [requestTx env rc])
    exact ⟨e, s', runM_bind_error hrun, he⟩
  | _ => exact hpre.elim

/-! ## The middleware and the limiter -/

/-- No exception of the program is a `TenantResolutionError`. -/
abbrev Unaware (p : M α) : Prop := Prog.Raises (fun e => e.isTenantResolution = false) p

theorem Unaware.tenantSession {tenantId : Option Uuid} {bypass : Bool} {body : Session → M α}
    (h : ∀ s, Unaware (body s)) : Unaware (tenantSession env tenantId bypass body) := by
  have hinsert : ∀ x : AnyRow Row, Unaware (insertRow x) := by
    intro x r
    cases r with
    | ok _ => trivial
    | error e => rfl
  have hflush : Unaware flush := fun rows => Prog.Raises.forEach hinsert
  have hbind : Unaware (bindRls env tenantId bypass) := by
    unfold bindRls
    split
    · intro _
      split
      · exact fun _ => trivial
      · trivial
    · trivial
  refine fun _ now => Prog.Raises.attempt (hbind.bind fun _ => h ⟨now⟩) (fun a => ?_) fun e he => ?_
  · show Unaware (Prog.bind (Prog.bind (Prog.attempt flush) _) _)
    rw [Prog.bind_assoc]
    exact hflush.attempt (fun _ _ => trivial) fun e he _ => he
  · exact fun _ => he

theorem Unaware.resolveTenantId {identifier : String} :
    Unaware (resolveTenantId env identifier) := by
  have hcache : ∀ tid, Unaware (cacheSlug env identifier tid) := by
    intro tid
    unfold cacheSlug
    split
    · exact Prog.Raises.op _
    · trivial
  have hslug : Unaware (resolveSlug env identifier) := by
    refine Unaware.tenantSession fun s => ?_
    refine ((Prog.Raises.op _).bind fun rows => ?_ : Unaware (getTenantBySlug identifier)).bind
      fun found => ?_
    · unfold scalarOneOrNone
      split
      · trivial
      · trivial
      · rfl
    · cases found with
      | none => trivial
      | some t =>
        dsimp only
        split
        · exact (hcache t.id).bind fun _ => trivial
        · trivial
  unfold LmsBackend.resolveTenantId
  split
  · trivial
  · split
    · refine (Prog.Raises.op _).bind fun cached => ?_
      split
      · trivial
      · exact hslug
    · exact hslug

theorem Unaware.requestContext {headers : Headers} {client : Option String} :
    Unaware (requestContext env headers client) := by
  have hid : Unaware (requestId headers) := by
    unfold requestId
    split
    · trivial
    · exact fun _ => trivial
  have hheader : Unaware (resolveFromHeader env headers) := by
    unfold resolveFromHeader
    split
    · exact Unaware.resolveTenantId.bind fun _ => trivial
    · trivial
  have hdecode : ∀ token, Unaware (decodeToken env token "access") := by
    intro token
    unfold decodeToken
    split
    · trivial
    · exact fun _ => trivial
  have hidentity : Unaware (resolveIdentity env headers) := by
    unfold resolveIdentity
    split
    · refine (hdecode _).bind fun r => ?_
      cases r with
      | ok p => trivial
      | error message => exact hheader
    · exact hheader
  exact hid.bind fun _ => hidentity.bind fun _ => trivial

theorem Unaware.limitRate {e : Endpoint} : Unaware (limitRate env rc e) := by
  unfold LmsBackend.limitRate
  split
  · unfold rateLimit
    split
    · refine (Prog.Raises.op _).bind fun count => Prog.Raises.bind ?_ fun _ => ?_
      · unfold startWindow
        split
        · exact Prog.Raises.op _
        · trivial
      · split
        · exact (Prog.Raises.op _).bind fun _ => rfl
        · trivial
    · trivial
  · trivial

/-! ## The contract -/

/-- A request before login, with a valid body, for which the middleware finds no tenant. -/
structure Unresolved (env : Env) (w : World) (req : Request) : Prop where
  preAuth : req.endpoint.preAuth
  valid : req.valid = true
  tenant : ctxTenant env w req = none

/-- The request fails with `TenantResolutionError`, and changes neither the database nor the
reset store. -/
structure TenantRequired (env : Env) (w : World) (req : Request) : Prop where
  raised : ∃ e, (serve env w req).1 = .error e ∧ e.isTenantResolution = true
  unchanged : w.Still (serve env w req).2

theorem unresolvedError_other {e : Endpoint} (hpre : e.preAuth) {err : Err}
    (h : e.unresolvedError err) : err.isTenantResolution = false := by
  cases e with
  | register data => obtain ⟨message, rfl⟩ := h; rfl
  | login data => obtain ⟨message, rfl⟩ := h; rfl
  | refresh token => obtain ⟨message, rfl⟩ := h; rfl
  | forgotPassword email => obtain ⟨message, rfl⟩ := h; rfl
  | resetPassword token newPassword =>
    obtain rfl | ⟨u, rfl⟩ := h
    · rfl
    · rfl
  | _ => exact hpre.elim

/-- **What an unresolved request ends with**: an exception of the middleware or of the limiter,
or the one of its operation, and never a `TenantResolutionError`. -/
theorem unresolved_serve (h : Unresolved env w req) :
    ∃ e w', serve env w req = (.error e, w') ∧ e.isTenantResolution = false := by
  have hrouted : req.endpoint.routed := by
    have hpre := h.preAuth
    cases hep : req.endpoint <;> rw [hep] at hpre <;> trivial
  obtain ⟨w₁, hrc, -, -⟩ := (@Quiet.requestContext env req.headers req.client).run w []
  have htenant := h.tenant
  unfold ctxTenant at htenant
  cases hr : (runM env (requestContext env req.headers req.client) (w, [])).1 with
  | error e =>
    rw [hr] at hrc
    have hhandle : runM env (handle env req) (w, []) = (.error e, (w₁, [])) := runM_bind_error hrc
    refine ⟨e, w₁, ?_, Unaware.requestContext.run hrc⟩
    show ((runM env (handle env req) (w, [])).1, (runM env (handle env req) (w, [])).2.1) = _
    rw [hhandle]
  | ok rc =>
    rw [hr] at hrc htenant
    replace htenant : rc.tenantId = none := htenant
    obtain ⟨w₂, hlimit, -, -⟩ := (@Quiet.limitRate env rc req.endpoint).run w₁ []
    cases hl : (runM env (limitRate env rc req.endpoint) (w₁, [])).1 with
    | error e =>
      rw [hl] at hlimit
      have hhandle : runM env (handle env req) (w, []) = (.error e, (w₂, [])) := by
        rw [handle, runM_bind_ok hrc, route_routed hrouted, runM_bind_error hlimit]
      refine ⟨e, w₂, ?_, Unaware.limitRate.run hlimit⟩
      show ((runM env (handle env req) (w, [])).1, (runM env (handle env req) (w, [])).2.1) = _
      rw [hhandle]
    | ok u =>
      rw [hl] at hlimit
      have hoperation : operation env rc req ⟨env.clock w₂.ticks⟩ =
          (perform (.enter none) >>= fun _ => handler env rc ⟨env.clock w₂.ticks⟩ req none) := by
        have hguards : guards env rc req = .ret none := by
          have hpre := h.preAuth
          obtain ⟨headers, client, endpoint, valid⟩ := req
          cases endpoint <;> first | rfl | exact hpre.elim
        unfold operation
        rw [hguards, h.valid]
        rfl
      obtain ⟨e, s', hrun, he⟩ :=
        @unresolved_handler env rc ⟨env.clock w₂.ticks⟩ w₂.tick req h.preAuth htenant
      have henter : runM env (perform (.enter none)) (w₂.tick, [requestTx env rc]) =
          (.ok (), (w₂.tick, [requestTx env rc])) := rfl
      rw [serve_context hrouted hrc hlimit, hoperation, runM_bind_ok henter, hrun]
      exact ⟨e, _, rfl, unresolvedError_other h.preAuth he⟩

/-- A request before login without a tenant never fails with `TenantResolutionError`. -/
theorem tenant_required_never (h : Unresolved env w req) : ¬ TenantRequired env w req := by
  rintro ⟨⟨e, herror, htenant⟩, -⟩
  obtain ⟨e', w', hserve, hother⟩ := unresolved_serve h
  rw [hserve] at herror
  cases herror
  rw [hother] at htenant
  cases htenant

namespace Directories

/-- A login without any header. -/
def bareLogin : Request where
  headers := []
  client := none
  endpoint := .login { email := "admin", password := "secret" }

theorem bareLogin_unresolved : Unresolved platform (World.fresh 0 tenants) bareLogin where
  preAuth := trivial
  valid := rfl
  tenant := by decide +kernel

end Directories

theorem bareLogin_not_required :
    ¬ TenantRequired Directories.platform (World.fresh 0 Directories.tenants)
      Directories.bareLogin :=
  tenant_required_never Directories.bareLogin_unresolved

/-- A login without a tenant ends in a `RuntimeError`. -/
theorem bareLogin_unhandled :
    Unresolved Directories.platform (World.fresh 0 Directories.tenants) Directories.bareLogin ∧
      (serve Directories.platform (World.fresh 0 Directories.tenants) Directories.bareLogin).1 =
        .error (.unhandled (.runtimeError
          "No tenant in context — tenant-scoped operation attempted unscoped")) ∧
      ¬ TenantRequired Directories.platform (World.fresh 0 Directories.tenants)
        Directories.bareLogin := by
  have hserve : (serve Directories.platform (World.fresh 0 Directories.tenants)
      Directories.bareLogin).1 = .error (.unhandled (.runtimeError
        "No tenant in context — tenant-scoped operation attempted unscoped")) := by decide +kernel
  refine ⟨Directories.bareLogin_unresolved, hserve, ?_⟩
  rintro ⟨⟨e, herror, htenant⟩, -⟩
  rw [hserve] at herror
  cases herror
  cases htenant

end LmsBackend
