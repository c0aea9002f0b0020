import LmsBackend.Effects.Identity

/-!
# One request, in terms of its path operation function

- `ctxTenant env w req`: the tenant that the middleware puts into the context.
- `Admitted`: the request passes the middleware, the limiter, the guards and the
  validation; what is known of the context and the caller then.
- `serve_together`: two requests that are not told apart before their path operation
  functions. `serve_cases`: a request that is not admitted changes nothing; for an admitted
  one, the answer and the new world come from its path operation function.
-/

namespace LmsBackend

open Mvcc

variable {env : Env} {w : World} {req : Request} {rc : RequestContext}

/-- The tenant in the context that `RequestContextMiddleware` sets for the request. -/
def ctxTenant (env : Env) (w : World) (req : Request) : Option Uuid :=
  match (runM env (requestContext env req.headers req.client) (w, [])).1 with
  | .ok rc => rc.tenantId
  | .error _ => none

/-- The transaction of a request in a context of the middleware. -/
def requestTx (env : Env) (rc : RequestContext) : Tx := boundTx env rc.tenantId false

/-- How a request's unit of work ends. -/
def finish (env : Env) {α : Type} : Except Err α × State → Except Err α × World
  | (.ok a, s) => (.ok a, (runM env commitSession s).2.1)
  | (.error e, s) => (.error e, (exec env (.db .rollback) s).2.1)

/-- The routes that use the database session of the request. -/
def Endpoint.routed : Endpoint → Prop
  | .health => False
  | .ready => False
  | _ => True

theorem Quiet.limitRate {e : Endpoint} : Quiet env (limitRate env rc e) := by
  unfold LmsBackend.limitRate
  split
  · exact rateLimit
  · exact pure _

/-- The context of the middleware has no privileges yet. -/
theorem requestContext_ok {s : State} (h : runM env (requestContext env req.headers req.client)
    (w, []) = (.ok rc, s)) : rc.isSuperadmin = false := by
  obtain ⟨id, s₁, -, h⟩ := Prog.run_bind_eq_ok h
  obtain ⟨who, s₂, -, h⟩ := Prog.run_bind_eq_ok h
  cases h
  rfl

theorem route_routed (h : req.endpoint.routed) : route env rc req =
    (limitRate env rc req.endpoint >>= fun _ => getDb env (some rc) (operation env rc req)) := by
  obtain ⟨headers, client, e, valid⟩ := req
  cases e <;> first | rfl | exact h.elim

/-- A request behind the middleware and the limiter. -/
theorem serve_context (h : req.endpoint.routed) {w₁ w₂ : World}
    (hrc : runM env (requestContext env req.headers req.client) (w, []) = (.ok rc, (w₁, [])))
    (hlimit : runM env (limitRate env rc req.endpoint) (w₁, []) = (.ok (), (w₂, []))) :
    serve env w req =
      finish env (runM env (operation env rc req ⟨env.clock w₂.ticks⟩)
        (w₂.tick, [requestTx env rc])) := by
  have hhandle : runM env (handle env req) (w, []) =
      runM env (getDb env (some rc) (operation env rc req)) (w₂, []) := by
    rw [handle, runM_bind_ok hrc, route_routed h, runM_bind_ok hlimit]
  have hbypass : ((some rc).map (·.isSuperadmin)).getD false = false := requestContext_ok hrc
  show ((runM env (handle env req) (w, [])).1, (runM env (handle env req) (w, [])).2.1) = _
  have htenant : (some rc).bind (·.tenantId) = rc.tenantId := rfl
  rw [hhandle, runM_getDb, hbypass, htenant, requestTx]
  rcases runM env (operation env rc req ⟨env.clock w₂.ticks⟩)
    (w₂.tick, [boundTx env rc.tenantId false]) with ⟨r, s⟩
  cases r with
  | ok a => rfl
  | error e => rfl

/-- The request passes everything before its path operation function. -/
structure Admitted (env : Env) (w : World) (req : Request) (rc : RequestContext)
    (caller : Option Caller) (s : Session) (w' : World) : Prop where
  tenant : ctxTenant env w req = rc.tenantId
  plain : rc.isSuperadmin = false
  valid : req.valid = true
  still : w.Still w'
  older : w.Older w'
  started : ∃ i, w.ticks ≤ i ∧ i < w'.ticks ∧ s.startedAt = env.clock i
  guards : ∃ i w₁, w.ticks ≤ i ∧ i ≤ w'.ticks ∧ w.Still w₁ ∧
    guardsIn env rc req w₁ (seen w (requestTx env rc)) (env.clock i) = .ok caller

/-- Two requests that the middleware, the limiter, the guards and the validation do not tell
apart end before their path operation function, and in the same way, or both reach it. -/
theorem serve_together {req' : Request} (h : req.endpoint.routed)
    (hendpoint : req'.endpoint = req.endpoint) (hvalid : req'.valid = req.valid)
    (hcontext : requestContext env req'.headers req'.client =
      requestContext env req.headers req.client)
    (hguards : ∀ rc, guards env rc req' = guards env rc req) :
    (∃ e w', serve env w req = (.error e, w') ∧ serve env w req' = (.error e, w') ∧
      w.Still w') ∨
    ∃ rc caller s w', Admitted env w req rc caller s w' ∧
      serve env w req =
        finish env (runM env (handler env rc s req caller) (w', [requestTx env rc])) ∧
      serve env w req' =
        finish env (runM env (handler env rc s req' caller) (w', [requestTx env rc])) := by
  have h' : req'.endpoint.routed := hendpoint ▸ h
  obtain ⟨w₁, hrc, hstill₁, holder₁⟩ :=
    (@Quiet.requestContext env req.headers req.client).run w []
  have hstop : ∀ {r : Request} {e : Err} {w' : World},
      runM env (handle env r) (w, []) = (.error e, (w', [])) → serve env w r = (.error e, w') := by
    intro r e w' hhandle
    show ((runM env (handle env r) (w, [])).1, (runM env (handle env r) (w, [])).2.1) = _
    rw [hhandle]
  cases hr : (runM env (requestContext env req.headers req.client) (w, [])).1 with
  | error e =>
    rw [hr] at hrc
    exact .inl ⟨e, w₁, hstop (runM_bind_error hrc), hstop (runM_bind_error (hcontext ▸ hrc)), hstill₁⟩
  | ok rc =>
    rw [hr] at hrc
    have hrc' : runM env (requestContext env req'.headers req'.client) (w, []) =
        (.ok rc, (w₁, [])) := hcontext ▸ hrc
    have htenant : ctxTenant env w req = rc.tenantId := by rw [ctxTenant, hr]
    obtain ⟨w₂, hlimit, hstill₂, holder₂⟩ :=
      (@Quiet.limitRate env rc req.endpoint).run w₁ []
    cases hl : (runM env (limitRate env rc req.endpoint) (w₁, [])).1 with
    | error e =>
      rw [hl] at hlimit
      refine .inl ⟨e, w₂, hstop ?_, hstop ?_, hstill₁.trans hstill₂⟩
      · rw [handle, runM_bind_ok hrc, route_routed h, runM_bind_error hlimit]
      · rw [handle, runM_bind_ok hrc', route_routed h', hendpoint, runM_bind_error hlimit]
    | ok u =>
      rw [hl] at hlimit
      have htick : w₂.Still w₂.tick := ⟨rfl, rfl, fun _ => rfl⟩
      have holdtick : w₂.Older w₂.tick := ⟨Nat.le_succ _, le_refl _⟩
      have hstill := (hstill₁.trans hstill₂).trans htick
      obtain ⟨i, w₃, hrun, hstill₃, holder₃, hi, hi'⟩ :=
        @runM_guards env rc req w₂.tick (requestTx env rc) []
      rw [hstill.seen] at hrun
      rw [serve_context h hrc hlimit, serve_context h' hrc' (hendpoint.symm ▸ hlimit)]
      unfold operation
      rw [hguards, hvalid]
      cases hg : guardsIn env rc req w₂.tick (seen w (requestTx env rc)) (env.clock i) with
      | error e =>
        rw [hg] at hrun
        refine .inl ⟨e, w₃, ?_, ?_, hstill.trans hstill₃⟩
        · rw [runM_bind_error hrun]
          rfl
        · rw [runM_bind_error hrun]
          rfl
      | ok caller =>
        rw [hg] at hrun
        rw [runM_bind_ok hrun, runM_bind_ok hrun]
        by_cases hok : req.valid = true
        · refine .inr ⟨rc, caller, ⟨env.clock w₂.ticks⟩, w₃, ⟨htenant, requestContext_ok hrc, hok,
            hstill.trans hstill₃, ((holder₁.trans holder₂).trans holdtick).trans holder₃,
            ⟨w₂.ticks, (holder₁.trans holder₂).ticks, holder₃.ticks, rfl⟩,
            ⟨i, w₂.tick, ((holder₁.trans holder₂).trans holdtick).ticks.trans hi, hi', hstill, hg⟩⟩,
            ?_, ?_⟩
          · rw [if_pos hok]
            rfl
          · rw [if_pos hok]
            rfl
        · refine .inl ⟨.requestValidation, w₃, ?_, ?_, hstill.trans hstill₃⟩
          · rw [if_neg hok]
            rfl
          · rw [if_neg hok]
            rfl

/-- A request either fails before its path operation function is called, and then
changes nothing, or is admitted. -/
theorem serve_cases (h : req.endpoint.routed) :
    (∃ e w', serve env w req = (.error e, w') ∧ w.Still w') ∨
    ∃ rc caller s w', Admitted env w req rc caller s w' ∧
      serve env w req =
        finish env (runM env (handler env rc s req caller) (w', [requestTx env rc])) := by
  obtain ⟨e, w', heq, -, hstill⟩ | ⟨rc, caller, s, w', hadm, heq, -⟩ :=
    @serve_together env w req req h rfl rfl rfl fun _ => rfl
  · exact .inl ⟨e, w', heq, hstill⟩
  · exact .inr ⟨rc, caller, s, w', hadm, heq⟩

/-- A request that got an answer was admitted. -/
theorem serve_ok {body : Body} {w'' : World} (h : req.endpoint.routed)
    (hs : serve env w req = (.ok body, w'')) :
    ∃ rc caller s w' s', Admitted env w req rc caller s w' ∧
      runM env (handler env rc s req caller) (w', [requestTx env rc]) = (.ok body, s') ∧
      w'' = (runM env commitSession s').2.1 := by
  obtain ⟨e, w', heq, -⟩ | ⟨rc, caller, s, w', hadm, heq⟩ := @serve_cases env w req h
  · rw [hs] at heq
    cases congrArg Prod.fst heq
  · refine ⟨rc, caller, s, w', (runM env (handler env rc s req caller)
      (w', [requestTx env rc])).2, hadm, ?_⟩
    rw [heq] at hs
    rcases hrun : runM env (handler env rc s req caller) (w', [requestTx env rc]) with ⟨r, s'⟩
    rw [hrun] at hs
    cases r with
    | ok b =>
      cases congrArg Prod.fst hs
      exact ⟨rfl, (congrArg Prod.snd hs).symm⟩
    | error e => cases congrArg Prod.fst hs

end LmsBackend
