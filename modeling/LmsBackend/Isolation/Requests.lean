import LmsBackend.Isolation.Handlers

/-!
# Footprints of whole requests

- `Covers.middleware`, `Covers.guards`, `Covers.operation`: the parts of a request.
- `serve_frame`, `serve_resets`: a request changes only the tables that its route may
  write, and the entries of the reset tokens that it may change.
- `serve_coreCached`: the sets of modules it caches have the core modules.
-/

namespace LmsBackend

open Mvcc

namespace Footprint

/-- The footprint of a route: any settings, but only its tables and its reset tokens. -/
def ofRoute (e : Endpoint) : Footprint :=
  { platformWide (· ∈ e.writes) (fun _ => True) with resets := e.resets }

theorem binds_ofRoute {e : Endpoint} {t : Option Uuid} {b : Bool} : (ofRoute e).Binds t b :=
  ⟨fun _ _ => trivial, fun _ _ _ _ => trivial⟩

end Footprint

namespace Covers

variable {F : Footprint} {env : Env} {rc : RequestContext}

/-! ## Before the session -/

theorem requestContext {headers : Headers} {client : Option String} (hb : F.Binds none true)
    (h : ∀ u, F.platform u) : Covers F (fun _ => True) (requestContext env headers client) := by
  have hid : Covers F (fun _ => True) (requestId headers) := by
    unfold requestId
    split
    · exact pure trivial
    · exact seq uuid4 fun _ => pure trivial
  have hheader : Covers F (fun _ => True) (resolveFromHeader env headers) := by
    unfold resolveFromHeader
    split
    · exact seq (resolveTenantId hb h) fun _ => pure trivial
    · exact pure trivial
  have hidentity : Covers F (fun _ => True) (resolveIdentity env headers) := by
    unfold resolveIdentity
    split
    · refine seq decodeToken.weaken fun r => ?_
      cases r with
      | ok p => exact pure trivial
      | error m => exact hheader
    · exact hheader
  exact seq hid fun _ => seq hidentity fun _ => pure trivial

theorem limitRate {e : Endpoint} : Covers F (fun _ => True) (limitRate env rc e) := by
  have hwindow : ∀ path identity n seconds,
      Covers F (fun _ => True) (startWindow (.rate path identity) n seconds) := by
    intro path identity n seconds
    unfold startWindow
    split
    · exact perform (.redisExpire _ _) trivial
    · exact pure trivial
  unfold LmsBackend.limitRate
  split
  · unfold rateLimit
    split
    · refine seq (perform (.redisIncr _) trivial) fun n => seq (hwindow _ _ n _) fun _ => ?_
      split
      · exact seq (perform (.redisTtl _) trivial) fun _ => raise _
      · exact pure trivial
    · exact pure trivial
  · exact pure trivial

/-! ## Guards -/

theorem moduleGuard {e : Endpoint} (h : ∀ tid, rc.tenantId = some tid → F.platform tid) :
    Covers F (fun _ => True) (moduleGuard env rc e) := by
  unfold LmsBackend.moduleGuard
  split
  · exact (requireModule h).weaken
  · exact pure trivial

/-- The caller of a route that asks for one is an account that the footprint sees. -/
theorem userGuard {req : Request} :
    Covers F (fun c => ∀ caller, c = some caller → F.sees .users caller.user.user)
      (userGuard env rc req) := by
  unfold LmsBackend.userGuard
  split
  · refine bind getCurrentUser fun c hc => seq requirePermission.weaken fun _ => ?_
    exact pure fun caller heq => by cases heq; exact hc.2.2.2.2
  · exact pure fun caller heq => (by cases heq)

theorem guards {req : Request} (h : ∀ tid, rc.tenantId = some tid → F.platform tid) :
    Covers F (fun c => ∀ caller, c = some caller → F.sees .users caller.user.user)
      (guards env rc req) :=
  seq (moduleGuard h) fun _ => userGuard

/-! ## The whole operation -/

/-- What a request's operation needs of a footprint, besides the route's own needs. -/
structure Hosts (F : Footprint) (rc : RequestContext) (req : Request) : Prop where
  serves : Serves F rc req.endpoint
  enriched : ∀ caller : Caller, F.sees .users caller.user.user →
    req.endpoint.isTenantAdmin = false → Serves F (rc.enrich caller) req.endpoint
  admin : req.endpoint.isTenantAdmin = true → F.Binds none true ∧ ∀ u, F.platform u

theorem handler {req : Request} {s : Session} (h : Hosts F rc req) (caller : Option Caller)
    (hc : ∀ c, caller = some c → F.sees .users c.user.user) :
    Covers F (fun _ => True) (handler env rc s req caller) := by
  cases caller with
  | none => exact publicHandler h.serves
  | some c =>
    show Covers F _ (if req.endpoint.isTenantAdmin = true then _ else _)
    split
    · rename_i hadmin
      exact tenantAdminHandler (h.admin hadmin).1 (h.admin hadmin).2 h.serves.writes
    · rename_i hadmin
      exact userHandler (h.enriched c (hc c rfl) (Bool.eq_false_iff.mpr hadmin))

theorem operation {req : Request} {s : Session} (h : Hosts F rc req)
    (hcallers : ∀ c, F.callers c) : Covers F (fun _ => True) (operation env rc req s) := by
  refine bind (guards h.serves.platform) fun caller hc => ?_
  split
  · exact seq (perform (.enter caller) (hcallers caller)) fun _ => handler h caller hc
  · exact raise _

/-- A request under a footprint that restricts nothing but the tables it writes and the
reset tokens it changes. -/
theorem handle {req : Request} :
    Covers (Footprint.ofRoute req.endpoint) (fun _ => True) (handle env req) := by
  have hserves : ∀ rc, Serves (Footprint.ofRoute req.endpoint) rc req.endpoint :=
    fun rc => ⟨fun _ _ => Footprint.binds_ofRoute, fun _ _ => trivial, fun _ ht => ht,
      fun _ ht => ht⟩
  refine seq (requestContext Footprint.binds_ofRoute fun _ => trivial) fun rc => ?_
  unfold route
  split
  · exact pure trivial
  · exact seq beginSession fun _ => seq sqlRollback fun _ => pure trivial
  · refine seq limitRate fun _ => getDb Footprint.binds_ofRoute fun s => ?_
    exact operation ⟨hserves rc, fun c _ _ => hserves (rc.enrich c), fun _ =>
      ⟨Footprint.binds_ofRoute, fun _ => trivial⟩⟩ fun _ => trivial

end Covers

/-- **Frame of a request**: a table that the route may not write is the same. -/
theorem serve_frame (env : Env) (w : World) (req : Request) {t : Table}
    (ht : t ∉ req.endpoint.writes) : (serve env w req).2.db t = w.db t :=
  Covers.handle.run_frame w ht

/-- A request changes only the reset tokens that its route may change. -/
theorem serve_resets (env : Env) (w : World) (req : Request) {token : String}
    (ht : ¬ req.endpoint.resets token) :
    Footprint.SameReset token w (serve env w req).2 :=
  Covers.handle.run_resets w ht

/-- A request keeps the core modules in the cached sets. -/
theorem serve_coreCached (env : Env) {w : World} (req : Request) (hw : w.CoreCached) :
    (serve env w req).2.CoreCached :=
  Covers.handle.run_coreCached hw

end LmsBackend
