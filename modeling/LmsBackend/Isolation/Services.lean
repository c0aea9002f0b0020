import LmsBackend.Isolation.Sessions

/-!
# Footprints of the services

`Covers F _ p` for every function of the modules, each with the tables that the
function writes as hypotheses about the footprint. `Footprint.InContext` collects
what all of them need of the footprint of a request.
-/

namespace LmsBackend

open Mvcc

/-- The footprint admits the audit session of the tenant of the context. -/
structure Footprint.InContext (F : Footprint) (rc : RequestContext) : Prop where
  binds : ∀ tid, rc.tenantId = some tid → F.Binds (some tid) false
  audit : F.writes .auditLogs

namespace Covers

variable {α : Type} {F : Footprint} {Q : α → Prop} {env : Env} {rc : RequestContext}

/-! ## Licensing -/

theorem joinedCodes {tenantId : Uuid} {p : Module → TenantModule → Bool}
    (h : F.platform tenantId) : Covers F (fun _ => True) (joinedCodes tenantId p) := by
  refine seq (sqlJoin fun m tm hp => ?_).weaken fun _ => pure trivial
  rw [Bool.and_eq_true, Bool.and_eq_true, decide_eq_true_iff, decide_eq_true_iff] at hp
  refine ⟨fun _ h => (by cases h), fun tid htid => ?_⟩
  cases htid
  rw [hp.1.2]
  exact h

theorem computeEnabled {tenantId : Uuid} (h : F.platform tenantId) :
    Covers F (fun codes => ∀ c ∈ coreModuleCodes, c.value ∈ codes) (computeEnabled tenantId) :=
  seq now fun _ => seq (joinedCodes h) fun _ => seq (joinedCodes h) fun _ =>
    pure fun _ hc => List.mem_append_right _ (List.mem_map_of_mem hc)

theorem enabledCodes {tenantId : Uuid} (h : F.platform tenantId) :
    Covers F (fun _ => True) (enabledCodes env tenantId) := by
  have hget : Covers F (fun _ => True) (cachedCodes env tenantId) := by
    unfold cachedCodes
    split
    · exact perform (.redisGet _) trivial
    · exact pure trivial
  have hset : ∀ codes, (∀ c ∈ coreModuleCodes, c.value ∈ codes) →
      Covers F (fun _ => True) (cacheCodes env tenantId codes) := by
    intro codes hcore
    unfold cacheCodes
    split
    · exact perform (.redisSet _ _ _) fun c hc => mem_sortedSet.mpr (hcore c hc)
    · exact pure trivial
  refine seq hget fun cached => ?_
  split
  · exact pure trivial
  · exact (computeEnabled h).bind fun codes hcore => seq (hset codes hcore) fun _ => pure trivial

theorem tenantHasModule {tenantId : Uuid} {code : ModuleCode} (h : F.platform tenantId) :
    Covers F (fun _ => True) (tenantHasModule env tenantId code) := by
  unfold LmsBackend.tenantHasModule
  split
  · exact pure trivial
  · exact seq (enabledCodes h) fun _ => pure trivial

theorem requireModule {code : ModuleCode} (h : ∀ tid, rc.tenantId = some tid → F.platform tid) :
    Covers F (fun _ => ∃ tid, rc.tenantId = some tid) (requireModule env rc code) := by
  unfold LmsBackend.requireModule
  split
  · exact raise _
  · rename_i tid htid
    refine seq (tenantHasModule (h tid htid)) fun b => ?_
    split
    · exact pure ⟨tid, htid⟩
    · exact raise _

/-! ## Events -/

theorem publish {tid : Uuid} {userId : Option Uuid} {kind : EventKind}
    (hb : F.Binds (some tid) false) (ha : F.writes .auditLogs) :
    Covers F (fun _ => True) (publish env ⟨some tid, userId, kind⟩) := by
  have haudit : Covers F (fun _ => True) (auditDomainEvent env ⟨some tid, userId, kind⟩) :=
    tenantSession hb fun s => seq uuid4 fun _ => add ha
  exact seq haudit.attempt.weaken fun _ => pure trivial

/-! ## Users and roles -/

theorem reads_users (r : User) : platformOwner .users r = none := rfl

theorem loadRoles {roles : List Role} : Covers F (fun _ => True) (loadRoles roles) :=
  seq (sqlJoin fun _ _ _ => ⟨reads_of_none (fun _ => rfl) _, reads_of_none (fun _ => rfl) _⟩).weaken fun _ => pure trivial

/-- The users keep their own columns when their roles are loaded. -/
theorem loadUsers {users : List User} :
    Covers F (fun us => ∀ u ∈ us, u.user ∈ users) (loadUsers users) := by
  refine seq (sqlJoin fun _ _ _ => ⟨reads_of_none (fun _ => rfl) _, reads_of_none (fun _ => rfl) _⟩).weaken fun assigned => ?_
  refine seq loadRoles fun loaded => pure fun u hu => ?_
  obtain ⟨u', hu', rfl⟩ := List.mem_map.mp hu
  exact hu'

/-- A user that is found is in scope, satisfies the condition and is seen. -/
theorem findUser {p : User → Bool} :
    Covers F (fun r => ∀ u, r = some u →
      (inScope rc .users u.user = true ∧ p u.user = true) ∧ F.sees .users u.user)
      (findUser rc p) := by
  refine bind (repoSelect reads_users) fun rows hrows => ?_
  refine bind loadUsers fun us hus => ?_
  refine scalarOneOrNone.mono fun r hr u hu => ?_
  exact hrows u.user (hus u (hr u hu))

theorem getUser {id : Uuid} :
    Covers F (fun r => ∀ u, r = some u →
      (inScope rc .users u.user = true ∧ u.user.id = id) ∧ F.sees .users u.user)
      (getUser rc id) := by
  refine findUser.mono fun r hr u hu => ?_
  obtain ⟨⟨hscope, hid⟩, hsees⟩ := hr u hu
  exact ⟨⟨hscope, of_decide_eq_true hid⟩, hsees⟩

theorem getUserOr404 {id : Uuid} : Covers F (fun _ => True) (getUserOr404 rc id) := by
  refine seq getUser.weaken fun r => ?_
  cases r with
  | some u => exact pure trivial
  | none => exact raise _

theorem getByEmail {email : String} : Covers F (fun _ => True) (getByEmail env rc email) :=
  findUser.weaken

theorem listUserRows {params : PageParams} :
    Covers F (fun _ => True) (listUserRows env rc params) :=
  seq (count fun r _ => reads_of_none reads_users r) fun _ =>
  seq (repoSelect reads_users).weaken fun _ =>
  seq arrange.weaken fun _ => seq applySort fun _ => seq sendPage fun _ =>
    seq loadUsers.weaken fun _ => pure trivial

theorem reads_roles (r : Role) : platformOwner .roles r = none := rfl

theorem getRoleByCode {code : String} : Covers F (fun _ => True) (getRoleByCode rc code) :=
  seq (repoSelect reads_roles).weaken fun _ => seq loadRoles fun _ => scalarOneOrNone.weaken

theorem getRolesByCodes {codes : List String} :
    Covers F (fun _ => True) (getRolesByCodes rc codes) :=
  seq (repoSelect reads_roles).weaken fun _ => loadRoles

/-- The caller that `get_current_user` returns: an active user that is seen under
the footprint, and the claims of the token it carried. -/
theorem getCurrentUser {headers : Headers} :
    Covers F (fun c : Caller => (∃ credentials,
        (headers.find "authorization").bind env.bearerCredentials = some credentials ∧
        signed env credentials = some c.payload ∧ c.payload.type = "access") ∧
      inScope rc .users c.user.user = true ∧ c.user.user.id = c.payload.sub ∧
      c.user.user.isActive = true ∧ F.sees .users c.user.user)
      (getCurrentUser env rc headers) := by
  unfold LmsBackend.getCurrentUser
  split
  · exact raise _
  · rename_i credentials hcred
    refine bind decodeToken fun r hr => ?_
    cases r with
    | error m => exact raise _
    | ok payload =>
      obtain ⟨hsigned, htype⟩ := hr payload rfl
      refine bind getUser fun u hu => ?_
      cases u with
      | none => exact raise _
      | some u =>
        obtain ⟨⟨hscope, hid⟩, hsees⟩ := hu u rfl
        show Covers F _ (if u.user.isActive = true then _ else _)
        split
        · rename_i hactive
          exact pure ⟨⟨credentials, hcred, hsigned, htype⟩, hscope, hid, hactive, hsees⟩
        · exact raise _

/-- The guard lets superusers and the holders of all the codes pass. -/
theorem requirePermission {codes : List String} {user : LoadedUser} :
    Covers F (fun _ => user.user.isSuperuser = true ∨ ∀ c ∈ codes, c ∈ user.permissionCodes)
      (requirePermission codes user) := by
  unfold LmsBackend.requirePermission
  split
  · rename_i hsuper
    exact pure (.inl hsuper)
  · dsimp only
    split
    · exact raise _
    · rename_i hmissing
      refine pure (.inr fun c hc => ?_)
      by_contra hnot
      refine hmissing fun hnil => ?_
      have hmem : c ∈ sortedSet (codes.filter (· ∉ user.permissionCodes)) :=
        mem_sortedSet.mpr (List.mem_filter.mpr ⟨hc, decide_eq_true hnot⟩)
      rw [hnil] at hmem
      cases hmem

end Covers

end LmsBackend
