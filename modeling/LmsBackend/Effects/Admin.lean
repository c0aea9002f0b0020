import LmsBackend.Effects.Auth

/-!
# What user and tenant administration does

For `create_user`, `update_user` and `create_tenant`: what a run that returns has
found in the rows it sees, and the writes it leaves; and that a run that raises
leaves nothing.

- `leaving`, `joining`: the `user_roles` rows that a changed collection deletes
  and inserts.
- `createTenant_ok`: a new tenant row and a new account, flagged as superuser.
-/

namespace LmsBackend

open Mvcc

variable {env : Env} {rc : RequestContext} {s : Session} {w : World} {tx : Tx} {txs : List Tx}

/-! ## Role assignment -/

/-- The roles that a changed collection drops. -/
def leaving (user : LoadedUser) (roles : List LoadedRole) : List LoadedRole :=
  user.roles.filter fun r => roles.all fun r' => r'.role.id ≠ r.role.id

/-- The roles that a changed collection adds. -/
def joining (user : LoadedUser) (roles : List LoadedRole) : List LoadedRole :=
  roles.filter fun r => user.roles.all fun r' => r'.role.id ≠ r.role.id

/-- The deletions of `user_roles` rows. -/
def unassign (userId : Uuid) (roles : List LoadedRole) : List (Mvcc.Write Row (List Uuid)) :=
  roles.map fun r => .delete .userRoles [userId, r.role.id]

/-- Changing the roles of a user deletes the rows that go and inserts those that come. -/
theorem assignRoles_ok {user : LoadedUser} {roles : List LoadedRole} {s' : State}
    (h : runM env (assignRoles user roles) (w, tx :: txs) = (.ok (), s')) :
    s' = (w, ⟨tx.guc, tx.writes ++ unassign user.user.id (leaving user roles) ++
      (roleRows user.user.id (joining user roles)).map inserting, tx.pending⟩ :: txs) := by
  have hgone : ∀ (gone : List LoadedRole) (tx : Tx) (s' : State),
      runM env (Prog.forEach gone fun r => deleteRow .userRoles [user.user.id, r.role.id])
        (w, tx :: txs) = (.ok (), s') →
      s' = (w, ⟨tx.guc, tx.writes ++ unassign user.user.id gone, tx.pending⟩ :: txs) := by
    intro gone
    induction gone with
    | nil =>
      intro tx s' h
      cases h
      simp [unassign]
    | cons r gone ih =>
      intro tx s' h
      obtain ⟨_, s₁, hdelete, h⟩ := Prog.run_bind_eq_ok h
      have hstep : s₁ = (w, tx.push (.delete .userRoles [user.user.id, r.role.id]) :: txs) := by
        have hsql : runM env (sql (.delete .userRoles [user.user.id, r.role.id])) (w, tx :: txs) =
            (.ok (execTx schema w.db tx (.delete .userRoles [user.user.id, r.role.id])).1,
              (w, (execTx schema w.db tx (.delete .userRoles [user.user.id, r.role.id])).2 ::
                txs)) := rfl
        replace hdelete := (runM_bind_ok hsql).symm.trans hdelete
        simp only [execTx] at hdelete
        cases htarget : target schema w.db tx .userRoles [user.user.id, r.role.id] fun _ => true with
        | none => rw [htarget] at hdelete; cases congrArg Prod.fst hdelete
        | some old => rw [htarget] at hdelete; cases hdelete; rfl
      subst hstep
      rw [ih _ s' h]
      simp [unassign]
  have hnew : ∀ (new : List LoadedRole) (tx : Tx) (s' : State),
      runM env (Prog.forEach new fun r =>
        insertRow ⟨.userRoles, (⟨user.user.id, r.role.id⟩ : UserRole)⟩) (w, tx :: txs) =
          (.ok (), s') →
      s' = (w, ⟨tx.guc, tx.writes ++ (roleRows user.user.id new).map inserting, tx.pending⟩ ::
        txs) := by
    intro new
    induction new with
    | nil =>
      intro tx s' h
      cases h
      simp [roleRows]
    | cons r new ih =>
      intro tx s' h
      obtain ⟨_, s₁, hinsert, h⟩ := Prog.run_bind_eq_ok h
      have hstep : s₁ =
          (w, tx.push (inserting ⟨.userRoles, (⟨user.user.id, r.role.id⟩ : UserRole)⟩) :: txs) := by
        replace hinsert := (runM_insertRow w tx txs _).symm.trans hinsert
        split at hinsert
        · cases congrArg Prod.fst hinsert
        · cases hinsert; rfl
      subst hstep
      rw [ih _ s' h]
      simp [roleRows]
  obtain ⟨_, s₁, h₁, h₂⟩ := Prog.run_bind_eq_ok h
  obtain rfl := hgone _ tx s₁ h₁
  exact hnew _ _ s' h₂

/-! ## Creating a user -/

theorem rolesByCodesIn_congr {db db' : Database Row} {codes : List String}
    (hr : db .roles = db' .roles) (hrp : db .rolePermissions = db' .rolePermissions)
    (hp : db .permissions = db' .permissions) :
    rolesByCodesIn db rc codes = rolesByCodesIn db' rc codes := by
  simp only [rolesByCodesIn, loadRolesIn, joined, hr, hrp, hp]

/-- A write to a table leaves what the transaction sees of the others. -/
theorem seen_push {x : Mvcc.Write Row (List Uuid)} {t : Table} (h : x.table ≠ t) :
    seen w (tx.push x) t = seen w tx t := by
  simp only [seen, visible, view_push, Tx.push_guc, Write.apply_other h]

/-- The roles a new user asks for. -/
def askedRoles (db : Database Row) (rc : RequestContext) (codes : List String) :
    List LoadedRole :=
  if codes = [] then [] else rolesByCodesIn db rc codes

theorem askedRoles_congr {db db' : Database Row} {codes : List String}
    (hr : db .roles = db' .roles) (hrp : db .rolePermissions = db' .rolePermissions)
    (hp : db .permissions = db' .permissions) :
    askedRoles db rc codes = askedRoles db' rc codes := by
  rw [askedRoles, askedRoles, rolesByCodesIn_congr hr hrp hp]

theorem rolesOf_ok {codes : List String} {roles : List LoadedRole} {s' : State}
    (h : runM env (rolesOf rc codes) (w, tx :: txs) = (.ok roles, s')) :
    roles = askedRoles (seen w tx) rc codes ∧ s' = (w, tx :: txs) := by
  unfold rolesOf at h
  unfold askedRoles
  by_cases hcodes : codes = []
  · rw [if_pos hcodes] at h ⊢
    cases h
    exact ⟨rfl, rfl⟩
  · rw [if_neg hcodes] at h ⊢
    cases h
    exact ⟨rfl, rfl⟩

/-- A user creation that returns: a new account of the context's tenant, with the
roles of the context that have the codes it asks for. -/
theorem createUser_ok {data : AdminUserCreate} {out : LoadedUser} {s' : State}
    (hp : tx.pending = [])
    (h : runM env (createUser env rc s data) (w, tx :: txs) = (.ok out, s')) :
    ∃ tid w', rc.tenantId = some tid ∧ out.user.id = w.nextUuid ∧ out.user.tenantId = tid ∧
      out.user.isSuperuser = false ∧ out.roles = askedRoles (seen w tx) rc data.roleCodes ∧
      w.Logged w' ∧ w.nextUuid < w'.nextUuid ∧
      s' = (w', ⟨tx.guc, tx.writes ++ inserting ⟨.users, out.user⟩ ::
        (roleRows out.user.id out.roles).map inserting, []⟩ :: txs) ∧
      out.user.deletedAt = none := by
  obtain ⟨tid, s₁, htid, h⟩ := Prog.run_bind_eq_ok h
  obtain ⟨htenant, rfl⟩ := requireTenantId_ok htid
  obtain ⟨found, s₂, hfind, h⟩ := Prog.run_bind_eq_ok h
  obtain ⟨-, rfl⟩ := findUser_ok hfind
  cases found with
  | some _ => cases congrArg Prod.fst h
  | none =>
    obtain ⟨hashed, s₄, hhash, h⟩ := Prog.run_bind_eq_ok h
    obtain ⟨-, rfl⟩ := runM_hashPassword_ok hhash
    obtain ⟨id, s₅, hid, h⟩ := Prog.run_bind_eq_ok h
    cases (runM_uuid4 _ _).symm.trans hid
    obtain ⟨_, s₆, hadd, h⟩ := Prog.run_bind_eq_ok h
    obtain rfl := runM_repoAdd_ok hp hadd
    obtain ⟨roles, s₈, hroles, h⟩ := Prog.run_bind_eq_ok h
    obtain ⟨rfl, rfl⟩ := rolesOf_ok hroles
    obtain ⟨_, s₉, hassign, h⟩ := Prog.run_bind_eq_ok h
    obtain rfl := assignRoles_ok hassign
    obtain ⟨_, s₁₀, hpublish, h⟩ := Prog.run_bind_eq_ok h
    obtain ⟨w', rfl, hlog, holder⟩ := publish_ok hpublish
    cases h
    refine ⟨tid, w', htenant, rfl, rfl, rfl, ?_, hlog, holder.uuid, ?_, rfl⟩
    · refine askedRoles_congr ?_ ?_ ?_
      · exact seen_push (by simp [inserting, Write.table])
      · exact seen_push (by simp [inserting, Write.table])
      · exact seen_push (by simp [inserting, Write.table])
    · simp [leaving, joining, unassign, Tx.push, hp]

/-! ## Updating a user -/

/-- The roles an updated user has afterwards. -/
def updatedRoles (db : Database Row) (rc : RequestContext) (user : LoadedUser) :
    Option (List String) → List LoadedRole
  | some codes => rolesByCodesIn db rc codes
  | none => user.roles

/-- A user update that returns: the one account in scope with the identifier, its
columns and its roles changed as the payload says. -/
theorem updateUser_ok {userId : Uuid} {data : AdminUserUpdate} {out : LoadedUser} {s' : State}
    (h : runM env (updateUser env rc s userId data) (w, tx :: txs) = (.ok out, s')) :
    ∃ u w' ws, usersIn (seen w tx) rc (fun v => v.id = userId) = [u] ∧
      (ws = [] ∨ ∃ old, target schema w.db tx .users [userId] (fun _ => true) = some old ∧
        ws = [.update .users [userId] (touch s.startedAt .users (data.apply old))]) ∧
      w.Logged w' ∧
      s' = (w', ⟨tx.guc, tx.writes ++ ws ++
        unassign userId (leaving u (updatedRoles (seen w tx) rc u data.roleCodes)) ++
        (roleRows userId (joining u (updatedRoles (seen w tx) rc u data.roleCodes))).map inserting,
        tx.pending⟩ :: txs) := by
  obtain ⟨u, s₁, hfind, h⟩ := Prog.run_bind_eq_ok h
  obtain ⟨hone, rfl⟩ := getUserOr404_ok hfind
  have hid : u.user.id = userId :=
    of_decide_eq_true (mem_usersIn (hone ▸ List.mem_singleton_self u)).2.2
  obtain ⟨roles, s₂, hroles, h⟩ := Prog.run_bind_eq_ok h
  have hroles' : roles = updatedRoles (seen w tx) rc u data.roleCodes ∧ s₂ = (w, tx :: txs) := by
    cases hcodes : data.roleCodes with
    | none => rw [hcodes] at hroles; cases hroles; exact ⟨rfl, rfl⟩
    | some codes => rw [hcodes] at hroles; cases hroles; exact ⟨rfl, rfl⟩
  obtain ⟨rfl, rfl⟩ := hroles'
  cases hnull : data.nullColumn with
  | some c => rw [hnull] at h; cases congrArg Prod.fst h
  | none =>
    rw [hnull] at h
    obtain ⟨_, s₃, hsave, h⟩ := Prog.run_bind_eq_ok h
    have hws : ∃ ws, (ws = [] ∨ ∃ old,
        target schema w.db tx .users [userId] (fun _ => true) = some old ∧
        ws = [.update .users [userId] (touch s.startedAt .users (data.apply old))]) ∧
        s₃ = (w, ⟨tx.guc, tx.writes ++ ws, tx.pending⟩ :: txs) := by
      unfold saveUser at hsave
      split at hsave
      · cases hsave
        exact ⟨[], .inl rfl, by simp⟩
      · obtain ⟨old, htarget, rfl⟩ := runM_updateRow_ok hsave
        rw [hid] at htarget
        refine ⟨_, .inr ⟨old, htarget, rfl⟩, ?_⟩
        rw [hid]
        rfl
    obtain ⟨ws, hws, rfl⟩ := hws
    obtain ⟨_, s₄, hassign, h⟩ := Prog.run_bind_eq_ok h
    obtain rfl := assignRoles_ok hassign
    obtain ⟨tid, s₅, htid, h⟩ := Prog.run_bind_eq_ok h
    obtain ⟨-, rfl⟩ := requireTenantId_ok htid
    obtain ⟨_, s₆, hpublish, h⟩ := Prog.run_bind_eq_ok h
    obtain ⟨w', rfl, hlog, -⟩ := publish_ok hpublish
    cases h
    exact ⟨u, w', ws, hone, hws, hlog, by rw [hid]⟩

/-! ## Runs that raise -/

namespace Works

theorem assignRoles {user : LoadedUser} {roles : List LoadedRole} {W : List Table}
    (hW : .userRoles ∈ W) : Works env W (assignRoles user roles) := by
  refine bind (forEach fun r => ?_) fun _ => forEach fun r => insertRow hW
  refine (sqlDelete hW).bind fun n => ?_
  match n with
  | .ok 0 => exact raise _
  | .ok (_ + 1) => exact pure _
  | .error _ => exact raise _

theorem getRolesByCodes {codes : List String} {W : List Table} :
    Works env W (getRolesByCodes rc codes) :=
  of_quiet (Quiet.query.bind fun _ => Quiet.join.bind fun _ => Quiet.pure _)

theorem createUser {data : AdminUserCreate} :
    Works env [.users, .userRoles] (createUser env rc s data) := by
  refine (of_quiet Quiet.requireTenantId).bind fun tid => ?_
  refine (of_quiet Quiet.findUser).bind fun u => ?_
  cases u with
  | some _ => exact raise _
  | none =>
    refine bind (of_quiet (Quiet.draw.bind fun _ => Quiet.pure _)) fun hashed => ?_
    refine (of_quiet Quiet.uuid4).bind fun id => ?_
    refine bind ((add (by simp)).bind fun _ => flush) fun _ => ?_
    refine bind ?_ fun roles => (assignRoles (by simp)).bind fun _ => publish.bind fun _ => pure _
    unfold rolesOf
    split
    · exact pure _
    · exact getRolesByCodes

theorem updateUser {userId : Uuid} {data : AdminUserUpdate} :
    Works env [.users, .userRoles] (updateUser env rc s userId data) := by
  refine bind (of_quiet (Quiet.findUser.bind fun u => ?_)) fun user => ?_
  · cases u with
    | none => exact Quiet.raise _
    | some u => exact Quiet.pure _
  · refine bind ?_ fun roles => ?_
    · unfold newRoles
      split
      · exact getRolesByCodes
      · exact pure _
    · split
      · exact raise _
      · refine bind ?_ fun _ => (assignRoles (by simp)).bind fun _ =>
          (of_quiet Quiet.requireTenantId).bind fun _ => publish.bind fun _ => pure _
        unfold saveUser
        split
        · exact pure _
        · exact updateRow (by simp)

theorem setLicense {tenantId : Uuid} {code : ModuleCode} {enabled : Bool} {W : List Table}
    (hW : .tenantModules ∈ W) : Works env W (setLicense env s tenantId code enabled) := by
  refine (of_quiet Quiet.query).bind fun _ => (of_quiet Quiet.scalarOneOrNone).bind fun m => ?_
  cases m with
  | none => exact raise _
  | some m =>
    refine (of_quiet Quiet.query).bind fun _ => (of_quiet Quiet.scalarOneOrNone).bind fun tm => ?_
    refine bind ?_ fun _ => flush.bind fun _ => ?_
    · refine (of_quiet Quiet.now).bind fun _ => ?_
      cases tm with
      | none => exact (of_quiet Quiet.uuid4).bind fun _ => add hW
      | some tm => exact updateRow hW
    · unfold invalidate
      split
      · exact perform trivial
      · exact pure _

theorem provision {data : TenantCreate} :
    Works env [.tenants, .tenantModules, .users] (provision env s data) := by
  refine bind ?_ fun t => bind (forEach fun _ => setLicense (by simp)) fun _ => ?_
  · exact (of_quiet Quiet.uuid4).bind fun _ => (add (by simp)).bind fun _ => flush.bind fun _ =>
      pure _
  · refine bind (of_quiet (Quiet.draw.bind fun _ => Quiet.pure _)) fun hashed => ?_
    exact (of_quiet Quiet.uuid4).bind fun _ => (add (by simp)).bind fun _ => flush.bind fun _ =>
      pure _

end Works

/-! ## Creating a tenant -/

/-- What a tenant creation leaves: the tenant's row, and the row of its first account. -/
structure Provisioned (w : World) (t : Tenant) (u : User) (w' : World) : Prop where
  tenants : w'.db .tenants = w.db .tenants ++ [t]
  users : w'.db .users = w.db .users ++ [u]
  tenant_fresh : t.id = w.nextUuid
  user_fresh : w.nextUuid < u.id
  user_id : u.id < w'.nextUuid
  tenant : u.tenantId = t.id
  superuser : u.isSuperuser = true

theorem createTenantRow_ok {name slug : String} {t : Tenant} {s' : State} (hp : tx.pending = [])
    (h : runM env (createTenantRow name slug) (w, tx :: txs) = (.ok t, s')) :
    t.id = w.nextUuid ∧ s' = ({ w with nextUuid := w.nextUuid + 1 },
      tx.push (inserting ⟨.tenants, t⟩) :: txs) := by
  obtain ⟨id, s₁, hid, h⟩ := Prog.run_bind_eq_ok h
  cases (runM_uuid4 _ _).symm.trans hid
  obtain ⟨_, s₂, hadd, h⟩ := Prog.run_bind_eq_ok h
  cases (runM_add _ _ _ _ _).symm.trans hadd
  obtain ⟨_, s₃, hflush, h⟩ := Prog.run_bind_eq_ok h
  cases h
  rw [runM_flush_ok hflush]
  exact ⟨rfl, by simp [Tx.push, hp]⟩

theorem provision_ok {data : TenantCreate} {t : Tenant} {s' : State} (hp : tx.pending = [])
    (hw : tx.writes = []) (h : runM env (provision env s data) (w, tx :: txs) = (.ok t, s')) :
    ∃ u w' tx', s' = (w', tx' :: txs) ∧ tx'.pending = [] ∧
      Provisioned w t u { w' with db := view schema w'.db tx' } ∧ u.deletedAt = none := by
  obtain ⟨t', s₁, hrow, h⟩ := Prog.run_bind_eq_ok h
  obtain ⟨hfresh, rfl⟩ := createTenantRow_ok hp hrow
  obtain ⟨_, s₂, hlicense, h⟩ := Prog.run_bind_eq_ok h
  have hworks : Works env [.tenantModules] (Prog.forEach (data.modules ++ [ModuleCode.auth]).dedup
    fun code => setLicense env s t'.id code true) := Works.forEach fun _ => Works.setLicense (by simp)
  obtain ⟨w₂, tx₂, hs₂, hlog, -, ⟨ws, hws, hWs⟩, hpend⟩ := hworks.run
    { w with nextUuid := w.nextUuid + 1 } (tx.push (inserting ⟨.tenants, t'⟩)) txs
    (fun x hx => by simp [hp] at hx)
  have holder := @runM_older env _ (Prog.forEach (data.modules ++ [ModuleCode.auth]).dedup
    fun code => setLicense env s t'.id code true)
    ({ w with nextUuid := w.nextUuid + 1 }, tx.push (inserting ⟨.tenants, t'⟩) :: txs)
  rw [runM] at hs₂ holder
  rw [hlicense] at hs₂ holder
  subst hs₂
  obtain ⟨hashed, s₃, hhash, h⟩ := Prog.run_bind_eq_ok h
  obtain ⟨-, rfl⟩ := runM_hashPassword_ok hhash
  obtain ⟨id, s₄, hid, h⟩ := Prog.run_bind_eq_ok h
  cases (runM_uuid4 _ _).symm.trans hid
  obtain ⟨_, s₅, hadd, h⟩ := Prog.run_bind_eq_ok h
  cases (runM_add _ _ _ _ _).symm.trans hadd
  obtain ⟨_, s₆, hflush, h⟩ := Prog.run_bind_eq_ok h
  obtain rfl := runM_flush_ok hflush
  cases h
  -- the licensing writes in between are to `tenant_modules` only
  have hother : ∀ {t : Table} {xs : List (AnyRow Row)} {db : Database Row}, t ≠ .tenantModules →
      (∀ x ∈ xs, x.1 ∈ [Table.tenantModules]) →
      (xs.map inserting).foldl (Write.apply schema) db t = db t := by
    intro t xs db ht hxs
    refine foldl_apply_other fun x hx heq => ht ?_
    obtain ⟨y, hy, rfl⟩ := List.mem_map.mp hx
    exact heq.symm.trans (List.mem_singleton.mp (hxs y hy))
  have hview : ∀ (u : User) (tb : Table), tb ≠ .tenantModules → tb ≠ .auditLogs →
      view schema w₂.db ⟨tx₂.guc, tx₂.writes ++
          (tx₂.pending ++ [(⟨.users, u⟩ : AnyRow Row)]).map inserting, []⟩ tb =
        (inserting ⟨.users, u⟩).apply schema
          ((inserting ⟨.tenants, t⟩).apply schema w.db) tb := by
    intro u tb ht ha
    rw [view, List.map_append, ← List.append_assoc, List.foldl_append, List.foldl_append,
      List.map_singleton, List.foldl_cons, List.foldl_nil]
    refine Write.apply_congr _ ?_
    rw [hother ht hpend, hws, List.foldl_append, Tx.push_writes, hw]
    rw [foldl_apply_other fun x hx heq => ht (heq.symm.trans (List.mem_singleton.mp (hWs x hx)))]
    exact foldl_apply_congr (hlog tb ha)
  have huuid : w.nextUuid + 1 ≤ w₂.nextUuid := holder.uuid
  exact ⟨_, _, _, rfl, rfl, ⟨hview _ .tenants (by simp) (by simp),
    hview _ .users (by simp) (by simp), hfresh, Nat.lt_of_succ_le huuid, Nat.lt_succ_self _, rfl,
    rfl⟩, rfl⟩

/-- A tenant creation that returns committed the tenant and its first account. -/
theorem createTenant_ok {data : TenantCreate} {t : Tenant} {s' : State}
    (h : runM env (createTenant env data) (w, txs) = (.ok t, s')) :
    ∃ u w', s' = (w', txs) ∧ Provisioned w t u w' ∧ u.deletedAt = none := by
  unfold createTenant at h
  rw [runM_tenantSession] at h
  split at h
  · rename_i t' s₁ hbody
    obtain ⟨found, s₂, hslug, hbody⟩ := Prog.run_bind_eq_ok hbody
    have hs₂ : s₂ = (w.tick, boundTx env none true :: txs) := by
      have hrun : runM env (getTenantBySlug data.slug) (w.tick, boundTx env none true :: txs) =
          (scalar ((seen w.tick (boundTx env none true) .tenants).filter fun r =>
            r.slug = data.slug && r.deletedAt.isNone), (w.tick, boundTx env none true :: txs)) :=
        runM_scalarOneOrNone _ _
      exact (congrArg Prod.snd (hrun.symm.trans hslug)).symm
    subst hs₂
    cases found with
    | some _ => cases congrArg Prod.fst hbody
    | none =>
      obtain ⟨u, w', tx', rfl, hp, hprov, hlive⟩ := provision_ok rfl rfl hbody
      rw [runM_commitSession, flushed_nil hp, committed_nil hp] at h
      cases h
      exact ⟨u, _, rfl, ⟨hprov.tenants, hprov.users, hprov.tenant_fresh, hprov.user_fresh,
        hprov.user_id, hprov.tenant, hprov.superuser⟩, hlive⟩
  · cases congrArg Prod.fst h

/-- A tenant creation that raises committed nothing. -/
theorem createTenant_error {data : TenantCreate} {e : Err} {s' : State}
    (h : runM env (createTenant env data) (w, txs) = (.error e, s')) :
    ∃ w', s' = (w', txs) ∧ w.Logged w' := by
  have hquiet : Quiet env (getTenantBySlug data.slug) :=
    Quiet.query.bind fun _ => Quiet.scalarOneOrNone
  unfold createTenant at h
  rw [runM_tenantSession] at h
  split at h
  · rename_i t s₁ hbody
    obtain ⟨found, s₂, hslug, hbody⟩ := Prog.run_bind_eq_ok hbody
    cases found with
    | some _ => cases congrArg Prod.fst hbody
    | none =>
      obtain ⟨w₂, hrun, -, -⟩ := hquiet.run w.tick (boundTx env none true :: txs)
      rw [runM] at hrun
      rw [hslug] at hrun
      cases congrArg Prod.snd hrun
      obtain ⟨u, w', tx', rfl, hp, -⟩ := provision_ok rfl rfl hbody
      rw [runM_commitSession, flushed_nil hp] at h
      cases congrArg Prod.fst h
  · rename_i e' s₁ hbody
    have hworks : Works env [.tenants, .tenantModules, .users]
        (createTenantIn env ⟨env.clock w.ticks⟩ data) := by
      refine (Works.of_quiet hquiet).bind fun found => ?_
      cases found with
      | some _ => exact Works.raise _
      | none => exact Works.provision
    obtain ⟨w', tx', hs', hlog, -⟩ :=
      hworks.run w.tick (boundTx env none true) txs (fun x hx => (by cases hx))
    replace hs' : s₁ = (w', tx' :: txs) := (congrArg Prod.snd hbody).symm.trans hs'
    subst hs'
    cases h
    exact ⟨w', rfl, hlog⟩

end LmsBackend
