import LmsBackend.Scripts.Upserts

/-!
# The roles and the users of the seed

`seed_tenant` and `_seed_user` assign a collection to an object that was loaded or is new.
The links in the database are those of the collection afterwards, and a collection that has
not changed is not written.

- `Entry`, `Present`: a role before and after the flush, and what it is to have.
- `Granting`: the invariant of the loop over the roles.
- `seedRoles_upserts`, `seedUser_upserts`.
-/

namespace LmsBackend

namespace Seeding

open Mvcc Seed

variable {env : Env} {g : Guc} {D V V' : Database Row} {ps : List (AnyRow Row)} {st : State}
  {s : Session}

/-! ## Roles -/

/-- The rows of a query on tables that are open, loaded with what belongs to them. -/
theorem seen_at (h : At g D V ps st) : ∃ w tx, st = (w, [tx]) ∧
    ∀ t, Open g t → seen w tx t = V t := by
  obtain ⟨w, tx, rfl, hdb, hguc, -, hview⟩ := h
  exact ⟨w, tx, rfl, fun t ht => ht.seen hdb hguc hview⟩

/-- A loaded role has the permissions that are granted to it. -/
theorem mem_loadedPermissions {W : Database Row} (hV : Constrained V)
    (hgranted : W .rolePermissions = V .rolePermissions)
    (hpermissions : W .permissions = V .permissions) {roles : List Role} {lr : LoadedRole}
    (hlr : lr ∈ loadRolesIn W roles) (x : Uuid) :
    x ∈ lr.permissions.map (·.id) ↔
      rolePermissionLinks.pair lr.role.id x ∈ V .rolePermissions := by
  obtain ⟨r, hr, rfl⟩ := List.mem_map.mp hlr
  simp only [List.mem_map, List.mem_filter, decide_eq_true_iff]
  constructor
  · rintro ⟨p, ⟨⟨rp, p'⟩, ⟨hjoined, hrole⟩, rfl⟩, rfl⟩
    obtain ⟨hrp, -, hcond⟩ := mem_joined.mp hjoined
    rw [Bool.and_eq_true, decide_eq_true_iff] at hcond
    have hlink : rp = rolePermissionLinks.pair r.id p'.id := by
      rw [← hcond.2, ← hrole]
      rfl
    rw [← hlink, ← hgranted]
    exact hrp
  · intro hlink
    obtain ⟨-, p, hp, hpid⟩ := hV.granted _ hlink
    rw [← hpermissions] at hp
    rw [← hgranted] at hlink
    refine ⟨p, ⟨⟨_, p⟩, ⟨mem_joined.mpr ⟨hlink, hp, ?_⟩, rfl⟩, rfl⟩, hpid⟩
    rw [Bool.and_eq_true, List.any_eq_true, decide_eq_true_iff]
    exact ⟨⟨r, hr, decide_eq_true rfl⟩, hpid.symm⟩

/-- The permissions of `ROLE_MATRIX` among all there are. -/
theorem mem_granted (hV : Constrained V) {rc : RoleCode} {x : Uuid} :
    x ∈ ((roleMatrix rc).filterMap fun c => (V .permissions).find? fun p => p.code = c).map (·.id) ↔
      Wanted V rc x := by
  simp only [List.mem_map, List.mem_filterMap]
  constructor
  · rintro ⟨p, ⟨c, hc, hfind⟩, rfl⟩
    have hcode : p.code = c := by simpa using List.find?_some hfind
    exact ⟨p, List.mem_of_find?_eq_some hfind, rfl, hcode ▸ hc⟩
  · rintro ⟨p, hp, rfl, hcode⟩
    refine ⟨p, ⟨p.code, hcode, ?_⟩, rfl⟩
    cases hfind : (V .permissions).find? fun p' => p'.code = p.code with
    | none => exact absurd (decide_eq_true rfl) (List.find?_eq_none.mp hfind p hp)
    | some p' =>
      have hsame : p'.code = p.code := by simpa using List.find?_some hfind
      rw [hV.permission_eq (List.mem_of_find?_eq_some hfind) hp hsame]

/-- The entry of a role: the role is stored and was loaded with its permissions, or it is new
and waits. The entry says what the role is to have. -/
structure Entry (V : Database Row) (ps : List (AnyRow Row)) (tid : Uuid) (rc : RoleCode)
    (entry : LoadedRole × List Permission) : Prop where
  tenant : entry.1.role.tenantId = tid
  code : entry.1.role.code = rc.value
  wanted : ∀ x, x ∈ entry.2.map (·.id) ↔ Wanted V rc x
  found : (entry.1.role ∈ V .roles ∧ ∀ x, x ∈ entry.1.permissions.map (·.id) ↔
      rolePermissionLinks.pair entry.1.role.id x ∈ V .rolePermissions) ∨
    (⟨.roles, entry.1.role⟩ ∈ ps ∧ entry.1.permissions = [] ∧ entry.1.role ∉ V .roles)

theorem Entry.waits {tid : Uuid} {rc : RoleCode} {entry : LoadedRole × List Permission}
    {new : List (AnyRow Row)} (h : Entry V ps tid rc entry) : Entry V (ps ++ new) tid rc entry :=
  ⟨h.tenant, h.code, h.wanted, h.found.imp_right fun hnew =>
    ⟨List.mem_append_left _ hnew.1, hnew.2⟩⟩

/-- A role is looked up; it is new where the tenant has none of the code. -/
theorem seedRole_at {tid : Uuid} {rc : RoleCode} (hopen : Open g .roles) (hV : Constrained V)
    (h : At g D V ps st) :
    Ends env (seedRole (V .permissions) tid rc) st
      (fun entry s' => ∃ new, At g D V (ps ++ new) s' ∧ Entry V (ps ++ new) tid rc entry ∧
        (∀ y ∈ new, y.1 = .roles) ∧
        ((∃ r ∈ V .roles, r.tenantId = tid ∧ r.code = rc.value) → new = []))
      fun _ _ => False := by
  have hkeys : ∀ a b : Role, (decide (a.tenantId = tid) && decide (a.code = rc.value)) = true →
      (decide (b.tenantId = tid) && decide (b.code = rc.value)) = true → ¬ Apart .roles a b := by
    intro a b ha hb hab
    rw [Bool.and_eq_true, decide_eq_true_iff, decide_eq_true_iff] at ha hb
    exact (apart_roles.mp hab).2 (ha.1.trans hb.1.symm) (ha.2.trans hb.2.symm)
  refine .bind_ok (h.query hopen _) ?_
  obtain ⟨w, tx, rfl, hseen⟩ := seen_at h
  refine .bind_ok (runM_loadRoles _ w tx []) ?_
  obtain ⟨hrows, hnone⟩ | ⟨role, hrole, hmatch, hrows⟩ := hV.found (t := .roles) hkeys
  · rw [hrows]
    obtain ⟨s₁, hid, h₁⟩ := @At.uuid4 env _ _ _ _ _ h
    let role : Role := { id := w.nextUuid, tenantId := tid, code := rc.value, name := roleName rc }
    obtain ⟨s₂, hadd, h₂⟩ := @At.add env _ _ _ _ .roles _ h₁ role
    refine .bind_ok rfl (.bind_ok hid (.bind_ok hadd
      (.ret ⟨[⟨.roles, role⟩], h₂, ?_, by simp, ?_⟩)))
    · have hfresh : role ∉ V .roles := fun hmem => by
        have hno := hnone role hmem
        simp [role] at hno
      exact ⟨rfl, rfl, fun x => mem_granted hV,
        .inr ⟨List.mem_append_right _ (List.mem_singleton_self _), rfl, hfresh⟩⟩
    · rintro ⟨r, hr, htenant, hcode⟩
      have hno := hnone r hr
      rw [htenant, hcode] at hno
      simp at hno
  · rw [hrows]
    rw [Bool.and_eq_true, decide_eq_true_iff, decide_eq_true_iff] at hmatch
    refine .bind_ok rfl (.ret ⟨[], ?_, ?_, by simp, fun _ => rfl⟩)
    · rw [List.append_nil]
      exact h
    · refine ⟨hmatch.1, hmatch.2, fun x => mem_granted hV, .inl ⟨hrole, fun x => ?_⟩⟩
      exact mem_loadedPermissions hV (hseen _ (.inr (by decide))) (hseen _ (.inr (by decide)))
        (List.mem_map_of_mem (List.mem_singleton_self role)) x

/-- A role that is stored, as it was loaded, and what it is to have. -/
structure Present (V : Database Row) (tid : Uuid) (rc : RoleCode)
    (entry : LoadedRole × List Permission) : Prop where
  stored : entry.1.role ∈ V .roles
  tenant : entry.1.role.tenantId = tid
  code : entry.1.role.code = rc.value
  wanted : ∀ x, x ∈ entry.2.map (·.id) ↔ Wanted V rc x
  linked : ∀ x, x ∈ entry.1.permissions.map (·.id) ↔
    rolePermissionLinks.pair entry.1.role.id x ∈ V .rolePermissions

/-- Once the new roles are flushed, every role is stored. -/
theorem Entry.present {tid : Uuid} {rc : RoleCode} {entry : LoadedRole × List Permission}
    (h : Entry V ps tid rc entry) (hps : ∀ y ∈ ps, y.1 = .roles) (hV : Constrained V)
    (hwrote : Constrained (wrote V (ps.map inserting))) :
    Present (wrote V (ps.map inserting)) tid rc entry := by
  have hother : ∀ t, t ≠ .roles → wrote V (ps.map inserting) t = V t := fun t ht =>
    wrote_inserting_other fun y hy heq => ht (heq.symm.trans (hps y hy))
  have hwanted : ∀ x, x ∈ entry.2.map (·.id) ↔ Wanted (wrote V (ps.map inserting)) rc x := by
    intro x
    rw [h.wanted, Wanted, Wanted, hother .permissions (by decide)]
  obtain ⟨hrole, hlinks⟩ | ⟨hnew, hnil, hfresh⟩ := h.found
  · refine ⟨mem_wrote_inserting.mpr (.inl hrole), h.tenant, h.code, hwanted, fun x => ?_⟩
    rw [hother .rolePermissions (by decide), hlinks]
  · have hstored : entry.1.role ∈ wrote V (ps.map inserting) .roles :=
      mem_wrote_inserting.mpr (.inr ⟨_, hnew, rfl⟩)
    refine ⟨hstored, h.tenant, h.code, hwanted, fun x => ?_⟩
    rw [hnil, hother .rolePermissions (by decide), List.map_nil]
    refine iff_of_false List.not_mem_nil fun hlink => ?_
    -- what is granted is granted to a role that was there before
    obtain ⟨⟨r, hr, hid⟩, -⟩ := hV.granted _ hlink
    have hsame := hwrote.key_eq (t := .roles) (mem_wrote_inserting.mpr (.inl hr)) hstored
      (congrArg (fun x => [x]) hid)
    exact hfresh (hsame ▸ hr)

/-- A changed collection of permissions is written as its links. -/
theorem grantPermissions_eq (entry : LoadedRole × List Permission) :
    grantPermissions entry = relink rolePermissionLinks entry.1.role.id
      (entry.1.permissions.map (·.id)) (entry.2.map (·.id)) := by
  unfold grantPermissions relink
  simp only [List.filter_map, List.all_map, Prog.forEach_map]
  rfl

section Grants

variable {t : Tenant} {roles : RoleCode → LoadedRole × List Permission}

/-- While the roles `todo` are still to be granted what they are to have, the others have it. -/
structure Granting (V : Database Row) (t : Tenant) (roles : RoleCode → LoadedRole × List Permission)
    (todo : List RoleCode) (V' : Database Row) : Prop where
  constrained : Constrained V'
  keeps : Keeps V V'
  nodup : todo.Nodup
  present : ∀ rc ∈ todo, Present V' t.id rc (roles rc)
  granted : ∀ rc, rc ∉ todo → Granted V' t.id rc
  kept : (∀ rc, Granted V t.id rc) → V' = V
  tables : ∀ t', t' ≠ .rolePermissions → V' t' = V t'

/-- One role is granted what it is to have. -/
theorem Granting.grant {rc : RoleCode} {todo : List RoleCode} {V'' : Database Row}
    (h : Granting V t roles (rc :: todo) V') (hV'' : Constrained V'')
    (hlinks : Relinked rolePermissionLinks (roles rc).1.role.id V' V''
      (· ∈ (roles rc).2.map (·.id)))
    (hsame : (∀ x, rolePermissionLinks.pair (roles rc).1.role.id x ∈ V' .rolePermissions ↔
      x ∈ (roles rc).2.map (·.id)) → V'' = V') : Granting V t roles todo V'' := by
  have hrc := h.present rc List.mem_cons_self
  have hwanted : ∀ rc' x, Wanted V'' rc' x ↔ Wanted V' rc' x := fun rc' x => by
    rw [Wanted, Wanted, hlinks.tables .permissions (by decide)]
  have hlinks' : Relinked rolePermissionLinks (roles rc).1.role.id V' V'' (Wanted V' rc) :=
    ⟨fun x => (hlinks.own x).trans (hrc.wanted x), hlinks.others, hlinks.tables⟩
  have hroles : V'' .roles = V' .roles := hlinks.tables .roles (by decide)
  -- the links of a role are those of no other code
  have hapart : ∀ rc', ∀ role ∈ V' .roles, role.code = rc'.value → rc' ≠ rc →
      role.id ≠ (roles rc).1.role.id := by
    intro rc' role hrole hcode hne hid
    have heq := h.constrained.key_eq (t := .roles) hrole hrc.stored (congrArg (fun x => [x]) hid)
    exact hne (roleValue_injective (hcode.symm.trans ((congrArg (·.code) heq).trans hrc.code)))
  refine ⟨hV'', h.keeps.trans (keeps_granted h.constrained hrc.stored hrc.code hlinks'),
    h.nodup.of_cons, fun rc' hrc' => ?_, fun rc' hrc' => ?_, fun hall => ?_, fun t' ht' => ?_⟩
  · have hother := h.present rc' (List.mem_cons_of_mem rc hrc')
    have hne : rc' ≠ rc := fun heq => (List.nodup_cons.mp h.nodup).1 (heq ▸ hrc')
    refine ⟨hroles.symm ▸ hother.stored, hother.tenant, hother.code, fun x => ?_, fun x => ?_⟩
    · rw [hother.wanted, hwanted]
    · rw [hother.linked, hlinks.others _ _ (hapart rc' _ hother.stored hother.code hne)]
  · by_cases heq : rc' = rc
    · subst heq
      refine ⟨_, hroles.symm ▸ hrc.stored, hrc.tenant, hrc.code, fun x => ?_⟩
      rw [hwanted]
      exact hlinks'.own x
    · obtain ⟨role, hrole, htenant, hcode, hgranted⟩ := h.granted rc' fun hmem =>
        (List.mem_cons.mp hmem).elim heq hrc'
      refine ⟨role, hroles.symm ▸ hrole, htenant, hcode, fun x => ?_⟩
      rw [hwanted, ← hgranted]
      exact hlinks.others _ _ (hapart rc' role hrole hcode heq)
  · -- the role had what it is to have
    obtain rfl := h.kept hall
    obtain ⟨role, hrole, htenant, hcode, hgranted⟩ := hall rc
    obtain rfl := h.constrained.role_eq hrole hrc.stored (htenant.trans hrc.tenant.symm)
      (hcode.trans hrc.code.symm)
    exact hsame fun x => (hgranted x).trans (hrc.wanted x).symm
  · rw [hlinks.tables t' ht', h.tables t' ht']

/-- The collections of the roles are written, one after the other. -/
theorem grants_at (hV : Constrained V) (h : At g D V [] st)
    (hpresent : ∀ rc, Present V t.id rc (roles rc)) :
    Ends env (Prog.forEach RoleCode.all fun rc => grantPermissions (roles rc)) st
      (fun _ s' => ∃ V', At g D V' [] s' ∧ Granting V t roles [] V')
      fun _ _ => ¬ ∀ rc, Granted V t.id rc := by
  refine Prog.Ends.forEach (I := fun todo s' => ∃ V', At g D V' [] s' ∧
    Granting V t roles todo V') (fun rc todo st => ?_) ⟨V, h, hV, .refl V, by decide,
      fun rc _ => hpresent rc, fun rc hrc => ?_, fun _ => rfl, fun _ _ => rfl⟩
  · rintro ⟨V', h', hgranting⟩
    have hrc := hgranting.present rc List.mem_cons_self
    rw [grantPermissions_eq]
    refine (relink_at h' hrc.linked).mono (fun _ s' => ?_) fun _ _ herror hall => herror fun x => ?_
    · rintro ⟨V'', h'', hkeeps, hlinks, hsame⟩
      exact ⟨V'', h'', hgranting.grant (hkeeps hgranting.constrained) hlinks hsame⟩
    · obtain rfl := hgranting.kept hall
      obtain ⟨role, hrole, htenant, hcode, hgranted⟩ := hall rc
      obtain rfl := hV.role_eq hrole hrc.stored (htenant.trans hrc.tenant.symm)
        (hcode.trans hrc.code.symm)
      exact (hgranted x).trans (hrc.wanted x).symm
  · exact absurd (by cases rc <;> decide) hrc

end Grants

/-- The roles of a tenant that a function holds in hand. -/
def RolesOf (t : Tenant) (roles : RoleCode → LoadedRole) (V : Database Row) : Prop :=
  ∀ rc, (roles rc).role ∈ V .roles ∧ (roles rc).role.tenantId = t.id ∧
    (roles rc).role.code = rc.value

/-- The roles of a tenant are looked up; those that are missing wait. -/
theorem roleEntries_at {tid : Uuid} (hopen : Open g .roles) (hV : Constrained V)
    (h : At g D V [] st) :
    Ends env (roleEntries (V .permissions) tid) st
      (fun roles s' => ∃ ps, At g D V ps s' ∧ (∀ rc, Entry V ps tid rc (roles rc)) ∧
        (∀ y ∈ ps, y.1 = .roles) ∧ ((∀ rc, Granted V tid rc) → ps = []))
      fun _ _ => False := by
  refine .bind ((seedRole_at hopen hV h).mono (fun superAdmin s₁ => ?_) fun _ _ => False.elim)
  rintro ⟨new₁, h₁, hentry₁, hroles₁, hnone₁⟩
  refine .bind ((seedRole_at hopen hV h₁).mono (fun tenantAdmin s₂ => ?_) fun _ _ => False.elim)
  rintro ⟨new₂, h₂, hentry₂, hroles₂, hnone₂⟩
  refine .bind ((seedRole_at hopen hV h₂).mono (fun instructor s₃ => ?_) fun _ _ => False.elim)
  rintro ⟨new₃, h₃, hentry₃, hroles₃, hnone₃⟩
  refine .bind ((seedRole_at hopen hV h₃).mono (fun student s₄ => ?_) fun _ _ => False.elim)
  rintro ⟨new₄, h₄, hentry₄, hroles₄, hnone₄⟩
  refine .ret ⟨_, h₄, fun rc => ?_, ?_, fun hall => ?_⟩
  · cases rc with
    | superAdmin => exact hentry₁.waits.waits.waits
    | tenantAdmin => exact hentry₂.waits.waits
    | instructor => exact hentry₃.waits
    | student => exact hentry₄
  · simp only [List.nil_append, List.mem_append]
    rintro y (((hy | hy) | hy) | hy)
    · exact hroles₁ y hy
    · exact hroles₂ y hy
    · exact hroles₃ y hy
    · exact hroles₄ y hy
  · have hrole : ∀ rc : RoleCode, ∃ r ∈ V .roles, r.tenantId = tid ∧ r.code = rc.value := by
      intro rc
      obtain ⟨role, hrole, htenant, hcode, -⟩ := hall rc
      exact ⟨role, hrole, htenant, hcode⟩
    rw [hnone₁ (hrole _), hnone₂ (hrole _), hnone₃ (hrole _), hnone₄ (hrole _)]
    rfl

/-- `seed_tenant` gives the tenant its roles, and each role its permissions. -/
theorem seedRoles_upserts {t : Tenant} (hopen : Open g .roles) (h : At g D V [] st)
    (hV : Constrained V) (ht : t ∈ V .tenants) :
    Upserts env g D Keeps (seedRoles (V .permissions) t.id)
      (fun V => ∀ rc, Reached V (.role t.slug rc)) (RolesOf t) st := by
  refine upserts_of_ends h ?_
  have hreached : ∀ V', Constrained V' → t ∈ V' .tenants →
      ((∀ rc, Reached V' (.role t.slug rc)) ↔ ∀ rc, Granted V' t.id rc) :=
    fun V' hV' ht' => forall_congr' fun rc =>
      ofTenant_iff (P := fun tid => Granted V' tid rc) hV' ht' rfl
  refine .bind ((roleEntries_at hopen hV h).mono (fun roles s₁ => ?_) fun _ _ => False.elim)
  rintro ⟨ps, h₁, hentries, hwaiting, hnone⟩
  refine .bind ((flush_upserts h₁ hV (fun y hy => by simp [hwaiting y hy])
    fun _ _ hne hgoal => hne (hnone ((hreached V hV ht).mp hgoal))).mono (fun _ s₂ => ?_)
    fun _ _ => id)
  rintro ⟨h₂, hV₂, hkeeps⟩
  have hpresent : ∀ rc, Present (wrote V (ps.map inserting)) t.id rc (roles rc) :=
    fun rc => (hentries rc).present hwaiting hV hV₂
  have hsame : (∀ rc, Granted V t.id rc) → wrote V (ps.map inserting) = V := by
    intro hall
    rw [hnone hall]
    rfl
  refine .bind ((grants_at hV₂ h₂ hpresent).mono (fun _ s₃ => ?_) fun _ _ herror hgoal => ?_)
  · rintro ⟨V₃, h₃, hgranting⟩
    have ht₃ := (hkeeps.trans hgranting.keeps).tenants t ht
    refine .ret ⟨V₃, h₃, hgranting.constrained, hkeeps.trans hgranting.keeps, ?_, fun rc => ?_,
      fun hgoal => ?_⟩
    · exact (hreached V₃ hgranting.constrained ht₃).mpr fun rc =>
        hgranting.granted rc List.not_mem_nil
    · exact ⟨hgranting.keeps.roles _ (hpresent rc).stored, (hpresent rc).tenant,
        (hpresent rc).code⟩
    · have hall := (hreached V hV ht).mp hgoal
      have hsame₃ := hgranting.kept ((hsame hall).symm ▸ hall)
      rw [hsame₃, hsame hall]
      exact Same.refl V
  · have hall := (hreached V hV ht).mp hgoal
    rw [hsame hall] at herror
    exact herror hall

/-! ## Users -/

/-- A loaded user has the roles that are assigned to it. -/
theorem mem_loadedRoleIds {W : Database Row} (hV : Constrained V)
    (hassigned : W .userRoles = V .userRoles) (hroles : W .roles = V .roles) {users : List User}
    {u : LoadedUser} (hu : u ∈ loadUsersIn W users) (x : Uuid) :
    x ∈ u.roles.map (·.role.id) ↔ userRoleLinks.pair u.user.id x ∈ V .userRoles := by
  rw [List.mem_map]
  constructor
  · rintro ⟨lr, hlr, rfl⟩
    have hlink := ((mem_loadedRoles hu).mp ⟨lr, hlr, rfl⟩).2
    rw [hassigned] at hlink
    exact hlink
  · intro hlink
    obtain ⟨-, r, hr, rfl⟩ := hV.assigned _ hlink
    rw [← hassigned] at hlink
    obtain ⟨lr, hlr, rfl⟩ := (mem_loadedRoles hu).mpr ⟨hroles.symm ▸ hr, hlink⟩
    exact ⟨lr, hlr, rfl⟩

/-- The account that `_seed_user` works on is stored and was loaded with its roles, or it is new
and waits. -/
structure Found (V : Database Row) (ps : List (AnyRow Row)) (tid : Uuid) (a : Account)
    (user : LoadedUser) : Prop where
  tenant : user.user.tenantId = tid
  email : user.user.email = a.email
  found : (ps = [] ∧ user.user ∈ V .users ∧ ∀ x, x ∈ user.roles.map (·.role.id) ↔
      userRoleLinks.pair user.user.id x ∈ V .userRoles) ∨
    (ps = [⟨.users, user.user⟩] ∧ user.roles = [] ∧
      ∀ u ∈ V .users, u.tenantId = tid → u.email ≠ a.email)

/-- A user is looked up; it is new where the tenant has none of the address. -/
theorem userEntry_at {tid : Uuid} {a : Account} (hopen : ∀ t, Open g t) (h : At g D V [] st)
    (hV : Constrained V) :
    Ends env (userEntry env s tid a) st
      (fun user s' => ∃ ps, At g D V ps s' ∧ Found V ps tid a user) fun _ _ => False := by
  have hkeys : ∀ u v : User, (decide (u.tenantId = tid) && decide (u.email = a.email)) = true →
      (decide (v.tenantId = tid) && decide (v.email = a.email)) = true → ¬ Apart .users u v := by
    intro u v hu hv huv
    rw [Bool.and_eq_true, decide_eq_true_iff, decide_eq_true_iff] at hu hv
    exact (apart_users.mp huv).2 (hu.1.trans hv.1.symm) (hu.2.trans hv.2.symm)
  refine .bind_ok (h.query (hopen _) _) ?_
  obtain ⟨w, tx, rfl, hseen⟩ := seen_at h
  refine .bind_ok (runM_loadUsers _ w tx []) ?_
  obtain ⟨hrows, hnone⟩ | ⟨user, huser, hmatch, hrows⟩ := hV.found (t := .users) hkeys
  · rw [hrows]
    obtain ⟨hashed, s₁, hhash, h₁⟩ := @At.hashPassword env _ _ _ _ _ h a.password
    obtain ⟨s₂, hid, h₂⟩ := @At.uuid4 env _ _ _ _ _ h₁
    let user : User :=
      { id := s₁.1.nextUuid, tenantId := tid, email := a.email, hashedPassword := hashed,
        fullName := a.fullName, isActive := true, isVerified := true,
        isSuperuser := a.isSuperuser, createdAt := s.startedAt, updatedAt := s.startedAt }
    obtain ⟨s₃, hadd, h₃⟩ := @At.add env _ _ _ _ .users _ h₂ user
    refine .bind_ok rfl (.bind_ok hhash (.bind_ok hid (.bind_ok hadd (.ret ⟨_, h₃, rfl, rfl, ?_⟩))))
    refine .inr ⟨rfl, rfl, fun u hu htenant hemail => ?_⟩
    have hno := hnone u hu
    rw [htenant, hemail] at hno
    simp at hno
  · rw [hrows]
    rw [Bool.and_eq_true, decide_eq_true_iff, decide_eq_true_iff] at hmatch
    refine .bind_ok rfl (.ret ⟨[], h, hmatch.1, hmatch.2, .inl ⟨rfl, huser, fun x => ?_⟩⟩)
    exact mem_loadedRoleIds hV (hseen _ (hopen _)) (hseen _ (hopen _))
      (List.mem_map_of_mem (List.mem_singleton_self user)) x

/-- The account, once it is flushed. -/
structure Stored (V : Database Row) (tid : Uuid) (a : Account) (user : LoadedUser) : Prop where
  stored : user.user ∈ V .users
  tenant : user.user.tenantId = tid
  email : user.user.email = a.email
  linked : ∀ x, x ∈ user.roles.map (·.role.id) ↔
    userRoleLinks.pair user.user.id x ∈ V .userRoles

theorem Found.stored {tid : Uuid} {a : Account} {user : LoadedUser} (h : Found V ps tid a user)
    (hV : Constrained V) (hwrote : Constrained (wrote V (ps.map inserting))) :
    Stored (wrote V (ps.map inserting)) tid a user := by
  obtain ⟨rfl, huser, hlinks⟩ | ⟨rfl, hnil, hfresh⟩ := h.found
  · exact ⟨huser, h.tenant, h.email, hlinks⟩
  · have hmem : user.user ∈ wrote V ([⟨.users, user.user⟩].map inserting) .users :=
      mem_wrote_inserting.mpr (.inr ⟨_, List.mem_cons_self, rfl⟩)
    have hother : wrote V ([⟨.users, user.user⟩].map inserting) .userRoles = V .userRoles :=
      wrote_inserting_other (by simp)
    refine ⟨hmem, h.tenant, h.email, fun x => ?_⟩
    rw [hnil, hother, List.map_nil]
    refine iff_of_false List.not_mem_nil fun hlink => ?_
    -- what is assigned is assigned to a user that was there before
    obtain ⟨⟨u, hu, hid⟩, -⟩ := hV.assigned _ hlink
    have hsame := hwrote.key_eq (t := .users) (mem_wrote_inserting.mpr (.inl hu)) hmem
      (congrArg (fun x => [x]) hid)
    exact hfresh u hu (hsame ▸ h.tenant) (hsame ▸ h.email)

/-- `_seed_user` gives the account its role. -/
theorem seedUser_upserts {seed : TenantSeed} {t : Tenant} {a : Account} {role : LoadedRole}
    (hopen : ∀ t, Open g t) (h : At g D V [] st) (hV : Constrained V) (hseed : seed ∈ tenants)
    (ht : t ∈ V .tenants) (hslug : t.slug = seed.slug) (ha : a ∈ accounts seed.slug)
    (hrole : role.role ∈ V .roles) (hrtenant : role.role.tenantId = t.id)
    (hrcode : role.role.code = a.role.value) :
    Upserts env g D Keeps (seedUser env s t.id a role) (fun V => Reached V (.user seed.slug a))
      (fun _ _ => True) st := by
  refine upserts_of_ends h ?_
  have hreached : Reached V (.user seed.slug a) ↔ Assigned V t.id a :=
    ofTenant_iff (P := fun tid => Assigned V tid a) hV ht hslug
  refine .bind ((userEntry_at hopen h hV).mono (fun user s₁ => ?_) fun _ _ => False.elim)
  rintro ⟨ps, h₁, hfound⟩
  have hnone : Reached V (.user seed.slug a) → ps = [] := by
    intro hgoal
    obtain ⟨u, hu, htenant, hemail, -⟩ := hreached.mp hgoal
    obtain ⟨rfl, -⟩ | ⟨-, -, hfresh⟩ := hfound.found
    · rfl
    · exact absurd hemail (hfresh u hu htenant)
  have htables : ∀ y ∈ ps, y.1 = .users := by
    obtain ⟨rfl, -⟩ | ⟨rfl, -⟩ := hfound.found
    · simp
    · simp
  refine .bind ((flush_upserts h₁ hV (fun y hy => by simp [htables y hy])
    fun _ _ hne hgoal => hne (hnone hgoal)).mono (fun _ s₂ => ?_) fun _ _ => id)
  rintro ⟨h₂, hV₂, hkeeps⟩
  have hstored := hfound.stored hV hV₂
  have hrole₂ := hkeeps.roles _ hrole
  have ht₂ := hkeeps.tenants t ht
  -- where the account had its role, nothing is written
  have hhad : Reached V (.user seed.slug a) → wrote V (ps.map inserting) = V ∧
      ∀ x, userRoleLinks.pair user.user.id x ∈ wrote V (ps.map inserting) .userRoles ↔
        x ∈ [role.role.id] := by
    intro hgoal
    have hsame : wrote V (ps.map inserting) = V := by
      rw [hnone hgoal]
      rfl
    refine ⟨hsame, fun x => ?_⟩
    obtain ⟨u, hu, htenant, hemail, r, hr, hrt, hrc, hlinks⟩ := hreached.mp hgoal
    rw [hsame] at hstored ⊢
    obtain rfl := hV.user_eq hu hstored.stored (htenant.trans hstored.tenant.symm)
      (hemail.trans hstored.email.symm)
    obtain rfl := hV.role_eq hr hrole (hrt.trans hrtenant.symm) (hrc.trans hrcode.symm)
    rw [hlinks, List.mem_singleton]
  rw [assignRoles_eq]
  refine (relink_at h₂ hstored.linked).mono (fun _ s₃ => ?_) fun _ _ herror hgoal =>
    herror (hhad hgoal).2
  rintro ⟨V₃, h₃, hkeeps₃, hlinks, hsame₃⟩
  have hlinks' : Relinked userRoleLinks user.user.id (wrote V (ps.map inserting)) V₃
      (· = role.role.id) :=
    ⟨fun x => (hlinks.own x).trans List.mem_singleton, hlinks.others, hlinks.tables⟩
  have hkeeps' := keeps_assigned hV₂ hseed ht₂ hslug ha hstored.stored hstored.tenant
    hstored.email hrole₂ hrtenant hrcode hlinks'
  refine ⟨V₃, h₃, hkeeps₃ hV₂, hkeeps.trans hkeeps', ?_, trivial, fun hgoal => ?_⟩
  · refine ⟨t, hkeeps'.tenants t ht₂, hslug, user.user, ?_, hstored.tenant, hstored.email,
      role.role, hkeeps'.roles _ hrole₂, hrtenant, hrcode, hlinks'.own⟩
    rw [hlinks.tables .users (by decide)]
    exact hstored.stored
  · rw [hsame₃ (hhad hgoal).2, (hhad hgoal).1]
    exact Same.refl V

end Seeding

end LmsBackend
