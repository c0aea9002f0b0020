import LmsBackend.Effects.Constraints
import LmsBackend.Scripts.Seeding

/-!
# What the seed script is to bring about

Each function of `scripts.seed` makes sure that something is there. This is stated as a goal,
a property of the rows, under the keys by which the script looks them up.

- `Goal`, `Reached`: the goals of the script, and the rows that reach them.
- `Same`: two databases differ at most in the instants at which licences were enabled.
- `Keeps`: a change that undoes no goal. The writes of the script keep all of them.
-/

namespace LmsBackend

namespace Seeding

open Mvcc Seed

variable {V V' V'' : Database Row}

/-! ## Goals -/

/-- A goal of the script. What belongs to a tenant is named by the slug. -/
inductive Goal
  | module (code : ModuleCode)
  | permission (code : String)
  | tenant (slug : String)
  | licence (slug : String) (code : ModuleCode)
  | role (slug : String) (rc : RoleCode)
  | user (slug : String) (account : Account)
  | content (slug : String)

/-- The goals of `seed_tenant`. -/
def tenantGoals (seed : TenantSeed) : List Goal :=
  [.tenant seed.slug] ++ (seed.modules.map (.licence seed.slug) ++
    (RoleCode.all.map (.role seed.slug) ++ (accounts seed.slug).map (.user seed.slug)))

/-- The goals of the script. -/
def goals : List Goal :=
  allModuleCodes.map .module ++ (allPermissions.map .permission ++
    (tenants.flatMap tenantGoals ++ tenants.map fun seed => .content seed.slug))

/-- The tenant has the module. -/
def Licensed (V : Database Row) (tenantId : Uuid) (code : ModuleCode) : Prop :=
  ∃ m ∈ V .modules, m.code = code.value ∧
    ∃ tm ∈ V .tenantModules, tm.tenantId = tenantId ∧ tm.moduleId = m.id ∧ tm.enabled = true

/-- The permissions that a role is to have. -/
def Wanted (V : Database Row) (rc : RoleCode) (x : Uuid) : Prop :=
  ∃ p ∈ V .permissions, p.id = x ∧ p.code ∈ roleMatrix rc

/-- The tenant has the role, and the role grants what the matrix says. -/
def Granted (V : Database Row) (tenantId : Uuid) (rc : RoleCode) : Prop :=
  ∃ role ∈ V .roles, role.tenantId = tenantId ∧ role.code = rc.value ∧
    ∀ x, rolePermissionLinks.pair role.id x ∈ V .rolePermissions ↔ Wanted V rc x

/-- The tenant has the user, and the user has one role, which is the account's. -/
def Assigned (V : Database Row) (tenantId : Uuid) (a : Account) : Prop :=
  ∃ user ∈ V .users, user.tenantId = tenantId ∧ user.email = a.email ∧
    ∃ role ∈ V .roles, role.tenantId = tenantId ∧ role.code = a.role.value ∧
      ∀ x, userRoleLinks.pair user.id x ∈ V .userRoles ↔ x = role.id

/-- There is a tenant with the slug, and `P` holds of it. -/
def OfTenant (V : Database Row) (slug : String) (P : Uuid → Prop) : Prop :=
  ∃ t ∈ V .tenants, t.slug = slug ∧ P t.id

/-- The rows reach the goal. -/
def Reached (V : Database Row) : Goal → Prop
  | .module code => ∃ m ∈ V .modules, m.code = code.value
  | .permission code => ∃ p ∈ V .permissions, p.code = code
  | .tenant slug => OfTenant V slug fun _ => True
  | .licence slug code => OfTenant V slug fun tid => Licensed V tid code
  | .role slug rc => OfTenant V slug fun tid => Granted V tid rc
  | .user slug a => OfTenant V slug fun tid => Assigned V tid a
  | .content slug => OfTenant V slug fun tid => ∃ c ∈ V .courses, c.tenantId = tid

/-- The slug names one tenant. -/
theorem ofTenant_iff (hV : Constrained V) {t : Tenant} (ht : t ∈ V .tenants) {slug : String}
    (hslug : t.slug = slug) {P : Uuid → Prop} : OfTenant V slug P ↔ P t.id := by
  refine ⟨fun ⟨t', ht', hslug', hP⟩ => ?_, fun hP => ⟨t, ht, hslug, hP⟩⟩
  obtain rfl := hV.tenant_eq ht ht' (hslug.trans hslug'.symm)
  exact hP

/-- The roles have codes of their own. -/
theorem roleValue_injective {rc rc' : RoleCode} (h : rc.value = rc'.value) : rc = rc' := by
  cases rc <;> cases rc' <;> first | rfl | exact absurd h (by decide)

/-- The accounts of a tenant have addresses of their own. -/
theorem accounts_email : ∀ seed ∈ tenants, ∀ a ∈ accounts seed.slug, ∀ b ∈ accounts seed.slug,
    a.email = b.email → a = b := by
  decide +kernel

/-- A goal for an account is a goal for a tenant's account. -/
theorem account_of_goal {slug : String} {a : Account} (h : .user slug a ∈ goals) :
    ∃ seed ∈ tenants, seed.slug = slug ∧ a ∈ accounts slug := by
  simp only [goals, List.mem_append, List.mem_map, List.mem_flatMap, tenantGoals,
    List.mem_cons, reduceCtorEq, and_false, exists_false, false_or, or_false, Goal.user.injEq,
    List.not_mem_nil] at h
  obtain ⟨seed, hseed, b, hb, rfl, rfl⟩ := h
  exact ⟨seed, hseed, rfl, hb⟩

/-! ## Up to timestamps -/

/-- The database without the instants at which licences were enabled. -/
def timeless (V : Database Row) : Database Row :=
  Function.update V .tenantModules
    ((V .tenantModules).map fun tm => { tm with enabledAt := none })

/-- The databases differ at most in the instants at which licences were enabled. -/
def Same (V V' : Database Row) : Prop := timeless V = timeless V'

theorem Same.refl (V : Database Row) : Same V V := rfl

theorem Same.trans (h : Same V V') (h' : Same V' V'') : Same V V'' := Eq.trans h h'

theorem Same.symm (h : Same V V') : Same V' V := Eq.symm h

/-- The other tables are the same. -/
theorem Same.table (h : Same V V') {t : Table} (ht : t ≠ .tenantModules) : V t = V' t := by
  have hrows := congrFun h t
  rwa [timeless, timeless, Function.update_of_ne ht, Function.update_of_ne ht] at hrows

/-- A licence is there on both sides. -/
theorem Same.licence (h : Same V V') {tm : TenantModule} (htm : tm ∈ V .tenantModules) :
    ∃ tm' ∈ V' .tenantModules, tm'.tenantId = tm.tenantId ∧ tm'.moduleId = tm.moduleId ∧
      tm'.enabled = tm.enabled := by
  have hrows := congrFun h .tenantModules
  rw [timeless, timeless, Function.update_self, Function.update_self] at hrows
  have hmem := List.mem_map_of_mem (f := fun tm : TenantModule => { tm with enabledAt := none }) htm
  rw [hrows] at hmem
  obtain ⟨tm', htm', heq⟩ := List.mem_map.mp hmem
  rw [TenantModule.mk.injEq] at heq
  exact ⟨tm', htm', heq.2.1, heq.2.2.1, heq.2.2.2.1⟩

/-! ## Changes that undo no goal -/

/-- A change that undoes no goal of the script, and leaves the rows that it holds in hand. -/
structure Keeps (V V' : Database Row) : Prop where
  goals : ∀ x ∈ goals, Reached V x → Reached V' x
  tenants : ∀ t ∈ V .tenants, t ∈ V' .tenants
  roles : ∀ r ∈ V .roles, r ∈ V' .roles
  permissions : V' .permissions = V .permissions

theorem Keeps.refl (V : Database Row) : Keeps V V :=
  ⟨fun _ _ h => h, fun _ h => h, fun _ h => h, rfl⟩

theorem Keeps.trans (h : Keeps V V') (h' : Keeps V' V'') : Keeps V V'' where
  goals x hx hr := h'.goals x hx (h.goals x hx hr)
  tenants t ht := h'.tenants t (h.tenants t ht)
  roles r hr := h'.roles r (h.roles r hr)
  permissions := h'.permissions.trans h.permissions

/-- Rows have come, and none has gone; licences that were enabled still are. -/
structure Grows (V V' : Database Row) : Prop where
  rows : ∀ t, t ≠ .tenantModules → ∀ x ∈ V t, x ∈ V' t
  licences : ∀ tm ∈ V .tenantModules, ∃ tm' ∈ V' .tenantModules, tm'.tenantId = tm.tenantId ∧
    tm'.moduleId = tm.moduleId ∧ (tm.enabled = true → tm'.enabled = true)

theorem Grows.refl (V : Database Row) : Grows V V :=
  ⟨fun _ _ _ h => h, fun tm htm => ⟨tm, htm, rfl, rfl, id⟩⟩

theorem Grows.trans (h : Grows V V') (h' : Grows V' V'') : Grows V V'' where
  rows t ht x hx := h'.rows t ht x (h.rows t ht x hx)
  licences tm htm := by
    obtain ⟨tm', htm', htenant, hmodule, henabled⟩ := h.licences tm htm
    obtain ⟨tm'', htm'', htenant', hmodule', henabled'⟩ := h'.licences tm' htm'
    exact ⟨tm'', htm'', htenant'.trans htenant, hmodule'.trans hmodule, henabled' ∘ henabled⟩

theorem Grows.licensed (h : Grows V V') {tid : Uuid} {code : ModuleCode}
    (hlicensed : Licensed V tid code) : Licensed V' tid code := by
  obtain ⟨m, hm, hcode, tm, htm, htenant, hmodule, henabled⟩ := hlicensed
  obtain ⟨tm', htm', htenant', hmodule', henabled'⟩ := h.licences tm htm
  exact ⟨m, h.rows .modules (by decide) m hm, hcode, tm', htm', htenant'.trans htenant,
    hmodule'.trans hmodule, henabled' henabled⟩

/-- What the script adds outside the collections undoes no goal. -/
theorem Grows.keeps (h : Grows V V') (hpermissions : V' .permissions = V .permissions)
    (hgranted : V' .rolePermissions = V .rolePermissions)
    (hassigned : V' .userRoles = V .userRoles) : Keeps V V' := by
  have htenants := h.rows .tenants (by decide)
  have hroles := h.rows .roles (by decide)
  refine ⟨fun x _ hx => ?_, htenants, hroles, hpermissions⟩
  cases x with
  | module code =>
    obtain ⟨m, hm, hcode⟩ := hx
    exact ⟨m, h.rows .modules (by decide) m hm, hcode⟩
  | permission code =>
    obtain ⟨p, hp, hcode⟩ := hx
    exact ⟨p, h.rows .permissions (by decide) p hp, hcode⟩
  | tenant slug =>
    obtain ⟨t, ht, hslug, -⟩ := hx
    exact ⟨t, htenants t ht, hslug, trivial⟩
  | licence slug code =>
    obtain ⟨t, ht, hslug, hlicensed⟩ := hx
    exact ⟨t, htenants t ht, hslug, h.licensed hlicensed⟩
  | role slug rc =>
    obtain ⟨t, ht, hslug, role, hrole, htenant, hcode, hlinks⟩ := hx
    refine ⟨t, htenants t ht, hslug, role, hroles role hrole, htenant, hcode, fun x => ?_⟩
    rw [hgranted, hlinks, Wanted, Wanted, hpermissions]
  | user slug a =>
    obtain ⟨t, ht, hslug, user, huser, htenant, hemail, role, hrole, hrtenant, hcode, hlinks⟩ := hx
    refine ⟨t, htenants t ht, hslug, user, h.rows .users (by decide) user huser, htenant, hemail,
      role, hroles role hrole, hrtenant, hcode, fun x => ?_⟩
    rw [hassigned, hlinks]
  | content slug =>
    obtain ⟨t, ht, hslug, c, hc, htenant⟩ := hx
    exact ⟨t, htenants t ht, hslug, c, h.rows .courses (by decide) c hc, htenant⟩

/-- A database that differs at most in those instants reaches the same goals. -/
theorem Same.keeps (h : Same V V') : Keeps V V' := by
  have hgrows : Grows V V' := by
    refine ⟨fun t ht x hx => ?_, fun tm htm => ?_⟩
    · rw [← h.table ht]
      exact hx
    · obtain ⟨tm', htm', htenant, hmodule, henabled⟩ := h.licence htm
      exact ⟨tm', htm', htenant, hmodule, fun hon => henabled.trans hon⟩
  exact hgrows.keeps (h.table (by decide)).symm (h.table (by decide)).symm
    (h.table (by decide)).symm

/-- Granting a role what the matrix says undoes no goal. -/
theorem keeps_granted (hV : Constrained V) {role : Role} {rc : RoleCode} (hrole : role ∈ V .roles)
    (hcode : role.code = rc.value)
    (hlinks : Relinked rolePermissionLinks role.id V V' (Wanted V rc)) : Keeps V V' := by
  have htenants : ∀ t ∈ V .tenants, t ∈ V' .tenants := by simp [hlinks.tables]
  have hpermissions : V' .permissions = V .permissions := hlinks.tables _ (by decide)
  refine ⟨fun x _ hx => ?_, htenants, by simp [hlinks.tables], hpermissions⟩
  cases x with
  | role slug rc' =>
    obtain ⟨t, ht, hslug, role', hrole', htenant', hcode', hlinks'⟩ := hx
    have hmem : role' ∈ V' .roles := by rwa [hlinks.tables .roles (by decide)]
    refine ⟨t, htenants t ht, hslug, role', hmem, htenant', hcode', fun x => ?_⟩
    have hwanted : ∀ rc, Wanted V' rc x ↔ Wanted V rc x := fun rc => by
      rw [Wanted, Wanted, hpermissions]
    by_cases hid : role'.id = role.id
    · -- it is the role itself
      obtain rfl := hV.key_eq hrole' hrole (congrArg (fun x => [x]) hid)
      obtain rfl : rc' = rc := roleValue_injective (hcode'.symm.trans hcode)
      rw [hlinks.own, hwanted]
    · rw [hlinks.others _ _ hid, hlinks', hwanted]
  | _ => simpa [Reached, OfTenant, Licensed, Assigned, hlinks.tables] using hx

/-- Giving an account its role undoes no goal. -/
theorem keeps_assigned (hV : Constrained V) {seed : TenantSeed} (hseed : seed ∈ tenants)
    {t : Tenant} (ht : t ∈ V .tenants) (hslug : t.slug = seed.slug) {a : Account}
    (ha : a ∈ accounts seed.slug) {user : User} (huser : user ∈ V .users)
    (htenant : user.tenantId = t.id) (hemail : user.email = a.email) {role : Role}
    (hrole : role ∈ V .roles) (hrtenant : role.tenantId = t.id) (hcode : role.code = a.role.value)
    (hlinks : Relinked userRoleLinks user.id V V' (· = role.id)) : Keeps V V' := by
  have htenants : ∀ t ∈ V .tenants, t ∈ V' .tenants := by simp [hlinks.tables]
  refine ⟨fun x hgoal hx => ?_, htenants, by simp [hlinks.tables], hlinks.tables _ (by decide)⟩
  cases x with
  | user slug a' =>
    obtain ⟨t', ht', rfl, user', huser', htenant', hemail', role', hrole', hrtenant', hcode',
      hlinks'⟩ := hx
    have hmem : user' ∈ V' .users := by rwa [hlinks.tables .users (by decide)]
    have hrmem : role' ∈ V' .roles := by rwa [hlinks.tables .roles (by decide)]
    refine ⟨t', htenants t' ht', rfl, user', hmem, htenant', hemail', role', hrmem, hrtenant',
      hcode', fun x => ?_⟩
    by_cases hid : user'.id = user.id
    · -- it is the account itself, whose role is the one of its tenant with the code
      obtain rfl := hV.key_eq huser' huser (congrArg (fun x => [x]) hid)
      have htid : t'.id = t.id := htenant'.symm.trans htenant
      obtain rfl := hV.key_eq ht' ht (congrArg (fun x => [x]) htid)
      obtain ⟨-, -, -, ha'⟩ := account_of_goal hgoal
      rw [hslug] at ha'
      obtain rfl := accounts_email seed hseed a ha a' ha' (hemail.symm.trans hemail')
      obtain rfl := hV.role_eq hrole' hrole (hrtenant'.trans hrtenant.symm)
        (hcode'.trans hcode.symm)
      exact hlinks.own x
    · rw [hlinks.others _ _ hid, hlinks']
  | _ => simpa [Reached, OfTenant, Licensed, Granted, Wanted, hlinks.tables] using hx

end Seeding

end LmsBackend
