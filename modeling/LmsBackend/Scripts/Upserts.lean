import LmsBackend.Lib.Upserts
import LmsBackend.Scripts.Goals
import LmsBackend.Tenancy.Provisions

/-!
# The catalogues and the licences of the seed

Each function of `scripts.seed` establishes its goal and fails only where the goal does not
hold yet. Here are the functions that look for a row and add or correct it.

- `Upserts`: the function establishes a property of the rows.
- `seedModules_upserts`, `seedPermissions_upserts`: the two catalogues.
- `seedTenantRow_upserts`, `setLicense_upserts`: a tenant, and a module of a tenant.
-/

namespace LmsBackend

namespace Seeding

open Mvcc Seed

variable {env : Env} {g : Guc} {D V V' : Database Row} {ps : List (AnyRow Row)} {st : State}
  {s : Session} {α : Type} {F : Database Row → Database Row → Prop} {G : Database Row → Prop}
  {R : α → Database Row → Prop}

/-! ## Upserts -/

/-- One transaction is open, nothing waits, and what it sees satisfies the constraints. -/
def Within (g : Guc) (D : Database Row) (st : State) : Prop :=
  ∃ V, At g D V [] st ∧ Constrained V

/-- The function establishes `G`, and changes the rows as `F` says. -/
abbrev Upserts (env : Env) (g : Guc) (D : Database Row)
    (F : Database Row → Database Row → Prop) (p : M α) (G : Database Row → Prop)
    (R : α → Database Row → Prop) (st : State) : Prop :=
  Prog.Establishes (exec env) (Within g D) (fun s s' => F (viewed s) (viewed s'))
    (fun s s' => Same (viewed s) (viewed s')) p (fun s => G (viewed s))
    (fun a s => R a (viewed s)) st

/-- What a function has made of the rows `V`. -/
structure Upserted (g : Guc) (D : Database Row) (F : Database Row → Database Row → Prop)
    (G : Database Row → Prop) (R : α → Database Row → Prop) (V : Database Row) (a : α) (st : State)
    (V' : Database Row) : Prop where
  now : At g D V' [] st
  constrained : Constrained V'
  frame : F V V'
  goal : G V'
  value : R a V'
  kept : G V → Same V V'

theorem upserts_of_ends {p : M α} (h : At g D V [] st)
    (hend : Ends env p st (fun a s' => ∃ V', Upserted g D F G R V a s' V') fun _ _ => ¬ G V) :
    Upserts env g D F p G R st := by
  refine Prog.Ends.mono hend (fun a s' => ?_) fun _ _ herror => ?_
  · rintro ⟨V', h'⟩
    have hviewed := h'.now.viewed
    constructor
    · exact ⟨V', h'.now, h'.constrained⟩
    · rw [h.viewed, hviewed]
      exact h'.frame
    · rw [hviewed]
      exact h'.goal
    · rw [hviewed]
      exact h'.value
    · rw [h.viewed, hviewed]
      exact h'.kept
  · show ¬ G (viewed st)
    rw [h.viewed]
    exact herror

/-- Inserted rows make the rows grow. -/
theorem grows_wrote : Grows V (wrote V (ps.map inserting)) :=
  ⟨fun _ _ _ hx => mem_wrote_inserting.mpr (.inl hx),
    fun tm htm => ⟨tm, mem_wrote_inserting.mpr (.inl htm), rfl, rfl, id⟩⟩

/-- Inserted rows undo no goal, but for the permissions and the collections. -/
theorem keeps_wrote
    (h : ∀ y ∈ ps, y.1 ≠ .permissions ∧ y.1 ≠ .rolePermissions ∧ y.1 ≠ .userRoles) :
    Keeps V (wrote V (ps.map inserting)) :=
  grows_wrote.keeps (wrote_inserting_other fun y hy => (h y hy).1)
    (wrote_inserting_other fun y hy => (h y hy).2.1)
    (wrote_inserting_other fun y hy => (h y hy).2.2)

/-! ## Catalogues -/

/-- The modules that are missing wait. -/
theorem addModules_at {existing : List Module} (codes : List ModuleCode) (h : At g D V ps st) :
    Ends env (Prog.forEach codes (addModule existing)) st
      (fun _ s' => ∃ new : List Module, At g D V (ps ++ new.map (⟨.modules, ·⟩)) s' ∧
        (∀ code ∈ codes, ∃ m ∈ existing ++ new, m.code = code.value) ∧
        ((∀ code ∈ codes, ∃ m ∈ existing, m.code = code.value) → new = [])) fun _ _ => False := by
  induction codes generalizing ps st with
  | nil => exact .ret ⟨[], by simpa using h, by simp, fun _ => rfl⟩
  | cons code codes ih =>
    unfold Prog.forEach addModule
    by_cases hany : (existing.any fun m => m.code = code.value) = true
    · rw [if_pos hany]
      obtain ⟨m, hm, hcode⟩ := List.any_eq_true.mp hany
      refine .bind (.ret ((ih h).mono (fun _ s' => ?_) fun _ _ => id))
      rintro ⟨new, hat, hall, hnone⟩
      refine ⟨new, hat, List.forall_mem_cons.mpr ⟨⟨m, List.mem_append_left _ hm, ?_⟩, hall⟩,
        fun hsome => hnone fun c hc => hsome c (List.mem_cons_of_mem _ hc)⟩
      exact of_decide_eq_true hcode
    · rw [if_neg hany]
      obtain ⟨s₁, hid, h₁⟩ := @At.uuid4 env _ _ _ _ _ h
      let m : Module :=
        { id := st.1.nextUuid, code := code.value, name := code.catalogName,
          isCore := decide (code ∈ coreModuleCodes) }
      obtain ⟨s₂, hadd, h₂⟩ := @At.add env _ _ _ _ .modules _ h₁ m
      refine .bind (.bind_ok hid (.of_ok hadd ((ih h₂).mono (fun _ s' => ?_) fun _ _ => id)))
      rintro ⟨new, hat, hall, -⟩
      refine ⟨m :: new, ?_, List.forall_mem_cons.mpr ⟨⟨m, by simp, rfl⟩, fun c hc => ?_⟩,
        fun hsome => ?_⟩
      · rw [List.append_assoc] at hat
        exact hat
      · obtain ⟨m', hm', hcode⟩ := hall c hc
        refine ⟨m', ?_, hcode⟩
        simp only [List.mem_append, List.mem_cons] at hm' ⊢
        tauto
      · obtain ⟨m', hm', hcode⟩ := hsome code List.mem_cons_self
        exact absurd (List.any_eq_true.mpr ⟨m', hm', decide_eq_true hcode⟩) hany

/-- `seed_modules` establishes the module catalogue. -/
theorem seedModules_upserts (h : At g D V [] st) (hV : Constrained V) :
    Upserts env g D (fun _ _ => True) seedModules
      (fun V => ∀ code ∈ allModuleCodes, Reached V (.module code)) (fun _ _ => True) st := by
  refine upserts_of_ends h ?_
  refine .bind_ok (h.query (.inr (by decide)) _) (.bind ?_)
  have hall : (V .modules).filter (fun _ => true) = V .modules := List.filter_true _
  rw [hall]
  refine (addModules_at allModuleCodes h).mono (fun _ s₁ => ?_) fun _ _ => False.elim
  rintro ⟨new, h₁, hcodes, hnone⟩
  refine (flush_at h₁ fun _ _ hne hgoal => hne ?_).mono (fun _ s₂ => ?_) fun _ _ => id
  · simp [hnone hgoal]
  · rintro ⟨h₂, hkeeps, -⟩
    refine ⟨_, h₂, hkeeps hV, trivial, fun code hcode => ?_, trivial, fun hgoal => ?_⟩
    · obtain ⟨m, hm, hmcode⟩ := hcodes code hcode
      refine ⟨m, mem_wrote_inserting.mpr ?_, hmcode⟩
      rcases List.mem_append.mp hm with hm | hm
      · exact .inl hm
      · exact .inr ⟨⟨.modules, m⟩, by simpa using hm, rfl⟩
    · rw [hnone hgoal]
      exact Same.refl V

/-- The permissions that are missing wait; all are returned. -/
theorem addPermissions_at {existing : List Permission} (codes : List String)
    (h : At g D V ps st) :
    Ends env (addPermissions existing codes) st
      (fun perms s' => ∃ new : List Permission, perms = existing ++ new ∧
        At g D V (ps ++ new.map (⟨.permissions, ·⟩)) s' ∧
        (∀ code ∈ codes, ∃ p ∈ perms, p.code = code) ∧
        ((∀ code ∈ codes, ∃ p ∈ existing, p.code = code) → new = [])) fun _ _ => False := by
  induction codes generalizing existing ps st with
  | nil => exact .ret ⟨[], by simp, by simpa using h, by simp, fun _ => rfl⟩
  | cons code codes ih =>
    unfold addPermissions
    by_cases hany : (existing.any fun p => p.code = code) = true
    · rw [if_pos hany]
      obtain ⟨p, hp, hcode⟩ := List.any_eq_true.mp hany
      refine (ih h).mono (fun perms s' => ?_) fun _ _ => id
      rintro ⟨new, rfl, hat, hall, hnone⟩
      refine ⟨new, rfl, hat, List.forall_mem_cons.mpr ⟨⟨p, List.mem_append_left _ hp, ?_⟩, hall⟩,
        fun hsome => hnone fun c hc => hsome c (List.mem_cons_of_mem _ hc)⟩
      exact of_decide_eq_true hcode
    · rw [if_neg hany]
      obtain ⟨s₁, hid, h₁⟩ := @At.uuid4 env _ _ _ _ _ h
      let p : Permission := { id := st.1.nextUuid, code }
      obtain ⟨s₂, hadd, h₂⟩ := @At.add env _ _ _ _ .permissions _ h₁ p
      refine .bind_ok hid (.bind_ok hadd ((ih h₂).mono (fun perms s' => ?_) fun _ _ => id))
      rintro ⟨new, rfl, hat, hall, -⟩
      refine ⟨p :: new, List.append_assoc _ _ _, ?_,
        List.forall_mem_cons.mpr ⟨⟨p, List.mem_append_left _ (List.mem_append_right _
          (List.mem_singleton_self p)), rfl⟩, hall⟩,
        fun hsome => ?_⟩
      · rw [List.append_assoc] at hat
        exact hat
      · obtain ⟨p', hp', hcode⟩ := hsome code List.mem_cons_self
        exact absurd (List.any_eq_true.mpr ⟨p', hp', decide_eq_true hcode⟩) hany

/-- The permissions after those that are missing were inserted. -/
theorem wrote_permissions (new : List Permission) :
    wrote V ((new.map fun p => (⟨.permissions, p⟩ : AnyRow Row)).map inserting) .permissions =
      V .permissions ++ new := by
  induction new generalizing V with
  | nil => simp [wrote]
  | cons p new ih =>
    have hfirst : Write.apply schema V (inserting ⟨.permissions, p⟩) .permissions =
        V .permissions ++ [p] := Write.apply_insert
    refine (ih (V := Write.apply schema V (inserting ⟨.permissions, p⟩))).trans ?_
    rw [hfirst, List.append_assoc]
    rfl

/-- No module of the catalogue goes. -/
def ModulesStay (V V' : Database Row) : Prop :=
  ∀ code ∈ allModuleCodes, Reached V (.module code) → Reached V' (.module code)

theorem Keeps.modulesStay (h : Keeps V V') : ModulesStay V V' := fun code hcode hreached =>
  h.goals _ (List.mem_append_left _ (List.mem_map_of_mem hcode)) hreached

/-- `seed_permissions` establishes the permissions and returns all there are. -/
theorem seedPermissions_upserts (h : At g D V [] st) (hV : Constrained V) :
    Upserts env g D ModulesStay seedPermissions
      (fun V => ∀ code ∈ allPermissions, Reached V (.permission code))
      (fun perms V => perms = V .permissions) st := by
  refine upserts_of_ends h ?_
  refine .bind_ok (h.query (.inr (by decide)) _) (.bind ?_)
  have hall : (V .permissions).filter (fun _ => true) = V .permissions := List.filter_true _
  rw [hall]
  refine (addPermissions_at allPermissions h).mono (fun perms s₁ => ?_) fun _ _ => False.elim
  rintro ⟨new, rfl, h₁, hcodes, hnone⟩
  refine .bind ((flush_at h₁ fun _ _ hne hgoal => hne ?_).mono (fun _ s₂ => ?_) fun _ _ => id)
  · simp [hnone hgoal]
  · rintro ⟨h₂, hkeeps, -⟩
    have hperms := wrote_permissions (V := V) new
    refine .ret ⟨_, h₂, hkeeps hV, fun _ _ hm => ?_, fun code hcode => ?_, hperms.symm,
      fun hgoal => ?_⟩
    · obtain ⟨m, hm, hmcode⟩ := hm
      exact ⟨m, mem_wrote_inserting.mpr (.inl hm), hmcode⟩
    · obtain ⟨p, hp, hpcode⟩ := hcodes code hcode
      exact ⟨p, (congrArg (p ∈ ·) hperms).mpr hp, hpcode⟩
    · rw [hnone hgoal]
      exact Same.refl V

/-! ## Tenants -/

/-- What is added to tables outside the collections, once it is flushed. -/
theorem flush_upserts {E : Err → State → Prop} (h : At g D V ps st) (hV : Constrained V)
    (hps : ∀ y ∈ ps, y.1 ≠ .permissions ∧ y.1 ≠ .rolePermissions ∧ y.1 ≠ .userRoles)
    (herror : ∀ e s', ps ≠ [] → E e s') :
    Ends env flush st (fun _ s' => At g D (wrote V (ps.map inserting)) [] s' ∧
      Constrained (wrote V (ps.map inserting)) ∧ Keeps V (wrote V (ps.map inserting))) E :=
  (flush_at h herror).mono (fun _ _ hflushed => ⟨hflushed.1, hflushed.2.1 hV, keeps_wrote hps⟩)
    fun _ _ => id

/-- `seed_tenant` starts with a tenant of the slug. -/
theorem seedTenantRow_upserts {seed : TenantSeed} (h : At g D V [] st) (hV : Constrained V) :
    Upserts env g D Keeps (seedTenantRow seed) (fun V => Reached V (.tenant seed.slug))
      (fun t V => t ∈ V .tenants ∧ t.slug = seed.slug) st := by
  refine upserts_of_ends h ?_
  refine .bind_ok (h.query (.inr (by decide)) _) ?_
  have hslug : ∀ a b : Tenant, decide (a.slug = seed.slug) = true →
      decide (b.slug = seed.slug) = true → ¬ Apart .tenants a b := by
    intro a b ha hb hab
    exact (apart_tenants.mp hab).2 ((of_decide_eq_true ha).trans (of_decide_eq_true hb).symm)
  obtain ⟨hrows, hnone⟩ | ⟨t, ht, htslug, hrows⟩ := hV.found (t := .tenants) hslug
  · rw [hrows]
    obtain ⟨s₁, hid, h₁⟩ := @At.uuid4 env _ _ _ _ _ h
    let tenant : Tenant := { id := st.1.nextUuid, name := seed.name, slug := seed.slug }
    obtain ⟨s₂, hadd, h₂⟩ := @At.add env _ _ _ _ .tenants _ h₁ tenant
    refine .bind_ok rfl (.bind_ok hid (.bind_ok hadd (.bind ?_)))
    have hmissing : ¬ Reached V (.tenant seed.slug) := by
      rintro ⟨t, ht, htslug, -⟩
      exact absurd htslug (of_decide_eq_false (hnone t ht))
    refine (flush_upserts h₂ hV (by simp) fun _ _ _ => hmissing).mono (fun _ s₃ => ?_) fun _ _ => id
    rintro ⟨h₃, hV', hkeeps⟩
    have hmem : tenant ∈ wrote V ([⟨.tenants, tenant⟩].map inserting) .tenants :=
      mem_wrote_inserting.mpr (.inr ⟨_, List.mem_cons_self, rfl⟩)
    exact .ret ⟨_, h₃, hV', hkeeps, ⟨tenant, hmem, rfl, trivial⟩, ⟨hmem, rfl⟩,
      fun hgoal => absurd hgoal hmissing⟩
  · rw [hrows]
    have htslug := of_decide_eq_true htslug
    exact .bind_ok rfl (.ret ⟨V, h, hV, .refl V, ⟨t, ht, htslug, trivial⟩, ⟨ht, htslug⟩,
      fun _ => Same.refl V⟩)

/-- Dropping what the cache holds leaves the transaction as it is. -/
theorem invalidate_at (h : At g D V ps st) (tid : Uuid) :
    ∃ s', runM env (invalidate env tid) st = (.ok (), s') ∧ At g D V ps s' := by
  obtain ⟨w, tx, rfl, rfl, hrest⟩ := h
  obtain ⟨w', hrun, hdb, -⟩ := @runM_invalidate env tid w [tx]
  exact ⟨_, hrun, w', tx, rfl, hdb, hrest⟩

/-- The rows after a licence was enabled again. -/
def enabling (V : Database Row) (tm : TenantModule) (now : Time) : Database Row :=
  Write.apply schema V (.update .tenantModules [tm.id]
    ({ tm with enabled := true, enabledAt := some now } : TenantModule))

section Enabling

variable {tm : TenantModule} {now : Time}

theorem enabling_other {t : Table} (ht : t ≠ .tenantModules) : enabling V tm now t = V t :=
  Write.apply_other (Ne.symm ht)

theorem mem_enabling (hV : Constrained V) (htm : tm ∈ V .tenantModules) {x : TenantModule} :
    x ∈ enabling V tm now .tenantModules ↔
      x = { tm with enabled := true, enabledAt := some now } ∨ x ∈ V .tenantModules ∧ x ≠ tm :=
  mem_rewritten (t := .tenantModules) hV htm

/-- Enabling a licence undoes no goal. -/
theorem keeps_enabling (hV : Constrained V) (htm : tm ∈ V .tenantModules) :
    Keeps V (enabling V tm now) := by
  have hgrows : Grows V (enabling V tm now) := by
    refine ⟨fun t' ht' x hx => (enabling_other ht').symm ▸ hx, fun tm' htm' => ?_⟩
    by_cases heq : tm' = tm
    · exact ⟨_, (mem_enabling hV htm).mpr (.inl rfl), heq ▸ rfl, heq ▸ rfl, fun _ => rfl⟩
    · exact ⟨tm', (mem_enabling hV htm).mpr (.inr ⟨htm', heq⟩), rfl, rfl, id⟩
  exact hgrows.keeps (enabling_other (by decide)) (enabling_other (by decide))
    (enabling_other (by decide))

/-- Enabling a licence that is enabled changes the instant only. -/
theorem same_enabling (hV : Constrained V) (htm : tm ∈ V .tenantModules)
    (hon : tm.enabled = true) : Same V (enabling V tm now) := by
  have hrows : (V .tenantModules).map (fun tm => { tm with enabledAt := none }) =
      (enabling V tm now .tenantModules).map fun tm => { tm with enabledAt := none } := by
    rw [enabling, Write.apply_update, List.map_map]
    refine List.map_congr_left fun r hr => ?_
    rw [Function.comp_apply]
    split
    · rename_i hkey
      obtain rfl := hV.key_eq (t := .tenantModules) hr htm hkey
      rw [TenantModule.mk.injEq]
      exact ⟨rfl, rfl, rfl, hon, rfl, rfl⟩
    · rfl
  funext t
  by_cases ht : t = .tenantModules
  · subst ht
    rw [timeless, timeless, Function.update_self, Function.update_self]
    exact hrows
  · rw [timeless, timeless, Function.update_of_ne ht, Function.update_of_ne ht, enabling_other ht]

end Enabling

/-- `set_module` enables the module for the tenant. -/
theorem setLicense_upserts {t : Tenant} {code : ModuleCode} (h : At g D V [] st)
    (hV : Constrained V) (ht : t ∈ V .tenants) :
    Upserts env g D Keeps (setLicense env s t.id code true)
      (fun V => Reached V (.licence t.slug code)) (fun _ _ => True) st := by
  refine upserts_of_ends h ?_
  have hreached : Reached V (.licence t.slug code) ↔ Licensed V t.id code :=
    ofTenant_iff (P := fun tid => Licensed V tid code) hV ht rfl
  refine .bind_ok (h.query (.inr (by decide)) _) ?_
  have hmodule : ∀ a b : Module, decide (a.code = code.value) = true →
      decide (b.code = code.value) = true → ¬ Apart .modules a b := by
    intro a b ha hb hab
    exact (apart_modules.mp hab).2 ((of_decide_eq_true ha).trans (of_decide_eq_true hb).symm)
  obtain ⟨hrows, hnone⟩ | ⟨m, hm, hmcode, hrows⟩ := hV.found (t := .modules) hmodule
  · rw [hrows]
    refine .bind_ok rfl (.raise ?_)
    rw [hreached]
    rintro ⟨m, hm, hmcode, -⟩
    exact of_decide_eq_false (hnone m hm) hmcode
  · rw [hrows]
    replace hmcode := of_decide_eq_true hmcode
    refine .bind_ok rfl (.bind_ok (h.query (.inr (by decide)) _) ?_)
    have hlicence : ∀ a b : TenantModule,
        (decide (a.tenantId = t.id) && decide (a.moduleId = m.id)) = true →
        (decide (b.tenantId = t.id) && decide (b.moduleId = m.id)) = true →
        ¬ Apart .tenantModules a b := by
      intro a b ha hb hab
      rw [Bool.and_eq_true, decide_eq_true_iff, decide_eq_true_iff] at ha hb
      exact (apart_tenantModules.mp hab).2 (ha.1.trans hb.1.symm) (ha.2.trans hb.2.symm)
    obtain ⟨hrows, hnone⟩ | ⟨tm, htm, htmkeys, hrows⟩ := hV.found (t := .tenantModules) hlicence
    · -- a new licence
      rw [hrows]
      have hmissing : ¬ Reached V (.licence t.slug code) := by
        rw [hreached]
        rintro ⟨m', hm', hmcode', tm, htm, htenant, hmid, -⟩
        obtain rfl := hV.module_eq hm' hm (hmcode'.trans hmcode.symm)
        have hno := hnone tm htm
        rw [htenant, hmid] at hno
        simp at hno
      obtain ⟨s₁, hnow, h₁⟩ := @At.now env _ _ _ _ _ h
      obtain ⟨s₂, hid, h₂⟩ := @At.uuid4 env _ _ _ _ _ h₁
      let tm : TenantModule :=
        { id := s₁.1.nextUuid, tenantId := t.id, moduleId := m.id, enabled := true,
          enabledAt := some (env.clock st.1.ticks) }
      obtain ⟨s₃, hadd, h₃⟩ := @At.add env _ _ _ _ .tenantModules _ h₂ tm
      refine .bind_ok rfl (.bind (.bind_ok hnow (.bind_ok hid (.of_ok hadd (.bind ?_)))))
      refine (flush_upserts h₃ hV (by simp) fun _ _ _ => hmissing).mono (fun _ s₄ => ?_)
        fun _ _ => id
      rintro ⟨h₄, hV', hkeeps⟩
      obtain ⟨s₅, hinvalidate, h₅⟩ := @invalidate_at env _ _ _ _ _ h₄ t.id
      have hmem : tm ∈ wrote V ([⟨.tenantModules, tm⟩].map inserting) .tenantModules :=
        mem_wrote_inserting.mpr (.inr ⟨_, List.mem_cons_self, rfl⟩)
      have hmem' : m ∈ wrote V ([⟨.tenantModules, tm⟩].map inserting) .modules :=
        mem_wrote_inserting.mpr (.inl hm)
      refine .of_ok hinvalidate ⟨_, h₅, hV', hkeeps, ?_, trivial,
        fun hgoal => absurd hgoal hmissing⟩
      exact ⟨t, hkeeps.tenants t ht, rfl, m, hmem', hmcode, tm, hmem, rfl, rfl, rfl⟩
    · -- the licence is there, and is enabled now
      rw [hrows]
      rw [Bool.and_eq_true, decide_eq_true_iff, decide_eq_true_iff] at htmkeys
      obtain ⟨s₁, hnow, h₁⟩ := @At.now env _ _ _ _ _ h
      obtain ⟨s₂, hupdate, h₂⟩ := @At.update env _ _ _ _ .tenantModules _ h₁ (.inr (by decide)) hV
        tm htm tm.id rfl s (fun r => { r with
          enabled := true, enabledAt := some (env.clock st.1.ticks) }) rfl
      refine .bind_ok rfl (.bind (.bind_ok hnow (.of_ok hupdate (.bind ?_))))
      refine (flush_at h₂ fun _ _ hne => absurd rfl hne).mono (fun _ s₃ => ?_) fun _ _ => id
      rintro ⟨h₃, -, -⟩
      obtain ⟨s₄, hinvalidate, h₄⟩ := @invalidate_at env _ _ _ _ _ h₃ t.id
      have hkeeps : Keeps V (enabling V tm (env.clock st.1.ticks)) := keeps_enabling hV htm
      have hmem : m ∈ enabling V tm (env.clock st.1.ticks) .modules :=
        (enabling_other (t := .modules) (by decide)).symm ▸ hm
      refine .of_ok hinvalidate ⟨_, h₄, hV.licence_rewritten htm rfl rfl rfl, hkeeps,
        ⟨t, hkeeps.tenants t ht, rfl, m, hmem, hmcode, _, (mem_enabling hV htm).mpr (.inl rfl),
          htmkeys.1, htmkeys.2, rfl⟩, trivial, fun hgoal => ?_⟩
      -- it was enabled before
      obtain ⟨m', hm', hmcode', tm', htm', htenant, hmid, hon⟩ := hreached.mp hgoal
      obtain rfl := hV.module_eq hm' hm (hmcode'.trans hmcode.symm)
      obtain rfl := hV.licence_eq htm' htm (htenant.trans htmkeys.1.symm)
        (hmid.trans htmkeys.2.symm)
      exact same_enabling hV htm hon

end Seeding

end LmsBackend
