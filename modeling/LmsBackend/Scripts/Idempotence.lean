import LmsBackend.Core.Platform
import LmsBackend.Scripts.Accounts

/-!
# Seeding twice

What a later function of `scripts.seed` does undoes no goal of an earlier one. So all goals
hold after a run that returns, and a second run finds them reached.

- `seedContent_upserts`: the last function of the script.
- `upserts_bind`, `upserts_forEach`: functions and loops reach the goals of all their parts.
- `main_ends`, `main_closed`: how the script ends with row-level security, and without.
- `seed_idempotent`: the second run changes nothing but the instants of the licences.
-/

namespace LmsBackend

namespace Seeding

open Mvcc Seed

variable {env : Env} {g : Guc} {D V V' : Database Row} {ps : List (AnyRow Row)} {st : State}
  {s : Session} {α : Type} {F : Database Row → Database Row → Prop} {G : Database Row → Prop}
  {R : α → Database Row → Prop}

/-! ## Content -/

/-- Rows are being added to `V`, outside the permissions and the collections. -/
def Adding (g : Guc) (D V : Database Row) (st : State) : Prop :=
  ∃ V' ps, At g D V' ps st ∧ Constrained V' ∧ Keeps V V' ∧
    ∀ y ∈ ps, y.1 ≠ .permissions ∧ y.1 ≠ .rolePermissions ∧ y.1 ≠ .userRoles

section Adding

variable {t : Table} {r : Row t} {Q : α → State → Prop} {Q' : Unit → State → Prop}
  {E : Err → State → Prop}

theorem Adding.uuid4 {Q : Uuid → State → Prop} (h : Adding g D V st)
    (hrest : ∀ id s', Adding g D V s' → Q id s') : Ends env uuid4 st Q E := by
  obtain ⟨V', ps, hat, hV', hkeeps, hps⟩ := h
  obtain ⟨s', hrun, hat'⟩ := @At.uuid4 env _ _ _ _ _ hat
  exact .of_ok hrun (hrest _ s' ⟨V', ps, hat', hV', hkeeps, hps⟩)

theorem Adding.now {Q : Time → State → Prop} (h : Adding g D V st)
    (hrest : ∀ time s', Adding g D V s' → Q time s') : Ends env now st Q E := by
  obtain ⟨V', ps, hat, hV', hkeeps, hps⟩ := h
  obtain ⟨s', hrun, hat'⟩ := @At.now env _ _ _ _ _ hat
  exact .of_ok hrun (hrest _ s' ⟨V', ps, hat', hV', hkeeps, hps⟩)

theorem Adding.add (h : Adding g D V st)
    (ht : t ≠ .permissions ∧ t ≠ .rolePermissions ∧ t ≠ .userRoles)
    (hrest : ∀ s', Adding g D V s' → Q' () s') : Ends env (add t r) st Q' E := by
  obtain ⟨V', ps, hat, hV', hkeeps, hps⟩ := h
  obtain ⟨s', hrun, hat'⟩ := @At.add env _ _ _ _ t _ hat r
  refine .of_ok hrun (hrest s' ⟨V', _, hat', hV', hkeeps, fun y hy => ?_⟩)
  rcases List.mem_append.mp hy with hy | hy
  · exact hps y hy
  · rw [List.mem_singleton.mp hy]
    exact ht

theorem Adding.flush (h : Adding g D V st) (herror : ∀ e s', E e s')
    (hrest : ∀ s' V', At g D V' [] s' → Constrained V' → Keeps V V' → Q' () s') :
    Ends env flush st Q' E := by
  obtain ⟨V', ps, hat, hV', hkeeps, hps⟩ := h
  refine (flush_upserts hat hV' hps fun e s' _ => herror e s').mono (fun _ s' => ?_) fun _ _ => id
  rintro ⟨hat', hV'', hkeeps'⟩
  exact hrest s' _ hat' hV'' (hkeeps.trans hkeeps')

theorem Adding.repoAdd (h : Adding g D V st)
    (ht : t ≠ .permissions ∧ t ≠ .rolePermissions ∧ t ≠ .userRoles) (herror : ∀ e s', E e s')
    (hrest : ∀ s', Adding g D V s' → Q' () s') : Ends env (repoAdd t r) st Q' E :=
  .bind (h.add ht fun _ h' => h'.flush herror fun s' V' hat hV hkeeps =>
    hrest s' ⟨V', [], hat, hV, hkeeps, by simp⟩)

end Adding

/-- A course is added, and is there. -/
theorem Adding.course_added {c : Course} {tid : Uuid} {Q : Unit → State → Prop}
    {E : Err → State → Prop} (h : Adding g D V st) (herror : ∀ e s', E e s')
    (htenant : c.tenantId = tid)
    (hrest : ∀ s' V', At g D V' [] s' → Constrained V' → Keeps V V' →
      (∃ c ∈ V' .courses, c.tenantId = tid) → Q () s') :
    Ends env (LmsBackend.repoAdd .courses c) st Q E := by
  obtain ⟨V', ps, hat, hV', hkeeps, hps⟩ := h
  obtain ⟨s₁, hadd, h₁⟩ := @At.add env _ _ _ _ .courses _ hat c
  have hps₁ : ∀ y ∈ ps ++ [⟨.courses, c⟩],
      y.1 ≠ .permissions ∧ y.1 ≠ .rolePermissions ∧ y.1 ≠ .userRoles := by
    intro y hy
    rcases List.mem_append.mp hy with hy | hy
    · exact hps y hy
    · rw [List.mem_singleton.mp hy]
      exact ⟨Table.noConfusion, Table.noConfusion, Table.noConfusion⟩
  refine .bind_ok hadd ((flush_upserts h₁ hV' hps₁ fun e s' _ => herror e s').mono
    (fun _ s' => ?_) fun _ _ => id)
  rintro ⟨hat', hV'', hkeeps'⟩
  refine hrest s' _ hat' hV'' (hkeeps.trans hkeeps') ⟨schema.coerce .courses c, ?_, htenant⟩
  exact mem_wrote_inserting.mpr (.inr ⟨_, List.mem_append_right _ (List.mem_singleton_self _), rfl⟩)

/-- The quiz of `seed_content` is added. -/
theorem seedQuiz_adds {tid cid : Uuid} (h : Adding g D V st) {Q : Unit → State → Prop}
    {E : Err → State → Prop} (herror : ∀ e s', E e s') (hrest : ∀ s', Adding g D V s' → Q () s') :
    Ends env (seedQuiz s tid cid) st Q E := by
  refine .bind (h.uuid4 fun assignment s₁ h₁ => .bind (h₁.repoAdd (by decide) herror
    fun s₂ h₂ => ?_))
  refine .bind (h₂.uuid4 fun quiz s₃ h₃ => .bind (h₃.repoAdd (by decide) herror fun s₄ h₄ => ?_))
  refine .bind (h₄.uuid4 fun question s₅ h₅ => .bind (h₅.repoAdd (by decide) herror
    fun s₆ h₆ => ?_))
  refine .bind (h₆.uuid4 fun _ s₇ h₇ => .bind (h₇.add (by decide) fun s₈ h₈ => ?_))
  refine .bind (h₈.uuid4 fun _ s₉ h₉ => .bind (h₉.add (by decide) fun s₁₀ h₁₀ => ?_))
  exact .bind (h₁₀.uuid4 fun _ s₁₁ h₁₁ => h₁₁.add (by decide) hrest)

/-- `seed_content` gives the tenant a course where it has none. -/
theorem seedContent_upserts {t : Tenant} (hopen : ∀ t, Open g t) (h : At g D V [] st)
    (hV : Constrained V) (ht : t ∈ V .tenants) (hgoal : .content t.slug ∈ goals) :
    Upserts env g D Keeps (seedContent s t) (fun V => Reached V (.content t.slug))
      (fun _ _ => True) st := by
  refine upserts_of_ends h ?_
  have hreached : Reached V (.content t.slug) ↔ ∃ c ∈ V .courses, c.tenantId = t.id :=
    ofTenant_iff (P := fun tid => ∃ c ∈ V .courses, c.tenantId = tid) hV ht rfl
  refine .bind_ok (h.query (hopen _) _) ?_
  by_cases hcourses : (V .courses).filter (fun c => decide (c.tenantId = t.id)) = []
  · rw [if_neg (not_not.mpr hcourses)]
    have hmissing : ¬ Reached V (.content t.slug) := by
      rw [hreached]
      rintro ⟨c, hc, htenant⟩
      exact List.filter_eq_nil_iff.mp hcourses c hc (decide_eq_true htenant)
    have herror : ∀ (e : Err) (s' : State), ¬ Reached V (.content t.slug) := fun _ _ => hmissing
    have hstart : Adding g D V st := ⟨V, [], h, hV, .refl V, by simp⟩
    refine .bind (hstart.uuid4 fun category s₁ h₁ => .bind (h₁.repoAdd (by decide) herror
      fun s₂ h₂ => .bind (h₂.now fun publishedAt s₃ h₃ => .bind (h₃.uuid4 fun course s₄ h₄ => ?_))))
    refine .bind (h₄.course_added herror rfl fun s₅ V₅ h₅ hV₅ hkeeps₅ hcourse => ?_)
    have hreached₅ : Reached V₅ (.content t.slug) := ⟨t, hkeeps₅.tenants t ht, rfl, hcourse⟩
    replace h₅ : Adding g D V₅ s₅ := ⟨V₅, [], h₅, hV₅, .refl V₅, by simp⟩
    refine .bind (h₅.uuid4 fun module s₆ h₆ => .bind (h₆.repoAdd (by decide) herror
      fun s₇ h₇ => ?_))
    refine .bind (h₇.uuid4 fun _ s₈ h₈ => .bind (h₈.add (by decide) fun s₉ h₉ => ?_))
    refine .bind (h₉.uuid4 fun _ s₁₀ h₁₀ => .bind (h₁₀.add (by decide) fun s₁₁ h₁₁ => ?_))
    refine .bind (h₁₁.flush herror fun s₁₂ V₁₂ h₁₂ hV₁₂ hkeeps₁₂ => ?_)
    have hrest : ∀ s', Adding g D V₅ s' → Ends env flush s' (fun _ s' => ∃ V', Upserted g D Keeps
        (fun V => Reached V (.content t.slug)) (fun _ _ => True) V () s' V')
        fun _ _ => ¬ Reached V (.content t.slug) := by
      refine fun s' h' => h'.flush herror fun s'' V'' h'' hV'' hkeeps'' => ⟨V'', h'', hV'',
        hkeeps₅.trans hkeeps'', ?_, trivial, fun hreached => absurd hreached hmissing⟩
      exact hkeeps''.goals _ hgoal hreached₅
    have h₁₂' : Adding g D V₅ s₁₂ := ⟨V₁₂, [], h₁₂, hV₁₂, hkeeps₁₂, by simp⟩
    dsimp only
    split
    · exact .bind (seedQuiz_adds h₁₂' herror hrest)
    · exact hrest s₁₂ h₁₂'
  · rw [if_pos hcourses]
    obtain ⟨c, hc⟩ := List.exists_mem_of_ne_nil _ hcourses
    have hmem := List.mem_filter.mp hc
    refine .ret ⟨V, h, hV, .refl V, hreached.mpr ⟨c, hmem.1, of_decide_eq_true hmem.2⟩, trivial,
      fun _ => Same.refl V⟩

/-! ## The script -/

/-- All these goals are reached. -/
def AllReached (xs : List Goal) (V : Database Row) : Prop := ∀ x ∈ xs, Reached V x

theorem Keeps.allReached {xs : List Goal} (h : Keeps V V') (hxs : ∀ x ∈ xs, x ∈ Seeding.goals)
    (hall : AllReached xs V) : AllReached xs V' := fun x hx => h.goals x (hxs x hx) (hall x hx)

section Sequences

variable {β : Type} {F₁ F₂ : Database Row → Database Row → Prop} {xs ys : List Goal}
  {R₁ : α → Database Row → Prop} {R₂ : β → Database Row → Prop}

/-- One function after the other. -/
theorem upserts_bind {p : M α} {f : α → M β} (h : At g D V [] st)
    (hp : Upserts env g D F₁ p (AllReached xs) R₁ st)
    (hf : ∀ a s' V', At g D V' [] s' → Constrained V' → F₁ V V' → R₁ a V' →
      Upserts env g D F₂ (f a) (AllReached ys) R₂ s')
    (hkeep : ∀ V V', F₂ V V' → AllReached xs V → AllReached xs V')
    (hF : ∀ V V' V'', F₁ V V' → F₂ V' V'' → F V V'') (hys : ∀ x ∈ ys, x ∈ goals) :
    Upserts env g D F (p.bind f) (AllReached (xs ++ ys)) R₂ st := by
  have hseq : Upserts env g D F (p.bind f) (fun V => AllReached xs V ∧ AllReached ys V) R₂ st := by
    refine Prog.Establishes.bind hp (fun a s' h' => ?_) (fun _ _ => hkeep _ _)
      (fun _ _ _ => hF _ _ _) (fun _ _ hsame => hsame.keeps.allReached hys)
      fun _ _ _ => Same.trans
    obtain ⟨V', hat, hV'⟩ := h'.inv
    have hframe := h'.frame
    have hvalue := h'.value
    rw [h.viewed, hat.viewed] at hframe
    rw [hat.viewed] at hvalue
    exact hf a s' V' hat hV' hframe hvalue
  exact hseq.restate fun s => List.forall_mem_append.symm

/-- One function after the other, where neither undoes a goal. -/
theorem upserts_seq {p : M α} {f : α → M β} (h : At g D V [] st)
    (hp : Upserts env g D Keeps p (AllReached xs) R₁ st)
    (hf : ∀ a s' V', At g D V' [] s' → Constrained V' → Keeps V V' → R₁ a V' →
      Upserts env g D Keeps (f a) (AllReached ys) R₂ s')
    (hxs : ∀ x ∈ xs, x ∈ goals) (hys : ∀ x ∈ ys, x ∈ goals) :
    Upserts env g D Keeps (p.bind f) (AllReached (xs ++ ys)) R₂ st :=
  upserts_bind h hp hf (fun _ _ hkeeps => hkeeps.allReached hxs) (fun _ _ _ => Keeps.trans) hys

/-- A loop over the elements, each with a goal of its own. -/
theorem upserts_forEach {bs : List β} {f : β → M Unit} {goal : β → Goal} (h : At g D V [] st)
    (hV : Constrained V) (hgoals : ∀ b ∈ bs, goal b ∈ goals)
    (hstep : ∀ b ∈ bs, ∀ s' V', At g D V' [] s' → Constrained V' → Keeps V V' →
      Upserts env g D Keeps (f b) (fun V => Reached V (goal b)) (fun _ _ => True) s') :
    Upserts env g D Keeps (Prog.forEach bs f) (AllReached (bs.map goal)) (fun _ _ => True) st := by
  have hloop : Upserts env g D Keeps (Prog.forEach bs f) (fun V => ∀ b ∈ bs, Reached V (goal b))
      (fun _ _ => True) st := by
    refine Prog.Establishes.forEach (fun b hb s' hI hkeeps => ?_)
      (fun b hb _ _ hkeeps => hkeeps.goals _ (hgoals b hb)) (fun s => .refl (viewed s))
      (fun _ _ _ => Keeps.trans) (fun b hb _ _ hsame => hsame.keeps.goals _ (hgoals b hb))
      (fun s => .refl (viewed s)) (fun _ _ _ => Same.trans) ⟨V, h, hV⟩
    obtain ⟨V', hat, hV'⟩ := hI
    rw [h.viewed, hat.viewed] at hkeeps
    exact hstep b hb s' V' hat hV' hkeeps
  exact hloop.restate fun s => List.forall_mem_map.symm

end Sequences

/-- A tenant of the seed that the script holds in hand. -/
def TenantOf (seed : TenantSeed) (t : Tenant) (V : Database Row) : Prop :=
  t ∈ V .tenants ∧ t.slug = seed.slug

/-- A function that has nothing left to do. -/
theorem upserts_ret {a : α} (h : At g D V [] st) (hV : Constrained V) (ha : R a V) :
    Upserts env g D Keeps (.ret a) (AllReached []) R st :=
  upserts_of_ends h (.ret ⟨V, h, hV, .refl V, fun _ hx => absurd hx List.not_mem_nil, ha,
    fun _ => Same.refl V⟩)

/-- What `seed_tenant` does is among the goals of the script. -/
theorem mem_goals_of_tenant {seed : TenantSeed} (hseed : seed ∈ tenants) {x : Goal}
    (hx : x ∈ tenantGoals seed) : x ∈ goals :=
  List.mem_append_right _ (List.mem_append_right _ (List.mem_append_left _
    (List.mem_flatMap.mpr ⟨seed, hseed, hx⟩)))

/-- `seed_tenant` licenses the modules of the seed. -/
theorem licences_upserts {seed : TenantSeed} {t : Tenant} (h : At g D V [] st)
    (hV : Constrained V) (hseed : seed ∈ tenants) (ht : TenantOf seed t V) :
    Upserts env g D Keeps
      (Prog.forEach seed.modules fun code => setLicense env s t.id code true)
      (AllReached (seed.modules.map (.licence seed.slug))) (fun _ _ => True) st := by
  obtain ⟨ht, hslug⟩ := ht
  refine upserts_forEach h hV (fun code hcode => mem_goals_of_tenant hseed ?_)
    fun code _ s' V' h' hV' hkeeps' => ?_
  · exact List.mem_append_right _ (List.mem_append_left _ (List.mem_map_of_mem hcode))
  · rw [← hslug]
    exact setLicense_upserts h' hV' (hkeeps'.tenants t ht)

/-- `seed_tenant` reaches the goals for the tenant. -/
theorem seedTenant_upserts {seed : TenantSeed} (hopen : ∀ t, Open g t) (h : At g D V [] st)
    (hV : Constrained V) (hseed : seed ∈ tenants) :
    Upserts env g D Keeps (seedTenant env s (V .permissions) seed) (AllReached (tenantGoals seed))
      (TenantOf seed) st := by
  have hgoals : ∀ x ∈ tenantGoals seed, x ∈ goals := fun x => mem_goals_of_tenant hseed
  have hlicences : ∀ x ∈ seed.modules.map (Goal.licence seed.slug), x ∈ goals := fun x hx =>
    hgoals x (List.mem_append_right _ (List.mem_append_left _ hx))
  have hroles : ∀ x ∈ RoleCode.all.map (Goal.role seed.slug), x ∈ goals := fun x hx =>
    hgoals x (List.mem_append_right _ (List.mem_append_right _ (List.mem_append_left _ hx)))
  have husers : ∀ x ∈ (accounts seed.slug).map (Goal.user seed.slug), x ∈ goals := fun x hx =>
    hgoals x (List.mem_append_right _ (List.mem_append_right _ (List.mem_append_right _ hx)))
  have htenant : ∀ x ∈ [Goal.tenant seed.slug], x ∈ goals := fun x hx =>
    hgoals x (List.mem_append_left _ hx)
  have hrow : Upserts env g D Keeps (seedTenantRow seed) (AllReached [.tenant seed.slug])
      (TenantOf seed) st := (seedTenantRow_upserts h hV).restate
    fun s => (List.forall_mem_singleton (p := Reached (viewed s))).symm
  refine upserts_seq h hrow (fun t s₁ V₁ h₁ hV₁ hkeeps₁ ht₁ => ?_) htenant
    fun x hx => hgoals x (List.mem_append_right _ hx)
  refine upserts_seq h₁ (licences_upserts h₁ hV₁ hseed ht₁)
    (fun _ s₂ V₂ h₂ hV₂ hkeeps₂ _ => ?_) hlicences fun x hx => hgoals x (List.mem_append_right _
      (List.mem_append_right _ hx))
  obtain ⟨ht₁, hslug⟩ := ht₁
  have ht₂ := hkeeps₂.tenants t ht₁
  have hrolesStep : Upserts env g D Keeps (seedRoles (V₂ .permissions) t.id)
      (AllReached (RoleCode.all.map (.role seed.slug))) (RolesOf t) s₂ := by
    refine (seedRoles_upserts (hopen _) h₂ hV₂ ht₂).restate fun s => ?_
    rw [AllReached, List.forall_mem_map, hslug]
    exact ⟨fun hall rc _ => hall rc, fun hall rc => hall rc (by cases rc <;> decide)⟩
  rw [hkeeps₂.permissions, hkeeps₁.permissions] at hrolesStep
  refine upserts_seq h₂ hrolesStep (fun roles s₃ V₃ h₃ hV₃ hkeeps₃ hof => ?_) hroles husers
  have ht₃ := hkeeps₃.tenants t ht₂
  rw [← List.append_nil ((accounts seed.slug).map (Goal.user seed.slug))]
  refine upserts_seq h₃ (upserts_forEach h₃ hV₃ (fun a ha => husers _ (List.mem_map_of_mem ha))
      fun a ha s' V' h' hV' hkeeps' => ?_)
    (fun _ s₄ V₄ h₄ hV₄ hkeeps₄ _ => ?_) husers fun _ hx => absurd hx List.not_mem_nil
  · obtain ⟨hrole, hrtenant, hrcode⟩ := hof a.role
    exact seedUser_upserts hopen h' hV' hseed (hkeeps'.tenants t ht₃) hslug ha
      (hkeeps'.roles _ hrole) hrtenant hrcode
  · exact upserts_ret h₄ hV₄ ⟨hkeeps₄.tenants t ht₃, hslug⟩

/-- The tenants, one after the other: the induction is over those still to come. -/
theorem seedTenants_upserts {seeds : List TenantSeed} (hopen : ∀ t, Open g t)
    (h : At g D V [] st) (hV : Constrained V) (hseeds : ∀ seed ∈ seeds, seed ∈ tenants) :
    Upserts env g D Keeps (seedTenants env s (V .permissions) seeds)
      (AllReached (seeds.flatMap tenantGoals))
      (fun ts V => ts.map (·.slug) = seeds.map (·.slug) ∧ ∀ t ∈ ts, t ∈ V .tenants) st := by
  induction seeds generalizing V st with
  | nil => exact upserts_ret h hV ⟨rfl, fun _ ht => absurd ht List.not_mem_nil⟩
  | cons seed seeds ih =>
    have hseed := hseeds seed List.mem_cons_self
    have hrest : ∀ seed' ∈ seeds, seed' ∈ tenants := fun seed' hmem =>
      hseeds seed' (List.mem_cons_of_mem seed hmem)
    have hgoals : ∀ x ∈ seeds.flatMap tenantGoals, x ∈ goals := by
      intro x hx
      obtain ⟨seed', hseed', hx⟩ := List.mem_flatMap.mp hx
      exact mem_goals_of_tenant (hrest seed' hseed') hx
    rw [List.flatMap_cons]
    refine upserts_seq h (seedTenant_upserts hopen h hV hseed)
      (fun t s₁ V₁ h₁ hV₁ hkeeps₁ ht₁ => ?_) (fun x => mem_goals_of_tenant hseed) hgoals
    have hstep := ih h₁ hV₁ hrest
    rw [hkeeps₁.permissions] at hstep
    rw [← List.append_nil (seeds.flatMap tenantGoals)]
    refine upserts_seq h₁ hstep (fun ts s₂ V₂ h₂ hV₂ hkeeps₂ hts => upserts_ret h₂ hV₂ ⟨?_, ?_⟩)
      hgoals fun _ hx => absurd hx List.not_mem_nil
    · rw [List.map_cons, List.map_cons, ht₁.2, hts.1]
    · exact List.forall_mem_cons.mpr ⟨hkeeps₂.tenants t ht₁.1, hts.2⟩

/-- What `main` does in its transaction. -/
def script (env : Env) (s : Session) : M Unit := do
  seedModules
  let perms ← seedPermissions
  let seeded ← seedTenants env s perms tenants
  Prog.forEach seeded (seedContent s)

theorem main_eq : main env = tenantSession env none true (script env) := rfl

/-- The script reaches its goals. -/
theorem script_upserts (hopen : ∀ t, Open g t) (h : At g D V [] st) (hV : Constrained V) :
    Upserts env g D (fun _ _ => True) (script env s) (AllReached goals) (fun _ _ => True) st := by
  have hmodules : Upserts env g D (fun _ _ => True) seedModules
      (AllReached (allModuleCodes.map .module)) (fun _ _ => True) st :=
    (seedModules_upserts h hV).restate fun s => List.forall_mem_map.symm
  refine upserts_bind h hmodules (fun _ s₁ V₁ h₁ hV₁ _ _ => ?_)
    (fun V V' (hstay : ModulesStay V V') hall => ?_) (fun _ _ _ _ _ => trivial)
    fun x => List.mem_append_right _
  · have hpermissions : Upserts env g D ModulesStay seedPermissions
        (AllReached (allPermissions.map .permission)) (fun perms V => perms = V .permissions) s₁ :=
      (seedPermissions_upserts h₁ hV₁).restate fun s => List.forall_mem_map.symm
    have hrest : ∀ x ∈ tenants.flatMap tenantGoals ++ tenants.map fun seed => .content seed.slug,
        x ∈ goals := fun x hx => List.mem_append_right _ (List.mem_append_right _ hx)
    have hcontent : ∀ seed ∈ tenants, Goal.content seed.slug ∈ goals := fun seed hseed =>
      hrest _ (List.mem_append_right _ (List.mem_map_of_mem hseed))
    refine upserts_bind h₁ hpermissions (fun perms s₂ V₂ h₂ hV₂ _ hperms => ?_)
      (fun V V' (hkeeps : Keeps V V') => hkeeps.allReached fun x hx => List.mem_append_right _
        (List.mem_append_left _ hx))
      (fun V V' V'' hstay hkeeps code hcode hreached =>
        hkeeps.modulesStay code hcode (hstay code hcode hreached)) hrest
    subst hperms
    refine upserts_seq h₂ (seedTenants_upserts hopen h₂ hV₂ fun _ => id)
      (fun ts s₃ V₃ h₃ hV₃ _ hts => ?_) (fun x hx => hrest x (List.mem_append_left _ hx))
      fun x hx => hrest x (List.mem_append_right _ hx)
    obtain ⟨hslugs, hmem⟩ := hts
    have hgoal : ∀ t ∈ ts, Goal.content t.slug ∈ goals := by
      intro t ht
      have hslug : t.slug ∈ tenants.map (·.slug) := hslugs ▸ List.mem_map_of_mem ht
      obtain ⟨seed, hseed, heq⟩ := List.mem_map.mp hslug
      rw [← heq]
      exact hcontent seed hseed
    have hcontents : (tenants.map fun seed => Goal.content seed.slug) =
        ts.map fun t => .content t.slug := by
      have hmap := congrArg (List.map Goal.content) hslugs
      rw [List.map_map, List.map_map] at hmap
      exact hmap.symm
    rw [hcontents]
    exact upserts_forEach h₃ hV₃ hgoal fun t ht s' V' h' hV' hkeeps' =>
      seedContent_upserts hopen h' hV' (hkeeps'.tenants t (hmem t ht)) (hgoal t ht)
  · exact List.forall_mem_map.mpr fun code hcode =>
      hstay code hcode (List.forall_mem_map.mp hall code hcode)

/-- The transaction of the script when it has just begun. -/
theorem at_start (w : World) :
    At (boundTx env none true).guc w.db w.db [] (w.tick, [boundTx env none true]) :=
  ⟨w.tick, boundTx env none true, rfl, rfl, rfl, rfl, view_nil schema w.db rfl⟩

/-- With row-level security on, the script reaches its goals and fails only where they are not
reached yet. Where they are, it changes the instants of the licences at most. -/
theorem main_ends {w : World} (hrls : env.settings.enableRowLevelSecurity = true)
    (hdb : Constrained w.db) :
    Ends env (main env) (w, []) (fun _ s' => ∃ w', s' = (w', []) ∧ Constrained w'.db ∧
        AllReached goals w'.db ∧ (AllReached goals w.db → Same w.db w'.db))
      fun _ _ => ¬ AllReached goals w.db := by
  have hopen : ∀ t, Open (boundTx env none true).guc t := by
    intro t
    rw [boundTx, if_pos hrls]
    exact .inl rfl
  have hstart := @at_start env w
  rw [main_eq]
  refine tenantSession_ends (P := fun _ w' => Constrained w'.db ∧ AllReached goals w'.db ∧
    (AllReached goals w.db → Same w.db w'.db)) (E := fun _ _ => ¬ AllReached goals w.db) ?_
  refine Prog.Ends.mono (script_upserts hopen hstart hdb) (fun _ s' h' => ?_) fun _ _ herror => ?_
  · obtain ⟨V', hat, hV'⟩ := h'.inv
    have hgoal := h'.goal
    have hkept := h'.kept
    rw [hstart.viewed, hat.viewed] at hkept
    rw [hat.viewed] at hgoal
    obtain ⟨w', tx', rfl, hdb', -, hp, rfl⟩ := hat
    rw [← hdb'] at hV' hgoal
    rw [← congrArg (view schema · tx') hdb'] at hkept
    exact .intro hp ⟨hV', hgoal, hkept⟩
  · have hstarted : ¬ AllReached goals (viewed (w.tick, [boundTx env none true])) := herror
    rwa [hstart.viewed] at hstarted

/-! ## Without row-level security -/

/-- The settings let no role through. -/
def Closed (g : Guc) : Prop := ∀ r : Role, schema.policy g .roles r = false

/-- No role is found, so a new one waits. -/
theorem seedRole_closed {perms : List Permission} {tid : Uuid} {rc : RoleCode} (hclosed : Closed g)
    (h : At g D V ps st) :
    Ends env (seedRole perms tid rc) st
      (fun _ s' => ∃ r : Role, At g D V (ps ++ [⟨.roles, r⟩]) s') fun _ _ => False := by
  obtain ⟨w, tx, rfl, hdb, hguc, hps, hview⟩ := h
  have hrows : seen w tx .roles = [] := by
    subst hguc
    exact List.filter_eq_nil_iff.mpr fun r _ => by simp [hclosed r]
  refine .bind_ok (runM_query w tx [] .roles _) ?_
  rw [hrows]
  obtain ⟨s₁, hid, h₁⟩ := @At.uuid4 env _ _ _ _ _ ⟨w, tx, rfl, hdb, hguc, hps, hview⟩
  let role : Role := { id := w.nextUuid, tenantId := tid, code := rc.value, name := roleName rc }
  obtain ⟨s₂, hadd, h₂⟩ := @At.add env _ _ _ _ .roles _ h₁ role
  exact .bind_ok rfl (.bind_ok rfl (.bind_ok hid (.bind_ok hadd (.ret ⟨role, h₂⟩))))

/-- The new roles are refused. -/
theorem seedRoles_closed {perms : List Permission} {tid : Uuid} (hclosed : Closed g)
    (h : At g D V [] st) :
    Ends env (seedRoles perms tid) st (fun _ _ => False) fun _ _ => True := by
  refine .bind (.bind ((seedRole_closed hclosed h).mono (fun _ s₁ => ?_) fun _ _ => False.elim))
  rintro ⟨r₁, h₁⟩
  refine .bind ((seedRole_closed hclosed h₁).mono (fun _ s₂ => ?_) fun _ _ => False.elim)
  rintro ⟨r₂, h₂⟩
  refine .bind ((seedRole_closed hclosed h₂).mono (fun _ s₃ => ?_) fun _ _ => False.elim)
  rintro ⟨r₃, h₃⟩
  refine .bind ((seedRole_closed hclosed h₃).mono (fun _ s₄ => ?_) fun _ _ => False.elim)
  rintro ⟨r₄, h₄⟩
  refine .ret (.bind ((flush_at h₄ fun _ _ _ => trivial).mono (fun _ s₅ => ?_) fun _ _ => id))
  rintro ⟨-, -, hpolicy⟩
  have hfirst := hpolicy ⟨.roles, r₁⟩ (by simp)
  rw [hclosed] at hfirst
  cases hfirst

/-- Where the settings let no role through, the script fails at the first tenant's roles. -/
theorem script_closed (hclosed : Closed g) (h : At g D V [] st) (hV : Constrained V) :
    Ends env (script env s) st (fun _ _ => False) fun _ _ => True := by
  refine .bind (Prog.Ends.mono (seedModules_upserts h hV) (fun _ s₁ h₁ => ?_) fun _ _ _ => trivial)
  obtain ⟨V₁, h₁, hV₁⟩ := h₁.inv
  refine .bind (Prog.Ends.mono (seedPermissions_upserts h₁ hV₁) (fun perms s₂ h₂ => ?_)
    fun _ _ _ => trivial)
  obtain ⟨V₂, h₂, hV₂⟩ := h₂.inv
  refine .bind (.bind (.bind (Prog.Ends.mono (seedTenantRow_upserts h₂ hV₂) (fun t s₃ h₃ => ?_)
    fun _ _ _ => trivial)))
  have ht := h₃.value
  obtain ⟨V₃, h₃, hV₃⟩ := h₃.inv
  rw [h₃.viewed] at ht
  refine .bind (Prog.Ends.mono (licences_upserts h₃ hV₃ List.mem_cons_self ht)
    (fun _ s₄ h₄ => ?_) fun _ _ _ => trivial)
  obtain ⟨V₄, h₄, -⟩ := h₄.inv
  exact .bind ((seedRoles_closed hclosed h₄).mono (fun _ _ => False.elim) fun _ _ => id)

/-- Without row-level security the session does not bypass the policies, and the script
fails. -/
theorem main_closed {w : World} (hrls : env.settings.enableRowLevelSecurity = false)
    (hdb : Constrained w.db) : Ends env (main env) (w, []) (fun _ _ => False) fun _ _ => True := by
  have hclosed : Closed (boundTx env none true).guc := by
    intro r
    have hoff : ¬ env.settings.enableRowLevelSecurity = true := by simp [hrls]
    rw [boundTx, if_neg hoff]
    rfl
  rw [main_eq]
  refine (tenantSession_ends (P := fun _ _ => False) (E := fun _ _ => True) ?_).mono
    (fun _ s' hfalse => ?_) fun _ _ => id
  · exact (script_closed hclosed (at_start w) hdb).mono (fun _ _ => False.elim) fun _ _ => id
  · obtain ⟨-, -, hfalse⟩ := hfalse
    exact hfalse

/-! ## Idempotence -/

/-- After a run of the seed script that returns, a second one on the same database returns too,
and changes at most the instants at which licences were enabled. -/
theorem seed_idempotent {w v : World} {s' : State} (hdb : Constrained w.db)
    (hrun : runM env (main env) (w, []) = (.ok (), s')) (hv : v.db = s'.1.db) :
    ∃ v', runM env (main env) (v, []) = (.ok (), (v', [])) ∧ Same s'.1.db v'.db := by
  cases hrls : env.settings.enableRowLevelSecurity with
  | false => exact (Prog.Ends.ok (main_closed hrls hdb) hrun).elim
  | true =>
    obtain ⟨w', rfl, hdb', hgoals, -⟩ := Prog.Ends.ok (main_ends hrls hdb) hrun
    rw [← show v.db = w'.db from hv] at hdb' hgoals
    have hsecond := @main_ends env v hrls hdb'
    rcases hrun₂ : runM env (main env) (v, []) with ⟨r, s''⟩
    cases r with
    | error e => exact absurd hgoals (Prog.Ends.error hsecond hrun₂)
    | ok a =>
      obtain ⟨v', rfl, -, -, hsame⟩ := Prog.Ends.ok hsecond hrun₂
      rw [← hv]
      exact ⟨v', rfl, hsame hgoals⟩

namespace Again

def platform : Env := Env.reference {}

/-- After the script has run once. -/
def world : World :=
  { World.fresh 1 (Seed.database (platform.hash 0) 0 1).1 with
    nextUuid := (Seed.database (platform.hash 0) 0 1).2 }

/-- The script grants the permissions role by role, in the order of their identifiers. -/
theorem sorted_rolePermissions : ((world.db .rolePermissions).map fun rp =>
    1000 * rp.roleId + rp.permissionId).IsChain (· < ·) := by
  decide +kernel

theorem apart_others : ∀ t ∈ [Table.tenants, .modules, .tenantModules, .permissions, .userRoles,
    .users, .roles, .userSessions, .categories, .courses, .courseInstructors, .courseEnrollments,
    .courseModules, .lessons, .videoAssets, .documentAssets, .lessonProgress, .assignments,
    .quizzes, .quizQuestions, .quizAnswers, .submissions, .grades, .auditLogs],
    (world.db t).Pairwise (Apart t) := by
  decide +kernel

theorem constrained : Constrained world.db := by
  refine ⟨fun t => ?_, by decide +kernel, by decide +kernel⟩
  by_cases ht : t = .rolePermissions
  · subst ht
    have hsorted := List.isChain_iff_pairwise.mp sorted_rolePermissions
    rw [List.pairwise_map] at hsorted
    refine hsorted.imp fun {a b} hlt => apart_rolePermissions.mpr fun hrole hpermission => ?_
    rw [hrole, hpermission] at hlt
    exact lt_irrefl _ hlt
  · exact apart_others t (by cases t <;> first | exact absurd rfl ht | decide)

end Again

/-- On the seeded database the script runs twice more. -/
theorem seed_idempotent_again : ∃ s', runM Again.platform (main Again.platform)
      (Again.world, []) = (.ok (), s') ∧
    ∃ v', runM Again.platform (main Again.platform) (s'.1, []) = (.ok (), (v', [])) ∧
      Same s'.1.db v'.db := by
  have hok : (runM Again.platform (main Again.platform) (Again.world, [])).1.toBool = true := by
    decide +kernel
  rcases hrun : runM Again.platform (main Again.platform) (Again.world, []) with ⟨r, s'⟩
  rw [hrun] at hok
  cases r with
  | error e => cases hok
  | ok a => exact ⟨s', rfl, seed_idempotent Again.constrained hrun rfl⟩

end Seeding

end LmsBackend
