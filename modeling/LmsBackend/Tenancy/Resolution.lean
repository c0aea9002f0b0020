import LmsBackend.Isolation.Gateway
import LmsBackend.Licensing.Toggle

/-!
# Resolving a tenant

`resolve_tenant_id` takes a text that `uuid.UUID` accepts as an identifier, and any other
text as a slug, which it looks up in the cache and then in the database.

- `Resolved`: what a lookup of a slug finds, and what it leaves in the cache.
- `resolution_sound_iff`: what is resolved is an active tenant that is not deleted, exactly
  if every text of an identifier belongs to one.
- `Provisioning`: runs of `create_tenant`, with resolutions in between.
- `tenant_resolves_iff`: a provisioned tenant is found by its slug, exactly if the slug is
  not the text of another identifier.
-/

namespace LmsBackend

open Mvcc

variable {env : Env} {w w' w₀ : World} {txs : List Tx} {identifier : String}

/-! ## Slugs -/

/-- Active and not deleted. -/
structure Tenant.Live (t : Tenant) : Prop where
  active : t.isActive = true
  undeleted : t.deletedAt = none

/-- What a lookup of a slug finds, and what it leaves. -/
structure Resolved (w : World) (slug : String) (r : Option Uuid) (w' : World) : Prop where
  found : ∀ tid ∈ r, ∃ t ∈ w.db .tenants, t.id = tid ∧ t.Live ∧ t.slug = slug
  missing : r = none → ∀ t ∈ w.db .tenants, t.slug = slug → ¬ t.Live
  db : w'.db = w.db
  cache : ∀ i e, w'.redis (.slug i) = some e →
    w.redis (.slug i) = some e ∨ i = slug ∧ ∃ tid ∈ r, e.value = .uuid tid

/-- The undeleted tenants with the slug. -/
def bySlug (w : World) (slug : String) : List Tenant :=
  (w.db .tenants).filter fun t => t.slug = slug && t.deletedAt.isNone

theorem mem_bySlug {slug : String} {t : Tenant} :
    t ∈ bySlug w slug ↔ t ∈ w.db .tenants ∧ t.slug = slug ∧ t.deletedAt = none := by
  rw [bySlug, List.mem_filter, Bool.and_eq_true, decide_eq_true_iff, Option.isNone_iff_eq_none]

theorem runM_getTenantBySlug (slug : String) :
    runM env (getTenantBySlug slug) (w, boundTx env none true :: txs) =
      (scalar (bySlug w slug), (w, boundTx env none true :: txs)) := by
  have hseen : seen w (boundTx env none true) .tenants = w.db .tenants :=
    seen_platform (by decide) rfl
  rw [bySlug, ← hseen]
  exact runM_scalarOneOrNone _ _

/-- The cache has the tenant of the slug now, or what it had. -/
theorem runM_cacheSlug (slug : String) (tid : Uuid) :
    ∃ w', runM env (cacheSlug env slug tid) (w, txs) = (.ok (), (w', txs)) ∧ w'.db = w.db ∧
      ∀ i e, w'.redis (.slug i) = some e →
        w.redis (.slug i) = some e ∨ i = slug ∧ e.value = .uuid tid := by
  unfold cacheSlug
  split
  · refine ⟨_, rfl, rfl, fun i e he => ?_⟩
    by_cases hi : i = slug
    · subst hi
      cases (Function.update_self (RedisKey.slug i) _ w.redis).symm.trans he
      exact .inr ⟨rfl, rfl⟩
    · have hother : RedisKey.slug i ≠ RedisKey.slug slug := fun heq => hi (RedisKey.slug.inj heq)
      exact .inl ((Function.update_of_ne hother _ w.redis).symm.trans he)
  · exact ⟨w, rfl, rfl, fun i e he => .inl he⟩

/-- The database half of `resolve_tenant_id`. -/
theorem resolveSlug_ok {r : Option Uuid} {s' : State}
    (h : runM env (resolveSlug env identifier) (w, txs) = (.ok r, s')) :
    Resolved w identifier r s'.1 := by
  have hclose : ∀ w' : World, runM env commitSession (w', boundTx env none true :: txs) =
      (.ok (.ok ()), (w', txs)) := by
    intro w'
    rw [runM_commitSession, flushed_nil rfl, committed_nil rfl]
    rfl
  unfold resolveSlug at h
  rw [runM_tenantSession] at h
  rcases hrows : bySlug w identifier with _ | ⟨t, _ | ⟨t', rest⟩⟩
  · have hfind : runM env (getTenantBySlug identifier) (w.tick, boundTx env none true :: txs) =
        (.ok none, (w.tick, boundTx env none true :: txs)) := by
      rw [runM_getTenantBySlug, show bySlug w.tick identifier = [] from hrows]
      rfl
    rw [runM_bind_ok hfind, runM_pure] at h
    dsimp only at h
    rw [hclose] at h
    cases h
    refine ⟨by simp, fun _ t ht hslug hlive => ?_, rfl, fun i e he => .inl he⟩
    have hmem : t ∈ bySlug w identifier := mem_bySlug.mpr ⟨ht, hslug, hlive.undeleted⟩
    rw [hrows] at hmem
    cases hmem
  · have hmem : t ∈ bySlug w identifier := hrows ▸ List.mem_singleton_self t
    obtain ⟨ht, hslug, hundeleted⟩ := mem_bySlug.mp hmem
    have hfind : runM env (getTenantBySlug identifier) (w.tick, boundTx env none true :: txs) =
        (.ok (some t), (w.tick, boundTx env none true :: txs)) := by
      rw [runM_getTenantBySlug, show bySlug w.tick identifier = [t] from hrows]
      rfl
    rw [runM_bind_ok hfind] at h
    dsimp only at h
    by_cases hactive : t.isActive = true
    · obtain ⟨w₁, hcache, hdb, hentry⟩ :=
        @runM_cacheSlug env w.tick (boundTx env none true :: txs) identifier t.id
      rw [if_pos hactive, runM_bind_ok hcache, runM_pure] at h
      dsimp only at h
      rw [hclose] at h
      cases h
      refine ⟨?_, fun h => (by cases h), hdb, fun i e he => ?_⟩
      · rintro _ ⟨⟩
        exact ⟨t, ht, rfl, ⟨hactive, hundeleted⟩, hslug⟩
      · obtain hold | ⟨hi, hvalue⟩ := hentry i e he
        · exact .inl hold
        · exact .inr ⟨hi, t.id, rfl, hvalue⟩
    · rw [if_neg hactive, runM_pure] at h
      dsimp only at h
      rw [hclose] at h
      cases h
      refine ⟨by simp, fun _ t' ht' hslug' hlive => ?_, rfl, fun i e he => .inl he⟩
      have hmem' : t' ∈ bySlug w identifier := mem_bySlug.mpr ⟨ht', hslug', hlive.undeleted⟩
      rw [hrows, List.mem_singleton] at hmem'
      exact hactive (hmem' ▸ hlive.active)
  · have hfind : runM env (getTenantBySlug identifier) (w.tick, boundTx env none true :: txs) =
        (.error (.unhandled .multipleResultsFound), (w.tick, boundTx env none true :: txs)) := by
      rw [runM_getTenantBySlug, show bySlug w.tick identifier = t :: t' :: rest from hrows]
      rfl
    rw [runM_bind_error hfind] at h
    cases congrArg Prod.fst h

/-- Every cached slug is that of an active tenant that is not deleted. -/
def SlugCacheSound (w : World) : Prop :=
  ∀ i e tid, w.redis (.slug i) = some e → e.value = .uuid tid →
    ∃ t ∈ w.db .tenants, t.id = tid ∧ t.Live ∧ t.slug = i

theorem Resolved.cacheSound {r : Option Uuid} (h : Resolved w identifier r w')
    (hcache : SlugCacheSound w) : SlugCacheSound w' := by
  intro i e tid he hvalue
  rw [h.db]
  obtain hold | ⟨rfl, tid', hr, hvalue'⟩ := h.cache i e he
  · exact hcache i e tid hold hvalue
  · cases hvalue.symm.trans hvalue'
    exact h.found tid hr

/-! ## Identifiers and slugs -/

/-- The text of an identifier is taken as one. -/
theorem resolveTenantId_uuid {u : Uuid} (h : parseUuid identifier = some u) (s : State) :
    runM env (resolveTenantId env identifier) s = (.ok (some u), s) := by
  unfold resolveTenantId
  rw [h]
  rfl

/-- Any other text is looked up. -/
theorem resolveTenantId_ok {r : Option Uuid} {s' : State} (hcache : SlugCacheSound w)
    (hparse : parseUuid identifier = none)
    (h : runM env (resolveTenantId env identifier) (w, txs) = (.ok r, s')) :
    Resolved w identifier r s'.1 := by
  unfold resolveTenantId at h
  rw [hparse] at h
  dsimp only at h
  by_cases hredis : env.settings.hasRedis = true
  · rw [if_pos hredis] at h
    have hget : runM env (perform (.redisGet (.slug identifier))) (w, txs) =
        (.ok ((w.redisAt (env.clock w.ticks) (.slug identifier)).map (·.value)), (w, txs)) := rfl
    rw [runM_bind_ok hget] at h
    rcases hentry : w.redisAt (env.clock w.ticks) (.slug identifier) with _ | ⟨value, expires⟩
    · rw [hentry] at h
      exact resolveSlug_ok h
    · rw [hentry] at h
      obtain ⟨hstored, -⟩ := Option.filter_eq_some_iff.mp hentry
      cases value with
      | uuid tid =>
        cases h
        refine ⟨?_, fun h => (by cases h), rfl, fun i e he => .inl he⟩
        rintro _ ⟨⟩
        exact hcache identifier _ tid hstored rfl
      | text x => exact resolveSlug_ok h
      | codes x => exact resolveSlug_ok h
      | count x => exact resolveSlug_ok h
  · rw [if_neg hredis] at h
    exact resolveSlug_ok h

/-! ## Sound resolution -/

/-- The identifier is the tenant's slug or denotes its identifier. -/
def Tenant.NamedBy (t : Tenant) (identifier : String) : Prop :=
  t.slug = identifier ∨ parseUuid identifier = some t.id

/-- What an identifier resolves to, by `resolve_tenant_id` and by the middleware for a request
whose context has no user, is an active, undeleted tenant that it names. -/
structure ResolvesSoundly (env : Env) (w : World) (identifier : String) : Prop where
  resolved : ∀ tid s', runM env (resolveTenantId env identifier) (w, []) = (.ok (some tid), s') →
    ∃ t ∈ w.db .tenants, t.id = tid ∧ t.Live ∧ t.NamedBy identifier
  context : ∀ headers client rc s' tid,
    headers.nonempty (env.lower env.settings.tenantHeader) = some identifier →
    runM env (requestContext env headers client) (w, []) = (.ok rc, s') → rc.userId = none →
    rc.tenantId = some tid →
    ∃ t ∈ w.db .tenants, t.id = tid ∧ t.Live ∧ t.NamedBy identifier

/-- The context of a request without a user has the tenant that its header resolves to. -/
theorem requestContext_tenant {headers : Headers} {client : Option String} {rc : RequestContext}
    {s' : State} (hheader : headers.nonempty (env.lower env.settings.tenantHeader) = some identifier)
    (h : runM env (requestContext env headers client) (w, []) = (.ok rc, s'))
    (huser : rc.userId = none) :
    ∃ w₁ s₁, w₁.db = w.db ∧ w₁.redis = w.redis ∧
      runM env (resolveTenantId env identifier) (w₁, []) = (.ok rc.tenantId, s₁) := by
  have hresolve : ∀ {w₁ : World} {t u : Option Uuid} {s₁ : State}, w₁.db = w.db → w₁.redis = w.redis →
      runM env (resolveFromHeader env headers) (w₁, []) = (.ok (t, u), s₁) →
      ∃ w₁ s₁, w₁.db = w.db ∧ w₁.redis = w.redis ∧
        runM env (resolveTenantId env identifier) (w₁, []) = (.ok t, s₁) := by
    intro w₁ t u s₁ hdb hredis hrun
    unfold resolveFromHeader at hrun
    rw [hheader] at hrun
    obtain ⟨t', s₂, hrun, hret⟩ := Prog.run_bind_eq_ok hrun
    cases hret
    exact ⟨w₁, s₁, hdb, hredis, hrun⟩
  unfold requestContext at h
  obtain ⟨id, s₁, hid, h⟩ := Prog.run_bind_eq_ok h
  obtain ⟨⟨tenantId, userId⟩, s₂, hidentity, hret⟩ := Prog.run_bind_eq_ok h
  have hrc := Except.ok.inj (congrArg Prod.fst hret)
  subst hrc
  replace huser : userId = none := huser
  subst huser
  have hs₁ : ∃ w₁, s₁ = (w₁, []) ∧ w₁.db = w.db ∧ w₁.redis = w.redis := by
    unfold requestId at hid
    cases hx : headers.nonempty "x-request-id" with
    | some x =>
      rw [hx] at hid
      exact ⟨w, (congrArg Prod.snd hid).symm, rfl, rfl⟩
    | none =>
      rw [hx] at hid
      exact ⟨{ w with nextUuid := w.nextUuid + 1 }, (congrArg Prod.snd hid).symm, rfl, rfl⟩
  obtain ⟨w₁, rfl, hdb, hredis⟩ := hs₁
  unfold resolveIdentity at hidentity
  cases hbearer : bearerPart env ((headers.find "authorization").getD "") with
  | none =>
    rw [hbearer] at hidentity
    exact hresolve hdb hredis hidentity
  | some token =>
    rw [hbearer] at hidentity
    obtain ⟨r, s₃, hdecode, hrest⟩ := Prog.run_bind_eq_ok hidentity
    cases r with
    | ok p => cases congrArg Prod.fst hrest
    | error message =>
      have hs₃ : ∃ w₃, s₃ = (w₃, []) ∧ w₃.db = w₁.db ∧ w₃.redis = w₁.redis := by
        unfold decodeToken at hdecode
        cases hsigned : signed env token with
        | none =>
          rw [hsigned] at hdecode
          exact ⟨w₁, (congrArg Prod.snd hdecode).symm, rfl, rfl⟩
        | some p =>
          rw [hsigned] at hdecode
          obtain ⟨_, s₄, hnow, hret⟩ := Prog.run_bind_eq_ok hdecode
          cases hnow
          have hs : s₃ = (w₁.tick, []) := (congrArg Prod.snd hret).symm
          exact ⟨w₁.tick, hs, rfl, rfl⟩
      obtain ⟨w₃, rfl, hdb₃, hredis₃⟩ := hs₃
      exact hresolve (hdb₃.trans hdb) (hredis₃.trans hredis) hrest

namespace Directories

def platform : Env := Env.reference {}

/-- An active tenant and a deactivated one. -/
def tenants : Database Row
  | .tenants => [{ id := 1, name := "A", slug := "a" },
      { id := 7, name := "B", slug := "b", isActive := false }]
  | _ => []

/-- The text of the deactivated tenant's identifier. -/
def deactivated : String := "00000000-0000-0000-0000-000000000007"

theorem deactivated_parse : parseUuid deactivated = some 7 := by decide +kernel

theorem slug_parse : parseUuid "a" = none := by decide +kernel

end Directories

theorem uniqueError_tenants {db : Database Row} {r : Tenant} :
    uniqueError db .tenants r = none ↔ (∀ r' ∈ db .tenants, r'.id ≠ r.id) ∧
      ∀ r' ∈ db .tenants, r'.slug ≠ r.slug := by
  simp [uniqueError, firstError_eq_none, taken_eq_none, keyOf]

/-- The new row has the slug, which no row had. -/
theorem createTenantRow_new {tx : Tx} {name slug : String} {t : Tenant} {s' : State}
    (hp : tx.pending = []) (hw : tx.writes = [])
    (h : runM env (createTenantRow name slug) (w, tx :: txs) = (.ok t, s')) :
    t.slug = slug ∧ t.Live ∧ ∀ r ∈ w.db .tenants, r.slug ≠ slug := by
  obtain ⟨id, s₁, hid, h⟩ := Prog.run_bind_eq_ok h
  cases (runM_uuid4 _ _).symm.trans hid
  obtain ⟨_, s₂, hadd, h⟩ := Prog.run_bind_eq_ok h
  cases (runM_add _ _ _ _ _).symm.trans hadd
  obtain ⟨_, s₃, hflush, h⟩ := Prog.run_bind_eq_ok h
  have hpending : tx.pending ++ [(⟨.tenants, { id := w.nextUuid, name, slug }⟩ : AnyRow Row)] =
      (⟨.tenants, { id := w.nextUuid, name, slug }⟩ : AnyRow Row) :: [] := by rw [hp]; rfl
  have hchecks := (insertError_none (runM_flush_first hpending hflush)).2
  have hview : view schema w.db ⟨tx.guc, tx.writes, []⟩ = w.db := view_nil schema w.db hw
  have hunique : uniqueError w.db .tenants { id := w.nextUuid, name, slug } = none := by
    rw [← hview]
    exact (checkInsert_eq_none.mp hchecks).2.1
  cases h
  exact ⟨rfl, ⟨rfl, rfl⟩, (uniqueError_tenants.mp hunique).2⟩

/-- An accepted tenant has the slug of the payload, which no tenant had. -/
theorem createTenant_new {data : TenantCreate} {t : Tenant} {s' : State}
    (h : runM env (createTenant env data) (w, txs) = (.ok t, s')) :
    t.slug = data.slug ∧ t.Live ∧ ∀ r ∈ w.db .tenants, r.slug ≠ data.slug := by
  unfold createTenant at h
  rw [runM_tenantSession] at h
  split at h
  · rename_i t' s₁ hbody
    obtain ⟨found, s₂, hslug, hbody⟩ := Prog.run_bind_eq_ok hbody
    have hs₂ : s₂ = (w.tick, boundTx env none true :: txs) :=
      (congrArg Prod.snd ((runM_getTenantBySlug data.slug).symm.trans hslug)).symm
    subst hs₂
    cases found with
    | some _ => cases congrArg Prod.fst hbody
    | none =>
      have hp : (boundTx env none true).pending = [] := rfl
      obtain ⟨t₀, s₃, hrow, hrest⟩ := Prog.run_bind_eq_ok hbody
      have hnew := createTenantRow_new hp rfl hrow
      obtain ⟨_, s₄, -, hrest⟩ := Prog.run_bind_eq_ok hrest
      obtain ⟨_, s₅, -, hrest⟩ := Prog.run_bind_eq_ok hrest
      obtain ⟨_, s₆, -, hrest⟩ := Prog.run_bind_eq_ok hrest
      obtain ⟨_, s₇, -, hrest⟩ := Prog.run_bind_eq_ok hrest
      obtain ⟨_, s₈, -, hrest⟩ := Prog.run_bind_eq_ok hrest
      have ht' : t₀ = t' := Except.ok.inj (congrArg Prod.fst hrest)
      obtain ⟨u, w', tx', rfl, hpending, -⟩ := provision_ok hp rfl hbody
      rw [runM_commitSession, flushed_nil hpending] at h
      cases h
      exact ht' ▸ hnew
  · cases congrArg Prod.fst h

theorem Spares.createTenant {data : TenantCreate} : Spares (createTenant env data) := by
  have hadd : ∀ {t : Table} {r : Row t}, Spares (LmsBackend.add t r) := Spares.sql _
  refine Spares.tenantSession fun s => ?_
  refine (Spares.query.bind fun _ => Spares.scalarOneOrNone _).bind fun found => ?_
  cases found with
  | some _ => exact Spares.raise _
  | none =>
    have hrow : Spares (createTenantRow data.name data.slug) :=
      Spares.uuid4.bind fun _ => hadd.bind fun _ => Spares.flush.bind fun _ => Spares.pure _
    have hhash : Spares (hashPassword env data.adminPassword) :=
      (Spares.perform trivial : Spares (LmsBackend.perform .draw)).bind fun _ => Spares.pure _
    have hlicenses : ∀ tid, Spares (Prog.forEach (data.modules ++ [ModuleCode.auth]).dedup
        fun code => LmsBackend.setLicense env s tid code true) := fun tid =>
      ⟨Prog.all_forEach fun _ _ => Spares.setLicense.all⟩
    exact hrow.bind fun t => (hlicenses t.id).bind fun _ => hhash.bind fun _ =>
      Spares.uuid4.bind fun _ => hadd.bind fun _ => Spares.flush.bind fun _ => Spares.pure _

/-- The slugs are unique, and the cached ones are those of their tenants. -/
structure Directory (w : World) : Prop where
  slugs : ((w.db .tenants).map (·.slug)).Nodup
  cache : SlugCacheSound w

/-- A directory with more tenants and no other cached slugs. -/
theorem Directory.grow (h : Directory w) {new : List Tenant}
    (htenants : w'.db .tenants = w.db .tenants ++ new)
    (hslugs : ((w.db .tenants ++ new).map (·.slug)).Nodup)
    (hredis : ∀ k, w'.redis k = w.redis k ∨ w'.redis k = none) : Directory w' := by
  refine ⟨htenants ▸ hslugs, fun i e tid he hvalue => ?_⟩
  obtain hkept | hgone := hredis (.slug i)
  · obtain ⟨t, ht, hrest⟩ := h.cache i e tid (hkept ▸ he) hvalue
    exact ⟨t, htenants ▸ List.mem_append_left new ht, hrest⟩
  · rw [hgone] at he
    cases he

/-- **Creating a tenant** keeps the directory and everyone in it. -/
theorem Directory.create (h : Directory w) (data : TenantCreate) :
    Directory (runM env (createTenant env data) (w, [])).2.1 ∧
      ∀ t ∈ w.db .tenants, t ∈ (runM env (createTenant env data) (w, [])).2.1.db .tenants := by
  have hredis := @Spares.run env _ _ (@Spares.createTenant env data) (w, [])
  rcases hrun : runM env (createTenant env data) (w, []) with ⟨r, s'⟩
  rw [hrun] at hredis
  cases r with
  | ok t =>
    obtain ⟨u, w', rfl, hprov, -⟩ := createTenant_ok hrun
    obtain ⟨hslug, -, hfresh⟩ := createTenant_new hrun
    have hslugs : ((w.db .tenants ++ [t]).map (·.slug)).Nodup := by
      rw [List.map_append, List.nodup_append]
      refine ⟨h.slugs, List.nodup_singleton _, ?_⟩
      rintro x hx y hy rfl
      obtain ⟨r, hr, rfl⟩ := List.mem_map.mp hx
      rw [List.map_singleton, List.mem_singleton, hslug] at hy
      exact hfresh r hr hy
    refine ⟨h.grow hprov.tenants hslugs hredis, fun t' ht' => ?_⟩
    exact hprov.tenants ▸ List.mem_append_left _ ht'
  | error e =>
    obtain ⟨w', rfl, hlog⟩ := createTenant_error hrun
    have hsame : w'.db .tenants = w.db .tenants := hlog .tenants (by decide)
    have happend : w'.db .tenants = w.db .tenants ++ [] := by rw [List.append_nil, hsame]
    refine ⟨h.grow happend ?_ hredis, fun t' ht' => hsame ▸ ht'⟩
    rw [List.append_nil]
    exact h.slugs

/-- **Resolving a tenant** keeps the directory. -/
theorem Directory.resolve (h : Directory w) (identifier : String) :
    Directory (runM env (resolveTenantId env identifier) (w, [])).2.1 ∧
      (runM env (resolveTenantId env identifier) (w, [])).2.1.db .tenants = w.db .tenants := by
  obtain ⟨r, hr⟩ := (@Returns.resolveTenantId env identifier).ok w [] h.slugs
  rcases hrun : runM env (resolveTenantId env identifier) (w, []) with ⟨r', s'⟩
  rw [hrun] at hr
  cases hr
  cases hparse : parseUuid identifier with
  | some u =>
    rw [resolveTenantId_uuid hparse] at hrun
    cases hrun
    exact ⟨h, rfl⟩
  | none =>
    have hresolved := resolveTenantId_ok h.cache hparse hrun
    exact ⟨⟨hresolved.db.symm ▸ h.slugs, hresolved.cacheSound h.cache⟩,
      congrFun hresolved.db .tenants⟩

/-- Runs of `create_tenant`, with resolutions in between: the payloads that were accepted with
their tenants, and the world reached. -/
inductive Provisioning (env : Env) (w₀ : World) : List (TenantCreate × Tenant) → World → Prop
  | start : Provisioning env w₀ [] w₀
  | create {accepted : List (TenantCreate × Tenant)} {w : World} (data : TenantCreate)
    (run : Provisioning env w₀ accepted w) :
    Provisioning env w₀
      (accepted ++ ((runM env (createTenant env data) (w, [])).1.toOption.map (data, ·)).toList)
      (runM env (createTenant env data) (w, [])).2.1
  | resolve {accepted : List (TenantCreate × Tenant)} {w : World} (identifier : String)
    (run : Provisioning env w₀ accepted w) :
    Provisioning env w₀ accepted (runM env (resolveTenantId env identifier) (w, [])).2.1

/-- **Every run** keeps the directory, and the accepted tenants stay in it. -/
theorem Provisioning.directory {accepted : List (TenantCreate × Tenant)}
    (hrun : Provisioning env w₀ accepted w) (hdir : Directory w₀) :
    Directory w ∧ ∀ x ∈ accepted, x.2 ∈ w.db .tenants ∧ x.2.slug = x.1.slug ∧ x.2.Live := by
  induction hrun with
  | start => exact ⟨hdir, fun x hx => absurd hx List.not_mem_nil⟩
  | create data run ih =>
    rename_i accepted w
    obtain ⟨hdirectory, hmembers⟩ := ih
    obtain ⟨hnext, hkept⟩ := @Directory.create env w hdirectory data
    refine ⟨hnext, fun x hx => ?_⟩
    rcases List.mem_append.mp hx with hx | hx
    · obtain ⟨hmem, hslug, hlive⟩ := hmembers x hx
      exact ⟨hkept x.2 hmem, hslug, hlive⟩
    · rcases hcreate : runM env (createTenant env data) (w, []) with ⟨r, s'⟩
      rw [hcreate] at hx
      cases r with
      | error e => cases hx
      | ok t =>
        rcases List.mem_singleton.mp hx with rfl
        obtain ⟨u, w', rfl, hprov, -⟩ := createTenant_ok hcreate
        obtain ⟨hslug, hlive, -⟩ := createTenant_new hcreate
        refine ⟨?_, hslug, hlive⟩
        show t ∈ w'.db .tenants
        rw [hprov.tenants]
        exact List.mem_append_right _ (List.mem_singleton_self t)
  | resolve identifier run ih =>
    obtain ⟨hdirectory, hmembers⟩ := ih
    obtain ⟨hnext, hsame⟩ := @Directory.resolve env _ hdirectory identifier
    exact ⟨hnext, fun x hx => hsame.symm ▸ hmembers x hx⟩

/-- A tenant that a run provisioned is found by its slug exactly if the slug is not the text
of another identifier. -/
theorem tenant_resolves_iff {accepted : List (TenantCreate × Tenant)} (hdir : Directory w₀)
    (hrun : Provisioning env w₀ accepted w) {data : TenantCreate} {t : Tenant}
    (haccepted : (data, t) ∈ accepted) :
    (∃ s', runM env (resolveTenantId env data.slug) (w, []) = (.ok (some t.id), s')) ↔
      ∀ u, parseUuid data.slug = some u → u = t.id := by
  obtain ⟨hdirectory, hmembers⟩ := hrun.directory hdir
  obtain ⟨hmem, hslug, hlive⟩ := hmembers _ haccepted
  constructor
  · rintro ⟨s', hresolve⟩ u hparse
    rw [resolveTenantId_uuid hparse] at hresolve
    exact Option.some.inj (Except.ok.inj (congrArg Prod.fst hresolve))
  · intro h
    cases hparse : parseUuid data.slug with
    | some u => exact ⟨_, h u hparse ▸ resolveTenantId_uuid hparse (w, [])⟩
    | none =>
      obtain ⟨r, hr⟩ := (@Returns.resolveTenantId env data.slug).ok w [] hdirectory.slugs
      rcases hresolve : runM env (resolveTenantId env data.slug) (w, []) with ⟨r', s'⟩
      rw [hresolve] at hr
      cases hr
      have hresolved := resolveTenantId_ok hdirectory.cache hparse hresolve
      cases r with
      | none => exact absurd hlive (hresolved.missing rfl t hmem hslug)
      | some tid =>
        obtain ⟨t', ht', rfl, -, hslug'⟩ := hresolved.found tid rfl
        have hsame : t' = t := List.inj_on_of_nodup_map hdirectory.slugs ht' hmem
          (hslug'.trans hslug.symm)
        exact ⟨s', by rw [hsame]⟩

namespace Directories

/-- A platform without tenants. -/
def catalogue : Database Row
  | .modules => [{ id := 20, code := ModuleCode.auth.value, name := "Auth", isCore := true }]
  | _ => []

/-- A tenant with the slug. -/
def payload (slug : String) : TenantCreate where
  name := "Acme"
  slug := slug
  adminEmail := "admin"
  adminPassword := "secret"

/-- A slug that is the text of an identifier. -/
def hexSlug : String := "00000000000000000000000000000007"

theorem acme_parse : parseUuid "acme" = none := by decide +kernel

theorem hexSlug_parse : parseUuid hexSlug = some 7 := by decide +kernel

theorem catalogue_directory : Directory (World.fresh 0 catalogue) where
  slugs := List.nodup_nil
  cache _ _ _ he := by cases he

/-- The world after the payload was accepted. -/
def provisioned (slug : String) : World :=
  (runM platform (createTenant platform (payload slug)) (World.fresh 0 catalogue, [])).2.1

theorem provisioning {slug : String} {t : Tenant}
    (h : (runM platform (createTenant platform (payload slug))
      (World.fresh 0 catalogue, [])).1.toOption = some t) :
    Provisioning platform (World.fresh 0 catalogue) [(payload slug, t)] (provisioned slug) := by
  have hrun := Provisioning.create (payload slug)
    (Provisioning.start : Provisioning platform (World.fresh 0 catalogue) [] _)
  rw [h] at hrun
  exact hrun

end Directories

/-- A tenant with a slug that is no text of an identifier. -/
theorem acme_resolves : ∃ s', runM Directories.platform
    (resolveTenantId Directories.platform (Directories.payload "acme").slug)
      (Directories.provisioned "acme", []) = (.ok (some 1000), s') := by
  have hcreated : (runM Directories.platform
      (createTenant Directories.platform (Directories.payload "acme"))
      (World.fresh 0 Directories.catalogue, [])).1.toOption =
        some { id := 1000, name := "Acme", slug := "acme" } := by decide +kernel
  refine (tenant_resolves_iff Directories.catalogue_directory
    (Directories.provisioning hcreated) (List.mem_singleton_self _)).mpr fun u hparse => ?_
  cases Directories.acme_parse.symm.trans hparse

/-- A tenant with a slug of 32 hexadecimal digits is never found by it. -/
theorem hexSlug_resolves_elsewhere : ∃ accepted w data t,
    Provisioning Directories.platform (World.fresh 0 Directories.catalogue) accepted w ∧
      (data, t) ∈ accepted ∧ data.slug.length = 32 ∧
      ¬ ∃ s', runM Directories.platform (resolveTenantId Directories.platform data.slug) (w, []) =
        (.ok (some t.id), s') := by
  have hcreated : (runM Directories.platform
      (createTenant Directories.platform (Directories.payload Directories.hexSlug))
      (World.fresh 0 Directories.catalogue, [])).1.toOption =
        some { id := 1000, name := "Acme", slug := Directories.hexSlug } := by decide +kernel
  refine ⟨_, _, _, _, Directories.provisioning hcreated, List.mem_singleton_self _,
    by decide +kernel, ?_⟩
  rintro ⟨s', hresolve⟩
  have helsewhere : runM Directories.platform
      (resolveTenantId Directories.platform (Directories.payload Directories.hexSlug).slug)
      (Directories.provisioned Directories.hexSlug, []) = (.ok (some 7), _) :=
    resolveTenantId_uuid Directories.hexSlug_parse _
  rw [helsewhere] at hresolve
  cases congrArg Prod.fst hresolve

end LmsBackend
