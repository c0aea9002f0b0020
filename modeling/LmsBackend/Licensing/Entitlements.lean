import LmsBackend.Effects.Identity

/-!
# Entitlements

What a tenant is licensed for, as the rows say it, and what `LicensingService` answers
and writes.

- `Entitled db t code now`: an enabled flag for an active module, not lapsed, or a core
  module. `mem_entitledIn` ties it to `_compute_enabled`.
- `hasModule`: the answer of `tenant_has_module` in a world.
- `setLicense_ok`, `setModule_ok`: a toggle that returns wrote one row of
  `tenant_modules` and dropped the tenant's cache entry.
-/

namespace LmsBackend

open Mvcc

variable {env : Env} {w : World} {tx : Tx} {txs : List Tx} {s : Session}

/-! ## Entitlements in the rows -/

/-- A flag of the tenant for a module with this code satisfies the condition. -/
def Flagged (db : Database Row) (tenantId : Uuid) (code : String)
    (p : Module → TenantModule → Bool) : Prop :=
  ∃ m ∈ db .modules, ∃ tm ∈ db .tenantModules,
    m.code = code ∧ tm.moduleId = m.id ∧ tm.tenantId = tenantId ∧ p m tm = true

theorem mem_joinedCodesIn {db : Database Row} {tenantId : Uuid} {code : String}
    {p : Module → TenantModule → Bool} :
    code ∈ joinedCodesIn db tenantId p ↔ Flagged db tenantId code p := by
  simp only [joinedCodesIn, List.mem_map, Flagged]
  constructor
  · rintro ⟨⟨m, tm⟩, hx, rfl⟩
    obtain ⟨hm, htm, hp⟩ := mem_joined.mp hx
    rw [Bool.and_eq_true, Bool.and_eq_true, decide_eq_true_iff, decide_eq_true_iff] at hp
    exact ⟨m, hm, tm, htm, rfl, hp.1.1, hp.1.2, hp.2⟩
  · rintro ⟨m, hm, tm, htm, rfl, hid, htenant, hp⟩
    refine ⟨(m, tm), mem_joined.mpr ⟨hm, htm, ?_⟩, rfl⟩
    simp [hid, htenant, hp]

/-- A flag of the tenant for the module has an expiry in the past. -/
def Lapsed (db : Database Row) (tenantId : Uuid) (code : String) (now : Time) : Prop :=
  Flagged db tenantId code fun _ tm => tm.expiresAt.any (· < now)

/-- The tenant is licensed for the module at an instant. -/
def Entitled (db : Database Row) (tenantId : Uuid) (code : String) (now : Time) : Prop :=
  code ∈ coreModuleCodes.map (·.value) ∨
    (Flagged db tenantId code fun m tm => tm.enabled && m.isActive) ∧
      ¬ Lapsed db tenantId code now

/-- What `_compute_enabled` gives on these rows at an instant. -/
def entitledIn (db : Database Row) (tenantId : Uuid) (now : Time) : List String :=
  (joinedCodesIn db tenantId fun m tm => tm.enabled && m.isActive).filter
    (· ∉ joinedCodesIn db tenantId fun _ tm => tm.expiresAt.any (· < now)) ++
  coreModuleCodes.map (·.value)

theorem mem_entitledIn {db : Database Row} {tenantId : Uuid} {code : String} {now : Time} :
    code ∈ entitledIn db tenantId now ↔ Entitled db tenantId code now := by
  rw [entitledIn, List.mem_append, List.mem_filter, decide_eq_true_iff, mem_joinedCodesIn,
    mem_joinedCodesIn, or_comm]
  rfl

/-- Licences only lapse: what is granted later was granted before. -/
theorem Entitled.earlier {db : Database Row} {tenantId : Uuid} {code : String} {now now' : Time}
    (hle : now ≤ now') (h : Entitled db tenantId code now') : Entitled db tenantId code now := by
  refine h.imp_right fun ⟨hflag, hlapsed⟩ => ⟨hflag, ?_⟩
  rintro ⟨m, hm, tm, htm, hcode, hid, htenant, hexp⟩
  refine hlapsed ⟨m, hm, tm, htm, hcode, hid, htenant, ?_⟩
  rw [Option.any_eq_true_iff_get] at hexp ⊢
  obtain ⟨hsome, hlt⟩ := hexp
  rw [decide_eq_true_iff] at hlt
  exact ⟨hsome, decide_eq_true (hlt.trans_le hle)⟩

/-- A licence that is gone at a later instant has lapsed by then. -/
theorem Entitled.lapsed {db : Database Row} {tenantId : Uuid} {code : String} {now now' : Time}
    (h : Entitled db tenantId code now) (h' : ¬ Entitled db tenantId code now') :
    Lapsed db tenantId code now' := by
  rcases h with hcore | ⟨hflag, -⟩
  · exact (h' (.inl hcore)).elim
  · by_contra hnot
    exact h' (.inr ⟨hflag, hnot⟩)

/-! ## What `tenant_has_module` answers -/

/-- The world at another reading of the clock. -/
def World.at (w : World) (i : Nat) : World := { w with ticks := i }

/-- The answer of `tenant_has_module`. -/
def hasModule (env : Env) (w : World) (tenantId : Uuid) (code : ModuleCode) : Prop :=
  code ∈ coreModuleCodes ∨ code.value ∈ enabledIn env w w.db tenantId

instance (tenantId : Uuid) (code : ModuleCode) : Decidable (hasModule env w tenantId code) :=
  inferInstanceAs (Decidable (code ∈ coreModuleCodes ∨
    code.value ∈ enabledIn env w w.db tenantId))

theorem enabledIn_eq {db : Database Row} {tenantId : Uuid} :
    enabledIn env w db tenantId =
      match cachedIn env w tenantId with
      | some (.codes cs) => cs
      | _ => entitledIn db tenantId (env.clock w.ticks) := rfl

/-- Without a cached set, the rows decide. -/
theorem enabledIn_uncached {db : Database Row} {tenantId : Uuid}
    (h : ∀ cs, cachedIn env w tenantId ≠ some (.codes cs)) :
    enabledIn env w db tenantId = entitledIn db tenantId (env.clock w.ticks) := by
  rw [enabledIn_eq]
  split
  · rename_i cs hcs
    exact (h cs hcs).elim
  · rfl

theorem seen_platform {t : Table} (ht : t ∉ rlsTables) (htx : tx.writes = []) :
    seen w tx t = w.db t := by
  rw [seen, visible, view_nil schema w.db htx]
  refine List.filter_eq_self.mpr fun r _ => ?_
  show policy tx.guc t r = true
  rw [policy, if_neg ht]

/-- What is answered depends on the rows of the two tables only. -/
theorem enabledIn_congr {db db' : Database Row} {tenantId : Uuid}
    (hm : db .modules = db' .modules) (ht : db .tenantModules = db' .tenantModules) :
    enabledIn env w db tenantId = enabledIn env w db' tenantId := by
  have hjoin : ∀ p, joinedCodesIn db tenantId p = joinedCodesIn db' tenantId p := by
    intro p
    simp only [joinedCodesIn, joined, hm, ht]
  simp only [enabledIn, hjoin]

/-- `tenant_has_module` in a session of its own answers `hasModule`. -/
theorem runM_tenantHasModule (tenantId : Uuid) (code : ModuleCode) (htx : tx.writes = []) :
    ∃ b, (runM env (tenantHasModule env tenantId code) (w, tx :: txs)).1 = .ok b ∧
      (b = true ↔ hasModule env w tenantId code) := by
  unfold tenantHasModule hasModule
  by_cases hcore : code ∈ coreModuleCodes
  · rw [if_pos hcore]
    exact ⟨true, rfl, by simp [hcore]⟩
  · rw [if_neg hcore]
    have henabled := @runM_enabledCodes env tenantId w tx txs
    rw [enabledIn_congr (seen_platform (by decide) htx) (seen_platform (by decide) htx)] at henabled
    rcases hrun : runM env (enabledCodes env tenantId) (w, tx :: txs) with ⟨r, s'⟩
    rw [hrun] at henabled
    cases henabled
    refine ⟨decide (code.value ∈ enabledIn env w w.db tenantId), ?_, ?_⟩
    · rw [runM_bind_ok hrun]
      rfl
    · simp [hcore]

/-! ## What a toggle writes -/

/-- The cache after a tenant's entry was dropped, if there is Redis. -/
def World.invalidated (env : Env) (w : World) (tenantId : Uuid) : World :=
  if env.settings.hasRedis then
    { w with redis := Function.update w.redis (.enabled tenantId) none }
  else w

theorem invalidate_ok {tenantId : Uuid} {s' : State}
    (h : runM env (invalidate env tenantId) (w, txs) = (.ok (), s')) :
    s' = (w.invalidated env tenantId, txs) := by
  unfold invalidate at h
  unfold World.invalidated
  split at h
  · rename_i hredis
    rw [if_pos hredis]
    cases h
    rfl
  · rename_i hredis
    rw [if_neg hredis]
    cases h
    rfl

/-- The flag row that a toggle leaves. -/
structure Toggled (db : Database Row) (tenantId moduleId : Uuid) (enabled : Bool)
    (x : Mvcc.Write Row (List Uuid)) : Prop where
  shape : (∃ row : TenantModule, x = .insert .tenantModules row ∧ row.tenantId = tenantId ∧
      row.moduleId = moduleId ∧ row.enabled = enabled ∧ row.expiresAt = none ∧
      (∀ tm ∈ db .tenantModules, ¬ (tm.tenantId = tenantId ∧ tm.moduleId = moduleId)) ∧
      ∀ tm ∈ db .tenantModules, tm.id ≠ row.id) ∨
    ∃ tm old row : TenantModule, x = .update .tenantModules [tm.id] row ∧
      tm ∈ db .tenantModules ∧ tm.tenantId = tenantId ∧ tm.moduleId = moduleId ∧
      old ∈ db .tenantModules ∧ old.id = tm.id ∧ ∃ at_, row = { old with enabled, enabledAt := at_ }

theorem saveLicense_ok {tenantId moduleId : Uuid} {enabled : Bool}
    (htx : tx.writes = []) (hp : tx.pending = []) {found : Option TenantModule}
    (hfound : scalar ((w.db .tenantModules).filter fun r =>
      r.tenantId = tenantId && r.moduleId = moduleId) = .ok found)
    {s' s'' : State}
    (h : runM env (saveLicense s tenantId moduleId found enabled) (w, tx :: txs) = (.ok (), s'))
    (hflush : runM env flush s' = (.ok (), s'')) :
    ∃ w' x, Toggled w.db tenantId moduleId enabled x ∧ s'' = (w', tx.push x :: txs) ∧
      w'.db = w.db ∧ w'.redis = w.redis ∧ w.Older w' := by
  have hcond : ∀ r : TenantModule, (decide (r.tenantId = tenantId) && decide (r.moduleId = moduleId))
      = true ↔ r.tenantId = tenantId ∧ r.moduleId = moduleId := by simp
  unfold saveLicense at h
  obtain ⟨now, s₁, hnow, h⟩ := Prog.run_bind_eq_ok h
  cases (runM_now _ _).symm.trans hnow
  cases found with
  | none =>
    have hnone := scalar_eq_none hfound
    obtain ⟨id, s₂, hid, hadd⟩ := Prog.run_bind_eq_ok h
    cases (runM_uuid4 _ _).symm.trans hid
    cases (runM_add _ _ _ _ _).symm.trans hadd
    have hunique := (checkInsert_eq_none.mp (insertError_none (runM_flush_first
      (by rw [hp]; rfl) hflush)).2).2.1
    obtain rfl := runM_flush_ok hflush
    let row : TenantModule :=
      { id := w.nextUuid, tenantId, moduleId, enabled,
        enabledAt := if enabled then some (env.clock w.ticks) else none }
    refine ⟨{ w.tick with nextUuid := w.nextUuid + 1 }, .insert .tenantModules row,
      ⟨.inl ⟨row, rfl, rfl, rfl, rfl, rfl, fun tm htm hcon => ?_, fun tm htm hsame => ?_⟩⟩, ?_, rfl,
      rfl, ⟨Nat.le_succ _, Nat.le_succ _⟩⟩
    · have hmem : tm ∈ (w.db .tenantModules).filter fun r =>
          decide (r.tenantId = tenantId) && decide (r.moduleId = moduleId) :=
        List.mem_filter.mpr ⟨htm, (hcond tm).mpr hcon⟩
      rw [hnone] at hmem
      cases hmem
    · obtain ⟨guc, writes, pending⟩ := tx
      cases htx
      cases hp
      have hdb : uniqueError w.db .tenantModules row = none := hunique
      exact fresh_key hdb tm htm (congrArg (fun id => [id]) hsame)
    · simp [Tx.push, hp]
      rfl
  | some tm =>
    have hone := scalar_eq_some hfound
    have hmem := List.mem_filter.mp (hone ▸ List.mem_singleton_self tm)
    obtain ⟨old, htarget, rfl⟩ := runM_updateRow_ok h
    obtain ⟨hold, -, hkey, -⟩ := target_some htarget
    rw [view_nil schema _ htx] at hold
    have hsame := runM_flush_ok hflush
    obtain ⟨htenant, hmodule⟩ := (hcond tm).mp hmem.2
    let row : TenantModule :=
      { old with enabled := enabled
                 enabledAt := if enabled then some (env.clock w.ticks) else tm.enabledAt }
    refine ⟨w.tick, .update .tenantModules [tm.id] row, ⟨.inr ⟨tm, old, row, rfl, hmem.1, htenant,
      hmodule, hold, List.singleton_injective hkey, _, rfl⟩⟩, ?_, rfl, rfl,
      ⟨Nat.le_succ _, le_refl _⟩⟩
    rw [hsame]
    simp [Tx.push, hp]
    rfl

/-- A toggle that returns: the module is in the catalogue, the tenant's flag for it is
written and the tenant's cache entry is gone. -/
theorem setLicense_ok {tenantId : Uuid} {code : ModuleCode} {enabled : Bool}
    (htx : tx.writes = []) (hp : tx.pending = []) {s' : State}
    (h : runM env (setLicense env s tenantId code enabled) (w, tx :: txs) = (.ok (), s')) :
    ∃ m w' x, m ∈ w.db .modules ∧ m.code = code.value ∧
      (∀ m' ∈ w.db .modules, m'.code = code.value → m' = m) ∧
      Toggled w.db tenantId m.id enabled x ∧
      s' = (w'.invalidated env tenantId, tx.push x :: txs) ∧ w'.db = w.db ∧ w'.redis = w.redis ∧
      w.Older w' := by
  obtain ⟨ms, s₁, hquery, h⟩ := Prog.run_bind_eq_ok h
  cases (runM_query _ _ _ _ _).symm.trans hquery
  obtain ⟨found, s₂, hfound, h⟩ := Prog.run_bind_eq_ok h
  replace hfound := (runM_scalarOneOrNone _ _).symm.trans hfound
  obtain ⟨hscalar, rfl⟩ := Prod.mk.inj hfound
  cases found with
  | none => cases congrArg Prod.fst h
  | some m =>
    have hone := scalar_eq_some hscalar
    rw [show (seen w tx .modules) = w.db .modules from seen_platform (by decide) htx] at hone
    have hmem := List.mem_filter.mp (hone ▸ List.mem_singleton_self m)
    have hunique : ∀ m' ∈ w.db .modules, m'.code = code.value → m' = m := by
      intro m' hm' hcode
      have hmem' : m' ∈ (w.db .modules).filter fun r => decide (r.code = code.value) :=
        List.mem_filter.mpr ⟨hm', decide_eq_true hcode⟩
      rw [hone] at hmem'
      exact List.mem_singleton.mp hmem'
    obtain ⟨tms, s₃, hquery', h⟩ := Prog.run_bind_eq_ok h
    cases (runM_query _ _ _ _ _).symm.trans hquery'
    obtain ⟨found', s₄, hfound', h⟩ := Prog.run_bind_eq_ok h
    replace hfound' := (runM_scalarOneOrNone _ _).symm.trans hfound'
    obtain ⟨hscalar', rfl⟩ := Prod.mk.inj hfound'
    rw [show (seen w tx .tenantModules) = w.db .tenantModules from
      seen_platform (by decide) htx] at hscalar'
    obtain ⟨_, s₅, hsave, h⟩ := Prog.run_bind_eq_ok h
    obtain ⟨_, s₆, hflush, hinvalidate⟩ := Prog.run_bind_eq_ok h
    obtain ⟨w', x, hx, rfl, hdb, hredis, holder⟩ := saveLicense_ok htx hp hscalar' hsave hflush
    obtain rfl := invalidate_ok hinvalidate
    exact ⟨m, w', x, hmem.1, of_decide_eq_true hmem.2, hunique, hx, rfl, hdb, hredis, holder⟩

/-- A `PATCH` of a tenant's module that returns, as a step of the world. -/
structure ModuleSet (env : Env) (w : World) (tenantId : Uuid) (code : ModuleCode) (enabled : Bool)
    (m : Module) (x : Mvcc.Write Row (List Uuid)) (w' : World) : Prop where
  tenant : ∃ t ∈ w.db .tenants, t.id = tenantId
  module : m ∈ w.db .modules
  named : m.code = code.value
  unique : ∀ m' ∈ w.db .modules, m'.code = code.value → m' = m
  toggled : Toggled w.db tenantId m.id enabled x
  db : w'.db = x.apply schema w.db
  redis : w'.redis = (w.invalidated env tenantId).redis
  older : w.Older w'

theorem setModule_ok {tenantId : Uuid} {code : ModuleCode} {enabled : Bool} {s' : State}
    (h : runM env (setModule env tenantId code enabled) (w, txs) = (.ok (), s')) :
    ∃ m x w', s' = (w', txs) ∧ ModuleSet env w tenantId code enabled m x w' := by
  unfold setModule at h
  split at h
  · cases congrArg Prod.fst h
  · rw [runM_tenantSession] at h
    split at h
    · rename_i u s₁ hbody
      obtain ⟨ts, s₂, hquery, hbody⟩ := Prog.run_bind_eq_ok hbody
      cases (runM_query _ _ _ _ _).symm.trans hquery
      split at hbody
      · cases congrArg Prod.fst hbody
      · rename_i htenant
        obtain ⟨m, w', x, hm, hcode, hunique, hx, rfl, hdb, hredis, holder⟩ :=
          setLicense_ok rfl rfl hbody
        obtain ⟨t, ht⟩ := List.exists_mem_of_ne_nil _ htenant
        obtain ⟨ht, hid⟩ := List.mem_filter.mp ht
        rw [show (seen w.tick (boundTx env none true) .tenants) = w.db .tenants from
          seen_platform (by decide) rfl] at ht
        have hpending : ((boundTx env none true).push x).pending = [] := rfl
        rw [runM_commitSession, flushed_nil hpending, committed_nil hpending] at h
        cases h
        refine ⟨m, x, _, rfl, ⟨t, ht, of_decide_eq_true hid⟩, hm, hcode, hunique, hx, ?_, ?_, ?_⟩
        · show view schema (w'.invalidated env tenantId).db _ = _
          have hsame : (w'.invalidated env tenantId).db = w.db := by
            unfold World.invalidated
            split
            · exact hdb
            · exact hdb
          rw [hsame]
          rfl
        · show (w'.invalidated env tenantId).redis = (w.invalidated env tenantId).redis
          unfold World.invalidated
          split
          · show Function.update w'.redis _ _ = Function.update w.redis _ _
            rw [hredis]
            rfl
          · exact hredis
        · have hfirst : w.Older w.tick := ⟨Nat.le_succ _, le_refl _⟩
          refine (hfirst.trans holder).trans ?_
          show w'.Older _
          unfold World.invalidated
          split
          · exact ⟨le_refl _, le_refl _⟩
          · exact ⟨le_refl _, le_refl _⟩
    · cases congrArg Prod.fst h

end LmsBackend
