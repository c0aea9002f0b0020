import LmsBackend.Core.Platform
import LmsBackend.Effects.Admin
import LmsBackend.Licensing.Entitlements

/-!
# Toggling a module

`TenantAdminService.set_module` after any earlier checks and toggles.

- `Licences`: what the schema promises about the licensing tables.
- `LicensingRun`: checks, toggles (also failing ones) and the passing of time.
  `LicensingRun.sound`: the cached sets it leaves were computed from the rows of now.
- `toggled_entitled`, `toggled_others`: the rows after a toggle.
- `setModule_toggles`: what `tenant_has_module` answers after a toggle. An expiry in
  the past outranks the flag, and dropping the cache entry reveals lapsed licences.
-/

namespace LmsBackend

open Mvcc

variable {env : Env} {w w' w₀ : World}

/-! ## The licensing tables -/

/-- The keys of the licensing tables. -/
structure Licences (db : Database Row) : Prop where
  modules : ∀ m ∈ db .modules, ∀ m' ∈ db .modules, m.id = m'.id → m = m'
  codes : ∀ m ∈ db .modules, ∀ m' ∈ db .modules, m.code = m'.code → m = m'
  ids : ∀ tm ∈ db .tenantModules, ∀ tm' ∈ db .tenantModules, tm.id = tm'.id → tm = tm'
  flags : ∀ tm ∈ db .tenantModules, ∀ tm' ∈ db .tenantModules,
    tm.tenantId = tm'.tenantId → tm.moduleId = tm'.moduleId → tm = tm'

/-- The rows after a toggle: one flag of the tenant for the module, with the expiry of
the flag before it, if there was one; the other flags as they were. -/
structure FlagRow (db db' : Database Row) (tenantId moduleId : Uuid) (enabled : Bool)
    (row : TenantModule) : Prop where
  tenant : row.tenantId = tenantId
  module : row.moduleId = moduleId
  enabled : row.enabled = enabled
  expiry : ∀ now, (row.expiresAt.any (· < now)) = true ↔ ∃ tm ∈ db .tenantModules,
    tm.tenantId = tenantId ∧ tm.moduleId = moduleId ∧ tm.expiresAt.any (· < now) = true
  modules : db' .modules = db .modules
  fresh : ∀ tm ∈ db .tenantModules, ¬ (tm.tenantId = tenantId ∧ tm.moduleId = moduleId) →
    tm.id ≠ row.id
  flags : ∀ tm, tm ∈ db' .tenantModules ↔
    tm = row ∨ (tm ∈ db .tenantModules ∧ ¬ (tm.tenantId = tenantId ∧ tm.moduleId = moduleId))

theorem Toggled.flagRow {db : Database Row} {tenantId moduleId : Uuid} {enabled : Bool}
    {x : Mvcc.Write Row (List Uuid)} (hlic : Licences db)
    (h : Toggled db tenantId moduleId enabled x) :
    ∃ row, FlagRow db (x.apply schema db) tenantId moduleId enabled row := by
  obtain ⟨row, rfl, htenant, hmodule, henabled, hexpiry, hnone, hfresh⟩ |
    ⟨tm, old, row, rfl, htm, htenant, hmodule, hold, hid, at_, rfl⟩ := h.shape
  · refine ⟨row, htenant, hmodule, henabled, fun now => ?_, ?_, fun tm htm _ => hfresh tm htm,
      fun tm => ?_⟩
    · rw [hexpiry]
      constructor
      · intro hany
        cases hany
      · rintro ⟨tm, htm, ht, hm, -⟩
        exact (hnone tm htm ⟨ht, hm⟩).elim
    · exact Write.apply_other (by simp [Write.table])
    · rw [Write.apply_insert, List.mem_append, List.mem_singleton, or_comm]
      exact or_congr_right ⟨fun htm => ⟨htm, hnone tm htm⟩, fun htm => htm.1⟩
  · have hsame : old = tm := hlic.ids old hold tm htm hid
    subst hsame
    refine ⟨{ old with enabled := enabled, enabledAt := at_ }, htenant, hmodule, rfl,
      fun now => ?_, ?_, fun tm htm' hne hid' => hne ?_, fun tm => ?_⟩
    · constructor
      · exact fun hany => ⟨old, htm, htenant, hmodule, hany⟩
      · rintro ⟨tm, htm', ht, hm, hany⟩
        rw [hlic.flags tm htm' old htm (ht.trans htenant.symm) (hm.trans hmodule.symm)] at hany
        exact hany
    · exact Write.apply_other (by simp [Write.table])
    · rw [hlic.ids tm htm' old htm hid']
      exact ⟨htenant, hmodule⟩
    · rw [Write.apply_update, List.mem_map]
      have hkey : ∀ r : TenantModule, schema.key .tenantModules r = [old.id] ↔ r.id = old.id :=
        fun r => List.singleton_inj
      constructor
      · rintro ⟨r, hr, rfl⟩
        split
        · exact .inl rfl
        · rename_i hne
          refine .inr ⟨hr, fun hcon => hne ((hkey r).mpr ?_)⟩
          rw [hlic.flags r hr old htm (hcon.1.trans htenant.symm) (hcon.2.trans hmodule.symm)]
      · rintro (rfl | ⟨hr, hne⟩)
        · exact ⟨old, htm, if_pos ((hkey old).mpr rfl)⟩
        · refine ⟨tm, hr, if_neg fun hk => hne ?_⟩
          rw [hlic.ids tm hr old htm ((hkey tm).mp hk)]
          exact ⟨htenant, hmodule⟩

/-- The flags of another tenant, or for another module, are the same after a toggle. -/
theorem FlagRow.others {db db' : Database Row} {tenantId : Uuid} {m : Module} {enabled : Bool}
    {row : TenantModule} (hlic : Licences db) (h : FlagRow db db' tenantId m.id enabled row)
    (hm : m ∈ db .modules) {tenantId' : Uuid} {code : String}
    (hne : ¬ (tenantId' = tenantId ∧ code = m.code)) (p : Module → TenantModule → Bool) :
    Flagged db' tenantId' code p ↔ Flagged db tenantId' code p := by
  constructor
  · rintro ⟨m', hm', tm, htm, hcode, hid, htenant, hp⟩
    rw [h.modules] at hm'
    rcases (h.flags tm).mp htm with rfl | ⟨htm, -⟩
    · have hsame : m' = m := hlic.modules m' hm' m hm (hid.symm.trans h.module)
      subst hsame
      exact (hne ⟨htenant.symm.trans h.tenant, hcode.symm⟩).elim
    · exact ⟨m', hm', tm, htm, hcode, hid, htenant, hp⟩
  · rintro ⟨m', hm', tm, htm, hcode, hid, htenant, hp⟩
    refine ⟨m', h.modules ▸ hm', tm, (h.flags tm).mpr (.inr ⟨htm, ?_⟩), hcode, hid, htenant, hp⟩
    rintro ⟨ht, hmod⟩
    have hsame : m' = m := hlic.modules m' hm' m hm (hid.symm.trans hmod)
    subst hsame
    exact hne ⟨htenant.symm.trans ht, hcode.symm⟩

/-- The flag for the toggled module is the row that was written. -/
theorem FlagRow.own {db db' : Database Row} {tenantId : Uuid} {m : Module} {enabled : Bool}
    {row : TenantModule} (hlic : Licences db) (h : FlagRow db db' tenantId m.id enabled row)
    (hm : m ∈ db .modules) (p : Module → TenantModule → Bool) :
    Flagged db' tenantId m.code p ↔ p m row = true := by
  constructor
  · rintro ⟨m', hm', tm, htm, hcode, hid, htenant, hp⟩
    rw [h.modules] at hm'
    have hsame : m' = m := hlic.codes m' hm' m hm hcode
    subst hsame
    rcases (h.flags tm).mp htm with rfl | ⟨-, hne⟩
    · exact hp
    · exact (hne ⟨htenant, hid⟩).elim
  · intro hp
    exact ⟨m, h.modules ▸ hm, row, (h.flags row).mpr (.inl rfl), rfl, h.module, h.tenant, hp⟩

/-- The entitlements of other pairs are the same after a toggle. -/
theorem toggled_others {db db' : Database Row} {tenantId : Uuid} {m : Module} {enabled : Bool}
    {row : TenantModule} (hlic : Licences db) (h : FlagRow db db' tenantId m.id enabled row)
    (hm : m ∈ db .modules) {tenantId' : Uuid} {code : String}
    (hne : ¬ (tenantId' = tenantId ∧ code = m.code)) (now : Time) :
    Entitled db' tenantId' code now ↔ Entitled db tenantId' code now := by
  unfold Entitled Lapsed
  rw [h.others hlic hm hne, h.others hlic hm hne]

/-- The toggled pair is entitled iff it was switched on and has not lapsed. -/
theorem toggled_entitled {db db' : Database Row} {tenantId : Uuid} {m : Module} {enabled : Bool}
    {row : TenantModule} (hlic : Licences db) (h : FlagRow db db' tenantId m.id enabled row)
    (hm : m ∈ db .modules) (hactive : m.isActive = true)
    (hcore : m.code ∉ coreModuleCodes.map (·.value)) (now : Time) :
    Entitled db' tenantId m.code now ↔
      enabled = true ∧ ¬ Lapsed db tenantId m.code now := by
  have hlapsed : Lapsed db' tenantId m.code now ↔ Lapsed db tenantId m.code now := by
    unfold Lapsed
    rw [h.own hlic hm, h.expiry]
    constructor
    · rintro ⟨tm, htm, htenant, hmodule, hany⟩
      exact ⟨m, hm, tm, htm, rfl, hmodule, htenant, hany⟩
    · rintro ⟨m', hm', tm, htm, hcode, hid, htenant, hany⟩
      have hsame : m' = m := hlic.codes m' hm' m hm hcode
      subst hsame
      exact ⟨tm, htm, htenant, hid, hany⟩
  unfold Entitled
  rw [hlapsed, h.own hlic hm, h.enabled, hactive, Bool.and_true, or_iff_right hcore]

/-- A toggle keeps the keys of the licensing tables. -/
theorem FlagRow.licences {db db' : Database Row} {tenantId moduleId : Uuid} {enabled : Bool}
    {row : TenantModule} (hlic : Licences db) (h : FlagRow db db' tenantId moduleId enabled row) :
    Licences db' := by
  have hids := h.fresh
  refine ⟨h.modules ▸ hlic.modules, h.modules ▸ hlic.codes, fun tm htm tm' htm' hid => ?_,
    fun tm htm tm' htm' ht hm => ?_⟩
  · rcases (h.flags tm).mp htm with rfl | ⟨htm, hne⟩ <;>
      rcases (h.flags tm').mp htm' with rfl | ⟨htm', hne'⟩
    · rfl
    · exact (hids tm' htm' hne' hid.symm).elim
    · exact (hids tm htm hne hid).elim
    · exact hlic.ids tm htm tm' htm' hid
  · rcases (h.flags tm).mp htm with rfl | ⟨htm, hne⟩ <;>
      rcases (h.flags tm').mp htm' with rfl | ⟨htm', hne'⟩
    · rfl
    · exact (hne' ⟨ht.symm.trans h.tenant, hm.symm.trans h.module⟩).elim
    · exact (hne ⟨ht.trans h.tenant, hm.trans h.module⟩).elim
    · exact hlic.flags tm htm tm' htm' ht hm

/-! ## Operations that do not fill the cache -/

/-- The operation puts nothing into Redis. -/
def sparing : Op → Prop
  | .redisSet _ _ _ => False
  | .redisIncr _ => False
  | .redisExpire _ _ => False
  | _ => True

/-- The program puts nothing into Redis. -/
structure Spares {α : Type} (p : M α) : Prop where
  all : Prog.All sparing (fun _ _ => True) (fun _ => True) p

namespace Spares

variable {α β : Type} {s : Session}

theorem pure (a : α) : Spares (Pure.pure a : M α) := ⟨trivial⟩

theorem raise (e : Err) : Spares (.raise e : M α) := ⟨trivial⟩

theorem bind {p : M α} {f : α → M β} (hp : Spares p) (hf : ∀ a, Spares (f a)) :
    Spares (p >>= f) := ⟨Prog.All.bind hp.all fun a _ => (hf a).all⟩

theorem attempt {p : M α} (hp : Spares p) : Spares (Prog.attempt p : M (Except Err α)) :=
  ⟨Prog.all_attempt hp.all (fun _ _ => trivial) fun _ => trivial⟩

theorem sql (o : Mvcc.Op Row (List Uuid) Guc) : Spares (sql o) := ⟨trivial, fun _ _ => trivial⟩

theorem perform {o : Op} (h : sparing o) : Spares (perform o) := ⟨h, fun _ _ => trivial⟩

theorem now : Spares now := @perform .now trivial

theorem uuid4 : Spares uuid4 := @perform .uuid4 trivial

theorem query {t : Table} {p : Row t → Bool} : Spares (query t p) := sql _

theorem scalarOneOrNone (rows : List α) : Spares (scalarOneOrNone rows) := by
  unfold LmsBackend.scalarOneOrNone
  split
  · exact pure _
  · exact pure _
  · exact raise _

theorem updateRow {t : Table} {id : Uuid} {f : Row t → Row t} : Spares (updateRow s t id f) := by
  refine (sql _).bind fun r => ?_
  split
  · exact raise _
  · exact pure _
  · exact raise _

theorem insertRow {x : AnyRow Row} : Spares (insertRow x) := by
  refine (sql _).bind fun r => ?_
  split
  · exact pure _
  · exact raise _

theorem flush : Spares flush :=
  (sql _).bind fun _ => ⟨Prog.all_forEach fun _ _ => insertRow.all⟩

theorem tenantSession {tenantId : Option Uuid} {bypass : Bool} {body : Session → M α}
    (h : ∀ s, Spares (body s)) : Spares (tenantSession env tenantId bypass body) := by
  have hbind : Spares (bindRls env tenantId bypass) := by
    unfold bindRls
    split
    · refine (sql _).bind fun _ => ?_
      split
      · exact sql _
      · exact pure _
    · exact pure _
  have hcommit : Spares commitSession := by
    refine flush.attempt.bind fun r => ?_
    split
    · exact (sql _).bind fun _ => pure _
    · exact (sql _).bind fun _ => pure _
  refine ((sql _).bind fun _ => now.bind fun _ => pure _).bind fun s => ?_
  refine (hbind.bind fun _ => h s).attempt.bind fun r => ?_
  split
  · refine hcommit.bind fun r => ?_
    split
    · exact pure _
    · exact raise _
  · exact (sql _).bind fun _ => raise _

theorem setLicense {tenantId : Uuid} {code : ModuleCode} {enabled : Bool} :
    Spares (setLicense env s tenantId code enabled) := by
  refine query.bind fun _ => (scalarOneOrNone _).bind fun found => ?_
  split
  · exact raise _
  · refine query.bind fun _ => (scalarOneOrNone _).bind fun found' => ?_
    refine bind ?_ fun _ => flush.bind fun _ => ?_
    · refine now.bind fun _ => ?_
      split
      · exact uuid4.bind fun _ => sql _
      · exact updateRow
    · unfold invalidate
      split
      · exact perform trivial
      · exact pure _

theorem setModule {tenantId : Uuid} {code : ModuleCode} {enabled : Bool} :
    Spares (setModule env tenantId code enabled) := by
  unfold LmsBackend.setModule
  split
  · exact raise _
  · refine tenantSession fun s => query.bind fun _ => ?_
    split
    · exact raise _
    · exact setLicense

/-- What is in Redis afterwards was there before. -/
theorem run {p : M α} (h : Spares p) (s : State) (k : RedisKey) :
    (runM env p s).2.1.redis k = s.1.redis k ∨ (runM env p s).2.1.redis k = none := by
  refine h.all.run_inv (fun s' : State => s'.1.redis k = s.1.redis k ∨ s'.1.redis k = none)
    (fun o s' ho hs' => ⟨trivial, ?_⟩) (.inl rfl)
  obtain ⟨w, txs⟩ := s'
  cases o with
  | redisSet _ _ _ => exact ho.elim
  | redisIncr _ => exact ho.elim
  | redisExpire _ _ => exact ho.elim
  | redisDelete k' =>
    by_cases hk : k = k'
    · subst hk
      exact .inr (Function.update_self _ _ _)
    · refine hs'.imp (fun h => ?_) fun h => ?_
      · exact (Function.update_of_ne hk _ _).trans h
      · exact (Function.update_of_ne hk _ _).trans h
  | _ => exact hs'

end Spares

/-! ## Checks and toggles, one after the other -/

/-- The cached sets were computed from the present rows, at an instant that has been. -/
def CacheSound (env : Env) (w : World) : Prop :=
  env.settings.hasRedis = true → ∀ tenantId cs e, w.redis (.enabled tenantId) = some ⟨.codes cs, e⟩ →
    ∃ now ≤ env.clock w.ticks, ∀ code, code ∈ cs ↔ Entitled w.db tenantId code now

/-- A state reached by checks of modules, toggles and the passing of time. -/
inductive LicensingRun (env : Env) (w₀ : World) : World → Prop
  | start : LicensingRun env w₀ w₀
  | check {w : World} (rc : Option RequestContext) (tenantId : Uuid) (code : ModuleCode)
    (run : LicensingRun env w₀ w) : LicensingRun env w₀
      (runM env (getDb env rc fun _ => tenantHasModule env tenantId code) (w, [])).2.1
  | toggle {w : World} (tenantId : Uuid) (code : ModuleCode) (enabled : Bool)
    (run : LicensingRun env w₀ w) :
    LicensingRun env w₀ (runM env (setModule env tenantId code enabled) (w, [])).2.1
  | wait {w : World} (i : Nat) (later : w.ticks ≤ i) (run : LicensingRun env w₀ w) :
    LicensingRun env w₀ (w.at i)

/-- `enabled_codes` caches what it computed, if anything. -/
theorem runM_enabledCodes_cache (tenantId : Uuid) (w : World) (tx : Tx) (txs : List Tx) :
    (runM env (enabledCodes env tenantId) (w, tx :: txs)).2.1.redis = w.redis ∨
    ∃ e, (runM env (enabledCodes env tenantId) (w, tx :: txs)).2.1.redis =
      Function.update w.redis (.enabled tenantId)
        (some ⟨.codes (sortedSet (entitledIn (seen w tx) tenantId (env.clock w.ticks))), e⟩) := by
  have hcached : runM env (cachedCodes env tenantId) (w, tx :: txs) =
      (.ok (cachedIn env w tenantId), (w, tx :: txs)) := by
    unfold cachedCodes cachedIn
    split
    · rfl
    · rfl
  have hcompute : ∀ p : M (List String), p = (do
        let codes ← computeEnabled tenantId
        cacheCodes env tenantId codes
        return codes) →
      (runM env p (w, tx :: txs)).2.1.redis = w.redis ∨
      ∃ e, (runM env p (w, tx :: txs)).2.1.redis = Function.update w.redis (.enabled tenantId)
        (some ⟨.codes (sortedSet (entitledIn (seen w tx) tenantId (env.clock w.ticks))), e⟩) := by
    rintro p rfl
    unfold cacheCodes
    split
    · exact .inr ⟨_, rfl⟩
    · exact .inl rfl
  unfold enabledCodes
  rw [runM_bind_ok hcached]
  cases cachedIn env w tenantId with
  | none => exact hcompute _ rfl
  | some v =>
    cases v with
    | codes cs => exact .inl rfl
    | text _ => exact hcompute _ rfl
    | uuid _ => exact hcompute _ rfl
    | count _ => exact hcompute _ rfl

theorem runM_tenantHasModule_cache (tenantId : Uuid) (code : ModuleCode) (w : World) (tx : Tx)
    (txs : List Tx) :
    (runM env (tenantHasModule env tenantId code) (w, tx :: txs)).2.1.redis = w.redis ∨
    ∃ e, (runM env (tenantHasModule env tenantId code) (w, tx :: txs)).2.1.redis =
      Function.update w.redis (.enabled tenantId)
        (some ⟨.codes (sortedSet (entitledIn (seen w tx) tenantId (env.clock w.ticks))), e⟩) := by
  unfold tenantHasModule
  split
  · exact .inl rfl
  · have hcache := @runM_enabledCodes_cache env tenantId w tx txs
    rcases hrun : runM env (enabledCodes env tenantId) (w, tx :: txs) with ⟨r, s'⟩
    rw [hrun] at hcache
    rw [runM_bind, hrun]
    cases r with
    | ok cs => exact hcache
    | error e => exact hcache

theorem Quiet.tenantHasModule {tenantId : Uuid} {code : ModuleCode} :
    Quiet env (tenantHasModule env tenantId code) := by
  unfold LmsBackend.tenantHasModule
  split
  · exact pure _
  · exact enabledCodes.bind fun _ => pure _

/-- A quiet body's unit of work leaves what the body leaves. -/
theorem Quiet.runM_getDb_world {α : Type} {p : M α} (h : Quiet env p) (rc : Option RequestContext)
    (w : World) : (runM env (getDb env rc fun _ => p) (w, [])).2.1 =
      (runM env p (w.tick, [boundTx env (rc.bind (·.tenantId))
        ((rc.map (·.isSuperadmin)).getD false)])).2.1 := by
  rw [runM_getDb]
  obtain ⟨w', hrun, -, -⟩ := h.run w.tick [boundTx env (rc.bind (·.tenantId))
    ((rc.map (·.isSuperadmin)).getD false)]
  rw [hrun]
  cases (runM env p (w.tick, [boundTx env (rc.bind (·.tenantId))
    ((rc.map (·.isSuperadmin)).getD false)])).1 with
  | ok a =>
    show (runM env commitSession (w', _)).2.1 = w'
    rw [runM_commitSession_nil w' _ [] rfl rfl]
  | error e => rfl

theorem CacheSound.check (henv : env.Lawful) (h : CacheSound env w) (rc : Option RequestContext)
    (tenantId : Uuid) (code : ModuleCode) :
    (runM env (getDb env rc fun _ => tenantHasModule env tenantId code) (w, [])).2.1.db = w.db ∧
    CacheSound env
      (runM env (getDb env rc fun _ => tenantHasModule env tenantId code) (w, [])).2.1 := by
  rw [Quiet.tenantHasModule.runM_getDb_world rc w]
  set tx := boundTx env (rc.bind (·.tenantId)) ((rc.map (·.isSuperadmin)).getD false)
  obtain ⟨w', hrun, hstill, holder⟩ :=
    (@Quiet.tenantHasModule env tenantId code).run w.tick [tx]
  have hcache := @runM_tenantHasModule_cache env tenantId code w.tick tx []
  rw [hrun] at hcache ⊢
  have hlater : env.clock w.tick.ticks ≤ env.clock w'.ticks := henv.clock_mono _ _ holder.ticks
  have hnow : env.clock w.ticks ≤ env.clock w.tick.ticks := henv.clock_mono _ _ (Nat.le_succ _)
  refine ⟨hstill.db, fun hredis tid cs e he => ?_⟩
  have hold : w.redis (.enabled tid) = some ⟨.codes cs, e⟩ →
      ∃ now ≤ env.clock w'.ticks, ∀ code, code ∈ cs ↔ Entitled w'.db tid code now := by
    intro he
    obtain ⟨now, hle, hcodes⟩ := h hredis tid cs e he
    refine ⟨now, (hle.trans hnow).trans hlater, fun code => ?_⟩
    rw [hstill.db]
    exact hcodes code
  rcases hcache with hsame | ⟨e', hset⟩
  · exact hold (hsame ▸ he)
  · change w'.redis = _ at hset
    rw [hset] at he
    by_cases htid : tid = tenantId
    · subst htid
      rw [Function.update_self] at he
      cases he
      refine ⟨env.clock w.tick.ticks, hlater, fun code => ?_⟩
      rw [mem_sortedSet, mem_entitledIn, hstill.db]
      simp only [Entitled, Lapsed, Flagged]
      rw [show seen w.tick tx .modules = w.db .modules from seen_platform (by decide) rfl,
        show seen w.tick tx .tenantModules = w.db .tenantModules from
          seen_platform (by decide) rfl]
      rfl
    · rw [Function.update_of_ne (by simpa using htid)] at he
      exact hold he

/-- A toggle that fails leaves the rows alone. -/
theorem setModule_error {tenantId : Uuid} {code : ModuleCode} {enabled : Bool} {e : Err}
    {s' : State} (h : runM env (setModule env tenantId code enabled) (w, []) = (.error e, s')) :
    ∀ t, t ≠ .auditLogs → s'.1.db t = w.db t := by
  have hworks : ∀ s, Works env [.tenantModules] (do
      if (← query .tenants fun t => t.id = tenantId) = [] then
        throwApp .notFound ("Tenant " ++ uuidStr tenantId ++ " not found")
      else setLicense env s tenantId code enabled) := by
    intro s
    refine (Works.of_quiet Quiet.query).bind fun ts => ?_
    split
    · exact Works.raise _
    · exact Works.setLicense (by simp)
  unfold setModule at h
  split at h
  · cases h
    exact fun _ _ => rfl
  · rw [runM_tenantSession] at h
    obtain ⟨w', tx', hs', hlog, hguc, hwrites, hpending⟩ := (hworks ⟨env.clock w.ticks⟩).run w.tick
      (boundTx env none true) [] (fun x hx => (by cases hx))
    rcases hbody : runM env (do
      if (← query .tenants fun t => t.id = tenantId) = [] then
        throwApp .notFound ("Tenant " ++ uuidStr tenantId ++ " not found")
      else setLicense env ⟨env.clock w.ticks⟩ tenantId code enabled)
      (w.tick, [boundTx env none true]) with ⟨r, s₁⟩
    rw [hbody] at h hs'
    obtain rfl : s₁ = (w', [tx']) := hs'
    cases r with
    | error e' =>
      cases h
      exact hlog
    | ok u =>
      dsimp only at h
      rw [runM_commitSession] at h
      rcases hf : flushed w'.db tx' with ⟨r', tx''⟩
      rw [hf, committed, hf] at h
      cases r' with
      | error e' =>
        cases h
        exact hlog
      | ok u' => cases congrArg Prod.fst h

/-- Where the cache is used, a toggle leaves no set of its tenant. -/
theorem ModuleSet.uncached {tenantId : Uuid} {code : ModuleCode} {enabled : Bool} {m : Module}
    {x : Mvcc.Write Row (List Uuid)} (h : ModuleSet env w tenantId code enabled m x w')
    (hredis : env.settings.hasRedis = true) : w'.redis (.enabled tenantId) = none := by
  rw [h.redis, World.invalidated, if_pos hredis]
  exact Function.update_self _ _ _

/-- A toggle leaves the cached sets of other tenants. -/
theorem ModuleSet.cached_others {tenantId : Uuid} {code : ModuleCode} {enabled : Bool}
    {m : Module} {x : Mvcc.Write Row (List Uuid)}
    (h : ModuleSet env w tenantId code enabled m x w') {tid : Uuid} (hne : tid ≠ tenantId) :
    w'.redis (.enabled tid) = w.redis (.enabled tid) := by
  rw [h.redis, World.invalidated]
  split
  · exact Function.update_of_ne (by simpa using hne) _ _
  · rfl

/-- A toggle keeps the keys and the soundness of the cached sets. -/
theorem CacheSound.toggle (henv : env.Lawful) (hlic : Licences w.db) (h : CacheSound env w)
    (tenantId : Uuid) (code : ModuleCode) (enabled : Bool) :
    Licences (runM env (setModule env tenantId code enabled) (w, [])).2.1.db ∧
    CacheSound env (runM env (setModule env tenantId code enabled) (w, [])).2.1 := by
  have holder := @runM_older env _ (setModule env tenantId code enabled) (w, [])
  have hspares := @Spares.run env _ _ (@Spares.setModule env tenantId code enabled) (w, [])
  rcases hrun : runM env (setModule env tenantId code enabled) (w, []) with ⟨r, s'⟩
  rw [hrun] at holder hspares
  have hlater : env.clock w.ticks ≤ env.clock s'.1.ticks := henv.clock_mono _ _ holder.ticks
  cases r with
  | ok u =>
    obtain ⟨m, x, w', rfl, hset⟩ := setModule_ok hrun
    obtain ⟨row, hflag⟩ := hset.toggled.flagRow hlic
    rw [← hset.db] at hflag
    refine ⟨hflag.licences hlic, fun hredis tid cs e he => ?_⟩
    by_cases htid : tid = tenantId
    · subst htid
      have hnone := hset.uncached hredis
      change w'.redis _ = _ at he
      rw [hnone] at he
      cases he
    · change w'.redis _ = _ at he
      rw [hset.cached_others htid] at he
      obtain ⟨now, hle, hcodes⟩ := h hredis tid cs e he
      refine ⟨now, hle.trans hlater, fun c => ?_⟩
      have hother := @toggled_others _ _ _ _ _ _ hlic hflag hset.module tid c
        (fun hcon => htid hcon.1) now
      exact (hcodes c).trans hother.symm
  | error e =>
    have hdb := setModule_error hrun
    have hmodules : s'.1.db .modules = w.db .modules := hdb .modules (by simp)
    have hflags : s'.1.db .tenantModules = w.db .tenantModules := hdb .tenantModules (by simp)
    constructor
    · refine ⟨?_, ?_, ?_, ?_⟩
      · exact hmodules ▸ hlic.modules
      · exact hmodules ▸ hlic.codes
      · exact hflags ▸ hlic.ids
      · exact hflags ▸ hlic.flags
    · intro hredis tid cs e he
      rcases hspares (.enabled tid) with hsame | hnone
      · obtain ⟨now, hle, hcodes⟩ := h hredis tid cs e (hsame ▸ he)
        refine ⟨now, hle.trans hlater, fun c => ?_⟩
        rw [hcodes]
        simp only [Entitled, Lapsed, Flagged, hmodules, hflags]
      · change s'.1.redis _ = _ at hnone
        rw [hnone] at he
        cases he

/-- What checks and toggles leave: licences with their keys, and sound cached sets. -/
theorem LicensingRun.sound (henv : env.Lawful) (hlic : Licences w₀.db)
    (hempty : ∀ tenantId, w₀.redis (.enabled tenantId) = none) (h : LicensingRun env w₀ w) :
    Licences w.db ∧ CacheSound env w := by
  induction h with
  | start =>
    refine ⟨hlic, fun _ tenantId cs e he => ?_⟩
    rw [hempty] at he
    cases he
  | @check w rc tenantId code run ih =>
    obtain ⟨hdb, hsound⟩ := ih.2.check henv rc tenantId code
    exact ⟨hdb.symm ▸ ih.1, hsound⟩
  | @toggle w tenantId code enabled run ih => exact ih.2.toggle henv ih.1 tenantId code enabled
  | @wait w i later run ih =>
    refine ⟨ih.1, fun hredis tenantId cs e he => ?_⟩
    obtain ⟨now, hle, hcodes⟩ := ih.2 hredis tenantId cs e he
    exact ⟨now, hle.trans (henv.clock_mono _ _ later), hcodes⟩

/-! ## What a toggle means -/

theorem value_injective {c c' : ModuleCode} (h : c.value = c'.value) : c = c' := by
  cases c <;> cases c' <;> first | rfl | exact absurd h (by decide)

theorem mem_core_value {c : ModuleCode} :
    c.value ∈ coreModuleCodes.map (·.value) ↔ c ∈ coreModuleCodes := by
  cases c <;> decide

/-- Without a cached set, the answer is the entitlement of now. -/
theorem hasModule_uncached {tenantId : Uuid} {code : ModuleCode}
    (h : ∀ cs, cachedIn env w tenantId ≠ some (.codes cs)) :
    hasModule env w tenantId code ↔
      Entitled w.db tenantId code.value (env.clock w.ticks) := by
  rw [hasModule, enabledIn_uncached h, mem_entitledIn, ← mem_core_value]
  exact ⟨fun h => h.elim .inl id, .inr⟩

/-- With a cached set, the answer is an entitlement of an earlier instant. -/
theorem hasModule_sound (hsound : CacheSound env w) (tenantId : Uuid) (code : ModuleCode) :
    ∃ now ≤ env.clock w.ticks,
      hasModule env w tenantId code ↔ Entitled w.db tenantId code.value now := by
  by_cases hcached : ∃ cs, cachedIn env w tenantId = some (.codes cs)
  · obtain ⟨cs, hcs⟩ := hcached
    have hentry := hcs
    unfold cachedIn at hentry
    split at hentry
    · rename_i hredis
      obtain ⟨⟨v, e⟩, hentry, rfl⟩ := Option.map_eq_some_iff.mp hentry
      obtain ⟨now, hle, hcodes⟩ :=
        hsound hredis tenantId cs e (Option.filter_eq_some_iff.mp hentry).1
      refine ⟨now, hle, ?_⟩
      rw [hasModule, enabledIn_eq, hcs, ← mem_core_value]
      dsimp only
      rw [hcodes]
      exact ⟨fun h => h.elim .inl id, .inr⟩
    · cases hentry
  · exact ⟨_, le_refl _, hasModule_uncached fun cs hcs => hcached ⟨cs, hcs⟩⟩

/-- **Toggling a module**: after any checks and toggles, once a toggle has returned, the
tenant has the module iff it was switched on and its licence has not lapsed. Every other
tenant's modules are as before, and so are the tenant's other modules, except that one
whose licence has lapsed is no longer answered from the cache. -/
theorem setModule_toggles (henv : env.Lawful) (hlic : Licences w₀.db)
    (hempty : ∀ tenantId, w₀.redis (.enabled tenantId) = none) (hrun : LicensingRun env w₀ w)
    {tenantId : Uuid} {code : ModuleCode} (hcore : code ∉ coreModuleCodes)
    (hactive : ∃ m ∈ w.db .modules, m.code = code.value ∧ m.isActive = true) {enabled : Bool}
    {s' : State} (h : runM env (setModule env tenantId code enabled) (w, []) = (.ok (), s')) :
    (hasModule env s'.1 tenantId code ↔
      enabled = true ∧ ¬ Lapsed w.db tenantId code.value (env.clock s'.1.ticks)) ∧
    (∀ tenantId' code', tenantId' ≠ tenantId →
      (hasModule env s'.1 tenantId' code' ↔
        hasModule env (w.at s'.1.ticks) tenantId' code')) ∧
    ∀ code' ≠ code,
      (hasModule env s'.1 tenantId code' ↔ hasModule env (w.at s'.1.ticks) tenantId code') ∨
      hasModule env (w.at s'.1.ticks) tenantId code' ∧ ¬ hasModule env s'.1 tenantId code' ∧
        Lapsed w.db tenantId code'.value (env.clock s'.1.ticks) := by
  obtain ⟨hlicences, hsound⟩ := hrun.sound henv hlic hempty
  obtain ⟨m, x, w', rfl, hset⟩ := setModule_ok h
  obtain ⟨row, hflag⟩ := hset.toggled.flagRow hlicences
  rw [← hset.db] at hflag
  obtain ⟨m', hm', hcode', hactive'⟩ := hactive
  obtain rfl := hset.unique m' hm' hcode'
  have huncached : ∀ cs, cachedIn env w' tenantId ≠ some (.codes cs) := by
    intro cs hcs
    unfold cachedIn at hcs
    split at hcs
    · rename_i hredis
      rw [World.redisAt, hset.uncached hredis] at hcs
      cases hcs
    · cases hcs
  have hothers := fun tid c hne =>
    @toggled_others _ _ _ _ _ _ hlicences hflag hset.module tid c hne
  have hlater : CacheSound env (w.at w'.ticks) := by
    intro hredis tid cs e he
    obtain ⟨now, hle, hcodes⟩ := hsound hredis tid cs e he
    exact ⟨now, hle.trans (henv.clock_mono _ _ hset.older.ticks), hcodes⟩
  refine ⟨?_, fun tenantId' code' hne => ?_, fun code' hne => ?_⟩
  · rw [hasModule_uncached huncached, ← hset.named]
    exact toggled_entitled hlicences hflag hset.module hactive'
      (by rw [hset.named, mem_core_value]; exact hcore) _
  · have hcached : cachedIn env w' tenantId' = cachedIn env (w.at w'.ticks) tenantId' := by
      unfold cachedIn World.redisAt
      rw [hset.cached_others hne]
      rfl
    have hanswer : ∀ c, c ∈ enabledIn env w' w'.db tenantId' ↔
        c ∈ enabledIn env (w.at w'.ticks) w.db tenantId' := by
      intro c
      rw [enabledIn_eq, enabledIn_eq, hcached]
      split
      · exact Iff.rfl
      · rw [mem_entitledIn, mem_entitledIn]
        exact hothers tenantId' c (fun hcon => hne hcon.1) _
    exact or_congr_right (hanswer code'.value)
  · have hafter : hasModule env w' tenantId code' ↔
        Entitled w.db tenantId code'.value (env.clock w'.ticks) := by
      rw [hasModule_uncached huncached]
      refine hothers tenantId code'.value (fun hcon => hne (value_injective ?_)) _
      rw [hcon.2, hset.named]
    obtain ⟨now, hle, hbefore⟩ := hasModule_sound hlater tenantId code'
    by_cases hstill : Entitled w.db tenantId code'.value (env.clock w'.ticks)
    · exact .inl ⟨fun _ => hbefore.mpr (hstill.earlier hle), fun _ => hafter.mpr hstill⟩
    · by_cases hearlier : Entitled w.db tenantId code'.value now
      · exact .inr ⟨hbefore.mpr hearlier, fun hcon => hstill (hafter.mp hcon),
          hearlier.lapsed hstill⟩
      · exact .inl ⟨fun hcon => (hstill (hafter.mp hcon)).elim,
          fun hcon => (hearlier (hbefore.mp hcon)).elim⟩

/-- A tenant whose licence for the courses ran out. -/
def lapsedWorld : World := World.fresh 100 fun
  | .tenants => [{ id := 1, name := "ABC Academy", slug := "abc-academy" }]
  | .modules => [{ id := 2, code := "COURSES", name := "Course catalog & enrollment" }]
  | .tenantModules => [{ id := 3, tenantId := 1, moduleId := 2, expiresAt := some 50 }]
  | _ => []

theorem lapsedWorld_licences : Licences lapsedWorld.db where
  modules := by decide
  codes := by decide
  ids := by decide
  flags := by decide

/-- The toggle returns, and yet the tenant does not have the module. -/
theorem setModule_lapsed : Licences lapsedWorld.db ∧
    (∃ m ∈ lapsedWorld.db .modules, m.code = ModuleCode.courses.value ∧ m.isActive = true) ∧
    ∃ s', runM (Env.reference {}) (setModule (Env.reference {}) 1 .courses true)
      (lapsedWorld, []) = (.ok (), s') ∧ ¬ hasModule (Env.reference {}) s'.1 1 .courses :=
  ⟨lapsedWorld_licences, by decide, _, rfl, by decide⟩

theorem setModule_toggles_lapsed :
    hasModule (Env.reference {}) (runM (Env.reference {})
      (setModule (Env.reference {}) 1 .courses true) (lapsedWorld, [])).2.1 1 .courses ↔
    true = true ∧ ¬ Lapsed lapsedWorld.db 1 "COURSES" (runM (Env.reference {})
      (setModule (Env.reference {}) 1 .courses true) (lapsedWorld, [])).2.1.ticks :=
  (setModule_toggles (reference_lawful {}) lapsedWorld_licences (fun _ => rfl) .start (by decide)
    (by decide) rfl).1

end LmsBackend
