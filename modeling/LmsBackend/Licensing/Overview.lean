import LmsBackend.Effects.Reads
import LmsBackend.History.Accounts
import LmsBackend.Isolation.Requests
import LmsBackend.Licensing.Toggle

/-!
# The overview of a tenant's modules

`TenantAdminService.list_modules` beside `LicensingService.tenant_has_module`.

- `Run.coreCached`: over every run, the cached sets have the core modules.
- `overview_agrees_iff`: the overview names every module and agrees with the guard iff the
  table has no code that the enumeration lacks.
-/

namespace LmsBackend

open Mvcc

variable {env : Env} {w w₀ : World} {txs : List Tx} {h : List Exchange}
  {Ok : List Exchange → World → Request → Prop}

/-! ## The cache -/

/-- Over every run from an empty cache, the cached sets have the core modules. -/
theorem Run.coreCached (hempty : ∀ tenantId, w₀.redis (.enabled tenantId) = none)
    (hrun : Run env Ok w₀ h w) : w.CoreCached := by
  induction hrun with
  | start =>
    intro tenantId e he
    rw [hempty tenantId] at he
    cases he
  | serve req run ok ih => exact serve_coreCached env req ih

theorem core_mem_enabledIn (hw : w.CoreCached) (tenantId : Uuid) {code : String}
    (hcore : code ∈ coreModuleCodes.map (·.value)) : code ∈ enabledIn env w w.db tenantId := by
  rw [enabledIn_eq]
  split
  · rename_i cs hcs
    unfold cachedIn at hcs
    split at hcs
    · obtain ⟨e, he, hvalue⟩ := Option.map_eq_some_iff.mp hcs
      have hentry := hw tenantId e (Option.filter_eq_some_iff.mp he).1
      rw [hvalue] at hentry
      obtain ⟨c, hc, rfl⟩ := List.mem_map.mp hcore
      exact hentry c hc
    · cases hcs
  · exact mem_entitledIn.mpr (.inl hcore)

/-! ## The guard's answer -/

/-- `LicensingService.tenant_has_module`, asked with the code of a row. -/
def tenantHasCode (env : Env) (tenantId : Uuid) (code : String) : M Bool := do
  if code ∈ coreModuleCodes.map (·.value) then return true
  else return code ∈ (← enabledCodes env tenantId)

theorem tenantHasModule_eq (tenantId : Uuid) (code : ModuleCode) :
    tenantHasModule env tenantId code = tenantHasCode env tenantId code.value := by
  unfold tenantHasModule tenantHasCode
  simp only [mem_core_value]

/-- What `tenant_has_module` answers in a session of its own. -/
def guardAnswer (env : Env) (rc : Option RequestContext) (w : World) (tenantId : Uuid)
    (code : String) : Except Err Bool :=
  (runM env (getDb env rc fun _ => tenantHasCode env tenantId code) (w, [])).1

theorem runM_tenantHasCode (hw : w.CoreCached) (tenantId : Uuid) (code : String) {tx : Tx}
    (htx : tx.writes = []) :
    (runM env (tenantHasCode env tenantId code) (w, tx :: txs)).1 =
      .ok (decide (code ∈ enabledIn env w w.db tenantId)) := by
  unfold tenantHasCode
  by_cases hcore : code ∈ coreModuleCodes.map (·.value)
  · rw [if_pos hcore, decide_eq_true (core_mem_enabledIn hw tenantId hcore)]
    rfl
  · rw [if_neg hcore]
    have henabled := @runM_enabledCodes env tenantId w tx txs
    rw [enabledIn_congr (seen_platform (by decide) htx) (seen_platform (by decide) htx)] at henabled
    rcases hrun : runM env (enabledCodes env tenantId) (w, tx :: txs) with ⟨r, s'⟩
    rw [hrun] at henabled
    cases henabled
    rw [runM_bind_ok hrun]
    rfl

theorem guardAnswer_eq (rc : Option RequestContext) (hw : w.CoreCached) (tenantId : Uuid)
    (code : String) : guardAnswer env rc w tenantId code =
      .ok (decide (code ∈ enabledIn env w.tick w.db tenantId)) := by
  rw [guardAnswer, Quiet.runM_getDb_fst]
  exact runM_tenantHasCode (w := w.tick) hw tenantId code rfl

/-! ## The overview -/

/-- The catalogue's name of a known module, and the row's own name of another. -/
def moduleName (m : Module) : String :=
  ((ModuleCode.ofValue m.code).map (·.catalogName)).getD m.name

/-- The overview succeeds, with one entry for each row of `modules`, and agrees with the guard
on every one of them. -/
structure OverviewAgrees (env : Env) (rc : Option RequestContext) (w : World) (txs : List Tx)
    (tenantId : Uuid) : Prop where
  entries : ∃ entries : List TenantModuleOut,
    (runM env (listModules env tenantId) (w, txs)).1 = .ok entries ∧
    (entries.map fun e => (e.code, e.name, (Except.ok e.enabled : Except Err Bool))).Perm
      ((w.db .modules).map fun m => (m.code, moduleName m, guardAnswer env rc w tenantId m.code))

/-- The entry of a row, or the error that its code raises. -/
def overviewEntry (enabled : List String) (m : Module) : M TenantModuleOut :=
  match ModuleCode.ofValue m.code with
  | some code => pure { code := m.code, name := code.catalogName, enabled := m.code ∈ enabled }
  | none => .raise (.unhandled (.valueError (m.code ++ " is not a valid ModuleCode")))

theorem runM_overviewEntry {enabled : List String} {m : Module} (s : State)
    (hm : (ModuleCode.ofValue m.code).isSome) : runM env (overviewEntry enabled m) s =
      (.ok { code := m.code, name := moduleName m, enabled := m.code ∈ enabled }, s) := by
  obtain ⟨code, hcode⟩ := Option.isSome_iff_exists.mp hm
  unfold overviewEntry moduleName
  rw [hcode]
  rfl

/-- Rows whose codes are all known give an entry each. -/
theorem runM_overviewEntries {enabled : List String} (s : State) : ∀ {ms : List Module},
    (∀ m ∈ ms, (ModuleCode.ofValue m.code).isSome) →
    runM env (ms.mapM (overviewEntry enabled)) s =
      (.ok (ms.map fun m =>
        { code := m.code, name := moduleName m, enabled := m.code ∈ enabled }), s) := by
  intro ms hms
  induction ms with
  | nil => rfl
  | cons m ms ih =>
    rw [List.mapM_cons, runM_bind_ok (runM_overviewEntry s (hms m List.mem_cons_self)),
      runM_bind_ok (ih fun m hm => hms m (List.mem_cons_of_mem _ hm))]
    rfl

/-- One row whose code is unknown fails them all. -/
theorem runM_overviewEntries_unknown {enabled : List String} {s : State} {ms : List Module}
    {entries : List TenantModuleOut}
    (hrun : (runM env (ms.mapM (overviewEntry enabled)) s).1 = .ok entries) :
    ∀ m ∈ ms, (ModuleCode.ofValue m.code).isSome := by
  induction ms generalizing s entries with
  | nil => exact fun _ hm => by cases hm
  | cons m ms ih =>
    rw [List.mapM_cons] at hrun
    by_cases hm : (ModuleCode.ofValue m.code).isSome
    · rw [runM_bind_ok (runM_overviewEntry s hm)] at hrun
      rcases hrest : runM env (ms.mapM (overviewEntry enabled)) s with ⟨r, s'⟩
      cases r with
      | ok rest =>
        refine List.forall_mem_cons.mpr ⟨hm, ih (congrArg Prod.fst hrest)⟩
      | error e =>
        rw [runM_bind_error hrest] at hrun
        cases hrun
    · -- the conversion to the enumeration raises at this row
      have hnone := Option.not_isSome_iff_eq_none.mp hm
      unfold overviewEntry at hrun
      rw [hnone] at hrun
      cases hrun

theorem Quiet.overviewEntries {enabled : List String} :
    ∀ ms : List Module, Quiet env (ms.mapM (overviewEntry enabled)) := by
  intro ms
  induction ms with
  | nil => exact Quiet.pure _
  | cons m ms ih =>
    rw [List.mapM_cons]
    refine Quiet.bind ?_ fun _ => ih.bind fun _ => Quiet.pure _
    unfold overviewEntry
    split
    · exact Quiet.pure _
    · exact Quiet.raise _

/-- What the overview answers: the entries of the rows, in the order they come. -/
theorem runM_listModules (tenantId : Uuid) : ∃ s : State, ∃ seed,
    (runM env (listModules env tenantId) (w, txs)).1 =
      (runM env ((arranged env seed (w.db .modules)).mapM
        (overviewEntry (enabledIn env w.tick w.db tenantId))) s).1 := by
  obtain ⟨w', hrun, hstill, -⟩ := (@Quiet.enabledCodes env tenantId).run w.tick
    (boundTx env none true :: txs)
  rw [runM_enabledCodes, enabledIn_congr (seen_platform (by decide) rfl)
    (seen_platform (by decide) rfl)] at hrun
  have hrows : runM env (queryAll env .modules fun _ => true)
      (w', boundTx env none true :: txs) =
      (.ok (arranged env w'.draws (w.db .modules)),
        ({ w' with draws := w'.draws + 1 }, boundTx env none true :: txs)) := by
    have hseen : (seen w' (boundTx env none true) .modules).filter (fun _ => true) =
        w.db .modules := by
      rw [List.filter_true, seen_platform (by decide) rfl, hstill.db]
      rfl
    rw [queryAll, runM_bind_ok (runM_query _ _ _ _ _), hseen]
    rfl
  refine ⟨({ w' with draws := w'.draws + 1 }, boundTx env none true :: txs), w'.draws, ?_⟩
  have hquiet : ∀ _ : Session, Quiet env (do
      let enabled ← enabledCodes env tenantId
      let modules ← queryAll env .modules fun _ => true
      modules.mapM (overviewEntry enabled)) := fun _ =>
    Quiet.enabledCodes.bind fun _ => Quiet.queryAll.bind Quiet.overviewEntries
  refine (Quiet.runM_tenantSession_fst hquiet w txs).trans ?_
  rw [runM_bind_ok hrun, runM_bind_ok hrows]
  rfl

/-- **The overview**: it succeeds, with an entry for every module that has the catalogue's
name and says what `tenant_has_module` says, iff every row's code is one the code knows. -/
theorem overview_agrees_iff (henv : env.Lawful) (rc : Option RequestContext) (hw : w.CoreCached)
    (txs : List Tx) (tenantId : Uuid) :
    OverviewAgrees env rc w txs tenantId ↔
      ∀ m ∈ w.db .modules, (ModuleCode.ofValue m.code).isSome := by
  obtain ⟨s, seed, hlist⟩ := @runM_listModules env w txs tenantId
  have hperm := arranged_perm henv seed (w.db .modules)
  constructor
  · rintro ⟨entries, hrun, -⟩ m hm
    rw [hlist] at hrun
    exact runM_overviewEntries_unknown hrun m (hperm.mem_iff.mpr hm)
  · intro hknown
    rw [runM_overviewEntries s fun m hm => hknown m (hperm.mem_iff.mp hm)] at hlist
    refine ⟨_, hlist, ?_⟩
    rw [List.map_map]
    refine (hperm.map _).trans (List.Perm.of_eq (List.map_congr_left fun m _ => ?_))
    rw [guardAnswer_eq rc hw tenantId m.code]
    rfl

theorem overview_agrees_lapsed :
    OverviewAgrees (Env.reference {}) none lapsedWorld [] 1 ↔
      ∀ m ∈ lapsedWorld.db .modules, (ModuleCode.ofValue m.code).isSome :=
  overview_agrees_iff (reference_lawful {}) none (fun _ _ he => by cases he) [] 1

/-- A catalogue with a module that is newer than the enumeration. -/
def newerWorld : World := World.fresh 100 fun
  | .tenants => [{ id := 1, name := "ABC Academy", slug := "abc-academy" }]
  | .modules => [{ id := 2, code := "CERTIFICATES", name := "Certificates" }]
  | _ => []

/-- The overview of every tenant fails with a `ValueError`. -/
theorem overview_newer :
    (runM (Env.reference {}) (listModules (Env.reference {}) 1) (newerWorld, [])).1 =
      .error (.unhandled (.valueError "CERTIFICATES is not a valid ModuleCode")) ∧
    ¬ OverviewAgrees (Env.reference {}) none newerWorld [] 1 := by
  have hfails : (runM (Env.reference {}) (listModules (Env.reference {}) 1) (newerWorld, [])).1 =
      .error (.unhandled (.valueError "CERTIFICATES is not a valid ModuleCode")) := by
    decide +kernel
  refine ⟨hfails, ?_⟩
  rintro ⟨entries, hrun, -⟩
  rw [hfails] at hrun
  cases hrun

end LmsBackend
