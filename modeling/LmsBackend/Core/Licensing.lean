import Mathlib.Data.List.Dedup
import LmsBackend.Core.Session

/-!
# Module licensing

`app.core.licensing`: which modules a tenant has, the Redis cache of that set,
and the guard that every non-core router carries.
-/

namespace LmsBackend

variable (env : Env)

/-- `ModuleCode`. -/
inductive ModuleCode | auth | courses | learning | assignments | dashboard | admin
  deriving DecidableEq

/-- `code.value`. -/
def ModuleCode.value : ModuleCode → String
  | .auth => "AUTH"
  | .courses => "COURSES"
  | .learning => "LEARNING"
  | .assignments => "ASSIGNMENTS"
  | .dashboard => "DASHBOARD"
  | .admin => "ADMIN"

/-- `ALL_MODULE_CODES`. -/
def allModuleCodes : List ModuleCode :=
  [.auth, .courses, .learning, .assignments, .dashboard, .admin]

/-- `ModuleCode(value)`, `none` where it raises. -/
def ModuleCode.ofValue (value : String) : Option ModuleCode :=
  allModuleCodes.find? fun c => c.value = value

/-- `CORE_MODULE_CODES`. -/
def coreModuleCodes : List ModuleCode := [.auth]

/-- `MODULE_CATALOG`. -/
def ModuleCode.catalogName : ModuleCode → String
  | .auth => "Authentication & identity"
  | .courses => "Course catalog & enrollment"
  | .learning => "Lessons, content & progress"
  | .assignments => "Assignments, quizzes & grading"
  | .dashboard => "Learner & instructor dashboards"
  | .admin => "Administration, reports & analytics"

/-- `_CACHE_TTL`. -/
def enabledTtl : Nat := 60

/-- `sorted` on texts: by code points. -/
def sortTexts (xs : List String) : List String := xs.insertionSort fun a b => a ≤ b

/-- The set of a list of texts, in `sorted` order. -/
def sortedSet (xs : List String) : List String := sortTexts xs.dedup

theorem mem_sortedSet {x : String} {xs : List String} : x ∈ sortedSet xs ↔ x ∈ xs := by
  rw [sortedSet, sortTexts, List.mem_insertionSort, List.mem_dedup]

/-- The codes of the modules joined to the tenant's flags that satisfy `p`. -/
def joinedCodes (tenantId : Uuid) (p : Module → TenantModule → Bool) : M (List String) := do
  let rows ← sql (.join .modules .tenantModules fun m tm =>
    decide (tm.moduleId = m.id) && decide (tm.tenantId = tenantId) && p m tm)
  return rows.map (·.1.code)

/-- `LicensingService._compute_enabled`. -/
def computeEnabled (tenantId : Uuid) : M (List String) := do
  let now ← now
  let codes ← joinedCodes tenantId fun m tm => tm.enabled && m.isActive
  let expired ← joinedCodes tenantId fun _ tm => tm.expiresAt.any (· < now)
  return codes.filter (· ∉ expired) ++ coreModuleCodes.map (·.value)

/-- The cached set of a tenant, if Redis has it. -/
def cachedCodes (tenantId : Uuid) : M (Option RedisValue) :=
  if env.settings.hasRedis then perform (.redisGet (.enabled tenantId)) else pure none

/-- Cache the set of a tenant, if there is Redis. -/
def cacheCodes (tenantId : Uuid) (codes : List String) : M Unit :=
  if env.settings.hasRedis then
    perform (.redisSet (.enabled tenantId) (.codes (sortedSet codes)) enabledTtl)
  else pure ()

/-- `LicensingService.enabled_codes`. -/
def enabledCodes (tenantId : Uuid) : M (List String) := do
  match ← cachedCodes env tenantId with
  | some (.codes cs) => return cs
  | _ =>
    let codes ← computeEnabled tenantId
    cacheCodes env tenantId codes
    return codes

/-- `LicensingService.tenant_has_module`. -/
def tenantHasModule (tenantId : Uuid) (code : ModuleCode) : M Bool := do
  if code ∈ coreModuleCodes then return true
  else return code.value ∈ (← enabledCodes env tenantId)

/-- `LicensingService.invalidate`. -/
def invalidate (tenantId : Uuid) : M Unit :=
  if env.settings.hasRedis then perform (.redisDelete (.enabled tenantId)) else pure ()

/-- The flag of a tenant for a module: a new row, or the existing one changed. -/
def saveLicense (s : Session) (tenantId moduleId : Uuid) (tm : Option TenantModule)
    (enabled : Bool) : M Unit := do
  let now ← now
  match tm with
  | none =>
    add .tenantModules
      { id := ← uuid4, tenantId, moduleId, enabled,
        enabledAt := if enabled then some now else none }
  | some tm =>
    updateRow s .tenantModules tm.id fun r =>
      { r with enabled := enabled, enabledAt := if enabled then some now else tm.enabledAt }

/-- `LicensingService.set_module`. -/
def setLicense (s : Session) (tenantId : Uuid) (code : ModuleCode) (enabled : Bool) : M Unit := do
  match ← scalarOneOrNone (← query .modules fun m => m.code = code.value) with
  | none => throwApp .notFound ("Module " ++ code.value ++ " not in catalog")
  | some m =>
    let tm ← scalarOneOrNone (← query .tenantModules fun r =>
      r.tenantId = tenantId && r.moduleId = m.id)
    saveLicense s tenantId m.id tm enabled
    flush
    invalidate env tenantId

/-- `require_module(code)`. -/
def requireModule (rc : RequestContext) (code : ModuleCode) : M Unit := do
  match rc.tenantId with
  | none => throwApp .tenantResolution "Tenant could not be resolved"
  | some tenantId =>
    if ← tenantHasModule env tenantId code then pure ()
    else throwApp .moduleNotEnabled "Module not enabled for tenant"

end LmsBackend
