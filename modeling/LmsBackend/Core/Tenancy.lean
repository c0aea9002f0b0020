import LmsBackend.Core.Session

/-!
# Tenants

`app.core.tenancy.service`: tenant rows, and the resolution of a tenant from an
identifier or a slug. The resolution runs in a session of its own that bypasses
row-level security; the only table it reads is `tenants`.
-/

namespace LmsBackend

variable (env : Env)

/-- `TenantService.get_by_slug`. -/
def getTenantBySlug (slug : String) : M (Option Tenant) := do
  scalarOneOrNone (← query .tenants fun r => r.slug = slug && r.deletedAt.isNone)

/-- `TenantService.create`. -/
def createTenantRow (name slug : String) : M Tenant := do
  let tenant : Tenant := { id := ← uuid4, name, slug }
  add .tenants tenant
  flush
  return tenant

/-- `TenantService.list_all`. -/
def listAllTenants : M (List Tenant) := queryAll env .tenants fun r => r.deletedAt.isNone

/-- `_SLUG_TTL`. -/
def slugTtl : Nat := 300

/-- Cache the tenant of a slug, if there is Redis. -/
def cacheSlug (slug : String) (tenantId : Uuid) : M Unit :=
  if env.settings.hasRedis then perform (.redisSet (.slug slug) (.uuid tenantId) slugTtl)
  else pure ()

/-- The part of `resolve_tenant_id` that asks the database. -/
def resolveSlug (identifier : String) : M (Option Uuid) :=
  tenantSession env none true fun _ => do
    match ← getTenantBySlug identifier with
    | none => return none
    | some tenant =>
      if tenant.isActive then
        cacheSlug env identifier tenant.id
        return some tenant.id
      else return none

/-- `resolve_tenant_id`. A text that is an identifier is taken as one without
any lookup. -/
def resolveTenantId (identifier : String) : M (Option Uuid) := do
  match parseUuid identifier with
  | some u => return some u
  | none =>
    if env.settings.hasRedis then
      match ← perform (.redisGet (.slug identifier)) with
      | some (.uuid u) => return some u
      | _ => resolveSlug env identifier
    else resolveSlug env identifier

end LmsBackend
