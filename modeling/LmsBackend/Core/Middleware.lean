import LmsBackend.Core.Security
import LmsBackend.Core.Tenancy

/-!
# Middleware

`RequestContextMiddleware`, which establishes the request context and never
rejects a request, and the fixed-window `RateLimiter`.
-/

namespace LmsBackend

variable (env : Env)

/-- Request headers, names in lower case. -/
abbrev Headers := List (String × String)

/-- `headers.get(name)`. -/
def Headers.find (h : Headers) (name : String) : Option String :=
  (h.find? fun x => x.1 = name).map (·.2)

/-- `headers.get(name)`, where an empty value counts as absent. -/
def Headers.nonempty (h : Headers) (name : String) : Option String :=
  truthy (h.find name)

/-- `_client_ip`: the first address of `X-Forwarded-For`, else the peer. -/
def clientIp (headers : Headers) (client : Option String) : Option String :=
  match headers.nonempty "x-forwarded-for" with
  | some fwd => some (String.ofList (Text.strip (Text.partition ',' fwd.toList).1))
  | none => client

/-- `auth[7:]` if `auth.lower().startswith("bearer ")`. -/
def bearerPart (auth : String) : Option String :=
  if "bearer ".toList.isPrefixOf (env.lower auth).toList then
    some (String.ofList (auth.toList.drop 7))
  else none

/-- The header-based half of `_resolve_identity`. -/
def resolveFromHeader (headers : Headers) : M (Option Uuid × Option Uuid) := do
  match headers.nonempty (env.lower env.settings.tenantHeader) with
  | some rawTenant => return (← resolveTenantId env rawTenant, none)
  | none => return (none, none)

/-- `_resolve_identity`: the tenant and the user of the request. -/
def resolveIdentity (headers : Headers) : M (Option Uuid × Option Uuid) := do
  match bearerPart env ((headers.find "authorization").getD "") with
  | some token =>
    match ← decodeToken env token "access" with
    | .ok payload => return (some payload.tid, some payload.sub)
    | .error _ => resolveFromHeader env headers
  | none => resolveFromHeader env headers

/-- `headers.get("x-request-id") or str(uuid.uuid4())`. -/
def requestId (headers : Headers) : M String :=
  match headers.nonempty "x-request-id" with
  | some id => .ret id
  | none => do return uuidStr (← uuid4)

/-- The context that `RequestContextMiddleware.__call__` sets. -/
def requestContext (headers : Headers) (client : Option String) : M RequestContext := do
  let requestId ← requestId headers
  let (tenantId, userId) ← resolveIdentity env headers
  return { requestId, tenantId, userId, ipAddress := clientIp headers client }

/-! ## Rate limiting -/

/-- `_UNITS`. -/
def rateUnit (unit : List Char) : Option Nat :=
  if unit = "second".toList then some 1
  else if unit = "minute".toList then some 60
  else if unit = "hour".toList then some 3600
  else if unit = "day".toList then some 86400
  else none

/-- `s.rstrip("s")`. -/
def rstripS (s : List Char) : List Char := (s.reverse.dropWhile (· = 's')).reverse

/-- `parse_rate`: `'10/minute'` is 10 in 60 seconds. It is evaluated when the
module is imported, so a text it refuses stops the application from starting. -/
def parseRate (spec : String) : Option (Nat × Nat) :=
  let (times, unit) := Text.partition '/' spec.toList
  match Text.decDigits 0 false (Text.strip times), rateUnit (rstripS (Text.strip unit)) with
  | some times, some seconds => some (times, seconds)
  | _, _ => none

/-- The identity a request is counted under. -/
def rateIdentity (rc : RequestContext) : String :=
  match rc.userId with
  | some u => uuidStr u
  | none =>
    match rc.ipAddress with
    | some ip => if ip = "" then "anon" else ip
    | none => "anon"

/-- `if count == 1: await redis.expire(key, seconds)`. -/
def startWindow (key : RedisKey) (count seconds : Nat) : M Unit :=
  if count = 1 then perform (.redisExpire key seconds) else pure ()

/-- `RateLimiter(spec).__call__` on a route with this path. -/
def rateLimit (spec : Nat × Nat) (path : String) (rc : RequestContext) : M Unit :=
  if env.settings.rateLimitEnabled && env.settings.hasRedis then do
    let key := RedisKey.rate path (rateIdentity rc)
    let count ← perform (.redisIncr key)
    startWindow key count spec.2
    if spec.1 < count then
      let ttl ← perform (.redisTtl key)
      throwApp .rateLimit
        ("Rate limit exceeded (" ++ toString spec.1 ++ "/" ++ toString spec.2 ++ "s)")
        (.retryAfter (max ttl 1))
    else pure ()
  else pure ()

example : parseRate "10/minute" = some (10, 60) := by decide

end LmsBackend
