import LmsBackend.Core.Schema

/-!
# The world the application runs in

The state outside the code (database, Redis, process memory, clock, sources of
identifiers) and the operations through which the code reaches it. Every
function of the application that awaits something is a program `M α` over
these operations.

- `Settings`: the fields of `Settings` that the code reads, with its defaults.
- `Env`: the settings together with the third-party functions the code calls
  (JWT signing, password hashing, the `Authorization` header parser) and the
  choices the platform makes (clock readings, row order). `Env.Lawful` is what
  the code relies on about them.
- `Op`, `exec`: the operations and what they do. `now` is one clock reading.
- `Err`: the exceptions of the application, of the database and of the runtime.
-/

namespace LmsBackend

open Mvcc

/-- `app.core.config.Settings`. -/
structure Settings where
  environment : String := "local"
  redisUrl : Option String := none
  jwtSecretKey : String := "change-me-please-32-bytes-minimum-secret"
  jwtAlgorithm : String := "HS256"
  accessTokenTtlSeconds : Nat := 900
  refreshTokenTtlSeconds : Nat := 2592000
  passwordResetTtlSeconds : Nat := 3600
  rateLimitEnabled : Bool := true
  rateLimitDefault : String := "100/minute"
  rateLimitAuth : String := "10/minute"
  tenantHeader : String := "X-Tenant-ID"
  enableRowLevelSecurity : Bool := true

/-- `get_redis() is not None`: the client exists when `redis_url` is set and not empty. -/
def Settings.hasRedis (s : Settings) : Bool :=
  match s.redisUrl with
  | some url => url ≠ ""
  | none => false

/-- The claims of a token: `app.core.security.jwt.TokenPayload`. -/
structure TokenPayload where
  sub : Uuid
  tid : Uuid
  type : String
  jti : Uuid
  exp : Time
  iat : Time
  deriving DecidableEq

/-- What the code is run with. -/
structure Env where
  settings : Settings
  /-- the `i`-th reading of the clock, in whole seconds -/
  clock : Nat → Time
  /-- `jwt.encode(payload, key, algorithm)` -/
  jwtEncode : String → String → TokenPayload → String
  /-- the claims of a string that was signed with the key -/
  jwtVerify : String → String → String → Option TokenPayload
  /-- `PasswordHash.hash(plain)`, with the salt of the `i`-th draw -/
  hash : Nat → String → String
  /-- `PasswordHash.verify(plain, hashed)`, `False` where it raises -/
  verify : String → String → Bool
  /-- `str.lower()` -/
  lower : String → String
  /-- `value ILIKE pattern` -/
  ilike : String → String → Bool
  /-- the `i`-th `secrets.token_urlsafe(32)` -/
  tokenUrlsafe : Nat → String
  /-- the credentials `HTTPBearer(auto_error=False)` finds in an `Authorization` header -/
  bearerCredentials : String → Option String
  /-- the order in which the database returns the `n` rows of an unordered query -/
  rowOrder : Nat → Nat → List Nat
  /-- `a <= b` in the collation of the database -/
  collate : String → String → Bool
  /-- the instant the driver stores for a wall clock without an offset, `none` where it refuses it -/
  naiveInstant : Int → Option Instant
  /-- SQLAlchemy or Python put an attribute of this name, which is no column, on a model class -/
  classAttribute : String → Bool

/-- What the code relies on about third-party functions and the platform. -/
structure Env.Lawful (env : Env) : Prop where
  /-- the clock never goes back -/
  clock_mono : ∀ i j, i ≤ j → env.clock i ≤ env.clock j
  /-- a token that was signed verifies, and carries the payload it was signed with -/
  verify_encode : ∀ key alg p, env.jwtVerify key alg (env.jwtEncode key alg p) = some p
  /-- rows come back in some order, each once -/
  rowOrder_perm : ∀ i n, (env.rowOrder i n).Perm (List.range n)

/-- A text that counts as true: present and not empty. -/
@[irreducible] def truthy (text : Option String) : Option String := text.filter (· ≠ "")

/-! ## Redis -/

/-- The keys the code uses: `pwreset:…`, `tenant:slug:…`, `lic:enabled:…`, `rl:…:…`. -/
inductive RedisKey
  | reset (token : String)
  | slug (identifier : String)
  | enabled (tenantId : Uuid)
  | rate (path identity : String)
  deriving DecidableEq

/-- The values it keeps there: text, an identifier written and read back as text,
a JSON list of codes, and a counter. -/
inductive RedisValue
  | text (s : String)
  | uuid (u : Uuid)
  | codes (cs : List String)
  | count (n : Nat)
  deriving DecidableEq

/-- A key's value and the instant it expires at, if it does. -/
structure RedisEntry where
  value : RedisValue
  expiresAt : Option Time
  deriving DecidableEq

/-- The entry, unless it has expired. -/
def RedisEntry.live (now : Time) (e : RedisEntry) : Bool :=
  match e.expiresAt with
  | some t => now < t
  | none => true

/-! ## The state -/

/-- An open transaction of the application's database. -/
abbrev Tx := Mvcc.Tx Row (List Uuid) Guc

/-- Everything outside the code. -/
structure World where
  db : Database Row
  redis : RedisKey → Option RedisEntry
  /-- `_reset_store` of the worker process: value and expiry of each token -/
  resetStore : String → Option (String × Time)
  /-- the clock readings so far -/
  ticks : Nat
  /-- the next `uuid.uuid4()` -/
  nextUuid : Uuid
  /-- the other random draws so far -/
  draws : Nat

/-- The world and the transactions that the running code has open in it. -/
abbrev State := World × List Tx

/-- Who calls: the token's claims and the user loaded for them. -/
structure Caller where
  payload : TokenPayload
  user : LoadedUser
  deriving DecidableEq

/-! ## Operations -/

/-- What the code can do. `enter` is the call of a path operation function, with
what its dependencies found out about the caller; it has no effect of its own. -/
inductive Op
  | db (o : Mvcc.Op Row (List Uuid) Guc)
  | now
  | uuid4
  | draw
  | redisGet (k : RedisKey)
  | redisSet (k : RedisKey) (v : RedisValue) (ttl : Nat)
  | redisDelete (k : RedisKey)
  | redisIncr (k : RedisKey)
  | redisExpire (k : RedisKey) (ttl : Nat)
  | redisTtl (k : RedisKey)
  | resetGet (token : String)
  | resetSet (token : String) (value : String) (expires : Time)
  | resetDelete (token : String)
  | enter (caller : Option Caller)

/-- What an operation answers. -/
@[reducible] def Op.Ans : Op → Type
  | .db o => o.Ans DbError
  | .now => Time
  | .uuid4 => Uuid
  | .draw => Nat
  | .redisGet _ => Option RedisValue
  | .redisSet _ _ _ => Unit
  | .redisDelete _ => Unit
  | .redisIncr _ => Nat
  | .redisExpire _ _ => Unit
  | .redisTtl _ => Int
  | .resetGet _ => Option (String × Time)
  | .resetSet _ _ _ => Unit
  | .resetDelete _ => Unit
  | .enter _ => Unit

/-- The entry of a key that Redis still has at this instant. -/
def World.redisAt (w : World) (now : Time) (k : RedisKey) : Option RedisEntry :=
  (w.redis k).filter (·.live now)

/-- The time to live that `TTL` reports. -/
def RedisEntry.ttl (now : Time) : Option RedisEntry → Int
  | none => -2
  | some ⟨_, none⟩ => -1
  | some ⟨_, some t⟩ => (t : Int) - now

/-- `INCR`: the new count, with the key's expiry kept. -/
def RedisEntry.incr : Option RedisEntry → RedisEntry
  | some ⟨.count n, expiresAt⟩ => ⟨.count (n + 1), expiresAt⟩
  | some ⟨_, expiresAt⟩ => ⟨.count 1, expiresAt⟩
  | none => ⟨.count 1, none⟩

/-- `EXPIRE`: the same value, until the given instant. -/
def RedisEntry.expireAt (e : RedisEntry) (t : Time) : RedisEntry := ⟨e.value, some t⟩

/-- The counter of an entry. -/
def RedisEntry.count : RedisEntry → Nat
  | ⟨.count n, _⟩ => n
  | _ => 0

/-- Carry out one operation. -/
def exec (env : Env) : (o : Op) → State → o.Ans × State
  | .db o, (w, txs) =>
    let r := Mvcc.exec schema o (w.db, txs)
    (r.1, { w with db := r.2.1 }, r.2.2)
  | .now, (w, txs) => (env.clock w.ticks, { w with ticks := w.ticks + 1 }, txs)
  | .uuid4, (w, txs) => (w.nextUuid, { w with nextUuid := w.nextUuid + 1 }, txs)
  | .draw, (w, txs) => (w.draws, { w with draws := w.draws + 1 }, txs)
  | .redisGet k, (w, txs) => ((w.redisAt (env.clock w.ticks) k).map (·.value), w, txs)
  | .redisSet k v ttl, (w, txs) =>
    let e : RedisEntry := ⟨v, some (env.clock w.ticks + ttl)⟩
    ((), { w with redis := Function.update w.redis k (some e) }, txs)
  | .redisDelete k, (w, txs) => ((), { w with redis := Function.update w.redis k none }, txs)
  | .redisIncr k, (w, txs) =>
    let e := RedisEntry.incr (w.redisAt (env.clock w.ticks) k)
    (e.count, { w with redis := Function.update w.redis k (some e) }, txs)
  | .redisExpire k ttl, (w, txs) =>
    let e := (w.redisAt (env.clock w.ticks) k).map (·.expireAt (env.clock w.ticks + ttl))
    ((), { w with redis := Function.update w.redis k e }, txs)
  | .redisTtl k, (w, txs) =>
    (RedisEntry.ttl (env.clock w.ticks) (w.redisAt (env.clock w.ticks) k), w, txs)
  | .resetGet token, (w, txs) => (w.resetStore token, w, txs)
  | .resetSet token value expires, (w, txs) =>
    ((), { w with resetStore := Function.update w.resetStore token (some (value, expires)) }, txs)
  | .resetDelete token, (w, txs) =>
    ((), { w with resetStore := Function.update w.resetStore token none }, txs)
  | .enter _, s => ((), s)

/-! ## Exceptions -/

/-- The subclasses of `AppError`. -/
inductive ErrorKind
  | notFound | conflict | validation | authentication | permissionDenied | moduleNotEnabled
  | tenantResolution | rateLimit
  deriving DecidableEq

/-- `AppError.status_code`. -/
def ErrorKind.statusCode : ErrorKind → Nat
  | .notFound => 404
  | .conflict => 409
  | .validation => 422
  | .authentication => 401
  | .permissionDenied => 403
  | .moduleNotEnabled => 403
  | .tenantResolution => 400
  | .rateLimit => 429

/-- `AppError.code`. -/
def ErrorKind.code : ErrorKind → String
  | .notFound => "not_found"
  | .conflict => "conflict"
  | .validation => "validation_error"
  | .authentication => "unauthenticated"
  | .permissionDenied => "permission_denied"
  | .moduleNotEnabled => "module_not_enabled"
  | .tenantResolution => "tenant_required"
  | .rateLimit => "rate_limited"

/-- `AppError.details`. -/
inductive Details
  | none
  | required (codes : List String)
  | retryAfter (seconds : Int)
  deriving DecidableEq

/-- The exceptions that the application does not translate. -/
inductive Unhandled
  | runtimeError (message : String)
  | valueError (message : String)
  | multipleResultsFound
  | staleData
  | assertionError
  deriving DecidableEq

/-- Everything a request can fail with. -/
inductive Err
  | app (kind : ErrorKind) (message : String) (details : Details)
  | db (e : DbError)
  | requestValidation
  | unhandled (e : Unhandled)
  deriving DecidableEq

/-- A computation of the application. -/
abbrev M : Type → Type := Prog Op Op.Ans Err

/-- `raise NotFoundError(message)` and its siblings. -/
def throwApp {α : Type} (kind : ErrorKind) (message : String) (details : Details := .none) : M α :=
  .raise (.app kind message details)

/-- One operation. -/
def perform (o : Op) : M o.Ans := Prog.op o

/-- One database statement. -/
def sql (o : Mvcc.Op Row (List Uuid) Guc) : M (o.Ans DbError) := perform (.db o)

/-- One reading of the clock. -/
def now : M Time := perform .now

/-- `uuid.uuid4()`. -/
def uuid4 : M Uuid := perform .uuid4

end LmsBackend
