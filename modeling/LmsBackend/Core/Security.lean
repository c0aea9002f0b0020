import LmsBackend.Core.Session

/-!
# Tokens and passwords

`app.core.security`: the tokens carry identity only (`sub`, `tid`, `type`,
`jti`), so what a caller may do is looked up on every request.
-/

namespace LmsBackend

variable (env : Env)

/-- `_encode`. -/
def encode (userId tenantId : Uuid) (tokenType : String) (ttl : Nat) (jti : Uuid) : M String := do
  let now ← now
  return env.jwtEncode env.settings.jwtSecretKey env.settings.jwtAlgorithm
    { sub := userId, tid := tenantId, type := tokenType, jti, iat := now, exp := now + ttl }

/-- `create_access_token`. -/
def createAccessToken (userId tenantId : Uuid) : M String := do
  let jti ← uuid4
  encode env userId tenantId "access" env.settings.accessTokenTtlSeconds jti

/-- `create_refresh_token`, called without a `jti`. -/
def createRefreshToken (userId tenantId : Uuid) : M (String × Uuid) := do
  let jti ← uuid4
  let token ← encode env userId tenantId "refresh" env.settings.refreshTokenTtlSeconds jti
  return (token, jti)

/-- The claims of a string signed with the application's key. -/
def signed (token : String) : Option TokenPayload :=
  env.jwtVerify env.settings.jwtSecretKey env.settings.jwtAlgorithm token

/-- What `decode_token` makes of claims at an instant. `jwt.decode` refuses a
token issued in the future, then one that has expired. -/
def checkClaims (expectedType : String) (p : TokenPayload) (now : Time) :
    Except String TokenPayload :=
  if now < p.iat then .error "Invalid token"
  else if p.exp ≤ now then .error "Token expired"
  else if p.type ≠ expectedType then
    .error ("Expected " ++ expectedType ++ " token, got " ++ p.type)
  else .ok p

/-- `decode_token`; the error is the text of the `TokenError`. -/
def decodeToken (token : String) (expectedType : String) : M (Except String TokenPayload) := do
  match signed env token with
  | none => return .error "Invalid token"
  | some p => return checkClaims expectedType p (← now)

/-- `hash_password`. -/
def hashPassword (plain : String) : M String := do return env.hash (← perform .draw) plain

/-- `verify_password`. -/
def verifyPassword (plain hashed : String) : Bool := env.verify plain hashed

/-! ## What a decoded token says -/

theorem checkClaims_ok {type : String} {p q : TokenPayload} {now : Time}
    (h : checkClaims type p now = .ok q) :
    q = p ∧ p.iat ≤ now ∧ now < p.exp ∧ p.type = type := by
  unfold checkClaims at h
  split at h
  · cases h
  · rename_i hiat
    split at h
    · cases h
    · rename_i hexp
      split at h
      · cases h
      · rename_i htype
        cases h
        exact ⟨rfl, Nat.le_of_not_lt hiat, Nat.lt_of_not_le hexp, Decidable.not_not.mp htype⟩

theorem checkClaims_of {type : String} {p : TokenPayload} {now : Time}
    (hiat : p.iat ≤ now) (hexp : now < p.exp) (htype : p.type = type) :
    checkClaims type p now = .ok p := by
  simp [checkClaims, Nat.not_lt.mpr hiat, Nat.not_le.mpr hexp, htype]

end LmsBackend
