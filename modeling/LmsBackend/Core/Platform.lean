import LmsBackend.Core.Middleware
import LmsBackend.Lib.Like

/-!
# A reference platform

Third-party functions and platform choices that behave as the code relies on, so that
the application can be evaluated on concrete requests. A token is its claims in unary
behind the key and the algorithm; a hash is its text behind a mark; each reading of
the clock is one second after the previous one.

- `Env.reference settings`, and `reference_lawful`: it is lawful.
- `bearerPart_bearer`, `bearer_bearer`, `signed_sign`: what the application reads from a
  bearer header with a signed token.
-/

namespace LmsBackend

namespace Platform

/-- A number in unary. -/
def unary (n : Nat) : List Char := List.replicate n 'i'

/-- The claims of a token as a text. -/
def claimsText (p : TokenPayload) : List Char :=
  unary p.sub ++ '.' :: (unary p.tid ++ '.' :: (unary p.jti ++ '.' ::
    (unary p.exp ++ '.' :: (unary p.iat ++ '.' :: p.type.toList))))

/-- The claims that a text carries. -/
def readClaims (s : List Char) : TokenPayload :=
  let sub := Text.partition '.' s
  let tid := Text.partition '.' sub.2
  let jti := Text.partition '.' tid.2
  let exp := Text.partition '.' jti.2
  let iat := Text.partition '.' exp.2
  { sub := sub.1.length, tid := tid.1.length, jti := jti.1.length, exp := exp.1.length,
    iat := iat.1.length, type := String.ofList iat.2 }

theorem not_mem_unary (n : Nat) : '.' ∉ unary n := by
  intro h
  cases List.eq_of_mem_replicate h

theorem readClaims_claimsText (p : TokenPayload) : readClaims (claimsText p) = p := by
  unfold readClaims claimsText
  simp only [Text.partition_append (not_mem_unary _), String.ofList_toList]
  simp [unary]

/-- Sign claims. -/
def sign (key algorithm : String) (p : TokenPayload) : String :=
  String.ofList (key.toList ++ '.' :: (algorithm.toList ++ '.' :: claimsText p))

/-- The claims of a signed text: those it is the signature of. -/
def verify (key algorithm token : String) : Option TokenPayload :=
  let p := readClaims (token.toList.drop (key.toList.length + algorithm.toList.length + 2))
  if sign key algorithm p = token then some p else none

theorem verify_sign (key algorithm : String) (p : TokenPayload) :
    verify key algorithm (sign key algorithm p) = some p := by
  have hdrop : (sign key algorithm p).toList.drop
      (key.toList.length + algorithm.toList.length + 2) = claimsText p := by
    have hlength : key.toList.length + algorithm.toList.length + 2 =
        (key.toList ++ '.' :: (algorithm.toList ++ ['.'])).length := by
      simp
      omega
    rw [sign, String.toList_ofList, hlength]
    have happend : key.toList ++ '.' :: (algorithm.toList ++ '.' :: claimsText p) =
        (key.toList ++ '.' :: (algorithm.toList ++ ['.'])) ++ claimsText p := by
      simp
    rw [happend, List.drop_left]
  unfold verify
  dsimp only
  rw [hdrop, readClaims_claimsText, if_pos rfl]

theorem toLower_eq_self {c : Char} (h : ¬(c.val ≥ 'A'.val ∧ c.val ≤ 'Z'.val)) :
    c.toLower = c := by
  unfold Char.toLower
  rw [dif_neg h]

/-- Letters in lower case stay as they are. -/
theorem toLower_toLower (c : Char) : c.toLower.toLower = c.toLower := by
  by_cases h : c.val ≥ 'A'.val ∧ c.val ≤ 'Z'.val
  · have hlower : c.toLower.val = c.val + ('a'.val - 'A'.val) := by
      unfold Char.toLower
      rw [dif_pos h]
    refine toLower_eq_self ?_
    rw [hlower]
    obtain ⟨hleast, hmost⟩ := h
    simp only [ge_iff_le, UInt32.le_iff_toNat_le, UInt32.toNat_add] at *
    simp at *
    omega
  · rw [toLower_eq_self h, toLower_eq_self h]

/-- Lower case. -/
def lower (s : String) : String := String.ofList (s.toList.map Char.toLower)

/-- The credentials behind the scheme `Bearer`. -/
def bearer (authorization : String) : Option String :=
  let parts := Text.partition ' ' authorization.toList
  if lower (String.ofList parts.1) = "bearer" ∧ parts.2 ≠ [] then some (String.ofList parts.2)
  else none

end Platform

/-- A platform on which everything is computable. -/
def Env.reference (settings : Settings) : Env where
  settings := settings
  clock i := i
  jwtEncode := Platform.sign
  jwtVerify := Platform.verify
  hash _ plain := "#" ++ plain
  verify plain hashed := hashed = "#" ++ plain
  lower := Platform.lower
  ilike := Like.ilike Char.toLower
  tokenUrlsafe i := String.ofList ('t' :: Platform.unary i)
  bearerCredentials := Platform.bearer
  rowOrder _ n := List.range n
  collate a b := decide (a ≤ b)
  naiveInstant _ := none
  classAttribute name := decide (name ∈ ["__mapper__", "__table__", "__tablename__", "__class__"])

theorem reference_lawful (settings : Settings) : (Env.reference settings).Lawful where
  clock_mono _ _ h := h
  verify_encode := Platform.verify_sign
  rowOrder_perm _ _ := List.Perm.refl _

/-! ## A bearer token on a platform that reads as the reference does -/

section Bearer

variable {env : Env} {token : String}

/-- The middleware takes the text after the scheme. -/
theorem bearerPart_bearer (h : env.lower = Platform.lower) :
    bearerPart env ("Bearer " ++ token) = some token := by
  have hlower : (Platform.lower ("Bearer " ++ token)).toList =
      "bearer ".toList ++ token.toList.map Char.toLower := by
    rw [Platform.lower, String.toList_ofList, String.toList_append, List.map_append]
    exact congrArg (· ++ _) (by decide)
  have hprefix : "bearer ".toList.isPrefixOf (Platform.lower ("Bearer " ++ token)).toList = true := by
    rw [hlower, List.isPrefixOf_iff_prefix]
    exact List.prefix_append _ _
  have hdrop : ("Bearer " ++ token).toList.drop 7 = token.toList := by
    rw [String.toList_append, show "Bearer ".toList = ['B', 'e', 'a', 'r', 'e', 'r', ' '] from rfl]
    rfl
  rw [bearerPart, h, if_pos hprefix, hdrop, String.ofList_toList]

theorem partition_bearer : Text.partition ' ' ("Bearer " ++ token).toList =
    (['B', 'e', 'a', 'r', 'e', 'r'], token.toList) := by
  have hspace : ' ' ∉ ['B', 'e', 'a', 'r', 'e', 'r'] := by decide
  rw [String.toList_append, show "Bearer ".toList = ['B', 'e', 'a', 'r', 'e', 'r', ' '] from rfl]
  exact @Text.partition_append ' ' ['B', 'e', 'a', 'r', 'e', 'r'] token.toList hspace

theorem lower_bearer :
    Platform.lower (String.ofList ['B', 'e', 'a', 'r', 'e', 'r']) = "bearer" := by
  decide

/-- The security scheme takes the text after the first space. -/
theorem bearer_bearer (h : token ≠ "") : Platform.bearer ("Bearer " ++ token) = some token := by
  have hrest : token.toList ≠ [] := fun hnil => h (String.toList_eq_nil_iff.mp hnil)
  unfold Platform.bearer
  simp only [partition_bearer, lower_bearer, true_and]
  rw [if_pos hrest, String.ofList_toList]

/-- A signed text that goes with the application's key. -/
theorem signed_sign (h : env.jwtVerify = Platform.verify) (p : TokenPayload) :
    signed env (Platform.sign env.settings.jwtSecretKey env.settings.jwtAlgorithm p) = some p := by
  rw [signed, h]
  exact Platform.verify_sign _ _ p

theorem sign_ne_empty {key algorithm : String} (p : TokenPayload) :
    Platform.sign key algorithm p ≠ "" := by
  intro h
  have hlist := congrArg String.toList h
  rw [Platform.sign, String.toList_ofList] at hlist
  exact absurd hlist (by simp)

end Bearer

/-- A world with these rows at this reading of the clock, and nothing else. Identifiers
from `1000` on are not drawn yet. -/
def World.fresh (ticks : Nat) (db : Mvcc.Database Row) : World where
  db := db
  redis _ := none
  resetStore _ := none
  ticks := ticks
  nextUuid := 1000
  draws := 0

end LmsBackend
