import LmsBackend.Concurrency.Threads

/-!
# The steps of the rate limiter

One call of `RateLimiter.__call__` is an `INCR`, an `EXPIRE` if the counter is new, and a
`TTL` if the limit is passed.

- `rateLimit_steps`: the call, step by step.
- `Phase`: how far a call has come, with the count it was answered.
- `Op.spares`: an operation that leaves a counter alone.
-/

namespace LmsBackend

open Mvcc Interleave

variable {env : Env} {α : Type} {spec : Nat × Nat} {K : RedisKey}

/-! ## The steps of a call -/

/-- The end of a call that is turned away: the time to live of the counter goes into the error. -/
def refusal (spec : Nat × Nat) (K : RedisKey) : M Unit :=
  .call (.redisTtl K) fun ttl => throwApp .rateLimit
    ("Rate limit exceeded (" ++ toString spec.1 ++ "/" ++ toString spec.2 ++ "s)")
    (.retryAfter (max ttl 1))

/-- What follows the count. -/
def verdict (spec : Nat × Nat) (K : RedisKey) (count : Nat) : M Unit :=
  if spec.1 < count then refusal spec K else .ret ()

/-- What follows `INCR`. -/
def counted (spec : Nat × Nat) (K : RedisKey) (count : Nat) : M Unit :=
  if count = 1 then .call (.redisExpire K spec.2) fun _ => verdict spec K count
  else verdict spec K count

theorem rateLimit_steps (henabled : env.settings.rateLimitEnabled = true)
    (hredis : env.settings.hasRedis = true) (path : String) (rc : RequestContext) :
    rateLimit env spec path rc =
      .call (.redisIncr (.rate path (rateIdentity rc)))
        (counted spec (.rate path (rateIdentity rc))) := by
  unfold rateLimit
  rw [henabled, hredis]
  refine congrArg (Prog.call _) (funext fun count => ?_)
  show (startWindow (.rate path (rateIdentity rc)) count spec.2 >>= fun _ =>
    verdict spec (.rate path (rateIdentity rc)) count) = _
  unfold counted startWindow
  by_cases hone : count = 1
  · rw [if_pos hone, if_pos hone]
    rfl
  · rw [if_neg hone, if_neg hone]
    rfl

/-- A call without a rate limit or without Redis does nothing. -/
theorem rateLimit_off (h : ¬ (env.settings.rateLimitEnabled = true ∧ env.settings.hasRedis = true))
    (path : String) (rc : RequestContext) : rateLimit env spec path rc = .ret () := by
  unfold rateLimit
  rw [if_neg (by simpa using h)]
  rfl

/-- How far a call has come: the count it was answered, and what it still has to do. A call
that was cut off keeps no count. -/
inductive Phase (spec : Nat × Nat) (K : RedisKey) : Option Nat → Option (M Unit) → Prop
  | ask : Phase spec K none (some (.call (.redisIncr K) (counted spec K)))
  | expire : Phase spec K (some 1)
      (some (.call (.redisExpire K spec.2) fun _ => verdict spec K 1))
  | refuse (c : Nat) (h : spec.1 < c) : Phase spec K (some c) (some (refusal spec K))
  | refused (c : Nat) (h : spec.1 < c) (e : Err) : Phase spec K (some c) (some (.raise e))
  | admitted (c : Nat) (h : c ≤ spec.1) : Phase spec K (some c) (some (.ret ()))
  | gone : Phase spec K none none

theorem Phase.of_verdict (c : Nat) : Phase spec K (some c) (some (verdict spec K c)) := by
  unfold verdict
  by_cases h : spec.1 < c
  · rw [if_pos h]
    exact .refuse c h
  · rw [if_neg h]
    exact .admitted c (Nat.le_of_not_lt h)

theorem Phase.of_counted (c : Nat) : Phase spec K (some c) (some (counted spec K c)) := by
  unfold counted
  by_cases h : c = 1
  · subst h
    rw [if_pos rfl]
    exact .expire
  · rw [if_neg h]
    exact .of_verdict c

/-- The call is about to give its new counter an expiry. -/
def Expiring (prog : Option (M Unit)) : Prop :=
  ∃ k ttl f, prog = some (.call (.redisExpire k ttl) f)

/-- The next operation is an `EXPIRE`. -/
def nextExpires : Option (M Unit) → Bool
  | some (.call (.redisExpire _ _) _) => true
  | _ => false

theorem nextExpires_iff {prog : Option (M Unit)} : nextExpires prog = true ↔ Expiring prog := by
  constructor
  · intro h
    unfold nextExpires at h
    split at h
    · exact ⟨_, _, _, rfl⟩
    · cases h
  · rintro ⟨k, ttl, f, rfl⟩
    rfl

instance (prog : Option (M Unit)) : Decidable (Expiring prog) :=
  decidable_of_iff _ nextExpires_iff

/-- No call is cut off before its `EXPIRE`. -/
def ExpireRuns {W L σ ι : Type} (P : Pool Op Op.Ans Err Unit W L σ ι) (i : ι) :
    Option Op → Prop
  | none => ¬ Expiring (P.thread i).prog
  | some _ => True

theorem expireRuns_iff {W L σ ι : Type} {P : Pool Op Op.Ans Err Unit W L σ ι} {i : ι}
    {o : Option Op} : (o.isNone = true → ¬ Expiring (P.thread i).prog) ↔ ExpireRuns P i o := by
  cases o <;> simp [ExpireRuns]

instance {W L σ ι : Type} (P : Pool Op Op.Ans Err Unit W L σ ι) (i : ι) (o : Option Op) :
    Decidable (ExpireRuns P i o) :=
  decidable_of_iff _ expireRuns_iff

/-- Only the first hit of a window is followed by `EXPIRE`. -/
theorem not_expiring_verdict (c : Nat) : ¬ Expiring (some (verdict spec K c)) := by
  rintro ⟨key, ttl, f, hprog⟩
  rw [verdict] at hprog
  by_cases hlimit : spec.1 < c
  · rw [if_pos hlimit] at hprog
    cases hprog
  · rw [if_neg hlimit] at hprog
    cases hprog

/-! ## Other programs -/

/-- The operation leaves the counter alone. -/
def Op.spares (K : RedisKey) : Op → Prop
  | .redisSet k _ _ => k ≠ K
  | .redisDelete k => k ≠ K
  | .redisIncr k => k ≠ K
  | .redisExpire k _ => k ≠ K
  | _ => True

/-- A program that leaves the counter alone. -/
abbrev KeepsOff (K : RedisKey) (p : M α) : Prop :=
  p.All (Op.spares K) (fun _ _ => True) fun _ => True

theorem exec_spares {o : Op} (h : o.spares K) (w : World) (txs : List Tx) :
    (exec env o (w, txs)).2.1.redis K = w.redis K := by
  cases o with
  | redisSet k v ttl => exact Function.update_of_ne (Ne.symm h) _ _
  | redisDelete k => exact Function.update_of_ne (Ne.symm h) _ _
  | redisIncr k => exact Function.update_of_ne (Ne.symm h) _ _
  | redisExpire k ttl => exact Function.update_of_ne (Ne.symm h) _ _
  | _ => rfl

/-- Time that passes makes no expired entry live. -/
theorem redisAt_none {w w' : World} {t t' : Time} (hredis : w'.redis K = w.redis K)
    (htime : t ≤ t') (h : w.redisAt t K = none) : w'.redisAt t' K = none := by
  unfold World.redisAt at h ⊢
  rw [Option.filter_eq_none_iff] at h ⊢
  intro e he hlive
  rw [hredis] at he
  refine h e he ?_
  unfold RedisEntry.live at hlive ⊢
  cases hexp : e.expiresAt with
  | none => rfl
  | some x =>
    simp only [hexp, decide_eq_true_eq] at hlive ⊢
    exact htime.trans_lt hlive

/-- What is known of the entry of a counter that is not live. -/
theorem redisAt_expired {w : World} {t : Time} {e : RedisEntry} (he : w.redis K = some e)
    (h : w.redisAt t K = none) : ∃ x, e.expiresAt = some x ∧ x ≤ t := by
  unfold World.redisAt at h
  rw [Option.filter_eq_none_iff] at h
  have hdead := h e he
  unfold RedisEntry.live at hdead
  cases hexp : e.expiresAt with
  | none =>
    simp [hexp] at hdead
  | some x =>
    simp only [hexp, decide_eq_true_eq, not_lt] at hdead
    exact ⟨x, rfl, hdead⟩

theorem redisAt_some {w : World} {t : Time} {e : RedisEntry} (h : w.redisAt t K = some e) :
    w.redis K = some e ∧ e.live t = true :=
  Option.filter_eq_some_iff.mp h

end LmsBackend
