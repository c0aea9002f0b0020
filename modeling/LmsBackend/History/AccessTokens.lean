import LmsBackend.History.Lifecycle

/-!
# Access tokens over runs

`get_current_user` decodes the token and loads the account; the middleware has set the tenant of
the context from the same token. Neither looks at `user_sessions`.

- `current_user_found`: the caller of a request in the tenant of its token.
- `me_iff`: which access tokens are taken, in every reachable state. Logouts, refreshes and
  password resets are not among the conditions.
-/

namespace LmsBackend

open Mvcc

variable {env : Env} {w w₀ : World} {req : Request} {h : List Exchange}
  {Ok : List Exchange → World → Request → Prop} {p : TokenPayload}

/-- In the context of a tenant, `get_current_user` finds the active account of a token. -/
theorem current_user_found (hrls : env.settings.enableRowLevelSecurity = true) (ha : Accounts w)
    {rc : RequestContext} {token : String} {now : Time} {u : User}
    (hcred : (req.headers.find "authorization").bind env.bearerCredentials = some token)
    (hdecode : decodeIn env token "access" now = .ok p) (hu : u ∈ w.db .users)
    (hid : u.id = p.sub) (htid : rc.tenantId = some u.tenantId) (hactive : u.isActive = true)
    (hundeleted : u.deletedAt = none) :
    ∃ v, currentUserIn env rc req.headers now (seen w (requestTx env rc)) = .ok ⟨p, v⟩ := by
  obtain ⟨v, hone, huser⟩ := account_found hrls ha hu htid hundeleted
  rw [hid] at hone
  rw [← huser] at hactive
  refine ⟨v, ?_⟩
  rw [currentUserIn, hcred]
  dsimp only
  rw [hdecode]
  dsimp only
  rw [hone]
  exact if_pos hactive

/-- The guards of `GET /auth/me` ask for a caller and for nothing else. -/
theorem me_answers {rc : RequestContext} {w₁ : World} (he : req.endpoint = .me)
    (hvalid : req.valid = true)
    (hrc : runM env (requestContext env req.headers req.client) (w, []) = (.ok rc, (w₁, [])))
    (hcaller : ∀ i, w₁.ticks < i → i ≤ (serve env w req).2.ticks →
      ∃ c, currentUserIn env rc req.headers (env.clock i) (seen w₁ (requestTx env rc)) = .ok c) :
    ∃ body, (serve env w req).1 = .ok body := by
  have hlimit : runM env (limitRate env rc req.endpoint) (w₁, []) = (.ok (), (w₁, [])) := by
    rw [he]
    rfl
  have hserve := serve_context (by rw [he]; trivial) hrc hlimit
  obtain ⟨i, w₂, hguards, -, -, hi, hi'⟩ := @runM_guards env rc req w₁.tick (requestTx env rc) []
  have hlast : i ≤ (serve env w req).2.ticks := by
    rw [hserve]
    unfold operation
    rw [runM_bind, hguards]
    cases guardsIn env rc req w₁.tick (seen w₁.tick (requestTx env rc)) (env.clock i) with
    | error e => exact hi'.trans (finish_older _ (w₂, [requestTx env rc])).ticks
    | ok c =>
      exact hi'.trans ((runM_older _ (w₂, [requestTx env rc])).trans (finish_older _ _)).ticks
  obtain ⟨c, hc⟩ := hcaller i hi hlast
  have hpass : guardsIn env rc req w₁.tick (seen w₁.tick (requestTx env rc)) (env.clock i) =
      .ok (some c) := by
    have hseen : seen w₁.tick (requestTx env rc) = seen w₁ (requestTx env rc) := rfl
    have hpermitted : permissionIn [] c.user = .ok () :=
      permissionIn_eq_ok.mpr (.inr fun _ h => by cases h)
    rw [guardsIn, moduleGuardIn, userGuardIn, he, hseen, hc]
    exact congrArg (· >>= fun _ => pure (some c)) hpermitted
  rw [hpass] at hguards
  rw [hserve]
  unfold operation
  rw [runM_bind_ok hguards, if_pos hvalid]
  obtain ⟨headers, client, endpoint, valid⟩ := req
  cases he
  exact ⟨_, rfl⟩

/-- **An access token is taken** exactly until it expires, as long as its account is active and not
deleted. Whether its session was logged out, refreshed or reset is not asked. -/
theorem me_iff (hr : Run env Ok w₀ h w) (hrls : env.settings.enableRowLevelSecurity = true)
    (hlaw : env.Lawful) (hst : TokenStore w₀)
    (hok : ∀ h w req, Ok h w req → PresentsIssued env h w req) {token : String}
    (he : req.endpoint = .me) (hvalid : req.valid = true)
    (hpart : bearerPart env ((req.headers.find "authorization").getD "") = some token)
    (hcred : (req.headers.find "authorization").bind env.bearerCredentials = some token)
    (hpresents : PresentsIssued env h w req) (hs : signed env token = some p)
    (hclock : env.clock (serve env w req).2.ticks < p.exp ∨ p.exp ≤ env.clock w.ticks) :
    (∃ body, (serve env w req).1 = .ok body) ↔
      p.type = "access" ∧ env.clock w.ticks < p.exp ∧
        ∃ u ∈ w.db .users, u.id = p.sub ∧ u.isActive = true ∧ u.deletedAt = none := by
  have hst' := hr.tokenStore hst
  have hp := presented_onRecord hpresents (hr.onRecord hlaw hst hok) (.inl hpart) hs
  constructor
  · rintro ⟨body, hbody⟩
    obtain ⟨rc, caller, s, w₁, s', hadm, -, -⟩ :=
      serve_ok (by rw [he]; trivial) (serve_eq_of_ok hbody)
    obtain ⟨c, rfl⟩ := hadm.some_caller (by rw [he]; rfl)
    obtain ⟨i, w₂, hi, -, -, hguards⟩ := hadm.guards
    obtain ⟨⟨credentials, hcred', hdecode⟩, -, -⟩ := currentUserIn_ok (guardsIn_ok hguards).2.2.1
    obtain rfl := Option.some.inj (hcred.symm.trans hcred')
    obtain ⟨hsigned, -, hexp, htype⟩ := decodeIn_ok hdecode
    have hpayload : c.payload = p := Option.some.inj (hsigned.symm.trans hs)
    have hcaller := hadm.known
    rw [hpayload] at hexp htype
    exact ⟨htype, (hlaw.clock_mono _ _ hi).trans_lt hexp, c.user.user, hcaller.account,
      hcaller.subject.trans (congrArg _ hpayload), hcaller.active, hcaller.undeleted⟩
  · rintro ⟨htype, hexp, u, hu, hid, hactive, hundeleted⟩
    have hend : env.clock (serve env w req).2.ticks < p.exp :=
      hclock.resolve_right (Nat.not_le.mpr hexp)
    obtain ⟨j, hj, hiat⟩ := hp.born
    have hdecode : ∀ i, w.ticks ≤ i → i ≤ (serve env w req).2.ticks →
        decodeIn env token "access" (env.clock i) = .ok p := fun i hi hi' =>
      decodeIn_of hs (hiat ▸ hlaw.clock_mono _ _ (hj.le.trans hi))
        ((hlaw.clock_mono _ _ hi').trans_lt hend) htype
    -- the middleware sets the tenant of the token, which is the tenant of its account
    have hctx := ctxTenant_bearer hpart (hdecode w.ticks (le_refl _) (@serve_older env w req).ticks)
    obtain ⟨v, hv, hvid, hvtenant⟩ := hp.account
    have htid : u.tenantId = p.tid := by
      rw [hst'.registry.accounts.same hu hv (hid.trans hvid.symm), hvtenant]
    obtain ⟨w₁, hrc, hstill, holder⟩ :=
      (@Quiet.requestContext env req.headers req.client).run w []
    unfold ctxTenant at hctx
    cases hcontext : (runM env (requestContext env req.headers req.client) (w, [])).1 with
    | error e =>
      rw [hcontext] at hctx
      cases hctx
    | ok rc =>
      rw [hcontext] at hrc hctx
      refine me_answers he hvalid hrc fun i hi hi' => ?_
      obtain ⟨v, hfound⟩ :=
        current_user_found hrls (hst'.still hstill holder).registry.accounts hcred
          (hdecode i (holder.ticks.trans hi.le) hi') (hstill.db ▸ hu) hid
          (Eq.trans hctx (congrArg some htid.symm)) hactive hundeleted
      exact ⟨_, hfound⟩

namespace Logins

/-- The claims of the access token. -/
def accessClaims : TokenPayload :=
  { sub := 3, tid := 1, type := "access", jti := 9, exp := 14, iat := 5 }

/-- The account asks who it is. -/
def asking : Request where
  headers := [("x-request-id", "r"), ("authorization", "Bearer " ++ tokens.accessToken)]
  endpoint := .me

/-- The account logs out after the login. -/
def left : Exchange := exchange platform answered.post (ask (.logout tokens.refreshToken))

theorem signed_accessToken : signed platform tokens.accessToken = some accessClaims := by
  decide +kernel

theorem asking_authorization :
    asking.headers.find "authorization" = some ("Bearer " ++ tokens.accessToken) := by
  simp [asking, Headers.find]

theorem asking_part : bearerPart platform ((asking.headers.find "authorization").getD "") =
    some tokens.accessToken := by
  rw [asking_authorization]
  exact @bearerPart_bearer platform tokens.accessToken rfl

theorem asking_credentials : (asking.headers.find "authorization").bind platform.bearerCredentials =
    some tokens.accessToken := by
  have hbearer : platform.bearerCredentials = Platform.bearer := by
    rw [platform, Env.reference]
  rw [asking_authorization, Option.bind_some, hbearer]
  exact bearer_bearer (show tokens.accessToken ≠ "" by decide +kernel)

theorem presents_asking : PresentsIssued platform [left, answered] left.post asking := by
  intro token p hpresented hs
  have htoken : token = tokens.accessToken := by
    rcases hpresented with h | h | h | h
    · exact Option.some.inj (h.symm.trans asking_part)
    · exact Option.some.inj (h.symm.trans asking_credentials)
    · cases h
    · cases h
  subst htoken
  exact ⟨answered, by simp, tokens, answered_tokens, .inl hs⟩

end Logins

open Logins in
/-- An access token outlives the logout of its session. -/
theorem me_after_logout : ∃ body, (serve platform left.post asking).1 = .ok body := by
  have hrun : Run platform (PresentsIssued platform) world [left, answered] left.post :=
    .serve _ run presents_logout
  have huser : ∃ u ∈ left.post.db .users, u.id = 3 ∧ u.isActive = true ∧ u.deletedAt = none := by
    decide +kernel
  exact (me_iff hrun rfl platform_lawful tokenStore (fun _ _ _ h => h) rfl rfl asking_part
    asking_credentials presents_asking signed_accessToken (.inl (show 5 < 14 by decide))).mpr
    ⟨rfl, show 5 < 14 by decide, huser⟩

end LmsBackend
