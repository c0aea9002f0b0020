import LmsBackend.Core.Platform
import LmsBackend.History.Registry

/-!
# Issued tokens over runs

A login and a refresh sign two tokens each and store the refresh token's identifier in a
session row. The tokens are not stored; what is known of one is in its claims.

- `Minted`: the two tokens of an answer, and the session row that goes with them.
- `OnRecord env w p`: the account, the tenant and the session row behind claims.
- `Run.onRecord`: over every run in which no other tokens are presented, all issued claims are
  on record. `Run.jti_unique`: no two of them share an identifier.
-/

namespace LmsBackend

open Mvcc

variable {env : Env} {w w' w'' w₀ w₁ : World} {req : Request} {h : List Exchange}
  {Ok : List Exchange → World → Request → Prop} {p q : TokenPayload} {e e' : Exchange}

/-! ## The answers with tokens -/

theorem tenantAdminHandler_tokens {endpoint : Endpoint} {t : TokenResponse} {st s' : State} :
    runM env (tenantAdminHandler env endpoint) st ≠ (.ok (.tokens t), s') := by
  intro h
  cases endpoint with
  | createTenant data =>
    obtain ⟨_, _, -, h⟩ := Prog.run_bind_eq_ok h
    cases congrArg Prod.fst h
  | listTenants =>
    obtain ⟨_, _, -, h⟩ := Prog.run_bind_eq_ok h
    cases congrArg Prod.fst h
  | listTenantModules tenantId =>
    obtain ⟨_, _, -, h⟩ := Prog.run_bind_eq_ok h
    obtain ⟨_, _, -, h⟩ := Prog.run_bind_eq_ok h
    cases congrArg Prod.fst h
  | toggleTenantModule tenantId code enabled =>
    obtain ⟨_, _, -, h⟩ := Prog.run_bind_eq_ok h
    obtain ⟨_, _, -, h⟩ := Prog.run_bind_eq_ok h
    cases congrArg Prod.fst h
  | _ => cases congrArg Prod.fst h

theorem userHandler_tokens {rc : RequestContext} {s : Session} {user : LoadedUser}
    {endpoint : Endpoint} {t : TokenResponse} {st s' : State} :
    runM env (userHandler env rc s user endpoint) st ≠ (.ok (.tokens t), s') := by
  intro h
  cases endpoint with
  | _ =>
    first
    | cases congrArg Prod.fst h
    | (obtain ⟨_, _, -, h⟩ := Prog.run_bind_eq_ok h
       cases congrArg Prod.fst h)

/-- Tokens are handed out by a login and by a refresh. -/
theorem serve_tokens {t : TokenResponse} (hs : serve env w req = (.ok (.tokens t), w')) :
    (∃ data, req.endpoint = .login data) ∨ ∃ token, req.endpoint = .refresh token := by
  have hrouted : req.endpoint.routed := by
    obtain ⟨headers, client, endpoint, valid⟩ := req
    have hanswer : (runM env (handle env ⟨headers, client, endpoint, valid⟩) (w, [])).1 =
        .ok (.tokens t) := congrArg Prod.fst hs
    rcases hrun : runM env (handle env ⟨headers, client, endpoint, valid⟩) (w, []) with ⟨r, s'⟩
    rw [hrun] at hanswer
    cases hanswer
    obtain ⟨rc, s₁, -, hroute⟩ := Prog.run_bind_eq_ok hrun
    cases endpoint with
    | health => cases congrArg Prod.fst hroute
    | ready =>
      obtain ⟨_, _, -, hroute⟩ := Prog.run_bind_eq_ok hroute
      obtain ⟨_, _, -, hroute⟩ := Prog.run_bind_eq_ok hroute
      cases congrArg Prod.fst hroute
    | _ => trivial
  obtain ⟨rc, caller, s, w₁, s', -, hrun, -⟩ := serve_ok hrouted hs
  cases caller with
  | some c =>
    unfold handler at hrun
    dsimp only at hrun
    split at hrun
    · exact (tenantAdminHandler_tokens hrun).elim
    · exact (userHandler_tokens hrun).elim
  | none =>
    obtain ⟨headers, client, endpoint, valid⟩ := req
    cases endpoint with
    | login data => exact .inl ⟨data, rfl⟩
    | refresh token => exact .inr ⟨token, rfl⟩
    | forgotPassword email =>
      obtain ⟨found, _, -, hrun⟩ := Prog.run_bind_eq_ok hrun
      cases found with
      | none => cases congrArg Prod.fst hrun
      | some token =>
        dsimp only at hrun
        split at hrun
        · cases congrArg Prod.fst hrun
        · cases congrArg Prod.fst hrun
    | register data =>
      obtain ⟨_, _, -, hrun⟩ := Prog.run_bind_eq_ok hrun
      cases congrArg Prod.fst hrun
    | logout refreshToken =>
      obtain ⟨_, _, -, hrun⟩ := Prog.run_bind_eq_ok hrun
      cases congrArg Prod.fst hrun
    | resetPassword token newPassword =>
      obtain ⟨_, _, -, hrun⟩ := Prog.run_bind_eq_ok hrun
      cases congrArg Prod.fst hrun
    | _ => cases congrArg Prod.fst hrun

/-! ## Claims on record -/

/-- The claims are of a token that was signed before: its account and its tenant are there, and
so is the session row of a refresh token, which outlives it. -/
structure OnRecord (env : Env) (w : World) (p : TokenPayload) : Prop where
  type : p.type = "access" ∨ p.type = "refresh"
  born : ∃ i, i < w.ticks ∧ p.iat = env.clock i
  expires : p.type = "refresh" → p.exp = p.iat + env.settings.refreshTokenTtlSeconds
  drawn : p.jti < w.nextUuid
  account : ∃ u ∈ w.db .users, u.id = p.sub ∧ u.tenantId = p.tid
  tenant : ∃ t ∈ w.db .tenants, t.id = p.tid
  row : p.type = "refresh" → ∃ r ∈ w.db .userSessions, r.jti = p.jti ∧ r.tenantId = p.tid ∧
    r.userId = p.sub ∧ p.exp ≤ r.expiresAt ∧ columnError .userSessions r = none

/-- The tokens of an answer, signed in the world `w₁` for the account `u`, and the session row
that is stored with them. -/
structure Minted (env : Env) (w w'' : World) (t : TokenResponse) (w₁ : World) (u : User) :
    Prop where
  tokens : t = issuedTokens env w₁ u.id u.tenantId
  before : w.Older w₁
  after : w₁.issued.Older w''
  account : u ∈ w.db .users
  tenant : ∃ t ∈ w.db .tenants, t.id = u.tenantId
  row : ∃ ua ip, issuedSession env w₁ u.id u.tenantId ua ip ∈ w''.db .userSessions ∧
    columnError .userSessions (issuedSession env w₁ u.id u.tenantId ua ip) = none

/-- No tenant is ever removed. -/
theorem serve_tenants (w : World) (req : Request) {t : Tenant} (ht : t ∈ w.db .tenants) :
    t ∈ (serve env w req).2.db .tenants := by
  rcases hs : serve env w req with ⟨r, w'⟩
  by_cases hwrites : .tenants ∈ req.endpoint.writes
  · obtain ⟨headers, client, endpoint, valid⟩ := req
    cases endpoint with
    | createTenant data =>
      cases r with
      | error e =>
        have hsame := serve_users_error (by simp [Endpoint.writes]) hs .tenants (by decide)
        exact hsame.symm ▸ ht
      | ok body =>
        obtain ⟨rc, c, s, w₁, t', u, -, -, -, hprov, hdb, -⟩ := serve_createTenant rfl hs
        show t ∈ w'.db .tenants
        rw [hprov.tenants, hdb]
        exact List.mem_append_left _ ht
    | _ => simp [Endpoint.writes] at hwrites
  · have hsame := serve_frame env w req hwrites
    rw [hs] at hsame
    exact hsame.symm ▸ ht

theorem SameSession.tenantId {r v : UserSession} (h : SameSession r v) :
    v.tenantId = r.tenantId := by
  rcases h with rfl | ⟨t, rfl⟩ <;> rfl

theorem SameSession.userId {r v : UserSession} (h : SameSession r v) : v.userId = r.userId := by
  rcases h with rfl | ⟨t, rfl⟩ <;> rfl

theorem SameSession.expiresAt {r v : UserSession} (h : SameSession r v) :
    v.expiresAt = r.expiresAt := by
  rcases h with rfl | ⟨t, rfl⟩ <;> rfl

theorem SameSession.columns {r v : UserSession} (h : SameSession r v) :
    columnError .userSessions v = columnError .userSessions r := by
  rcases h with rfl | ⟨t, rfl⟩ <;> rfl

/-- **One request** leaves claims on record. -/
theorem OnRecord.serve (hp : OnRecord env w p) (hreg : Registry w) (req : Request) :
    OnRecord env (serve env w req).2 p := by
  have holder := @serve_older env w req
  obtain ⟨f, new, hstep⟩ := @serve_sessions env w req hreg.sessionIds
  obtain ⟨i, hi, hiat⟩ := hp.born
  obtain ⟨t, ht, htid⟩ := hp.tenant
  refine ⟨hp.type, ⟨i, hi.trans_le holder.ticks, hiat⟩, hp.expires, hp.drawn.trans_le holder.uuid,
    ?_, ⟨t, serve_tenants w req ht, htid⟩, fun htype => ?_⟩
  · obtain ⟨u, hu, hid, htenant⟩ := hp.account
    obtain ⟨v, hv, hsame⟩ := (@serve_users env w req hreg.sessionIds).stays hreg.accounts hu
    exact ⟨v, hv, hsame.id.trans hid, hsame.tenant.trans htenant⟩
  · obtain ⟨r, hr, hjti, htenant, huser, hexp, hcolumns⟩ := hp.row htype
    have hsame := hstep.same r hr
    refine ⟨f r, ?_, hsame.jti.trans hjti, hsame.tenantId.trans htenant, hsame.userId.trans huser,
      hsame.expiresAt.symm ▸ hexp, hsame.columns.trans hcolumns⟩
    rw [hstep.rows]
    exact List.mem_append_left _ (List.mem_map_of_mem hr)

/-- Accounts with the same identifier are the same. -/
theorem Accounts.same (ha : Accounts w) {u v : User} (hu : u ∈ w.db .users) (hv : v ∈ w.db .users)
    (hid : u.id = v.id) : u = v :=
  List.inj_on_of_nodup_map ha.ids hu hv hid

/-- What was drawn is unique, the identifiers in session rows too. -/
structure TokenStore (w : World) : Prop where
  registry : Registry w
  jtis : ((w.db .userSessions).map (·.jti)).Nodup

theorem TokenStore.still (hst : TokenStore w) (hstill : w.Still w') (holder : w.Older w') :
    TokenStore w' := by
  obtain ⟨⟨⟨hids, hdrawn⟩, hsessionIds, hsessions, hassigned⟩, hjtis⟩ := hst
  rw [← hstill.db] at hids hdrawn hsessionIds hsessions hassigned hjtis
  exact ⟨⟨⟨hids, fun u hu => (hdrawn u hu).trans_le holder.uuid⟩, hsessionIds,
    fun r hr => ⟨(hsessions r hr).1.trans_le holder.uuid, (hsessions r hr).2.trans_le holder.uuid⟩,
    fun ur hur => (hassigned ur hur).trans_le holder.uuid⟩, hjtis⟩

/-- Session rows of the same token are the same. -/
theorem TokenStore.same (hst : TokenStore w) {r r' : UserSession} (hr : r ∈ w.db .userSessions)
    (hr' : r' ∈ w.db .userSessions) (hjti : r.jti = r'.jti) : r = r' :=
  List.inj_on_of_nodup_map hst.jtis hr hr' hjti

theorem TokenStore.serve (hst : TokenStore w) (req : Request) :
    TokenStore (serve env w req).2 := by
  obtain ⟨f, new, hstep⟩ := @serve_sessions env w req hst.registry.sessionIds
  refine ⟨hst.registry.serve req, ?_⟩
  have hkept : ((w.db .userSessions).map f).map (·.jti) = (w.db .userSessions).map (·.jti) := by
    rw [List.map_map]
    exact List.map_congr_left fun r hr => (hstep.same r hr).jti
  rw [hstep.rows, List.map_append, hkept, List.nodup_append]
  refine ⟨hst.jtis, ?_, ?_⟩
  · cases new with
    | none => exact List.nodup_nil
    | some r => exact List.nodup_singleton _
  · rintro jti hjti jti' hjti' rfl
    obtain ⟨r, hr, rfl⟩ := List.mem_map.mp hjti
    obtain ⟨v, hv, heq⟩ := List.mem_map.mp hjti'
    have hfresh := (hstep.jti v (Option.mem_toList.mp hv)).1
    exact Nat.not_lt_of_le hfresh (heq ▸ (hst.registry.sessions r hr).2)

/-- **Every run** keeps the identifiers unique. -/
theorem Run.tokenStore (hr : Run env Ok w₀ h w) (hst : TokenStore w₀) : TokenStore w := by
  induction hr with
  | start => exact hst
  | serve req run ok ih => exact ih.serve req

/-- What a refresh of recorded claims stores: its row is revoked, and one row is added. -/
theorem Refreshed.rotates {token : String} {body : Body} {row : UserSession} {u : User}
    (hrefresh : Refreshed env w req token body w'' w₁ p row u) (hst : TokenStore w)
    (hp : OnRecord env w p) : p.tid = u.tenantId ∧
      columnError .userSessions
        (issuedSession env w₁.rotated u.id p.tid row.userAgent row.ipAddress) = none ∧
      w''.db .userSessions = replaceSession row.id
          { row with revokedAt := some (env.clock (w₁.ticks + 2)) } (w.db .userSessions) ++
        [issuedSession env w₁.rotated u.id p.tid row.userAgent row.ipAddress] := by
  obtain ⟨hu, hsub, -⟩ := hrefresh.account
  obtain ⟨hrow, hjti, -⟩ := hrefresh.session
  -- the token was signed for the tenant of its account
  have htid : p.tid = u.tenantId := by
    obtain ⟨v, hv, hid, htenant⟩ := hp.account
    rw [← htenant, hst.registry.accounts.same hv hu (hid.trans hsub.symm)]
  -- the new row copies what fitted into the old one
  have hcolumns : columnError .userSessions
      (issuedSession env w₁.rotated u.id p.tid row.userAgent row.ipAddress) = none := by
    obtain ⟨r, hr, hrjti, -, -, -, hfits⟩ := hp.row (decodeIn_ok hrefresh.claims).2.2.2
    obtain rfl := hst.same hr hrow (hrjti.trans hjti.symm)
    exact hfits
  have hdrawn : ∀ r ∈ w.db .userSessions, r.id < w₁.nextUuid ∧ r.jti < w₁.nextUuid :=
    fun r hr => ⟨(hst.registry.sessions r hr).1.trans_le hrefresh.before.uuid,
      (hst.registry.sessions r hr).2.trans_le hrefresh.before.uuid⟩
  obtain ⟨old, hold, hid, hrows⟩ := hrefresh.sessions htid hcolumns hdrawn hp.tenant
  obtain rfl := List.inj_on_of_nodup_map hst.registry.sessionIds hold hrow hid
  exact ⟨htid, hcolumns, hrows⟩

/-- An answer with tokens, where a refresh token that is presented is on record. -/
theorem serve_minted {t : TokenResponse} (hst : TokenStore w)
    (hpresented : ∀ token p, req.endpoint = .refresh token → signed env token = some p →
      OnRecord env w p) (hs : serve env w req = (.ok (.tokens t), w'')) :
    ∃ w₁ u, Minted env w w'' t w₁ u := by
  obtain ⟨data, he⟩ | ⟨token, he⟩ := serve_tokens hs
  · obtain ⟨w₁, u, hlogin⟩ := serve_login he hs
    obtain ⟨ua, ip, hrows, hcolumns⟩ := hlogin.sessions
    refine ⟨w₁, u, Body.tokens.inj hlogin.answer, hlogin.before, hlogin.after, hlogin.account,
      hlogin.tenantRow, ua, ip, ?_, hcolumns⟩
    rw [hrows]
    exact List.mem_append_right _ (List.mem_singleton_self _)
  · obtain ⟨w₁, p, row, u, hrefresh⟩ := serve_refresh he hs
    have hp := hpresented token p he (decodeIn_ok hrefresh.claims).1
    obtain ⟨htid, hcolumns, hrows⟩ := hrefresh.rotates hst hp
    have hanswer := Body.tokens.inj hrefresh.answer
    rw [htid] at hanswer hcolumns hrows
    refine ⟨w₁.rotated, u, hanswer, ?_, hrefresh.after, hrefresh.account.1, htid ▸ hp.tenant,
      row.userAgent, row.ipAddress, ?_, hcolumns⟩
    · exact ⟨hrefresh.before.ticks.trans (Nat.le_add_right _ 3), hrefresh.before.uuid⟩
    · rw [hrows]
      exact List.mem_append_right _ (List.mem_singleton_self _)

/-- The claims in an answer are those of the two tokens. -/
theorem Minted.claims {t : TokenResponse} {u : User} (hm : Minted env w w'' t w₁ u)
    (hlaw : env.Lawful)
    (hp : signed env t.accessToken = some p ∨ signed env t.refreshToken = some p) :
    p = accessClaims env w₁ u.id u.tenantId ∨ p = refreshClaims env w₁ u.id u.tenantId := by
  rw [hm.tokens] at hp
  rcases hp with hp | hp
  · exact .inl (Option.some.inj (hp.symm.trans (hlaw.verify_encode _ _ _)))
  · exact .inr (Option.some.inj (hp.symm.trans (hlaw.verify_encode _ _ _)))

/-- What is issued goes on record, under an identifier that was not drawn before. -/
theorem Minted.onRecord {t : TokenResponse} {u : User} (hm : Minted env w w'' t w₁ u)
    (hlaw : env.Lawful) (husers : ∃ v ∈ w''.db .users, SameAccount u v)
    (htenants : ∀ t ∈ w.db .tenants, t ∈ w''.db .tenants)
    (hp : signed env t.accessToken = some p ∨ signed env t.refreshToken = some p) :
    OnRecord env w'' p ∧ w.nextUuid ≤ p.jti := by
  obtain ⟨v, hv, hsame⟩ := husers
  obtain ⟨tenant, htenant, hid⟩ := hm.tenant
  have hticks : w₁.ticks + 3 ≤ w''.ticks := hm.after.ticks
  have huuid : w₁.nextUuid + 3 ≤ w''.nextUuid := hm.after.uuid
  rcases hm.claims hlaw hp with rfl | rfl
  · refine ⟨⟨.inl rfl, ⟨w₁.ticks + 2, hticks, rfl⟩, fun htype => ?_, ?_, ⟨v, hv, hsame.id,
      hsame.tenant⟩, ⟨tenant, htenants _ htenant, hid⟩, fun htype => ?_⟩, ?_⟩
    · exact absurd htype (show "access" ≠ "refresh" by decide)
    · exact huuid
    · exact absurd htype (show "access" ≠ "refresh" by decide)
    · exact hm.before.uuid.trans (Nat.le_add_right _ _)
  · obtain ⟨ua, ip, hrow, hcolumns⟩ := hm.row
    refine ⟨⟨.inr rfl, ⟨w₁.ticks, Nat.lt_of_lt_of_le (by omega) hticks, rfl⟩, fun _ => rfl,
      Nat.lt_of_lt_of_le (Nat.lt_add_of_pos_right (by decide)) huuid, ⟨v, hv, hsame.id,
      hsame.tenant⟩, ⟨tenant, htenants _ htenant, hid⟩, fun _ => ⟨_, hrow, rfl, rfl, rfl, ?_,
        hcolumns⟩⟩, hm.before.uuid⟩
    · exact Nat.add_le_add_right (hlaw.clock_mono _ _ (Nat.le_succ _)) _

/-! ## Over runs -/

/-- The claims that a request presents are on record. -/
theorem presented_onRecord (hpresents : PresentsIssued env h w req)
    (hrecord : ∀ e ∈ h, ∀ p, Issues env e p → OnRecord env w p) {token : String}
    (hpresented : req.presents env token) (hs : signed env token = some p) : OnRecord env w p := by
  obtain ⟨e, he, hissues⟩ := hpresents token p hpresented hs
  exact hrecord e he p hissues

theorem exchange_issues (hlaw : env.Lawful) (hst : TokenStore w)
    (hpresented : ∀ token p, req.endpoint = .refresh token → signed env token = some p →
      OnRecord env w p) (hp : Issues env (exchange env w req) p) :
    ∃ t w₁ u, (serve env w req).1 = .ok (.tokens t) ∧ Minted env w (serve env w req).2 t w₁ u ∧
      (signed env t.accessToken = some p ∨ signed env t.refreshToken = some p) ∧
      OnRecord env (serve env w req).2 p ∧ w.nextUuid ≤ p.jti := by
  obtain ⟨t, hanswer, hclaims⟩ := hp
  have hs : serve env w req = (.ok (.tokens t), (serve env w req).2) := Prod.ext hanswer rfl
  obtain ⟨w₁, u, hm⟩ := serve_minted hst hpresented hs
  have husers := (@serve_users env w req hst.registry.sessionIds).stays hst.registry.accounts
    hm.account
  exact ⟨t, w₁, u, hanswer, hm, hclaims,
    hm.onRecord hlaw husers (fun t ht => serve_tenants w req ht) hclaims⟩

/-- **All issued claims are on record**, in every run in which no other tokens are presented. -/
theorem Run.onRecord (hr : Run env Ok w₀ h w) (hlaw : env.Lawful) (hst : TokenStore w₀)
    (hok : ∀ h w req, Ok h w req → PresentsIssued env h w req) :
    ∀ e ∈ h, ∀ p, Issues env e p → OnRecord env w p := by
  induction hr with
  | start => simp
  | serve req run ok ih =>
    have hst' := run.tokenStore hst
    intro e he p hissues
    rcases List.mem_cons.mp he with rfl | he
    · obtain ⟨-, -, -, -, -, -, hrecord, -⟩ := exchange_issues hlaw hst'
        (fun token p hend hs => presented_onRecord (hok _ _ _ ok) ih (.inr (.inr (.inl hend))) hs)
        hissues
      exact hrecord
    · exact (ih e he p hissues).serve hst'.registry req

/-- Issued claims with the same identifier are the same. -/
theorem Run.jti_unique (hr : Run env Ok w₀ h w) (hlaw : env.Lawful) (hst : TokenStore w₀)
    (hok : ∀ h w req, Ok h w req → PresentsIssued env h w req) :
    ∀ e ∈ h, ∀ e' ∈ h, ∀ p q, Issues env e p → Issues env e' q → p.jti = q.jti → p = q := by
  induction hr with
  | start => simp
  | serve req run ok ih =>
    have hst' := run.tokenStore hst
    have hrecord := run.onRecord hlaw hst hok
    have hnew : ∀ {p}, Issues env (exchange env _ req) p → _ := fun hp => exchange_issues hlaw hst'
      (fun token p hend hs =>
        presented_onRecord (hok _ _ _ ok) hrecord (.inr (.inr (.inl hend))) hs) hp
    intro e he e' he' p q hp hq hjti
    rcases List.mem_cons.mp he with rfl | he
    · obtain ⟨t, w₁, u, hanswer, hm, hclaims, -, hfresh⟩ := hnew hp
      rcases List.mem_cons.mp he' with rfl | he'
      · obtain ⟨t', hanswer', hclaims'⟩ := hq
        obtain rfl : t = t' := Body.tokens.inj (Except.ok.inj (hanswer.symm.trans hanswer'))
        -- the two tokens of one answer have identifiers of their own
        rcases hm.claims hlaw hclaims with rfl | rfl <;>
          rcases hm.claims hlaw hclaims' with rfl | rfl
        · rfl
        · exact absurd hjti (Nat.ne_of_gt (Nat.lt_add_of_pos_right (by decide)))
        · exact absurd hjti (Nat.ne_of_lt (Nat.lt_add_of_pos_right (by decide)))
        · rfl
      · exact absurd (hjti ▸ hfresh) (Nat.not_le.mpr (hrecord e' he' q hq).drawn)
    · rcases List.mem_cons.mp he' with rfl | he'
      · obtain ⟨-, -, -, -, -, -, -, hfresh⟩ := hnew hq
        exact absurd (hjti ▸ hfresh) (Nat.not_le.mpr (hrecord e he p hp).drawn)
      · exact ih e he e' he' p q hp hq hjti

/-! ## One account logs in -/

/-- The tokens in an answer. -/
def Response.tokens? : Response → Option TokenResponse
  | .ok (.tokens t) => some t
  | _ => none

theorem Response.tokens?_eq_some {r : Response} {t : TokenResponse} (h : r.tokens? = some t) :
    r = .ok (.tokens t) := by
  cases r with
  | error e => cases h
  | ok body =>
    cases body with
    | tokens t' =>
      cases h
      rfl
    | _ => cases h

namespace Logins

/-- The reference platform at one instant, with tokens that expire soon. -/
def platform : Env :=
  { Env.reference { accessTokenTtlSeconds := 9, refreshTokenTtlSeconds := 20 } with
    clock := fun _ => 5 }

theorem platform_lawful : platform.Lawful where
  clock_mono _ _ _ := le_refl _
  verify_encode := Platform.verify_sign
  rowOrder_perm _ _ := List.Perm.refl _

def account : User :=
  { id := 3, tenantId := 1, email := "s@a.com", hashedPassword := "#Secret123", createdAt := 0,
    updatedAt := 0 }

/-- A tenant with one account. -/
def tables : Database Row
  | .tenants => [{ id := 1, name := "A", slug := "a" }]
  | .users => [account]
  | _ => []

def world : World := { World.fresh 5 tables with nextUuid := 7 }

theorem tokenStore : TokenStore world where
  registry :=
    { accounts := ⟨List.nodup_singleton _, by decide⟩
      sessionIds := List.nodup_nil
      sessions := by decide
      assigned := by decide }
  jtis := List.nodup_nil

/-- A request in the context of the tenant. -/
def ask (endpoint : Endpoint) : Request where
  headers := [("x-request-id", "r"), ("x-tenant-id", "a")]
  endpoint := endpoint

/-- The account logs in. -/
def answered : Exchange := exchange platform world (ask (.login ⟨"s@a.com", "Secret123"⟩))

@[irreducible] def tokens : TokenResponse := answered.resp.tokens?.getD ⟨"", "", "bearer", 0⟩

/-- The claims of the refresh token. -/
def claims : TokenPayload :=
  { sub := 3, tid := 1, type := "refresh", jti := 7, exp := 25, iat := 5 }

theorem answered_tokens : answered.resp = .ok (.tokens tokens) := by
  have hsome : answered.resp.tokens?.isSome = true := by decide +kernel
  obtain ⟨t, ht⟩ := Option.isSome_iff_exists.mp hsome
  rw [tokens, ht]
  exact Response.tokens?_eq_some ht

theorem signed_refreshToken : signed platform tokens.refreshToken = some claims := by
  decide +kernel

theorem issues_claims : Issues platform answered claims :=
  ⟨tokens, answered_tokens, .inr signed_refreshToken⟩

/-- A request of that kind presents the token of its body. -/
theorem presents_ask {endpoint : Endpoint} {token : String}
    (h : (ask endpoint).presents platform token) :
    endpoint = .refresh token ∨ endpoint = .logout (some token) := by
  rcases h with h | h | h
  · cases (show bearerPart platform "" = none by decide +kernel).symm.trans h
  · cases h
  · exact h

theorem run : Run platform (PresentsIssued platform) world [answered] answered.post := by
  refine .serve _ .start fun token p hpresented _ => ?_
  rcases presents_ask hpresented with h | h <;> cases h

end Logins

end LmsBackend
