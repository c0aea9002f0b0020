import LmsBackend.Effects.Updates
import LmsBackend.History.Tokens
import LmsBackend.Lib.Keys

/-!
# The life of a refresh token

- `Retires env e p`: the exchange uses the refresh token with the claims `p` up. It is its
  refresh, its logout in its own tenant, or a reset of its owner's password.
- `Dead env w p`: the token has expired, or its session row is revoked.
- `Run.dead`: what was retired stays dead. `Run.alive`: what was not is alive.
- `refresh_iff`: a refresh succeeds exactly with a token that was issued and not retired.
-/

namespace LmsBackend

open Mvcc

variable {env : Env} {w w' w'' w₀ w₁ : World} {req : Request} {h : List Exchange}
  {Ok : List Exchange → World → Request → Prop} {p q : TokenPayload} {e e' : Exchange}

/-- The response and the world after a request that succeeds. -/
theorem serve_eq_of_ok {body : Body} (h : (serve env w req).1 = .ok body) :
    serve env w req = (.ok body, (serve env w req).2) := Prod.ext h rfl

/-- The exchange uses up the refresh token with these claims. -/
inductive Retires (env : Env) (e : Exchange) (p : TokenPayload) : Prop
  | refresh (token : String) (endpoint : e.req.endpoint = .refresh token)
      (claims : signed env token = some p) (body : Body) (answered : e.resp = .ok body)
  | logout (sent : Option String) (token : String) (endpoint : e.req.endpoint = .logout sent)
      (present : truthy sent = some token) (claims : signed env token = some p)
      (tenant : ctxTenant env e.pre e.req = some p.tid) (body : Body) (answered : e.resp = .ok body)
  | reset (token newPassword raw : String)
      (endpoint : e.req.endpoint = .resetPassword token newPassword)
      (stored : storedReset env e.pre token = some raw) (owner : resetUser raw = some p.sub)
      (body : Body) (answered : e.resp = .ok body)

/-- The token has expired, or no session row of it is left unrevoked. -/
def Dead (env : Env) (w : World) (p : TokenPayload) : Prop :=
  p.exp ≤ env.clock w.ticks ∨ ∀ r ∈ w.db .userSessions, r.jti = p.jti → r.revokedAt ≠ none

/-! ## What was retired stays dead -/

/-- A dead token stays dead. -/
theorem Dead.stays (hd : Dead env w p) (hlaw : env.Lawful) (hst : TokenStore w)
    (hdrawn : p.jti < w.nextUuid) (req : Request) : Dead env (serve env w req).2 p := by
  have holder := @serve_older env w req
  rcases hd with hexp | hrevoked
  · exact .inl (hexp.trans (hlaw.clock_mono _ _ holder.ticks))
  · refine .inr fun v hv hjti => ?_
    obtain ⟨f, new, hstep⟩ := @serve_sessions env w req hst.registry.sessionIds
    obtain ⟨r, hr, rfl⟩ | hnew := hstep.came hv
    · have hsame := hstep.same r hr
      have hdead := hrevoked r hr (hsame.jti.symm.trans hjti)
      rcases hsame with heq | ⟨t, heq⟩
      · rw [heq]
        exact hdead
      · rw [heq]
        exact Option.some_ne_none t
    · exact absurd (hjti ▸ (hstep.jti v hnew).1) (Nat.not_le.mpr hdrawn)

/-- A refresh with a dead token fails. -/
theorem Dead.refuses (hd : Dead env w p) (hlaw : env.Lawful) {token : String}
    (he : req.endpoint = .refresh token) (hs : signed env token = some p) {body : Body} :
    (serve env w req).1 ≠ .ok body := by
  intro hok
  obtain ⟨w₁, p', row, u, hrefresh⟩ := serve_refresh he (serve_eq_of_ok hok)
  obtain ⟨hsigned, -, hexp, -⟩ := decodeIn_ok hrefresh.claims
  cases hs.symm.trans hsigned
  rcases hd with hexpired | hrevoked
  · exact absurd (hexp.trans_le hexpired)
      (Nat.not_lt.mpr (hlaw.clock_mono _ _ hrefresh.before.ticks))
  · exact hrevoked row hrefresh.session.1 hrefresh.session.2.1 hrefresh.active

theorem mem_replaceSession {id : Uuid} {v x : UserSession} {rows : List UserSession}
    (hx : x ∈ replaceSession id v rows) : x = v ∨ x ∈ rows ∧ x.id ≠ id := by
  obtain ⟨r, hr, rfl⟩ := List.mem_map.mp hx
  by_cases hid : r.id = id
  · exact .inl (if_pos hid)
  · rw [if_neg hid]
    exact .inr ⟨hr, hid⟩

/-- The rows after a replacement of one that is there. -/
theorem mem_replaceSession_iff {id : Uuid} {v x : UserSession} {rows : List UserSession}
    (hthere : ∃ r ∈ rows, r.id = id) :
    x ∈ replaceSession id v rows ↔ x = v ∨ x ∈ rows ∧ x.id ≠ id := by
  refine ⟨mem_replaceSession, ?_⟩
  rintro (rfl | ⟨hx, hid⟩)
  · obtain ⟨r, hr, hid⟩ := hthere
    exact List.mem_map.mpr ⟨r, hr, if_pos hid⟩
  · exact List.mem_map.mpr ⟨x, hx, if_neg hid⟩

/-- In a context of the tenant of a token, its session row is the one that is found. -/
theorem session_found (hrls : env.settings.enableRowLevelSecurity = true) (hst : TokenStore w)
    {rc : RequestContext} {r : UserSession} (hr : r ∈ w.db .userSessions)
    (htid : rc.tenantId = some r.tenantId) :
    (seen w (requestTx env rc) .userSessions).filter (fun x => decide (x.jti = r.jti)) = [r] := by
  have hguc : (requestTx env rc).guc.tenantId = some r.tenantId := by
    rw [requestTx, boundTx, if_pos hrls, htid]
  have hsub : (seen w (requestTx env rc) .userSessions).Sublist (w.db .userSessions) := by
    rw [seen, visible, view_nil schema w.db rfl]
    exact List.filter_sublist
  exact Keys.filter_key_sublist hst.jtis hsub
    ((mem_seen rfl).mpr ⟨hr, policy_of_tenant hguc rfl⟩)

/-- **An exchange that retires** a recorded refresh token leaves it dead. -/
theorem Retires.dead (hr : Retires env (exchange env w req) p)
    (hrls : env.settings.enableRowLevelSecurity = true) (hlaw : env.Lawful) (hst : TokenStore w)
    (hp : OnRecord env w p) (htype : p.type = "refresh") : Dead env (serve env w req).2 p := by
  have hanswer : ∀ {body}, (exchange env w req).resp = .ok body →
      serve env w req = (.ok body, (serve env w req).2) := fun hok => serve_eq_of_ok hok
  obtain ⟨r₀, hr₀, hjti₀, htenant₀, huser₀, -, -⟩ := hp.row htype
  have hone : ∀ r ∈ w.db .userSessions, r.jti = p.jti → r = r₀ :=
    fun r hr hjti => hst.same hr hr₀ (hjti.trans hjti₀.symm)
  cases hr with
  | refresh token he hs body hok =>
    obtain ⟨w₁, p', row, u, hrefresh⟩ := serve_refresh he (hanswer hok)
    cases hs.symm.trans (decodeIn_ok hrefresh.claims).1
    obtain ⟨-, -, hrows⟩ := hrefresh.rotates hst hp
    refine .inr fun v hv hjti => ?_
    rw [hrows] at hv
    rcases List.mem_append.mp hv with hv | hv
    · obtain rfl | ⟨hv, hid⟩ := mem_replaceSession hv
      · exact Option.some_ne_none _
      · have hrow := hone row hrefresh.session.1 hrefresh.session.2.1
        exact absurd (congrArg (·.id) ((hone v hv hjti).trans hrow.symm)) hid
    · -- the new row has an identifier that was drawn later
      rw [List.mem_singleton.mp hv] at hjti
      have hfresh : w.nextUuid ≤ p.jti := hjti ▸ hrefresh.before.uuid
      exact absurd hfresh (Nat.not_le.mpr hp.drawn)
  | logout sent token he hsent hs htenant body hok =>
    obtain ⟨rc, w₁, hctx, hstill, hbefore, hafter, ⟨row, old, t, hlogs, hold, hid, hrows⟩ |
      ⟨hnone, hrows⟩⟩ := serve_logout he (hanswer hok)
    · obtain ⟨⟨token', p', hsent', hdecode, hfound⟩, -⟩ := hlogs
      cases hsent.symm.trans hsent'
      cases hs.symm.trans (decodeIn_ok hdecode).1
      obtain ⟨hseen, hjti⟩ := List.mem_filter.mp (hfound ▸ List.mem_singleton_self row)
      have hrow := hone row (mem_seen_rls (by simp [rlsTables]) hseen).1 (of_decide_eq_true hjti)
      refine .inr fun v hv hvjti => ?_
      rw [hrows] at hv
      obtain rfl | ⟨hv, hne⟩ := mem_replaceSession hv
      · exact Option.some_ne_none _
      · exact absurd (congrArg (·.id) ((hone v hv hvjti).trans hrow.symm)) hne
    · -- nothing was revoked: the token has expired, or the row that it finds is revoked
      by_cases hexp : p.exp ≤ env.clock w₁.ticks
      · exact .inl (hexp.trans (hlaw.clock_mono _ _ hafter.ticks))
      · refine .inr fun v hv hjti hlive => ?_
        rw [hrows] at hv
        obtain rfl := hone v hv hjti
        obtain ⟨i, hi, hiat⟩ := hp.born
        have hnow : p.iat ≤ env.clock w₁.ticks :=
          hiat ▸ hlaw.clock_mono _ _ (hi.le.trans hbefore.ticks)
        refine hnone v ⟨⟨token, p, hsent, decodeIn_of hs hnow (Nat.lt_of_not_le hexp) htype, ?_⟩,
          hlive⟩
        rw [← hjti]
        exact session_found hrls hst hr₀
          (hctx.symm.trans (htenant.trans (congrArg some htenant₀.symm)))
  | reset token newPassword raw he hstored howner body hok =>
    obtain ⟨raw', u, t, g, hstored', howner', hu, -, -, hguc, hbypass, -, hrows⟩ :=
      serve_resetPassword hst.registry.sessionIds he (hanswer hok)
    cases hstored.symm.trans hstored'
    have hsub : u.id = p.sub := Option.some.inj (howner'.symm.trans howner)
    have htid : u.tenantId = p.tid := by
      obtain ⟨v, hv, hid, htenant⟩ := hp.account
      rw [← htenant, hst.registry.accounts.same hv hu (hid.trans hsub.symm)]
    refine .inr fun v hv hjti => ?_
    rw [hrows] at hv
    obtain ⟨r, hr, rfl⟩ := List.mem_map.mp hv
    have hr₀' : r = r₀ := by
      refine hone r hr ?_
      split at hjti
      · exact hjti
      · exact hjti
    subst hr₀'
    by_cases hlive : r.revokedAt = none
    · have hpolicy : policy g .userSessions r = true :=
        policy_of_tenant hguc (show tenantOf .userSessions r = _ by rw [htid, ← htenant₀]; rfl)
      rw [if_pos ⟨by simp [live, hlive, huser₀, hsub], hpolicy⟩]
      exact Option.some_ne_none _
    · split
      · exact Option.some_ne_none _
      · exact hlive

/-! ## What was not retired is alive -/

theorem truthy_eq_some {sent : Option String} {token : String} (h : truthy sent = some token) :
    sent = some token := by
  unfold truthy at h
  exact (Option.filter_eq_some_iff.mp h).1

/-- A request that does not retire a token leaves its session row as it is, if it is not
revoked yet. -/
theorem session_kept (hst : TokenStore w) {r : UserSession} (hr : r ∈ w.db .userSessions)
    (hjti : r.jti = p.jti) (htenant : r.tenantId = p.tid) (huser : r.userId = p.sub)
    (honly : ∀ token q, req.presents env token → signed env token = some q → q.jti = p.jti → q = p)
    (hnot : ¬ Retires env (exchange env w req) p) :
    r ∈ (serve env w req).2.db .userSessions := by
  rcases hs : serve env w req with ⟨answer, w'⟩
  have hanswer : (exchange env w req).resp = answer := congrArg Prod.fst hs
  by_cases ht : .userSessions ∈ req.endpoint.writes
  · cases answer with
    | error e => exact serve_sessions_error ht hs .userSessions (by decide) ▸ hr
    | ok body =>
      obtain ⟨headers, client, endpoint, valid⟩ := req
      -- a row that is replaced is the one that the presented claims find
      have hkept : ∀ {id : Uuid} {v : UserSession}, id ≠ r.id →
          r ∈ replaceSession id v (w.db .userSessions) :=
        fun hne => List.mem_map.mpr ⟨r, hr, if_neg hne.symm⟩
      have hrow : ∀ {row : UserSession}, row ∈ w.db .userSessions → row.id = r.id → row = r :=
        fun hmem hid => List.inj_on_of_nodup_map hst.registry.sessionIds hmem hr hid
      cases endpoint with
      | login data =>
        obtain ⟨w₁, u, hlogin⟩ := serve_login rfl hs
        obtain ⟨ua, ip, hrows, -⟩ := hlogin.sessions
        show r ∈ w'.db .userSessions
        rw [hrows]
        exact List.mem_append_left _ hr
      | refresh token =>
        obtain ⟨w₁, q, row, u, hrefresh⟩ := serve_refresh rfl hs
        obtain hsame | ⟨old, hold, hid, hrows⟩ := hrefresh.stored
        · exact hsame.symm ▸ hr
        · show r ∈ w'.db .userSessions
          rw [hrows]
          refine List.mem_append_left _ (hkept fun hrid => hnot ?_)
          obtain rfl := hrow hrefresh.session.1 hrid
          obtain ⟨hsigned, -⟩ := decodeIn_ok hrefresh.claims
          obtain rfl := honly token q (.inr (.inr (.inl rfl))) hsigned
            (hrefresh.session.2.1.symm.trans hjti)
          exact .refresh token rfl hsigned body hanswer
      | logout sent =>
        obtain ⟨rc, w₁, hctx, -, -, -, ⟨row, old, t, hlogs, hold, hid, hrows⟩ | ⟨-, hsame⟩⟩ :=
          serve_logout rfl hs
        · show r ∈ w'.db .userSessions
          rw [hrows]
          refine hkept fun hrid => hnot ?_
          obtain ⟨⟨token, q, hsent, hdecode, hfound⟩, -⟩ := hlogs
          obtain ⟨hseen, hrjti⟩ := List.mem_filter.mp (hfound ▸ List.mem_singleton_self row)
          obtain ⟨hmem, tid, htid, hrtenant⟩ := mem_seen_rls (by simp [rlsTables]) hseen
          obtain rfl := hrow hmem hrid
          obtain ⟨hsigned, -⟩ := decodeIn_ok hdecode
          obtain rfl :=
            honly token q (.inr (.inr (.inr (congrArg _ (truthy_eq_some hsent))))) hsigned
            ((of_decide_eq_true hrjti).symm.trans hjti)
          refine .logout sent token rfl hsent hsigned ?_ body hanswer
          exact hctx.trans (htid.trans (hrtenant.symm.trans (congrArg some htenant)))
        · exact hsame.symm ▸ hr
      | resetPassword token newPassword =>
        obtain ⟨raw, u, t, g, hstored, howner, -, -, -, -, -, -, hrows⟩ :=
          serve_resetPassword hst.registry.sessionIds rfl hs
        show r ∈ w'.db .userSessions
        rw [hrows]
        refine List.mem_map.mpr ⟨r, hr, if_neg fun hrevoked => hnot ?_⟩
        have hlive := hrevoked.1
        rw [live, Bool.and_eq_true, decide_eq_true_iff] at hlive
        exact .reset token newPassword raw rfl hstored
          (howner.trans (congrArg some (hlive.1.symm.trans huser))) body hanswer
      | _ => simp [Endpoint.writes] at ht
  · have hsame := serve_frame env w req ht
    rw [hs] at hsame
    exact hsame.symm ▸ hr

/-! ## Over runs -/

/-- **What was retired** after its issue is dead. -/
theorem Run.dead (hr : Run env Ok w₀ h w) (hrls : env.settings.enableRowLevelSecurity = true)
    (hlaw : env.Lawful) (hst : TokenStore w₀)
    (hok : ∀ h w req, Ok h w req → PresentsIssued env h w req) (htype : p.type = "refresh")
    {after before : List Exchange} (hsplit : h = after ++ e :: before)
    (hissued : ∃ e₀ ∈ before, Issues env e₀ p) (hretires : Retires env e p) : Dead env w p := by
  induction hr generalizing after with
  | start => simp at hsplit
  | @serve h' w' req run ok ih =>
    have hst' := run.tokenStore hst
    obtain ⟨e₀, he₀, hissues⟩ := hissued
    cases after with
    | nil =>
      cases hsplit
      exact hretires.dead hrls hlaw hst' (run.onRecord hlaw hst hok e₀ he₀ p hissues) htype
    | cons e' after =>
      obtain ⟨rfl, rfl⟩ := List.cons.inj hsplit
      have hrecord := run.onRecord hlaw hst hok e₀
        (List.mem_append_right _ (List.mem_cons_of_mem _ he₀)) p hissues
      exact (ih rfl).stays hlaw hst' hrecord.drawn req

/-- **What was not retired** since its issue has an unrevoked session row. -/
theorem Run.alive (hr : Run env Ok w₀ h w) (hlaw : env.Lawful) (hst : TokenStore w₀)
    (hok : ∀ h w req, Ok h w req → PresentsIssued env h w req) (htype : p.type = "refresh")
    {after before : List Exchange} (hsplit : h = after ++ e :: before) (hissues : Issues env e p)
    (hnot : ∀ e' ∈ after, ¬ Retires env e' p) :
    ∃ r ∈ w.db .userSessions, r.jti = p.jti ∧ r.revokedAt = none := by
  induction hr generalizing after with
  | start => simp at hsplit
  | @serve h' w' req run ok ih =>
    have hst' := run.tokenStore hst
    have hrecord := run.onRecord hlaw hst hok
    cases after with
    | nil =>
      cases hsplit
      obtain ⟨t, w₁, u, -, hm, hclaims, -, -⟩ := exchange_issues hlaw hst'
        (fun token p hend hs =>
          presented_onRecord (hok _ _ _ ok) hrecord (.inr (.inr (.inl hend))) hs)
        hissues
      obtain ⟨ua, ip, hrow, -⟩ := hm.row
      rcases hm.claims hlaw hclaims with rfl | rfl
      · exact absurd htype (show "access" ≠ "refresh" by decide)
      · exact ⟨_, hrow, rfl, rfl⟩
    | cons e' after =>
      obtain ⟨rfl, rfl⟩ := List.cons.inj hsplit
      have hmem : e ∈ after ++ e :: before := List.mem_append_right _ List.mem_cons_self
      obtain ⟨r, hr, hjti, hlive⟩ := ih rfl fun e' he' => hnot e' (List.mem_cons_of_mem _ he')
      obtain ⟨r₀, hr₀, hjti₀, htenant, huser, -, -⟩ := (hrecord e hmem p hissues).row htype
      obtain rfl := hst'.same hr hr₀ (hjti.trans hjti₀.symm)
      refine ⟨r, session_kept hst' hr hjti htenant huser ?_ (hnot _ List.mem_cons_self), hjti,
        hlive⟩
      intro token q hpresented hs hsame
      obtain ⟨e₁, he₁, hissues₁⟩ := hok _ _ _ ok token q hpresented hs
      exact run.jti_unique hlaw hst hok e₁ he₁ e hmem q p hissues₁ hissues hsame

/-- **One request** of a run makes an issued refresh token dead, while it has not expired, exactly
by retiring it. -/
theorem dead_after_iff (hr : Run env Ok w₀ h w)
    (hrls : env.settings.enableRowLevelSecurity = true) (hlaw : env.Lawful) (hst : TokenStore w₀)
    (hok : ∀ h w req, Ok h w req → PresentsIssued env h w req) (hreq : Ok h w req)
    (hissued : ∃ e ∈ h, Issues env e p) (htype : p.type = "refresh")
    (hclock : env.clock (serve env w req).2.ticks < p.exp) :
    Dead env (serve env w req).2 p ↔ Dead env w p ∨ Retires env (exchange env w req) p := by
  have hst' := hr.tokenStore hst
  obtain ⟨e₀, he₀, hissues⟩ := hissued
  have hp := hr.onRecord hlaw hst hok e₀ he₀ p hissues
  constructor
  · intro hd
    by_contra hnot
    obtain ⟨hlive, hkept⟩ := not_or.mp hnot
    obtain ⟨hexp, hrows⟩ := not_or.mp hlive
    obtain ⟨r, hrow, hjti, htenant, huser, -, -⟩ := hp.row htype
    have hactive : r.revokedAt = none := by
      by_contra hrevoked
      refine hrows fun r' hr' hjti' => ?_
      rw [hst'.same hr' hrow (hjti'.trans hjti.symm)]
      exact hrevoked
    have hstays := session_kept hst' hrow hjti htenant huser (fun token q hpresented hs hsame => by
      obtain ⟨e₁, he₁, hissues₁⟩ := hok _ _ _ hreq token q hpresented hs
      exact hr.jti_unique hlaw hst hok e₁ he₁ e₀ he₀ q p hissues₁ hissues hsame) hkept
    rcases hd with hexpired | hrevoked
    · exact absurd hclock (Nat.not_lt.mpr hexpired)
    · exact hrevoked r hstays hjti hactive
  · rintro (hd | hretires)
    · exact hd.stays hlaw hst' hp.drawn req
    · exact hretires.dead hrls hlaw hst' hp htype

/-! ## The refresh -/

/-- The token with these claims was issued, and not used up since. -/
def InUse (env : Env) (h : List Exchange) (p : TokenPayload) : Prop :=
  ∃ after e before, h = after ++ e :: before ∧ Issues env e p ∧ ∀ e' ∈ after, ¬ Retires env e' p

/-- A valid refresh in the context of a tenant reaches its path operation function. -/
theorem refresh_admitted {token : String} (he : req.endpoint = .refresh token)
    (hvalid : req.valid = true) {tid : Uuid} (hctx : ctxTenant env w req = some tid) :
    ∃ rc s w₁, rc.tenantId = some tid ∧ w.Still w₁ ∧ w.Older w₁ ∧ serve env w req =
      finish env (runM env (refresh env rc s token >>= fun t => pure (Body.tokens t))
        (w₁, [requestTx env rc])) := by
  obtain ⟨w₁, hrc, hstill, holder⟩ :=
    (@Quiet.requestContext env req.headers req.client).run w []
  unfold ctxTenant at hctx
  cases hr : (runM env (requestContext env req.headers req.client) (w, [])).1 with
  | error e =>
    rw [hr] at hctx
    cases hctx
  | ok rc =>
    rw [hr] at hrc hctx
    have hlimit : runM env (limitRate env rc req.endpoint) (w₁, []) = (.ok (), (w₁, [])) := by
      rw [he]
      rfl
    refine ⟨rc, ⟨env.clock w₁.ticks⟩, w₁.tick, hctx, hstill.trans ⟨rfl, rfl, fun _ => rfl⟩,
      holder.trans ⟨Nat.le_succ _, le_refl _⟩, ?_⟩
    rw [serve_context (by rw [he]; trivial) hrc hlimit]
    obtain ⟨headers, client, endpoint, valid⟩ := req
    cases he
    cases hvalid
    rfl

/-- The end of a unit of work is after the end of the run in it. -/
theorem run_finish_older {α β : Type} (p : M α) (f : α → β) (s : State) :
    (runM env p s).2.1.Older (finish env (runM env (p >>= fun a => pure (f a)) s)).2 := by
  rcases hrun : runM env p s with ⟨r, s'⟩
  cases r with
  | error e =>
    rw [runM_bind_error hrun]
    exact finish_older _ s'
  | ok a =>
    rw [runM_bind_ok hrun]
    exact finish_older _ s'

/-- The account of an identifier is found in the context of its tenant. -/
theorem account_found (hrls : env.settings.enableRowLevelSecurity = true) (ha : Accounts w)
    {rc : RequestContext} {u : User} (hu : u ∈ w.db .users) (htid : rc.tenantId = some u.tenantId)
    (hlive : u.deletedAt = none) :
    ∃ v, usersIn (seen w (requestTx env rc)) rc (fun x => decide (x.id = u.id)) = [v] ∧
      v.user = u := by
  have hguc : (requestTx env rc).guc.tenantId = some u.tenantId := by
    rw [requestTx, boundTx, if_pos hrls, htid]
  have hsub : ((seen w (requestTx env rc) .users).filter (inScope rc .users)).Sublist
      (w.db .users) := by
    rw [seen, visible, view_nil schema w.db rfl]
    exact List.filter_sublist.trans List.filter_sublist
  have hscope : inScope rc .users u = true := by
    simp [inScope, deletedAtOf, tenantOf, hlive, htid]
  have hmem : u ∈ (seen w (requestTx env rc) .users).filter (inScope rc .users) :=
    List.mem_filter.mpr ⟨(mem_seen rfl).mpr ⟨hu, policy_of_tenant hguc rfl⟩, hscope⟩
  have hone : (seen w (requestTx env rc) .users).filter
      (fun x => inScope rc .users x && decide (x.id = u.id)) = [u] := by
    rw [← Keys.filter_key_sublist ha.ids hsub hmem, List.filter_filter]
    exact List.filter_congr fun x _ => Bool.and_comm _ _
  rw [usersIn, hone]
  exact ⟨_, rfl, rfl⟩

/-- The session row of the tenant in context is revoked. -/
theorem revoke_ends {s : Session} {rc : RequestContext} {r : UserSession}
    (hrls : env.settings.enableRowLevelSecurity = true)
    (hids : ((w.db .userSessions).map (·.id)).Nodup) (hr : r ∈ w.db .userSessions)
    (hcolumns : columnError .userSessions r = none) (htid : rc.tenantId = some r.tenantId) :
    Prog.Ends (exec env) (revokeSession s r) (w, [requestTx env rc])
      (fun _ s' => ∃ tx, s' = (w.tick, [tx])) fun _ _ => False := by
  have hguc : (requestTx env rc).guc.tenantId = some r.tenantId := by
    rw [requestTx, boundTx, if_pos hrls, htid]
  have htarget : target schema w.tick.db (requestTx env rc) .userSessions [r.id] (fun _ => true) =
      some r := by
    refine target_eq_some rfl ?_ ((mem_seen rfl).mpr ⟨hr, policy_of_tenant hguc rfl⟩) rfl
    have hkeys : (w.db .userSessions).map (keyOf .userSessions) =
        ((w.db .userSessions).map (·.id)).map fun id => [id] := by
      rw [List.map_map]
      rfl
    exact hkeys ▸ hids.map List.singleton_injective
  refine .bind_ok (runM_now _ _) (rewrite_ends (fun old _ _ => ⟨_, rfl⟩) (fun hgone => ?_) ?_)
  · cases hgone.symm.trans htarget
  · intro old d hold hrefused
    obtain rfl := Option.some.inj (hold.symm.trans htarget)
    have hpolicy := @policy_of_tenant _ .userSessions (schema.coerce .userSessions
      (touch s.startedAt .userSessions { old with revokedAt := some (env.clock w.ticks) })) _
      hguc rfl
    rw [updateError, if_pos (show schema.policy _ .userSessions _ = true from hpolicy)] at hrefused
    refine Option.some_ne_none d (hrefused.symm.trans (firstError_eq_none.mpr fun c hc => ?_))
    rcases List.mem_pair.mp hc with rfl | rfl
    · exact hcolumns
    · rfl

/-- A refresh that finds its session row, unrevoked, and its account returns. -/
theorem refresh_returns {token : String} {rc : RequestContext} {s : Session} {r : UserSession}
    {u : User} (hrls : env.settings.enableRowLevelSecurity = true) (hst : TokenStore w)
    (hdecode : decodeIn env token "refresh" (env.clock w.ticks) = .ok p)
    (hr : r ∈ w.db .userSessions) (hjti : r.jti = p.jti) (hlive : r.revokedAt = none)
    (hexp : env.clock (runM env (refresh env rc s token) (w, [requestTx env rc])).2.1.ticks ≤
      r.expiresAt) (hlaw : env.Lawful) (hcolumns : columnError .userSessions r = none)
    (hu : u ∈ w.db .users) (hid : u.id = p.sub) (hundeleted : u.deletedAt = none)
    (htid : rc.tenantId = some r.tenantId) (htenant : u.tenantId = r.tenantId) :
    ∃ tokens s', runM env (refresh env rc s token) (w, [requestTx env rc]) = (.ok tokens, s') := by
  have hfound := hjti ▸ session_found hrls hst hr htid
  obtain ⟨v, hone, -⟩ := account_found hrls hst.registry.accounts hu
    (htid.trans (congrArg some htenant.symm)) hundeleted
  rw [hid] at hone
  have hdecodes : runM env (decodeToken env token "refresh") (w, [requestTx env rc]) =
      (.ok (.ok p), (w.tick, [requestTx env rc])) := by
    have hsigned := (decodeIn_ok hdecode).1
    unfold decodeIn at hdecode
    unfold decodeToken
    rw [hsigned] at hdecode ⊢
    exact congrArg (fun x => (Except.ok x, (w.tick, [requestTx env rc]))) hdecode
  have hgets : runM env (getByJti p.jti) (w.tick, [requestTx env rc]) =
      (.ok (some r), (w.tick, [requestTx env rc])) := by
    refine (runM_bind_ok (runM_query w.tick _ [] .userSessions _)).trans ?_
    rw [show (seen w.tick (requestTx env rc) .userSessions).filter
      (fun x => decide (x.jti = p.jti)) = [r] from hfound]
    rfl
  have huser : runM env (getUserOr404 rc p.sub) (w.tick.tick, [requestTx env rc]) =
      (.ok v, (w.tick.tick, [requestTx env rc])) := by
    have hfinds : runM env (findUser rc fun u => decide (u.id = p.sub))
        (w.tick.tick, [requestTx env rc]) = (.ok (some v), (w.tick.tick, [requestTx env rc])) := by
      rw [runM_findUser, show usersIn (seen w.tick.tick (requestTx env rc)) rc
        (fun x => decide (x.id = p.sub)) = [v] from hone]
      rfl
    exact runM_bind_ok hfinds
  have hnow : env.clock (w.ticks + 1) ≤ r.expiresAt := by
    refine (hlaw.clock_mono _ _ ?_).trans hexp
    rw [refresh, runM_bind_ok hdecodes]
    exact (runM_older _ (w.tick, [requestTx env rc])).ticks
  have hends : Prog.Ends (exec env) (refresh env rc s token) (w, [requestTx env rc])
      (fun _ _ => True) fun _ _ => False := by
    refine .bind_ok hdecodes (.bind_ok hgets ?_)
    dsimp only
    rw [if_neg (by simp [UserSession.isActive, hlive])]
    refine .bind_ok (runM_now _ _) ?_
    rw [if_neg (show ¬ r.expiresAt < env.clock w.tick.ticks from Nat.not_lt.mpr hnow)]
    have hrevoke := @revoke_ends _ w.tick.tick s _ _ hrls hst.registry.sessionIds hr hcolumns htid
    refine .bind_ok huser (.bind (hrevoke.mono ?_ fun _ _ hfalse => hfalse))
    rintro - s' ⟨tx, rfl⟩
    exact .of_ok (runM_issueTokens _ _ _ _) trivial
  rcases hrun : runM env (refresh env rc s token) (w, [requestTx env rc]) with ⟨a, s'⟩
  cases a with
  | error e => exact (hends.error hrun).elim
  | ok tokens => exact ⟨tokens, s', rfl⟩

/-- **A refresh succeeds** exactly with a refresh token that was issued and not used up since,
has not expired, and is presented in the tenant that it was signed for, whose account is still
there. No other condition is on the account: it may be inactive. -/
theorem refresh_iff (hr : Run env Ok w₀ h w) (hrls : env.settings.enableRowLevelSecurity = true)
    (hlaw : env.Lawful) (hst : TokenStore w₀)
    (hok : ∀ h w req, Ok h w req → PresentsIssued env h w req) {token : String}
    (he : req.endpoint = .refresh token) (hvalid : req.valid = true)
    (hpresents : PresentsIssued env h w req) (hs : signed env token = some p)
    (hclock : env.clock (serve env w req).2.ticks < p.exp ∨ p.exp ≤ env.clock w.ticks) :
    (∃ body, (serve env w req).1 = .ok body) ↔
      p.type = "refresh" ∧ env.clock w.ticks < p.exp ∧ InUse env h p ∧
        ctxTenant env w req = some p.tid ∧
        ∃ u ∈ w.db .users, u.id = p.sub ∧ u.deletedAt = none := by
  have hst' := hr.tokenStore hst
  have hrecord := hr.onRecord hlaw hst hok
  have hpresented : req.presents env token := .inr (.inr (.inl he))
  obtain ⟨e₀, he₀, hissues⟩ := hpresents token p hpresented hs
  have hp := hrecord e₀ he₀ p hissues
  obtain ⟨v, hv, hvid, hvtenant⟩ := hp.account
  have htid : ∀ {u : User}, u ∈ w.db .users → u.id = p.sub → u.tenantId = p.tid :=
    fun hu hid =>
      (congrArg User.tenantId (hst'.registry.accounts.same hu hv (hid.trans hvid.symm))).trans
        hvtenant
  constructor
  · rintro ⟨body, hbody⟩
    obtain ⟨w₁, q, row, u, hrefresh⟩ := serve_refresh he (serve_eq_of_ok hbody)
    obtain ⟨hsigned, -, hexp, htype⟩ := decodeIn_ok hrefresh.claims
    obtain rfl := Option.some.inj (hs.symm.trans hsigned)
    obtain ⟨hu, hid, hlive⟩ := hrefresh.account
    refine ⟨htype, (hlaw.clock_mono _ _ hrefresh.before.ticks).trans_lt hexp, ?_,
      hrefresh.tenant.trans (congrArg some (htid hu hid)), u, hu, hid, hlive⟩
    obtain ⟨after, before, rfl⟩ := List.append_of_mem he₀
    refine ⟨after, e₀, before, rfl, hissues, fun e' he' hretires => ?_⟩
    -- what was retired since would be dead, and refused
    obtain ⟨late, early, rfl⟩ := List.append_of_mem he'
    have hdead := hr.dead hrls hlaw hst hok htype (List.append_assoc late (e' :: early) _)
      ⟨e₀, List.mem_append_right _ List.mem_cons_self, hissues⟩ hretires
    exact hdead.refuses hlaw he hs hbody
  · rintro ⟨htype, hexp, ⟨after, e, before, hsplit, hissued, hkept⟩, hctx, u, hu, hid, hlive⟩
    have hend : env.clock (serve env w req).2.ticks < p.exp :=
      hclock.resolve_right (Nat.not_le.mpr hexp)
    obtain ⟨r, hrow, hjti, hactive⟩ := hr.alive hlaw hst hok htype hsplit hissued hkept
    obtain ⟨r', hrow', hjti', htenant, -, hexpires, hcolumns⟩ := hp.row htype
    obtain rfl := hst'.same hrow hrow' (hjti.trans hjti'.symm)
    obtain ⟨rc, s, w₁, hrc, hstill, holder, hserve⟩ := refresh_admitted he hvalid hctx
    have hst₁ : TokenStore w₁ := hst'.still hstill holder
    obtain ⟨i, hi, hiat⟩ := hp.born
    have hlast : env.clock (runM env (refresh env rc s token) (w₁, [requestTx env rc])).2.1.ticks ≤
        env.clock (serve env w req).2.ticks := by
      refine hlaw.clock_mono _ _ ?_
      rw [hserve]
      exact (run_finish_older _ _ _).ticks
    have hdecode : decodeIn env token "refresh" (env.clock w₁.ticks) = .ok p :=
      decodeIn_of hs (hiat ▸ hlaw.clock_mono _ _ (hi.le.trans holder.ticks))
        ((hlaw.clock_mono _ _ (runM_older _ _).ticks).trans_lt (hlast.trans_lt hend)) htype
    obtain ⟨tokens, s', hrun⟩ := refresh_returns hrls hst₁ hdecode (hstill.db ▸ hrow) hjti hactive
      ((hlast.trans hend.le).trans hexpires) hlaw hcolumns (hstill.db ▸ hu) hid hlive
      (hrc.trans (congrArg some htenant.symm)) ((htid hu hid).trans htenant.symm)
    refine ⟨.tokens tokens, ?_⟩
    rw [hserve, runM_bind_ok hrun]
    rfl

namespace Logins

theorem presents_refresh :
    PresentsIssued platform [answered] answered.post (ask (.refresh tokens.refreshToken)) := by
  intro token p hpresented hs
  rcases presents_ask hpresented with h | h
  · cases h
    cases hs.symm.trans signed_refreshToken
    exact ⟨answered, List.mem_singleton_self _, issues_claims⟩
  · cases h

theorem presents_logout :
    PresentsIssued platform [answered] answered.post (ask (.logout tokens.refreshToken)) := by
  intro token p hpresented hs
  rcases presents_ask hpresented with h | h
  · cases h
  · cases h
    cases hs.symm.trans signed_refreshToken
    exact ⟨answered, List.mem_singleton_self _, issues_claims⟩

theorem inUse_claims : InUse platform [answered] claims :=
  ⟨[], answered, [], rfl, issues_claims, by simp⟩

end Logins

open Logins in
/-- A logout after a login. -/
theorem dead_after_logout :
    Dead platform (serve platform answered.post (ask (.logout tokens.refreshToken))).2 claims := by
  have hctx : ctxTenant platform answered.post (ask (.logout tokens.refreshToken)) = some 1 := by
    decide +kernel
  have hsent : truthy (some tokens.refreshToken) = some tokens.refreshToken := by decide +kernel
  have hanswer : (exchange platform answered.post (ask (.logout tokens.refreshToken))).resp =
      .ok (.message "Logged out") := by
    decide +kernel
  exact (dead_after_iff run rfl platform_lawful tokenStore (fun _ _ _ h => h) presents_logout
    ⟨_, List.mem_singleton_self _, issues_claims⟩ rfl (show 5 < 25 by decide)).mpr
    (.inr (.logout _ _ rfl hsent signed_refreshToken hctx _ hanswer))

open Logins in
/-- A refresh after a login. -/
theorem refresh_after_login : ∃ body,
    (serve platform answered.post (ask (.refresh tokens.refreshToken))).1 = .ok body := by
  have hctx : ctxTenant platform answered.post (ask (.refresh tokens.refreshToken)) = some 1 := by
    decide +kernel
  have huser : ∃ u ∈ answered.post.db .users, u.id = 3 ∧ u.deletedAt = none := by decide +kernel
  exact (refresh_iff run rfl platform_lawful tokenStore (fun _ _ _ h => h) rfl rfl presents_refresh
    signed_refreshToken (.inl (show 5 < 25 by decide))).mpr
    ⟨rfl, show 5 < 25 by decide, inUse_claims, hctx, huser⟩

end LmsBackend
