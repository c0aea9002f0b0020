import LmsBackend.Effects.Serve
import LmsBackend.Effects.Works

/-!
# What the authentication services do

For `register`, `login`, `refresh`, `logout` and `reset_password`: what a run that
returns has found in the rows it sees, and the writes it leaves in its transaction;
and that a run that raises leaves nothing (`Works`).

- `issuedTokens`, `issuedSession`: the tokens and the session row that
  `_issue_tokens` makes of the identifiers and clock readings of a world.
- `revokeLive`: the bulk revocation as a map on the rows of `user_sessions`.
-/

namespace LmsBackend

open Mvcc

variable {env : Env} {rc : RequestContext} {s : Session} {w : World} {tx : Tx} {txs : List Tx}

/-! ## Issuing tokens -/

/-- The claims of the refresh token issued in this world. -/
def refreshClaims (env : Env) (w : World) (userId tenantId : Uuid) : TokenPayload where
  sub := userId
  tid := tenantId
  type := "refresh"
  jti := w.nextUuid
  iat := env.clock w.ticks
  exp := env.clock w.ticks + env.settings.refreshTokenTtlSeconds

/-- The claims of the access token issued with it. -/
def accessClaims (env : Env) (w : World) (userId tenantId : Uuid) : TokenPayload where
  sub := userId
  tid := tenantId
  type := "access"
  jti := w.nextUuid + 2
  iat := env.clock (w.ticks + 2)
  exp := env.clock (w.ticks + 2) + env.settings.accessTokenTtlSeconds

/-- The session row of the refresh token. -/
def issuedSession (env : Env) (w : World) (userId tenantId : Uuid) (userAgent ip : Option String) :
    UserSession where
  id := w.nextUuid + 1
  tenantId := tenantId
  userId := userId
  jti := w.nextUuid
  userAgent := userAgent
  ipAddress := ip
  expiresAt := env.clock (w.ticks + 1) + env.settings.refreshTokenTtlSeconds

/-- A string that the application signs. -/
def sign (env : Env) (p : TokenPayload) : String :=
  env.jwtEncode env.settings.jwtSecretKey env.settings.jwtAlgorithm p

/-- The answer of `_issue_tokens`. -/
def issuedTokens (env : Env) (w : World) (userId tenantId : Uuid) : TokenResponse where
  accessToken := sign env (accessClaims env w userId tenantId)
  refreshToken := sign env (refreshClaims env w userId tenantId)
  expiresIn := env.settings.accessTokenTtlSeconds

/-- The world after the identifiers and the readings of `_issue_tokens`. -/
def World.issued (w : World) : World :=
  { w with ticks := w.ticks + 3, nextUuid := w.nextUuid + 3 }

theorem runM_issueTokens (userId tenantId : Uuid) (userAgent ip : Option String) :
    runM env (issueTokens env userId tenantId userAgent ip) (w, tx :: txs) =
      (.ok (issuedTokens env w userId tenantId), (w.issued, withPending tx
        ⟨.userSessions, issuedSession env w userId tenantId userAgent ip⟩ :: txs)) := rfl

/-! ## Login -/

theorem authenticate_ok {email password : String} {u : LoadedUser} {s' : State}
    (h : runM env (authenticate env rc email password) (w, tx :: txs) = (.ok u, s')) :
    usersIn (seen w tx) rc (fun u => u.email = env.lower (env.lower email)) = [u] ∧
      env.verify password u.user.hashedPassword = true ∧ u.user.isActive = true ∧
      s' = (w, tx :: txs) := by
  obtain ⟨found, s₁, hfind, h⟩ := Prog.run_bind_eq_ok h
  obtain ⟨hone, rfl⟩ := findUser_ok hfind
  cases found with
  | none => cases congrArg Prod.fst h
  | some u' =>
    dsimp only at h
    split at h
    · rename_i hverify
      split at h
      · rename_i hactive
        cases h
        exact ⟨scalar_eq_some hone, hverify, hactive, rfl⟩
      · cases congrArg Prod.fst h
    · cases congrArg Prod.fst h

/-- A login that returns: the one account in scope with the address, active and with
this password; its row is touched and a session row is inserted. -/
theorem login_ok {data : LoginRequest} {userAgent ip : Option String} {tokens : TokenResponse}
    {s' : State} (hp : tx.pending = [])
    (h : runM env (login env rc s data userAgent ip) (w, tx :: txs) = (.ok tokens, s')) :
    ∃ tid u old w', rc.tenantId = some tid ∧
      usersIn (seen w tx) rc (fun u => u.email = env.lower (env.lower data.email)) = [u] ∧
      env.verify data.password u.user.hashedPassword = true ∧ u.user.isActive = true ∧
      target schema w.db tx .users [u.user.id] (fun _ => true) = some old ∧
      tokens = issuedTokens env w u.user.id tid ∧
      w.Logged w' ∧ w.issued.Older w' ∧
      insertError schema w.db (tx.push (.update .users [u.user.id]
          { old with lastLoginAt := some (env.clock (w.ticks + 3)), updatedAt := s.startedAt }))
        .userSessions (issuedSession env w u.user.id tid userAgent ip) = none ∧
      s' = (w', (tx.push (.update .users [u.user.id]
          { old with lastLoginAt := some (env.clock (w.ticks + 3)), updatedAt := s.startedAt })).push
        (inserting ⟨.userSessions, issuedSession env w u.user.id tid userAgent ip⟩) :: txs) := by
  obtain ⟨tid, s₁, htid, h⟩ := Prog.run_bind_eq_ok h
  obtain ⟨htenant, rfl⟩ := requireTenantId_ok htid
  obtain ⟨u, s₂, hauth, h⟩ := Prog.run_bind_eq_ok h
  obtain ⟨hone, hverify, hactive, rfl⟩ := authenticate_ok hauth
  obtain ⟨issued, s₃, hissue, h⟩ := Prog.run_bind_eq_ok h
  cases (runM_issueTokens _ _ _ _).symm.trans hissue
  obtain ⟨t, s₄, hnow, h⟩ := Prog.run_bind_eq_ok h
  cases (runM_now _ _).symm.trans hnow
  obtain ⟨_, s₅, hupdate, h⟩ := Prog.run_bind_eq_ok h
  obtain ⟨old, htarget, rfl⟩ := runM_updateRow_ok hupdate
  obtain ⟨_, s₆, hflush, h⟩ := Prog.run_bind_eq_ok h
  have hinsert := @runM_flush_first env _ _ _
    ⟨.userSessions, issuedSession env w u.user.id tid userAgent ip⟩ [] _
    (by simp [withPending, Tx.push, hp]) hflush
  obtain rfl := runM_flush_ok hflush
  obtain ⟨_, s₇, hpublish, h⟩ := Prog.run_bind_eq_ok h
  obtain ⟨w', rfl, hlog, holder⟩ := publish_ok hpublish
  cases h
  refine ⟨tid, u, old, w', htenant, hone, hverify, hactive, htarget, rfl, hlog, ?_, ?_, ?_⟩
  · exact ⟨(Nat.le_succ _).trans holder.ticks, holder.uuid⟩
  · simp only [withPending, Tx.push, hp] at hinsert ⊢
    exact hinsert
  · simp only [withPending, Tx.push, hp]
    rfl

/-! ## Refresh -/

/-- The session rows with an identifier that this transaction sees. -/
theorem getByJti_ok {jti : Uuid} {r : Option UserSession} {s' : State}
    (h : runM env (getByJti jti) (w, tx :: txs) = (.ok r, s')) :
    scalar ((seen w tx .userSessions).filter fun r => r.jti = jti) = .ok r ∧
      s' = (w, tx :: txs) := by
  have hrun : runM env (getByJti jti) (w, tx :: txs) =
      (scalar ((seen w tx .userSessions).filter fun r => r.jti = jti), (w, tx :: txs)) :=
    runM_scalarOneOrNone _ _
  rw [hrun] at h
  exact ⟨congrArg Prod.fst h, (congrArg Prod.snd h).symm⟩

/-- A session that is revoked: one clock reading and one update. -/
theorem revokeSession_ok {session : UserSession} {s' : State}
    (h : runM env (revokeSession s session) (w, tx :: txs) = (.ok (), s')) :
    ∃ old, target schema w.db tx .userSessions [session.id] (fun _ => true) = some old ∧
      s' = (w.tick, tx.push (.update .userSessions [session.id]
        { old with revokedAt := some (env.clock w.ticks) }) :: txs) := by
  obtain ⟨t, s₁, hnow, h⟩ := Prog.run_bind_eq_ok h
  cases hnow
  exact runM_updateRow_ok h

/-- The world after the clock readings of a refresh before it issues tokens. -/
def World.rotated (w : World) : World := w.tick.tick.tick

/-- A refresh that returns: the token decodes, its one session row is active and not
expired, and its user is in scope. The row is revoked, and a new one waits for the
flush of the commit. -/
theorem refresh_ok {token : String} {tokens : TokenResponse} {s' : State}
    (h : runM env (refresh env rc s token) (w, tx :: txs) = (.ok tokens, s')) :
    ∃ p row u old, decodeIn env token "refresh" (env.clock w.ticks) = .ok p ∧
      (seen w tx .userSessions).filter (fun r => r.jti = p.jti) = [row] ∧
      row.revokedAt = none ∧ env.clock (w.ticks + 1) ≤ row.expiresAt ∧
      usersIn (seen w tx) rc (fun u => u.id = p.sub) = [u] ∧
      target schema w.db tx .userSessions [row.id] (fun _ => true) = some old ∧
      tokens = issuedTokens env w.rotated u.user.id p.tid ∧
      s' = (w.rotated.issued, withPending (tx.push (.update .userSessions [row.id]
          { old with revokedAt := some (env.clock (w.ticks + 2)) }))
        ⟨.userSessions, issuedSession env w.rotated u.user.id p.tid row.userAgent row.ipAddress⟩ ::
          txs) := by
  obtain ⟨decoded, s₁, hdecode, h⟩ := Prog.run_bind_eq_ok h
  cases decoded with
  | error m => cases congrArg Prod.fst h
  | ok p =>
    obtain ⟨hclaims, rfl⟩ := decodeToken_ok hdecode
    obtain ⟨found, s₂, hfind, h⟩ := Prog.run_bind_eq_ok h
    obtain ⟨hone, rfl⟩ := getByJti_ok hfind
    cases found with
    | none => cases congrArg Prod.fst h
    | some row =>
      dsimp only at h
      split at h
      · cases congrArg Prod.fst h
      · rename_i hactive
        obtain ⟨t, s₃, hnow, h⟩ := Prog.run_bind_eq_ok h
        cases hnow
        split at h
        · cases congrArg Prod.fst h
        · rename_i hexpiry
          obtain ⟨u, s₄, hu, h⟩ := Prog.run_bind_eq_ok h
          obtain ⟨huser, rfl⟩ := getUserOr404_ok hu
          obtain ⟨_, s₅, hrevoke, h⟩ := Prog.run_bind_eq_ok h
          obtain ⟨old, htarget, rfl⟩ := revokeSession_ok hrevoke
          cases (runM_issueTokens _ _ _ _).symm.trans h
          refine ⟨p, row, u, old, hclaims, scalar_eq_some hone, ?_, Nat.le_of_not_lt hexpiry, huser,
            htarget, rfl, rfl⟩
          simpa [UserSession.isActive] using hactive

/-! ## Logout -/

/-- What makes a logout revoke: the token decodes, and its one session row is seen
and active. -/
structure LogsOut (env : Env) (refreshToken : Option String) (now : Time) (db : Database Row)
    (row : UserSession) : Prop where
  decodes : ∃ token p, truthy refreshToken = some token ∧
    decodeIn env token "refresh" now = .ok p ∧
    (db .userSessions).filter (fun r => r.jti = p.jti) = [row]
  active : row.revokedAt = none

/-- A logout that returns revoked the session row of its token, or found nothing to
revoke and left the state still. -/
theorem logout_ok {refreshToken : Option String} {s' : State}
    (h : runM env (logout env s refreshToken) (w, tx :: txs) = (.ok (), s')) :
    (∃ row old w', LogsOut env refreshToken (env.clock w.ticks) (seen w tx) row ∧
      target schema w.db tx .userSessions [row.id] (fun _ => true) = some old ∧
      w.Still w' ∧ w.Older w' ∧ s' = (w', tx.push (.update .userSessions [row.id]
        { old with revokedAt := some (env.clock (w.ticks + 1)) }) :: txs)) ∨
    (∀ row, ¬ LogsOut env refreshToken (env.clock w.ticks) (seen w tx) row) ∧
      ∃ w', w.Still w' ∧ w.Older w' ∧ s' = (w', tx :: txs) := by
  have holder := @runM_older env _ (logout env s refreshToken) (w, tx :: txs)
  rw [h] at holder
  unfold logout at h
  cases htoken : truthy refreshToken with
  | none =>
    rw [htoken] at h
    cases h
    refine .inr ⟨fun row hrow => ?_, w, World.Still.refl w, World.Older.refl w, rfl⟩
    obtain ⟨token, p, heq, -⟩ := hrow.decodes
    rw [htoken] at heq
    cases heq
  | some token =>
    rw [htoken] at h
    obtain ⟨decoded, s₁, hdecode, h⟩ := Prog.run_bind_eq_ok h
    obtain ⟨w₁, hrun, hstill, -⟩ := (@Quiet.decodeToken env token "refresh").run w (tx :: txs)
    rw [runM_decodeToken] at hrun
    have hdecoded : decodeIn env token "refresh" (env.clock w.ticks) = decoded ∧
        s₁ = (w₁, tx :: txs) := by
      rw [runM] at hrun
      rw [hrun] at hdecode
      cases hdecode
      exact ⟨rfl, rfl⟩
    obtain ⟨hdecoded, rfl⟩ := hdecoded
    cases decoded with
    | error m =>
      cases h
      refine .inr ⟨fun row hrow => ?_, w₁, hstill, holder, rfl⟩
      obtain ⟨token', p, heq, hok, -⟩ := hrow.decodes
      rw [htoken] at heq
      cases heq
      rw [hdecoded] at hok
      cases hok
    | ok p =>
      obtain ⟨-, hs₁⟩ := decodeToken_ok hdecode
      cases hs₁
      obtain ⟨found, s₂, hfind, h⟩ := Prog.run_bind_eq_ok h
      obtain ⟨hone, rfl⟩ := getByJti_ok hfind
      have hrow : ∀ row, LogsOut env refreshToken (env.clock w.ticks) (seen w tx) row →
          found = some row ∧ row.revokedAt = none := by
        intro row hrow
        obtain ⟨token', p', heq, hok, hrows⟩ := hrow.decodes
        rw [htoken] at heq
        cases heq
        rw [hdecoded] at hok
        cases hok
        have hseen : seen w.tick tx = seen w tx := hstill.seen tx
        rw [hseen, hrows] at hone
        cases hone
        exact ⟨rfl, hrow.active⟩
      cases found with
      | none =>
        cases h
        refine .inr ⟨fun row hr => ?_, w.tick, hstill, holder, rfl⟩
        cases (hrow row hr).1
      | some row =>
        dsimp only at h
        split at h
        · rename_i hactive
          obtain ⟨old, htarget, rfl⟩ := revokeSession_ok h
          refine .inl ⟨row, old, w.tick.tick, ⟨⟨token, p, htoken, hdecoded, ?_⟩, ?_⟩, htarget,
            ⟨rfl, rfl, fun _ => rfl⟩, holder, rfl⟩
          · exact scalar_eq_some hone
          · simpa [UserSession.isActive] using hactive
        · rename_i hactive
          cases h
          refine .inr ⟨fun row' hr => ?_, w.tick, hstill, holder, rfl⟩
          obtain ⟨heq, hnone⟩ := hrow row' hr
          cases heq
          simp [UserSession.isActive, hnone] at hactive

/-! ## Password reset -/

/-- The value kept for a reset token, expired or not. -/
def storedReset (env : Env) (w : World) (token : String) : Option String :=
  if env.settings.hasRedis then
    match w.redis (.reset token) with
    | some ⟨.text value, _⟩ => some value
    | _ => none
  else (w.resetStore token).map (·.1)

theorem lookupReset_ok {token raw : String} {s' : State}
    (h : runM env (lookupReset env token) (w, txs) = (.ok (some raw), s')) :
    storedReset env w token = some raw ∧ ∃ w', s' = (w', txs) ∧ w.Still w' ∧ w.Older w' := by
  have holder := @runM_older env _ (lookupReset env token) (w, txs)
  rw [h] at holder
  unfold lookupReset at h
  unfold storedReset
  by_cases hredis : env.settings.hasRedis = true
  · rw [if_pos hredis] at h ⊢
    obtain ⟨found, s₁, hget, h⟩ := Prog.run_bind_eq_ok h
    have hfound : found = (w.redisAt (env.clock w.ticks) (.reset token)).map (·.value) ∧
        s₁ = (w, txs) := by cases hget; exact ⟨rfl, rfl⟩
    obtain ⟨hfound, rfl⟩ := hfound
    match found, hfound, h with
    | some (.text value), hfound, h =>
      cases h
      obtain ⟨e, he, hvalue⟩ := Option.map_eq_some_iff.mp hfound.symm
      have hentry := (Option.filter_eq_some_iff.mp he).1
      obtain ⟨value, expires⟩ := e
      cases hvalue
      rw [hentry]
      exact ⟨rfl, w, rfl, World.Still.refl w, holder⟩
  · rw [if_neg hredis] at h ⊢
    obtain ⟨found, s₁, hget, h⟩ := Prog.run_bind_eq_ok h
    have hfound : found = w.resetStore token ∧ s₁ = (w, txs) := by cases hget; exact ⟨rfl, rfl⟩
    obtain ⟨rfl, rfl⟩ := hfound
    cases hstored : w.resetStore token with
    | none => rw [hstored] at h; cases congrArg Prod.fst h
    | some e =>
      rw [hstored] at h
      obtain ⟨t, s₂, hnow, h⟩ := Prog.run_bind_eq_ok h
      cases hnow
      split at h
      · cases congrArg Prod.fst h
      · cases h
        exact ⟨rfl, w.tick, rfl, ⟨rfl, rfl, fun _ => rfl⟩, holder⟩

/-- The rows of `user_sessions` after the bulk revocation in a transaction. -/
def revokeLive (g : Guc) (userId : Uuid) (now : Time) (rows : List UserSession) :
    List UserSession :=
  rows.map fun r =>
    if live userId r = true ∧ policy g .userSessions r = true then { r with revokedAt := some now }
    else r

/-- A transaction after session rows were rewritten in it. -/
structure Rewrote (tx tx' : Tx) : Prop where
  guc : tx'.guc = tx.guc
  pending : tx'.pending = tx.pending
  writes : ∃ ws, tx'.writes = tx.writes ++ ws ∧ ∀ x ∈ ws, x.table = .userSessions

theorem Rewrote.refl (tx : Tx) : Rewrote tx tx :=
  ⟨rfl, rfl, [], by simp, fun _ hx => (by cases hx)⟩

theorem Rewrote.trans {tx tx' tx'' : Tx} (h : Rewrote tx tx') (h' : Rewrote tx' tx'') :
    Rewrote tx tx'' := by
  obtain ⟨ws, hws, hW⟩ := h.writes
  obtain ⟨ws', hws', hW'⟩ := h'.writes
  refine ⟨h'.guc.trans h.guc, h'.pending.trans h.pending, ws ++ ws', ?_, fun x hx => ?_⟩
  · rw [hws', hws, List.append_assoc]
  · rcases List.mem_append.mp hx with hx | hx
    · exact hW x hx
    · exact hW' x hx

theorem Rewrote.view {tx tx' : Tx} (h : Rewrote tx tx') (db : Database Row) {t : Table}
    (ht : t ≠ .userSessions) : view schema db tx' t = view schema db tx t := by
  obtain ⟨ws, hws, hW⟩ := h.writes
  rw [Mvcc.view, hws, List.foldl_append]
  exact foldl_apply_other fun x hx heq => ht (heq.symm.trans (hW x hx))

/-- One step revokes the row with this identifier, if it is still live. -/
theorem revokeRow_ok {userId : Uuid} {row : UserSession} {s' : State}
    (hids : ((view schema w.db tx .userSessions).map (·.id)).Nodup)
    (h : runM env (revokeRow s userId row) (w, tx :: txs) = (.ok (), s')) :
    ∃ tx', s' = (w, tx' :: txs) ∧ Rewrote tx tx' ∧
      view schema w.db tx' .userSessions = (view schema w.db tx .userSessions).map fun r =>
        if r.id = row.id ∧ live userId r = true ∧ policy tx.guc .userSessions r = true then
          { r with revokedAt := some s.startedAt }
        else r := by
  have hsql : runM env (sql (.update .userSessions [row.id] (live userId) fun r =>
      { r with revokedAt := some s.startedAt })) (w, tx :: txs) =
      (.ok (execTx schema w.db tx (.update .userSessions [row.id] (live userId) fun r =>
          { r with revokedAt := some s.startedAt })).1,
        (w, (execTx schema w.db tx (.update .userSessions [row.id] (live userId) fun r =>
          { r with revokedAt := some s.startedAt })).2 :: txs)) := rfl
  unfold revokeRow at h
  rw [runM_bind_ok hsql] at h
  simp only [execTx] at h
  cases htarget : target schema w.db tx .userSessions [row.id] (live userId) with
  | none =>
    rw [htarget] at h
    cases h
    refine ⟨tx, rfl, Rewrote.refl tx, ?_⟩
    have hnone : ∀ r ∈ view schema w.db tx .userSessions,
        ¬(r.id = row.id ∧ live userId r = true ∧ policy tx.guc .userSessions r = true) := by
      rintro r hr ⟨hid, hlive, hpol⟩
      have hfind := List.find?_eq_none.mp htarget r (mem_visible.mpr ⟨hr, hpol⟩)
      simp [schema, keyOf, hid, hlive] at hfind
    symm
    calc (view schema w.db tx .userSessions).map _
        = (view schema w.db tx .userSessions).map id :=
          List.map_congr_left fun r hr => if_neg (hnone r hr)
      _ = view schema w.db tx .userSessions := List.map_id _
  | some old =>
    rw [htarget] at h
    dsimp only at h
    cases herr : updateError schema w.db tx .userSessions old
        (schema.coerce .userSessions { old with revokedAt := some s.startedAt }) with
    | some e => rw [herr] at h; cases congrArg Prod.fst h
    | none =>
      rw [herr] at h
      cases h
      refine ⟨_, rfl, ⟨rfl, rfl, _, rfl, fun x hx => by rw [List.mem_singleton.mp hx]; rfl⟩, ?_⟩
      obtain ⟨hold, hpol, hkey, hlive⟩ := target_some htarget
      have hid : old.id = row.id := List.singleton_injective hkey
      refine (congrFun (view_push schema w.db tx _) .userSessions).trans ?_
      simp only [Write.apply, Function.update_self]
      refine List.map_congr_left fun r hr => ?_
      by_cases hr' : r.id = row.id
      · obtain rfl := List.inj_on_of_nodup_map hids hr hold (hr'.trans hid.symm)
        rw [if_pos hkey, if_pos ⟨hid, hlive, hpol⟩]
        rfl
      · have hne : schema.key .userSessions r ≠ [row.id] :=
          fun hk => hr' (List.singleton_injective hk)
        rw [if_neg hne, if_neg fun hk => hr' hk.1]

/-- The steps over some rows revoke the live rows among them. -/
theorem revokeRows_ok {userId : Uuid} (rows : List UserSession) :
    ∀ {tx : Tx} {s' : State}, ((view schema w.db tx .userSessions).map (·.id)).Nodup →
      runM env (Prog.forEach rows (revokeRow s userId)) (w, tx :: txs) = (.ok (), s') →
      ∃ tx', s' = (w, tx' :: txs) ∧ Rewrote tx tx' ∧
        view schema w.db tx' .userSessions = (view schema w.db tx .userSessions).map fun r =>
          if (∃ row ∈ rows, r.id = row.id) ∧ live userId r = true ∧
              policy tx.guc .userSessions r = true then
            { r with revokedAt := some s.startedAt }
          else r := by
  induction rows with
  | nil =>
    intro tx s' _ h
    cases h
    refine ⟨tx, rfl, Rewrote.refl tx, ?_⟩
    simp
  | cons row rows ih =>
    intro tx s' hids h
    obtain ⟨_, s₁, hrow, h⟩ := Prog.run_bind_eq_ok h
    obtain ⟨tx₁, rfl, hw₁, hview₁⟩ := revokeRow_ok hids hrow
    have hids₁ : ((view schema w.db tx₁ .userSessions).map (·.id)).Nodup := by
      rw [hview₁, List.map_map]
      refine (congrArg List.Nodup (List.map_congr_left fun r _ => ?_)).mpr hids
      simp only [Function.comp_apply]
      split <;> rfl
    obtain ⟨tx₂, rfl, hw₂, hview₂⟩ := ih hids₁ h
    refine ⟨tx₂, rfl, hw₁.trans hw₂, ?_⟩
    rw [hview₂, hview₁, List.map_map, hw₁.guc]
    refine List.map_congr_left fun r _ => ?_
    simp only [Function.comp_apply, List.exists_mem_cons_iff]
    by_cases hhit : r.id = row.id ∧ live userId r = true ∧ policy tx.guc .userSessions r = true
    · -- the first step revokes the row, after which it is no longer live
      rw [if_pos hhit]
      simp [hhit.1, hhit.2.1, hhit.2.2]
    · rw [if_neg hhit]
      refine if_congr ?_ rfl rfl
      constructor
      · exact fun h => ⟨.inr h.1, h.2⟩
      · rintro ⟨hid | hmem, h⟩
        · exact (hhit ⟨hid, h⟩).elim
        · exact ⟨hmem, h⟩

/-- The bulk revocation revokes the live rows that its transaction sees. -/
theorem revokeAllForUser_ok {userId : Uuid} {s' : State}
    (hids : ((view schema w.db tx .userSessions).map (·.id)).Nodup)
    (h : runM env (revokeAllForUser s userId) (w, tx :: txs) = (.ok (), s')) :
    ∃ tx', s' = (w, tx' :: txs) ∧ Rewrote tx tx' ∧
      view schema w.db tx' .userSessions =
        revokeLive tx.guc userId s.startedAt (view schema w.db tx .userSessions) := by
  obtain ⟨rows, s₁, hquery, h⟩ := Prog.run_bind_eq_ok h
  cases hquery
  obtain ⟨tx', rfl, hw, hview⟩ := revokeRows_ok _ hids h
  refine ⟨tx', rfl, hw, hview.trans (List.map_congr_left fun r hr => ?_)⟩
  refine if_congr ⟨fun h => h.2, fun h => ⟨⟨r, ?_, rfl⟩, h⟩⟩ rfl rfl
  exact List.mem_filter.mpr ⟨mem_visible.mpr ⟨hr, h.2⟩, h.1⟩

theorem uuidOf_ok {text : String} {u : Uuid} {s₀ s' : State}
    (h : runM env (uuidOf text) s₀ = (.ok u, s')) : parseUuid text = some u ∧ s' = s₀ := by
  unfold uuidOf at h
  cases hu : parseUuid text with
  | none => rw [hu] at h; cases congrArg Prod.fst h
  | some v => rw [hu] at h; cases h; exact ⟨rfl, rfl⟩

/-- The account that a reset token stands for. -/
def resetUser (raw : String) : Option Uuid := parseUuid (resetParts raw).2

/-- A reset that returns: the token stands for an account in scope; its password is
replaced and its live sessions are revoked. -/
theorem resetPassword_ok {token newPassword : String} {s' : State}
    (hids : ((view schema w.db tx .userSessions).map (·.id)).Nodup)
    (h : runM env (resetPassword env rc s token newPassword) (w, tx :: txs) = (.ok (), s')) :
    ∃ raw tid u old d w' tx', storedReset env w token = some raw ∧ rc.tenantId = some tid ∧
      resetUser raw = some u.user.id ∧
      usersIn (seen w tx) rc (fun v => v.id = u.user.id) = [u] ∧
      target schema w.db tx .users [u.user.id] (fun _ => true) = some old ∧
      w'.db = w.db ∧ w.Older w' ∧ s' = (w', tx' :: txs) ∧
      Rewrote (tx.push (.update .users [u.user.id]
        { old with hashedPassword := env.hash d newPassword, updatedAt := s.startedAt })) tx' ∧
      view schema w.db tx' .userSessions =
        revokeLive tx.guc u.user.id s.startedAt (view schema w.db tx .userSessions) := by
  have holder := @runM_older env _ (resetPassword env rc s token newPassword) (w, tx :: txs)
  rw [h] at holder
  obtain ⟨found, s₁, hlookup, h⟩ := Prog.run_bind_eq_ok h
  cases hraw : truthy found with
  | none => rw [hraw] at h; cases congrArg Prod.fst h
  | some raw =>
    rw [hraw] at h
    have hfound : found = some raw := by
      unfold truthy at hraw
      exact (Option.filter_eq_some_iff.mp hraw).1
    rw [hfound] at hlookup
    obtain ⟨hstored, w₁, rfl, hstill₁, -⟩ := lookupReset_ok hlookup
    obtain ⟨tid, s₂, htid, h⟩ := Prog.run_bind_eq_ok h
    obtain ⟨-, rfl⟩ := uuidOf_ok htid
    obtain ⟨tid', s₃, htenant, h⟩ := Prog.run_bind_eq_ok h
    obtain ⟨hrc, rfl⟩ := requireTenantId_ok htenant
    split at h
    · cases congrArg Prod.fst h
    · obtain ⟨uid, s₄, huid, h⟩ := Prog.run_bind_eq_ok h
      obtain ⟨hparsed, rfl⟩ := uuidOf_ok huid
      obtain ⟨r, s₅, hfind, hrest⟩ := Prog.run_bind_eq_ok h
      obtain ⟨hone, rfl⟩ := findUser_ok hfind
      cases r with
      | none => cases congrArg Prod.fst hrest
      | some u =>
        have hone := scalar_eq_some hone
        have hid : u.user.id = uid := of_decide_eq_true (mem_usersIn (hone ▸ List.mem_singleton_self u)).2.2
        subst hid
        obtain ⟨hashed, s₆, hhash, h⟩ := Prog.run_bind_eq_ok hrest
        obtain ⟨rfl, rfl⟩ := runM_hashPassword_ok hhash
        obtain ⟨_, s₇, hupdate, h⟩ := Prog.run_bind_eq_ok h
        obtain ⟨old, htarget, rfl⟩ := runM_updateRow_ok hupdate
        obtain ⟨_, s₈, hrevoke, h⟩ := Prog.run_bind_eq_ok h
        have hview : view schema w₁.db (tx.push (.update .users [u.user.id] (schema.coerce .users
            (touch s.startedAt .users { old with hashedPassword := env.hash w₁.draws newPassword }))))
            .userSessions = view schema w.db tx .userSessions := by
          rw [view_push, hstill₁.db]
          exact Write.apply_other (by simp [Write.table])
        obtain ⟨tx', rfl, hrewrote, hview'⟩ := revokeAllForUser_ok (hview.symm ▸ hids) hrevoke
        rw [hstill₁.seen] at hone
        have hdelete : ∃ w', s' = (w', tx' :: txs) ∧ w'.db = w.db := by
          unfold deleteReset at h
          split at h
          · cases h; exact ⟨_, rfl, hstill₁.db⟩
          · cases h; exact ⟨_, rfl, hstill₁.db⟩
        obtain ⟨w', rfl, hdb⟩ := hdelete
        rw [hstill₁.db] at htarget
        refine ⟨raw, tid', u, old, w₁.draws, w', tx', hstored, hrc, hparsed, hone, htarget, hdb,
          holder, rfl, hrewrote, ?_⟩
        refine Eq.trans ?_ (hview'.trans (congrArg _ hview))
        rw [hstill₁.db]

/-! ## Registration -/

/-- The `user_roles` rows of a user with some roles. -/
def roleRows (userId : Uuid) (roles : List LoadedRole) : List (AnyRow Row) :=
  roles.map fun r => ⟨.userRoles, (⟨userId, r.role.id⟩ : UserRole)⟩

theorem addUser_ok {user : User} {roles : List LoadedRole} {s' : State}
    (h : runM env (addUser user roles) (w, tx :: txs) = (.ok (), s')) :
    s' = (w, ⟨tx.guc, tx.writes, tx.pending ++ ⟨.users, user⟩ :: roleRows user.id roles⟩ :: txs) := by
  have hroles : ∀ (roles : List LoadedRole) (tx : Tx) (s' : State),
      runM env (Prog.forEach roles fun r => add .userRoles ⟨user.id, r.role.id⟩) (w, tx :: txs) =
        (.ok (), s') →
      s' = (w, ⟨tx.guc, tx.writes, tx.pending ++ roleRows user.id roles⟩ :: txs) := by
    intro roles
    induction roles with
    | nil =>
      intro tx s' h
      cases h
      simp [roleRows]
    | cons r roles ih =>
      intro tx s' h
      rw [ih _ s' h]
      simp [roleRows, execTx]
  rw [hroles roles _ s' h]
  simp [execTx]

/-- The roles with this code that a context sees. -/
def rolesByCodeIn (db : Database Row) (rc : RequestContext) (code : String) : List LoadedRole :=
  loadRolesIn db ((db .roles).filter fun r => inScope rc .roles r && decide (r.code = code))

/-- A registration that returns: a new account of the context's tenant, with the
student role where the tenant has one. -/
theorem register_ok {data : RegisterRequest} {out : LoadedUser} {s' : State}
    (hp : tx.pending = [])
    (h : runM env (register env rc s data) (w, tx :: txs) = (.ok out, s')) :
    ∃ tid w' tx', rc.tenantId = some tid ∧ out.user.id = w.nextUuid ∧ out.user.tenantId = tid ∧
      out.user.isSuperuser = false ∧ out.roles = rolesByCodeIn (seen w tx) rc "student" ∧
      policy tx.guc .users out.user = true ∧ w.Logged w' ∧ w.nextUuid < w'.nextUuid ∧
      s' = (w', tx' :: txs) ∧ tx'.pending = [] ∧
      tx'.writes = tx.writes ++ inserting ⟨.users, out.user⟩ ::
        (roleRows out.user.id out.roles).map inserting ∧
      out.user.deletedAt = none := by
  obtain ⟨tid, s₁, htid, h⟩ := Prog.run_bind_eq_ok h
  obtain ⟨htenant, rfl⟩ := requireTenantId_ok htid
  obtain ⟨found, s₂, hfind, h⟩ := Prog.run_bind_eq_ok h
  obtain ⟨-, rfl⟩ := findUser_ok hfind
  cases found with
  | some _ => cases congrArg Prod.fst h
  | none =>
    obtain ⟨student, s₃, hstudent, h⟩ := Prog.run_bind_eq_ok h
    have hrole : runM env (getRoleByCode rc "student") (w, tx :: txs) =
        (scalar (rolesByCodeIn (seen w tx) rc "student"), (w, tx :: txs)) :=
      runM_scalarOneOrNone _ _
    obtain rfl : (w, tx :: txs) = s₃ := congrArg Prod.snd (hrole.symm.trans hstudent)
    have hroles := scalar_toList (congrArg Prod.fst (hrole.symm.trans hstudent))
    obtain ⟨hashed, s₄, hhash, h⟩ := Prog.run_bind_eq_ok h
    obtain ⟨-, rfl⟩ := runM_hashPassword_ok hhash
    obtain ⟨id, s₅, hid, h⟩ := Prog.run_bind_eq_ok h
    cases (runM_uuid4 _ _).symm.trans hid
    obtain ⟨_, s₆, hadd, h⟩ := Prog.run_bind_eq_ok h
    obtain rfl := addUser_ok hadd
    obtain ⟨_, s₇, hflush, h⟩ := Prog.run_bind_eq_ok h
    have hinserted := insertError_none (runM_flush_first (congrArg (· ++ _) hp) hflush)
    obtain rfl := runM_flush_ok hflush
    obtain ⟨_, s₈, hpublish, h⟩ := Prog.run_bind_eq_ok h
    obtain ⟨w', rfl, hlog, holder⟩ := publish_ok hpublish
    cases h
    refine ⟨tid, w', _, htenant, rfl, rfl, rfl, hroles, hinserted.1, hlog, holder.uuid, rfl, rfl,
      ?_, rfl⟩
    simp [hp]

/-! ## Runs that raise -/

namespace Works

theorem register {data : RegisterRequest} :
    Works env [.users, .userRoles] (register env rc s data) := by
  refine (of_quiet Quiet.requireTenantId).bind fun tid => ?_
  refine (of_quiet Quiet.findUser).bind fun u => ?_
  cases u with
  | some _ => exact raise _
  | none =>
    refine bind (of_quiet ?_) fun student => ?_
    · exact Quiet.query.bind fun _ => (Quiet.join.bind fun _ => Quiet.pure _).bind fun _ =>
        Quiet.scalarOneOrNone
    · refine bind (of_quiet (Quiet.draw.bind fun _ => Quiet.pure _)) fun hashed => ?_
      refine (of_quiet Quiet.uuid4).bind fun id => ?_
      refine bind ?_ fun _ => flush.bind fun _ => publish.bind fun _ => pure _
      exact (add (by simp)).bind fun _ => forEach fun _ => add (by simp)

theorem issueTokens {W : List Table} {userId tenantId : Uuid} {userAgent ip : Option String}
    (hW : .userSessions ∈ W) : Works env W (issueTokens env userId tenantId userAgent ip) := by
  have hencode : ∀ {type : String} {ttl : Nat} {jti : Uuid},
      Works env W (encode env userId tenantId type ttl jti) :=
    (of_quiet Quiet.now).bind fun _ => pure _
  refine bind ?_ fun r => ?_
  · exact (of_quiet Quiet.uuid4).bind fun _ => hencode.bind fun _ => pure _
  · refine (of_quiet Quiet.now).bind fun _ => (of_quiet Quiet.uuid4).bind fun _ => ?_
    refine (add hW).bind fun _ => bind ?_ fun _ => pure _
    exact (of_quiet Quiet.uuid4).bind fun _ => hencode

theorem login {data : LoginRequest} {userAgent ip : Option String} :
    Works env [.users, .userSessions] (login env rc s data userAgent ip) := by
  refine (of_quiet Quiet.requireTenantId).bind fun tid => ?_
  refine bind (of_quiet ?_) fun user => ?_
  · refine Quiet.findUser.bind fun u => ?_
    cases u with
    | none => exact Quiet.raise _
    | some u =>
      dsimp only
      split
      · split
        · exact Quiet.pure _
        · exact Quiet.raise _
      · exact Quiet.raise _
  · refine (issueTokens (by simp)).bind fun tokens => (of_quiet Quiet.now).bind fun _ => ?_
    exact (updateRow (by simp)).bind fun _ => flush.bind fun _ => publish.bind fun _ => pure _

theorem revokeSession {session : UserSession} :
    Works env [.userSessions] (revokeSession s session) :=
  (of_quiet Quiet.now).bind fun _ => updateRow (by simp)

theorem refresh {token : String} : Works env [.userSessions] (refresh env rc s token) := by
  refine (of_quiet Quiet.decodeToken).bind fun r => ?_
  cases r with
  | error m => exact raise _
  | ok payload =>
    refine bind (of_quiet (Quiet.query.bind fun _ => Quiet.scalarOneOrNone)) fun session => ?_
    cases session with
    | none => exact raise _
    | some session =>
      dsimp only
      split
      · exact raise _
      · refine (of_quiet Quiet.now).bind fun _ => ?_
        split
        · exact raise _
        · refine bind (of_quiet (Quiet.findUser.bind fun u => ?_)) fun user =>
            revokeSession.bind fun _ => issueTokens (by simp)
          cases u with
          | none => exact Quiet.raise _
          | some u => exact Quiet.pure _

theorem logout {token : Option String} : Works env [.userSessions] (logout env s token) := by
  unfold LmsBackend.logout
  split
  · exact pure _
  · refine (of_quiet Quiet.decodeToken).bind fun r => ?_
    cases r with
    | error m => exact pure _
    | ok payload =>
      refine bind (of_quiet (Quiet.query.bind fun _ => Quiet.scalarOneOrNone)) fun session => ?_
      cases session with
      | none => exact pure _
      | some session =>
        dsimp only
        split
        · exact revokeSession
        · exact pure _

theorem forgotPassword {email : String} : Works env [] (forgotPassword env rc email) := by
  refine (of_quiet Quiet.requireTenantId).bind fun tid => ?_
  refine (of_quiet Quiet.findUser).bind fun u => ?_
  cases u with
  | none => exact pure _
  | some u =>
    refine (of_quiet Quiet.draw).bind fun i => ?_
    dsimp only
    split
    · exact (perform trivial).bind fun _ => pure _
    · exact (of_quiet Quiet.now).bind fun _ => (perform trivial).bind fun _ => pure _

theorem resetPassword {token newPassword : String} :
    Works env [.users, .userSessions] (resetPassword env rc s token newPassword) := by
  have hlookup : Works env [.users, .userSessions] (lookupReset env token) := by
    unfold lookupReset getReset
    split
    · refine (of_quiet (@Quiet.perform _ (.redisGet _) trivial)).bind fun r => ?_
      split
      · exact pure _
      · exact pure _
    · refine (of_quiet (@Quiet.perform _ (.resetGet _) trivial)).bind fun r => ?_
      cases r with
      | none => exact pure _
      | some e =>
        refine (of_quiet Quiet.now).bind fun _ => ?_
        split
        · exact (perform trivial).bind fun _ => pure _
        · exact pure _
  have huuid : ∀ text, Works env [.users, .userSessions] (uuidOf text) := by
    intro text
    unfold uuidOf
    split
    · exact pure _
    · exact raise _
  have hrow : ∀ uid row, Works env [.users, .userSessions] (revokeRow s uid row) := by
    intro uid row
    refine (sqlUpdate (by simp)).bind fun r => ?_
    cases r with
    | ok _ => exact pure _
    | error _ => exact raise _
  have hdelete : Works env [.users, .userSessions] (deleteReset env token) := by
    unfold deleteReset
    split
    · exact perform trivial
    · exact perform trivial
  refine hlookup.bind fun found => ?_
  split
  · exact raise _
  · refine (huuid _).bind fun tid => (of_quiet Quiet.requireTenantId).bind fun tid' => ?_
    split
    · exact raise _
    · refine (huuid _).bind fun uid => (of_quiet Quiet.findUser).bind fun u => ?_
      cases u with
      | none => exact raise _
      | some u =>
        refine bind (of_quiet (Quiet.draw.bind fun _ => Quiet.pure _)) fun hashed => ?_
        refine (updateRow (by simp)).bind fun _ => bind ?_ fun _ => hdelete
        exact (of_quiet Quiet.query).bind fun rows => forEach fun row => hrow _ row

end Works

end LmsBackend
