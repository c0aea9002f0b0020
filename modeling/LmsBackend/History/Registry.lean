import LmsBackend.History.Accounts

/-!
# Identifiers over runs

Every identifier of an account, of a session row and of a role assignment's account was
drawn before, and a request draws the next ones.

- `SessionsStep`: a request revokes session rows, and adds at most one.
- `Registry`: the identifiers of accounts and session rows are unique, and those of accounts,
  session rows and assignments were drawn. `Run.registry`: it holds over every run.
-/

namespace LmsBackend

open Mvcc

variable {env : Env} {w w' w₀ : World} {req : Request} {h : List Exchange}
  {Ok : List Exchange → World → Request → Prop}

/-! ## What a request does to the sessions -/

/-- The same session row, perhaps revoked. -/
def SameSession (r v : UserSession) : Prop := v = r ∨ ∃ t, v = { r with revokedAt := some t }

theorem SameSession.id {r v : UserSession} (h : SameSession r v) : v.id = r.id := by
  rcases h with rfl | ⟨t, rfl⟩ <;> rfl

theorem SameSession.jti {r v : UserSession} (h : SameSession r v) : v.jti = r.jti := by
  rcases h with rfl | ⟨t, rfl⟩ <;> rfl

/-- Some session rows are revoked, and at most one is added. -/
structure SessionsStep (w w' : World) (f : UserSession → UserSession) (new : Option UserSession) :
    Prop where
  rows : w'.db .userSessions = (w.db .userSessions).map f ++ new.toList
  same : ∀ r ∈ w.db .userSessions, SameSession r (f r)
  id : ∀ r ∈ new, w.nextUuid ≤ r.id ∧ r.id < w'.nextUuid
  jti : ∀ r ∈ new, w.nextUuid ≤ r.jti ∧ r.jti < w'.nextUuid

/-- A request that does not touch the sessions. -/
theorem SessionsStep.refl (h : w'.db .userSessions = w.db .userSessions) :
    SessionsStep w w' (fun r => r) none := by
  refine ⟨?_, fun r _ => .inl rfl, by simp, by simp⟩
  rw [h, List.map_id', Option.toList_none, List.append_nil]

/-- The replacement of one row by its revoked version. -/
theorem sameSession_replace {rows : List UserSession} (hids : (rows.map (·.id)).Nodup)
    {old : UserSession} (hold : old ∈ rows) (t : Time) {r : UserSession} (hr : r ∈ rows) :
    SameSession r (if r.id = old.id then { old with revokedAt := some t } else r) := by
  by_cases hid : r.id = old.id
  · rw [if_pos hid, List.inj_on_of_nodup_map hids hr hold hid]
    exact .inr ⟨t, rfl⟩
  · rw [if_neg hid]
    exact .inl rfl

/-- A request to one of the routes that write `user_sessions` leaves every table but the
audit log alone when it fails. -/
theorem serve_sessions_error {e : Err} (ht : .userSessions ∈ req.endpoint.writes)
    (hs : serve env w req = (.error e, w')) : w.Logged w' := by
  obtain ⟨headers, client, endpoint, valid⟩ := req
  cases endpoint with
  | login data => exact serve_users_error (by simp [Endpoint.writes]) hs
  | resetPassword token newPassword => exact serve_users_error (by simp [Endpoint.writes]) hs
  | refresh token =>
    refine @serve_error env w w' ⟨headers, client, .refresh token, valid⟩ e [.userSessions] trivial
      (fun rc s caller hknown => ?_) hs
    obtain ⟨w₁, hadm⟩ := hknown
    cases hadm.no_caller rfl
    exact Works.refresh.bind fun _ => Works.pure _
  | logout refreshToken =>
    refine @serve_error env w w' ⟨headers, client, .logout refreshToken, valid⟩ e [.userSessions]
      trivial (fun rc s caller hknown => ?_) hs
    obtain ⟨w₁, hadm⟩ := hknown
    cases hadm.no_caller rfl
    exact Works.logout.bind fun _ => Works.pure _
  | _ => simp [Endpoint.writes] at ht

/-- **Sessions**: a request revokes session rows, and adds at most one. -/
theorem serve_sessions (w : World) (req : Request)
    (hids : ((w.db .userSessions).map (·.id)).Nodup) :
    ∃ f new, SessionsStep w (serve env w req).2 f new := by
  rcases hs : serve env w req with ⟨r, w'⟩
  by_cases ht : .userSessions ∈ req.endpoint.writes
  · cases r with
    | error e => exact ⟨_, _, .refl (serve_sessions_error ht hs .userSessions (by decide))⟩
    | ok body =>
      obtain ⟨headers, client, endpoint, valid⟩ := req
      cases endpoint with
      | login data =>
        obtain ⟨w₁, u, hlogin⟩ := serve_login rfl hs
        obtain ⟨userAgent, ip, hrows, -⟩ := hlogin.sessions
        have hbefore := hlogin.before.uuid
        have hafter : w₁.nextUuid + 3 ≤ w'.nextUuid := hlogin.after.uuid
        refine ⟨fun r => r, some (issuedSession env w₁ u.id u.tenantId userAgent ip), ?_,
          fun r _ => .inl rfl, ?_, ?_⟩
        · rw [hrows, List.map_id', Option.toList_some]
        · rintro r ⟨⟩
          exact ⟨hbefore.trans (Nat.le_succ _), (Nat.lt_of_lt_of_le (by simp [issuedSession]) hafter)⟩
        · rintro r ⟨⟩
          exact ⟨hbefore, (Nat.lt_of_lt_of_le (by simp [issuedSession]) hafter)⟩
      | refresh token =>
        obtain ⟨w₁, p, row, u, hrefresh⟩ := serve_refresh rfl hs
        obtain hsame | ⟨old, hold, hid, hrows⟩ := hrefresh.stored
        · exact ⟨_, _, .refl hsame⟩
        · have hbefore := hrefresh.before.uuid
          have hafter : w₁.nextUuid + 3 ≤ w'.nextUuid := hrefresh.after.uuid
          rw [← hid] at hrows
          refine ⟨_, some _, hrows, fun r hr => sameSession_replace hids hold _ hr, ?_, ?_⟩
          · rintro r ⟨⟩
            exact ⟨hbefore.trans (Nat.le_succ _),
              (Nat.lt_of_lt_of_le (by simp [issuedSession, World.rotated, World.tick]) hafter)⟩
          · rintro r ⟨⟩
            exact ⟨hbefore,
              (Nat.lt_of_lt_of_le (by simp [issuedSession, World.rotated, World.tick]) hafter)⟩
      | logout refreshToken =>
        obtain ⟨rc, w₁, -, -, -, -, ⟨row, old, t, -, hold, hid, hrows⟩ | ⟨-, hsame⟩⟩ :=
          serve_logout rfl hs
        · rw [← hid] at hrows
          refine ⟨_, none, ?_, fun r hr => sameSession_replace hids hold t hr, by simp, by simp⟩
          rw [hrows, Option.toList_none, List.append_nil]
          rfl
        · exact ⟨_, _, .refl hsame⟩
      | resetPassword token newPassword =>
        obtain ⟨raw, u, t, g, -, -, -, -, -, -, -, -, hrows⟩ := serve_resetPassword hids rfl hs
        refine ⟨fun r => if live u.id r = true ∧ policy g .userSessions r = true then
          { r with revokedAt := some t } else r, none, ?_, fun r _ => ?_, by simp, by simp⟩
        · rw [hrows, Option.toList_none, List.append_nil]
          rfl
        · split
          · exact .inr ⟨t, rfl⟩
          · exact .inl rfl
      | _ => simp [Endpoint.writes] at ht
  · have hsame := serve_frame env w req ht
    rw [hs] at hsame
    exact ⟨_, _, .refl hsame⟩

/-! ## Identifiers -/

/-- What was drawn is unique and lies behind. -/
structure Registry (w : World) : Prop where
  accounts : Accounts w
  sessionIds : ((w.db .userSessions).map (·.id)).Nodup
  sessions : ∀ r ∈ w.db .userSessions, r.id < w.nextUuid ∧ r.jti < w.nextUuid
  assigned : ∀ ur ∈ w.db .userRoles, ur.userId < w.nextUuid

/-- Every row after the step is one of before, perhaps revoked, or the new one. -/
theorem SessionsStep.came {f : UserSession → UserSession} {new : Option UserSession}
    (h : SessionsStep w w' f new) {v : UserSession} (hv : v ∈ w'.db .userSessions) :
    (∃ r ∈ w.db .userSessions, v = f r) ∨ v ∈ new := by
  rw [h.rows] at hv
  rcases List.mem_append.mp hv with hv | hv
  · obtain ⟨r, hr, rfl⟩ := List.mem_map.mp hv
    exact .inl ⟨r, hr, rfl⟩
  · exact .inr (Option.mem_toList.mp hv)

theorem SessionsStep.drawn {f : UserSession → UserSession} {new : Option UserSession}
    (h : SessionsStep w w' f new) (holder : w.Older w')
    (hdrawn : ∀ r ∈ w.db .userSessions, r.id < w.nextUuid ∧ r.jti < w.nextUuid) :
    ∀ r ∈ w'.db .userSessions, r.id < w'.nextUuid ∧ r.jti < w'.nextUuid := by
  intro v hv
  obtain ⟨r, hr, rfl⟩ | hnew := h.came hv
  · rw [(h.same r hr).id, (h.same r hr).jti]
    exact ⟨(hdrawn r hr).1.trans_le holder.uuid, (hdrawn r hr).2.trans_le holder.uuid⟩
  · exact ⟨(h.id v hnew).2, (h.jti v hnew).2⟩

theorem SessionsStep.ids {f : UserSession → UserSession} {new : Option UserSession}
    (h : SessionsStep w w' f new) (hids : ((w.db .userSessions).map (·.id)).Nodup)
    (hdrawn : ∀ r ∈ w.db .userSessions, r.id < w.nextUuid ∧ r.jti < w.nextUuid) :
    ((w'.db .userSessions).map (·.id)).Nodup := by
  have hkept : ((w.db .userSessions).map f).map (·.id) = (w.db .userSessions).map (·.id) := by
    rw [List.map_map]
    exact List.map_congr_left fun r hr => (h.same r hr).id
  rw [h.rows, List.map_append, hkept, List.nodup_append]
  refine ⟨hids, ?_, ?_⟩
  · cases new with
    | none => exact List.nodup_nil
    | some r => exact List.nodup_singleton _
  · rintro id hid id' hid' rfl
    obtain ⟨r, hr, rfl⟩ := List.mem_map.mp hid
    obtain ⟨v, hv, heq⟩ := List.mem_map.mp hid'
    have hfresh := (h.id v (Option.mem_toList.mp hv)).1
    exact Nat.not_lt_of_le hfresh (heq ▸ (hdrawn r hr).1)

/-- The roles that a request assigns go to accounts that were drawn. -/
theorem serve_assigned (w : World) (req : Request) (ha : Accounts w)
    (hassigned : ∀ ur ∈ w.db .userRoles, ur.userId < w.nextUuid) :
    ∀ ur ∈ (serve env w req).2.db .userRoles, ur.userId < (serve env w req).2.nextUuid := by
  have holder := @serve_older env w req
  have hkept : ∀ ur ∈ w.db .userRoles, ur.userId < (serve env w req).2.nextUuid :=
    fun ur hur => (hassigned ur hur).trans_le holder.uuid
  rcases hs : serve env w req with ⟨r, w'⟩
  rw [hs] at hkept holder
  by_cases ht : .userRoles ∈ req.endpoint.writes
  · cases r with
    | error e =>
      have husers : .users ∈ req.endpoint.writes := by
        obtain ⟨headers, client, endpoint, valid⟩ := req
        cases endpoint <;> simp [Endpoint.writes] at ht ⊢
      have hsame := serve_users_error husers hs .userRoles (by decide)
      intro ur hur
      exact hkept ur (hsame ▸ hur)
    | ok body =>
      have hnew : ∀ {userId : Uuid} {roles : List LoadedRole}, userId < w'.nextUuid →
          ∀ ur ∈ assigned userId roles, ur.userId < w'.nextUuid := by
        intro userId roles hid ur hur
        obtain ⟨r, -, rfl⟩ := List.mem_map.mp hur
        exact hid
      obtain ⟨headers, client, endpoint, valid⟩ := req
      intro ur hur
      cases endpoint with
      | register data =>
        obtain ⟨rc, tid, out, -, -, -, hjoined, -, -, hroles, -⟩ := serve_register rfl hs
        rw [hroles] at hur
        rcases List.mem_append.mp hur with hur | hur
        · exact hkept ur hur
        · exact hnew hjoined.id ur hur
      | createUser data =>
        obtain ⟨rc, c, s, w₁, u, -, hjoined, hroles, -⟩ := serve_createUser rfl hs
        rw [hroles] at hur
        rcases List.mem_append.mp hur with hur | hur
        · exact hkept ur hur
        · exact hnew hjoined.id ur hur
      | updateUser userId data =>
        obtain ⟨rc, c, s, w₁, u, -, hone, -, hroles⟩ := serve_updateUser rfl hs
        obtain ⟨hmem, -, -, hid⟩ := usersIn_request hone
        have hid : u.user.id = userId := of_decide_eq_true hid
        rw [hroles] at hur
        rcases List.mem_append.mp hur with hur | hur
        · exact hkept ur (List.mem_filter.mp hur).1
        · refine hnew ?_ ur hur
          rw [← hid]
          exact (ha.drawn u.user hmem).trans_le holder.uuid
      | _ => simp [Endpoint.writes] at ht
  · have hsame := serve_frame env w req ht
    rw [hs] at hsame
    intro ur hur
    exact hkept ur (hsame ▸ hur)

/-- **One request** keeps the registry. -/
theorem Registry.serve (hl : Registry w) (req : Request) : Registry (serve env w req).2 := by
  have holder := @serve_older env w req
  obtain ⟨f, new, hstep⟩ := @serve_sessions env w req hl.sessionIds
  exact ⟨(@serve_users env w req hl.sessionIds).accounts holder hl.accounts,
    hstep.ids hl.sessionIds hl.sessions, hstep.drawn holder hl.sessions,
    serve_assigned w req hl.accounts hl.assigned⟩

/-- **Every run** keeps the registry. -/
theorem Run.registry (hr : Run env Ok w₀ h w) (hl : Registry w₀) : Registry w := by
  induction hr with
  | start => exact hl
  | serve req run ok ih => exact ih.serve req

/-- A table that no route writes is what it was. -/
theorem Run.frame {t : Table} (hr : Run env Ok w₀ h w)
    (ht : ∀ req : Request, t ∉ req.endpoint.writes) : w.db t = w₀.db t := by
  induction hr with
  | start => rfl
  | serve req run ok ih => exact (serve_frame env _ req (ht req)).trans ih

end LmsBackend
