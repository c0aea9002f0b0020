import LmsBackend.Effects.Exchanges

/-!
# Accounts over runs

- `Run.before`: the state in which an exchange of a history took place.
- `Issues`, `PresentsIssued`: the claims that an answer carries, and that a request
  presents no other claims than issued ones.
- `UsersStep`: the three things a request can do to `users`. Accounts are never
  removed, and keep their identifier, tenant and flags.
-/

namespace LmsBackend

open Mvcc

variable {env : Env} {w w' w₀ : World} {req : Request} {h : List Exchange}
  {Ok : List Exchange → World → Request → Prop}

/-! ## Histories -/

/-- The newest exchange of a run. -/
theorem Run.last {e : Exchange} (hr : Run env Ok w₀ (e :: h) w) :
    Run env Ok w₀ h e.pre ∧ Ok h e.pre e.req ∧ e = exchange env e.pre e.req ∧ w = e.post := by
  cases hr with
  | serve req run ok => exact ⟨run, ok, rfl, rfl⟩

/-- Any exchange of a run, and the run before it. -/
theorem Run.before {after before : List Exchange} {e : Exchange}
    (hr : Run env Ok w₀ (after ++ e :: before) w) :
    Run env Ok w₀ before e.pre ∧ Ok before e.pre e.req ∧ e = exchange env e.pre e.req := by
  induction after generalizing w with
  | nil =>
    obtain ⟨hrun, hok, he, -⟩ := hr.last
    exact ⟨hrun, hok, he⟩
  | cons e' after ih => exact ih hr.last.1

theorem Run.mono {Ok' : List Exchange → World → Request → Prop} (hr : Run env Ok w₀ h w)
    (hok : ∀ h w req, Ok h w req → Ok' h w req) : Run env Ok' w₀ h w := by
  induction hr with
  | start => exact .start
  | serve req run ok ih => exact .serve req ih (hok _ _ _ ok)

theorem serve_older (w : World) (req : Request) : w.Older (serve env w req).2 :=
  @runM_older env _ (handle env req) (w, [])

theorem Run.older (hr : Run env Ok w₀ h w) : w₀.Older w := by
  induction hr with
  | start => exact World.Older.refl w₀
  | serve req run ok ih => exact ih.trans (serve_older _ _)

/-! ## Issued and presented tokens -/

/-- The answer hands out a token with these claims. -/
def Issues (env : Env) (e : Exchange) (p : TokenPayload) : Prop :=
  ∃ t, e.resp = .ok (.tokens t) ∧
    (signed env t.accessToken = some p ∨ signed env t.refreshToken = some p)

/-- The request carries the string where the application looks for a token. -/
def Request.presents (env : Env) (req : Request) (token : String) : Prop :=
  bearerPart env ((req.headers.find "authorization").getD "") = some token ∨
  (req.headers.find "authorization").bind env.bearerCredentials = some token ∨
  req.endpoint = .refresh token ∨ req.endpoint = .logout (some token)

/-- Tokens are minted by this service only: what verifies in a request carries claims
that were issued before. -/
def PresentsIssued (env : Env) (h : List Exchange) (_ : World) (req : Request) : Prop :=
  ∀ token p, req.presents env token → signed env token = some p → ∃ e ∈ h, Issues env e p

/-! ## What a request does to the accounts -/

/-- Identifiers of accounts are unique and were drawn before. -/
structure Accounts (w : World) : Prop where
  ids : ((w.db .users).map (·.id)).Nodup
  drawn : ∀ u ∈ w.db .users, u.id < w.nextUuid

/-- The same account: identifier, tenant, deletion and superuser flag. -/
structure SameAccount (u v : User) : Prop where
  id : v.id = u.id
  tenant : v.tenantId = u.tenantId
  deleted : v.deletedAt = u.deletedAt
  superuser : v.isSuperuser = u.isSuperuser

/-- A request leaves the accounts alone, adds one, or changes other columns of one. -/
inductive UsersStep (w w' : World) : Prop
  | same (h : w'.db .users = w.db .users)
  | join (u : User) (fresh : w.nextUuid ≤ u.id) (drawn : u.id < w'.nextUuid)
      (h : w'.db .users = w.db .users ++ [u])
  | change (old v : User) (mem : old ∈ w.db .users) (same : SameAccount old v)
      (h : w'.db .users = replaceUser old.id v (w.db .users))

/-- A request to one of the routes that write `users` leaves every table but the audit log
alone when it fails. -/
theorem serve_users_error {e : Err} (ht : .users ∈ req.endpoint.writes)
    (hs : serve env w req = (.error e, w')) : w.Logged w' := by
  obtain ⟨headers, client, endpoint, valid⟩ := req
  have hpublic : ∀ {caller : Option Caller} {rc : RequestContext} {s : Session} {w₁ : World},
      Admitted env w ⟨headers, client, endpoint, valid⟩ rc caller s w₁ →
      endpoint.user = false → caller = none := fun hadm huser => hadm.no_caller huser
  have hcalled : ∀ {caller : Option Caller} {rc : RequestContext} {s : Session} {w₁ : World},
      Admitted env w ⟨headers, client, endpoint, valid⟩ rc caller s w₁ →
      endpoint.user = true → ∃ c, caller = some c := fun hadm huser => hadm.some_caller huser
  have hfail : endpoint.routed → ∀ W,
      (∀ rc s caller, (∃ w', Admitted env w ⟨headers, client, endpoint, valid⟩ rc caller s w') →
        Works env W (handler env rc s ⟨headers, client, endpoint, valid⟩ caller)) →
      w.Logged w' := fun hrouted W hworks => serve_error hrouted hworks hs
  cases endpoint with
  | register data =>
    refine hfail trivial [.users, .userRoles] fun rc s caller ⟨w₁, hadm⟩ => ?_
    cases hpublic hadm rfl
    exact Works.register.bind fun _ => Works.pure _
  | login data =>
    refine hfail trivial [.users, .userSessions] fun rc s caller ⟨w₁, hadm⟩ => ?_
    cases hpublic hadm rfl
    exact Works.login.bind fun _ => Works.pure _
  | resetPassword token newPassword =>
    refine hfail trivial [.users, .userSessions] fun rc s caller ⟨w₁, hadm⟩ => ?_
    cases hpublic hadm rfl
    exact Works.resetPassword.bind fun _ => Works.pure _
  | createUser data =>
    refine hfail trivial [.users, .userRoles] fun rc s caller ⟨w₁, hadm⟩ => ?_
    obtain ⟨c, rfl⟩ := hcalled hadm rfl
    exact Works.createUser.bind fun _ => Works.pure _
  | updateUser userId data =>
    refine hfail trivial [.users, .userRoles] fun rc s caller ⟨w₁, hadm⟩ => ?_
    obtain ⟨c, rfl⟩ := hcalled hadm rfl
    exact Works.updateUser.bind fun _ => Works.pure _
  | createTenant data =>
    obtain ⟨e', w₁, heq, hstill⟩ | ⟨rc, caller, s, w₁, hadm, heq⟩ :=
      @serve_cases env w ⟨headers, client, .createTenant data, valid⟩ trivial
    · rw [hs] at heq
      cases heq
      exact hstill.logged
    · obtain ⟨c, rfl⟩ := hcalled hadm rfl
      have hhandler : handler env rc s ⟨headers, client, .createTenant data, valid⟩ (some c) =
          (createTenant env data >>= fun t => pure (.tenant (.ofTenant t))) := rfl
      rw [hhandler] at heq
      rcases hrun : runM env (createTenant env data) (w₁, [requestTx env rc]) with ⟨r, s'⟩
      cases r with
      | ok t =>
        rw [runM_bind_ok hrun, hs] at heq
        cases congrArg Prod.fst heq
      | error e' =>
        obtain ⟨w₂, rfl, hlog⟩ := createTenant_error hrun
        rw [runM_bind_error hrun, hs] at heq
        cases heq
        exact hadm.still.logged.trans hlog
  | _ => simp [Endpoint.writes] at ht

theorem mem_replaceUser {id : Uuid} {v x : User} {us : List User}
    (h : x ∈ replaceUser id v us) : x = v ∧ (∃ u ∈ us, u.id = id) ∨ x ∈ us ∧ x.id ≠ id := by
  obtain ⟨u, hu, rfl⟩ := List.mem_map.mp h
  by_cases hid : u.id = id
  · rw [if_pos hid]
    exact .inl ⟨rfl, u, hu, hid⟩
  · rw [if_neg hid]
    exact .inr ⟨hu, hid⟩

/-- A request leaves the accounts alone, adds one, or changes one that stays the same account;
and no account is added that is deleted already. -/
theorem serve_users_new (w : World) (req : Request)
    (hids : ((w.db .userSessions).map (·.id)).Nodup) : UsersStep w (serve env w req).2 ∧
      ∀ v ∈ (serve env w req).2.db .users,
        (∃ u ∈ w.db .users, SameAccount u v) ∨ v.deletedAt = none := by
  rcases hs : serve env w req with ⟨r, w'⟩
  have hsame : w'.db .users = w.db .users → UsersStep w w' ∧ ∀ v ∈ w'.db .users,
      (∃ u ∈ w.db .users, SameAccount u v) ∨ v.deletedAt = none :=
    fun h => ⟨.same h, fun v hv => .inl ⟨v, h ▸ hv, rfl, rfl, rfl, rfl⟩⟩
  have hjoin : ∀ {u : User}, w.nextUuid ≤ u.id → u.id < w'.nextUuid → u.deletedAt = none →
      w'.db .users = w.db .users ++ [u] → UsersStep w w' ∧ ∀ v ∈ w'.db .users,
        (∃ u ∈ w.db .users, SameAccount u v) ∨ v.deletedAt = none := by
    intro u hfresh hdrawn hlive h
    refine ⟨.join u hfresh hdrawn h, fun v hv => ?_⟩
    rcases List.mem_append.mp (h ▸ hv) with hv | hv
    · exact .inl ⟨v, hv, rfl, rfl, rfl, rfl⟩
    · exact .inr (List.mem_singleton.mp hv ▸ hlive)
  have hchange : ∀ {old v : User}, old ∈ w.db .users → SameAccount old v →
      w'.db .users = replaceUser old.id v (w.db .users) → UsersStep w w' ∧ ∀ v ∈ w'.db .users,
        (∃ u ∈ w.db .users, SameAccount u v) ∨ v.deletedAt = none := by
    intro old v hold hkept h
    refine ⟨.change old v hold hkept h, fun x hx => ?_⟩
    obtain ⟨rfl, -⟩ | ⟨hx, -⟩ := mem_replaceUser (h ▸ hx)
    · exact .inl ⟨old, hold, hkept⟩
    · exact .inl ⟨x, hx, rfl, rfl, rfl, rfl⟩
  by_cases ht : .users ∈ req.endpoint.writes
  · cases r with
    | error e => exact hsame (serve_users_error ht hs .users (by decide))
    | ok body =>
      obtain ⟨headers, client, endpoint, valid⟩ := req
      cases endpoint with
      | register data =>
        obtain ⟨rc, tid, out, -, -, -, hjoined, -, -, -, hlive⟩ := serve_register rfl hs
        exact hjoin hjoined.fresh hjoined.id hlive hjoined.users
      | login data =>
        obtain ⟨w₁, u, hlogin⟩ := serve_login rfl hs
        obtain ⟨old, t, now, hold, hid, husers⟩ := hlogin.users
        rw [← hid] at husers
        exact hchange hold (by constructor <;> rfl) husers
      | resetPassword token newPassword =>
        obtain ⟨raw, u, t, g, -, -, -, -, -, -, -, ⟨old, hashed, now, hold, hid, husers⟩, -⟩ :=
          serve_resetPassword hids rfl hs
        rw [← hid] at husers
        exact hchange hold (by constructor <;> rfl) husers
      | createUser data =>
        obtain ⟨rc, c, s, w₁, u, -, hjoined, -, hlive⟩ := serve_createUser rfl hs
        exact hjoin hjoined.fresh hjoined.id hlive hjoined.users
      | updateUser userId data =>
        obtain ⟨rc, c, s, w₁, u, -, -, hkept | ⟨old, now, hold, hid, husers⟩, -⟩ :=
          serve_updateUser rfl hs
        · exact hsame hkept
        · rw [← hid] at husers
          exact hchange hold (by constructor <;> rfl) husers
      | createTenant data =>
        obtain ⟨rc, c, s, w₁, t, u, -, -, holder, hprov, hdb, hlive⟩ := serve_createTenant rfl hs
        refine hjoin (holder.uuid.trans hprov.user_fresh.le) hprov.user_id hlive ?_
        rw [hprov.users, hdb]
      | _ => simp [Endpoint.writes] at ht
  · have hframe := serve_frame env w req ht
    rw [hs] at hframe
    exact hsame hframe

/-- **Accounts**: a request leaves the accounts alone, adds one, or changes one that stays
the same account. -/
theorem serve_users (w : World) (req : Request)
    (hids : ((w.db .userSessions).map (·.id)).Nodup) : UsersStep w (serve env w req).2 :=
  (serve_users_new w req hids).1

/-- No account is ever soft deleted. -/
theorem serve_users_live (w : World) (req : Request)
    (hids : ((w.db .userSessions).map (·.id)).Nodup)
    (hlive : ∀ u ∈ w.db .users, u.deletedAt = none) :
    ∀ v ∈ (serve env w req).2.db .users, v.deletedAt = none := by
  intro v hv
  obtain ⟨u, hu, hkept⟩ | hnew := (@serve_users_new env w req hids).2 v hv
  · rw [hkept.deleted]
    exact hlive u hu
  · exact hnew

/-! ## Accounts stay -/

theorem map_id_replaceUser {id : Uuid} {v : User} (hv : v.id = id) (us : List User) :
    (replaceUser id v us).map (·.id) = us.map (·.id) := by
  rw [replaceUser, List.map_map]
  refine List.map_congr_left fun u _ => ?_
  by_cases hid : u.id = id
  · simp [hid, hv]
  · simp [hid]

/-- The accounts stay identified, and no account leaves. -/
theorem UsersStep.accounts (h : UsersStep w w') (holder : w.Older w') (ha : Accounts w) :
    Accounts w' := by
  cases h with
  | same h => exact ⟨h ▸ ha.ids, fun u hu => (ha.drawn u (h ▸ hu)).trans_le holder.uuid⟩
  | join u fresh drawn h =>
    constructor
    · rw [h, List.map_append, List.nodup_append]
      refine ⟨ha.ids, List.nodup_singleton _, ?_⟩
      rintro id hid id' hid' rfl
      obtain ⟨v, hv, rfl⟩ := List.mem_map.mp hid
      have heq : v.id = u.id := by simpa using hid'
      exact Nat.not_lt_of_le fresh (heq ▸ ha.drawn v hv)
    · intro v hv
      rw [h] at hv
      rcases List.mem_append.mp hv with hv | hv
      · exact (ha.drawn v hv).trans_le holder.uuid
      · rw [List.mem_singleton.mp hv]
        exact drawn
  | change old v mem same h =>
    constructor
    · rw [h, map_id_replaceUser same.id]
      exact ha.ids
    · intro x hx
      rw [h] at hx
      obtain ⟨rfl, -⟩ | ⟨hx, -⟩ := mem_replaceUser hx
      · rw [same.id]
        exact (ha.drawn old mem).trans_le holder.uuid
      · exact (ha.drawn x hx).trans_le holder.uuid

/-- An account is still there after a request, as the same account. -/
theorem UsersStep.stays (h : UsersStep w w') (ha : Accounts w) {u : User}
    (hu : u ∈ w.db .users) : ∃ v ∈ w'.db .users, SameAccount u v := by
  cases h with
  | same h => exact ⟨u, h.symm ▸ hu, rfl, rfl, rfl, rfl⟩
  | join u' fresh drawn h => exact ⟨u, h ▸ List.mem_append_left _ hu, rfl, rfl, rfl, rfl⟩
  | change old v mem same h =>
    by_cases hid : u.id = old.id
    · obtain rfl := List.inj_on_of_nodup_map ha.ids hu mem hid
      refine ⟨v, ?_, same⟩
      rw [h]
      exact List.mem_map.mpr ⟨u, hu, if_pos rfl⟩
    · refine ⟨u, ?_, rfl, rfl, rfl, rfl⟩
      rw [h]
      exact List.mem_map.mpr ⟨u, hu, if_neg hid⟩

/-- An account of a later state is an account of the earlier one, or a new one. -/
theorem UsersStep.came (h : UsersStep w w') {v : User} (hv : v ∈ w'.db .users) :
    (∃ u ∈ w.db .users, SameAccount u v) ∨ w.nextUuid ≤ v.id := by
  cases h with
  | same h => exact .inl ⟨v, h ▸ hv, rfl, rfl, rfl, rfl⟩
  | join u fresh drawn h =>
    rw [h] at hv
    rcases List.mem_append.mp hv with hv | hv
    · exact .inl ⟨v, hv, rfl, rfl, rfl, rfl⟩
    · rw [List.mem_singleton.mp hv]
      exact .inr fresh
  | change old v' mem same h =>
    rw [h] at hv
    obtain ⟨rfl, -⟩ | ⟨hv, -⟩ := mem_replaceUser hv
    · exact .inl ⟨old, mem, same⟩
    · exact .inl ⟨v, hv, rfl, rfl, rfl, rfl⟩

end LmsBackend
