import LmsBackend.Content.Storability
import LmsBackend.History.Creations

/-!
# The roles that were asked for

`create_user` and `update_user` look the codes of a payload up with an `IN` and assign the roles
that were found: a code that names no role of the tenant is left out without a word.

- `createUser_outcome`: the codes of the roles that a new account has.
- `RolesCreated`, `RolesUpdated`: the account has exactly the codes of the payload, or an
  `AppError` is raised and nothing has changed.
- `role_codes_iff`: the payloads for which this holds.
-/

namespace LmsBackend

open Mvcc

variable {env : Env} {w w' : World} {bound rc : RequestContext} {tid : Uuid} {s : Session}

/-- Every code is that of a role of the tenant. -/
def CodesKnown (db : Database Row) (tid : Uuid) (codes : List String) : Prop :=
  ∀ code ∈ codes, ∃ r ∈ db .roles, r.tenantId = tid ∧ r.code = code

/-- The repository finds the roles of the tenant. -/
theorem mem_scopeRows_roles (hcalled : Called env bound rc w.db tid) {r : Role} :
    r ∈ scopeRows rc w (openTx env bound) .roles ↔ r ∈ w.db .roles ∧ r.tenantId = tid := by
  rw [mem_scopeRows, mem_seen rfl, inScope_iff hcalled.context (by decide)]
  constructor
  · rintro ⟨⟨hr, -⟩, -, htenant⟩
    exact ⟨hr, Option.some.inj htenant⟩
  · rintro ⟨hr, rfl⟩
    have hpolicy := hcalled.policy (show tenantOf .roles r = some r.tenantId from rfl)
    exact ⟨⟨hr, hpolicy⟩, rfl, rfl⟩

/-- An account without rows of its own is loaded without roles. -/
theorem loadUsersIn_fresh {db : Database Row} {user : User}
    (hfresh : ∀ ur ∈ db .userRoles, ur.userId ≠ user.id) :
    (⟨user, []⟩ : LoadedUser) ∈ loadUsersIn db [user] := by
  have hnone : (joined db .userRoles .roles fun ur r =>
      ([user].any fun u => u.id = ur.userId) && decide (ur.roleId = r.id)) = [] := by
    refine List.eq_nil_iff_forall_not_mem.mpr fun x hx => ?_
    obtain ⟨hur, -, hcond⟩ := mem_joined.mp hx
    simp only [List.any_cons, List.any_nil, Bool.or_false, Bool.and_eq_true,
      decide_eq_true_iff] at hcond
    exact hfresh x.1 hur hcond.1.symm
  refine List.mem_singleton.mpr ?_
  simp only [hnone, List.map_nil, List.dedup_nil, List.any_nil, List.filter_false]

/-- The codes of the roles that a new account has: those of the payload that are known. A
payload that fits is refused for its address only. -/
theorem createUser_outcome {data : AdminUserCreate} (hset : Settled w)
    (hlower : ∀ x, env.lower (env.lower x) = env.lower x) (hcalled : Called env bound rc w.db tid)
    (hfits : AccountStorable env data.email data.password data.fullName) :
    Ends env (createUser env rc s data) (w, [openTx env bound])
      (Closes (fun out w' => ¬ AddressTaken env data.email w.db tid ∧
        ∀ code, HasRole (seen w' (openTx env bound)) out.user.id code ↔
          code ∈ data.roleCodes ∧ ∃ r ∈ scopeRows rc w (openTx env bound) .roles, r.code = code) [])
      fun e s' => s'.1.db = w.db ∧ IsApp e ∧ AddressTaken env data.email w.db tid := by
  have hends := @createUser_ends env w bound rc s data hset hlower
  rcases hrun : runM env (createUser env rc s data) (w, [openTx env bound]) with ⟨e | out, s'⟩
  · obtain ⟨hdb, happ, htaken⟩ := hends.error hrun
    have htaken := htaken tid hcalled hfits
    exact .of_error hrun ⟨hdb, happ ⟨tid, hcalled, .inl htaken⟩, htaken⟩
  obtain ⟨w₁, tx₁, rfl, hp, hsettled, hemail, husers⟩ := hends.ok hrun
  obtain ⟨tid', w₂, htid', hid, htenant, -, hroles, hlog, -, heq, -⟩ := createUser_ok rfl hrun
  obtain rfl : tid = tid' := Option.some.inj (hcalled.context.symm.trans htid')
  cases heq
  refine .of_ok hrun ⟨_, _, rfl, hp, ?_, fun code => ?_⟩
  · -- the addresses of a tenant are different, also after the account has joined
    rintro ⟨u, hu, hut, hue⟩
    have hemails := hsettled.accounts.emails
    rw [husers, List.map_append, List.nodup_append] at hemails
    refine hemails.2.2 _ (List.mem_map_of_mem hu) _ (List.mem_singleton_self _) ?_
    exact Prod.ext (hut.trans htenant.symm) (hue.trans hemail.symm)
  · have hfresh : ∀ ur ∈ seen w (openTx env bound) .userRoles, ur.userId ≠ out.user.id := by
      intro ur hur
      rw [hid]
      exact (hset.accounts.granted ur ((mem_seen rfl).mp hur).1).ne
    have hasked : out.roles = rolesByCodesIn (seen w (openTx env bound)) rc data.roleCodes := by
      rw [hroles, askedRoles]
      split
      · rename_i hcodes
        rw [hcodes]
        simp [rolesByCodesIn, loadRolesIn]
      · rfl
    obtain ⟨-, hassigned, hrest⟩ := @accountTx_view env bound w₁.db out.user
      (out.roles.map (·.role.id))
    have htx : (⟨(openTx env bound).guc, (openTx env bound).writes ++ inserting ⟨.users, out.user⟩ ::
        (roleRows out.user.id out.roles).map inserting, []⟩ : Tx) =
          accountTx env bound out.user (out.roles.map (·.role.id)) := joinedTx_eq _ _
    rw [htx]
    refine hasRole_reassigned (u := ⟨out.user, []⟩) hset.codes rfl (loadUsersIn_fresh hfresh) ?_ ?_
      code
    · exact (hrest .roles (by decide) (by decide)).trans (hlog .roles (by decide))
    · refine hassigned.trans ?_
      rw [hlog .userRoles (by decide), ← hasked]
      simp [leaving, joining, assigned]

/-! ## What was asked for, or an exception -/

/-- A creation leaves an account with exactly the codes of the payload, or an `AppError` and
nothing else. -/
def RolesCreated (env : Env) (w : World) (bound rc : RequestContext) (data : AdminUserCreate) :
    Prop :=
  Ends env (getDb env (some bound) fun s => createUser env rc s data) (w, [])
    (fun out s' => ∀ code, HasRole (seen s'.1 (openTx env bound)) out.user.id code ↔
      code ∈ data.roleCodes)
    fun e s' => IsApp e ∧ s'.1.db = w.db

/-- An update with role codes does. -/
def RolesUpdated (env : Env) (w : World) (bound rc : RequestContext) (userId : Uuid)
    (data : AdminUserUpdate) (codes : List String) : Prop :=
  Ends env (getDb env (some bound) fun s =>
      updateUser env rc s userId { data with roleCodes := some codes }) (w, [])
    (fun _ s' => ∀ code, HasRole (seen s'.1 (openTx env bound)) userId code ↔ code ∈ codes)
    fun e s' => IsApp e ∧ s'.1.db = w.db

/-- Nothing is left out exactly if every code is known. -/
theorem exactly_known_iff (hcalled : Called env bound rc w.db tid) {codes : List String}
    {has : String → Prop} (h : ∀ code, has code ↔ code ∈ codes ∧
      ∃ r ∈ scopeRows rc w (openTx env bound) .roles, r.code = code) :
    (∀ code, has code ↔ code ∈ codes) ↔ CodesKnown w.db tid codes := by
  constructor
  · intro hall code hcode
    obtain ⟨r, hr, hrcode⟩ := ((h code).mp ((hall code).mpr hcode)).2
    obtain ⟨hr, htenant⟩ := (mem_scopeRows_roles hcalled).mp hr
    exact ⟨r, hr, htenant, hrcode⟩
  · intro hknown code
    rw [h code]
    refine and_iff_left_of_imp fun hcode => ?_
    obtain ⟨r, hr, htenant, hrcode⟩ := hknown code hcode
    exact ⟨r, (mem_scopeRows_roles hcalled).mpr ⟨hr, htenant⟩, hrcode⟩

theorem rolesCreated_iff {data : AdminUserCreate} (hset : Settled w)
    (hlower : ∀ x, env.lower (env.lower x) = env.lower x) (hcalled : Called env bound rc w.db tid)
    (hfits : AccountStorable env data.email data.password data.fullName) :
    RolesCreated env w bound rc data ↔ AddressTaken env data.email w.db tid ∨
      CodesKnown w.db tid data.roleCodes := by
  have hends := @getDb_ends env w bound LoadedUser (fun s => createUser env rc s data) _
    (fun e db => db = w.db ∧ IsApp e ∧ AddressTaken env data.email w.db tid)
    (@createUser_outcome env w.tick bound rc tid ⟨env.clock w.ticks⟩ data
      (hset.same (le_refl _) rfl) hlower hcalled hfits)
  refine hends.iff_of (fun out s' h => ?_) fun e s' h => ?_
  · obtain ⟨hfree, hroles⟩ := h
    replace hfree : ¬ AddressTaken env data.email w.db tid := hfree
    rw [or_iff_right hfree]
    exact exactly_known_iff hcalled hroles
  · exact iff_of_true ⟨h.2.1, h.1⟩ (.inl h.2.2)

theorem rolesUpdated_iff {userId : Uuid} {data : AdminUserUpdate} {codes : List String}
    (hrows : RowsValid w.db) (hcalled : Called env bound rc w.db tid) (hadm : data.Admitted) :
    RolesUpdated env w bound rc userId data codes ↔
      ∀ u ∈ scopeRows rc w (openTx env bound) .users, u.id = userId →
        data.nullColumn = none ∧ CodesKnown w.db tid codes := by
  have hends := @getDb_ends env w bound LoadedUser
    (fun s => updateUser env rc s userId { data with roleCodes := some codes }) _
    (fun e db => db = w.db ∧ data.Refused (scopeRows rc w (openTx env bound) .users) userId e)
    (@updateUser_outcome env w.tick (openTx env bound) [] rc ⟨env.clock w.ticks⟩ tid userId
      { data with roleCodes := some codes } hrows.codes hcalled.context hrows.userKeys hrows.users
      hadm rfl rfl)
  refine hends.iff_of ?_ fun e s' h => ?_
  · rintro out s' ⟨u, hu, hid, hnull, row, -, hassigned⟩
    rw [exactly_known_iff hcalled (hassigned.roles codes rfl)]
    exact ⟨fun hknown _ _ _ => ⟨hnull, hknown⟩, fun h => (h u hu hid).2⟩
  · obtain ⟨hdb, ⟨happ, hnone⟩ | ⟨hdatabase, hnull, u, hu, hid⟩⟩ := h
    · exact iff_of_true ⟨happ, hdb⟩ fun u hu hid => absurd hid (hnone u hu)
    · exact iff_of_false (fun hkept => hdatabase hkept.1) fun h => hnull (h u hu hid).1

namespace Faculty

theorem settled : Settled world where
  accounts := ⟨by decide, by decide, by decide, by decide⟩
  tenants := ⟨by decide, by decide, by decide, by decide⟩
  codes := rowsValid.codes
  courses := by decide

/-- The payload of an account with these roles. -/
def bob (codes : List String) : AdminUserCreate :=
  { email := "bob@acme", password := "password", roleCodes := codes }

theorem bob_storable (codes : List String) :
    AccountStorable Students.platform (bob codes).email (bob codes).password
      (bob codes).fullName where
  hash _ := by
    show varchar 255 "hashed_password" ("#" ++ "password") = none
    decide +kernel
  name := by
    show varchar 200 "full_name" "" = none
    decide +kernel
  email := by
    show varchar 255 "email" (Students.platform.lower "bob@acme") = none
    decide +kernel

end Faculty

end LmsBackend
