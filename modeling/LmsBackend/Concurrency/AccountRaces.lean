import LmsBackend.Concurrency.CatalogRaces
import LmsBackend.Modules.Admin

/-!
# Accounts that race for an address

What `register` and `create_user` do in the company of others that claim the same address in
the same tenant: the lookup of the address, the insert of the account, and the roles that
are granted to it.
-/

namespace LmsBackend

open Mvcc Interleave

variable {env : Env} {w₀ : World} {rc : RequestContext} {s : Session} {tid : Uuid} {email : String}

/-- The address is in lower case and fits its column; the tenant's roles have identifiers
and codes of their own, and none is granted to an account to come. -/
structure AccountOpen (env : Env) (w₀ : World) (email : String) : Prop where
  lower : env.lower email = email
  fits : varchar 255 "email" email = none
  roleIds : ((w₀.db .roles).map (·.id)).Nodup
  roleCodes : ∀ r ∈ w₀.db .roles, ∀ r' ∈ w₀.db .roles,
    r.tenantId = r'.tenantId → r.code = r'.code → r = r'
  granted : ∀ ur ∈ w₀.db .userRoles, ur.userId < w₀.nextUuid

/-- The transaction that has inserted an account and granted it roles. -/
def accountTx (env : Env) (rc : RequestContext) (user : User) (granted : List Uuid) : Tx where
  guc := (boundTx env rc.tenantId rc.isSuperadmin).guc
  writes := inserting ⟨.users, user⟩ ::
    granted.map fun id => inserting ⟨.userRoles, (⟨user.id, id⟩ : UserRole)⟩
  pending := []

/-- The lookup of the address: nobody has it, or the one who has won. -/
theorem getByEmail_races {α : Type} {f : Option LoadedUser → M α}
    {Q : RaceRecord → List Tx → α → Prop} {E : RaceRecord → List Tx → Err → Prop}
    (hopen : RaceOpen env w₀ (.account tid email)) (htid : rc.tenantId = some tid)
    (hlower : env.lower email = email)
    (hfree : Races env w₀ (.account tid email) Q E .free
      [boundTx env rc.tenantId rc.isSuperadmin] (f none))
    (hheld : ∀ key u, Races env w₀ (.account tid email) Q E (.held key)
      [boundTx env rc.tenantId rc.isSuperadmin] (f (some u))) :
    Races env w₀ (.account tid email) Q E .start [boundTx env rc.tenantId rc.isSuperadmin]
      (getByEmail env rc email >>= f) := by
  unfold getByEmail findUser repoSelect
  simp only [bind_assoc]
  have hcheck : ∀ u : User, (inScope rc .users u && decide (u.email = env.lower email)) = true ↔
      (RaceKey.account tid email).stands .users u = true := by
    intro u
    rw [Bool.and_eq_true, decide_eq_true_iff, inScope_iff htid (by decide), RaceKey.stands_iff,
      hlower]
    simp only [RaceKey.hits, RaceKey.tenantId, RaceKey.counts, tenantOf, Bool.and_eq_true,
      decide_eq_true_iff, Option.some.injEq]
    tauto
  refine race_check .users rfl hopen trivial rfl
    (fun u hu => RaceKey.hits_of_stands ((hcheck u).mp hu))
    (fun u hu => ⟨(hcheck u).mpr hu, bound_policy hopen.rls htid (RaceKey.stands_iff.mp hu).2.1.2⟩)
    (fun rows _ hrows _ => ?_) fun u _ _ => ?_
  · have hnil : rows = [] := by
      refine List.eq_nil_iff_forall_not_mem.mpr fun u hu => ?_
      obtain ⟨hfound, hstands⟩ := hrows u hu
      rw [(hcheck u).mp hfound] at hstands
      cases hstands
    subst hnil
    unfold loadUsers loadRoles
    simp only [bind_assoc]
    refine Does.join (race_reads id) fun assigned => ?_
    refine Does.join (race_reads id) fun granted => ?_
    exact hfree
  · unfold loadUsers loadRoles
    simp only [bind_assoc]
    refine Does.join (race_reads id) fun assigned => ?_
    refine Does.join (race_reads id) fun granted => ?_
    exact hheld _ _

/-- What an account needs to be inserted. -/
theorem account_inserted (hopen : RaceOpen env w₀ (.account tid email))
    (htid : rc.tenantId = some tid) (haccount : AccountOpen env w₀ email) {user : User}
    (hkey : user.tenantId = tid ∧ user.email = email)
    (hfits : varchar 255 "hashed_password" user.hashedPassword = none ∧
      varchar 200 "full_name" user.fullName = none)
    (hnew : w₀.nextUuid ≤ user.id) {db : Database Row} (hb : BeforeRace w₀ db)
    (hfree : ∀ u ∈ db .users, (RaceKey.account tid email).hits .users u = false) :
    insertError schema db (boundTx env rc.tenantId rc.isSuperadmin) .users user = none := by
  refine insertError_eq_none (bound_policy hopen.rls htid (congrArg some hkey.1)) ?_ ?_ ?_
  · refine firstError_eq_none.mpr fun check hmem => ?_
    simp only [List.mem_cons, List.not_mem_nil, or_false] at hmem
    rcases hmem with rfl | rfl | rfl
    · rw [hkey.2]
      exact haccount.fits
    · exact hfits.1
    · exact hfits.2
  · rw [view_nil schema db rfl, uniqueError_users]
    refine ⟨fun u hu => ?_, fun u hu htenant hemail => ?_⟩
    · rw [hb .users (by rintro ⟨⟩)] at hu
      exact ((hopen.drawn u hu u.id List.mem_cons_self).trans_le hnew).ne
    · have hhit := hfree u hu
      simp [RaceKey.hits] at hhit
      exact hhit (htenant.trans hkey.1) (hemail.trans hkey.2)
  · rw [view_nil schema db rfl, referenceError_users, hb .tenants (by rintro ⟨⟩), hkey.1]
    exact hopen.tenant

/-- What the transaction sees of the accounts and of the granted roles. -/
theorem accountTx_view (db : Database Row) (user : User) (granted : List Uuid) :
    view schema db (accountTx env rc user granted) .users = db .users ++ [user] ∧
      view schema db (accountTx env rc user granted) .userRoles =
        db .userRoles ++ granted.map (fun id => (⟨user.id, id⟩ : UserRole)) ∧
      ∀ t, t ≠ .users → t ≠ .userRoles → view schema db (accountTx env rc user granted) t = db t := by
  have hrest : ∀ x ∈ granted.map fun id => inserting ⟨.userRoles, (⟨user.id, id⟩ : UserRole)⟩,
      x.table = .userRoles := by
    intro x hx
    obtain ⟨id, -, rfl⟩ := List.mem_map.mp hx
    rfl
  refine ⟨?_, ?_, fun t hu hr => ?_⟩
  · rw [view, accountTx, List.foldl_cons, foldl_apply_other fun x hx => by
      rw [hrest x hx]
      rintro ⟨⟩]
    exact Write.apply_insert
  · rw [view, accountTx, List.foldl_cons]
    have hgrants : ∀ db : Database Row, (granted.map fun id =>
        inserting ⟨.userRoles, (⟨user.id, id⟩ : UserRole)⟩).foldl (Write.apply schema) db .userRoles =
        db .userRoles ++ granted.map (fun id => (⟨user.id, id⟩ : UserRole)) := by
      clear hrest
      induction granted with
      | nil => exact fun db => (List.append_nil _).symm
      | cons id rest ih =>
        intro db
        rw [List.map_cons, List.foldl_cons, ih]
        show Write.apply schema db (.insert .userRoles _) .userRoles ++ _ = _
        rw [Write.apply_insert, List.append_assoc]
        rfl
    rw [hgrants]
    exact congrArg (· ++ _) (Write.apply_other (by rintro ⟨⟩))
  · rw [view, accountTx, List.foldl_cons, foldl_apply_other fun x hx => by
      rw [hrest x hx]
      exact hr.symm]
    exact Write.apply_other hu.symm

/-- The roles are granted, one after the other: the induction is over those still to come. -/
theorem grants_races {α : Type} {f : Unit → M α} {Q : RaceRecord → List Tx → α → Prop}
    {E : RaceRecord → List Tx → Err → Prop} (haccount : AccountOpen env w₀ email) {user : User}
    (hnew : w₀.nextUuid ≤ user.id) {done todo : List Uuid} (hnodup : (done ++ todo).Nodup)
    (hroles : ∀ id ∈ todo, ∃ r ∈ w₀.db .roles, r.id = id)
    (h : Races env w₀ (.account tid email) Q E .inserted [accountTx env rc user (done ++ todo)]
      (f ())) :
    Races env w₀ (.account tid email) Q E .inserted [accountTx env rc user done]
      (Prog.forEach todo
        (fun id => insertRow ⟨.userRoles, (⟨user.id, id⟩ : UserRole)⟩) >>= f) := by
  induction todo generalizing done with
  | nil =>
    rw [List.append_nil] at h
    exact h
  | cons id todo ih =>
    have hassoc : (Prog.forEach (id :: todo)
        (fun id => insertRow ⟨.userRoles, (⟨user.id, id⟩ : UserRole)⟩) >>= f) =
        insertRow ⟨.userRoles, (⟨user.id, id⟩ : UserRole)⟩ >>= fun _ =>
          Prog.forEach todo
            (fun id => insertRow ⟨.userRoles, (⟨user.id, id⟩ : UserRole)⟩) >>= f := by
      show (Prog.bind (insertRow _) fun _ => Prog.forEach todo _).bind f = _
      rw [Prog.bind_assoc]
      rfl
    rw [hassoc]
    refine Does.insertRow (fun ht => by cases ht) (fun w _ _ => ?_) fun w e hrely hins => ?_
    · have hpush : (accountTx env rc user done).push
          (inserting ⟨.userRoles, (⟨user.id, id⟩ : UserRole)⟩) =
          accountTx env rc user (done ++ [id]) := by
        simp [accountTx, Tx.push]
      show Races env w₀ _ _ _ .inserted [(accountTx env rc user done).push _] _
      rw [hpush]
      refine ih ?_ (fun id' hid' => hroles id' (List.mem_cons_of_mem _ hid')) ?_
      · rwa [List.append_assoc]
      · rwa [List.append_assoc]
    · have hb := hrely.before
      obtain ⟨husers, hgranted, hrest⟩ := @accountTx_view env rc w.db user done
      have hok : insertError schema w.db (accountTx env rc user done) .userRoles
          (⟨user.id, id⟩ : UserRole) = none := by
        refine insertError_eq_none rfl rfl ?_ ?_
        · refine firstError_eq_none.mpr fun check hmem => ?_
          simp only [List.mem_cons, List.not_mem_nil, or_false] at hmem
          rcases hmem with rfl | rfl
          · rw [taken_eq_none, List.any_eq_false, hgranted]
            intro ur hur hsame
            rw [decide_eq_true_iff] at hsame
            obtain ⟨huser, hrole⟩ : ur.userId = user.id ∧ ur.roleId = id := by
              simpa [keyOf] using hsame
            rcases List.mem_append.mp hur with hur | hur
            · rw [hb .userRoles (by rintro ⟨⟩)] at hur
              exact ((haccount.granted ur hur).trans_le hnew).ne huser
            · obtain ⟨id', hid', rfl⟩ := List.mem_map.mp hur
              have hdone : id ∈ done := hrole ▸ hid'
              exact List.disjoint_of_nodup_append hnodup hdone List.mem_cons_self
          · rfl
        · rw [referenceError_userRoles, husers, hrest .roles (by rintro ⟨⟩) (by rintro ⟨⟩),
            hb .roles (by rintro ⟨⟩)]
          exact ⟨⟨user, List.mem_append_right _ List.mem_cons_self, rfl⟩,
            hroles id List.mem_cons_self⟩
      rw [show schema.coerce .userRoles (⟨user.id, id⟩ : UserRole) = ⟨user.id, id⟩ from rfl, hok]
        at hins
      cases hins

/-- The account and its roles, committed. -/
theorem account_committed (hopen : RaceOpen env w₀ (.account tid email)) {user : User}
    (hkey : user.tenantId = tid ∧ user.email = email ∧ user.deletedAt = none)
    (hnew : w₀.nextUuid ≤ user.id) (granted : List Uuid) :
    RaceEnds w₀ (.account tid email) .inserted [accountTx env rc user granted] := by
  refine ⟨_, rfl, rfl, .inl ⟨rfl, fun db hb hunused => ?_⟩⟩
  refine AfterRace.of_writes .users rfl hb hunused rfl (fun x hx => ?_) ?_ (fun u hu => ?_)
    fun _ => ⟨id, ?_, fun _ => ⟨rfl, rfl, rfl, rfl⟩⟩
  · obtain ⟨id, -, rfl⟩ := List.mem_map.mp hx
    exact List.mem_singleton_self _
  · rw [RaceKey.stands_iff]
    simp [RaceKey.hits, RaceKey.tenantId, RaceKey.counts, tenantOf, deletedAtOf, schema, coerce, hkey]
  · have hne := ((hopen.drawn u hu u.id List.mem_cons_self).trans_le hnew).ne
    simpa [keyOf, schema, coerce] using hne
  · rw [List.map_id]
    exact (@accountTx_view env rc db user granted).2.2 .courses (by rintro ⟨⟩) (by rintro ⟨⟩)

/-- The roles of the tenant that a query finds: nobody writes them. -/
theorem roles_races {α : Type} {f : List LoadedRole → M α} {Q : RaceRecord → List Tx → α → Prop}
    {E : RaceRecord → List Tx → Err → Prop} {q : RaceRecord} {tx : Tx} {l : List Tx}
    (haccount : AccountOpen env w₀ email) (htid : rc.tenantId = some tid) (hq : ¬ q.looking)
    (hview : ∀ db, view schema db tx .roles = db .roles) {p : Role → Bool}
    (h : ∀ roles : List LoadedRole, (∀ r ∈ roles, r.role ∈ w₀.db .roles ∧
        r.role.tenantId = tid ∧ p r.role = true) → (roles.map (·.role.id)).Nodup →
      Races env w₀ (.account tid email) Q E q (tx :: l) (f roles)) :
    Races env w₀ (.account tid email) Q E q (tx :: l)
      (repoSelect rc .roles p >>= fun rows => loadRoles rows >>= f) := by
  unfold repoSelect
  have hreads : Does.Reads (raceNote (.account tid email)) (RaceAllowed w₀ (.account tid email)) q :=
    race_reads hq
  refine Does.select (fun hlook => absurd hlook hq) fun w hrely => ?_
  rw [(hreads.select _ _ _).2]
  have hroles : w.db .roles = w₀.db .roles :=
    hrely.rest ⟨by rintro ⟨⟩, by simp [RaceKey.others], by rintro ⟨⟩⟩
  have hsub : ((visible schema w.db tx .roles).filter fun r => inScope rc .roles r && p r).Sublist
      (w₀.db .roles) := by
    refine List.filter_sublist.trans (List.filter_sublist.trans ?_)
    rw [hview, hroles]
  have hfound : ∀ r ∈ (visible schema w.db tx .roles).filter (fun r => inScope rc .roles r && p r),
      r.tenantId = tid ∧ p r = true := by
    intro r hr
    have hr' := (List.mem_filter.mp hr).2
    rw [Bool.and_eq_true, inScope_iff htid (by decide)] at hr'
    exact ⟨Option.some.inj hr'.1.2, hr'.2⟩
  generalize (visible schema w.db tx .roles).filter (fun r => inScope rc .roles r && p r) = rows
    at hsub hfound
  unfold loadRoles
  rw [bind_assoc]
  refine Does.join (race_reads hq) fun granted => ?_
  refine h _ (fun r hr => ?_) ?_
  · obtain ⟨r', hr', rfl⟩ := List.mem_map.mp hr
    exact ⟨hsub.subset hr', hfound r' hr'⟩
  · rw [List.map_map]
    exact (hsub.map _).nodup haccount.roleIds

/-- The roles of a new account are granted, the event is published, and the transaction is
ready to be committed. -/
theorem granted_races {α : Type} (hopen : RaceOpen env w₀ (.account tid email))
    (haccount : AccountOpen env w₀ email) {user : User}
    (hkey : user.tenantId = tid ∧ user.email = email ∧ user.deletedAt = none)
    (hnew : w₀.nextUuid ≤ user.id) {roles : List LoadedRole}
    (hroles : ∀ r ∈ roles, r.role ∈ w₀.db .roles) (hnodup : (roles.map (·.role.id)).Nodup)
    {e : DomainEvent} {a : α} :
    Races env w₀ (.account tid email) (fun q l _ => RaceEnds w₀ (.account tid email) q l) (FailsOpen (.account tid email))
      .inserted [accountTx env rc user []]
      (Prog.forEach roles (fun r => insertRow ⟨.userRoles, (⟨user.id, r.role.id⟩ : UserRole)⟩) >>=
        fun _ => publish env e >>= fun _ => pure a) := by
  have hids : Prog.forEach roles
      (fun r => insertRow ⟨.userRoles, (⟨user.id, r.role.id⟩ : UserRole)⟩) =
      Prog.forEach (roles.map (·.role.id))
        (fun id => insertRow ⟨.userRoles, (⟨user.id, id⟩ : UserRole)⟩) :=
    (Prog.forEach_map (fun r : LoadedRole => r.role.id)
      (fun id => insertRow ⟨.userRoles, (⟨user.id, id⟩ : UserRole)⟩) roles).symm
  rw [hids]
  refine grants_races haccount hnew hnodup (fun id hid => ?_) ?_
  · obtain ⟨r, hr, rfl⟩ := List.mem_map.mp hid
    exact ⟨r.role, hroles r hr, rfl⟩
  · refine Does.publish (race_starts _) (race_audits (.inl rfl) (List.cons_ne_nil _ _)) ?_
    exact account_committed hopen hkey hnew _

/-! ## Registration -/

/-- Rows that are added to the unit of work wait there. -/
theorem adds_races {α : Type} {f : Unit → M α} {Q : RaceRecord → List Tx → α → Prop}
    {E : RaceRecord → List Tx → Err → Prop} {k : RaceKey} {q : RaceRecord} {l : List Tx}
    {userId : Uuid} {roles : List LoadedRole} {tx : Tx}
    (h : Races env w₀ k Q E q ({ tx with pending := tx.pending ++
      (roles.map fun r => ⟨.userRoles, (⟨userId, r.role.id⟩ : UserRole)⟩) } :: l) (f ())) :
    Races env w₀ k Q E q (tx :: l)
      (Prog.forEach roles (fun r => add .userRoles ⟨userId, r.role.id⟩) >>= f) := by
  induction roles generalizing tx with
  | nil =>
    rw [List.map_nil, List.append_nil] at h
    exact h
  | cons r roles ih =>
    have hassoc : (Prog.forEach (r :: roles) (fun r => add .userRoles ⟨userId, r.role.id⟩) >>= f) =
        perform (.db (.add .userRoles (⟨userId, r.role.id⟩ : UserRole))) >>= fun _ =>
          Prog.forEach roles (fun r => add .userRoles ⟨userId, r.role.id⟩) >>= f := rfl
    rw [hassoc]
    refine Does.op trivial fun w a w' l' _ hexec => ?_
    cases hexec
    have hnote : raceNote k q (tx :: l)
        (.db (.add .userRoles (⟨userId, r.role.id⟩ : UserRole))) () = q := by
      cases q <;> rfl
    rw [hnote]
    refine ih ?_
    rw [List.map_cons] at h
    show Races env w₀ k Q E q ({ tx with pending := (tx.pending ++ [_]) ++ _ } :: l) (f ())
    rw [List.append_assoc]
    exact h

/-- The account is inserted, and its roles are to be. -/
theorem addUser_races {α : Type} {f : Unit → M α} {Q : RaceRecord → List Tx → α → Prop}
    (hopen : RaceOpen env w₀ (.account tid email)) (htid : rc.tenantId = some tid)
    (haccount : AccountOpen env w₀ email) {user : User}
    (hkey : user.tenantId = tid ∧ user.email = email)
    (hfits : varchar 255 "hashed_password" user.hashedPassword = none ∧
      varchar 200 "full_name" user.fullName = none)
    (hnew : w₀.nextUuid ≤ user.id) {roles : List LoadedRole}
    (h : Races env w₀ (.account tid email) Q (FailsOpen (.account tid email)) .inserted [accountTx env rc user []]
      (Prog.forEach roles
        (fun r => insertRow ⟨.userRoles, (⟨user.id, r.role.id⟩ : UserRole)⟩) >>= f)) :
    Races env w₀ (.account tid email) Q (FailsOpen (.account tid email)) .free
      [boundTx env rc.tenantId rc.isSuperadmin] (addUser user roles >>= fun _ => flush >>= f) := by
  unfold addUser
  rw [bind_assoc]
  refine Does.op trivial fun w a w' l' _ hexec => ?_
  cases hexec
  show Races env w₀ _ _ _ .free [⟨_, [], [⟨.users, user⟩]⟩] _
  refine adds_races ?_
  refine @Does.flush_rows _ _ _ _ _ _ _ _ _ _ _ (⟨.users, user⟩ ::
    roles.map fun r => ⟨.userRoles, (⟨user.id, r.role.id⟩ : UserRole)⟩) f rfl
    ⟨trivial, fun _ => rfl⟩ ?_
  have hassoc : (Prog.forEach (⟨.users, user⟩ ::
        roles.map fun r => ⟨.userRoles, (⟨user.id, r.role.id⟩ : UserRole)⟩) insertRow >>= f) =
      insertRow ⟨.users, user⟩ >>= fun _ => Prog.forEach roles
        (fun r => insertRow ⟨.userRoles, (⟨user.id, r.role.id⟩ : UserRole)⟩) >>= f := by
    rw [← Prog.forEach_map fun r : LoadedRole =>
      (⟨.userRoles, (⟨user.id, r.role.id⟩ : UserRole)⟩ : AnyRow Row)]
    exact Prog.bind_assoc _ _ _
  rw [hassoc]
  refine race_insertRow .users rfl rfl ?_ (fun db hb hfree => ?_) (fun e => ⟨⟨_, rfl⟩, .inl rfl⟩) h
  · simp [RaceKey.hits, schema, coerce, hkey]
  · exact account_inserted hopen htid haccount hkey hfits hnew hb hfree

/-- The user that `register` adds. -/
def RegisterRequest.user (data : RegisterRequest) (env : Env) (s : Session) (tenantId id : Uuid)
    (hashedPassword : String) : User where
  id := id
  tenantId := tenantId
  email := env.lower data.email
  hashedPassword := hashedPassword
  fullName := data.fullName
  isActive := true
  createdAt := s.startedAt
  updatedAt := s.startedAt

/-- Hashes and the full name fit their columns. -/
structure AccountFits (env : Env) (password fullName : String) : Prop where
  hash : ∀ seed, varchar 255 "hashed_password" (env.hash seed password) = none
  name : varchar 200 "full_name" fullName = none

theorem register_races {data : RegisterRequest}
    (hopen : RaceOpen env w₀ (.account tid (env.lower data.email))) (htid : rc.tenantId = some tid)
    (haccount : AccountOpen env w₀ (env.lower data.email))
    (hfits : AccountFits env data.password data.fullName) :
    Races env w₀ (.account tid (env.lower data.email))
      (fun q l _ => RaceEnds w₀ (.account tid (env.lower data.email)) q l) (FailsOpen (.account tid (env.lower data.email))) .start
      [boundTx env rc.tenantId rc.isSuperadmin] (register env rc s data) := by
  unfold register
  refine Does.requireTenantId (fun h => ?_) fun tid' htid' => ?_
  · rw [htid] at h
    cases h
  obtain rfl : tid = tid' := Option.some.inj (htid.symm.trans htid')
  refine getByEmail_races hopen htid haccount.lower ?_ fun key u => ?_
  · show Races env w₀ _ _ _ .free _ (getRoleByCode rc "student" >>= _)
    unfold getRoleByCode
    simp only [bind_assoc]
    refine roles_races haccount htid id (fun _ => rfl) fun roles hroles hnodup => ?_
    -- at most one role of the tenant has the code
    obtain ⟨student, hone, hstudent⟩ : ∃ student : Option LoadedRole,
        (scalarOneOrNone roles : M _) = .ret student ∧ student.toList = roles := by
      rcases roles with _ | ⟨r, _ | ⟨r', rest⟩⟩
      · exact ⟨none, rfl, rfl⟩
      · exact ⟨some r, rfl, rfl⟩
      · exfalso
        obtain ⟨hr, htenant, hcode⟩ := hroles r List.mem_cons_self
        obtain ⟨hr', htenant', hcode'⟩ := hroles r' (List.mem_cons_of_mem _ List.mem_cons_self)
        have hsame := haccount.roleCodes _ hr _ hr' (htenant.trans htenant'.symm)
          ((of_decide_eq_true hcode).trans (of_decide_eq_true hcode').symm)
        exact (List.nodup_cons.mp hnodup).1 (List.mem_cons.mpr (.inl (congrArg Role.id hsame)))
    rw [hone]
    show Races env w₀ _ _ _ .free _ (hashPassword env data.password >>= _)
    unfold hashPassword
    rw [bind_assoc]
    refine Does.op trivial fun w₁ seed w' l' _ hexec => ?_
    cases hexec
    show Races env w₀ _ _ _ .free _ (uuid4 >>= _)
    refine Does.op trivial fun w₂ id w' l' hrely hexec => ?_
    cases hexec
    have hnew : w₀.nextUuid ≤ w₂.nextUuid := hrely.1
    show Races env w₀ _ _ _ .free _
      (addUser (data.user env s tid w₂.nextUuid (env.hash w₁.draws data.password))
        student.toList >>= fun _ => flush >>= _)
    rw [hstudent]
    refine addUser_races hopen htid haccount ⟨rfl, rfl⟩ ⟨hfits.hash _, hfits.name⟩ hnew ?_
    exact granted_races hopen haccount ⟨rfl, rfl, rfl⟩ hnew (fun r hr => (hroles r hr).1) hnodup
  · exact ⟨⟨_, rfl⟩, .inr ⟨rfl, ⟨_, rfl⟩, _, rfl⟩⟩

/-! ## Accounts made by an administrator -/

/-- The user that `create_user` adds. -/
def AdminUserCreate.user (data : AdminUserCreate) (env : Env) (s : Session) (tenantId id : Uuid)
    (hashedPassword : String) : User where
  id := id
  tenantId := tenantId
  email := env.lower data.email
  hashedPassword := hashedPassword
  fullName := data.fullName
  isActive := data.isActive
  createdAt := s.startedAt
  updatedAt := s.startedAt

theorem createUser_races {data : AdminUserCreate}
    (hopen : RaceOpen env w₀ (.account tid (env.lower data.email))) (htid : rc.tenantId = some tid)
    (haccount : AccountOpen env w₀ (env.lower data.email))
    (hfits : AccountFits env data.password data.fullName) :
    Races env w₀ (.account tid (env.lower data.email))
      (fun q l _ => RaceEnds w₀ (.account tid (env.lower data.email)) q l) (FailsOpen (.account tid (env.lower data.email))) .start
      [boundTx env rc.tenantId rc.isSuperadmin] (createUser env rc s data) := by
  unfold createUser
  refine Does.requireTenantId (fun h => ?_) fun tid' htid' => ?_
  · rw [htid] at h
    cases h
  obtain rfl : tid = tid' := Option.some.inj (htid.symm.trans htid')
  refine getByEmail_races hopen htid haccount.lower ?_ fun key u => ?_
  · show Races env w₀ _ _ _ .free _ (hashPassword env data.password >>= _)
    unfold hashPassword
    rw [bind_assoc]
    refine Does.op trivial fun w₁ seed w' l' _ hexec => ?_
    cases hexec
    show Races env w₀ _ _ _ .free _ (uuid4 >>= _)
    refine Does.op trivial fun w₂ id w' l' hrely hexec => ?_
    cases hexec
    have hnew : w₀.nextUuid ≤ w₂.nextUuid := hrely.1
    show Races env w₀ _ _ _ .free _ (repoAdd .users
      (data.user env s tid w₂.nextUuid (env.hash w₁.draws data.password)) >>= _)
    refine race_insert .users rfl rfl rfl ?_ (fun db hb hfree => ?_) (fun e => ⟨⟨_, rfl⟩, .inl rfl⟩) ?_
    · simp [RaceKey.hits, schema, coerce, AdminUserCreate.user]
    · exact account_inserted hopen htid haccount ⟨rfl, rfl⟩ ⟨hfits.hash _, hfits.name⟩ hnew hb hfree
    show Races env w₀ _ _ _ .inserted [accountTx env rc _ []] (rolesOf rc data.roleCodes >>= _)
    have hgrant : ∀ roles : List LoadedRole, (∀ r ∈ roles, r.role ∈ w₀.db .roles) →
        (roles.map (·.role.id)).Nodup → ∀ e : DomainEvent,
        Races env w₀ (.account tid (env.lower data.email))
          (fun q l _ => RaceEnds w₀ (.account tid (env.lower data.email)) q l) (FailsOpen (.account tid (env.lower data.email))) .inserted
          [accountTx env rc
            (data.user env s tid w₂.nextUuid (env.hash w₁.draws data.password)) []]
          (assignRoles ⟨data.user env s tid w₂.nextUuid (env.hash w₁.draws data.password), []⟩
            roles >>= fun _ => publish env e >>= fun _ =>
              pure (LoadedUser.mk
                (data.user env s tid w₂.nextUuid (env.hash w₁.draws data.password)) roles)) := by
      intro roles hroles hnodup e
      have hall : roles.filter (fun r => ([] : List LoadedRole).all fun r' =>
          decide (r'.role.id ≠ r.role.id)) = roles := List.filter_true ..
      unfold assignRoles
      rw [hall]
      exact granted_races hopen haccount ⟨rfl, rfl, rfl⟩ hnew hroles hnodup
    unfold rolesOf
    by_cases hcodes : data.roleCodes = []
    · rw [if_pos hcodes]
      exact hgrant [] (by rintro r ⟨⟩) List.nodup_nil _
    · rw [if_neg hcodes]
      unfold getRolesByCodes
      rw [bind_assoc]
      refine roles_races haccount htid id (fun db => ?_) fun roles hroles hnodup => ?_
      · exact (@accountTx_view env rc db _ []).2.2 .roles (by rintro ⟨⟩) (by rintro ⟨⟩)
      · exact hgrant roles (fun r hr => (hroles r hr).1) hnodup _
  · exact ⟨⟨_, rfl⟩, .inr ⟨rfl, ⟨_, rfl⟩, _, rfl⟩⟩

end LmsBackend
