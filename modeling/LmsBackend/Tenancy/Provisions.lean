import LmsBackend.Effects.Creations
import LmsBackend.Tenancy.Resolution

/-!
# Creating a tenant, nobody else being at work

How `create_tenant` ends: with the tenant, its licences and its first account stored, or with
an exception and nothing stored.

- `Licensing`: what the transaction holds while the licences are written, one after the other.
- `createTenant_ends`: if the values fit their columns, the exception is one that the
  application raises on purpose.
-/

namespace LmsBackend

open Mvcc

variable {env : Env} {w w' : World} {tx : Tx} {txs : List Tx} {s : Session} {t : Tenant}

/-- The slug is taken, or the values fit their columns. -/
structure TenantProceeds (env : Env) (data : TenantCreate) (db : Database Row) : Prop where
  rls : env.settings.enableRowLevelSecurity = true
  fits : (∃ t ∈ db .tenants, t.slug = data.slug) ∨
    (varchar 200 "name" data.name = none ∧ varchar 80 "slug" data.slug = none ∧
      AccountStorable env data.adminEmail data.adminPassword "Tenant Admin")

/-- The session of `create_tenant` bypasses the policies. -/
theorem bypass_policy (hrls : env.settings.enableRowLevelSecurity = true) {tb : Table}
    {r : Row tb} : schema.policy (boundTx env none true).guc tb r = true := by
  show policy (boundTx env none true).guc tb r = true
  rw [boundTx, if_pos hrls]
  simp [policy]

/-- The lookup of a slug finds the tenant, or there is none. -/
theorem getTenantBySlug_ends {slug : String} {Q : Option Tenant → State → Prop}
    {E : Err → State → Prop} (hset : Settled w)
    (hfound : ∀ t, Q (some t) (w, boundTx env none true :: txs))
    (hnone : (∀ t ∈ w.db .tenants, t.slug ≠ slug) → Q none (w, boundTx env none true :: txs)) :
    Ends env (getTenantBySlug slug) (w, boundTx env none true :: txs) Q E := by
  have hrun := @runM_getTenantBySlug env w txs slug
  have hone : (bySlug w slug).length ≤ 1 := by
    refine @filter_one _ _ _ _ hset.tenants.slugs _ slug fun t _ hp => ?_
    rw [Bool.and_eq_true, decide_eq_true_iff] at hp
    exact hp.1
  obtain ⟨r, hr⟩ := scalar_of_length hone
  rw [hr] at hrun
  cases r with
  | some t => exact .of_ok hrun (hfound t)
  | none =>
    refine .of_ok hrun (hnone fun t ht hslug => ?_)
    have hmem : t ∈ bySlug w slug := mem_bySlug.mpr ⟨ht, hslug, hset.tenants.undeleted t ht⟩
    rw [scalar_eq_none hr] at hmem
    cases hmem

/-- The tenant is inserted, and the licences of the codes that are not to come. -/
structure Licensing (env : Env) (w : World) (t : Tenant) (todo : List ModuleCode) (w' : World)
    (tx : Tx) : Prop where
  db : w'.db = w.db
  next : w.nextUuid < w'.nextUuid
  guc : tx.guc = (boundTx env none true).guc
  pending : tx.pending = []
  tenants : view schema w.db tx .tenants = w.db .tenants ++ [t]
  others : ∀ tb, tb ≠ .tenants → tb ≠ .tenantModules → view schema w.db tx tb = w.db tb
  flags : ∀ tm ∈ view schema w.db tx .tenantModules,
    tm.id < w'.nextUuid ∧ tm.tenantId < w'.nextUuid
  fresh : ∀ tm ∈ view schema w.db tx .tenantModules, tm.tenantId = t.id →
    ∀ m ∈ w.db .modules, m.id = tm.moduleId → ∀ code ∈ todo, m.code ≠ code.value

/-- A licence has an identifier of its own, and its tenant has one of its module. -/
theorem uniqueError_tenantModules {db : Database Row} {r : TenantModule} :
    uniqueError db .tenantModules r = none ↔ (∀ r' ∈ db .tenantModules, r'.id ≠ r.id) ∧
      ∀ r' ∈ db .tenantModules, r'.tenantId = r.tenantId → r'.moduleId ≠ r.moduleId := by
  simp [uniqueError, firstError_eq_none, taken_eq_none, keyOf]

/-- A licence refers to its tenant and its module. -/
theorem referenceError_tenantModules {db : Database Row} {r : TenantModule} :
    referenceError db .tenantModules r = none ↔
      (∃ t ∈ db .tenants, t.id = r.tenantId) ∧ ∃ m ∈ db .modules, m.id = r.moduleId := by
  simp [referenceError, firstError_eq_none, tenantOf, references_eq_none, keyOf]

/-- What the session sees of a table without a policy. -/
theorem Licensing.seen_modules {todo : List ModuleCode} (h : Licensing env w t todo w' tx) :
    seen w' tx .modules = w.db .modules := by
  rw [seen, visible, h.db, h.others .modules (by decide) (by decide)]
  exact List.filter_eq_self.mpr fun _ _ => rfl

/-- The row of a licence whose module has none yet is taken. -/
theorem Licensing.inserted {todo : List ModuleCode} (h : Licensing env w t todo w' tx)
    (hrls : env.settings.enableRowLevelSecurity = true) {m : Module} (hm : m ∈ w.db .modules)
    {tm : TenantModule} (hid : w'.nextUuid ≤ tm.id) (htenant : tm.tenantId = t.id)
    (hmodule : tm.moduleId = m.id)
    (hnone : ∀ r ∈ view schema w.db tx .tenantModules, r.tenantId = t.id → r.moduleId ≠ m.id) :
    insertError schema w.db tx .tenantModules tm = none := by
  have hpolicy : schema.policy tx.guc .tenantModules tm = true := by
    rw [h.guc]
    exact bypass_policy hrls
  refine insertError_eq_none hpolicy rfl ?_ ?_
  · rw [uniqueError_tenantModules, htenant, hmodule]
    exact ⟨fun r hr => ((h.flags r hr).1.trans_le hid).ne, hnone⟩
  · rw [referenceError_tenantModules, htenant, hmodule, h.tenants,
      h.others .modules (by decide) (by decide)]
    exact ⟨⟨t, List.mem_append_right _ (List.mem_singleton_self t), rfl⟩, m, hm, rfl⟩

/-- One licence more. -/
theorem Licensing.push {code : ModuleCode} {todo : List ModuleCode} {w'' : World} {m : Module}
    {row : TenantModule} (h : Licensing env w t (code :: todo) w' tx) (hset : Settled w)
    (hdb : w''.db = w'.db) (hnext : w''.nextUuid = w'.nextUuid + 1) (hid : row.id = w'.nextUuid)
    (hrow : row.tenantId = t.id ∧ row.moduleId = m.id) (htenant : t.id < w'.nextUuid)
    (hm : m ∈ w.db .modules) (hmcode : m.code = code.value) (hcode : code ∉ todo) :
    Licensing env w t todo w'' (tx.push (inserting ⟨.tenantModules, row⟩)) := by
  have hflags : view schema w.db (tx.push (inserting ⟨.tenantModules, row⟩)) .tenantModules =
      view schema w.db tx .tenantModules ++ [row] := by
    rw [view_push]
    exact Write.apply_insert
  have hother : ∀ tb, tb ≠ .tenantModules →
      view schema w.db (tx.push (inserting ⟨.tenantModules, row⟩)) tb = view schema w.db tx tb := by
    intro tb htb
    rw [view_push]
    exact Write.apply_other (Ne.symm htb)
  have hmem : ∀ tm ∈ view schema w.db (tx.push (inserting ⟨.tenantModules, row⟩)) .tenantModules,
      tm ∈ view schema w.db tx .tenantModules ∨ tm = row := by
    intro tm htm
    rw [hflags, List.mem_append, List.mem_singleton] at htm
    exact htm
  have hlt : w'.nextUuid < w''.nextUuid := hnext ▸ Nat.lt_succ_self _
  constructor
  · exact hdb.trans h.db
  · exact h.next.trans hlt
  · exact h.guc
  · exact h.pending
  · rw [hother .tenants (by decide)]
    exact h.tenants
  · intro tb htenants htb
    rw [hother tb htb]
    exact h.others tb htenants htb
  · intro tm htm
    rcases hmem tm htm with htm | rfl
    · exact ⟨(h.flags tm htm).1.trans hlt, (h.flags tm htm).2.trans hlt⟩
    · rw [hid, hrow.1]
      exact ⟨hlt, htenant.trans hlt⟩
  · intro tm htm htmt m' hm' hm'id code' hcode' heq
    rcases hmem tm htm with htm | rfl
    · exact h.fresh tm htm htmt m' hm' hm'id code' (List.mem_cons_of_mem _ hcode') heq
    · -- the module of the new row has the code that is done
      obtain rfl : m' = m := List.inj_on_of_nodup_map hset.codes.moduleIds hm' hm
        (hm'id.trans hrow.2)
      exact hcode (value_injective (hmcode.symm.trans heq) ▸ hcode')

theorem runM_invalidate (tenantId : Uuid) (w : World) (txs : List Tx) :
    ∃ w', runM env (invalidate env tenantId) (w, txs) = (.ok (), (w', txs)) ∧ w'.db = w.db ∧
      w'.nextUuid = w.nextUuid := by
  unfold invalidate
  split
  · exact ⟨_, rfl, rfl, rfl⟩
  · exact ⟨_, rfl, rfl, rfl⟩

/-- One licence: it is inserted, or the module is not in the catalog. -/
theorem setLicense_ends {code : ModuleCode} {todo : List ModuleCode} (hset : Settled w)
    (hcode : code ∉ todo) (htenant : t.id = w.nextUuid)
    (h : Licensing env w t (code :: todo) w' tx) :
    Ends env (setLicense env s t.id code true) (w', tx :: txs)
      (fun _ s' => ∃ w'' tx'', s' = (w'', tx'' :: txs) ∧ Licensing env w t todo w'' tx'')
      fun e s' => s'.1.db = w.db ∧ (env.settings.enableRowLevelSecurity = true → IsApp e) := by
  unfold setLicense
  refine .bind_ok (runM_query w' tx txs .modules _) ?_
  have hone : ((seen w' tx .modules).filter fun m => decide (m.code = code.value)).length ≤ 1 := by
    rw [h.seen_modules]
    exact @filter_one _ _ _ _ hset.codes.modules _ code.value fun m _ hm => of_decide_eq_true hm
  obtain ⟨found, hfound⟩ := scalar_of_length hone
  refine .bind_ok ((runM_scalarOneOrNone _ _).trans (congrArg (·, _) hfound)) ?_
  cases found with
  | none => exact .raise ⟨h.db, fun _ => ⟨_, _, _, rfl⟩⟩
  | some m =>
    obtain ⟨hm, hmcode⟩ : m ∈ w.db .modules ∧ m.code = code.value := by
      have hmem : m ∈ (seen w' tx .modules).filter fun m => decide (m.code = code.value) := by
        rw [scalar_eq_some hfound]
        exact List.mem_singleton_self m
      rw [h.seen_modules, List.mem_filter, decide_eq_true_iff] at hmem
      exact hmem
    -- no licence of the module is among those written before
    have hnone : ∀ r ∈ view schema w.db tx .tenantModules, r.tenantId = t.id →
        r.moduleId ≠ m.id := fun r hr htenant hid =>
      h.fresh r hr htenant m hm hid.symm code List.mem_cons_self hmcode
    refine .bind_ok (runM_query w' tx txs .tenantModules _) ?_
    have hempty : (seen w' tx .tenantModules).filter
        (fun r => decide (r.tenantId = t.id) && decide (r.moduleId = m.id)) = [] := by
      refine List.filter_eq_nil_iff.mpr fun r hr hmatch => ?_
      rw [Bool.and_eq_true, decide_eq_true_iff, decide_eq_true_iff] at hmatch
      refine hnone r ?_ hmatch.1 hmatch.2
      rw [← h.db]
      exact (mem_visible.mp hr).1
    rw [hempty]
    refine .bind_ok (runM_scalarOneOrNone _ _) ?_
    let row : TenantModule :=
      { id := w'.nextUuid, tenantId := t.id, moduleId := m.id, enabled := true,
        enabledAt := some (env.clock w'.ticks) }
    have hsave : runM env (saveLicense s t.id m.id none true) (w', tx :: txs) = (.ok (),
        ({ w'.tick with nextUuid := w'.nextUuid + 1 },
          withPending tx ⟨.tenantModules, row⟩ :: txs)) := rfl
    refine .bind_ok hsave (.bind (flush_one_ends h.pending (fun hinsert => ?_)
      fun e hinsert => ⟨h.db, fun hrls => ?_⟩))
    · obtain ⟨w₁, hinvalidate, hdb, hnext⟩ := @runM_invalidate env t.id
        { w'.tick with nextUuid := w'.nextUuid + 1 } (tx.push (inserting ⟨.tenantModules, row⟩) :: txs)
      exact .of_ok hinvalidate ⟨w₁, _, rfl, h.push hset hdb hnext rfl ⟨rfl, rfl⟩
        (htenant.trans_lt h.next) hm         hmcode hcode⟩
    · have hok : insertError schema w.db tx .tenantModules row = none :=
        h.inserted hrls hm (le_refl _) rfl rfl hnone
      rw [← h.db] at hok
      cases hok.symm.trans hinsert

/-- The licences, one after the other. -/
theorem licenses_end {codes : List ModuleCode} (hset : Settled w) (hcodes : codes.Nodup)
    (htenant : t.id = w.nextUuid) (h : Licensing env w t codes w' tx) :
    Ends env (Prog.forEach codes fun code => setLicense env s t.id code true) (w', tx :: txs)
      (fun _ s' => ∃ w'' tx'', s' = (w'', tx'' :: txs) ∧ Licensing env w t [] w'' tx'')
      fun e s' => s'.1.db = w.db ∧ (env.settings.enableRowLevelSecurity = true → IsApp e) := by
  have hend := @Prog.Ends.forEach _ _ _ _ _ (exec env) (w', tx :: txs)
    (fun e s' => s'.1.db = w.db ∧ (env.settings.enableRowLevelSecurity = true → IsApp e))
    (fun todo s' => todo.Nodup ∧ ∃ w'' tx'', s' = (w'', tx'' :: txs) ∧
      Licensing env w t todo w'' tx'') (fun code => setLicense env s t.id code true) codes
    (fun code todo st => ?_) ⟨hcodes, w', tx, rfl, h⟩
  · exact hend.mono (fun _ _ hdone => hdone.2) fun _ _ he => he
  · rintro ⟨hnodup, w'', tx'', rfl, hlicensing⟩
    rw [List.nodup_cons] at hnodup
    exact (setLicense_ends hset hnodup.1 htenant hlicensing).mono
      (fun _ _ hnext => ⟨hnodup.2, hnext⟩) fun _ _ he => he

/-- A new tenant is taken if its slug is free and its values fit. -/
theorem tenant_inserted {data : TenantCreate} (hset : Settled w)
    (hname : varchar 200 "name" data.name = none) (hslug : varchar 80 "slug" data.slug = none)
    (hfree : ∀ t ∈ w.db .tenants, t.slug ≠ data.slug) {guc : Guc} :
    insertError schema w.db ⟨guc, [], []⟩ .tenants
      ({ id := w.nextUuid, name := data.name, slug := data.slug } : Tenant) = none := by
  refine insertError_eq_none rfl ?_ ?_ rfl
  · refine firstError_eq_none.mpr fun check hmem => ?_
    simp only [List.mem_cons, List.not_mem_nil, or_false] at hmem
    rcases hmem with rfl | rfl
    · exact hname
    · exact hslug
  · rw [view_nil schema w.db rfl, uniqueError_tenants]
    exact ⟨fun t ht => (hset.tenants.drawn t ht).ne, hfree⟩

/-- The first account of a new tenant is taken if its values fit. -/
theorem Licensing.account_inserted (h : Licensing env w t [] w' tx) (hset : Settled w)
    (hrls : env.settings.enableRowLevelSecurity = true) (htenant : t.id = w.nextUuid)
    (user : User) (hid : w.nextUuid ≤ user.id) (hut : user.tenantId = t.id)
    (hfits : columnError .users user = none) :
    insertError schema w.db tx .users user = none := by
  have hpolicy : schema.policy tx.guc .users user = true := by
    rw [h.guc]
    exact bypass_policy hrls
  refine insertError_eq_none hpolicy hfits ?_ ?_
  · rw [uniqueError_users, h.others .users (by decide) (by decide), hut, htenant]
    refine ⟨fun u hu => ((hset.accounts.drawn u hu).1.trans_le hid).ne, fun u hu hsame => ?_⟩
    exact absurd hsame (hset.accounts.drawn u hu).2.ne
  · rw [referenceError_users, h.tenants, hut]
    exact ⟨t, List.mem_append_right _ (List.mem_singleton_self t), rfl⟩

/-- The first account of a new tenant. -/
def TenantCreate.admin (data : TenantCreate) (env : Env) (s : Session) (tenantId id : Uuid)
    (hashedPassword : String) : User where
  id := id
  tenantId := tenantId
  email := env.lower data.adminEmail
  hashedPassword := hashedPassword
  fullName := "Tenant Admin"
  isActive := true
  isSuperuser := true
  createdAt := s.startedAt
  updatedAt := s.startedAt

/-- What is left of a tenant's provisioning keeps the keys settled. -/
theorem Licensing.settled (h : Licensing env w t [] w' tx) (hset : Settled w)
    (htenant : t.id = w.nextUuid) (hlive : t.deletedAt = none)
    (hfree : ∀ r ∈ w.db .tenants, r.slug ≠ t.slug) (user : User) {w'' : World}
    (hdb : w''.db = w.db) (hnext : w'.nextUuid ≤ w''.nextUuid) (hid : user.id < w''.nextUuid)
    (hut : user.tenantId = t.id) (hulive : user.deletedAt = none) :
    Settled { w'' with db := view schema w''.db (tx.push (inserting ⟨.users, user⟩)) } ∧
      view schema w''.db (tx.push (inserting ⟨.users, user⟩)) .tenants = w.db .tenants ++ [t] := by
  have holder : w.nextUuid ≤ w''.nextUuid := h.next.le.trans hnext
  have hother : ∀ tb, tb ≠ .users →
      view schema w''.db (tx.push (inserting ⟨.users, user⟩)) tb = view schema w.db tx tb := by
    intro tb htb
    rw [hdb, view_push]
    exact Write.apply_other (Ne.symm htb)
  have husers : view schema w''.db (tx.push (inserting ⟨.users, user⟩)) .users =
      w.db .users ++ [user] := by
    rw [hdb, view_push, inserting, Write.apply_insert, h.others .users (by decide) (by decide)]
    rfl
  have htenants := (hother .tenants (by decide)).trans h.tenants
  have hsame : ∀ tb, tb ≠ .users → tb ≠ .tenants → tb ≠ .tenantModules →
      view schema w''.db (tx.push (inserting ⟨.users, user⟩)) tb = w.db tb :=
    fun tb hu ht hm => (hother tb hu).trans (h.others tb ht hm)
  refine ⟨⟨?_, ?_, ?_, ?_⟩, htenants⟩
  · refine hset.accounts.join holder hid ?_ hulive (fun u hu hsame => ?_) husers fun ur hur => ?_
    · rw [hut, htenant]
      exact h.next.trans_le hnext
    · exact absurd (hsame.trans (hut.trans htenant)) (hset.accounts.drawn u hu).2.ne
    · exact .inl (hsame .userRoles (by decide) (by decide) (by decide) ▸ hur)
  · have hmem : ∀ r ∈ view schema w''.db (tx.push (inserting ⟨.users, user⟩)) .tenants,
        r ∈ w.db .tenants ∨ r = t := by
      intro r hr
      rw [htenants, List.mem_append, List.mem_singleton] at hr
      exact hr
    refine ⟨fun r hr => ?_, fun r hr => ?_, ?_, fun tm htm => ?_⟩
    · rcases hmem r hr with hr | rfl
      · exact (hset.tenants.drawn r hr).trans_le holder
      · rw [htenant]
        exact h.next.trans_le hnext
    · rcases hmem r hr with hr | rfl
      · exact hset.tenants.undeleted r hr
      · exact hlive
    · show ((view schema w''.db _ .tenants).map (·.slug)).Nodup
      rw [htenants, List.map_append, List.nodup_append]
      refine ⟨hset.tenants.slugs, List.nodup_singleton _, ?_⟩
      rintro slug hslug slug' hslug' rfl
      obtain ⟨r, hr, rfl⟩ := List.mem_map.mp hslug
      exact hfree r hr (List.mem_singleton.mp hslug')
    · replace htm : tm ∈ view schema w.db tx .tenantModules :=
        hother .tenantModules (by decide) ▸ htm
      exact ⟨(h.flags tm htm).1.trans_le hnext, (h.flags tm htm).2.trans_le hnext⟩
  · exact hset.codes.same (hsame .roles (by decide) (by decide) (by decide))
      (hsame .modules (by decide) (by decide) (by decide))
  · intro c hc
    replace hc : c ∈ w.db .courses := hsame .courses (by decide) (by decide) (by decide) ▸ hc
    exact (hset.courses c hc).trans_le holder

/-- The tenant is inserted, and no licence yet. -/
theorem Licensing.start (hset : Settled w) {w' : World} (hdb : w'.db = w.db)
    (hnext : w.nextUuid < w'.nextUuid) (htenant : t.id = w.nextUuid) (codes : List ModuleCode) :
    Licensing env w t codes w' ((boundTx env none true).push (inserting ⟨.tenants, t⟩)) := by
  have hother : ∀ tb, tb ≠ .tenants → view schema w.db ((boundTx env none true).push
      (inserting ⟨.tenants, t⟩)) tb = w.db tb := by
    intro tb htb
    rw [view_push, view_nil schema w.db rfl]
    exact Write.apply_other (Ne.symm htb)
  have hflags : ∀ tm ∈ view schema w.db ((boundTx env none true).push
      (inserting ⟨.tenants, t⟩)) .tenantModules, tm.id < w.nextUuid ∧ tm.tenantId < w.nextUuid := by
    rw [hother .tenantModules (by decide)]
    exact hset.tenants.flags
  refine ⟨hdb, hnext, rfl, rfl, ?_, fun tb htenants _ => hother tb htenants, fun tm htm => ?_,
    fun tm htm hsame => ?_⟩
  · rw [view_push, view_nil schema w.db rfl]
    exact Write.apply_insert
  · exact ⟨(hflags tm htm).1.trans hnext, (hflags tm htm).2.trans hnext⟩
  · exact absurd (hsame.trans htenant) (hflags tm htm).2.ne

/-- A creation of a tenant: it is stored with its licences and its first account, or nothing
is. -/
theorem createTenant_ends {data : TenantCreate} (hset : Settled w) :
    Ends env (createTenant env data) (w, txs)
      (fun t s' => ∃ w', s' = (w', txs) ∧ Settled w' ∧ t.slug = data.slug ∧
        w'.db .tenants = w.db .tenants ++ [t])
      fun e s' => s'.1.db = w.db ∧ (TenantProceeds env data w.db → IsApp e) := by
  refine tenantSession_ends (P := fun t w' => Settled w' ∧ t.slug = data.slug ∧
    w'.db .tenants = w.db .tenants ++ [t])
    (E := fun e db => db = w.db ∧ (TenantProceeds env data w.db → IsApp e)) ?_
  have hset' : Settled w.tick := hset.same (le_refl _) rfl
  refine .bind (getTenantBySlug_ends hset' (fun _ => ?_) fun hfree => ?_)
  · exact .raise ⟨rfl, fun _ => ⟨_, _, _, rfl⟩⟩
  refine .bind (.bind_ok (runM_uuid4 _ _) (.bind_ok (runM_add _ _ _ _ _)
    (.bind (flush_one_ends rfl (fun hinsert => .ret ?_) fun e hinsert => ⟨rfl, fun h => ?_⟩))))
  · let t : Tenant := { id := w.nextUuid, name := data.name, slug := data.slug }
    have hstart := @Licensing.start env w t hset { w.tick with nextUuid := w.nextUuid + 1 } rfl
      (Nat.lt_succ_self _) rfl (data.modules ++ [ModuleCode.auth]).dedup
    refine .bind ((licenses_end hset (List.nodup_dedup _) rfl hstart).mono (fun _ s' hdone => ?_)
      fun e s' he => ⟨he.1, fun h => he.2 h.rls⟩)
    obtain ⟨w₁, tx₁, rfl, hlic⟩ := hdone
    refine .bind_ok (show runM env (hashPassword env data.adminPassword) (w₁, _) = _ from rfl) ?_
    refine .bind_ok (runM_uuid4 _ _) (.bind_ok (runM_add _ _ _ _ _)
      (.bind (flush_one_ends hlic.pending (fun _ => .ret ?_) fun e hrefused =>
        ⟨hlic.db, fun h => ?_⟩)))
    · let w₂ : World := { w₁ with draws := w₁.draws + 1, nextUuid := w₁.nextUuid + 1 }
      have hdb : w₂.db = w.db := hlic.db
      obtain ⟨hsettled, htenants⟩ := hlic.settled hset rfl rfl hfree
        (data.admin env ⟨env.clock w.ticks⟩ t.id w₁.nextUuid
          (env.hash w₁.draws data.adminPassword)) hdb (Nat.le_succ w₁.nextUuid)
        (Nat.lt_succ_self w₁.nextUuid) rfl rfl
      exact .intro hlic.pending ⟨hsettled, rfl, htenants⟩
    · obtain hfound | ⟨-, -, hfits⟩ := h.fits
      · obtain ⟨r, hr, hslug⟩ := hfound
        exact absurd hslug (hfree r hr)
      · have hok := hlic.account_inserted hset h.rls rfl
          (data.admin env ⟨env.clock w.ticks⟩ t.id w₁.nextUuid
            (env.hash w₁.draws data.adminPassword)) hlic.next.le rfl (hfits.columns rfl rfl rfl)
        rw [← hlic.db] at hok
        cases hok.symm.trans hrefused
  · obtain hfound | ⟨hname, hslug, -⟩ := h.fits
    · obtain ⟨r, hr, hslug⟩ := hfound
      exact absurd hslug (hfree r hr)
    · cases (tenant_inserted hset hname hslug hfree).symm.trans hinsert

end LmsBackend
