import LmsBackend.Concurrency.AccountRaces
import LmsBackend.Effects.Reads
import LmsBackend.Isolation.Gateway
import LmsBackend.Lib.Outcomes

/-!
# Creations, one after the other

How `create_course`, `register` and `create_user` end where nobody else is at work: they
return and have stored the new row, or they raise and have stored nothing.

- `Settled`: what the checks before an insert rely on. Every creation keeps it.
- `Called`: a tenant's request, in the context and in the session.
- `createCourse_ends`, `register_ends`, `createUser_ends`: if the checks are enough, the
  exception is one that the application raises on purpose.
-/

namespace LmsBackend

open Mvcc

variable {env : Env} {w w' : World} {tx : Tx} {txs : List Tx} {bound rc : RequestContext}
  {s : Session} {tid : Uuid} {α : Type}

/-- How a program of the application ends. -/
abbrev Ends (env : Env) (p : M α) (st : State) (Q : α → State → Prop)
    (E : Err → State → Prop) : Prop := Prog.Ends (exec env) p st Q E

/-- An `AppError`. -/
def IsApp (e : Err) : Prop := ∃ kind message details, e = .app kind message details

/-! ## Units of work -/

/-- The innermost transaction is ready to be committed; what it leaves is as `P` says. -/
def Closes (P : α → World → Prop) (txs : List Tx) (a : α) (s' : State) : Prop :=
  ∃ w' tx', s' = (w', tx' :: txs) ∧ tx'.pending = [] ∧ P a { w' with db := view schema w'.db tx' }

theorem Closes.intro {P : α → World → Prop} {a : α} (hp : tx.pending = [])
    (h : P a { w with db := view schema w.db tx }) : Closes P txs a (w, tx :: txs) :=
  ⟨w, tx, rfl, hp, h⟩

theorem rollback_db (st : State) : (exec env (.db .rollback) st).2.1.db = st.1.db := by
  obtain ⟨w, txs⟩ := st
  cases txs with
  | nil => rfl
  | cons tx txs => rfl

theorem getDb_ends {body : Session → M α} {P : α → World → Prop} {E : Err → Database Row → Prop}
    (h : Ends env (body ⟨env.clock w.ticks⟩)
      (w.tick, [boundTx env bound.tenantId bound.isSuperadmin]) (Closes P [])
      fun e s' => E e s'.1.db) :
    Ends env (getDb env (some bound) body) (w, []) (fun a s' => P a s'.1)
      fun e s' => E e s'.1.db := by
  have hdb := @runM_getDb env _ (some bound) body w []
  rcases hrun : runM env (body ⟨env.clock w.ticks⟩) (w.tick, [boundTx env
    ((some bound).bind (·.tenantId)) (((some bound).map (·.isSuperadmin)).getD false)]) with ⟨r, s'⟩
  rw [hrun] at hdb
  cases r with
  | ok a =>
    obtain ⟨w', tx', rfl, hp, hP⟩ := h.ok hrun
    refine .of_ok hdb ?_
    rw [runM_commitSession, committed_nil hp]
    exact hP
  | error e =>
    refine .of_error hdb ?_
    rw [rollback_db]
    exact h.error hrun

theorem tenantSession_ends {tenantId : Option Uuid} {bypass : Bool} {body : Session → M α}
    {P : α → World → Prop} {E : Err → Database Row → Prop}
    (h : Ends env (body ⟨env.clock w.ticks⟩) (w.tick, boundTx env tenantId bypass :: txs)
      (Closes P txs) fun e s' => E e s'.1.db) :
    Ends env (tenantSession env tenantId bypass body) (w, txs)
      (fun a s' => ∃ w', s' = (w', txs) ∧ P a w') fun e s' => E e s'.1.db := by
  rcases hrun : runM env (body ⟨env.clock w.ticks⟩)
    (w.tick, boundTx env tenantId bypass :: txs) with ⟨r, s'⟩
  cases r with
  | ok a =>
    obtain ⟨w', tx', rfl, hp, hP⟩ := h.ok hrun
    have hsession := runM_tenantSession_ok hrun
    rw [flushed_nil hp, committed_nil hp] at hsession
    exact .of_ok hsession ⟨_, rfl, hP⟩
  | error e =>
    have hsession := @runM_tenantSession env α tenantId bypass body w txs
    rw [hrun] at hsession
    refine .of_error hsession ?_
    rw [rollback_db]
    exact h.error hrun

/-- The tenant in the context, or the exception where there is none. -/
theorem requireTenantId_ends {st : State} {Q : Uuid → State → Prop} {E : Err → State → Prop}
    (hnone : rc.tenantId = none → ∀ e, E e st) (hsome : ∀ tid, rc.tenantId = some tid → Q tid st) :
    Ends env (requireTenantId rc) st Q E := by
  unfold requireTenantId
  cases htid : rc.tenantId with
  | none => exact .raise (hnone htid _)
  | some tid => exact .ret (hsome tid htid)

/-- One waiting row is flushed, or the database refuses it. -/
theorem flush_one_ends {x : AnyRow Row} {Q : Unit → State → Prop} {E : Err → State → Prop}
    (hp : tx.pending = [])
    (hok : insertError schema w.db tx x.1 (schema.coerce x.1 x.2) = none →
      Q () (w, tx.push (inserting x) :: txs))
    (herror : ∀ e, insertError schema w.db tx x.1 (schema.coerce x.1 x.2) = some e →
      E (.db e) (w, tx :: txs)) :
    Ends env flush (w, withPending tx x :: txs) Q E := by
  obtain ⟨guc, writes, pending⟩ := tx
  cases hp
  cases hinsert : insertError schema w.db ⟨guc, writes, []⟩ x.1 (schema.coerce x.1 x.2) with
  | none =>
    refine .of_ok ((runM_flush w _ txs).trans ?_) (hok hinsert)
    simp only [flushed, withPending, List.nil_append, insertAll, hinsert]
    rfl
  | some e =>
    refine .of_error ((runM_flush w _ txs).trans ?_) (herror e hinsert)
    simp only [flushed, withPending, List.nil_append, insertAll, hinsert]
    rfl

/-- A row is added and is there, or the database refuses it. -/
theorem repoAdd_ends {t : Table} {r : Row t} {Q : Unit → State → Prop} {E : Err → State → Prop}
    (hp : tx.pending = [])
    (hok : insertError schema w.db tx t (schema.coerce t r) = none →
      Q () (w, tx.push (inserting ⟨t, r⟩) :: txs))
    (herror : ∀ e, insertError schema w.db tx t (schema.coerce t r) = some e →
      E (.db e) (w, tx :: txs)) :
    Ends env (repoAdd t r) (w, tx :: txs) Q E :=
  .bind_ok (runM_add w tx txs t r) (flush_one_ends hp hok herror)

/-- An event is published, whatever becomes of its row in the audit log. -/
theorem publish_ends {e : DomainEvent} {Q : Unit → State → Prop} {E : Err → State → Prop}
    (h : ∀ w', w.Logged w' → w.Older w' → Q () (w', txs)) :
    Ends env (publish env e) (w, txs) Q E := by
  obtain ⟨w', hrun, hlog, -⟩ := @runM_publish env e w txs
  obtain ⟨_, heq, -, holder⟩ := publish_ok hrun
  cases heq
  exact .of_ok hrun (h w' hlog holder)

/-- What the database says of a row it takes. -/
theorem insertError_checks {db : Database Row} {t : Table} {r : Row t}
    (h : insertError schema db tx t r = none) : columnError t r = none ∧
      uniqueError (view schema db tx) t r = none ∧ referenceError (view schema db tx) t r = none :=
  checkInsert_eq_none.mp (insertError_none h).2

/-! ## Settled keys -/

/-- Accounts have addresses of their own within a tenant, and none is soft-deleted. -/
structure AccountsSettled (w : World) : Prop where
  drawn : ∀ u ∈ w.db .users, u.id < w.nextUuid ∧ u.tenantId < w.nextUuid
  undeleted : ∀ u ∈ w.db .users, u.deletedAt = none
  emails : ((w.db .users).map fun u => (u.tenantId, u.email)).Nodup
  granted : ∀ ur ∈ w.db .userRoles, ur.userId < w.nextUuid

/-- Tenants have slugs of their own, and none is soft-deleted. -/
structure TenantsSettled (w : World) : Prop where
  drawn : ∀ t ∈ w.db .tenants, t.id < w.nextUuid
  undeleted : ∀ t ∈ w.db .tenants, t.deletedAt = none
  slugs : ((w.db .tenants).map (·.slug)).Nodup
  flags : ∀ tm ∈ w.db .tenantModules, tm.id < w.nextUuid ∧ tm.tenantId < w.nextUuid

/-- Roles and modules have identifiers and codes of their own. -/
structure CodesSettled (db : Database Row) : Prop where
  roleIds : ((db .roles).map (·.id)).Nodup
  roleCodes : ((db .roles).map fun r => (r.tenantId, r.code)).Nodup
  modules : ((db .modules).map (·.code)).Nodup
  moduleIds : ((db .modules).map (·.id)).Nodup

/-- What the checks before an insert rely on. -/
structure Settled (w : World) : Prop where
  accounts : AccountsSettled w
  tenants : TenantsSettled w
  codes : CodesSettled w.db
  courses : ∀ c ∈ w.db .courses, c.id < w.nextUuid

theorem AccountsSettled.same (h : AccountsSettled w) (holder : w.nextUuid ≤ w'.nextUuid)
    (husers : w'.db .users = w.db .users) (hgranted : w'.db .userRoles = w.db .userRoles) :
    AccountsSettled w' where
  drawn u hu := ((h.drawn u (husers ▸ hu)).imp fun hid => hid.trans_le holder)
    fun htid => htid.trans_le holder
  undeleted u hu := h.undeleted u (husers ▸ hu)
  emails := husers ▸ h.emails
  granted ur hur := (h.granted ur (hgranted ▸ hur)).trans_le holder

theorem TenantsSettled.same (h : TenantsSettled w) (holder : w.nextUuid ≤ w'.nextUuid)
    (htenants : w'.db .tenants = w.db .tenants)
    (hflags : w'.db .tenantModules = w.db .tenantModules) : TenantsSettled w' where
  drawn t ht := (h.drawn t (htenants ▸ ht)).trans_le holder
  undeleted t ht := h.undeleted t (htenants ▸ ht)
  slugs := htenants ▸ h.slugs
  flags tm htm := ((h.flags tm (hflags ▸ htm)).imp fun hid => hid.trans_le holder)
    fun htid => htid.trans_le holder

theorem CodesSettled.same {db db' : Database Row} (h : CodesSettled db)
    (hroles : db' .roles = db .roles) (hmodules : db' .modules = db .modules) :
    CodesSettled db' where
  roleIds := hroles ▸ h.roleIds
  roleCodes := hroles ▸ h.roleCodes
  modules := hmodules ▸ h.modules
  moduleIds := hmodules ▸ h.moduleIds

/-- Changes to the courses only. -/
theorem Settled.courses_changed (h : Settled w) (holder : w.nextUuid ≤ w'.nextUuid)
    (hsame : ∀ t, t ≠ .courses → t ≠ .auditLogs → w'.db t = w.db t)
    (hcourses : ∀ c ∈ w'.db .courses, c.id < w'.nextUuid) : Settled w' where
  accounts := h.accounts.same holder (hsame .users (by decide) (by decide))
    (hsame .userRoles (by decide) (by decide))
  tenants := h.tenants.same holder (hsame .tenants (by decide) (by decide))
    (hsame .tenantModules (by decide) (by decide))
  codes := h.codes.same (hsame .roles (by decide) (by decide))
    (hsame .modules (by decide) (by decide))
  courses := hcourses

/-- A refused operation leaves the keys settled. -/
theorem Settled.same (h : Settled w) (holder : w.nextUuid ≤ w'.nextUuid) (hdb : w'.db = w.db) :
    Settled w' := by
  refine h.courses_changed holder (fun t _ _ => congrFun hdb t) fun c hc => ?_
  exact (h.courses c (hdb ▸ hc)).trans_le holder

/-! ## Courses -/

/-- A request of a tenant: the context and the session are the tenant's. -/
structure Called (env : Env) (bound rc : RequestContext) (db : Database Row) (tid : Uuid) :
    Prop where
  rls : env.settings.enableRowLevelSecurity = true
  session : bound.tenantId = some tid
  context : rc.tenantId = some tid
  tenant : ∃ t ∈ db .tenants, t.id = tid

/-- The slug is taken by a course that the check finds, or by none, and the row is valid. -/
def CourseCreate.Proceeds (data : CourseCreate) (db : Database Row) (tid : Uuid) : Prop :=
  (∃ c ∈ db .courses, c.tenantId = tid ∧ c.slug = data.slug ∧ c.deletedAt = none) ∨
    data.Valid db ∧ ∀ c ∈ db .courses, c.tenantId = tid → c.slug ≠ data.slug

theorem Called.policy {db : Database Row} (h : Called env bound rc db tid) {t : Table} {r : Row t}
    (hr : tenantOf t r = some tid) :
    schema.policy (boundTx env bound.tenantId bound.isSuperadmin).guc t r = true :=
  bound_policy h.rls h.session hr

/-- A valid row whose slug is free is taken. -/
theorem course_inserted {data : CourseCreate} (hset : Settled w)
    (hcalled : Called env bound rc w.db tid) (hvalid : data.Valid w.db)
    (hfree : ∀ c ∈ w.db .courses, c.tenantId = tid → c.slug ≠ data.slug) :
    insertError schema w.db (boundTx env bound.tenantId bound.isSuperadmin) .courses
      (schema.coerce .courses (data.row tid w.nextUuid s.startedAt)) = none := by
  refine insertError_eq_none (hcalled.policy rfl) (hvalid.fits _ _ _) ?_ ?_
  · rw [view_nil schema w.db rfl, uniqueError_courses]
    exact ⟨fun c hc => (hset.courses c hc).ne, hfree⟩
  · rw [view_nil schema w.db rfl, referenceError_courses]
    exact ⟨hcalled.tenant, hvalid.category⟩

/-- A creation of a course: the course is stored, or nothing is. -/
theorem createCourse_ends {data : CourseCreate} (hset : Settled w) :
    Ends env (createCourse env rc s data) (w, [boundTx env bound.tenantId bound.isSuperadmin])
      (Closes (fun c w' => Settled w' ∧ c.slug = data.slug ∧
        w'.db .courses = w.db .courses ++ [schema.coerce .courses c]) [])
      fun e s' => s'.1.db = w.db ∧
        ((∃ tid, Called env bound rc w.db tid ∧ data.Proceeds w.db tid) → IsApp e) := by
  unfold createCourse
  refine .bind (requireTenantId_ends (fun hnone e => ⟨rfl, ?_⟩) fun tid htid => ?_)
  · rintro ⟨tid, hcalled, -⟩
    cases hnone.symm.trans hcalled.context
  refine .bind_ok (runM_query w _ [] .courses _) ?_
  by_cases hrows : (seen w (boundTx env bound.tenantId bound.isSuperadmin) .courses).filter
      (fun r => inScope rc .courses r && decide (r.slug = data.slug)) = []
  · rw [if_neg (not_not.mpr hrows)]
    refine .bind_ok (runM_uuid4 w _) ?_
    refine .bind (repoAdd_ends rfl (fun hinsert => ?_) fun e hinsert => ⟨rfl, ?_⟩)
    · refine .bind (publish_ends fun w₁ hlog holder => .ret ?_)
      have hcourses : view schema w₁.db ((boundTx env bound.tenantId bound.isSuperadmin).push
            (inserting ⟨.courses, data.row tid w.nextUuid s.startedAt⟩)) .courses =
          w.db .courses ++ [schema.coerce .courses (data.row tid w.nextUuid s.startedAt)] := by
        rw [view_push, view_nil schema w₁.db rfl, inserting, Write.apply_insert,
          hlog .courses (by decide)]
      have hnext : w.nextUuid < w₁.nextUuid := Nat.lt_of_succ_le holder.uuid
      refine .intro rfl ⟨?_, rfl, hcourses⟩
      refine hset.courses_changed hnext.le (fun t ht hlogs => ?_) fun c hc => ?_
      · show view schema w₁.db _ t = _
        rw [view_push, view_nil schema w₁.db rfl, Write.apply_other (Ne.symm ht), hlog t hlogs]
      · rcases List.mem_append.mp ((congrArg (c ∈ ·) hcourses).mp hc) with hc | hc
        · exact (hset.courses c hc).trans hnext
        · rw [List.mem_singleton.mp hc]
          exact hnext
    · rintro ⟨tid', hcalled, hproceeds⟩
      obtain rfl : tid = tid' := Option.some.inj (htid.symm.trans hcalled.context)
      obtain ⟨c, hc, htenant, hslug, hlive⟩ | ⟨hvalid, hfree⟩ := hproceeds
      · -- the check would have found the course
        have hmem : c ∈ (seen w (boundTx env bound.tenantId bound.isSuperadmin) .courses).filter
            (fun r => inScope rc .courses r && decide (r.slug = data.slug)) := by
          refine List.mem_filter.mpr ⟨mem_visible.mpr ⟨hc, hcalled.policy (congrArg some htenant)⟩, ?_⟩
          rw [Bool.and_eq_true, inScope_iff htid (by decide), decide_eq_true_iff]
          exact ⟨⟨hlive, congrArg some htenant⟩, hslug⟩
        rw [hrows] at hmem
        cases hmem
      · cases (course_inserted hset hcalled hvalid hfree).symm.trans hinsert
  · rw [if_pos hrows]
    exact .raise ⟨rfl, fun _ => ⟨_, _, _, rfl⟩⟩

/-- A lookup returns or raises, and the rows are as before. -/
theorem quiet_ends {p : M α} (h : Quiet env p) {Q : α → State → Prop} {E : Err → State → Prop}
    (hok : ∀ a w', w.Still w' → w.Older w' → Q a (w', txs))
    (herror : ∀ e w', w.Still w' → E e (w', txs)) : Ends env p (w, txs) Q E := by
  obtain ⟨w', hrun, hstill, holder⟩ := h.run w txs
  rcases hr : (runM env p (w, txs)).1 with e | a
  · rw [hr] at hrun
    exact .of_error hrun (herror e w' hstill)
  · rw [hr] at hrun
    exact .of_ok hrun (hok a w' hstill holder)

/-- A row is rewritten under its identifier, or nothing is. -/
theorem rewrite_ends {t : Table} {id : Uuid} {f : Row t → Row t} {Q : Unit → State → Prop}
    {E : Err → State → Prop}
    (hok : ∀ old, target schema w.db tx t [id] (fun _ => true) = some old →
      updateError schema w.db tx t old (schema.coerce t (touch s.startedAt t (f old))) = none →
      Q () (w, tx.push (.update t [id] (schema.coerce t (touch s.startedAt t (f old)))) :: txs))
    (hgone : target schema w.db tx t [id] (fun _ => true) = none →
      E (.unhandled .staleData) (w, tx :: txs))
    (hrefused : ∀ old d, target schema w.db tx t [id] (fun _ => true) = some old →
      updateError schema w.db tx t old (schema.coerce t (touch s.startedAt t (f old))) = some d →
      E (.db d) (w, tx :: txs)) : Ends env (updateRow s t id f) (w, tx :: txs) Q E := by
  have hrun := @runM_updateRow env s t id f w tx txs
  cases htarget : target schema w.db tx t [id] (fun _ => true) with
  | none =>
    rw [htarget] at hrun
    exact .of_error hrun (hgone htarget)
  | some old =>
    rw [htarget] at hrun
    dsimp only at hrun
    cases hupdate : updateError schema w.db tx t old
        (schema.coerce t (touch s.startedAt t (f old))) with
    | some e =>
      rw [hupdate] at hrun
      exact .of_error hrun (hrefused old e htarget hupdate)
    | none =>
      rw [hupdate] at hrun
      exact .of_ok hrun (hok old htarget hupdate)

/-- A course is rewritten under its identifier, or nothing is. -/
theorem updateRow_ends {id : Uuid} {f : Course → Course} (hf : ∀ c, (f c).id = c.id)
    (hset : Settled w) (hw : tx.writes = []) (hp : tx.pending = []) :
    Ends env (updateRow s .courses id f) (w, tx :: txs) (Closes (fun _ w' => Settled w') txs)
      fun _ s' => s'.1.db = w.db := by
  refine rewrite_ends (fun old htarget _ => .intro hp ?_) (fun _ => rfl) fun _ _ _ _ => rfl
  refine hset.courses_changed (le_refl _) (fun t ht _ => ?_) fun c hc => ?_
  · show view schema w.db _ t = _
    rw [view_push, view_nil schema w.db hw, Write.apply_other (Ne.symm ht)]
  · replace hc : c ∈ view schema w.db _ .courses := hc
    rw [view_push, view_nil schema w.db hw, Write.apply_update] at hc
    obtain ⟨c', hc', rfl⟩ := List.mem_map.mp hc
    obtain ⟨hold, -⟩ := target_some htarget
    rw [view_nil schema w.db hw] at hold
    split
    · exact (hf old).trans_lt (hset.courses old hold)
    · exact hset.courses c' hc'

/-- A refused or void operation leaves the keys settled. -/
theorem closes_unchanged (hset : Settled w) (hw : tx.writes = []) (hp : tx.pending = [])
    {a : α} (hstill : w.Still w') (holder : w.Older w') :
    Closes (fun _ w' => Settled w') txs a (w', tx :: txs) := by
  refine .intro hp (hset.same holder.uuid ?_)
  show view schema w'.db tx = w.db
  rw [view_nil schema w'.db hw, hstill.db]

/-- An update of a course keeps the keys settled. -/
theorem updateCourse_ends {courseId : Uuid} {data : CourseUpdate} (hset : Settled w) :
    Ends env (updateCourse rc s courseId data)
      (w, [boundTx env bound.tenantId bound.isSuperadmin]) (Closes (fun _ w' => Settled w') [])
      fun _ s' => s'.1.db = w.db := by
  unfold updateCourse
  refine .bind (quiet_ends Quiet.repoGetOr404 (fun course w₁ hstill holder => ?_)
    fun e w₁ hstill => hstill.db)
  have hdate : Quiet env (publicationDate course data) := by
    unfold publicationDate
    split
    · exact Quiet.now.bind fun _ => Quiet.pure _
    · exact Quiet.pure _
  refine .bind (quiet_ends hdate (fun publishedAt w₂ hstill₂ holder₂ => ?_)
    fun e w₂ hstill₂ => (hstill.trans hstill₂).db)
  replace hstill := hstill.trans hstill₂
  replace holder := holder.trans holder₂
  cases data.nullColumn with
  | some column => exact .raise hstill.db
  | none =>
    by_cases hchanged : { data.apply course with publishedAt := publishedAt } = course
    · dsimp only
      rw [if_pos hchanged]
      exact .ret (closes_unchanged hset rfl rfl hstill holder)
    · dsimp only
      rw [if_neg hchanged]
      have hupdate := @updateRow_ends env w₂ (boundTx env bound.tenantId bound.isSuperadmin) [] s
        courseId (fun c => { data.apply c with publishedAt := publishedAt }) (fun _ => rfl)
        (hset.same holder.uuid hstill.db) rfl rfl
      refine .bind (hupdate.mono (fun _ s' hcloses => .ret hcloses) fun e s' hdb => ?_)
      exact hdb.trans hstill.db

/-- A deletion of a course keeps the keys settled. -/
theorem deleteCourse_ends {courseId : Uuid} (hset : Settled w) :
    Ends env (deleteCourse rc s courseId) (w, [boundTx env bound.tenantId bound.isSuperadmin])
      (Closes (fun _ w' => Settled w') []) fun _ s' => s'.1.db = w.db := by
  unfold deleteCourse
  refine .bind (quiet_ends Quiet.repoGetOr404 (fun course w₁ hstill holder => ?_)
    fun e w₁ hstill => hstill.db)
  have hupdate := @updateRow_ends env w₁ (boundTx env bound.tenantId bound.isSuperadmin) [] s
    course.id (fun c => { c with deletedAt := some s.startedAt }) (fun _ => rfl)
    (hset.same holder.uuid hstill.db) rfl rfl
  exact hupdate.mono (fun _ _ hcloses => hcloses) fun e s' hdb => hdb.trans hstill.db

/-! ## Accounts -/

/-- The accounts after one has joined. -/
theorem AccountsSettled.join (h : AccountsSettled w) {user : User}
    (holder : w.nextUuid ≤ w'.nextUuid) (hid : user.id < w'.nextUuid)
    (htenant : user.tenantId < w'.nextUuid) (hlive : user.deletedAt = none)
    (hemail : ∀ u ∈ w.db .users, u.tenantId = user.tenantId → u.email ≠ user.email)
    (husers : w'.db .users = w.db .users ++ [user])
    (hgranted : ∀ ur ∈ w'.db .userRoles, ur ∈ w.db .userRoles ∨ ur.userId = user.id) :
    AccountsSettled w' := by
  have hmem : ∀ u ∈ w'.db .users, u ∈ w.db .users ∨ u = user := by
    intro u hu
    rw [husers, List.mem_append, List.mem_singleton] at hu
    exact hu
  constructor
  · intro u hu
    rcases hmem u hu with hu | rfl
    · exact ⟨(h.drawn u hu).1.trans_le holder, (h.drawn u hu).2.trans_le holder⟩
    · exact ⟨hid, htenant⟩
  · intro u hu
    rcases hmem u hu with hu | rfl
    · exact h.undeleted u hu
    · exact hlive
  · rw [husers, List.map_append, List.nodup_append]
    refine ⟨h.emails, List.nodup_singleton _, ?_⟩
    rintro key hkey key' hkey' rfl
    obtain ⟨u, hu, rfl⟩ := List.mem_map.mp hkey
    obtain ⟨htenant, hsame⟩ := Prod.mk.inj (List.mem_singleton.mp hkey')
    exact hemail u hu htenant hsame
  · intro ur hur
    rcases hgranted ur hur with hur | huser
    · exact (h.granted ur hur).trans_le holder
    · rw [huser]
      exact hid

/-- The lookup of an address finds the tenant's account, or there is none. -/
theorem getByEmail_ends {email : String} {Q : Option LoadedUser → State → Prop}
    {E : Err → State → Prop} (hset : Settled w) (htid : rc.tenantId = some tid)
    (hw : tx.writes = [])
    (hfound : ∀ u : LoadedUser, u.user ∈ w.db .users → u.user.tenantId = tid →
      u.user.email = env.lower email → Q (some u) (w, tx :: txs))
    (hnone : (∀ u ∈ w.db .users, schema.policy tx.guc .users u = true → u.tenantId = tid →
      u.email ≠ env.lower email) → Q none (w, tx :: txs)) :
    Ends env (getByEmail env rc email) (w, tx :: txs) Q E := by
  have hrun := @runM_findUser env rc (fun u => decide (u.email = env.lower email)) w tx txs
  have hrows : (usersIn (seen w tx) rc fun u => decide (u.email = env.lower email)).map (·.user) =
      (w.db .users).filter fun u => (inScope rc .users u && decide (u.email = env.lower email)) &&
        schema.policy tx.guc .users u := by
    rw [usersIn, loadUsersIn_map_user, seen, visible, view_nil schema w.db hw, List.filter_filter]
  have hcheck : ∀ u : User, inScope rc .users u = true ↔ u.deletedAt = none ∧ u.tenantId = tid := by
    intro u
    rw [inScope_iff htid (by decide)]
    exact and_congr_right fun _ => Option.some_inj
  have hone : (usersIn (seen w tx) rc fun u => decide (u.email = env.lower email)).length ≤ 1 := by
    rw [← List.length_map (·.user), hrows]
    refine @filter_one _ _ _ _ hset.accounts.emails _ (tid, env.lower email) fun u _ hp => ?_
    simp only [Bool.and_eq_true, decide_eq_true_iff, hcheck] at hp
    rw [hp.1.1.2, hp.1.2]
  obtain ⟨r, hr⟩ := scalar_of_length hone
  rw [hr] at hrun
  cases r with
  | some u =>
    have hmem : u.user ∈ (usersIn (seen w tx) rc fun u => decide (u.email = env.lower email)).map
        (·.user) := List.mem_map_of_mem (scalar_eq_some hr ▸ List.mem_singleton_self u)
    rw [hrows, List.mem_filter, Bool.and_eq_true, Bool.and_eq_true, decide_eq_true_iff,
      hcheck] at hmem
    exact .of_ok hrun (hfound u hmem.1 hmem.2.1.1.2 hmem.2.1.2)
  | none =>
    refine .of_ok hrun (hnone fun u hu hpolicy htenant hemail => ?_)
    rw [scalar_eq_none hr] at hrows
    have hmem := (List.filter_eq_nil_iff.mp hrows.symm) u hu
    simp [hcheck, hset.accounts.undeleted u hu, htenant, hemail, hpolicy] at hmem

/-- The roles of one code: at most one role of the tenant has it. -/
theorem getRoleByCode_ends {code : String} {Q : Option LoadedRole → State → Prop}
    {E : Err → State → Prop} (hset : Settled w) (htid : rc.tenantId = some tid)
    (hw : tx.writes = [])
    (h : ∀ r : Option LoadedRole, r.toList = rolesByCodeIn (seen w tx) rc code →
      Q r (w, tx :: txs)) :
    Ends env (getRoleByCode rc code) (w, tx :: txs) Q E := by
  have hrun : runM env (getRoleByCode rc code) (w, tx :: txs) =
      (scalar (rolesByCodeIn (seen w tx) rc code), (w, tx :: txs)) := runM_scalarOneOrNone _ _
  have hone : (rolesByCodeIn (seen w tx) rc code).length ≤ 1 := by
    rw [rolesByCodeIn, loadRolesIn, List.length_map, seen, visible, view_nil schema w.db hw,
      List.filter_filter]
    refine @filter_one _ _ _ _ hset.codes.roleCodes _ (tid, code) fun r _ hp => ?_
    simp only [Bool.and_eq_true, decide_eq_true_iff, inScope_iff htid (by decide : .roles ∈ _)] at hp
    rw [← hp.1.2, Option.some_inj.mp hp.1.1.2]
  obtain ⟨r, hr⟩ := scalar_of_length hone
  rw [hr] at hrun
  exact .of_ok hrun (h r (scalar_toList hr))

/-- Rows of `user_roles` for an account and different roles of the database are taken. -/
theorem roles_inserted {db : Database Row} {userId : Uuid} {roles : List LoadedRole}
    (huser : ∃ u ∈ view schema db tx .users, u.id = userId)
    (hroles : ∀ r ∈ roles, r.role ∈ view schema db tx .roles)
    (hnodup : (roles.map (·.role.id)).Nodup)
    (hnew : ∀ ur ∈ view schema db tx .userRoles, ur.userId = userId →
      ∀ r ∈ roles, ur.roleId ≠ r.role.id) :
    (insertAll db tx (roleRows userId roles)).1 = .ok () := by
  induction roles generalizing tx with
  | nil => rfl
  | cons r roles ih =>
    have hinsert : insertError schema db tx .userRoles
        (schema.coerce .userRoles (⟨userId, r.role.id⟩ : UserRole)) = none := by
      refine insertError_eq_none rfl rfl ?_ ?_
      · refine firstError_eq_none.mpr fun check hmem => ?_
        simp only [List.mem_cons, List.not_mem_nil, or_false] at hmem
        rcases hmem with rfl | rfl
        · rw [taken_eq_none, List.any_eq_false]
          intro ur hur hsame
          obtain ⟨hid, hrole⟩ : ur.userId = userId ∧ ur.roleId = r.role.id := by
            simpa [keyOf, schema, coerce] using hsame
          exact hnew ur hur hid r List.mem_cons_self hrole
        · rfl
      · rw [referenceError_userRoles]
        exact ⟨huser, r.role, hroles r List.mem_cons_self, rfl⟩
    show (insertAll db tx (⟨.userRoles, (⟨userId, r.role.id⟩ : UserRole)⟩ ::
      roleRows userId roles)).1 = _
    unfold insertAll
    rw [hinsert]
    rw [List.map_cons, List.nodup_cons] at hnodup
    refine ih ?_ (fun r' hr' => ?_) hnodup.2 fun ur hur hid r' hr' hrole => ?_
    · rw [view_push, Write.apply_other (by simp [inserting, Write.table])]
      exact huser
    · rw [view_push, Write.apply_other (by simp [inserting, Write.table])]
      exact hroles r' (List.mem_cons_of_mem _ hr')
    · rw [view_push, inserting, Write.apply_insert] at hur
      rcases List.mem_append.mp hur with hur | hur
      · exact hnew ur hur hid r' (List.mem_cons_of_mem _ hr') hrole
      · rw [List.mem_singleton.mp hur] at hrole
        exact hnodup.1 (List.mem_map.mpr ⟨r', hr', hrole.symm⟩)

/-- Roles of the database are granted to an account that has just been inserted. -/
theorem granted_inserted (hset : Settled w) {user : User} {roles : List LoadedRole}
    (hid : user.id = w.nextUuid) (hroles : ∀ r ∈ roles, r.role ∈ w.db .roles)
    (hnodup : (roles.map (·.role.id)).Nodup) :
    (insertAll w.db ((boundTx env bound.tenantId bound.isSuperadmin).push
      (inserting ⟨.users, user⟩)) (roleRows user.id roles)).1 = .ok () := by
  have hother : ∀ t, t ≠ .users → view schema w.db ((boundTx env bound.tenantId
      bound.isSuperadmin).push (inserting ⟨.users, user⟩)) t = w.db t := by
    intro t ht
    rw [view_push, view_nil schema w.db rfl, Write.apply_other (Ne.symm ht)]
  refine roles_inserted ⟨user, ?_, rfl⟩ (fun r hr => ?_) hnodup fun ur hur huser => ?_
  · rw [view_push, inserting, Write.apply_insert]
    exact List.mem_append_right _ (List.mem_singleton_self user)
  · rw [hother .roles (by decide)]
    exact hroles r hr
  · rw [hother .userRoles (by decide)] at hur
    exact absurd (huser.trans hid) (hset.accounts.granted ur hur).ne

/-- The name and every hash of the password fit their columns, and so does the address. -/
structure AccountStorable (env : Env) (email password fullName : String) : Prop
    extends AccountFits env password fullName where
  email : varchar 255 "email" (env.lower email) = none

theorem AccountStorable.columns {email password fullName : String}
    (h : AccountStorable env email password fullName) {user : User} {seed : Nat}
    (hemail : user.email = env.lower email) (hhash : user.hashedPassword = env.hash seed password)
    (hname : user.fullName = fullName) : columnError .users user = none := by
  refine firstError_eq_none.mpr fun check hmem => ?_
  simp only [List.mem_cons, List.not_mem_nil, or_false] at hmem
  rcases hmem with rfl | rfl | rfl
  · rw [hemail]
    exact h.email
  · rw [hhash]
    exact h.hash seed
  · rw [hname]
    exact h.name

/-- The address is taken in the tenant, or the account fits. -/
def AccountProceeds (env : Env) (email password fullName : String) (db : Database Row)
    (tid : Uuid) : Prop :=
  (∃ u ∈ db .users, u.tenantId = tid ∧ u.email = env.lower email) ∨
    AccountStorable env email password fullName

/-- An account of the tenant has the address. -/
def AddressTaken (env : Env) (email : String) (db : Database Row) (tid : Uuid) : Prop :=
  ∃ u ∈ db .users, u.tenantId = tid ∧ u.email = env.lower email

/-- An account that fits and whose address is free is taken. -/
theorem user_inserted (hset : Settled w) (hcalled : Called env bound rc w.db tid) {user : User}
    (hid : w.nextUuid ≤ user.id) (htenant : user.tenantId = tid)
    (hfits : columnError .users user = none)
    (hfree : ∀ u ∈ w.db .users, u.tenantId = tid → u.email ≠ user.email) :
    insertError schema w.db (boundTx env bound.tenantId bound.isSuperadmin) .users user = none := by
  refine insertError_eq_none (hcalled.policy (congrArg some htenant)) hfits ?_ ?_
  · rw [view_nil schema w.db rfl, uniqueError_users, htenant]
    exact ⟨fun u hu => ((hset.accounts.drawn u hu).1.trans_le hid).ne, hfree⟩
  · rw [view_nil schema w.db rfl, referenceError_users, htenant]
    exact hcalled.tenant

/-- Where the lookup found nobody, the account is taken. -/
theorem AccountProceeds.inserted {email password fullName : String} (hset : Settled w)
    (hlower : ∀ x, env.lower (env.lower x) = env.lower x) (hcalled : Called env bound rc w.db tid)
    (hproceeds : AccountProceeds env email password fullName w.db tid)
    (hnone : ∀ u ∈ w.db .users,
      schema.policy (boundTx env bound.tenantId bound.isSuperadmin).guc .users u = true →
        u.tenantId = tid → u.email ≠ env.lower (env.lower email))
    {user : User} {seed : Nat} (hid : w.nextUuid ≤ user.id) (htenant : user.tenantId = tid)
    (hemail : user.email = env.lower email) (hhash : user.hashedPassword = env.hash seed password)
    (hname : user.fullName = fullName) :
    insertError schema w.db (boundTx env bound.tenantId bound.isSuperadmin) .users user = none := by
  have hfree : ∀ u ∈ w.db .users, u.tenantId = tid → u.email ≠ env.lower email := by
    intro u hu hut
    rw [← hlower]
    exact hnone u hu (hcalled.policy (congrArg some hut)) hut
  obtain ⟨u, hu, hut, hue⟩ | hstorable := hproceeds
  · exact absurd hue (hfree u hu hut)
  · refine user_inserted hset hcalled hid htenant (hstorable.columns hemail hhash hname) ?_
    rw [hemail]
    exact hfree

/-- The transaction that has inserted an account and its roles. -/
def joinedTx (env : Env) (bound : RequestContext) (user : User) (roles : List LoadedRole) : Tx where
  guc := (boundTx env bound.tenantId bound.isSuperadmin).guc
  writes := inserting ⟨.users, user⟩ :: (roleRows user.id roles).map inserting
  pending := []

theorem joinedTx_eq (user : User) (roles : List LoadedRole) :
    joinedTx env bound user roles = accountTx env bound user (roles.map (·.role.id)) := by
  simp [joinedTx, accountTx, roleRows]

/-- An account that was taken, with roles, leaves the keys settled. -/
theorem account_closes (hset : Settled w) {user : User} {roles : List LoadedRole}
    (hinsert : insertError schema w.db (boundTx env bound.tenantId bound.isSuperadmin) .users
      user = none)
    (hid : user.id = w.nextUuid) (hlive : user.deletedAt = none)
    (hlog : ∀ t, t ≠ .auditLogs → w'.db t = w.db t) (hnext : w.nextUuid < w'.nextUuid) :
    Settled { w' with db := view schema w'.db (joinedTx env bound user roles) } ∧
      view schema w'.db (joinedTx env bound user roles) .users = w.db .users ++ [user] := by
  rw [joinedTx_eq]
  generalize roles.map (·.role.id) = granted
  obtain ⟨-, hunique, hrefers⟩ := insertError_checks hinsert
  rw [view_nil schema w.db rfl, uniqueError_users] at hunique
  rw [view_nil schema w.db rfl, referenceError_users] at hrefers
  obtain ⟨tenant, htenant, htid⟩ := hrefers
  obtain ⟨husers, hroles, hrest⟩ := @accountTx_view env bound w'.db user granted
  rw [hlog .users (by decide)] at husers
  rw [hlog .userRoles (by decide)] at hroles
  have hsame : ∀ t, t ≠ .users → t ≠ .userRoles → t ≠ .auditLogs →
      view schema w'.db (accountTx env bound user granted) t = w.db t :=
    fun t hu hr hl => (hrest t hu hr).trans (hlog t hl)
  refine ⟨⟨?_, ?_, ?_, ?_⟩, husers⟩
  · refine hset.accounts.join hnext.le (hid ▸ hnext) ?_ hlive hunique.2 husers fun ur hur => ?_
    · rw [← htid]
      exact (hset.tenants.drawn tenant htenant).trans hnext
    · rcases List.mem_append.mp ((congrArg (ur ∈ ·) hroles).mp hur) with hur | hur
      · exact .inl hur
      · obtain ⟨id, -, rfl⟩ := List.mem_map.mp hur
        exact .inr rfl
  · exact hset.tenants.same hnext.le (hsame .tenants (by decide) (by decide) (by decide))
      (hsame .tenantModules (by decide) (by decide) (by decide))
  · exact hset.codes.same (hsame .roles (by decide) (by decide) (by decide))
      (hsame .modules (by decide) (by decide) (by decide))
  · intro c hc
    replace hc : c ∈ w.db .courses := hsame .courses (by decide) (by decide) (by decide) ▸ hc
    exact (hset.courses c hc).trans hnext

/-- Rows are inserted if the first one is taken, and then the others. -/
theorem insertAll_cons {db : Database Row} {x : AnyRow Row} {xs : List (AnyRow Row)} :
    (insertAll db tx (x :: xs)).1 = .ok () ↔
      insertError schema db tx x.1 (schema.coerce x.1 x.2) = none ∧
        (insertAll db (tx.push (inserting x)) xs).1 = .ok () := by
  rw [insertAll]
  cases insertError schema db tx x.1 (schema.coerce x.1 x.2) with
  | none => simp
  | some e => simp

/-- The waiting rows are flushed, or the database refuses one. -/
theorem flush_ends {Q : Unit → State → Prop} {E : Err → State → Prop}
    (hok : (flushed w.db tx).1 = .ok () →
      Q () (w, ⟨tx.guc, tx.writes ++ tx.pending.map inserting, []⟩ :: txs))
    (herror : ∀ e tx', (flushed w.db tx).1 = .error e → E (.db e) (w, tx' :: txs)) :
    Ends env flush (w, tx :: txs) Q E := by
  have hrun := @runM_flush env w tx txs
  rcases hflush : flushed w.db tx with ⟨r, tx'⟩
  rw [hflush] at hrun hok herror
  cases r with
  | ok u =>
    obtain rfl := flushed_ok hflush
    exact .of_ok hrun (hok rfl)
  | error e => exact .of_error hrun (herror e tx' rfl)

theorem runM_addUser (user : User) (roles : List LoadedRole) (w : World) (tx : Tx)
    (txs : List Tx) : runM env (addUser user roles) (w, tx :: txs) =
      (.ok (), (w, ⟨tx.guc, tx.writes, tx.pending ++ ⟨.users, user⟩ :: roleRows user.id roles⟩ ::
        txs)) := by
  have hroles : ∀ (roles : List LoadedRole) (tx : Tx),
      runM env (Prog.forEach roles fun r => add .userRoles ⟨user.id, r.role.id⟩) (w, tx :: txs) =
        (.ok (), (w, ⟨tx.guc, tx.writes, tx.pending ++ roleRows user.id roles⟩ :: txs)) := by
    intro roles
    induction roles with
    | nil =>
      intro tx
      simp [roleRows, Prog.forEach, runM]
    | cons r roles ih =>
      intro tx
      refine (ih _).trans ?_
      simp [roleRows, execTx]
  refine (hroles roles _).trans ?_
  simp [execTx]

/-- Loaded roles are rows of the database, each once. -/
theorem loadRolesIn_rows {db db' : Database Row} (hset : CodesSettled db) {rows : List Role}
    (hrows : rows.Sublist (db .roles)) :
    (∀ r ∈ loadRolesIn db' rows, r.role ∈ db .roles) ∧
      ((loadRolesIn db' rows).map (·.role.id)).Nodup := by
  have hroles : (loadRolesIn db' rows).map (·.role) = rows := by
    rw [loadRolesIn, List.map_map]
    exact List.map_id _
  constructor
  · intro r hr
    have hmem : r.role ∈ (loadRolesIn db' rows).map (·.role) := List.mem_map_of_mem hr
    rw [hroles] at hmem
    exact hrows.subset hmem
  · have hids : (loadRolesIn db' rows).map (·.role.id) = rows.map (·.id) := by
      rw [← congrArg (List.map (·.id)) hroles, List.map_map]
      rfl
    rw [hids]
    exact hset.roleIds.sublist (hrows.map _)

theorem seen_roles (hw : tx.writes = []) (p : Role → Bool) :
    (((seen w tx) .roles).filter p).Sublist (w.db .roles) := by
  rw [seen, visible, view_nil schema w.db hw]
  exact List.filter_sublist.trans List.filter_sublist

/-- A registration: the account is stored, or nothing is. -/
theorem register_ends {data : RegisterRequest} (hset : Settled w)
    (hlower : ∀ x, env.lower (env.lower x) = env.lower x) :
    Ends env (register env rc s data) (w, [boundTx env bound.tenantId bound.isSuperadmin])
      (Closes (fun out w' => Settled w' ∧ out.user.email = env.lower data.email ∧
        w'.db .users = w.db .users ++ [out.user]) [])
      fun e s' => s'.1.db = w.db ∧
        ((∃ tid, Called env bound rc w.db tid ∧
          AccountProceeds env data.email data.password data.fullName w.db tid) → IsApp e) := by
  unfold register
  refine .bind (requireTenantId_ends (fun hnone e => ⟨rfl, ?_⟩) fun tid htid => ?_)
  · rintro ⟨tid, hcalled, -⟩
    cases hnone.symm.trans hcalled.context
  refine .bind (getByEmail_ends hset htid rfl (fun u _ _ _ => ?_) fun hfree => ?_)
  · exact .raise ⟨rfl, fun _ => ⟨_, _, _, rfl⟩⟩
  refine .bind (getRoleByCode_ends hset htid rfl fun student hstudent => ?_)
  refine .bind_ok (show runM env (hashPassword env data.password) (w, _) = _ from rfl) ?_
  refine .bind_ok (runM_uuid4 _ _) ?_
  refine .bind_ok (runM_addUser _ _ _ _ _) ?_
  refine .bind (flush_ends (fun hflush => ?_) fun e tx' hflush => ⟨rfl, ?_⟩)
  · refine .bind (publish_ends fun w₁ hlog holder => .ret ?_)
    obtain ⟨hsettled, husers⟩ := account_closes hset (insertAll_cons.mp hflush).1 rfl rfl hlog
      (Nat.lt_of_succ_le holder.uuid)
    exact .intro rfl ⟨hsettled, rfl, husers⟩
  · rintro ⟨tid', hcalled, hproceeds⟩
    obtain rfl : tid = tid' := Option.some.inj (htid.symm.trans hcalled.context)
    have hrows : (∀ r ∈ student.toList, r.role ∈ w.db .roles) ∧
        (student.toList.map (·.role.id)).Nodup := by
      rw [hstudent]
      exact loadRolesIn_rows hset.codes (seen_roles rfl _)
    have hall : (insertAll w.db (boundTx env bound.tenantId bound.isSuperadmin)
        (⟨.users, data.user env s tid w.nextUuid (env.hash w.draws data.password)⟩ ::
          roleRows w.nextUuid student.toList)).1 = .ok () :=
      insertAll_cons.mpr
        ⟨hproceeds.inserted hset hlower hcalled hfree (le_refl _) rfl rfl rfl rfl,
          granted_inserted hset rfl hrows.1 hrows.2⟩
    cases hall.symm.trans hflush

theorem runM_rolesOf (codes : List String) (w : World) (tx : Tx) (txs : List Tx) :
    runM env (rolesOf rc codes) (w, tx :: txs) =
      (.ok (askedRoles (seen w tx) rc codes), (w, tx :: txs)) := by
  unfold rolesOf askedRoles
  by_cases hcodes : codes = []
  · rw [if_pos hcodes, if_pos hcodes]
    rfl
  · rw [if_neg hcodes, if_neg hcodes]
    rfl

/-- A new account has no roles to lose; those it gets are inserted, or the database refuses
one. -/
theorem assignRoles_ends {user : User} {roles : List LoadedRole} {Q : Unit → State → Prop}
    {E : Err → State → Prop}
    (hok : (insertAll w.db tx (roleRows user.id roles)).1 = .ok () →
      Q () (w, { tx with writes := tx.writes ++ (roleRows user.id roles).map inserting } :: txs))
    (herror : ∀ e tx', (insertAll w.db tx (roleRows user.id roles)).1 = .error e →
      E (.db e) (w, tx' :: txs)) :
    Ends env (assignRoles ⟨user, []⟩ roles) (w, tx :: txs) Q E := by
  have hnew : roles.filter (fun r => ([] : List LoadedRole).all fun r' => r'.role.id ≠ r.role.id) =
      roles := List.filter_eq_self.mpr fun _ _ => rfl
  have hrun : runM env (assignRoles ⟨user, []⟩ roles) (w, tx :: txs) =
      ((insertAll w.db tx (roleRows user.id roles)).1.mapError .db,
        (w, (insertAll w.db tx (roleRows user.id roles)).2 :: txs)) := by
    unfold assignRoles
    show runM env (Prog.forEach (roles.filter _) _) _ = _
    rw [hnew, ← runM_insertAll, roleRows, Prog.forEach_map]
  rcases hinsert : insertAll w.db tx (roleRows user.id roles) with ⟨r, tx'⟩
  rw [hinsert] at hrun hok herror
  cases r with
  | ok u =>
    obtain rfl := insertAll_ok hinsert
    exact .of_ok hrun (hok rfl)
  | error e => exact .of_error hrun (herror e tx' rfl)

/-- The roles that a new account asks for are roles of the database, each once. -/
theorem askedRoles_rows (hset : Settled w) (hw : tx.writes = []) (user : User)
    (codes : List String) :
    (∀ r ∈ askedRoles (seen w (tx.push (inserting ⟨.users, user⟩))) rc codes,
        r.role ∈ w.db .roles) ∧
      ((askedRoles (seen w (tx.push (inserting ⟨.users, user⟩))) rc codes).map
        (·.role.id)).Nodup := by
  unfold askedRoles
  split
  · exact ⟨by simp, List.nodup_nil⟩
  · refine loadRolesIn_rows hset.codes ?_
    rw [@seen_push w tx (inserting ⟨.users, user⟩) .roles (by simp [inserting, Write.table])]
    exact seen_roles hw _

/-- A creation of a user: the account is stored, or nothing is. A payload that fits is refused
for its address only. -/
theorem createUser_ends {data : AdminUserCreate} (hset : Settled w)
    (hlower : ∀ x, env.lower (env.lower x) = env.lower x) :
    Ends env (createUser env rc s data) (w, [boundTx env bound.tenantId bound.isSuperadmin])
      (Closes (fun out w' => Settled w' ∧ out.user.email = env.lower data.email ∧
        w'.db .users = w.db .users ++ [out.user]) [])
      fun e s' => s'.1.db = w.db ∧
        ((∃ tid, Called env bound rc w.db tid ∧
          AccountProceeds env data.email data.password data.fullName w.db tid) → IsApp e) ∧
        ∀ tid, Called env bound rc w.db tid →
          AccountStorable env data.email data.password data.fullName →
          AddressTaken env data.email w.db tid := by
  unfold createUser
  refine .bind (requireTenantId_ends (fun hnone e => ⟨rfl, ?_, fun tid hcalled => ?_⟩)
    fun tid htid => ?_)
  · rintro ⟨tid, hcalled, -⟩
    cases hnone.symm.trans hcalled.context
  · cases hnone.symm.trans hcalled.context
  refine .bind (getByEmail_ends hset htid rfl (fun u hu htenant hemail => ?_) fun hfree => ?_)
  · refine .raise ⟨rfl, fun _ => ⟨_, _, _, rfl⟩, fun tid' hcalled _ => ⟨u.user, hu, ?_, ?_⟩⟩
    · exact htenant.trans (Option.some.inj (htid.symm.trans hcalled.context))
    · exact hemail.trans (hlower _)
  refine .bind_ok (show runM env (hashPassword env data.password) (w, _) = _ from rfl) ?_
  refine .bind_ok (runM_uuid4 _ _) ?_
  refine .bind (repoAdd_ends rfl (fun hinsert => ?_) fun e hinsert => ?_)
  · refine .bind_ok (runM_rolesOf _ _ _ _) ?_
    obtain ⟨hrows, hnodup⟩ := @askedRoles_rows w (boundTx env bound.tenantId bound.isSuperadmin) rc
      hset rfl (data.user env s tid w.nextUuid (env.hash w.draws data.password)) data.roleCodes
    refine .bind (assignRoles_ends (fun _ => ?_) fun e tx' hgranted => ?_)
    · refine .bind (publish_ends fun w₁ hlog holder => .ret ?_)
      obtain ⟨hsettled, husers⟩ := account_closes hset hinsert rfl rfl hlog
        (Nat.lt_of_succ_le holder.uuid)
      exact .intro rfl ⟨hsettled, rfl, husers⟩
    · cases (granted_inserted hset rfl hrows hnodup).symm.trans hgranted
  · have hrefused : ∀ tid', Called env bound rc w.db tid' →
        ¬ AccountProceeds env data.email data.password data.fullName w.db tid' := by
      intro tid' hcalled hproceeds
      obtain rfl : tid = tid' := Option.some.inj (htid.symm.trans hcalled.context)
      have hnone : insertError schema w.db (boundTx env bound.tenantId bound.isSuperadmin) .users
          (data.user env s tid w.nextUuid (env.hash w.draws data.password)) = none :=
        hproceeds.inserted hset hlower hcalled hfree (le_refl _) rfl rfl rfl rfl
      cases hnone.symm.trans hinsert
    refine ⟨rfl, ?_, fun tid' hcalled hstorable => ?_⟩
    · rintro ⟨tid', hcalled, hproceeds⟩
      exact absurd hproceeds (hrefused tid' hcalled)
    · exact absurd (.inr hstorable) (hrefused tid' hcalled)

end LmsBackend
