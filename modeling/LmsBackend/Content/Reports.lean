import LmsBackend.Authority.Students
import LmsBackend.Content.Dashboard
import LmsBackend.Content.Paging

/-!
# The tenant report and the listings

`ReportService.tenant_report` counts the rows of a model, whatever their `deleted_at`;
the listings of the repositories leave out what was soft deleted.

- `ReportAgrees env w tid`: the report of a tenant counts what its listings show.
- `Run.users_live`: accounts are never soft deleted.
- `report_agrees_iff`: over every run, the two agree until a course is soft deleted.
-/

namespace LmsBackend

open Mvcc

variable {env : Env} {rc : RequestContext} {w w₀ : World} {tid : Uuid} {h : List Exchange}
  {Ok : List Exchange → World → Request → Prop}

/-- In every context of the tenant, the users and courses of the report are as many as the
listings without filters have in total. -/
def ReportAgrees (env : Env) (w : World) (tid : Uuid) : Prop :=
  ∀ rc : RequestContext, rc.tenantId = some tid → ∃ report users courses s₁ s₂ s₃,
    runM env (tenantReport env rc) (w, [requestTx env rc]) = (.ok report, s₁) ∧
    runM env (listUserRows env rc {}) (w, [requestTx env rc]) = (.ok users, s₂) ∧
    runM env (listCourses env rc {} false) (w, [requestTx env rc]) = (.ok courses, s₃) ∧
    report.users = users.2 ∧ report.courses = courses.2

/-! ## What the queries count -/

/-- The report counts the rows that the session sees. -/
theorem runM_tenantReport (htid : rc.tenantId = some tid) (tx : Tx) :
    ∃ report s', runM env (tenantReport env rc) (w, [tx]) = (.ok report, s') ∧
      report.users = (seen w tx .users).length ∧ report.courses = (seen w tx .courses).length := by
  obtain ⟨w₁, hcodes, hstill, -⟩ := (@Quiet.enabledCodes env tid).run w [tx]
  rw [runM_enabledCodes] at hcodes
  have hcount : ∀ t : Table, (seen w₁ tx t).filter (fun _ => true) = seen w tx t := by
    intro t
    rw [List.filter_true, hstill.seen]
  refine ⟨_, _, (runM_bind_ok (runM_requireTenantId htid _)).trans
    ((runM_bind_ok hcodes).trans rfl), ?_, ?_⟩
  · exact congrArg List.length (hcount .users)
  · exact congrArg List.length (hcount .courses)

/-- The first page of a listing has the number of all rows that match. -/
theorem runM_total (l : Listing) {key : SortKey (Row l.table)} (hkey : l.key env = some key)
    (hfits : ({ l.params with page := 1 } : PageParams).Fits)
    (hall : ∀ r, l.condition env r = true) (tx : Tx) :
    ∃ rows s', runM env (l.rows env rc 1) (w, [tx]) = (.ok rows, s') ∧
      rows.2 = (scopeRows rc w tx l.table).length := by
  obtain ⟨s', hrun⟩ := @runM_listing env rc w tx [] l key hkey 1
  rw [sent_fits hfits] at hrun
  refine ⟨_, s', hrun, ?_⟩
  show (l.matching env rc w tx).length = _
  rw [Listing.matching, List.filter_eq_self.mpr fun r _ => hall r]

theorem fits_default : ({} : PageParams).Fits := ⟨by decide, by decide⟩

theorem runM_users_total (tx : Tx) :
    ∃ users s', runM env (listUserRows env rc {}) (w, [tx]) = (.ok users, s') ∧
      users.2 = (scopeRows rc w tx .users).length := by
  have hall : ∀ u, (Listing.users {}).condition env u = true := by
    intro u
    simp only [Listing.condition, truthy_none]
  obtain ⟨rows, s', hrun, htotal⟩ :=
    @runM_total env rc w (.users {}) none rfl fits_default hall tx
  obtain ⟨users, s₁, husers, hret⟩ := Prog.run_bind_eq_ok hrun
  cases hret
  exact ⟨users, _, husers, htotal⟩

theorem runM_courses_total (tx : Tx) :
    ∃ courses s', runM env (listCourses env rc {} false) (w, [tx]) = (.ok courses, s') ∧
      courses.2 = (scopeRows rc w tx .courses).length := by
  have hkey : (Listing.courses {} false).key env =
      some (some (fun c : Course => .number c.createdAt, true)) := by
    simp only [Listing.key, truthy_none]
    rfl
  have hall : ∀ c, (Listing.courses {} false).condition env c = true := by
    intro c
    simp [Listing.condition, filteredCourse, truthy_none]
  exact @runM_total env rc w (.courses {} false) _ hkey fits_default hall tx

/-- Every row that the session sees is in scope, unless one of the tenant was soft deleted.
Without row-level security in the settings, the session sees none. -/
theorem scope_length_iff (htid : rc.tenantId = some tid) {t : Table} (ht : t ∈ rlsTables) :
    (seen w (requestTx env rc) t).length = (scopeRows rc w (requestTx env rc) t).length ↔
      (env.settings.enableRowLevelSecurity = true →
        ∀ r ∈ w.db t, tenantOf t r = some tid → deletedAtOf t r = none) := by
  rw [eq_comm, scopeRows, List.length_filter_eq_length_iff]
  constructor
  · intro hall hrls r hr htenant
    have hseen : r ∈ seen w (requestTx env rc) t := by
      rw [seen_tenant hrls htid ht]
      exact List.mem_filter.mpr ⟨hr, decide_eq_true htenant⟩
    have hscope := hall r hseen
    rw [inScope, Bool.and_eq_true] at hscope
    exact Option.isNone_iff_eq_none.mp hscope.1
  · intro hlive r hr
    by_cases hrls : env.settings.enableRowLevelSecurity = true
    · obtain ⟨hmem, tid', htid', htenant⟩ := mem_seen_rls ht hr
      cases htid.symm.trans htid'
      simp [inScope, htid, htenant, hlive hrls r hmem htenant]
    · -- nothing is bound, so that the policies of the database hide every row
      have hpolicy := ((mem_seen rfl).mp hr).2
      rw [requestTx, boundTx, if_neg hrls] at hpolicy
      obtain ⟨tid', hbound, -⟩ := policy_tenant ht rfl hpolicy
      cases hbound

/-- The report of one state. -/
theorem reportAgrees_iff : ReportAgrees env w tid ↔
    (env.settings.enableRowLevelSecurity = true →
      (∀ u ∈ w.db .users, u.tenantId = tid → u.deletedAt = none) ∧
      ∀ c ∈ w.db .courses, c.tenantId = tid → c.deletedAt = none) := by
  have husers : ∀ {rc : RequestContext}, rc.tenantId = some tid →
      ((seen w (requestTx env rc) .users).length =
        (scopeRows rc w (requestTx env rc) .users).length ↔
        (env.settings.enableRowLevelSecurity = true →
          ∀ u ∈ w.db .users, u.tenantId = tid → u.deletedAt = none)) := by
    intro rc htid
    simpa [tenantOf, deletedAtOf] using
      @scope_length_iff env rc w tid htid .users (by simp [rlsTables])
  have hcourses : ∀ {rc : RequestContext}, rc.tenantId = some tid →
      ((seen w (requestTx env rc) .courses).length =
        (scopeRows rc w (requestTx env rc) .courses).length ↔
        (env.settings.enableRowLevelSecurity = true →
          ∀ c ∈ w.db .courses, c.tenantId = tid → c.deletedAt = none)) := by
    intro rc htid
    simpa [tenantOf, deletedAtOf] using
      @scope_length_iff env rc w tid htid .courses (by simp [rlsTables])
  have hanswers : ∀ {rc : RequestContext}, rc.tenantId = some tid →
      ((∃ report users courses s₁ s₂ s₃,
        runM env (tenantReport env rc) (w, [requestTx env rc]) = (.ok report, s₁) ∧
        runM env (listUserRows env rc {}) (w, [requestTx env rc]) = (.ok users, s₂) ∧
        runM env (listCourses env rc {} false) (w, [requestTx env rc]) = (.ok courses, s₃) ∧
        report.users = users.2 ∧ report.courses = courses.2) ↔
      (seen w (requestTx env rc) .users).length =
        (scopeRows rc w (requestTx env rc) .users).length ∧
      (seen w (requestTx env rc) .courses).length =
        (scopeRows rc w (requestTx env rc) .courses).length) := by
    intro rc htid
    obtain ⟨report, s₁, hreport, hru, hrc⟩ := @runM_tenantReport env rc w tid htid (requestTx env rc)
    obtain ⟨users, s₂, hlisted, hu⟩ := @runM_users_total env rc w (requestTx env rc)
    obtain ⟨courses, s₃, hlisted', hc⟩ := @runM_courses_total env rc w (requestTx env rc)
    rw [← hru, ← hrc, ← hu, ← hc]
    constructor
    · rintro ⟨report', users', courses', s₁', s₂', s₃', h₁, h₂, h₃, heq⟩
      cases hreport.symm.trans h₁
      cases hlisted.symm.trans h₂
      cases hlisted'.symm.trans h₃
      exact heq
    · exact fun heq => ⟨report, users, courses, s₁, s₂, s₃, hreport, hlisted, hlisted', heq⟩
  constructor
  · intro hagrees hrls
    have htid : (RequestContext.tenantId { requestId := "", tenantId := some tid }) = some tid := rfl
    obtain ⟨hu, hc⟩ := (hanswers htid).mp (hagrees _ htid)
    exact ⟨(husers htid).mp hu hrls, (hcourses htid).mp hc hrls⟩
  · intro hlive rc htid
    exact (hanswers htid).mpr ⟨(husers htid).mpr fun hrls => (hlive hrls).1,
      (hcourses htid).mpr fun hrls => (hlive hrls).2⟩

/-! ## Over runs -/

/-- Accounts are never soft deleted. -/
theorem Run.users_live (hr : Run env Ok w₀ h w) (hreg : Registry w₀)
    (hlive : ∀ u ∈ w₀.db .users, u.deletedAt = none) : ∀ u ∈ w.db .users, u.deletedAt = none := by
  induction hr with
  | start => exact hlive
  | serve req run ok ih => exact serve_users_live _ req (run.registry hreg).sessionIds ih

/-- **The report** of a tenant agrees with the listings in a state of a run exactly if none of
the tenant's courses was soft deleted; with row-level security switched off in the settings,
there is nothing to count. -/
theorem report_agrees_iff (hreg : Registry w₀) (hlive : ∀ u ∈ w₀.db .users, u.deletedAt = none)
    (hr : Run env Ok w₀ h w) (tid : Uuid) :
    ReportAgrees env w tid ↔ (env.settings.enableRowLevelSecurity = true →
      ∀ c ∈ w.db .courses, c.tenantId = tid → c.deletedAt = none) := by
  have husers := hr.users_live hreg hlive
  rw [reportAgrees_iff]
  exact ⟨fun h hrls => (h hrls).2, fun h hrls => ⟨fun u hu _ => husers u hu, h hrls⟩⟩

namespace Students

/-- What the seed script leaves: seven accounts and two courses, none of them deleted. -/
theorem undeleted :
    (world.db .users).map (·.deletedAt) = List.replicate 7 none ∧
    (world.db .courses).map (fun c => (c.id, c.tenantId, c.deletedAt)) =
      [(63, 35, none), (68, 47, none)] := by
  decide +kernel

/-- The platform administrator deletes the course of the second tenant. -/
def deletion : Request where
  headers := [("x-request-id", "r"), ("authorization", "Bearer root")]
  endpoint := .deleteCourse 68

end Students

/-- After the seed script. -/
theorem report_agrees_seeded : ReportAgrees Students.platform Students.world 47 := by
  obtain ⟨husers, hcourses⟩ := Students.undeleted
  have hlive : ∀ u ∈ Students.world.db .users, u.deletedAt = none := by
    intro u hu
    have hmem : u.deletedAt ∈ List.replicate 7 none := husers ▸ List.mem_map_of_mem hu
    exact (List.mem_replicate.mp hmem).2
  refine (@report_agrees_iff Students.platform Students.world Students.world []
    (fun _ _ _ => True) seeded_database.registry hlive .start 47).mpr fun _ c hc _ => ?_
  have hmem := hcourses ▸
    List.mem_map_of_mem (f := fun c : Course => (c.id, c.tenantId, c.deletedAt)) hc
  rcases List.mem_pair.mp hmem with h | h
  · exact congrArg (·.2.2) h
  · exact congrArg (·.2.2) h

/-- The platform administrator logs in and deletes a course: the report still counts it. -/
theorem report_counts_deleted : ∃ h w,
    Run Students.platform (fun _ _ _ => True) Students.world h w ∧
    ¬ ReportAgrees Students.platform w 47 := by
  have hrun : Run Students.platform (fun _ _ _ => True) Students.world _ _ :=
    .serve Students.deletion (.serve Students.login .start trivial) trivial
  refine ⟨_, _, hrun, fun hagrees => ?_⟩
  have hlive := (reportAgrees_iff.mp hagrees rfl).2
  have hdeleted : ((serve Students.platform (serve Students.platform Students.world
      Students.login).2 Students.deletion).2.db .courses).any (fun c =>
        decide (c.tenantId = 47) && c.deletedAt.isSome) = true := by decide +kernel
  obtain ⟨c, hc, hgone⟩ := List.any_eq_true.mp hdeleted
  rw [Bool.and_eq_true, decide_eq_true_iff] at hgone
  rw [hlive c hc hgone.1] at hgone
  cases hgone.2

end LmsBackend
