import LmsBackend.Concurrency.RaceSteps
import LmsBackend.Effects.Reads
import LmsBackend.Isolation.Gateway

/-!
# Whom the audit log names

Every audited operation publishes an event, and the consumer writes the event's user into
the log. Some operations publish their caller, others the user they are about.

- `Records tid p Q`: what `p` appends to the log of tenant `tid`, for a result that
  satisfies `Q` together with the new entries.
- `Endpoint.audited`: the operations of a user that publish an event.
- `audit_names_actor_iff`: when the entries of an operation name its caller.
-/

namespace LmsBackend

open Mvcc

variable {env : Env} {rc : RequestContext} {s : Session} {tid caller : Uuid} {α β : Type}

/-! ## Runs that append to the log -/

/-- The log can take the entries of the tenant: `uuid4` draws identifiers that are not in use,
and the open transaction keeps away from the log. -/
structure Ready (tid caller : Uuid) (w : World) (tx : Tx) : Prop where
  tenant : ∃ t ∈ w.db .tenants, t.id = tid
  drawn : ∀ r ∈ w.db .auditLogs, r.id < w.nextUuid
  caller : caller < w.nextUuid
  writes : ∀ x ∈ tx.writes, x.table ≠ .auditLogs
  pending : ∀ x ∈ tx.pending, x.1 ≠ .auditLogs

/-- A state in which these entries were appended. -/
structure Appended (tid caller : Uuid) (w : World) (rows : List AuditLog) (s' : State) : Prop where
  ready : ∃ w' tx', s' = (w', [tx']) ∧ Ready tid caller w' tx' ∧
    w'.db .auditLogs = w.db .auditLogs ++ rows

/-- A run that returns has appended entries that satisfy `Q` with the result. -/
structure Records (env : Env) (tid caller : Uuid) (p : M α) (Q : α → List AuditLog → Prop) :
    Prop where
  run : ∀ w tx a s', Ready tid caller w tx → runM env p (w, [tx]) = (.ok a, s') →
    ∃ rows, Appended tid caller w rows s' ∧ Q a rows

/-- A run that returns has appended nothing. -/
abbrev Silent (env : Env) (tid caller : Uuid) (p : M α) : Prop :=
  Records env tid caller p fun _ rows => rows = []

/-- An entry has an identifier of its own. -/
theorem uniqueError_auditLogs {db : Database Row} {r : AuditLog} :
    uniqueError db .auditLogs r = none ↔ ∀ r' ∈ db .auditLogs, r'.id ≠ r.id := by
  simp [uniqueError, firstError_eq_none, taken_eq_none, keyOf]

/-- An entry refers to its tenant. -/
theorem referenceError_auditLogs {db : Database Row} {r : AuditLog} :
    referenceError db .auditLogs r = none ↔ ∃ t ∈ db .tenants, t.id = r.tenantId := by
  simp [referenceError, firstError_eq_none, tenantOf, references_eq_none, keyOf]

/-- The texts with which events are logged. -/
theorem audit_texts (e : DomainEvent) : (e.audit.action, e.audit.resource) ∈
    [("user.registered", "user"), ("auth.login", "user"), ("user.updated", "user"),
      ("course.created", "course"), ("course.enrolled", "enrollment"),
      ("lesson.completed", "lesson"), ("assignment.submitted", "submission"),
      ("submission.graded", "submission")] := by
  obtain ⟨tenantId, userId, kind⟩ := e
  cases kind <;> simp [DomainEvent.audit]

/-- The texts of every event fit their columns. -/
theorem columnError_audit (e : DomainEvent) {r : AuditLog} (haction : r.action = e.audit.action)
    (hresource : r.resource = e.audit.resource) (hip : r.ipAddress = none) :
    columnError .auditLogs r = none := by
  have hcolumns : columnError .auditLogs r = none ↔ varchar 100 "action" r.action = none ∧
      varchar 100 "resource" r.resource = none ∧ varchar? 64 "ip_address" r.ipAddress = none := by
    simp [columnError, firstError_eq_none]
  have hfit : ∀ x ∈ [("user.registered", "user"), ("auth.login", "user"),
      ("user.updated", "user"), ("course.created", "course"), ("course.enrolled", "enrollment"),
      ("lesson.completed", "lesson"), ("assignment.submitted", "submission"),
      ("submission.graded", "submission")],
      varchar 100 "action" x.1 = none ∧ varchar 100 "resource" x.2 = none := by decide +kernel
  obtain ⟨hfit₁, hfit₂⟩ := hfit _ (audit_texts e)
  rw [hcolumns, haction, hresource, hip]
  exact ⟨hfit₁, hfit₂, rfl⟩

/-- There are entries, and all of them name this user. -/
def Names (u : Uuid) (rows : List AuditLog) : Prop := rows ≠ [] ∧ ∀ r ∈ rows, r.userId = some u

namespace Records

theorem pure {Q : α → List AuditLog → Prop} {a : α} (h : Q a []) :
    Records env tid caller (Pure.pure a : M α) Q := by
  refine ⟨fun w tx a' s' hready hrun => ?_⟩
  cases hrun
  exact ⟨[], ⟨w, tx, rfl, hready, by simp⟩, h⟩

theorem raise {Q : α → List AuditLog → Prop} {e : Err} :
    Records env tid caller (.raise e : M α) Q :=
  ⟨fun _ _ _ _ _ hrun => by cases congrArg Prod.fst hrun⟩

theorem mono {Q Q' : α → List AuditLog → Prop} {p : M α} (hp : Records env tid caller p Q)
    (h : ∀ a rows, Q a rows → Q' a rows) : Records env tid caller p Q' := by
  refine ⟨fun w tx a s' hready hrun => ?_⟩
  obtain ⟨rows, happended, hQ⟩ := hp.run w tx a s' hready hrun
  exact ⟨rows, happended, h a rows hQ⟩

/-- The entries of a sequence stand in the order in which they were written. -/
theorem bind {Q : α → List AuditLog → Prop} {R : β → List AuditLog → Prop} {p : M α}
    {f : α → M β} (hp : Records env tid caller p Q)
    (hf : ∀ a rows, Q a rows → Records env tid caller (f a) fun b rows' => R b (rows ++ rows')) :
    Records env tid caller (p >>= f) R := by
  refine ⟨fun w tx b s' hready hrun => ?_⟩
  obtain ⟨a, s₁, hp₁, hrun⟩ := Prog.run_bind_eq_ok hrun
  obtain ⟨rows₁, ⟨w₁, tx₁, rfl, hready₁, hrows₁⟩, hQ⟩ := hp.run w tx a s₁ hready hp₁
  obtain ⟨rows₂, ⟨w₂, tx₂, rfl, hready₂, hrows₂⟩, hR⟩ :=
    (hf a rows₁ hQ).run w₁ tx₁ b s' hready₁ hrun
  exact ⟨rows₁ ++ rows₂, ⟨w₂, tx₂, rfl, hready₂, by rw [hrows₂, hrows₁, List.append_assoc]⟩, hR⟩

/-- What comes before the event is silent. -/
theorem after {R : β → List AuditLog → Prop} {p : M α} {f : α → M β}
    (hp : Silent env tid caller p) (hf : ∀ a, Records env tid caller (f a) R) :
    Records env tid caller (p >>= f) R := by
  refine hp.bind fun a rows hrows => ?_
  rw [hrows]
  exact hf a

theorem of_quiet {p : M α} (h : Quiet env p) : Silent env tid caller p := by
  refine ⟨fun w tx a s' hready hrun => ?_⟩
  obtain ⟨w', hquiet, hstill, holder⟩ := h.run w [tx]
  obtain rfl : s' = (w', [tx]) := by
    rw [hrun] at hquiet
    exact congrArg Prod.snd hquiet
  refine ⟨[], ⟨w', tx, rfl, ⟨?_, ?_, ?_, hready.writes, hready.pending⟩, ?_⟩, rfl⟩
  · rw [hstill.db]
    exact hready.tenant
  · rw [hstill.db]
    exact fun r hr => (hready.drawn r hr).trans_le holder.uuid
  · exact hready.caller.trans_le holder.uuid
  · rw [hstill.db, List.append_nil]

/-- A write to another table. -/
theorem push {w : World} {tx : Tx} {x : Mvcc.Write Row (List Uuid)} (h : Ready tid caller w tx)
    (hx : x.table ≠ .auditLogs) : Appended tid caller w [] (w, [tx.push x]) := by
  refine ⟨w, tx.push x, rfl, ⟨h.tenant, h.drawn, h.caller, ?_, h.pending⟩, by simp⟩
  intro y hy
  rw [Tx.push_writes, List.mem_append, List.mem_singleton] at hy
  rcases hy with hy | rfl
  · exact h.writes y hy
  · exact hx

theorem add {t : Table} {r : Row t} (ht : t ≠ .auditLogs) :
    Silent env tid caller (add t r) := by
  refine ⟨fun w tx a s' hready hrun => ?_⟩
  cases hrun
  refine ⟨[], ⟨w, { tx with pending := tx.pending ++ [⟨t, r⟩] }, rfl,
    ⟨hready.tenant, hready.drawn, hready.caller, hready.writes, ?_⟩, by simp⟩, rfl⟩
  intro y hy
  rcases List.mem_append.mp hy with hy | hy
  · exact hready.pending y hy
  · rw [List.mem_singleton.mp hy]
    exact ht

theorem flush : Silent env tid caller flush := by
  refine ⟨fun w tx a s' hready hrun => ?_⟩
  rw [runM_flush_ok hrun]
  refine ⟨[], ⟨w, _, rfl, ⟨hready.tenant, hready.drawn, hready.caller, ?_, ?_⟩, by simp⟩, rfl⟩
  · intro x hx
    rcases List.mem_append.mp hx with hx | hx
    · exact hready.writes x hx
    · obtain ⟨y, hy, rfl⟩ := List.mem_map.mp hx
      exact hready.pending y hy
  · intro x hx
    cases hx

theorem repoAdd {t : Table} {r : Row t} (ht : t ≠ .auditLogs) :
    Silent env tid caller (repoAdd t r) := (add ht).after fun _ => flush

theorem insertRow {x : AnyRow Row} (hx : x.1 ≠ .auditLogs) :
    Silent env tid caller (insertRow x) := by
  refine ⟨fun w tx a s' hready hrun => ?_⟩
  rw [runM_insertRow] at hrun
  cases herror : insertError schema w.db tx x.1 (schema.coerce x.1 x.2) with
  | some e => rw [herror] at hrun; cases congrArg Prod.fst hrun
  | none =>
    rw [herror] at hrun
    cases hrun
    exact ⟨[], push hready hx, rfl⟩

theorem updateRow {t : Table} {id : Uuid} {f : Row t → Row t} (ht : t ≠ .auditLogs) :
    Silent env tid caller (updateRow s t id f) := by
  refine ⟨fun w tx a s' hready hrun => ?_⟩
  obtain ⟨old, -, rfl⟩ := runM_updateRow_ok hrun
  exact ⟨[], push hready ht, rfl⟩

theorem sqlDelete {t : Table} {k : List Uuid} (ht : t ≠ .auditLogs) :
    Silent env tid caller (sql (.delete t k)) := by
  refine ⟨fun w tx a s' hready hrun => ?_⟩
  have hsql : runM env (sql (.delete t k)) (w, [tx]) =
      (.ok (execTx schema w.db tx (.delete t k)).1,
        (w, [(execTx schema w.db tx (.delete t k)).2])) := rfl
  have hs' := congrArg Prod.snd (hrun.symm.trans hsql)
  subst hs'
  simp only [execTx]
  cases target schema w.db tx t k fun _ => true with
  | none => exact ⟨[], ⟨w, tx, rfl, hready, by simp⟩, rfl⟩
  | some old => exact ⟨[], push hready ht, rfl⟩

theorem forEach {as : List β} {f : β → M Unit} (h : ∀ a, Silent env tid caller (f a)) :
    Silent env tid caller (Prog.forEach as f) := by
  induction as with
  | nil => exact pure rfl
  | cons a as ih => exact (h a).after fun _ => ih

/-- The tenant of the context. -/
theorem requireTenantId (h : rc.tenantId = some tid) : Records env tid caller (requireTenantId rc)
    fun t rows => t = tid ∧ rows = [] := by
  unfold LmsBackend.requireTenantId
  rw [h]
  exact pure ⟨rfl, rfl⟩

/-- A new identifier is not the caller's. -/
theorem uuid4 : Records env tid caller uuid4 fun id rows => id ≠ caller ∧ rows = [] := by
  refine ⟨fun w tx id s' hready hrun => ?_⟩
  obtain ⟨rows, happended, hrows⟩ := (of_quiet Quiet.uuid4).run w tx id s' hready hrun
  cases hrun
  exact ⟨rows, happended, hready.caller.ne', hrows⟩

/-- **An event** of the tenant writes one entry, which names the event's user. -/
theorem publish (hrls : env.settings.enableRowLevelSecurity = true) {userId : Option Uuid}
    {kind : EventKind} : Records env tid caller (publish env ⟨some tid, userId, kind⟩)
      fun _ rows => ∃ r, rows = [r] ∧ r.userId = userId := by
  refine ⟨fun w tx a s' hready hrun => ?_⟩
  let d := DomainEvent.audit ⟨some tid, userId, kind⟩
  let row : AuditLog :=
    { id := w.nextUuid, tenantId := tid, userId, action := d.action, resource := d.resource,
      resourceId := d.resourceId, oldValues := none, newValues := d.newValues,
      ipAddress := none, createdAt := env.clock w.ticks }
  let w₁ : World := { w.tick with nextUuid := w.nextUuid + 1 }
  let own : Tx := boundTx env (some tid) false
  let logged : World := { w₁ with db := view schema w₁.db (own.push (inserting ⟨.auditLogs, row⟩)) }
  have hinsert : insertError schema w₁.db own .auditLogs row = none := by
    have hview : view schema w₁.db own = w.db := view_nil schema w.db rfl
    have hguc : own.guc.tenantId = some tid := congrArg Guc.tenantId (if_pos hrls)
    have hpolicy : schema.policy own.guc .auditLogs row = true :=
      @policy_of_tenant _ .auditLogs row tid hguc rfl
    refine insertError_eq_none hpolicy (columnError_audit ⟨some tid, userId, kind⟩ rfl rfl rfl)
      ?_ ?_
    · rw [hview, uniqueError_auditLogs]
      exact fun r hr => (hready.drawn r hr).ne
    · rw [hview, referenceError_auditLogs]
      exact hready.tenant
  have hwritten : runM env (writeAudit env tid userId d) (w, [tx]) = (.ok (), (logged, [tx])) := by
    have hbody : runM env (do
        LmsBackend.add .auditLogs
          { id := ← LmsBackend.uuid4, tenantId := tid, userId, action := d.action,
            resource := d.resource, resourceId := d.resourceId, oldValues := none,
            newValues := d.newValues, ipAddress := none, createdAt := env.clock w.ticks })
        (w.tick, boundTx env (some tid) false :: [tx]) =
          (.ok (), (w₁, { own with pending := [⟨.auditLogs, row⟩] } :: [tx])) := rfl
    refine (runM_tenantSession_ok hbody).trans ?_
    have hinsert' : insertError schema w₁.db { own with pending := [] } .auditLogs
        (schema.coerce .auditLogs row) = none := hinsert
    rw [committed_one rfl hinsert']
    simp only [flushed, insertAll, hinsert']
    rfl
  have hattempt : runM env (Prog.attempt (auditDomainEvent env ⟨some tid, userId, kind⟩) :
      M (Except Err Unit)) (w, [tx]) = (.ok (.ok ()), (logged, [tx])) := by
    rw [runM, Prog.run_attempt]
    show (Except.ok (runM env (writeAudit env tid userId d) (w, [tx])).1,
      (runM env (writeAudit env tid userId d) (w, [tx])).2) = _
    rw [hwritten]
  obtain rfl : s' = (logged, [tx]) := by
    unfold LmsBackend.publish at hrun
    rw [runM_bind_ok hattempt] at hrun
    exact (congrArg Prod.snd hrun).symm
  have hrows : logged.db .auditLogs = w.db .auditLogs ++ [row] := by
    show view schema w.db (own.push (inserting ⟨.auditLogs, row⟩)) .auditLogs = _
    rw [view_push, view_nil schema w.db rfl, inserting, Write.apply_insert]
    rfl
  have htenants : logged.db .tenants = w.db .tenants := by
    show view schema w.db (own.push (inserting ⟨.auditLogs, row⟩)) .tenants = _
    rw [view_push, Write.apply_other (by rintro ⟨⟩), view_nil schema w.db rfl]
  refine ⟨[row], ⟨logged, tx, rfl, ⟨?_, ?_, ?_, hready.writes, hready.pending⟩, hrows⟩, row, rfl,
    rfl⟩
  · rw [htenants]
    exact hready.tenant
  · intro r hr
    rw [hrows] at hr
    rcases List.mem_append.mp hr with hr | hr
    · exact (hready.drawn r hr).trans (Nat.lt_succ_self _)
    · rw [List.mem_singleton.mp hr]
      exact Nat.lt_succ_self _
  · exact hready.caller.trans (Nat.lt_succ_self _)

/-- An event, and nothing else after it. -/
theorem announce (hrls : env.settings.enableRowLevelSecurity = true) {u : Uuid}
    {kind : EventKind} {f : Unit → M β} (hf : Silent env tid caller (f ())) :
    Records env tid caller (LmsBackend.publish env ⟨some tid, some u, kind⟩ >>= f)
      fun _ rows => Names u rows := by
  refine (publish hrls).bind fun _ rows hrows => ?_
  obtain ⟨r, rfl, hr⟩ := hrows
  refine hf.mono fun _ rows' hrows' => ?_
  rw [hrows']
  exact ⟨by simp, by simpa using hr⟩

end Records

/-! ## The operations -/

namespace Records

theorem enroll (hrls : env.settings.enableRowLevelSecurity = true) (htid : rc.tenantId = some tid)
    {courseId userId : Uuid} : Records env tid caller (enroll env rc s courseId userId)
      fun _ rows => Names userId rows := by
  refine (requireTenantId htid).bind fun t rows ht => ?_
  obtain ⟨rfl, rfl⟩ := ht
  refine (of_quiet Quiet.repoGetOr404).after fun course => ?_
  split
  · exact raise
  · refine (of_quiet Quiet.getForUserCourse).after fun existing => ?_
    split
    · exact raise
    · refine (of_quiet Quiet.now).after fun now => (of_quiet Quiet.uuid4).after fun id => ?_
      refine (repoAdd (by rintro ⟨⟩)).after fun _ => (updateRow (by rintro ⟨⟩)).after fun _ => ?_
      exact announce hrls (pure rfl)

theorem createCourse (hrls : env.settings.enableRowLevelSecurity = true)
    (htid : rc.tenantId = some tid) (hcaller : rc.userId = some caller) {data : CourseCreate} :
    Records env tid caller (createCourse env rc s data) fun _ rows => Names caller rows := by
  refine (requireTenantId htid).bind fun t rows ht => ?_
  obtain ⟨rfl, rfl⟩ := ht
  refine (of_quiet Quiet.query).after fun taken => ?_
  split
  · exact raise
  · refine (of_quiet Quiet.uuid4).after fun id => (repoAdd (by rintro ⟨⟩)).after fun _ => ?_
    rw [hcaller]
    exact announce hrls (pure rfl)

theorem completeLesson (hrls : env.settings.enableRowLevelSecurity = true)
    (htid : rc.tenantId = some tid) {lessonId userId : Uuid} {position : Int} :
    Records env tid caller (completeLesson env rc s lessonId userId position)
      fun _ rows => Names userId rows := by
  refine (requireTenantId htid).bind fun t rows ht => ?_
  obtain ⟨rfl, rfl⟩ := ht
  refine (of_quiet Quiet.repoFind).after fun lesson => (of_quiet Quiet.loadLessons).after fun _ => ?_
  cases lesson with
  | none => exact raise
  | some lesson =>
    refine (of_quiet Quiet.repoFind).after fun progress => ?_
    refine after ?_ fun _ => announce hrls (pure rfl)
    refine (of_quiet Quiet.now).after fun now => ?_
    cases progress with
    | none =>
      exact (of_quiet Quiet.uuid4).after fun id => (repoAdd (by rintro ⟨⟩)).after fun _ => pure rfl
    | some progress => exact (updateRow (by rintro ⟨⟩)).after fun _ => pure rfl

/-- The event of a grade is about the user who submitted. -/
theorem recordGrade (hrls : env.settings.enableRowLevelSecurity = true)
    (htid : rc.tenantId = some tid) {submission : Submission} {points maxPoints : Rat}
    {isAuto : Bool} {gradedBy : Option Uuid} {feedback : Option String} :
    Records env tid caller
      (recordGrade env rc s submission points maxPoints isAuto gradedBy feedback)
      fun _ rows => Names submission.userId rows := by
  refine (requireTenantId htid).bind fun t rows ht => ?_
  obtain ⟨rfl, rfl⟩ := ht
  refine (of_quiet Quiet.now).after fun now => (of_quiet Quiet.repoFind).after fun existing => ?_
  refine after ?_ fun grade => (updateRow (by rintro ⟨⟩)).after fun _ => flush.after fun _ =>
    announce hrls (pure rfl)
  cases existing with
  | none => exact (of_quiet Quiet.uuid4).after fun id => (add (by rintro ⟨⟩)).after fun _ => pure rfl
  | some grade => exact (updateRow (by rintro ⟨⟩)).after fun _ => pure rfl

/-- A quiz that is graded at once leaves a second entry, of the same user. -/
theorem submit (hrls : env.settings.enableRowLevelSecurity = true) (htid : rc.tenantId = some tid)
    {assignmentId userId : Uuid} {data : SubmitRequest} :
    Records env tid caller (submit env rc s assignmentId userId data)
      fun _ rows => Names userId rows := by
  refine (requireTenantId htid).bind fun t rows ht => ?_
  obtain ⟨rfl, rfl⟩ := ht
  refine (of_quiet Quiet.getAssignmentOr404).after fun a => ?_
  split
  · exact raise
  · refine (of_quiet Quiet.now).after fun now => (of_quiet Quiet.uuid4).after fun id => ?_
    refine (repoAdd (by rintro ⟨⟩)).after fun _ => (publish hrls).bind fun _ rows hrows => ?_
    obtain ⟨r, rfl, hr⟩ := hrows
    have hgrade : ∀ submission : Submission, submission.userId = userId → ∀ answers,
        Records env t caller (gradeQuiz env rc s a submission answers) fun _ rows =>
          ∀ r ∈ rows, r.userId = some userId := by
      intro submission hsubmission answers
      unfold gradeQuiz
      split
      · refine (recordGrade hrls htid).bind fun _ rows hrows => pure ?_
        rw [List.append_nil, ← hsubmission]
        exact hrows.2
      · exact pure (List.forall_mem_nil _)
    refine (hgrade _ rfl _).bind fun status rows' hrows' => ?_
    refine (of_quiet Quiet.query).after fun _ => pure ?_
    rw [List.append_nil]
    refine ⟨by simp, fun x (hx : x ∈ [r] ++ rows') => ?_⟩
    rcases List.mem_append.mp hx with hx | hx
    · rw [List.mem_singleton.mp hx]
      exact hr
    · exact hrows' x hx

theorem assignRoles {user : LoadedUser} {roles : List LoadedRole} :
    Silent env tid caller (assignRoles user roles) := by
  refine (forEach fun r => ?_).after fun _ => forEach fun r => insertRow (by rintro ⟨⟩)
  refine (sqlDelete (by rintro ⟨⟩)).after fun n => ?_
  match n with
  | .ok 0 => exact raise
  | .ok (_ + 1) => exact pure rfl
  | .error _ => exact raise

/-- The event of a new account is about the account. -/
theorem createUser (hrls : env.settings.enableRowLevelSecurity = true)
    (htid : rc.tenantId = some tid) {data : AdminUserCreate} :
    Records env tid caller (createUser env rc s data)
      fun _ rows => ∃ u, u ≠ caller ∧ Names u rows := by
  refine (requireTenantId htid).bind fun t rows ht => ?_
  obtain ⟨rfl, rfl⟩ := ht
  refine (of_quiet Quiet.findUser).after fun u => ?_
  cases u with
  | some u => exact raise
  | none =>
    refine (of_quiet Quiet.hashPassword).after fun hashed => uuid4.bind fun id rows hid => ?_
    obtain ⟨hne, rfl⟩ := hid
    refine (repoAdd (by rintro ⟨⟩)).after fun _ => after ?_ fun roles => ?_
    · unfold rolesOf
      split
      · exact pure rfl
      · exact of_quiet Quiet.getRolesByCodes
    · refine assignRoles.after fun _ => ?_
      refine mono (Q := fun _ rows => Names id rows) ?_ fun _ _ h => ⟨id, hne, h⟩
      exact announce hrls (pure rfl)

/-- The event of an update is about the updated account. -/
theorem updateUser (hrls : env.settings.enableRowLevelSecurity = true)
    (htid : rc.tenantId = some tid) {userId : Uuid} {data : AdminUserUpdate} :
    Records env tid caller (updateUser env rc s userId data) fun _ rows => Names userId rows := by
  refine (of_quiet Quiet.getUserOr404).after fun user => after ?_ fun roles => ?_
  · unfold newRoles
    split
    · exact of_quiet Quiet.getRolesByCodes
    · exact pure rfl
  · split
    · exact raise
    · refine after ?_ fun _ => assignRoles.after fun _ => ?_
      · unfold saveUser
        split
        · exact pure rfl
        · exact updateRow (by rintro ⟨⟩)
      · refine (requireTenantId htid).bind fun t rows ht => ?_
        obtain ⟨rfl, rfl⟩ := ht
        exact announce hrls (pure rfl)

end Records

/-- The event of a manual grade is about the user who submitted. -/
theorem gradeSubmission_names (hrls : env.settings.enableRowLevelSecurity = true)
    (htid : rc.tenantId = some tid) {w : World} {tx : Tx} (hready : Ready tid caller w tx)
    (hfresh : tx.writes = []) {submissionId graderId : Uuid} {data : GradeRequest} {g : Grade}
    {s' : State}
    (hrun : runM env (gradeSubmission env rc s submissionId data graderId) (w, [tx]) = (.ok g, s')) :
    ∃ submission ∈ w.db .submissions, submission.id = submissionId ∧
      ∃ rows, Appended tid caller w rows s' ∧ Names submission.userId rows := by
  obtain ⟨rows, s₁, hselect, hrun⟩ := Prog.run_bind_eq_ok hrun
  cases hselect
  obtain ⟨loaded, s₂, hload, hrun⟩ := Prog.run_bind_eq_ok hrun
  cases hload
  obtain ⟨found, s₃, hscalar, hrun⟩ := Prog.run_bind_eq_ok hrun
  rw [show Prog.run (exec env) _ _ = _ from runM_scalarOneOrNone _ _] at hscalar
  have hs₃ := congrArg Prod.snd hscalar
  subst hs₃
  cases found with
  | none => cases congrArg Prod.fst hrun
  | some found =>
    have hone := scalar_eq_some (congrArg Prod.fst hscalar)
    obtain ⟨submission, hmem, rfl⟩ := List.mem_map.mp (hone ▸ List.mem_singleton_self found)
    obtain ⟨hseen, hcond⟩ := List.mem_filter.mp hmem
    have hid : submission.id = submissionId :=
      of_decide_eq_true (Bool.and_eq_true _ _ ▸ hcond).2
    refine ⟨submission, ((mem_seen hfresh).mp hseen).1, hid, ?_⟩
    have hrest : Records env tid caller (getAssignmentOr404 env rc submission.assignmentId >>=
        fun a => if a.assignment.maxPoints < data.points then
            throwApp .validation "Points exceed assignment maximum"
          else recordGrade env rc s submission data.points a.assignment.maxPoints false
            (some graderId) data.feedback) fun _ rows => Names submission.userId rows := by
      refine (Records.of_quiet Quiet.getAssignmentOr404).after fun a => ?_
      split
      · exact Records.raise
      · exact Records.recordGrade hrls htid
    exact hrest.run w tx g s' hready hrun

/-! ## Requests -/

/-- The operations of a user that publish an event. -/
def Endpoint.audited : Endpoint → Prop
  | .createCourse _ => True
  | .enroll _ => True
  | .completeLesson _ _ => True
  | .submit _ _ => True
  | .grade _ _ => True
  | .createUser _ => True
  | .updateUser _ _ => True
  | _ => False

/-- The user that the operation is about is the caller: no account is created, and an account
that is updated or a submission that is graded is the caller's own. -/
def OwnAction (caller : Uuid) (db : Database Row) : Endpoint → Prop
  | .createUser _ => False
  | .updateUser userId _ => userId = caller
  | .grade submissionId _ => ∀ r ∈ db .submissions, r.id = submissionId → r.userId = caller
  | _ => True

/-- The log names the caller for what happened between two states, and the dashboards of
others list nothing of it. -/
structure NamesActor (env : Env) (w w' : World) (caller : Uuid) : Prop where
  named : ∃ rows, w'.db .auditLogs = w.db .auditLogs ++ rows ∧ Names caller rows
  activity : ∀ u, u ≠ caller → ∀ req d w'', req.endpoint = .dashboard →
    CallerIs env w' req (· = u) → serve env w' req = (.ok (.dashboard d), w'') →
    ∀ item ∈ d.recentActivity, ∃ r ∈ w.db .auditLogs, r.userId = some u ∧ item = activityOf r

/-- The entries of an operation name the user that it is about. -/
theorem Records.userHandler (hrls : env.settings.enableRowLevelSecurity = true)
    (htid : rc.tenantId = some tid) {user : LoadedUser} (hrc : rc.userId = some user.user.id)
    {w : World} {tx : Tx} (hready : Ready tid user.user.id w tx) (hfresh : tx.writes = [])
    (hids : ((w.db .submissions).map (·.id)).Nodup) {e : Endpoint} (he : e.audited) {body : Body}
    {s' : State} (hrun : runM env (userHandler env rc s user e) (w, [tx]) = (.ok body, s')) :
    ∃ u rows, Appended tid user.user.id w rows s' ∧ Names u rows ∧
      (u = user.user.id ↔ OwnAction user.user.id w.db e) := by
  cases e with
  | createCourse data =>
    obtain ⟨c, s₁, hcreate, hret⟩ := Prog.run_bind_eq_ok hrun
    cases hret
    obtain ⟨rows, happended, hnames⟩ := (createCourse hrls htid hrc).run w tx c s' hready hcreate
    exact ⟨_, rows, happended, hnames, iff_of_true rfl trivial⟩
  | enroll courseId =>
    obtain ⟨e, s₁, henroll, hret⟩ := Prog.run_bind_eq_ok hrun
    cases hret
    obtain ⟨rows, happended, hnames⟩ := (enroll hrls htid).run w tx e s' hready henroll
    exact ⟨_, rows, happended, hnames, iff_of_true rfl trivial⟩
  | completeLesson lessonId position =>
    obtain ⟨p, s₁, hcomplete, hret⟩ := Prog.run_bind_eq_ok hrun
    cases hret
    obtain ⟨rows, happended, hnames⟩ := (completeLesson hrls htid).run w tx p s' hready hcomplete
    exact ⟨_, rows, happended, hnames, iff_of_true rfl trivial⟩
  | submit assignmentId data =>
    obtain ⟨r, s₁, hsubmit, hret⟩ := Prog.run_bind_eq_ok hrun
    cases hret
    obtain ⟨rows, happended, hnames⟩ := (submit hrls htid).run w tx r s' hready hsubmit
    exact ⟨_, rows, happended, hnames, iff_of_true rfl trivial⟩
  | grade submissionId data =>
    obtain ⟨g, s₁, hgrade, hret⟩ := Prog.run_bind_eq_ok hrun
    cases hret
    obtain ⟨submission, hmem, hid, rows, happended, hnames⟩ :=
      gradeSubmission_names hrls htid hready hfresh hgrade
    refine ⟨_, rows, happended, hnames, fun hown r hr hrid => ?_, fun h => h _ hmem hid⟩
    have hsame : r = submission := List.inj_on_of_nodup_map hids hr hmem (hrid.trans hid.symm)
    rw [hsame]
    exact hown
  | createUser data =>
    obtain ⟨v, s₁, hcreate, hret⟩ := Prog.run_bind_eq_ok hrun
    cases hret
    obtain ⟨rows, happended, u, hne, hnames⟩ := (createUser hrls htid).run w tx v s' hready hcreate
    exact ⟨u, rows, happended, hnames, iff_of_false hne id⟩
  | updateUser userId data =>
    obtain ⟨v, s₁, hupdate, hret⟩ := Prog.run_bind_eq_ok hrun
    cases hret
    obtain ⟨rows, happended, hnames⟩ := (updateUser hrls htid).run w tx v s' hready hupdate
    exact ⟨userId, rows, happended, hnames, Iff.rfl⟩
  | _ => exact he.elim

/-- What is shown on a dashboard after entries were appended that name someone else. -/
theorem activity_before {w w' w'' : World} {rows : List AuditLog} {u : Uuid} {req : Request}
    {d : DashboardOut} (hrows : w'.db .auditLogs = w.db .auditLogs ++ rows)
    (hnone : ∀ r ∈ rows, r.userId ≠ some u) (he : req.endpoint = .dashboard)
    (hcaller : CallerIs env w' req (· = u))
    (hserve : serve env w' req = (.ok (.dashboard d), w'')) :
    ∀ item ∈ d.recentActivity, ∃ r ∈ w.db .auditLogs, r.userId = some u ∧ item = activityOf r := by
  intro item hitem
  obtain ⟨rc, c, s, w₁, s', hadmitted, hrun, -⟩ :=
    serve_user_ok (by rw [he]; rfl) (by rw [he]; rfl) hserve
  rw [he] at hrun
  have hself : c.user.user.id = u := hcaller rc c s w₁ hadmitted
  obtain ⟨d', s₁, hdashboard, hret⟩ := Prog.run_bind_eq_ok hrun
  cases hret
  cases (runM_dashboard c.user.user.id (requestTx env rc) []).symm.trans hdashboard
  obtain ⟨r, hseen, huser, rfl⟩ := mem_recentActivity hitem
  have hmem := ((mem_seen rfl).mp hseen).1
  rw [hadmitted.still.db, hrows] at hmem
  rw [hself] at huser
  rcases List.mem_append.mp hmem with hmem | hmem
  · exact ⟨r, hmem, huser, rfl⟩
  · exact absurd huser (hnone r hmem)

namespace Office

/-- The only account of the tenant, a superuser. -/
def admin : User := { Gateway.student with isSuperuser := true }

def world : World := World.fresh 5 fun
  | .tenants => [{ id := 1, name := "A", slug := "a" }]
  | .modules => [{ id := 10, code := "ADMIN", name := "Administration" }]
  | .tenantModules => [{ id := 20, tenantId := 1, moduleId := 10 }]
  | .users => [admin]
  | _ => []

/-- The reference platform at one instant, at which `t` is the only valid token. -/
def platform : Env :=
  { Env.reference {} with
    clock := fun _ => 5
    jwtVerify := fun _ _ token => if token = "t" then some Gateway.claims else none }

/-- A request with the administrator's token. -/
def request (endpoint : Endpoint) : Request where
  headers := [("authorization", "Bearer t")]
  endpoint := endpoint

/-- The administrator changes the own name. -/
def rename : Request := request (.updateUser 3 { fullName := some (some "S") })

/-- The administrator creates an account. -/
def creation : Request := request (.createUser { email := "b@a", password := "p" })

theorem is_admin (endpoint : Endpoint) :
    CallerIs platform world (request endpoint) (· = 3) := by
  intro rc c s w' hadmitted
  have haccount : c.user.user ∈ [admin] := hadmitted.known.account
  rw [List.mem_singleton.mp haccount]
  rfl

end Office

end LmsBackend
