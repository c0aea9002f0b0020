import LmsBackend.Authority.Students
import LmsBackend.Effects.Updates

/-!
# Updates and the columns they are stored in

`CourseUpdate` and `AdminUserUpdate` were written apart from the columns of `courses` and
`users`: a null is a value of every field, and some texts and prices have no bound.

- `CourseUpdateKept`, `UserUpdateKept`: an update leaves a row that the table may have, or
  raises an `AppError` and leaves everything as it was.
- `updates_kept_iff`: the payloads for which it does.
-/

namespace LmsBackend

open Mvcc

variable {env : Env} {w : World} {bound rc : RequestContext} {tid : Uuid}

/-- The transaction of a request, before its first statement. -/
abbrev openTx (env : Env) (bound : RequestContext) : Tx :=
  boundTx env bound.tenantId bound.isSuperadmin

/-- The update of a course leaves a row within the columns' limits, with the columns that the
payload does not name as they were; or an `AppError`, and nothing has changed. -/
def CourseUpdateKept (env : Env) (w : World) (bound rc : RequestContext) (courseId : Uuid)
    (data : CourseUpdate) : Prop :=
  Ends env (getDb env (some bound) fun s => updateCourse rc s courseId data) (w, [])
    (fun _ s' => ∃ c ∈ w.db .courses, c.id = courseId ∧ ∃ row, CourseUpdated data c row ∧
      Rewritten w.db s'.1.db courseId row)
    fun e s' => IsApp e ∧ s'.1.db = w.db

/-- The update of an account does, and keeps the roles if the payload does not name them. -/
def UserUpdateKept (env : Env) (w : World) (bound rc : RequestContext) (userId : Uuid)
    (data : AdminUserUpdate) : Prop :=
  Ends env (getDb env (some bound) fun s => updateUser env rc s userId data) (w, [])
    (fun _ s' => ∃ u ∈ w.db .users, u.id = userId ∧ ∃ row, UserUpdated data u row ∧
      s'.1.db .users = replaceUser userId row (w.db .users) ∧
      (data.roleCodes = none → s'.1.db .userRoles = w.db .userRoles))
    fun e s' => IsApp e ∧ s'.1.db = w.db

/-- What the database has checked of the rows it holds: keys are unique, and columns are within
their limits. -/
structure RowsValid (db : Database Row) : Prop where
  codes : CodesSettled db
  courseKeys : ((db .courses).map (keyOf .courses)).Nodup
  userKeys : ((db .users).map (keyOf .users)).Nodup
  courses : ∀ c ∈ db .courses, CourseValid c
  users : ∀ u ∈ db .users, columnError .users u = none

/-- Of the rows in scope, at most one has an identifier. -/
theorem scopeRows_eq {t : Table} {tx : Tx} (hkeys : ((w.db t).map (keyOf t)).Nodup)
    (hw : tx.writes = []) {r r' : Row t} (hr : r ∈ scopeRows rc w tx t)
    (hr' : r' ∈ scopeRows rc w tx t) (hkey : keyOf t r = keyOf t r') : r = r' :=
  List.inj_on_of_nodup_map (scopeRows_unique hkeys hw) hr hr' hkey

theorem courseUpdateKept_iff {courseId : Uuid} {data : CourseUpdate} (hrows : RowsValid w.db)
    (hadm : data.Admitted) : CourseUpdateKept env w bound rc courseId data ↔
      ∀ c ∈ scopeRows rc w (openTx env bound) .courses, c.id = courseId →
        data.Storable c w.db := by
  have hends := @getDb_ends env w bound Course (fun s => updateCourse rc s courseId data) _
    (fun e db => db = w.db ∧ (IsApp e ↔ ∀ c ∈ scopeRows rc w (openTx env bound) .courses,
      c.id = courseId → data.Storable c w.db))
    (@updateCourse_outcome env w.tick (openTx env bound) [] rc ⟨env.clock w.ticks⟩ courseId data
      hrows.courseKeys hrows.courses hadm rfl rfl)
  refine hends.iff_of ?_ fun e s' h => ?_
  · rintro a s' ⟨c, hc, rfl, hstorable, row, hupdated, hrewritten⟩
    refine iff_of_true ?_ fun c' hc' hid => ?_
    · exact ⟨c, ((mem_seen rfl).mp (mem_scopeRows.mp hc).1).1, rfl, row, hupdated, hrewritten⟩
    · rw [scopeRows_eq hrows.courseKeys rfl hc' hc (congrArg (fun i => [i]) hid)]
      exact hstorable
  · exact ⟨fun hkept => h.2.mp hkept.1, fun hstorable => ⟨h.2.mpr hstorable, h.1⟩⟩

theorem userUpdateKept_iff {userId : Uuid} {data : AdminUserUpdate} (hrows : RowsValid w.db)
    (htid : rc.tenantId = some tid) (hadm : data.Admitted) :
    UserUpdateKept env w bound rc userId data ↔
      ∀ u ∈ scopeRows rc w (openTx env bound) .users, u.id = userId →
        data.nullColumn = none := by
  have hends := @getDb_ends env w bound LoadedUser (fun s => updateUser env rc s userId data) _
    (fun e db => db = w.db ∧ data.Refused (scopeRows rc w (openTx env bound) .users) userId e)
    (@updateUser_outcome env w.tick (openTx env bound) [] rc ⟨env.clock w.ticks⟩ tid userId data
      hrows.codes htid hrows.userKeys hrows.users hadm rfl rfl)
  refine hends.iff_of ?_ fun e s' h => ?_
  · rintro a s' ⟨u, hu, rfl, hnull, row, hupdated, hassigned⟩
    refine iff_of_true ?_ fun _ _ _ => hnull
    exact ⟨u, ((mem_seen rfl).mp (mem_scopeRows.mp hu).1).1, rfl, row, hupdated, hassigned.users,
      hassigned.kept⟩
  · obtain ⟨hdb, ⟨happ, hnone⟩ | ⟨hdatabase, hnull, u, hu, hid⟩⟩ := h
    · exact iff_of_true ⟨happ, hdb⟩ fun u hu hid => absurd hid (hnone u hu)
    · exact iff_of_false (fun hkept => hdatabase hkept.1) fun h => hnull (h u hu hid)

namespace Faculty

/-- A tenant with one course, one account and one role. -/
def world : World := World.fresh 10 fun
  | .tenants => [{ id := 1, name := "Acme", slug := "acme" }]
  | .courses =>
    [{ id := 2, tenantId := 1, title := "Python", slug := "python", summary := none,
       description := none, categoryId := none, thumbnailUrl := none, createdAt := 0,
       updatedAt := 0 }]
  | .users =>
    [{ id := 3, tenantId := 1, email := "ann@acme", hashedPassword := "x", createdAt := 0,
       updatedAt := 0 }]
  | .roles => [{ id := 4, tenantId := 1, code := "student", name := "Student" }]
  | _ => []

/-- A request of the tenant. -/
def context : RequestContext := { requestId := "r", tenantId := some 1, userId := some 3 }

theorem rowsValid : RowsValid world.db where
  codes := ⟨by decide, by decide, by decide, by decide⟩
  courseKeys := by decide
  userKeys := by decide
  courses := by
    intro c hc
    obtain rfl := List.mem_singleton.mp hc
    exact ⟨by decide +kernel, by decide +kernel⟩
  users := by decide +kernel

theorem called : Called Students.platform context context world.db 1 :=
  ⟨rfl, rfl, rfl, by decide⟩

/-- A text that is longer than the column is refused by the database. -/
theorem summary_refused {text : String} (hlong : 500 < text.length) :
    ¬ CourseUpdateKept Students.platform world context context 2
      { summary := some (some text) } := by
  rw [courseUpdateKept_iff rowsValid (by rintro _ ⟨⟩)]
  intro hstorable
  have hshort := (hstorable _ (List.mem_singleton_self _) rfl).summary text rfl
  exact absurd hlong (Nat.not_lt.mpr hshort)

end Faculty

end LmsBackend
