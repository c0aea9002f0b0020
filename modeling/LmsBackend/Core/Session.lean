import LmsBackend.Core.World

/-!
# Request context, database sessions and repositories

- `RequestContext`: what the context variable holds. Handlers never assign it;
  `get_current_user` replaces it, so it is passed as a value.
- `getDb`, `tenantSession`: the two units of work. Both bind the row-level
  security settings; they differ in who sees a failing commit. The code after
  `yield` in `get_db` runs once the response is out, so a failing commit there
  does not change the answer.
- `repoSelect`: `TenantRepository._select`, and the reads and writes built on it.
-/

namespace LmsBackend

open Mvcc

/-! ## Request context -/

/-- `app.core.context.RequestContext`. -/
structure RequestContext where
  requestId : String
  tenantId : Option Uuid := none
  userId : Option Uuid := none
  roles : List String := []
  permissions : List String := []
  ipAddress : Option String := none
  isSuperadmin : Bool := false

/-- `ctx.require_tenant_id()`. -/
def requireTenantId (rc : RequestContext) : M Uuid :=
  match rc.tenantId with
  | some tid => .ret tid
  | none => .raise (.unhandled (.runtimeError
    "No tenant in context — tenant-scoped operation attempted unscoped"))

/-! ## Units of work -/

/-- An open session: `startedAt` is what `now()` is in its transaction. -/
structure Session where
  startedAt : Time

variable (env : Env)

/-- `_bind_rls`. -/
def bindRls (tenantId : Option Uuid) (bypass : Bool) : M Unit := do
  if env.settings.enableRowLevelSecurity then
    sql (.set fun g => { g with bypassRls := bypass })
    match tenantId with
    | some tid => sql (.set fun g => { g with tenantId := some tid })
    | none => pure ()

/-- Insert one row. -/
def insertRow (x : AnyRow Row) : M Unit := do
  match ← sql (.insert x.1 x.2) with
  | .ok _ => pure ()
  | .error e => .raise (.db e)

/-- `session.flush()` on the objects added so far. -/
def flush : M Unit := do
  let rows ← sql .takePending
  Prog.forEach rows insertRow

/-- `session.begin()`. -/
def beginSession : M Session := do
  sql .begin
  return ⟨← now⟩

/-- `session.commit()`: flush, then commit; roll back if the flush fails. -/
def commitSession : M (Except Err Unit) := do
  match ← Prog.attempt flush with
  | .ok () => do
    sql .commit
    return .ok ()
  | .error e => do
    sql .rollback
    return .error e

/-- `get_db`: the request's unit of work around the code that uses it. -/
def getDb {α : Type} (rc : Option RequestContext) (body : Session → M α) : M α := do
  let s ← beginSession
  let tenantId := rc.bind (·.tenantId)
  let bypass := (rc.map (·.isSuperadmin)).getD false
  match ← Prog.attempt (do bindRls env tenantId bypass; body s) with
  | .ok a => do
    let _ ← commitSession
    return a
  | .error e => do
    sql .rollback
    .raise e

/-- `tenant_session`: a unit of work of its own, outside the request's. -/
def tenantSession {α : Type} (tenantId : Option Uuid) (bypassRls : Bool)
    (body : Session → M α) : M α := do
  let s ← beginSession
  match ← Prog.attempt (do bindRls env tenantId bypassRls; body s) with
  | .ok a => do
    match ← commitSession with
    | .ok () => return a
    | .error e => .raise e
  | .error e => do
    sql .rollback
    .raise e

/-! ## Statements -/

/-- The rows of a table that satisfy a condition. -/
def query (t : Table) (p : Row t → Bool) : M (List (Row t)) := sql (.select t fun _ => p)

/-- Put rows in the order the database happens to return them. -/
def arrange {α : Type} (rows : List α) : M (List α) := do
  let seed ← perform .draw
  return (env.rowOrder seed rows.length).filterMap fun i => rows[i]?

/-- The rows of a query without `ORDER BY`. -/
def queryAll (t : Table) (p : Row t → Bool) : M (List (Row t)) := do arrange env (← query t p)

/-- `result.scalar_one_or_none()`. -/
def scalarOneOrNone {α : Type} : List α → M (Option α)
  | [] => .ret none
  | [a] => .ret (some a)
  | _ => .raise (.unhandled .multipleResultsFound)

/-- `select(func.count())`. -/
def count (t : Table) (p : Row t → Bool) : M Nat := do return (← query t p).length

/-- The `UPDATE` by primary key with which a flush writes a changed object. -/
def updateRow (s : Session) (t : Table) (id : Uuid) (f : Row t → Row t) : M Unit := do
  match ← sql (.update t [id] (fun _ => true) fun r => touch s.startedAt t (f r)) with
  | .ok 0 => .raise (.unhandled .staleData)
  | .ok _ => pure ()
  | .error e => .raise (.db e)

/-- `session.add(obj)`. -/
def add (t : Table) (r : Row t) : M Unit := sql (.add t r)

/-! ## Repositories -/

/-- The condition of `TenantRepository._select`: not soft-deleted, and of the
current tenant if there is one. -/
def inScope (rc : RequestContext) (t : Table) (r : Row t) : Bool :=
  (deletedAtOf t r).isNone &&
    match rc.tenantId with
    | some tid => (tenantOf t r).all (· = tid)
    | none => true

/-- `self._select().where(p)`. -/
def repoSelect (rc : RequestContext) (t : Table) (p : Row t → Bool) : M (List (Row t)) :=
  query t fun r => inScope rc t r && p r

/-- `repo.get(id)`, and the other lookups that end in `scalar_one_or_none`. -/
def repoFind (rc : RequestContext) (t : Table) (p : Row t → Bool) : M (Option (Row t)) := do
  scalarOneOrNone (← repoSelect rc t p)

/-- The name of a model class in `NotFoundError(f"{model.__name__} {id} not found")`. -/
def modelName : Table → String
  | .tenants => "Tenant"
  | .modules => "Module"
  | .tenantModules => "TenantModule"
  | .permissions => "Permission"
  | .userRoles => "user_roles"
  | .rolePermissions => "role_permissions"
  | .users => "User"
  | .roles => "Role"
  | .userSessions => "UserSession"
  | .categories => "Category"
  | .courses => "Course"
  | .courseInstructors => "CourseInstructor"
  | .courseEnrollments => "CourseEnrollment"
  | .courseModules => "CourseModule"
  | .lessons => "Lesson"
  | .videoAssets => "VideoAsset"
  | .documentAssets => "DocumentAsset"
  | .lessonProgress => "LessonProgress"
  | .assignments => "Assignment"
  | .quizzes => "Quiz"
  | .quizQuestions => "QuizQuestion"
  | .quizAnswers => "QuizAnswer"
  | .submissions => "Submission"
  | .grades => "Grade"
  | .auditLogs => "AuditLog"

/-- `raise NotFoundError(f"{self.model.__name__} {id} not found")`. -/
def notFound {α : Type} (t : Table) (id : Uuid) : M α :=
  throwApp .notFound (modelName t ++ " " ++ uuidStr id ++ " not found")

/-- `repo.get_or_404(id)`. -/
def repoGetOr404 (rc : RequestContext) (t : Table) (id : Uuid) : M (Row t) := do
  match ← repoFind rc t (fun r => keyOf t r = [id]) with
  | some r => return r
  | none => notFound t id

/-- `repo.add(obj)`. -/
def repoAdd (t : Table) (r : Row t) : M Unit := do
  add t r
  flush

/-! ## Paging and sorting -/

/-- `PageParams`. -/
structure PageParams where
  page : Nat := 1
  size : Nat := 20
  search : Option String := none
  sort : Option String := none
  deriving DecidableEq

/-- `PageParams.offset`. -/
def PageParams.offset (p : PageParams) : Nat := (p.page - 1) * p.size

/-- `PageParams.limit`. -/
def PageParams.limit (p : PageParams) : Nat := p.size

/-- `Page`. -/
structure Page (α : Type) where
  items : List α
  total : Nat
  page : Nat
  size : Nat
  pages : Nat
  deriving DecidableEq

/-- `Page.create`. -/
def Page.create {α : Type} (items : List α) (total : Nat) (params : PageParams) : Page α where
  items := items
  total := total
  page := params.page
  size := params.size
  pages := if params.size = 0 then 0 else (total + params.size - 1) / params.size

/-- A column's value, as far as `ORDER BY` compares it. -/
inductive SortValue
  | text (s : String)
  | number (q : Rat)
  | null

/-- A nullable text column. -/
def SortValue.text? : Option String → SortValue
  | some s => .text s
  | none => .null

/-- A nullable number or timestamp column. -/
def SortValue.number? : Option Nat → SortValue
  | some n => .number n
  | none => .null

/-- `a <= b` in ascending order, nulls last. -/
def SortValue.le : SortValue → SortValue → Bool
  | _, .null => true
  | .null, _ => false
  | .text a, .text b => env.collate a b
  | .number a, .number b => a ≤ b
  | .text _, .number _ => true
  | .number _, .text _ => false

/-- What `getattr(model, field, None)` finds. -/
inductive Attribute (α : Type)
  | missing
  | column (value : α → SortValue)
  | other

/-- Rows sorted by a column; descending order puts nulls first. -/
def orderBy {α : Type} (value : α → SortValue) (desc : Bool) (rows : List α) : List α :=
  rows.insertionSort fun a b =>
    (if desc then (value b).le env (value a) else (value a).le env (value b)) = true

/-- `ORDER BY` the attribute of the model class with this name. An attribute
that is not a column has no usable `asc()` or `desc()`. -/
def sortByField {α : Type} (getattr : String → Attribute α) (field : String) (desc : Bool)
    (rows : List α) : M (List α) :=
  match getattr field with
  | .missing => .ret rows
  | .column value => .ret (orderBy env value desc rows)
  | .other => .raise (.unhandled (.runtimeError ("cannot sort by " ++ field)))

/-- `_apply_sort`. -/
def applySort {α : Type} (getattr : String → Attribute α) (sort : Option String)
    (rows : List α) : M (List α) :=
  match sort.map (·.toList) with
  | none => .ret rows
  | some [] => .ret rows
  | some ('-' :: field) => sortByField env getattr (String.ofList field) true rows
  | some field => sortByField env getattr (String.ofList field) false rows

/-- The bounds of the page are `bigint`s. -/
def PageParams.Fits (p : PageParams) : Prop := p.offset < 2 ^ 63 ∧ p.limit < 2 ^ 63

instance (p : PageParams) : Decidable p.Fits := inferInstanceAs (Decidable (_ ∧ _))

/-- The driver sends the bounds of the page. -/
def sendPage (params : PageParams) : M Unit :=
  if params.Fits then .ret () else .raise (.db (.invalidInput "value out of int64 range"))

/-- `.offset(params.offset).limit(params.limit)`. -/
def paginate {α : Type} (params : PageParams) (rows : List α) : List α :=
  (rows.drop params.offset).take params.limit

/-- `f"%{term}%"`. -/
def like (term : String) : String := "%" ++ term ++ "%"

end LmsBackend
