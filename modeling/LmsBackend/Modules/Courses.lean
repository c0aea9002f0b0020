import LmsBackend.Core.Events
import LmsBackend.Modules.Identity

/-!
# Course catalog

`app.modules.courses`: listing, details, enrolment and the course management
that the admin router uses.

- `CourseUpdate`: a field is absent, null or set; `CourseUpdate.apply` writes
  what is set, and `CourseUpdate.nullColumn` names a `NOT NULL` column that the
  payload sets to null.
-/

namespace LmsBackend

variable (env : Env)

/-! ## Schemas -/

/-- `CourseFilter`. -/
structure CourseFilter extends PageParams where
  categoryId : Option Uuid := none
  level : Option CourseLevel := none
  status : Option CourseStatus := none
  isFree : Option Bool := none

/-- `CourseOut`. -/
structure CourseOut where
  id : Uuid
  title : String
  slug : String
  summary : Option String
  categoryId : Option Uuid
  status : CourseStatus
  level : CourseLevel
  isFree : Bool
  price : Rat
  thumbnailUrl : Option String
  enrollmentCount : Int
  publishedAt : Option Time
  createdAt : Time
  deriving DecidableEq

/-- `CourseOut.model_validate`. -/
def CourseOut.ofCourse (c : Course) : CourseOut where
  id := c.id
  title := c.title
  slug := c.slug
  summary := c.summary
  categoryId := c.categoryId
  status := c.status
  level := c.level
  isFree := c.isFree
  price := c.price
  thumbnailUrl := c.thumbnailUrl
  enrollmentCount := c.enrollmentCount
  publishedAt := c.publishedAt
  createdAt := c.createdAt

/-- `CourseDetailOut`. -/
structure CourseDetailOut where
  course : CourseOut
  description : Option String
  deriving DecidableEq

/-- `EnrollmentOut`. -/
structure EnrollmentOut where
  id : Uuid
  courseId : Uuid
  userId : Uuid
  status : EnrollmentStatus
  progressPct : Int
  enrolledAt : Time
  completedAt : Option Time
  deriving DecidableEq

/-- `EnrollmentOut.model_validate`. -/
def EnrollmentOut.ofEnrollment (e : CourseEnrollment) : EnrollmentOut where
  id := e.id
  courseId := e.courseId
  userId := e.userId
  status := e.status
  progressPct := e.progressPct
  enrolledAt := e.enrolledAt
  completedAt := e.completedAt

/-- `CourseCreate`. -/
structure CourseCreate where
  title : String
  slug : String
  summary : Option String := none
  description : Option String := none
  categoryId : Option Uuid := none
  level : CourseLevel := .beginner
  isFree : Bool := true
  price : Rat := 0
  thumbnailUrl : Option String := none

/-- A field of a partial update: absent, null or set. -/
abbrev Change (α : Type) := Option (Option α)

/-- `CourseUpdate`. -/
structure CourseUpdate where
  title : Change String := none
  summary : Change String := none
  description : Change String := none
  categoryId : Change Uuid := none
  level : Change CourseLevel := none
  status : Change CourseStatus := none
  isFree : Change Bool := none
  price : Change Rat := none
  thumbnailUrl : Change String := none

/-- `setattr(course, k, v)` for every field that is set. -/
def CourseUpdate.apply (d : CourseUpdate) (c : Course) : Course :=
  { c with
    title := d.title.join.getD c.title
    summary := d.summary.getD c.summary
    description := d.description.getD c.description
    categoryId := d.categoryId.getD c.categoryId
    level := d.level.join.getD c.level
    status := d.status.join.getD c.status
    isFree := d.isFree.join.getD c.isFree
    price := d.price.join.getD c.price
    thumbnailUrl := d.thumbnailUrl.getD c.thumbnailUrl }

/-- The first `NOT NULL` column of `courses` that is set to null. -/
def CourseUpdate.nullColumn (d : CourseUpdate) : Option String :=
  if d.title = some none then some "title"
  else if d.level = some none then some "level"
  else if d.status = some none then some "status"
  else if d.isFree = some none then some "is_free"
  else if d.price = some none then some "price"
  else none

/-! ## Repositories -/

/-- `CourseRepository._apply_search`. -/
def searchCourse (term : String) (c : Course) : Bool :=
  env.ilike c.title (like term) || c.summary.any (env.ilike · (like term))

/-- The condition of `CourseRepository.filtered`, `_select` aside. -/
def filteredCourse (f : CourseFilter) (publishedOnly : Bool) (c : Course) : Bool :=
  ((truthy f.search).all fun term => searchCourse env term c) &&
  (f.categoryId.all fun x => c.categoryId = some x) &&
  (f.level.all fun x => c.level = x) &&
  (f.isFree.all fun x => c.isFree = x) &&
  (if publishedOnly then decide (c.status = .published)
    else f.status.all fun x => c.status = x)

/-- The position of a status in its database enumeration. -/
def CourseStatus.index : CourseStatus → Nat
  | .draft => 0
  | .published => 1
  | .archived => 2

/-- The position of a level in its database enumeration. -/
def CourseLevel.index : CourseLevel → Nat
  | .beginner => 0
  | .intermediate => 1
  | .advanced => 2

/-- The attributes of the model class `Course`. -/
def courseAttribute : String → Attribute Course
  | "id" => .column fun c => .number c.id
  | "tenant_id" => .column fun c => .number c.tenantId
  | "title" => .column fun c => .text c.title
  | "slug" => .column fun c => .text c.slug
  | "summary" => .column fun c => .text? c.summary
  | "description" => .column fun c => .text? c.description
  | "category_id" => .column fun c => .number? c.categoryId
  | "status" => .column fun c => .number c.status.index
  | "level" => .column fun c => .number c.level.index
  | "is_free" => .column fun c => .number (if c.isFree then 1 else 0)
  | "price" => .column fun c => .number c.price
  | "thumbnail_url" => .column fun c => .text? c.thumbnailUrl
  | "enrollment_count" => .column fun c => .number c.enrollmentCount
  | "published_at" => .column fun c => .number? c.publishedAt
  | "created_at" => .column fun c => .number c.createdAt
  | "updated_at" => .column fun c => .number c.updatedAt
  | "deleted_at" => .column fun c => .number? c.deletedAt
  | "is_deleted" => .other
  | "metadata" => .other
  | "registry" => .other
  | name => if env.classAttribute name then .other else .missing

/-- `EnrollmentRepository.get_for_user_course`; the course of a row is loaded with it. -/
def getForUserCourse (rc : RequestContext) (userId courseId : Uuid) :
    M (Option CourseEnrollment) := do
  let rows ← repoSelect rc .courseEnrollments fun e => e.userId = userId && e.courseId = courseId
  let _ ← query .courses fun c => rows.any fun e => e.courseId = c.id
  scalarOneOrNone rows

/-! ## Service -/

/-- `CourseService.list_courses`. -/
def listCourses (rc : RequestContext) (f : CourseFilter) (publishedOnly : Bool) :
    M (List Course × Nat) := do
  let p := filteredCourse env f publishedOnly
  let total ← count .courses fun r => inScope rc .courses r && p r
  let rows ← arrange env (← repoSelect rc .courses p)
  let sort := (truthy f.sort).getD "-created_at"
  let rows ← applySort env (courseAttribute env) (some sort) rows
  sendPage f.toPageParams
  return (paginate f.toPageParams rows, total)

/-- `CourseService.get_course`. -/
def getCourse (rc : RequestContext) (courseId : Uuid) (publishedOnly : Bool) : M Course := do
  let course ← repoGetOr404 rc .courses courseId
  if publishedOnly && course.status ≠ .published then throwApp .notFound "Course not found"
  else return course

/-- `CourseService.enroll`. -/
def enroll (rc : RequestContext) (s : Session) (courseId userId : Uuid) :
    M CourseEnrollment := do
  let tenantId ← requireTenantId rc
  let course ← repoGetOr404 rc .courses courseId
  if course.status ≠ .published then
    throwApp .validation "Course is not open for enrollment"
  else do
    let existing ← getForUserCourse rc userId courseId
    if existing.any fun e => e.status ≠ .cancelled then
      throwApp .conflict "Already enrolled in this course"
    else do
      let now ← now
      let enrollment : CourseEnrollment :=
        { id := ← uuid4, tenantId, courseId, userId, status := .active, enrolledAt := now }
      repoAdd .courseEnrollments enrollment
      updateRow s .courses course.id fun c =>
        { c with enrollmentCount := course.enrollmentCount + 1 }
      publish env ⟨some tenantId, some userId, .courseEnrolled courseId enrollment.id⟩
      return enrollment

/-- `CourseService.create_course`. -/
def createCourse (rc : RequestContext) (s : Session) (data : CourseCreate) : M Course := do
  let tenantId ← requireTenantId rc
  if (← repoSelect rc .courses fun c => c.slug = data.slug) ≠ [] then
    throwApp .conflict ("Course slug '" ++ data.slug ++ "' already exists")
  else do
    let course : Course :=
      { id := ← uuid4, tenantId, title := data.title, slug := data.slug, summary := data.summary,
        description := data.description, categoryId := data.categoryId, level := data.level,
        isFree := data.isFree, price := data.price, thumbnailUrl := data.thumbnailUrl,
        createdAt := s.startedAt, updatedAt := s.startedAt }
    repoAdd .courses course
    publish env ⟨some tenantId, rc.userId, .courseCreated course.id course.title⟩
    return course

/-- `course.published_at` after an update: set on the first publication. -/
def publicationDate (course : Course) (data : CourseUpdate) : M (Option Time) :=
  if data.status = some (some .published) ∧ course.publishedAt = none then
    do return some (← now)
  else pure course.publishedAt

/-- `CourseService.update_course`. The flush writes the columns that changed, if any. -/
def updateCourse (rc : RequestContext) (s : Session) (courseId : Uuid) (data : CourseUpdate) :
    M Course := do
  let course ← repoGetOr404 rc .courses courseId
  let publishedAt ← publicationDate course data
  match data.nullColumn with
  | some column => .raise (.db (.notNullViolation column))
  | none =>
    let changed := { data.apply course with publishedAt := publishedAt }
    if changed = course then return course
    else do
      updateRow s .courses courseId fun c => { data.apply c with publishedAt := publishedAt }
      return changed

/-- `CourseService.delete_course`: a soft delete. -/
def deleteCourse (rc : RequestContext) (s : Session) (courseId : Uuid) : M Unit := do
  let course ← repoGetOr404 rc .courses courseId
  updateRow s .courses course.id fun c => { c with deletedAt := some s.startedAt }

end LmsBackend
