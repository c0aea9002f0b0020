import LmsBackend.Core.Events
import LmsBackend.Modules.Identity

/-!
# Learning

`app.modules.learning`: the lessons of a course, their completion, and a
learner's progress.
-/

namespace LmsBackend

variable (env : Env)

/-! ## Schemas -/

/-- `VideoAssetOut`. -/
structure VideoAssetOut where
  url : String
  hlsUrl : Option String
  durationSeconds : Int
  deriving DecidableEq

/-- `DocumentAssetOut`. -/
structure DocumentAssetOut where
  fileUrl : String
  fileType : String
  sizeBytes : Int
  deriving DecidableEq

/-- A lesson with the assets that are loaded with it. -/
structure LoadedLesson where
  lesson : Lesson
  video : Option VideoAsset
  document : Option DocumentAsset

/-- `LessonOut`. -/
structure LessonOut where
  id : Uuid
  courseId : Uuid
  moduleId : Option Uuid
  title : String
  contentType : LessonType
  orderIndex : Int
  durationSeconds : Int
  isPreview : Bool
  video : Option VideoAssetOut
  document : Option DocumentAssetOut
  deriving DecidableEq

/-- `LessonOut.model_validate`. -/
def LessonOut.ofLesson (l : LoadedLesson) : LessonOut where
  id := l.lesson.id
  courseId := l.lesson.courseId
  moduleId := l.lesson.moduleId
  title := l.lesson.title
  contentType := l.lesson.contentType
  orderIndex := l.lesson.orderIndex
  durationSeconds := l.lesson.durationSeconds
  isPreview := l.lesson.isPreview
  video := l.video.map fun v => ⟨v.url, v.hlsUrl, v.durationSeconds⟩
  document := l.document.map fun d => ⟨d.fileUrl, d.fileType, d.sizeBytes⟩

/-- `LessonProgressOut`. -/
structure LessonProgressOut where
  id : Uuid
  lessonId : Uuid
  courseId : Uuid
  status : ProgressStatus
  lastPositionSeconds : Int
  completedAt : Option Time
  deriving DecidableEq

/-- `LessonProgressOut.model_validate`. -/
def LessonProgressOut.ofProgress (p : LessonProgress) : LessonProgressOut where
  id := p.id
  lessonId := p.lessonId
  courseId := p.courseId
  status := p.status
  lastPositionSeconds := p.lastPositionSeconds
  completedAt := p.completedAt

/-! ## Repositories -/

/-- The assets of some lessons, loaded after them. -/
def loadLessons (lessons : List Lesson) : M (List LoadedLesson) := do
  let videos ← query .videoAssets fun v => lessons.any fun l => l.id = v.lessonId
  let documents ← query .documentAssets fun d => lessons.any fun l => l.id = d.lessonId
  return lessons.map fun l =>
    ⟨l, videos.find? fun v => v.lessonId = l.id, documents.find? fun d => d.lessonId = l.id⟩

/-- `LessonProgressRepository.get_for_user_lesson`. -/
def getForUserLesson (rc : RequestContext) (userId lessonId : Uuid) :
    M (Option LessonProgress) :=
  repoFind rc .lessonProgress fun p => p.userId = userId && p.lessonId = lessonId

/-! ## Service -/

/-- `LearningService.list_lessons`. -/
def listLessons (rc : RequestContext) (courseId : Uuid) : M (List LoadedLesson) := do
  let rows ← arrange env (← repoSelect rc .lessons fun l => l.courseId = courseId)
  loadLessons (orderBy env (fun l : Lesson => .number l.orderIndex) false rows)

/-- The progress row of a completed lesson: a new one, or the existing one changed. -/
def recordProgress (s : Session) (tenantId userId : Uuid) (lesson : Lesson)
    (progress : Option LessonProgress) (lastPositionSeconds : Int) : M LessonProgress := do
  let now ← now
  match progress with
  | none =>
    let row : LessonProgress :=
      { id := ← uuid4, tenantId, lessonId := lesson.id, courseId := lesson.courseId, userId,
        status := .completed, lastPositionSeconds, completedAt := some now }
    repoAdd .lessonProgress row
    return row
  | some progress =>
    let complete := fun p : LessonProgress =>
      { p with status := .completed, completedAt := some now, lastPositionSeconds }
    updateRow s .lessonProgress progress.id complete
    return complete progress

/-- `LearningService.complete_lesson`. -/
def completeLesson (rc : RequestContext) (s : Session) (lessonId userId : Uuid)
    (lastPositionSeconds : Int) : M LessonProgress := do
  let tenantId ← requireTenantId rc
  let lesson ← repoFind rc .lessons fun l => l.id = lessonId
  let _ ← loadLessons lesson.toList
  match lesson with
  | none => notFound .lessons lessonId
  | some lesson =>
    let progress ← getForUserLesson rc userId lessonId
    let progress ← recordProgress s tenantId userId lesson progress lastPositionSeconds
    publish env ⟨some tenantId, some userId, .lessonCompleted lessonId lesson.courseId⟩
    return progress

/-- `LearningService.my_progress`. -/
def myProgress (rc : RequestContext) (userId : Uuid) (params : PageParams) :
    M (List LessonProgress × Nat) := do
  let p := fun r : LessonProgress => r.userId = userId
  let total ← count .lessonProgress fun r => inScope rc .lessonProgress r && p r
  let rows ← arrange env (← repoSelect rc .lessonProgress fun r => p r)
  sendPage params
  return (paginate params rows, total)

end LmsBackend
