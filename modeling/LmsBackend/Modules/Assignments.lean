import LmsBackend.Core.Events
import LmsBackend.Modules.Identity

/-!
# Assignments

`app.modules.assignments`: listing, submission, auto-grading of quizzes and
manual grading. Points are exact rationals here; the columns round them to two
decimals when a row is written, the objects in memory keep what was assigned.
-/

namespace LmsBackend

variable (env : Env)

/-! ## Schemas -/

/-- `AssignmentFilter`. -/
structure AssignmentFilter extends PageParams where
  courseId : Option Uuid := none
  type : Option AssignmentType := none

/-- A question with its answers. -/
structure LoadedQuestion where
  question : QuizQuestion
  answers : List QuizAnswer

/-- A quiz with its questions, in order. -/
structure LoadedQuiz where
  quiz : Quiz
  questions : List LoadedQuestion

/-- An assignment with the quiz that is loaded with it. -/
structure LoadedAssignment where
  assignment : Assignment
  quiz : Option LoadedQuiz

/-- `QuizAnswerOut`: without `is_correct`. -/
structure QuizAnswerOut where
  id : Uuid
  text : String
  deriving DecidableEq

/-- `QuizQuestionOut`. -/
structure QuizQuestionOut where
  id : Uuid
  text : String
  type : QuestionType
  points : Rat
  orderIndex : Int
  answers : List QuizAnswerOut
  deriving DecidableEq

/-- `QuizOut`. -/
structure QuizOut where
  id : Uuid
  timeLimitSeconds : Int
  questions : List QuizQuestionOut
  deriving DecidableEq

/-- `AssignmentOut`. -/
structure AssignmentOut where
  id : Uuid
  courseId : Uuid
  title : String
  description : Option String
  type : AssignmentType
  maxPoints : Rat
  passPoints : Rat
  dueAt : Option Instant
  isPublished : Bool
  quiz : Option QuizOut
  deriving DecidableEq

/-- `QuizOut.model_validate`. -/
def QuizOut.ofQuiz (q : LoadedQuiz) : QuizOut where
  id := q.quiz.id
  timeLimitSeconds := q.quiz.timeLimitSeconds
  questions := q.questions.map fun x =>
    { id := x.question.id, text := x.question.text, type := x.question.type,
      points := x.question.points, orderIndex := x.question.orderIndex,
      answers := x.answers.map fun a => ⟨a.id, a.text⟩ }

/-- `AssignmentOut.model_validate`. -/
def AssignmentOut.ofAssignment (a : LoadedAssignment) : AssignmentOut where
  id := a.assignment.id
  courseId := a.assignment.courseId
  title := a.assignment.title
  description := a.assignment.description
  type := a.assignment.type
  maxPoints := a.assignment.maxPoints
  passPoints := a.assignment.passPoints
  dueAt := a.assignment.dueAt
  isPublished := a.assignment.isPublished
  quiz := a.quiz.map .ofQuiz

/-- `SubmitRequest`; the answers are a map from questions to selected answers. -/
structure SubmitRequest where
  content : Option String := none
  fileUrl : Option String := none
  answers : Option (List (Uuid × List Uuid)) := none

/-- `GradeRequest`. -/
structure GradeRequest where
  points : Rat
  feedback : Option String := none

/-- `GradeOut`. -/
structure GradeOut where
  id : Uuid
  submissionId : Uuid
  assignmentId : Uuid
  userId : Uuid
  points : Rat
  maxPoints : Rat
  feedback : Option String
  isAuto : Bool
  gradedAt : Time
  deriving DecidableEq

/-- `GradeOut.model_validate`. -/
def GradeOut.ofGrade (g : Grade) : GradeOut where
  id := g.id
  submissionId := g.submissionId
  assignmentId := g.assignmentId
  userId := g.userId
  points := g.points
  maxPoints := g.maxPoints
  feedback := g.feedback
  isAuto := g.isAuto
  gradedAt := g.gradedAt

/-- `SubmissionOut`. -/
structure SubmissionOut where
  id : Uuid
  assignmentId : Uuid
  userId : Uuid
  content : Option String
  fileUrl : Option String
  status : SubmissionStatus
  submittedAt : Time
  grade : Option GradeOut
  deriving DecidableEq

/-- `SubmissionOut.model_validate`. -/
def SubmissionOut.ofSubmission (s : Submission) (grade : Option Grade) : SubmissionOut where
  id := s.id
  assignmentId := s.assignmentId
  userId := s.userId
  content := s.content
  fileUrl := s.fileUrl
  status := s.status
  submittedAt := s.submittedAt
  grade := grade.map .ofGrade

/-! ## Repositories -/

/-- The quizzes of some assignments with their questions and answers, loaded
after them. -/
def loadAssignments (assignments : List Assignment) : M (List LoadedAssignment) := do
  let quizzes ← query .quizzes fun q => assignments.any fun a => a.id = q.assignmentId
  let questions ← queryAll env .quizQuestions fun q => quizzes.any fun z => z.id = q.quizId
  let questions := orderBy env (fun q : QuizQuestion => .number q.orderIndex) false questions
  let answers ← queryAll env .quizAnswers fun a => questions.any fun q => q.id = a.questionId
  let loaded (z : Quiz) : LoadedQuiz :=
    { quiz := z,
      questions := (questions.filter fun q => q.quizId = z.id).map fun q =>
        ⟨q, answers.filter fun a => a.questionId = q.id⟩ }
  return assignments.map fun a => ⟨a, (quizzes.find? fun z => z.assignmentId = a.id).map loaded⟩

/-- `AssignmentRepository.get_or_404`. -/
def getAssignmentOr404 (rc : RequestContext) (id : Uuid) : M LoadedAssignment := do
  match ← scalarOneOrNone (← loadAssignments env (← repoSelect rc .assignments fun a =>
      a.id = id)) with
  | some a => return a
  | none => notFound .assignments id

/-- The grades of some submissions, loaded after them. -/
def loadSubmissions (submissions : List Submission) : M (List (Submission × Option Grade)) := do
  let grades ← query .grades fun g => submissions.any fun s => s.id = g.submissionId
  return submissions.map fun s => (s, grades.find? fun g => g.submissionId = s.id)

/-- `GradeRepository.get_by_submission`. -/
def getBySubmission (rc : RequestContext) (submissionId : Uuid) : M (Option Grade) :=
  repoFind rc .grades fun g => g.submissionId = submissionId

/-- The condition of `AssignmentRepository.filtered`, `_select` aside. -/
def filteredAssignment (f : AssignmentFilter) (publishedOnly : Bool) (a : Assignment) : Bool :=
  (f.courseId.all fun x => a.courseId = x) && (f.type.all fun x => a.type = x) &&
  (!publishedOnly || a.isPublished)

/-! ## Service -/

/-- `AssignmentService.list_assignments`. -/
def listAssignments (rc : RequestContext) (f : AssignmentFilter) (publishedOnly : Bool) :
    M (List LoadedAssignment × Nat) := do
  let p := filteredAssignment f publishedOnly
  let total ← count .assignments fun r => inScope rc .assignments r && p r
  let rows ← arrange env (← repoSelect rc .assignments p)
  let rows := orderBy env (fun a : Assignment => .number a.createdAt) true rows
  sendPage f.toPageParams
  return (← loadAssignments env (paginate f.toPageParams rows), total)

/-- The grade row of a submission: a new one, or the existing one changed. The
maximum of an existing grade stays. -/
def saveGrade (s : Session) (tenantId : Uuid) (submission : Submission) (existing : Option Grade)
    (points maxPoints : Rat) (isAuto : Bool) (gradedBy : Option Uuid)
    (feedback : Option String) (gradedAt : Time) : M Grade := do
  match existing with
  | none =>
    let grade : Grade :=
      { id := ← uuid4, tenantId, submissionId := submission.id,
        assignmentId := submission.assignmentId, userId := submission.userId, points,
        maxPoints, feedback, isAuto, gradedBy, gradedAt }
    add .grades grade
    return grade
  | some grade =>
    let regrade := fun g : Grade =>
      { g with points, feedback := feedback <|> grade.feedback, isAuto, gradedBy, gradedAt }
    updateRow s .grades grade.id regrade
    return regrade grade

/-- `AssignmentService._record_grade`. The grade is the object in memory. -/
def recordGrade (rc : RequestContext) (s : Session) (submission : Submission)
    (points maxPoints : Rat) (isAuto : Bool) (gradedBy : Option Uuid)
    (feedback : Option String) : M Grade := do
  let tenantId ← requireTenantId rc
  let now ← now
  let existing ← getBySubmission rc submission.id
  let grade ← saveGrade s tenantId submission existing points maxPoints isAuto gradedBy feedback now
  updateRow s .submissions submission.id fun r => { r with status := .graded }
  flush
  publish env ⟨some tenantId, some submission.userId,
    .submissionGraded submission.id points isAuto⟩
  return grade

/-- The points a question earns: all of them for exactly the correct answers. -/
def questionPoints (answers : List (Uuid × List Uuid)) (q : LoadedQuestion) : Rat :=
  let correct : List Uuid := (q.answers.filter (·.isCorrect)).map (·.id)
  let selected : List Uuid := ((answers.find? fun x => x.1 = q.question.id).map (·.2)).getD []
  if selected ≠ [] ∧ (∀ x ∈ selected, x ∈ correct) ∧ ∀ x ∈ correct, x ∈ selected then
    q.question.points
  else 0

/-- The points earned over all questions. -/
def earnedPoints (questions : List LoadedQuestion) (answers : List (Uuid × List Uuid)) : Rat :=
  (questions.map (questionPoints answers)).sum

/-- The points of all questions. -/
def possiblePoints (questions : List LoadedQuestion) : Rat :=
  (questions.map fun q => q.question.points).sum

/-- `AssignmentService._auto_grade`. -/
def autoGrade (rc : RequestContext) (s : Session) (assignment : Assignment) (quiz : LoadedQuiz)
    (submission : Submission) (answers : List (Uuid × List Uuid)) : M Grade :=
  let earned := earnedPoints quiz.questions answers
  let possible := possiblePoints quiz.questions
  let maxPts := assignment.maxPoints
  let scaled := if possible ≠ 0 then earned / possible * maxPts else 0
  recordGrade env rc s submission scaled maxPts true none none

/-- The auto-grading step of `submit`, and the submission's status after it. -/
def gradeQuiz (rc : RequestContext) (s : Session) (a : LoadedAssignment) (submission : Submission)
    (answers : List (Uuid × List Uuid)) : M SubmissionStatus := do
  match a.assignment.type, a.quiz with
  | .quiz, some quiz =>
    let _ ← autoGrade env rc s a.assignment quiz submission answers
    return .graded
  | _, _ => return .submitted

/-- `AssignmentService.submit`. -/
def submit (rc : RequestContext) (s : Session) (assignmentId userId : Uuid)
    (data : SubmitRequest) : M (Submission × Option Grade) := do
  let tenantId ← requireTenantId rc
  let a ← getAssignmentOr404 env rc assignmentId
  if !a.assignment.isPublished then
    throwApp .validation "Assignment is not open for submission"
  else do
    let now ← now
    let submission : Submission :=
      { id := ← uuid4, tenantId, assignmentId, userId, content := data.content,
        fileUrl := data.fileUrl, answers := data.answers.filter (· ≠ []), status := .submitted,
        submittedAt := now }
    repoAdd .submissions submission
    publish env ⟨some tenantId, some userId, .assignmentSubmitted assignmentId submission.id⟩
    let status ← gradeQuiz env rc s a submission (data.answers.getD [])
    let grades ← query .grades fun g => g.submissionId = submission.id
    return ({ submission with status }, grades.head?)

/-- `AssignmentService.grade_submission`. -/
def gradeSubmission (rc : RequestContext) (s : Session) (submissionId : Uuid)
    (data : GradeRequest) (graderId : Uuid) : M Grade := do
  let rows ← loadSubmissions (← repoSelect rc .submissions fun r => r.id = submissionId)
  match ← scalarOneOrNone rows with
  | none => notFound .submissions submissionId
  | some (submission, _) =>
    let a ← getAssignmentOr404 env rc submission.assignmentId
    if a.assignment.maxPoints < data.points then
      throwApp .validation "Points exceed assignment maximum"
    else
      recordGrade env rc s submission data.points a.assignment.maxPoints false (some graderId)
        data.feedback

/-- `AssignmentService.list_grades`. -/
def listGrades (rc : RequestContext) (userId : Uuid) (params : PageParams) :
    M (List Grade × Nat) := do
  let p := fun g : Grade => g.userId = userId
  let total ← count .grades fun r => inScope rc .grades r && p r
  let rows ← arrange env (← repoSelect rc .grades fun r => p r)
  let rows := orderBy env (fun g : Grade => .number g.gradedAt) true rows
  sendPage params
  return (paginate params rows, total)

/-- `AssignmentService.list_submissions_for_assignment`. -/
def listSubmissionsForAssignment (rc : RequestContext) (assignmentId : Uuid) :
    M (List (Submission × Option Grade)) := do
  let rows ← arrange env (← repoSelect rc .submissions fun r => r.assignmentId = assignmentId)
  loadSubmissions (orderBy env (fun r : Submission => .number r.submittedAt) true rows)

end LmsBackend
