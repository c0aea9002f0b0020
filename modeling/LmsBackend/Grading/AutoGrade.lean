import Mathlib.Algebra.Order.BigOperators.Group.List
import Mathlib.Algebra.Order.Field.Rat
import Mathlib.Data.Finset.Basic
import Mathlib.Data.Rat.Floor
import Mathlib.Tactic.Linarith
import Mathlib.Tactic.FieldSimp
import LmsBackend.Core.Numeric
import LmsBackend.Core.Platform
import LmsBackend.Effects.Serve
import LmsBackend.Modules.Assignments

/-!
# The grade of a quiz

The points that `_auto_grade` records, over exact rationals, and what a `NUMERIC(6, 2)`
column makes of them.

- `AnsweredExactly`: the selected answers of a question are its correct ones.
- `quizShare`: the share of the maximum that goes to the questions answered exactly.
- `autoGrade_points`: a grade that `_auto_grade` returns carries that share.
- `auto_grade_correct`: its bounds, when it is the maximum, and what it does not depend on.
-/

namespace LmsBackend

open Mvcc

variable {env : Env}

/-! ## Questions -/

/-- The answers selected for a question. -/
def selectedFor (answers : List (Uuid × List Uuid)) (q : LoadedQuestion) : List Uuid :=
  ((answers.find? fun x => x.1 = q.question.id).map (·.2)).getD []

/-- The correct answers of a question. -/
def correctIds (q : LoadedQuestion) : List Uuid := (q.answers.filter (·.isCorrect)).map (·.id)

/-- The set of selected answers is not empty and is the set of correct ones. -/
def AnsweredExactly (answers : List (Uuid × List Uuid)) (q : LoadedQuestion) : Prop :=
  (selectedFor answers q).toFinset.Nonempty ∧
    (selectedFor answers q).toFinset = (correctIds q).toFinset

instance (answers : List (Uuid × List Uuid)) (q : LoadedQuestion) :
    Decidable (AnsweredExactly answers q) :=
  inferInstanceAs (Decidable (_ ∧ _))

theorem answeredExactly_iff {answers : List (Uuid × List Uuid)} {q : LoadedQuestion} :
    AnsweredExactly answers q ↔ selectedFor answers q ≠ [] ∧
      (∀ x ∈ selectedFor answers q, x ∈ correctIds q) ∧
      ∀ x ∈ correctIds q, x ∈ selectedFor answers q := by
  unfold AnsweredExactly
  rw [List.toFinset_nonempty_iff, Finset.ext_iff]
  simp only [List.mem_toFinset]
  refine and_congr_right fun _ => ?_
  constructor
  · intro h
    exact ⟨fun x hx => (h x).mp hx, fun x hx => (h x).mpr hx⟩
  · rintro ⟨h, h'⟩ x
    exact ⟨h x, h' x⟩

/-- A question earns its points exactly if it is answered exactly. -/
theorem questionPoints_eq (answers : List (Uuid × List Uuid)) (q : LoadedQuestion) :
    questionPoints answers q = if AnsweredExactly answers q then q.question.points else 0 :=
  if_congr answeredExactly_iff.symm rfl rfl

/-- Whether a question is answered exactly depends on the two sets. -/
theorem answeredExactly_congr {answers answers' : List (Uuid × List Uuid)} {q q' : LoadedQuestion}
    (hselected : ∀ x, x ∈ selectedFor answers q ↔ x ∈ selectedFor answers' q')
    (hcorrect : ∀ x, x ∈ correctIds q ↔ x ∈ correctIds q') :
    AnsweredExactly answers q ↔ AnsweredExactly answers' q' := by
  have hs : (selectedFor answers q).toFinset = (selectedFor answers' q').toFinset := by
    ext x
    rw [List.mem_toFinset, List.mem_toFinset]
    exact hselected x
  have hc : (correctIds q).toFinset = (correctIds q').toFinset := by
    ext x
    rw [List.mem_toFinset, List.mem_toFinset]
    exact hcorrect x
  rw [AnsweredExactly, AnsweredExactly, hs, hc]

/-! ## Quizzes -/

/-- The maximum times the points of the questions answered exactly, over all points; nothing
if the questions have no points. -/
def quizShare (maxPoints : Rat) (questions : List LoadedQuestion)
    (answers : List (Uuid × List Uuid)) : Rat :=
  if possiblePoints questions = 0 then 0
  else maxPoints * ((questions.filter fun q => AnsweredExactly answers q).map
    (·.question.points)).sum / possiblePoints questions

/-- The earned points are those of the questions answered exactly. -/
theorem earnedPoints_eq (questions : List LoadedQuestion) (answers : List (Uuid × List Uuid)) :
    earnedPoints questions answers =
      ((questions.filter fun q => AnsweredExactly answers q).map (·.question.points)).sum := by
  unfold earnedPoints
  induction questions with
  | nil => rfl
  | cons q questions ih =>
    rw [List.map_cons, List.sum_cons, ih, questionPoints_eq]
    by_cases h : AnsweredExactly answers q
    · rw [if_pos h, List.filter_cons_of_pos (by simpa using h), List.map_cons, List.sum_cons]
    · rw [if_neg h, List.filter_cons_of_neg (by simpa using h), zero_add]

/-- Any program keeps the trivial promise. -/
theorem all_trivial {α : Type} (p : M α) :
    Prog.All (fun _ => True) (fun _ _ => True) (fun _ => True) p := by
  induction p with
  | ret a => trivial
  | raise e => trivial
  | call o k ih => exact ⟨trivial, fun a _ => ih a⟩

theorem saveGrade_points {s : Session} {tenantId : Uuid} {submission : Submission}
    {existing : Option Grade} {points maxPoints : Rat} {isAuto : Bool} {gradedBy : Option Uuid}
    {feedback : Option String} {gradedAt : Time} :
    Prog.All (fun _ => True) (fun _ _ => True) (fun g => g.points = points)
      (saveGrade s tenantId submission existing points maxPoints isAuto gradedBy feedback
        gradedAt) := by
  unfold saveGrade
  cases existing with
  | none => exact (all_trivial uuid4).bind fun id _ => (all_trivial (add _ _)).bind fun _ _ => rfl
  | some grade => exact (all_trivial (updateRow _ _ _ _)).bind fun _ _ => rfl

/-- The grade that is recorded carries the points it is given. -/
theorem recordGrade_points {rc : RequestContext} {s : Session} {submission : Submission}
    {points maxPoints : Rat} {isAuto : Bool} {gradedBy : Option Uuid} {feedback : Option String} :
    Prog.All (fun _ => True) (fun _ _ => True) (fun g => g.points = points)
      (recordGrade env rc s submission points maxPoints isAuto gradedBy feedback) := by
  unfold recordGrade
  refine (all_trivial (requireTenantId rc)).bind fun tenantId _ => ?_
  refine (all_trivial now).bind fun now _ => ?_
  refine (all_trivial (getBySubmission rc submission.id)).bind fun existing _ => ?_
  refine saveGrade_points.bind fun g hg => ?_
  refine (all_trivial (updateRow _ _ _ _)).bind fun _ _ => ?_
  refine (all_trivial flush).bind fun _ _ => ?_
  exact (all_trivial (publish env _)).bind fun _ _ => hg

/-- A grade that `_auto_grade` returns carries the share. -/
theorem autoGrade_points {rc : RequestContext} {s : Session} {a : Assignment} {quiz : LoadedQuiz}
    {submission : Submission} {answers : List (Uuid × List Uuid)} {st st' : State} {g : Grade}
    (h : runM env (autoGrade env rc s a quiz submission answers) st = (.ok g, st')) :
    g.points = quizShare a.maxPoints quiz.questions answers := by
  have hpoints := (@recordGrade_points env rc s submission
    (if possiblePoints quiz.questions ≠ 0 then
      earnedPoints quiz.questions answers / possiblePoints quiz.questions * a.maxPoints
    else 0) a.maxPoints true none none).run_ok (fun _ => True) (fun _ _ _ _ => ⟨trivial, trivial⟩)
    trivial h
  rw [hpoints, quizShare]
  by_cases hzero : possiblePoints quiz.questions = 0
  · rw [if_pos hzero, if_neg (not_not.mpr hzero)]
  · rw [if_neg hzero, if_pos hzero, earnedPoints_eq, div_mul_eq_mul_div, mul_comm]

/-! ## Bounds -/

section Bounds

variable {questions : List LoadedQuestion} {answers : List (Uuid × List Uuid)} {maxPoints : Rat}

theorem possiblePoints_nonneg (h : ∀ q ∈ questions, 0 ≤ q.question.points) :
    0 ≤ possiblePoints questions := by
  refine List.sum_nonneg fun x hx => ?_
  obtain ⟨q, hq, rfl⟩ := List.mem_map.mp hx
  exact h q hq

theorem questionPoints_le {q : LoadedQuestion} (h : 0 ≤ q.question.points) :
    0 ≤ questionPoints answers q ∧ questionPoints answers q ≤ q.question.points := by
  rw [questionPoints_eq]
  split
  · exact ⟨h, le_refl _⟩
  · exact ⟨le_refl _, h⟩

theorem earnedPoints_le (h : ∀ q ∈ questions, 0 ≤ q.question.points) :
    0 ≤ earnedPoints questions answers ∧
      earnedPoints questions answers ≤ possiblePoints questions := by
  constructor
  · refine List.sum_nonneg fun x hx => ?_
    obtain ⟨q, hq, rfl⟩ := List.mem_map.mp hx
    exact (questionPoints_le (h q hq)).1
  · exact List.sum_le_sum fun q hq => (questionPoints_le (h q hq)).2

/-- All points are earned exactly if every question with points is answered exactly. The
induction is over the questions: no question earns more than it has. -/
theorem earnedPoints_eq_possible (h : ∀ q ∈ questions, 0 ≤ q.question.points) :
    earnedPoints questions answers = possiblePoints questions ↔
      ∀ q ∈ questions, 0 < q.question.points → AnsweredExactly answers q := by
  induction questions with
  | nil => exact iff_of_true rfl fun q hq => absurd hq List.not_mem_nil
  | cons q questions ih =>
    have hq := h q List.mem_cons_self
    have hrest := fun q' hq' => h q' (List.mem_cons_of_mem q hq')
    have hone := @questionPoints_le answers q hq
    have hsum := @earnedPoints_le questions answers hrest
    have hself : questionPoints answers q = q.question.points ↔
        (0 < q.question.points → AnsweredExactly answers q) := by
      rw [questionPoints_eq]
      by_cases hexact : AnsweredExactly answers q
      · rw [if_pos hexact]
        exact iff_of_true rfl fun _ => hexact
      · rw [if_neg hexact]
        constructor
        · intro hzero hpos
          exact absurd hzero hpos.ne
        · intro himp
          exact le_antisymm hq (not_lt.mp fun hpos => hexact (himp hpos))
    have hcons : earnedPoints (q :: questions) answers = possiblePoints (q :: questions) ↔
        questionPoints answers q = q.question.points ∧
          earnedPoints questions answers = possiblePoints questions := by
      show questionPoints answers q + earnedPoints questions answers =
        q.question.points + possiblePoints questions ↔ _
      constructor
      · intro heq
        constructor <;> linarith [hone.2, hsum.2]
      · rintro ⟨h₁, h₂⟩
        rw [h₁, h₂]
    rw [hcons, hself, ih hrest, List.forall_mem_cons]

theorem quizShare_bounds (h : ∀ q ∈ questions, 0 ≤ q.question.points) (hmax : 0 ≤ maxPoints) :
    0 ≤ quizShare maxPoints questions answers ∧
      quizShare maxPoints questions answers ≤ maxPoints := by
  have hearned := @earnedPoints_le questions answers h
  have hpossible := possiblePoints_nonneg h
  rw [quizShare, ← earnedPoints_eq]
  by_cases hzero : possiblePoints questions = 0
  · rw [if_pos hzero]
    exact ⟨le_refl _, hmax⟩
  · rw [if_neg hzero]
    have hpos : 0 < possiblePoints questions := lt_of_le_of_ne hpossible (Ne.symm hzero)
    refine ⟨div_nonneg (mul_nonneg hmax hearned.1) hpossible, ?_⟩
    rw [div_le_iff₀ hpos]
    exact mul_le_mul_of_nonneg_left hearned.2 hmax

theorem quizShare_eq_max (h : ∀ q ∈ questions, 0 ≤ q.question.points) (hmax : 0 < maxPoints) :
    quizShare maxPoints questions answers = maxPoints ↔ 0 < possiblePoints questions ∧
      ∀ q ∈ questions, 0 < q.question.points → AnsweredExactly answers q := by
  rw [← earnedPoints_eq_possible h, quizShare, ← earnedPoints_eq]
  by_cases hzero : possiblePoints questions = 0
  · rw [if_pos hzero]
    exact iff_of_false hmax.ne fun hpos => hpos.1.ne' hzero
  · rw [if_neg hzero, div_eq_iff hzero]
    have hpos : 0 < possiblePoints questions :=
      lt_of_le_of_ne (possiblePoints_nonneg h) (Ne.symm hzero)
    constructor
    · intro heq
      exact ⟨hpos, mul_left_cancel₀ hmax.ne' heq⟩
    · rintro ⟨-, heq⟩
      rw [heq]

end Bounds

/-! ## What the share does not depend on -/

/-- The same questions in any order, each with the same answers in any order. -/
def Rearranged (questions questions' : List LoadedQuestion) : Prop :=
  ∃ middle, questions.Perm middle ∧
    List.Forall₂ (fun q q' => q.question = q'.question ∧ q.answers.Perm q'.answers) middle questions'

/-- For every question the same answers are selected, in any order and any number of times. -/
def SameSelection (questions : List LoadedQuestion) (answers answers' : List (Uuid × List Uuid)) :
    Prop :=
  ∀ q ∈ questions, ∀ x, x ∈ selectedFor answers q ↔ x ∈ selectedFor answers' q

/-- Entries for questions outside the quiz select nothing in it. -/
theorem sameSelection_extra {questions : List LoadedQuestion}
    {before extra after : List (Uuid × List Uuid)}
    (h : ∀ x ∈ extra, ∀ q ∈ questions, x.1 ≠ q.question.id) :
    SameSelection questions (before ++ extra ++ after) (before ++ after) := by
  intro q hq x
  have hnone : extra.find? (fun x => x.1 = q.question.id) = none := by
    rw [List.find?_eq_none]
    intro x hx heq
    exact h x hx q hq (of_decide_eq_true heq)
  rw [selectedFor, selectedFor, List.find?_append, List.find?_append, List.find?_append, hnone,
    Option.or_none]

/-- The order of a map's entries does not matter. -/
theorem sameSelection_perm {questions : List LoadedQuestion} {answers answers' : List (Uuid × List Uuid)}
    (hkeys : (answers.map (·.1)).Nodup) (h : answers.Perm answers') :
    SameSelection questions answers answers' := by
  intro q _ x
  have hfind : answers.find? (fun x => x.1 = q.question.id) =
      answers'.find? fun x => x.1 = q.question.id := by
    have hkeys' : (answers'.map (·.1)).Nodup := (h.map _).nodup_iff.mp hkeys
    cases hfound : answers'.find? fun x => x.1 = q.question.id with
    | none =>
      rw [List.find?_eq_none] at hfound ⊢
      exact fun y hy => hfound y (h.mem_iff.mp hy)
    | some y =>
      have hmem := List.mem_of_find?_eq_some hfound
      have hkey : y.1 = q.question.id := by simpa using List.find?_some hfound
      cases hfound' : answers.find? fun x => x.1 = q.question.id with
      | none =>
        rw [List.find?_eq_none] at hfound'
        exact absurd (decide_eq_true hkey) (hfound' y (h.mem_iff.mpr hmem))
      | some z =>
        have hmem' := h.mem_iff.mp (List.mem_of_find?_eq_some hfound')
        have hkey' : z.1 = q.question.id := by simpa using List.find?_some hfound'
        rw [List.inj_on_of_nodup_map hkeys' hmem' hmem (hkey'.trans hkey.symm)]
  rw [selectedFor, selectedFor, hfind]

/-- The points of a question depend on its selected and its correct set. -/
theorem questionPoints_congr {answers answers' : List (Uuid × List Uuid)} {q q' : LoadedQuestion}
    (hquestion : q.question = q'.question) (hanswers : q.answers.Perm q'.answers)
    (hselected : ∀ x, x ∈ selectedFor answers q ↔ x ∈ selectedFor answers' q') :
    questionPoints answers q = questionPoints answers' q' := by
  have hcorrect : ∀ x, x ∈ correctIds q ↔ x ∈ correctIds q' :=
    fun x => ((hanswers.filter _).map _).mem_iff
  rw [questionPoints_eq, questionPoints_eq, hquestion]
  exact if_congr (answeredExactly_congr hselected hcorrect) rfl rfl

theorem quizShare_congr {questions questions' : List LoadedQuestion}
    {answers answers' : List (Uuid × List Uuid)} (maxPoints : Rat)
    (hquestions : Rearranged questions questions')
    (hanswers : SameSelection questions answers answers') :
    quizShare maxPoints questions answers = quizShare maxPoints questions' answers' := by
  obtain ⟨middle, hperm, hsame⟩ := hquestions
  have hmiddle : ∀ q ∈ middle, ∀ x, x ∈ selectedFor answers q ↔ x ∈ selectedFor answers' q :=
    fun q hq => hanswers q (hperm.mem_iff.mpr hq)
  have hsums : (middle.map (questionPoints answers)).sum =
        (questions'.map (questionPoints answers')).sum ∧
      (middle.map (·.question.points)).sum = (questions'.map (·.question.points)).sum := by
    clear hperm
    induction hsame with
    | nil => exact ⟨rfl, rfl⟩
    | @cons q q' rest rest' hq _ ih =>
      obtain ⟨hearned, hpossible⟩ := ih fun q hq => hmiddle q (List.mem_cons_of_mem _ hq)
      have hselected : ∀ x, x ∈ selectedFor answers q ↔ x ∈ selectedFor answers' q' := by
        intro x
        rw [hmiddle q List.mem_cons_self x, selectedFor, selectedFor, hq.1]
      have hself := questionPoints_congr hq.1 hq.2 hselected
      simp only [List.map_cons, List.sum_cons]
      rw [hearned, hpossible, hself, hq.1]
      exact ⟨rfl, rfl⟩
  have hearned : earnedPoints questions answers = earnedPoints questions' answers' := by
    rw [earnedPoints, (hperm.map _).sum_eq, hsums.1]
    rfl
  have hpossible : possiblePoints questions = possiblePoints questions' := by
    rw [possiblePoints, (hperm.map _).sum_eq, hsums.2]
    rfl
  rw [quizShare, quizShare, ← earnedPoints_eq, ← earnedPoints_eq, hearned, hpossible]

/-! ## The grade -/

/-- **Auto-grading**: the recorded points are the share of the questions answered exactly;
they lie between zero and the maximum and, for a positive maximum, reach it exactly if all
questions with points are answered exactly; they depend on which answers are selected and
correct only; and rounding a grade to the column's two decimals does not exceed a maximum
that has two decimals. -/
theorem auto_grade_correct (a : Assignment) (quiz : LoadedQuiz) (answers : List (Uuid × List Uuid))
    (hpoints : ∀ q ∈ quiz.questions, 0 ≤ q.question.points) (hmax : 0 ≤ a.maxPoints) :
    (∀ env rc s submission st g st',
      runM env (autoGrade env rc s a quiz submission answers) st = (.ok g, st') →
      g.points = quizShare a.maxPoints quiz.questions answers ∧
      ∀ n : Nat, a.maxPoints = n / 100 → (schema.coerce .grades g).points ≤ a.maxPoints) ∧
    (0 ≤ quizShare a.maxPoints quiz.questions answers ∧
      quizShare a.maxPoints quiz.questions answers ≤ a.maxPoints) ∧
    (0 < a.maxPoints → (quizShare a.maxPoints quiz.questions answers = a.maxPoints ↔
      0 < possiblePoints quiz.questions ∧
        ∀ q ∈ quiz.questions, 0 < q.question.points → AnsweredExactly answers q)) ∧
    (∀ questions' answers', Rearranged quiz.questions questions' →
      SameSelection quiz.questions answers answers' →
      quizShare a.maxPoints questions' answers' = quizShare a.maxPoints quiz.questions answers) ∧
    (∀ answers', (answers.map (·.1)).Nodup → answers.Perm answers' →
      quizShare a.maxPoints quiz.questions answers' =
        quizShare a.maxPoints quiz.questions answers) ∧
    ∀ before extra after, answers = before ++ after →
      (∀ x ∈ extra, ∀ q ∈ quiz.questions, x.1 ≠ q.question.id) →
      quizShare a.maxPoints quiz.questions (before ++ extra ++ after) =
        quizShare a.maxPoints quiz.questions answers := by
  have hbounds := @quizShare_bounds quiz.questions answers a.maxPoints hpoints hmax
  have hself : Rearranged quiz.questions quiz.questions :=
    ⟨_, .refl _, List.forall₂_same.mpr fun q _ => ⟨rfl, .refl _⟩⟩
  refine ⟨fun env rc s submission st g st' hrun => ?_, hbounds, quizShare_eq_max hpoints, ?_, ?_, ?_⟩
  · have hshare := autoGrade_points hrun
    refine ⟨hshare, fun n hn => ?_⟩
    show roundNumeric 2 g.points ≤ a.maxPoints
    rw [← TwoDecimals.roundNumeric ⟨n, hn⟩, hshare]
    exact roundNumeric_le hbounds.1 hbounds.2
  · intro questions' answers' hquestions hanswers
    exact (quizShare_congr a.maxPoints hquestions hanswers).symm
  · intro answers' hkeys hperm
    exact (quizShare_congr a.maxPoints hself (sameSelection_perm hkeys hperm)).symm
  · rintro before extra after rfl hextra
    exact quizShare_congr a.maxPoints hself (sameSelection_extra hextra)

/-! ## A quiz of one question -/

namespace Quizzes

/-- A question worth two points whose first answer is correct. -/
def question : LoadedQuestion where
  question := { id := 7, tenantId := 1, quizId := 6, text := "Q", points := 2 }
  answers := [⟨8, 1, 7, "yes", true⟩, ⟨9, 1, 7, "no", false⟩]

def quiz : LoadedQuiz := ⟨{ id := 6, tenantId := 1, assignmentId := 5 }, [question]⟩

def assignment (maxPoints : Rat) : Assignment where
  id := 5
  tenantId := 1
  courseId := 4
  title := "A"
  description := none
  type := .quiz
  maxPoints := maxPoints
  isPublished := true
  createdAt := 0
  updatedAt := 0

def submission : Submission where
  id := 10
  tenantId := 1
  assignmentId := 5
  userId := 3
  content := none
  fileUrl := none
  answers := none
  submittedAt := 0

/-- A tenant with a submission that is to be graded. -/
def tables : Database Row
  | .tenants => [{ id := 1, name := "A", slug := "a" }]
  | .users => [⟨3, 1, "ann@a.test", "#a", "Ann", true, true, false, none, 0, 0, none⟩]
  | .assignments => [assignment 0]
  | .submissions => [submission]
  | _ => []

def context : RequestContext := { requestId := "r", tenantId := some 1 }

end Quizzes

/-- The right answer earns the maximum. -/
theorem auto_grade_question :
    quizShare 10 Quizzes.quiz.questions [(7, [8])] = 10 := by
  have hcorrect := auto_grade_correct (Quizzes.assignment 10) Quizzes.quiz [(7, [8])]
    (by decide +kernel) (by decide +kernel)
  exact (hcorrect.2.2.1 (by decide +kernel)).mpr (by decide +kernel)

/-- A quiz whose maximum is zero: a grade that is recorded for no answers at all has the
maximum. -/
theorem auto_grade_zero_maximum : ∃ g st',
    runM (Env.reference {}) (autoGrade (Env.reference {}) Quizzes.context ⟨0⟩ (Quizzes.assignment 0)
      Quizzes.quiz Quizzes.submission [])
      (World.fresh 100 Quizzes.tables, [requestTx (Env.reference {}) Quizzes.context]) =
      (.ok g, st') ∧
    g.points = (Quizzes.assignment 0).maxPoints ∧
    ¬ (0 < possiblePoints Quizzes.quiz.questions ∧
      ∀ q ∈ Quizzes.quiz.questions, 0 < q.question.points → AnsweredExactly [] q) := by
  have hpoints : (runM (Env.reference {}) (autoGrade (Env.reference {}) Quizzes.context ⟨0⟩
      (Quizzes.assignment 0) Quizzes.quiz Quizzes.submission [])
      (World.fresh 100 Quizzes.tables, [requestTx (Env.reference {}) Quizzes.context])).1.toOption.map
        (·.points) = some 0 := by
    decide +kernel
  rcases hrun : runM (Env.reference {}) (autoGrade (Env.reference {}) Quizzes.context ⟨0⟩
    (Quizzes.assignment 0) Quizzes.quiz Quizzes.submission [])
    (World.fresh 100 Quizzes.tables, [requestTx (Env.reference {}) Quizzes.context]) with ⟨r, st'⟩
  rw [hrun] at hpoints
  cases r with
  | error e => cases hpoints
  | ok g => exact ⟨g, st', rfl, Option.some.inj hpoints, by decide +kernel⟩

end LmsBackend
