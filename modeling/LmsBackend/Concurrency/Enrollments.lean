import LmsBackend.Concurrency.ServiceSteps
import LmsBackend.Core.Platform
import LmsBackend.Modules.Courses

/-!
# The enrolment counter under concurrency

Any number of `CourseService.enroll` calls, interleaved. A call reads the course's row,
inserts an enrolment, and writes the count it has read plus one: the statement that writes
it is not the one that read it.

- `enrolled db courseId`: the enrolments of a course that are not cancelled.
- `CountsExact db`: every course's `enrollment_count` is that number.
- `EnrollRecord`: the course and the count that a call has read.
- `CountUnchanged`: a call commits only if the course still has the count that it read.
- `counts_exact_iff`: the counts of a reachable state are exact precisely if it is reached
  by such commits alone.
- `enrollment_lost`: two calls that read the same count.
-/

namespace LmsBackend

open Mvcc Interleave

variable {env : Env} {ι : Type} [DecidableEq ι]

/-! ## The counter and the rows it counts -/

/-- The number of enrolments of a course that are not cancelled. -/
def enrolled (db : Database Row) (courseId : Uuid) : Nat :=
  (db .courseEnrollments).countP fun e => e.courseId = courseId && e.status ≠ .cancelled

/-- The counter of every course is exact. -/
def CountsExact (db : Database Row) : Prop :=
  ∀ c ∈ db .courses, c.enrollmentCount = enrolled db c.id

/-- What a call has read: nothing yet, or the row of its course with this count. -/
inductive EnrollRecord
  | start
  | read (courseId : Uuid) (count : Int)
  deriving DecidableEq

/-- What an operation changes in a call's record: its first query of a course. -/
def enrollNote : Note EnrollRecord
  | .start, _, .db (.select .courses _), course :: _ => .read course.id course.enrollmentCount
  | q, _, _, _ => q

/-- The course still has the count that the call has read. -/
def EnrollRecord.Current (db : Database Row) : EnrollRecord → Prop
  | .start => True
  | .read courseId count => ∀ c ∈ db .courses, c.id = courseId → c.enrollmentCount = count

instance (db : Database Row) (q : EnrollRecord) : Decidable (q.Current db) := by
  cases q with
  | start => exact isTrue trivial
  | read courseId count =>
    exact inferInstanceAs (Decidable (∀ c ∈ db .courses, c.id = courseId → c.enrollmentCount = count))

/-- A call commits its own transaction only if the course still has the count it has read. -/
def CountUnchanged (P : Crowd CourseEnrollment EnrollRecord ι) (i : ι) : Option Op → Prop
  | some (.db .commit) => (P.thread i).loc.length = 1 → (P.thread i).seen.Current P.world.db
  | _ => True

omit [DecidableEq ι] in
theorem countUnchanged_iff {P : Crowd CourseEnrollment EnrollRecord ι} {i : ι} {o : Option Op} :
    (commits o = true → (P.thread i).loc.length = 1 → (P.thread i).seen.Current P.world.db) ↔
      CountUnchanged P i o := by
  rcases o with _ | _ | _ <;> simp [commits, CountUnchanged]
  rename_i o
  cases o <;> simp [commits, CountUnchanged]

instance (P : Crowd CourseEnrollment EnrollRecord ι) (i : ι) (o : Option Op) :
    Decidable (CountUnchanged P i o) :=
  decidable_of_iff _ countUnchanged_iff

/-- Who enrols where. -/
structure EnrollCall where
  context : RequestContext
  courseId : Uuid
  userId : Uuid

/-- One call in the unit of work of its request. -/
def EnrollCall.request (env : Env) (r : EnrollCall) : M CourseEnrollment :=
  getDb env (some r.context) fun s => enroll env r.context s r.courseId r.userId

/-! ## What a call does -/

/-- The transaction adds an enrolment and sets the count that was read plus one. -/
def CountsUp (q : EnrollRecord) (tx : Tx) : Prop :=
  ∃ (courseId : Uuid) (count : Int) (e : CourseEnrollment) (c : Course),
    q = .read courseId count ∧
    tx.writes = [.insert .courseEnrollments e, .update .courses [courseId] c] ∧
    (e.courseId = courseId ∧ e.status ≠ .cancelled) ∧
    c.id = courseId ∧ c.enrollmentCount = count + 1

theorem CountsUp.of_push {tx : Tx} {courseId : Uuid} {count : Int} {e : CourseEnrollment}
    {c : Course} (hw : tx.writes = []) (he : e.courseId = courseId ∧ e.status ≠ .cancelled)
    (hc : c.id = courseId ∧ c.enrollmentCount = count + 1) :
    CountsUp (.read courseId count)
      ((tx.push (.insert .courseEnrollments e)).push (.update .courses [courseId] c)) := by
  refine ⟨courseId, count, e, c, rfl, ?_, he, hc⟩
  rw [Tx.push_writes, Tx.push_writes, hw]
  rfl

/-- The operations of a call, by what it has done before. -/
def EnrollAllowed (q : EnrollRecord) (l : List Tx) : Op → Prop
  | .db .commit => (∃ tx l', l = tx :: l' ∧ l' ≠ [] ∧ ∀ x ∈ tx.writes, x.table = .auditLogs) ∨
    ∃ tx, l = [tx] ∧ CountsUp q tx
  | .db (.select .courses _) => q = .start → ∃ tx, l = [tx] ∧ tx.writes = []
  | .db _ => True
  | .now => True
  | .uuid4 => True
  | _ => False

section Calls

/-- What an enrolment does in any company. -/
abbrev Enrolls {α : Type} (env : Env) (Q : EnrollRecord → List Tx → α → Prop) (q : EnrollRecord)
    (l : List Tx) (p : M α) : Prop :=
  Does env enrollNote (fun _ _ => True) EnrollAllowed Q (fun _ l _ => ∃ tx, l = [tx]) q l p

theorem enroll_starts (q : EnrollRecord) : Does.Starts enrollNote EnrollAllowed q where
  begin l := ⟨trivial, fun _ => by cases q <;> rfl⟩
  now l := ⟨trivial, fun _ => by cases q <;> rfl⟩
  set l f := ⟨trivial, fun _ => by cases q <;> rfl⟩

theorem enroll_reads (courseId : Uuid) (count : Int) :
    Does.Reads enrollNote EnrollAllowed (.read courseId count) where
  select l t p := ⟨by cases t <;> first | trivial | exact fun h => (by cases h), fun _ => rfl⟩
  join l t₁ t₂ p := ⟨trivial, fun _ => rfl⟩

theorem enroll_audits (q : EnrollRecord) {l : List Tx} (hl : l ≠ []) :
    Does.Audits enrollNote EnrollAllowed q l where
  uuid4 tx := ⟨trivial, fun _ => by cases q <;> rfl⟩
  add tx r := ⟨trivial, fun _ => by cases q <;> rfl⟩
  take tx := ⟨trivial, fun _ => by cases q <;> rfl⟩
  insert tx r := ⟨trivial, fun _ => by cases q <;> rfl⟩
  commit tx h := ⟨.inl ⟨tx, l, rfl, hl, h⟩, fun _ => by cases q <;> rfl⟩
  rollback tx _ := ⟨trivial, fun _ => by cases q <;> rfl⟩

/-- An enrolment reads the course, and at its end its transaction counts one up. -/
theorem enroll_does {rc : RequestContext} {s : Session} {courseId userId : Uuid} {tx : Tx}
    (hw : tx.writes = []) (hp : tx.pending = []) :
    Enrolls env (fun q l _ => ∃ tx, l = [tx] ∧ tx.pending = [] ∧ CountsUp q tx) .start [tx]
      (enroll env rc s courseId userId) := by
  unfold enroll
  refine Does.requireTenantId (fun _ _ => ⟨tx, rfl⟩) fun tid _ => ?_
  refine Does.repoGetOr404 (fun _ => ⟨tx, rfl, hw⟩) (fun w course _ _ _ hkey => ?_)
    fun _ _ _ _ => ⟨tx, rfl⟩
  have hid : course.id = courseId := by simpa [keyOf] using hkey
  show Enrolls env _ (.read course.id course.enrollmentCount) [tx] _
  by_cases hopen : course.status ≠ .published
  · rw [if_pos hopen]
    exact ⟨tx, rfl⟩
  · rw [if_neg hopen]
    unfold getForUserCourse repoSelect
    simp only [bind_assoc]
    refine Does.query (enroll_reads _ _) fun rows => ?_
    refine Does.query (enroll_reads _ _) fun courses => ?_
    refine Does.scalarOneOrNone ⟨tx, rfl⟩ fun existing _ => ?_
    by_cases hagain : (existing.any fun e => e.status ≠ .cancelled) = true
    · rw [if_pos hagain]
      exact ⟨tx, rfl⟩
    · rw [if_neg hagain]
      refine Does.op trivial fun w₁ now w' l' _ hexec => ?_
      cases hexec
      refine Does.op trivial fun w₂ id w' l' _ hexec => ?_
      cases hexec
      refine Does.repoAdd hp ⟨trivial, fun _ => rfl⟩ (fun _ => ⟨trivial, fun _ => rfl⟩) trivial
        (fun w₃ _ _ => ?_) fun _ _ _ _ => ⟨tx, rfl⟩
      refine Does.updateRow trivial (fun w₄ old _ htarget _ => ?_) fun _ _ _ _ _ => ⟨_, rfl⟩
      have hold : old.id = course.id := by
        have hkey := (target_some htarget).2.2.1
        simpa [schema, keyOf] using hkey
      refine Does.publish (enroll_starts _) (enroll_audits _ (List.cons_ne_nil _ _)) ?_
      exact ⟨_, rfl, hp, .of_push hw ⟨hid.symm, by rintro ⟨⟩⟩ ⟨hold, rfl⟩⟩

/-- What a call does, from its start to its end. -/
theorem enrollCall_does (r : EnrollCall) :
    Does env enrollNote (fun _ _ => True) EnrollAllowed (fun _ _ _ => True) (fun _ _ _ => True)
      .start [] (r.request env) := by
  rw [EnrollCall.request, ← bind_pure (getDb env (some r.context) _)]
  refine Does.getDb (enroll_starts _) (fun s => enroll_does rfl rfl) ?_ ?_
  · rintro q l _ ⟨tx, rfl, hp, hcounts⟩
    exact Does.commitSession_nil hp ⟨trivial, fun _ => by cases q <;> rfl⟩
      (.inr ⟨tx, rfl, hcounts⟩) trivial
  · rintro q l e ⟨tx, rfl⟩
    exact Does.rollback trivial trivial

end Calls

/-! ## What a step does to the counters -/

/-- What one operation does to the counters and to the record of the call, which was `q`
and is `q'`. -/
inductive EnrollStep (db db' : Database Row) (o : Op) (l : List Tx) : EnrollRecord → EnrollRecord → Prop
  | quiet {q : EnrollRecord} (inner : o = .db .commit → l.length ≠ 1)
      (courses : db' .courses = db .courses)
      (enrollments : db' .courseEnrollments = db .courseEnrollments) : EnrollStep db db' o l q q
  | read {c : Course} (hit : c ∈ db .courses) (kept : db' = db) :
      EnrollStep db db' o l .start (.read c.id c.enrollmentCount)
  | count {courseId : Uuid} {count : Int} {e : CourseEnrollment} {c : Course}
      (commit : o = .db .commit) (outer : l.length = 1)
      (enrollments : db' .courseEnrollments = db .courseEnrollments ++ [e])
      (course : e.courseId = courseId ∧ e.status ≠ .cancelled)
      (courses : db' .courses = (db .courses).map fun r => if r.id = courseId then c else r)
      (counted : c.id = courseId ∧ c.enrollmentCount = count + 1) :
      EnrollStep db db' o l (.read courseId count) (.read courseId count)

theorem enrollNote_kept {q : EnrollRecord} {l : List Tx} {o : Op} {a : o.Ans}
    (ho : ∀ p, o ≠ .db (.select .courses p)) : enrollNote q l o a = q := by
  cases q with
  | read courseId count => rfl
  | start =>
    cases o with
    | db o =>
      cases o with
      | select t p =>
        cases t with
        | courses => exact absurd rfl (ho p)
        | _ => rfl
      | _ => rfl
    | _ => rfl

/-- **One step** of a call. -/
theorem enroll_step {q : EnrollRecord} {l : List Tx} {o : Op} {w : World}
    (hallow : EnrollAllowed q l o) :
    EnrollStep w.db (exec env o (w, l)).2.1.db o l q (enrollNote q l o (exec env o (w, l)).1) := by
  cases o with
  | db o =>
    by_cases hcommit : o = .commit
    · subst hcommit
      rw [enrollNote_kept (by rintro p ⟨⟩)]
      rcases hallow with ⟨tx, l', rfl, hl, haudit⟩ | ⟨tx, rfl, courseId, count, e, c, rfl, hw, he, hc⟩
      · refine .quiet (fun _ hone => hl (List.length_eq_zero_iff.mp (Nat.succ.inj hone))) ?_ ?_
        · exact foldl_apply_other fun x hx => by rw [haudit x hx]; rintro ⟨⟩
        · exact foldl_apply_other fun x hx => by rw [haudit x hx]; rintro ⟨⟩
      · have hview : (exec env (.db .commit) (w, [tx])).2.1.db =
            Write.apply schema (Write.apply schema w.db (.insert .courseEnrollments e))
              (.update .courses [courseId] c) := by
          show view schema w.db tx = _
          rw [view, hw]
          rfl
        rw [hview]
        refine .count rfl rfl ?_ he ?_ hc
        · rw [Write.apply_other (by rintro ⟨⟩), Write.apply_insert]
        · rw [Write.apply_update, Write.apply_other (by rintro ⟨⟩)]
          simp [schema, keyOf]
    · have hinner : Op.db o = .db .commit → l.length ≠ 1 := by
        intro h
        cases h
        exact absurd rfl hcommit
      rw [exec_db_world hcommit]
      by_cases hselect : ∃ p, o = .select .courses p
      · obtain ⟨p, rfl⟩ := hselect
        cases q with
        | read courseId count => exact .quiet hinner rfl rfl
        | start =>
          obtain ⟨tx, rfl, hw⟩ := hallow rfl
          show EnrollStep w.db w.db _ _ .start (enrollNote .start [tx] (.db (.select .courses p))
            ((visible schema w.db tx .courses).filter (p (visible schema w.db tx))))
          cases hrows : (visible schema w.db tx .courses).filter (p (visible schema w.db tx)) with
          | nil => exact .quiet hinner rfl rfl
          | cons c rows =>
            refine .read ?_ rfl
            have hc : c ∈ visible schema w.db tx .courses :=
              (List.mem_filter.mp (hrows ▸ List.mem_cons_self)).1
            have hview := (mem_visible.mp hc).1
            rwa [view_nil schema w.db hw] at hview
      · rw [enrollNote_kept fun p hp => hselect ⟨p, by cases hp; rfl⟩]
        exact .quiet hinner rfl rfl
  | now =>
    rw [enrollNote_kept (by rintro p ⟨⟩)]
    exact .quiet (by rintro ⟨⟩) rfl rfl
  | uuid4 =>
    rw [enrollNote_kept (by rintro p ⟨⟩)]
    exact .quiet (by rintro ⟨⟩) rfl rfl
  | _ => exact hallow.elim

/-! ## Every state of a run -/

theorem enrolled_congr {db db' : Database Row}
    (h : db' .courseEnrollments = db .courseEnrollments) (courseId : Uuid) :
    enrolled db' courseId = enrolled db courseId := by
  unfold enrolled
  rw [h]

/-- One more enrolment that counts. -/
theorem enrolled_append {db db' : Database Row} {e : CourseEnrollment}
    (h : db' .courseEnrollments = db .courseEnrollments ++ [e]) (he : e.status ≠ .cancelled)
    (courseId : Uuid) :
    enrolled db' courseId = enrolled db courseId + if e.courseId = courseId then 1 else 0 := by
  unfold enrolled
  rw [h, List.countP_append, List.countP_singleton]
  by_cases hid : e.courseId = courseId
  · simp [hid, he]
  · simp [hid]

/-- The counters are exact, and no call has read more than there are enrolments. -/
structure CountKept (db : Database Row) (seen : ι → EnrollRecord) : Prop where
  exact : CountsExact db
  read : ∀ i courseId count, seen i = .read courseId count → count ≤ enrolled db courseId

/-- The counter of the course is too low, and so is every count that a call has read of it:
what was lost is not made up for. -/
structure CountLost (db : Database Row) (seen : ι → EnrollRecord) (courseId : Uuid) : Prop where
  row : ∃ c ∈ db .courses, c.id = courseId
  low : ∀ c ∈ db .courses, c.id = courseId → c.enrollmentCount < enrolled db courseId
  read : ∀ i count, seen i = .read courseId count → count < enrolled db courseId

section Steps

variable {db db' : Database Row} {seen : ι → EnrollRecord} {i : ι} {q : EnrollRecord} {o : Op}
  {l : List Tx}

/-- A step after which the counters are exact again. -/
theorem CountKept.step (h : CountKept db seen) (hstep : EnrollStep db db' o l (seen i) q)
    (hfresh : o = .db .commit → l.length = 1 → (seen i).Current db) :
    CountKept db' (Function.update seen i q) := by
  generalize hq : seen i = q₀ at hstep hfresh
  cases hstep with
  | quiet inner courses enrollments =>
    rw [← hq, Function.update_eq_self]
    refine ⟨fun c hc => ?_, fun j id n hj => ?_⟩
    · rw [enrolled_congr enrollments]
      exact h.exact c (courses ▸ hc)
    · rw [enrolled_congr enrollments]
      exact h.read j id n hj
  | @read c hit kept =>
    subst kept
    refine ⟨h.exact, fun j id n hj => ?_⟩
    by_cases hji : j = i
    · subst hji
      rw [Function.update_self] at hj
      cases hj
      exact (h.exact c hit).le
    · rw [Function.update_of_ne hji] at hj
      exact h.read j id n hj
  | @count courseId n e c commit outer enrollments course courses counted =>
    rw [← hq, Function.update_eq_self]
    have hcurrent : ∀ r ∈ db .courses, r.id = courseId → r.enrollmentCount = n :=
      hfresh commit outer
    refine ⟨fun r hr => ?_, fun j id n hj => ?_⟩
    · rw [courses] at hr
      obtain ⟨r₀, hr₀, rfl⟩ := List.mem_map.mp hr
      have hexact := h.exact r₀ hr₀
      rw [enrolled_append enrollments course.2]
      by_cases hid : r₀.id = courseId
      · have hn := hcurrent r₀ hr₀ hid
        rw [if_pos hid, counted.1, counted.2, if_pos course.1]
        rw [hid] at hexact
        omega
      · rw [if_neg hid, if_neg fun hsame => hid (hsame.symm.trans course.1)]
        exact hexact
    · have hread := h.read j id n hj
      rw [enrolled_append enrollments course.2]
      split <;> omega

/-- A step on a count that is out of date makes the course's counter too low. -/
theorem CountKept.lose (h : CountKept db seen) (hstep : EnrollStep db db' o l (seen i) q)
    (hstale : ¬ (o = .db .commit → l.length = 1 → (seen i).Current db)) :
    ∃ courseId, CountLost db' (Function.update seen i q) courseId := by
  generalize hq : seen i = q₀ at hstep hstale
  cases hstep with
  | quiet inner courses enrollments =>
    exact absurd (fun hcommit houter => absurd houter (inner hcommit)) hstale
  | read hit kept => exact absurd (fun _ _ => trivial) hstale
  | @count courseId n e c commit outer enrollments course courses counted =>
    rw [← hq, Function.update_eq_self]
    have hold : ∃ r ∈ db .courses, r.id = courseId ∧ r.enrollmentCount ≠ n := by
      by_contra hnone
      push Not at hnone
      exact hstale fun _ _ => hnone
    obtain ⟨r, hr, hid, hne⟩ := hold
    have hexact := h.exact r hr
    have hread := h.read i courseId n hq
    rw [hid] at hexact
    have hmore : enrolled db' courseId = enrolled db courseId + 1 := by
      rw [enrolled_append enrollments course.2, if_pos course.1]
    refine ⟨courseId, ⟨c, ?_, counted.1⟩, fun r' hr' hid' => ?_, fun j m hj => ?_⟩
    · rw [courses]
      exact List.mem_map.mpr ⟨r, hr, if_pos hid⟩
    · rw [courses] at hr'
      obtain ⟨r₀, -, rfl⟩ := List.mem_map.mp hr'
      by_cases hid₀ : r₀.id = courseId
      · rw [if_pos hid₀, counted.2, hmore]
        omega
      · rw [if_neg hid₀] at hid'
        exact absurd hid' hid₀
    · have hj := h.read j courseId m hj
      rw [hmore]
      omega

/-- A counter that is too low stays too low. -/
theorem CountLost.step {courseId : Uuid} (h : CountLost db seen courseId)
    (hstep : EnrollStep db db' o l (seen i) q) :
    CountLost db' (Function.update seen i q) courseId := by
  generalize hq : seen i = q₀ at hstep
  cases hstep with
  | quiet inner courses enrollments =>
    rw [← hq, Function.update_eq_self]
    refine ⟨courses ▸ h.row, fun c hc => ?_, fun j n hj => ?_⟩
    · rw [enrolled_congr enrollments]
      exact h.low c (courses ▸ hc)
    · rw [enrolled_congr enrollments]
      exact h.read j n hj
  | @read c hit kept =>
    subst kept
    refine ⟨h.row, h.low, fun j n hj => ?_⟩
    by_cases hji : j = i
    · subst hji
      rw [Function.update_self] at hj
      cases hj
      exact h.low c hit rfl
    · rw [Function.update_of_ne hji] at hj
      exact h.read j n hj
  | @count courseId' n e c commit outer enrollments course courses counted =>
    rw [← hq, Function.update_eq_self]
    have hmore : enrolled db' courseId = enrolled db courseId + if courseId' = courseId then 1 else 0 := by
      rw [enrolled_append enrollments course.2, course.1]
    obtain ⟨r, hr, hid⟩ := h.row
    refine ⟨?_, fun r' hr' hid' => ?_, fun j m hj => ?_⟩
    · rw [courses]
      refine ⟨_, List.mem_map_of_mem hr, ?_⟩
      by_cases hsame : r.id = courseId'
      · rw [if_pos hsame, counted.1, ← hsame, hid]
      · rw [if_neg hsame, hid]
    · rw [courses] at hr'
      obtain ⟨r₀, hr₀, rfl⟩ := List.mem_map.mp hr'
      by_cases hsame : r₀.id = courseId'
      · rw [if_pos hsame, counted.1] at hid'
        subst hid'
        have hn := h.read i n hq
        rw [if_pos hsame, counted.2, hmore, if_pos rfl]
        omega
      · rw [if_neg hsame] at hid' ⊢
        have hlow := h.low r₀ hr₀ hid'
        rw [hmore]
        split <;> omega
    · have hread := h.read j m hj
      rw [hmore]
      split <;> omega

end Steps

section Runs

variable {P : Crowd CourseEnrollment EnrollRecord ι} {i : ι}

/-- What the calls have read. -/
def records (P : Crowd CourseEnrollment EnrollRecord ι) : ι → EnrollRecord :=
  fun i => (P.thread i).seen

theorem records_act {o : Op} {k : o.Ans → M CourseEnrollment} :
    records (P.act (machine env enrollNote) i o k) = Function.update (records P) i
      (enrollNote (records P i) (P.thread i).loc o (exec env o (P.world, (P.thread i).loc)).1) := by
  funext j
  by_cases hji : j = i
  · subst hji
    rw [Function.update_self]
    exact congrArg Thread.seen Pool.act_self
  · rw [Function.update_of_ne hji]
    exact congrArg Thread.seen (Pool.act_other hji)

theorem records_cut : records (P.cut (machine env enrollNote) i) = records P := by
  funext j
  by_cases hji : j = i
  · subst hji
    show ((P.cut (machine env enrollNote) j).thread j).seen = (P.thread j).seen
    rw [Pool.cut_self]
  · exact congrArg Thread.seen (Pool.cut_other hji)

omit [DecidableEq ι] in
theorem CountLost.inexact {db : Database Row} {seen : ι → EnrollRecord} {courseId : Uuid}
    (h : CountLost db seen courseId) : ¬ CountsExact db := by
  intro hexact
  obtain ⟨c, hc, hid⟩ := h.row
  have hlow := h.low c hc hid
  have hsame := hexact c hc
  rw [hid] at hsame
  omega

omit [DecidableEq ι] in
/-- The calls at the start. -/
theorem enroll_orderly {w₀ : World} (calls : ι → EnrollCall) :
    Orderly (machine env enrollNote) (fun _ _ => True) (fun _ => EnrollAllowed)
      (fun _ _ _ _ => True) (fun _ _ _ _ => True)
      (crowd w₀ .start fun i => (calls i).request env) := by
  intro i p hp
  cases hp
  exact enrollCall_does (calls i)

end Runs

/-- **The enrolment counters are exact** in a state that is reached by any interleaving of
enrolments precisely if it is reached by one in which each call that commits finds the
count it has read still there. -/
theorem counts_exact_iff {w₀ : World} (hexact : CountsExact w₀.db) (calls : ι → EnrollCall)
    {P : Crowd CourseEnrollment EnrollRecord ι}
    (hrun : Reach (machine env enrollNote) (fun _ _ _ => True)
      (crowd w₀ .start fun i => (calls i).request env) P) :
    CountsExact P.world.db ↔ Reach (machine env enrollNote) CountUnchanged
      (crowd w₀ .start fun i => (calls i).request env) P := by
  have hstart : CountKept w₀.db (records (crowd w₀ .start fun i => (calls i).request env)) :=
    ⟨hexact, by rintro i courseId count ⟨⟩⟩
  constructor
  · intro hP
    -- as long as no call has committed a stale count, the run is one of the second kind
    have hinv := by
      refine (hrun.invariant (G := fun _ _ => True)
        (I := fun P => (Reach (machine env enrollNote) CountUnchanged
            (crowd w₀ .start fun i => (calls i).request env) P ∧
          CountKept P.world.db (records P)) ∨
          ∃ courseId, CountLost P.world.db (records P) courseId)
        (fun _ _ _ => trivial) (.inl ⟨.start, hstart⟩) (enroll_orderly calls) ?_ ?_).1
      · intro P i o k hinv _ _ hprog hallow hfree
        have hstep := @enroll_step env _ _ _ P.world hallow
        rcases hinv with ⟨hreach, hkept⟩ | ⟨courseId, hlost⟩
        · by_cases hfresh : o = .db .commit → (P.thread i).loc.length = 1 →
              (P.thread i).seen.Current P.world.db
          · refine .inl ⟨hreach.step ?_ (.act hprog hfree), ?_⟩
            · cases o with
              | db o =>
                cases o with
                | commit => exact hfresh rfl
                | _ => exact trivial
              | _ => exact trivial
            · rw [records_act]
              exact hkept.step hstep hfresh
          · rw [records_act]
            exact .inr (hkept.lose hstep hfresh)
        · rw [records_act]
          exact .inr ⟨courseId, hlost.step hstep⟩
      · intro P i hinv _ _ hrunning
        rw [records_cut]
        rcases hinv with ⟨hreach, hkept⟩ | hlost
        · have hany : CountUnchanged P i none := trivial
          exact .inl ⟨hreach.step hany (.cut hrunning), hkept⟩
        · exact .inr hlost
    rcases hinv with ⟨hreach, -⟩ | ⟨courseId, hlost⟩
    · exact hreach
    · exact absurd hP hlost.inexact
  · intro hreach
    have hinv := by
      refine (hreach.invariant (G := fun _ _ => True)
        (I := fun P => CountKept P.world.db (records P)) (fun _ _ _ => trivial) hstart
        (enroll_orderly calls) ?_ ?_).1
      · intro P i o k hkept _ hok _ hallow _
        rw [records_act]
        refine hkept.step (@enroll_step env _ _ _ P.world hallow) ?_
        rintro rfl
        exact hok
      · intro P i hkept _ _ _
        rw [records_cut]
        exact hkept
    exact hinv.exact

/-! ## Two students of a course -/

/-- The rows of a tenant with two students and a published course. -/
def campusRows : Database Row
  | .tenants => [{ id := 1, name := "ABC Academy", slug := "abc-academy" }]
  | .users =>
    [⟨2, 1, "ann@abc.test", "#a", "Ann", true, true, false, none, 0, 0, none⟩,
      ⟨3, 1, "bob@abc.test", "#b", "Bob", true, true, false, none, 0, 0, none⟩]
  | .courses =>
    [{ id := 4, tenantId := 1, title := "Python", slug := "python", summary := none,
       description := none, categoryId := none, status := .published, thumbnailUrl := none,
       createdAt := 0, updatedAt := 0 }]
  | _ => []

/-- Both enrol in the course. -/
def campusCalls : Fin 2 → EnrollCall
  | 0 => ⟨{ requestId := "r0", tenantId := some 1, userId := some 2 }, 4, 2⟩
  | 1 => ⟨{ requestId := "r1", tenantId := some 1, userId := some 3 }, 4, 3⟩

instance (db : Database Row) : Decidable (CountsExact db) :=
  inferInstanceAs (Decidable (∀ c ∈ db .courses, c.enrollmentCount = enrolled db c.id))

/-- One after the other. -/
theorem counts_exact_in_turn : ∃ P : Crowd CourseEnrollment EnrollRecord (Fin 2),
    (∀ i, (P.thread i).result.isSome) ∧ CountsExact P.world.db := by
  obtain ⟨P, hrun, hdone⟩ : ∃ P, Reach (machine (Env.reference {}) enrollNote) CountUnchanged
      (crowd (World.fresh 100 campusRows) .start fun i =>
        (campusCalls i).request (Env.reference {})) P ∧
      ∀ i, (P.thread i).result.isSome :=
    Reach.of_play (List.replicate 24 0 ++ List.replicate 24 1) (by decide +kernel)
  exact ⟨P, hdone, (counts_exact_iff (by decide +kernel) campusCalls
    (hrun.imp fun _ _ _ _ => trivial)).mpr hrun⟩

/-- Both read the count before the first commits: two enrolments, and the counter says one. -/
theorem enrollment_lost : ∃ P : Crowd CourseEnrollment EnrollRecord (Fin 2),
    Reach (machine (Env.reference {}) enrollNote) (fun _ _ _ => True)
      (crowd (World.fresh 100 campusRows) .start fun i =>
        (campusCalls i).request (Env.reference {})) P ∧
    (∀ i, (P.thread i).result.isSome) ∧ enrolled P.world.db 4 = 2 ∧
    ∃ c ∈ P.world.db .courses, c.id = 4 ∧ c.enrollmentCount = 1 :=
  Reach.of_play (List.replicate 5 0 ++ List.replicate 5 1 ++ List.replicate 19 0 ++
    List.replicate 19 1) (by decide +kernel)

end LmsBackend
