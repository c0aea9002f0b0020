import LmsBackend.Content.Paging

/-!
# The admin listing of a course's assignments

The route passes its filter to the inherited `list`, which reads nothing of it but the page.

- `runM_listAssignmentRows`: the route shows the first page of all assignments in scope.
- `course_assignments_iff`: that is the assignments of the course exactly if there are no
  others, and at most one page of them.
-/

namespace LmsBackend

open Mvcc

variable {env : Env} {rc : RequestContext} {s : Session} {w : World} {tx : Tx} {txs : List Tx}
  {courseId : Uuid} {user : LoadedUser}

/-- The assignments in scope of the course. -/
def courseRows (rc : RequestContext) (w : World) (tx : Tx) (courseId : Uuid) : List Assignment :=
  (scopeRows rc w tx .assignments).filter fun a => a.courseId = courseId

/-- Whatever order the database picks, the route answers with the undeleted assignments of the
course, published or not, and no others. -/
def ListsCourseAssignments (env : Env) (rc : RequestContext) (s : Session) (user : LoadedUser)
    (w : World) (courseId : Uuid) : Prop :=
  ∀ order, LawfulOrder order → ∃ items s',
    runM (env.ordering order)
        (userHandler (env.ordering order) rc s user (.getAdminCourseAssignments courseId))
        (w, [requestTx env rc]) = (.ok (.assignmentList items), s') ∧
      (items.map fun a => (a.id, a.courseId)).Perm
        ((courseRows rc w (requestTx env rc) courseId).map fun a => (a.id, a.courseId))

/-- The route shows the first page of all assignments in scope. -/
theorem runM_getAdminCourseAssignments :
    ∃ items s', runM env (userHandler env rc s user (.getAdminCourseAssignments courseId))
        (w, tx :: txs) = (.ok (.assignmentList items), s') ∧
      items.map (fun a => (a.id, a.courseId)) =
        ((arranged env w.draws (scopeRows rc w tx .assignments)).take 20).map
          fun a => (a.id, a.courseId) := by
  have hselect := @filter_scope rc w tx .assignments fun _ => true
  have hall : (scopeRows rc w tx .assignments).filter (fun _ => true) =
      scopeRows rc w tx .assignments := List.filter_true _
  rw [← hall, ← hselect]
  refine ⟨_, _, rfl, ?_⟩
  rw [List.map_map, List.map_map]
  rfl

/-- The rows of the course are all rows, and fit on the page. -/
structure OnePage (rc : RequestContext) (w : World) (tx : Tx) (courseId : Uuid) : Prop where
  own : ∀ a ∈ scopeRows rc w tx .assignments, a.courseId = courseId
  fit : (scopeRows rc w tx .assignments).length ≤ 20

/-- The listing of a course is right exactly if the tenant has no assignments of other courses
and at most 20 of this one. -/
theorem course_assignments_iff :
    ListsCourseAssignments env rc s user w courseId ↔ OnePage rc w (requestTx env rc) courseId := by
  constructor
  · intro h
    -- what the route shows of the rows in an order of the database's choice
    have hshown : ∀ {l : List Assignment},
        l.Perm (scopeRows rc w (requestTx env rc) .assignments) →
        ((l.take 20).map fun a => (a.id, a.courseId)).Perm
          ((courseRows rc w (requestTx env rc) courseId).map fun a => (a.id, a.courseId)) := by
      intro l hl
      obtain ⟨order, hlaw, hrows⟩ := exists_order fun _ => hl
      obtain ⟨items, s', hrun, hperm⟩ := h order hlaw
      obtain ⟨items', s'', hrun', hmap⟩ := @runM_getAdminCourseAssignments (env.ordering order) rc
        s w (requestTx env rc) [] courseId user
      rw [hrun] at hrun'
      cases hrun'
      rw [hrows] at hmap
      exact hmap ▸ hperm
    have hown : ∀ a ∈ scopeRows rc w (requestTx env rc) .assignments, a.courseId = courseId := by
      intro a ha
      -- the database may put any assignment first
      obtain ⟨before, after, hsplit⟩ := List.append_of_mem ha
      have hfirst : (a :: (before ++ after)).Perm
          (scopeRows rc w (requestTx env rc) .assignments) := by
        rw [hsplit]
        exact List.perm_middle.symm
      have hmem : (a.id, a.courseId) ∈ ((a :: (before ++ after)).take 20).map
          fun a => (a.id, a.courseId) := List.mem_cons_self
      obtain ⟨b, hb, heq⟩ := List.mem_map.mp ((hshown hfirst).mem_iff.mp hmem)
      have hb := of_decide_eq_true (List.mem_filter.mp hb).2
      exact (congrArg Prod.snd heq).symm.trans hb
    refine ⟨hown, ?_⟩
    have hcourse : courseRows rc w (requestTx env rc) courseId =
        scopeRows rc w (requestTx env rc) .assignments := by
      rw [courseRows, List.filter_eq_self]
      exact fun a ha => decide_eq_true (hown a ha)
    have hlength := (hshown (List.Perm.refl _)).length_eq
    rw [hcourse, List.length_map, List.length_map, List.length_take] at hlength
    omega
  · intro hpage order hlaw
    obtain ⟨items, s', hrun, hmap⟩ := @runM_getAdminCourseAssignments (env.ordering order) rc s w
      (requestTx env rc) [] courseId user
    refine ⟨items, s', hrun, ?_⟩
    have hperm := @arranged_ordering env _ order hlaw w.draws
      (scopeRows rc w (requestTx env rc) .assignments)
    have hcourse : courseRows rc w (requestTx env rc) courseId =
        scopeRows rc w (requestTx env rc) .assignments := by
      rw [courseRows, List.filter_eq_self]
      exact fun a ha => decide_eq_true (hpage.own a ha)
    rw [hmap, hcourse, List.take_of_length_le (hperm.length_eq.trans_le hpage.fit)]
    exact hperm.map _

/-- A course without assignments is answered with those of another course. -/
theorem course_assignments_foreign :
    ¬ ListsCourseAssignments Catalogue.platform Catalogue.context ⟨0⟩ Catalogue.learner
      (Catalogue.world true) 3 := by
  intro h
  have hlaw : LawfulOrder fun _ n => List.range n := fun _ _ => List.Perm.refl _
  obtain ⟨items, s', hrun, hperm⟩ := h _ hlaw
  obtain ⟨items', s'', hrun', hmap⟩ := @runM_getAdminCourseAssignments
    (Catalogue.platform.ordering fun _ n => List.range n) Catalogue.context ⟨0⟩
    (Catalogue.world true) (requestTx Catalogue.platform Catalogue.context) [] 3 Catalogue.learner
  rw [hrun] at hrun'
  have hsame : items = items' :=
    Body.assignmentList.inj (Except.ok.inj (congrArg Prod.fst hrun'))
  have hrows : (scopeRows Catalogue.context (Catalogue.world true)
      (requestTx Catalogue.platform Catalogue.context) .assignments).length = 1 := by decide +kernel
  have hnone : (courseRows Catalogue.context (Catalogue.world true)
      (requestTx Catalogue.platform Catalogue.context) 3).length = 0 := by decide +kernel
  have hshown := hperm.length_eq
  rw [hsame, hmap, List.length_map, List.length_map, List.length_take, hnone,
    (arranged_ordering hlaw _ _).length_eq, hrows] at hshown
  exact absurd hshown (by decide)

end LmsBackend
