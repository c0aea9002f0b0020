import LmsBackend.Core.Numeric
import LmsBackend.Effects.Creations

/-!
# Updates of courses and accounts

How `update_course` and `update_user` end, row by row.

- `CourseUpdate.Storable`: the payloads whose values the columns of a course take.
- `updateCourse_outcome`: the row that is left, or why nothing is.
- `updateUser_outcome`: the same of an account and its roles.
-/

namespace LmsBackend

open Mvcc

variable {env : Env} {w w' : World} {tx : Tx} {txs : List Tx} {bound rc : RequestContext}
  {s : Session} {tid : Uuid}

/-! ## Payloads of courses -/

/-- `CourseUpdate` admits the payload. -/
def CourseUpdate.Admitted (d : CourseUpdate) : Prop :=
  ∀ title, d.title = some (some title) → 2 ≤ title.length ∧ title.length ≤ 200

/-- The columns take the values of the payload: no null where the column takes none, texts and
prices within the columns' limits, and a category that there is. -/
structure CourseUpdate.Storable (d : CourseUpdate) (c : Course) (db : Database Row) : Prop where
  notNull : d.nullColumn = none
  summary : ∀ text, d.summary = some (some text) → text.length ≤ 500
  price : ∀ q, d.price = some (some q) →
    -100000000 < roundNumeric 2 q ∧ roundNumeric 2 q < 100000000
  thumbnail : ∀ url, d.thumbnailUrl = some (some url) → url.length ≤ 500
  category : ∀ id, d.categoryId = some (some id) → c.categoryId = some id ∨
    ∃ r ∈ db .categories, r.id = id

/-- A row that the table has: its columns are within their limits, and rounded. -/
structure CourseValid (c : Course) : Prop where
  columns : columnError .courses c = none
  rounded : roundNumeric 2 c.price = c.price

theorem numeric_price {column : String} {q : Rat} :
    numeric 10 2 column q = none ↔ -100000000 < q ∧ q < 100000000 := by
  have hbound : ((10 ^ (10 - 2) : Nat) : Rat) = 100000000 := by norm_num
  rw [numeric, hbound]
  split
  · rename_i hin
    simpa using hin
  · rename_i hout
    simpa using not_and.mp hout

theorem varchar?_eq_none {n : Nat} {column : String} {value : Option String} :
    varchar? n column value = none ↔ ∀ text, value = some text → text.length ≤ n := by
  cases value with
  | none => simp [varchar?]
  | some text => simp [varchar?, varchar_eq_none]

/-- The version of a course that an update writes. -/
def CourseUpdate.row (d : CourseUpdate) (c : Course) (publishedAt : Option Time) (now : Time) :
    Course :=
  schema.coerce .courses
    (touch now .courses { d.apply c with publishedAt := publishedAt })

/-- The columns of the new version are within their limits exactly if the payload's are. -/
theorem CourseUpdate.columns_iff {d : CourseUpdate} {c : Course} {publishedAt : Option Time}
    {now : Time} (hadm : d.Admitted) (hc : CourseValid c) :
    columnError .courses (d.row c publishedAt now) = none ↔
      (∀ text, d.summary = some (some text) → text.length ≤ 500) ∧
      (∀ q, d.price = some (some q) →
        -100000000 < roundNumeric 2 q ∧ roundNumeric 2 q < 100000000) ∧
      ∀ url, d.thumbnailUrl = some (some url) → url.length ≤ 500 := by
  obtain ⟨htitle, hslug, hsummary, hprice, hthumbnail, hcount⟩ := columnError_courses.mp hc.columns
  have htitle' : varchar 200 "title" (d.row c publishedAt now).title = none := by
    show varchar 200 "title" (d.title.join.getD c.title) = none
    rcases hd : d.title with _ | _ | title
    · exact htitle
    · exact htitle
    · exact varchar_eq_none.mpr (hadm title hd).2
  have hsummary' : varchar? 500 "summary" (d.row c publishedAt now).summary = none ↔
      ∀ text, d.summary = some (some text) → text.length ≤ 500 := by
    show varchar? 500 "summary" (d.summary.getD c.summary) = none ↔ _
    rcases hd : d.summary with _ | text
    · simpa using hsummary
    · simp [varchar?_eq_none]
  have hthumbnail' : varchar? 500 "thumbnail_url" (d.row c publishedAt now).thumbnailUrl = none ↔
      ∀ url, d.thumbnailUrl = some (some url) → url.length ≤ 500 := by
    show varchar? 500 "thumbnail_url" (d.thumbnailUrl.getD c.thumbnailUrl) = none ↔ _
    rcases hd : d.thumbnailUrl with _ | url
    · simpa using hthumbnail
    · simp [varchar?_eq_none]
  have hprice' : numeric 10 2 "price" (d.row c publishedAt now).price = none ↔
      ∀ q, d.price = some (some q) →
        -100000000 < roundNumeric 2 q ∧ roundNumeric 2 q < 100000000 := by
    show numeric 10 2 "price" (roundNumeric 2 (d.price.join.getD c.price)) = none ↔ _
    rcases hd : d.price with _ | _ | q
    · simpa [hc.rounded] using hprice
    · simpa [hc.rounded] using hprice
    · simp [numeric_price]
  rw [columnError_courses, hsummary', hprice', hthumbnail']
  constructor
  · rintro ⟨-, -, hs, hp, ht, -⟩
    exact ⟨hs, hp, ht⟩
  · rintro ⟨hs, hp, ht⟩
    exact ⟨htitle', hslug, hs, hp, ht, hcount⟩

/-- A course moves to a category only if there is one. -/
theorem changedReferenceError_courses {c v : Course} {db : Database Row} :
    changedReferenceError db .courses c v = none ↔
      ∀ id, v.categoryId = some id → c.categoryId = some id ∨ ∃ r ∈ db .categories, r.id = id := by
  rcases hv : v.categoryId with _ | id
  · simp [changedReferenceError, hv]
  · by_cases hsame : c.categoryId = some id
    · simp [changedReferenceError, hv, hsame]
    · simp [changedReferenceError, hv, hsame, references_eq_none]

/-- The category of the new version is an old one, or one that there is. -/
theorem CourseUpdate.reference_iff {d : CourseUpdate} {c : Course} {publishedAt : Option Time}
    {now : Time} {db : Database Row} :
    changedReferenceError db .courses c (d.row c publishedAt now) = none ↔
      ∀ id, d.categoryId = some (some id) → c.categoryId = some id ∨
        ∃ r ∈ db .categories, r.id = id := by
  have hcategory : (d.row c publishedAt now).categoryId = d.categoryId.getD c.categoryId := rfl
  rw [changedReferenceError_courses, hcategory]
  -- without the field in the payload, the category stays
  rcases d.categoryId with _ | new
  · simp only [Option.getD_none]
    constructor
    · rintro - id ⟨⟩
    · exact fun _ id hid => .inl hid
  · simp only [Option.getD_some, Option.some.injEq]

/-- An update that sets no column to null is written exactly if its payload is storable. -/
theorem CourseUpdate.storable_iff {d : CourseUpdate} {c : Course} {publishedAt : Option Time}
    {now : Time} {db : Database Row} (hadm : d.Admitted) (hc : CourseValid c)
    (hnull : d.nullColumn = none) :
    schema.checkUpdate db .courses c (d.row c publishedAt now) = none ↔ d.Storable c db := by
  show firstError [columnError .courses (d.row c publishedAt now),
    changedReferenceError db .courses c (d.row c publishedAt now)] = none ↔ _
  rw [firstError_eq_none]
  simp only [List.forall_mem_cons, List.not_mem_nil, false_implies, implies_true, and_true]
  rw [d.columns_iff hadm hc, d.reference_iff]
  constructor
  · rintro ⟨⟨hs, hp, ht⟩, hr⟩
    exact ⟨hnull, hs, hp, ht, hr⟩
  · rintro ⟨-, hs, hp, ht, hr⟩
    exact ⟨⟨hs, hp, ht⟩, hr⟩

/-- What an update leaves of a course: a row that the table may have, with the columns that the
payload does not name as they were. -/
structure CourseUpdated (d : CourseUpdate) (old row : Course) : Prop where
  valid : CourseValid row
  key : row.id = old.id ∧ row.tenantId = old.tenantId ∧ row.slug = old.slug
  title : d.title = none → row.title = old.title
  summary : d.summary = none → row.summary = old.summary
  description : d.description = none → row.description = old.description
  category : d.categoryId = none → row.categoryId = old.categoryId
  level : d.level = none → row.level = old.level
  status : d.status = none → row.status = old.status
  isFree : d.isFree = none → row.isFree = old.isFree
  price : d.price = none → row.price = old.price
  thumbnail : d.thumbnailUrl = none → row.thumbnailUrl = old.thumbnailUrl
  publishedAt : d.status = none → row.publishedAt = old.publishedAt
  others : row.enrollmentCount = old.enrollmentCount ∧ row.createdAt = old.createdAt ∧
    row.deletedAt = old.deletedAt

theorem CourseUpdate.updated {d : CourseUpdate} {c : Course} {publishedAt : Option Time}
    {now : Time} (hc : CourseValid c) (hpublished : d.status = none → publishedAt = c.publishedAt)
    (hfits : columnError .courses (d.row c publishedAt now) = none) :
    CourseUpdated d c (d.row c publishedAt now) := by
  have hprice : (d.row c publishedAt now).price = roundNumeric 2 (d.price.join.getD c.price) := rfl
  refine ⟨⟨hfits, ?_⟩, ⟨rfl, rfl, rfl⟩, ?_, ?_, ?_, ?_, ?_, ?_, ?_, ?_, ?_, hpublished,
    ⟨rfl, rfl, rfl⟩⟩
  · rw [hprice, roundNumeric_twice]
  all_goals
    intro habsent
    simp [CourseUpdate.row, CourseUpdate.apply, touch, schema, coerce, habsent, hc.rounded]

/-! ## Courses -/

/-- One course has a new version; everything else is as it was. -/
structure Rewritten (db db' : Database Row) (courseId : Uuid) (row : Course) : Prop where
  rows : db' .courses = (db .courses).map fun c => if c.id = courseId then row else c
  others : ∀ t, t ≠ .courses → db' t = db t

theorem not_isApp_db (d : DbError) : ¬ IsApp (.db d) := by
  rintro ⟨kind, message, details, h⟩
  cases h

/-- A row that is seen is the target of an update under its key. -/
theorem target_eq_some {t : Table} {r : Row t} {id : Uuid} (hw : tx.writes = [])
    (hkeys : ((w.db t).map (keyOf t)).Nodup) (hr : r ∈ seen w tx t) (hkey : keyOf t r = [id]) :
    target schema w.db tx t [id] (fun _ => true) = some r := by
  have hmem : ∀ r', r' ∈ visible schema w.db tx t → r' ∈ w.db t := by
    intro r' hr'
    have hview := (mem_visible.mp hr').1
    rw [view_nil schema w.db hw] at hview
    exact hview
  have hsome : (target schema w.db tx t [id] fun _ => true).isSome := by
    refine List.find?_isSome.mpr ⟨r, hr, ?_⟩
    rw [Bool.and_true]
    exact decide_eq_true hkey
  obtain ⟨r', hr'⟩ := Option.isSome_iff_exists.mp hsome
  obtain ⟨hview, hpolicy, hkey', -⟩ := target_some hr'
  rw [hr', List.inj_on_of_nodup_map hkeys (hmem r' (mem_visible.mpr ⟨hview, hpolicy⟩))
    (hmem r hr) (hkey'.trans hkey.symm)]

/-- An update that changes nothing needs no write, and none could be refused. -/
theorem CourseUpdate.storable_of_same {d : CourseUpdate} {c : Course} {publishedAt : Option Time}
    {db : Database Row} (hadm : d.Admitted) (hc : CourseValid c) (hnull : d.nullColumn = none)
    (hsame : { d.apply c with publishedAt := publishedAt } = c) : d.Storable c db := by
  have hrow : d.row c publishedAt 0 = { c with updatedAt := 0 } := by
    unfold CourseUpdate.row
    rw [hsame]
    show { c with updatedAt := 0, price := roundNumeric 2 c.price } = { c with updatedAt := 0 }
    rw [hc.rounded]
  refine (@CourseUpdate.storable_iff d c publishedAt 0 db hadm hc hnull).mp ?_
  rw [hrow]
  exact (@checkUpdate_course db c { c with updatedAt := 0 } rfl).mpr hc.columns

/-- An update leaves a new version of the course, or nothing, for the reasons given. -/
theorem updateCourse_outcome {courseId : Uuid} {data : CourseUpdate}
    (hkeys : ((w.db .courses).map (keyOf .courses)).Nodup)
    (hvalid : ∀ c ∈ w.db .courses, CourseValid c) (hadm : data.Admitted) (hw : tx.writes = [])
    (hp : tx.pending = []) :
    Ends env (updateCourse rc s courseId data) (w, tx :: txs)
      (Closes (fun _ w' => ∃ c ∈ scopeRows rc w tx .courses, c.id = courseId ∧
        data.Storable c w.db ∧ ∃ row, CourseUpdated data c row ∧
          Rewritten w.db w'.db courseId row) txs)
      fun e s' => s'.1.db = w.db ∧
        (IsApp e ↔ ∀ c ∈ scopeRows rc w tx .courses, c.id = courseId → data.Storable c w.db) := by
  unfold updateCourse
  obtain ⟨hrun, hnone⟩ | ⟨c, hc, hkey, hrun⟩ := @repoGetOr404_cases env rc w tx txs .courses
    courseId hkeys hw
  · refine .bind (.of_error hrun ⟨rfl, iff_of_true ⟨_, _, _, rfl⟩ fun c hc hid => ?_⟩)
    exact absurd (congrArg (fun i => [i]) hid) (hnone c hc)
  obtain rfl : c.id = courseId := List.head_eq_of_cons_eq hkey
  have hseen := (mem_scopeRows.mp hc).1
  obtain ⟨hmem, hpolicy⟩ := (mem_seen hw).mp hseen
  refine .bind_ok hrun ?_
  have hdate : ∃ publishedAt w₁, runM env (publicationDate c data) (w, tx :: txs) =
      (.ok publishedAt, (w₁, tx :: txs)) ∧ w₁.db = w.db ∧
        (data.status = none → publishedAt = c.publishedAt) := by
    unfold publicationDate
    split
    · rename_i hpublish
      refine ⟨_, _, rfl, rfl, fun habsent => ?_⟩
      cases habsent.symm.trans hpublish.1
    · exact ⟨_, _, rfl, rfl, fun _ => rfl⟩
  obtain ⟨publishedAt, w₁, hdate, hdb, hpublished⟩ := hdate
  refine .bind_ok hdate ?_
  cases hnull : data.nullColumn with
  | some column =>
    refine .raise ⟨hdb, iff_of_false (not_isApp_db _) fun hstorable => ?_⟩
    cases hnull.symm.trans (hstorable c hc rfl).notNull
  | none =>
    dsimp only
    by_cases hchanged : { data.apply c with publishedAt := publishedAt } = c
    · rw [if_pos hchanged]
      refine .ret (.intro hp ⟨c, hc, rfl, data.storable_of_same hadm (hvalid c hmem) hnull hchanged,
        c, ?_, ?_, fun t _ => ?_⟩)
      · exact ⟨hvalid c hmem, ⟨rfl, rfl, rfl⟩, fun _ => rfl, fun _ => rfl, fun _ => rfl,
          fun _ => rfl, fun _ => rfl, fun _ => rfl, fun _ => rfl, fun _ => rfl, fun _ => rfl,
          fun _ => rfl, ⟨rfl, rfl, rfl⟩⟩
      · show view schema w₁.db tx .courses = _
        rw [view_nil schema w₁.db hw, hdb]
        refine (List.map_congr_left fun r hr => ?_).trans (List.map_id _) |>.symm
        by_cases hid : r.id = c.id
        · rw [if_pos hid, List.inj_on_of_nodup_map hkeys hr hmem (congrArg (fun i => [i]) hid)]
          rfl
        · exact if_neg hid
      · show view schema w₁.db tx t = _
        rw [view_nil schema w₁.db hw, hdb]
    · rw [if_neg hchanged]
      have htarget : target schema w₁.db tx .courses [c.id] (fun _ => true) = some c := by
        rw [hdb]
        exact target_eq_some hw hkeys hseen rfl
      have hpolicy' : schema.policy tx.guc .courses (data.row c publishedAt s.startedAt) = true :=
        hpolicy
      have hcheck := @CourseUpdate.storable_iff data c publishedAt s.startedAt
        (view schema w₁.db tx) hadm (hvalid c hmem) hnull
      rw [view_nil schema w₁.db hw, hdb] at hcheck
      refine .bind (rewrite_ends (fun old hold hupdate => .ret (.intro hp ?_)) (fun hgone => ?_)
        fun old d hold hupdate => ?_)
      · obtain rfl := Option.some.inj (htarget.symm.trans hold)
        have hstorable : data.Storable c w.db := by
          rw [← hcheck]
          have hchecked := (updateError_none hupdate).2
          rw [view_nil schema w₁.db hw, hdb] at hchecked
          exact hchecked
        have hcolumns : columnError .courses (data.row c publishedAt s.startedAt) = none :=
          (CourseUpdate.columns_iff hadm (hvalid c hmem)).mpr
            ⟨hstorable.summary, hstorable.price, hstorable.thumbnail⟩
        refine ⟨c, hc, rfl, hstorable, data.row c publishedAt s.startedAt,
          CourseUpdate.updated (hvalid c hmem) hpublished hcolumns, ?_, fun t ht => ?_⟩
        · show view schema w₁.db _ .courses = _
          rw [view_push, Write.apply_update, view_nil schema w₁.db hw, hdb]
          refine List.map_congr_left fun r _ => if_congr ?_ rfl rfl
          exact List.singleton_inj
        · show view schema w₁.db _ t = _
          rw [view_push, Write.apply_other (Ne.symm ht), view_nil schema w₁.db hw, hdb]
      · cases htarget.symm.trans hgone
      · obtain rfl := Option.some.inj (htarget.symm.trans hold)
        refine ⟨hdb, iff_of_false (not_isApp_db _) fun hstorable => ?_⟩
        have hnone : updateError schema w₁.db tx .courses c
            (data.row c publishedAt s.startedAt) = none := by
          rw [updateError, if_pos hpolicy', view_nil schema w₁.db hw, hdb]
          exact hcheck.mpr (hstorable c hc rfl)
        cases hnone.symm.trans hupdate

/-! ## Roles of an account -/

/-- A loaded user has the roles that these rows assign to it. -/
theorem mem_loadedRoles {db : Database Row} {users : List User} {u : LoadedUser}
    (h : u ∈ loadUsersIn db users) {r : Role} :
    (∃ lr ∈ u.roles, lr.role = r) ↔
      r ∈ db .roles ∧ (⟨u.user.id, r.id⟩ : UserRole) ∈ db .userRoles := by
  obtain ⟨u', hu', rfl⟩ := List.mem_map.mp h
  simp only [List.mem_filter, List.any_eq_true, Bool.and_eq_true, decide_eq_true_iff]
  constructor
  · rintro ⟨lr, ⟨hlr, x, hx, huser, hid⟩, rfl⟩
    obtain ⟨y, hy, heq⟩ := List.mem_map.mp (List.mem_dedup.mp (mem_loadRolesIn hlr).1)
    obtain ⟨hassigned, -, hcond⟩ := mem_joined.mp hx
    simp only [Bool.and_eq_true, decide_eq_true_iff] at hcond
    refine ⟨heq ▸ (mem_joined.mp hy).2.1, ?_⟩
    rw [← huser, ← hid, ← hcond.2]
    exact hassigned
  · rintro ⟨hr, hassigned⟩
    have hx : ((⟨u'.id, r.id⟩, r) : UserRole × Role) ∈ joined db .userRoles .roles fun ur r =>
        (users.any fun u => u.id = ur.userId) && decide (ur.roleId = r.id) := by
      refine mem_joined.mpr ⟨hassigned, hr, ?_⟩
      simp only [Bool.and_eq_true, List.any_eq_true, decide_eq_true_iff]
      exact ⟨⟨u', hu', rfl⟩, trivial⟩
    have hmem : r ∈ ((joined db .userRoles .roles fun ur r =>
        (users.any fun u => u.id = ur.userId) && decide (ur.roleId = r.id)).map (·.2)).dedup :=
      List.mem_dedup.mpr (List.mem_map.mpr ⟨_, hx, rfl⟩)
    obtain ⟨lr, hlr, rfl⟩ := @exists_loadRolesIn db _ _ hmem
    exact ⟨lr, ⟨hlr, _, hx, rfl, rfl⟩, rfl⟩

/-- A loaded user has each role once. -/
theorem nodup_loadedRoles {db : Database Row} {users : List User} {u : LoadedUser}
    (hids : ((db .roles).map (·.id)).Nodup) (h : u ∈ loadUsersIn db users) :
    (u.roles.map (·.role.id)).Nodup := by
  obtain ⟨u', -, rfl⟩ := List.mem_map.mp h
  refine List.Nodup.sublist (List.filter_sublist.map _) ?_
  generalize hrows : ((joined db .userRoles .roles fun ur r =>
    (users.any fun u => u.id = ur.userId) && decide (ur.roleId = r.id)).map (·.2)).dedup = rows
  have hmap : (loadRolesIn db rows).map (·.role.id) = rows.map (·.id) := by
    rw [loadRolesIn, List.map_map]
    rfl
  rw [hmap]
  refine List.Nodup.map_on (fun r hr r' hr' hid => ?_) (hrows ▸ List.nodup_dedup _)
  have hmem : ∀ x ∈ rows, x ∈ db .roles := by
    intro x hx
    rw [← hrows] at hx
    obtain ⟨y, hy, rfl⟩ := List.mem_map.mp (List.mem_dedup.mp hx)
    exact (mem_joined.mp hy).2.1
  exact List.inj_on_of_nodup_map hids (hmem r hr) (hmem r' hr') hid

/-- The rows of roles that a user has are deleted. The induction is over those still to go. -/
theorem runM_unassign {userId : Uuid} {roles : List LoadedRole}
    (hassigned : ∀ r ∈ roles, (⟨userId, r.role.id⟩ : UserRole) ∈ view schema w.db tx .userRoles)
    (hnodup : (roles.map (·.role.id)).Nodup) :
    runM env (Prog.forEach roles fun r => deleteRow .userRoles [userId, r.role.id])
      (w, tx :: txs) =
        (.ok (), (w, ⟨tx.guc, tx.writes ++ unassign userId roles, tx.pending⟩ :: txs)) := by
  induction roles generalizing tx with
  | nil => simp [unassign, Prog.forEach, runM]
  | cons r roles ih =>
    have hfound : (target schema w.db tx .userRoles [userId, r.role.id] fun _ => true).isSome := by
      refine List.find?_isSome.mpr ⟨⟨userId, r.role.id⟩, ?_, by simp [schema, keyOf]⟩
      exact mem_visible.mpr ⟨hassigned r List.mem_cons_self, rfl⟩
    obtain ⟨old, htarget⟩ := Option.isSome_iff_exists.mp hfound
    have hdelete : runM env (deleteRow .userRoles [userId, r.role.id]) (w, tx :: txs) =
        (.ok (), (w, tx.push (.delete .userRoles [userId, r.role.id]) :: txs)) := by
      have hsql : runM env (sql (.delete .userRoles [userId, r.role.id])) (w, tx :: txs) =
          (.ok (execTx schema w.db tx (.delete .userRoles [userId, r.role.id])).1,
            (w, (execTx schema w.db tx (.delete .userRoles [userId, r.role.id])).2 :: txs)) := rfl
      unfold deleteRow
      rw [runM_bind_ok hsql]
      simp only [execTx, htarget]
      rfl
    rw [List.map_cons, List.nodup_cons] at hnodup
    refine (Prog.run_bind_ok hdelete).trans ((ih (fun r' hr' => ?_) hnodup.2).trans ?_)
    · rw [view_push, Write.apply_delete]
      refine List.mem_filter.mpr ⟨hassigned r' (List.mem_cons_of_mem _ hr'), ?_⟩
      have hother : r'.role.id ≠ r.role.id := by
        intro hsame
        exact hnodup.1 (List.mem_map.mpr ⟨r', hr', hsame⟩)
      simp [schema, keyOf, hother]
    · simp [unassign]

/-- Roles that exist are assigned to a user that exists: no statement is refused, as the
user's rows are those of the roles it was loaded with. -/
theorem runM_assignRoles {user : LoadedUser} {roles : List LoadedRole}
    (hassigned : ∀ r ∈ user.roles,
      (⟨user.user.id, r.role.id⟩ : UserRole) ∈ view schema w.db tx .userRoles)
    (hown : (user.roles.map (·.role.id)).Nodup)
    (huser : ∃ u ∈ view schema w.db tx .users, u.id = user.user.id)
    (hroles : ∀ r ∈ roles, r.role ∈ view schema w.db tx .roles)
    (hnodup : (roles.map (·.role.id)).Nodup)
    (hloaded : ∀ r ∈ roles, (⟨user.user.id, r.role.id⟩ : UserRole) ∈
      view schema w.db tx .userRoles → ∃ r' ∈ user.roles, r'.role.id = r.role.id) :
    runM env (assignRoles user roles) (w, tx :: txs) =
      (.ok (), (w, ⟨tx.guc, tx.writes ++ unassign user.user.id (leaving user roles) ++
        (roleRows user.user.id (joining user roles)).map inserting, tx.pending⟩ :: txs)) := by
  have hgone := @runM_unassign env w tx txs user.user.id (leaving user roles)
    (fun r hr => hassigned r (List.mem_of_mem_filter hr))
    (hown.sublist (List.filter_sublist.map _))
  have hother : ∀ t, t ≠ .userRoles → view schema w.db ⟨tx.guc, tx.writes ++
      unassign user.user.id (leaving user roles), tx.pending⟩ t = view schema w.db tx t := by
    intro t ht
    rw [view, List.foldl_append, foldl_apply_other fun x hx => by
      rw [unassign_table hx]
      exact ht.symm]
    rfl
  have hinsert : (insertAll w.db ⟨tx.guc, tx.writes ++ unassign user.user.id (leaving user roles),
      tx.pending⟩ (roleRows user.user.id (joining user roles))).1 = .ok () := by
    refine roles_inserted ?_ (fun r hr => ?_) (hnodup.sublist (List.filter_sublist.map _))
      fun ur hur hid r hr hrole => ?_
    · rw [hother .users (by decide)]
      exact huser
    · rw [hother .roles (by decide)]
      exact hroles r (List.mem_of_mem_filter hr)
    · -- a role that is new to the user has no row yet
      rw [view, List.foldl_append, apply_unassign] at hur
      have hur := List.mem_of_mem_filter hur
      obtain ⟨hr, hnew⟩ := List.mem_filter.mp hr
      obtain ⟨r', hr', hsame⟩ := hloaded r hr (by
        rw [← hid, ← hrole]
        exact hur)
      exact of_decide_eq_true (List.all_eq_true.mp hnew r' hr') hsame
  rcases hall : insertAll w.db ⟨tx.guc, tx.writes ++ unassign user.user.id (leaving user roles),
    tx.pending⟩ (roleRows user.user.id (joining user roles)) with ⟨result, tx'⟩
  rw [hall] at hinsert
  obtain rfl : result = .ok () := hinsert
  obtain rfl := insertAll_ok hall
  refine (Prog.run_bind_ok hgone).trans ?_
  have hrun := @runM_insertAll env w txs (roleRows user.user.id (joining user roles))
    ⟨tx.guc, tx.writes ++ unassign user.user.id (leaving user roles), tx.pending⟩
  rw [hall] at hrun
  rw [roleRows, Prog.forEach_map] at hrun
  exact hrun

/-! ## Accounts -/

/-- `AdminUserUpdate` admits the payload. -/
def AdminUserUpdate.Admitted (d : AdminUserUpdate) : Prop :=
  ∀ name, d.fullName = some (some name) → name.length ≤ 200

/-- The version of an account that an update writes. -/
def AdminUserUpdate.row (d : AdminUserUpdate) (u : User) (now : Time) : User :=
  touch now .users (d.apply u)

/-- What an update leaves of an account: a row that the table may have, with the columns that
the payload does not name as they were. -/
structure UserUpdated (d : AdminUserUpdate) (old row : User) : Prop where
  valid : columnError .users row = none
  fullName : d.fullName = none → row.fullName = old.fullName
  isActive : d.isActive = none → row.isActive = old.isActive
  others : { row with fullName := old.fullName, isActive := old.isActive,
                      updatedAt := old.updatedAt } = old

theorem columnError_users {u : User} : columnError .users u = none ↔
    varchar 255 "email" u.email = none ∧ varchar 255 "hashed_password" u.hashedPassword = none ∧
      varchar 200 "full_name" u.fullName = none := by
  simp [columnError, firstError_eq_none]

theorem AdminUserUpdate.updated {d : AdminUserUpdate} {u : User} (hadm : d.Admitted)
    (hvalid : columnError .users u = none) (now : Time) : UserUpdated d u (d.row u now) := by
  obtain ⟨hemail, hhash, hname⟩ := columnError_users.mp hvalid
  refine ⟨columnError_users.mpr ⟨hemail, hhash, ?_⟩, fun habsent => ?_, fun habsent => ?_, rfl⟩
  · show varchar 200 "full_name" (d.fullName.join.getD u.fullName) = none
    rcases hd : d.fullName with _ | _ | name
    · exact hname
    · exact hname
    · exact varchar_eq_none.mpr (hadm name hd)
  · show d.fullName.join.getD u.fullName = _
    rw [habsent]
    rfl
  · show d.isActive.join.getD u.isActive = _
    rw [habsent]
    rfl

/-- The lookup of an account by its identifier. -/
theorem getUserOr404_cases (id : Uuid) (hkeys : ((w.db .users).map (keyOf .users)).Nodup)
    (hw : tx.writes = []) :
    (∃ e, runM env (getUserOr404 rc id) (w, tx :: txs) = (.error e, (w, tx :: txs)) ∧ IsApp e ∧
      ∀ u ∈ scopeRows rc w tx .users, u.id ≠ id) ∨
    ∃ u, runM env (getUserOr404 rc id) (w, tx :: txs) = (.ok u, (w, tx :: txs)) ∧
      usersIn (seen w tx) rc (fun v => v.id = id) = [u] ∧ u.user.id = id ∧
      u.user ∈ scopeRows rc w tx .users := by
  have hrun := @runM_findUser env rc (fun v => decide (v.id = id)) w tx txs
  have hrows : (usersIn (seen w tx) rc fun v => decide (v.id = id)).map (·.user) =
      (scopeRows rc w tx .users).filter fun v => decide (v.id = id) := by
    rw [usersIn, loadUsersIn_map_user]
    exact filter_scope .users _
  have hone : (usersIn (seen w tx) rc fun v => decide (v.id = id)).length ≤ 1 := by
    rw [← List.length_map (·.user), hrows]
    refine filter_one (b := [id]) (@scopeRows_unique rc w tx .users hkeys hw) fun u _ hu => ?_
    exact congrArg (fun i => [i]) (of_decide_eq_true hu)
  obtain ⟨r, hr⟩ := scalar_of_length hone
  rw [hr] at hrun
  cases r with
  | none =>
    refine .inl ⟨_, (runM_bind_ok hrun).trans rfl, ⟨_, _, _, rfl⟩, fun u hu hid => ?_⟩
    rw [scalar_eq_none hr] at hrows
    exact List.filter_eq_nil_iff.mp hrows.symm u hu (decide_eq_true hid)
  | some u =>
    have hlist := scalar_eq_some hr
    refine .inr ⟨u, (runM_bind_ok hrun).trans rfl, hlist, ?_⟩
    have hmem := mem_usersIn (hlist ▸ List.mem_singleton_self u)
    exact ⟨of_decide_eq_true hmem.2.2, mem_scopeRows.mpr ⟨hmem.1, hmem.2.1⟩⟩

/-- The roles of an updated account are roles of the database, each once. -/
theorem updatedRoles_rows {u : LoadedUser} {users : List User} (hset : CodesSettled w.db)
    (hw : tx.writes = []) (hu : u ∈ loadUsersIn (seen w tx) users)
    (codes : Option (List String)) :
    (∀ r ∈ updatedRoles (seen w tx) rc u codes, r.role ∈ seen w tx .roles) ∧
      ((updatedRoles (seen w tx) rc u codes).map (·.role.id)).Nodup := by
  have hids : ((seen w tx .roles).map (·.id)).Nodup := by
    rw [seen, visible, view_nil schema w.db hw]
    exact hset.roleIds.sublist (List.filter_sublist.map _)
  cases codes with
  | none =>
    refine ⟨fun r hr => ?_, nodup_loadedRoles hids hu⟩
    exact ((mem_loadedRoles hu).mp ⟨r, hr, rfl⟩).1
  | some codes =>
    refine ⟨fun r hr => ?_, (loadRolesIn_rows hset (seen_roles hw _)).2⟩
    exact List.mem_of_mem_filter (mem_loadRolesIn hr).1

/-- Once an account is found and its columns are written, nothing is refused. -/
theorem assignment_ends {u : LoadedUser} {users : List User} {tx' : Tx} {changes : List (String × Json)}
    {codes : Option (List String)} {out : LoadedUser} {Q : LoadedUser → State → Prop}
    {E : Err → State → Prop} (hset : CodesSettled w.db) (htid : rc.tenantId = some tid)
    (hw : tx.writes = []) (hu : u ∈ loadUsersIn (seen w tx) users)
    (hother : ∀ t, t ≠ .users → view schema w.db tx' t = w.db t)
    (huser : ∃ x ∈ view schema w.db tx' .users, x.id = u.user.id)
    (hQ : ∀ s', Q out s') :
    Ends env (do
      assignRoles u (updatedRoles (seen w tx) rc u codes)
      let tenantId ← requireTenantId rc
      publish env ⟨some tenantId, some u.user.id, .userUpdated changes⟩
      return out) (w, tx' :: txs) Q E := by
  obtain ⟨hexist, hnodup⟩ := @updatedRoles_rows w tx rc u _ hset hw hu codes
  have hids : ((seen w tx .roles).map (·.id)).Nodup := by
    rw [seen, visible, view_nil schema w.db hw]
    exact hset.roleIds.sublist (List.filter_sublist.map _)
  refine .bind_ok (runM_assignRoles (fun r hr => ?_) (nodup_loadedRoles hids hu) huser
    (fun r hr => ?_) hnodup fun r hr hassigned => ?_) ?_
  · rw [hother .userRoles (by decide)]
    exact ((mem_seen hw).mp ((mem_loadedRoles hu).mp ⟨r, hr, rfl⟩).2).1
  · rw [hother .roles (by decide)]
    exact ((mem_seen hw).mp (hexist r hr)).1
  · rw [hother .userRoles (by decide)] at hassigned
    obtain ⟨r', hr', hsame⟩ := (mem_loadedRoles hu).mpr
      ⟨hexist r hr, (mem_seen hw).mpr ⟨hassigned, rfl⟩⟩
    exact ⟨r', hr', congrArg (·.id) hsame⟩
  · refine .bind (requireTenantId_ends (fun hnone _ => ?_) fun tid _ => ?_)
    · cases hnone.symm.trans htid
    · exact .bind (publish_ends fun w' _ _ => .ret (hQ _))

/-- Why an update of an account raises: there is no such account, or a column is set to null. -/
def AdminUserUpdate.Refused (d : AdminUserUpdate) (users : List User) (userId : Uuid) (e : Err) :
    Prop :=
  IsApp e ∧ (∀ u ∈ users, u.id ≠ userId) ∨
    ¬ IsApp e ∧ d.nullColumn ≠ none ∧ ∃ u ∈ users, u.id = userId

theorem updateUser_ends {userId : Uuid} {data : AdminUserUpdate} (hset : CodesSettled w.db)
    (htid : rc.tenantId = some tid) (hkeys : ((w.db .users).map (keyOf .users)).Nodup)
    (hvalid : ∀ u ∈ w.db .users, columnError .users u = none) (hadm : data.Admitted)
    (hw : tx.writes = []) :
    Ends env (updateUser env rc s userId data) (w, tx :: txs)
      (fun _ _ => data.nullColumn = none)
      fun e s' => s'.1.db = w.db ∧ data.Refused (scopeRows rc w tx .users) userId e := by
  unfold updateUser
  obtain ⟨e, hrun, happ, hnone⟩ | ⟨u, hrun, hlist, rfl, hscope⟩ :=
    @getUserOr404_cases env w tx txs rc userId hkeys hw
  · exact .bind (.of_error hrun ⟨rfl, .inl ⟨happ, hnone⟩⟩)
  refine .bind_ok hrun ?_
  have hu : u ∈ usersIn (seen w tx) rc fun v => v.id = u.user.id :=
    hlist ▸ List.mem_singleton_self u
  have hseen := (mem_scopeRows.mp hscope).1
  obtain ⟨hmem, hpolicy⟩ := (mem_seen hw).mp hseen
  have hroles : runM env (newRoles rc u data.roleCodes) (w, tx :: txs) =
      (.ok (updatedRoles (seen w tx) rc u data.roleCodes), (w, tx :: txs)) := by
    cases data.roleCodes with
    | none => rfl
    | some codes => rfl
  refine .bind_ok hroles ?_
  cases hnull : data.nullColumn with
  | some column =>
    refine .raise ⟨rfl, .inr ⟨not_isApp_db _, fun hnone => ?_, u.user, hscope, rfl⟩⟩
    cases hnull.symm.trans hnone
  | none =>
    dsimp only
    unfold saveUser
    by_cases hsame : data.apply u.user = u.user
    · rw [if_pos hsame]
      refine .bind_ok (runM_pure _ _) (assignment_ends hset htid hw hu (fun t _ => ?_) ?_
        fun _ => rfl)
      · rw [view_nil schema w.db hw]
      · rw [view_nil schema w.db hw]
        exact ⟨u.user, hmem, rfl⟩
    · rw [if_neg hsame]
      have htarget := target_eq_some hw hkeys hseen rfl
      refine .bind (rewrite_ends (fun old hold hupdate => ?_) (fun hgone => ?_)
        fun old d hold hupdate => ?_)
      · obtain rfl := Option.some.inj (htarget.symm.trans hold)
        refine assignment_ends hset htid hw hu (fun t ht => ?_)
          ⟨data.row u.user s.startedAt, ?_, rfl⟩ fun _ => rfl
        · rw [view_push, Write.apply_other (Ne.symm ht), view_nil schema w.db hw]
        · rw [view_push, Write.apply_update, view_nil schema w.db hw]
          exact List.mem_map.mpr ⟨u.user, hmem, if_pos rfl⟩
      · cases htarget.symm.trans hgone
      · obtain rfl := Option.some.inj (htarget.symm.trans hold)
        have hnone : updateError schema w.db tx .users u.user
            (schema.coerce .users (touch s.startedAt .users (data.apply u.user))) = none := by
          have hfits := (data.updated hadm (hvalid u.user hmem) s.startedAt).valid
          have hpolicy' : schema.policy tx.guc .users (schema.coerce .users
              (touch s.startedAt .users (data.apply u.user))) = true := hpolicy
          rw [updateError, if_pos hpolicy']
          refine firstError_eq_none.mpr ?_
          simp only [List.forall_mem_cons, List.not_mem_nil, false_implies, implies_true, and_true]
          exact ⟨hfits, rfl⟩
        cases hnone.symm.trans hupdate

/-- In these rows a role with the code is assigned to the user. -/
def HasRole (db : Database Row) (userId : Uuid) (code : String) : Prop :=
  ∃ ur ∈ db .userRoles, ∃ r ∈ db .roles, ur.userId = userId ∧ ur.roleId = r.id ∧ r.code = code

/-- After a changed collection was written, the user has the roles of the collection. -/
theorem hasRole_reassigned {u : LoadedUser} {users : List User} {codes : List String}
    (hset : CodesSettled w.db) (hw : tx.writes = []) (hu : u ∈ loadUsersIn (seen w tx) users)
    (hroles : w'.db .roles = w.db .roles)
    (hassigned : w'.db .userRoles = (w.db .userRoles).filter (fun ur =>
        (leaving u (rolesByCodesIn (seen w tx) rc codes)).all fun r =>
          decide (¬(ur.userId = u.user.id ∧ ur.roleId = r.role.id))) ++
      assigned u.user.id (joining u (rolesByCodesIn (seen w tx) rc codes))) (code : String) :
    HasRole (seen w' tx) u.user.id code ↔
      code ∈ codes ∧ ∃ r ∈ scopeRows rc w tx .roles, r.code = code := by
  have hasked : ∀ r : Role, (∃ lr ∈ rolesByCodesIn (seen w tx) rc codes, lr.role = r) ↔
      r ∈ scopeRows rc w tx .roles ∧ r.code ∈ codes := by
    intro r
    constructor
    · rintro ⟨lr, hlr, rfl⟩
      have hmem := (mem_loadRolesIn hlr).1
      rw [filter_scope .roles fun r => decide (r.code ∈ codes), List.mem_filter] at hmem
      exact hmem.imp_right of_decide_eq_true
    · rintro ⟨hr, hcode⟩
      refine exists_loadRolesIn ?_
      rw [filter_scope .roles fun r => decide (r.code ∈ codes), List.mem_filter]
      exact ⟨hr, decide_eq_true hcode⟩
  have hseen : ∀ r : Role, r ∈ seen w' tx .roles ↔ r ∈ seen w tx .roles := by
    intro r
    rw [mem_seen hw, mem_seen hw, hroles]
  have hsame : ∀ r r' : Role, r ∈ seen w tx .roles → r' ∈ seen w tx .roles → r.id = r'.id →
      r = r' := by
    intro r r' hr hr' hid
    exact List.inj_on_of_nodup_map hset.roleIds ((mem_seen hw).mp hr).1 ((mem_seen hw).mp hr').1 hid
  constructor
  · rintro ⟨ur, hur, r, hr, huser, hrole, rfl⟩
    rw [hseen] at hr
    have hmem := ((mem_seen hw).mp hur).1
    rw [hassigned] at hmem
    rcases List.mem_append.mp hmem with hkept | hnew
    · -- a role that the user had and that was not taken away
      obtain ⟨hur, hstays⟩ := List.mem_filter.mp hkept
      have hrow : (⟨u.user.id, r.id⟩ : UserRole) ∈ seen w tx .userRoles := by
        rw [← huser, ← hrole]
        exact (mem_seen hw).mpr ⟨hur, rfl⟩
      obtain ⟨lr, hlr, rfl⟩ := (mem_loadedRoles hu).mpr ⟨hr, hrow⟩
      have hasks : ∃ lr' ∈ rolesByCodesIn (seen w tx) rc codes, lr'.role = lr.role := by
        by_contra hnone
        have hleaves : lr ∈ leaving u (rolesByCodesIn (seen w tx) rc codes) := by
          refine List.mem_filter.mpr ⟨hlr, List.all_eq_true.mpr fun lr' hlr' => ?_⟩
          refine decide_eq_true fun hid => hnone ⟨lr', hlr', hsame _ _ ?_ hr hid⟩
          exact (mem_scopeRows.mp ((hasked lr'.role).mp ⟨lr', hlr', rfl⟩).1).1
        exact of_decide_eq_true (List.all_eq_true.mp hstays lr hleaves) ⟨huser, hrole⟩
      obtain ⟨hscope, hcode⟩ := (hasked _).mp hasks
      exact ⟨hcode, lr.role, hscope, rfl⟩
    · obtain ⟨lr, hlr, rfl⟩ := List.mem_map.mp hnew
      obtain ⟨hscope, hcode⟩ := (hasked lr.role).mp ⟨lr, List.mem_of_mem_filter hlr, rfl⟩
      rw [← hsame lr.role r (mem_scopeRows.mp hscope).1 hr hrole]
      exact ⟨hcode, lr.role, hscope, rfl⟩
  · rintro ⟨hcode, r, hr, rfl⟩
    obtain ⟨lr, hlr, rfl⟩ := (hasked r).mpr ⟨hr, hcode⟩
    have hrseen := (mem_scopeRows.mp hr).1
    refine ⟨⟨u.user.id, lr.role.id⟩, (mem_seen hw).mpr ⟨?_, rfl⟩, lr.role, (hseen _).mpr hrseen,
      rfl, rfl, rfl⟩
    rw [hassigned]
    by_cases hnew : lr ∈ joining u (rolesByCodesIn (seen w tx) rc codes)
    · exact List.mem_append_right _ (List.mem_map.mpr ⟨lr, hnew, rfl⟩)
    · -- the user had the role, and it is one of those that stay
      have hhad : ∃ lr' ∈ u.roles, lr'.role.id = lr.role.id := by
        by_contra hnone
        refine hnew (List.mem_filter.mpr ⟨hlr, List.all_eq_true.mpr fun lr' hlr' => ?_⟩)
        exact decide_eq_true fun hid => hnone ⟨lr', hlr', hid⟩
      obtain ⟨lr', hlr', hid⟩ := hhad
      have hrow := ((mem_loadedRoles hu).mp ⟨lr', hlr', rfl⟩).2
      rw [hid] at hrow
      refine List.mem_append_left _ (List.mem_filter.mpr ⟨((mem_seen hw).mp hrow).1, ?_⟩)
      refine List.all_eq_true.mpr fun gone hgone => decide_eq_true ?_
      rintro ⟨-, hrole⟩
      exact of_decide_eq_true
        (List.all_eq_true.mp (List.mem_filter.mp hgone).2 lr hlr) hrole

/-- An account and its roles after an update. -/
structure Reassigned (rc : RequestContext) (w : World) (tx : Tx) (d : AdminUserUpdate)
    (userId : Uuid) (row : User) (w' : World) : Prop where
  users : w'.db .users = replaceUser userId row (w.db .users)
  kept : d.roleCodes = none → w'.db .userRoles = w.db .userRoles
  roles : ∀ codes, d.roleCodes = some codes → ∀ code, HasRole (seen w' tx) userId code ↔
    code ∈ codes ∧ ∃ r ∈ scopeRows rc w tx .roles, r.code = code
  others : ∀ t, t ≠ .users → t ≠ .userRoles → t ≠ .auditLogs → w'.db t = w.db t

/-- An update leaves a new version of the account with the roles that are asked for, or
nothing. -/
theorem updateUser_outcome {userId : Uuid} {data : AdminUserUpdate} (hset : CodesSettled w.db)
    (htid : rc.tenantId = some tid) (hkeys : ((w.db .users).map (keyOf .users)).Nodup)
    (hvalid : ∀ u ∈ w.db .users, columnError .users u = none) (hadm : data.Admitted)
    (hw : tx.writes = []) (hp : tx.pending = []) :
    Ends env (updateUser env rc s userId data) (w, tx :: txs)
      (Closes (fun _ w' => ∃ u ∈ scopeRows rc w tx .users, u.id = userId ∧
        data.nullColumn = none ∧ ∃ row, UserUpdated data u row ∧
          Reassigned rc w tx data userId row w') txs)
      fun e s' => s'.1.db = w.db ∧ data.Refused (scopeRows rc w tx .users) userId e := by
  have hends := @updateUser_ends env w tx txs rc s tid userId data hset htid hkeys hvalid hadm hw
  rcases hrun : runM env (updateUser env rc s userId data) (w, tx :: txs) with ⟨e | out, s'⟩
  · exact .of_error hrun (hends.error hrun)
  refine .of_ok hrun ?_
  have hnull : data.nullColumn = none := hends.ok hrun
  obtain ⟨u, w', ws, hlist, hws, hlog, rfl⟩ := updateUser_ok hrun
  have hu : u ∈ usersIn (seen w tx) rc fun v => v.id = userId := hlist ▸ List.mem_singleton_self u
  obtain ⟨hseen, hinscope, hid⟩ := mem_usersIn hu
  obtain rfl : u.user.id = userId := of_decide_eq_true hid
  have hmem := ((mem_seen hw).mp hseen).1
  have hrow : ∃ row, UserUpdated data u.user row ∧
      ws.foldl (Write.apply schema) w.db .users = replaceUser u.user.id row (w.db .users) := by
    obtain rfl | ⟨old, htarget, rfl⟩ := hws
    · refine ⟨u.user, ⟨hvalid u.user hmem, fun _ => rfl, fun _ => rfl, rfl⟩, ?_⟩
      refine (List.map_congr_left fun r hr => ?_).trans (List.map_id _) |>.symm
      by_cases hsame : r.id = u.user.id
      · rw [if_pos hsame, List.inj_on_of_nodup_map hkeys hr hmem (congrArg (fun i => [i]) hsame)]
        rfl
      · exact if_neg hsame
    · obtain rfl := Option.some.inj ((target_eq_some hw hkeys hseen rfl).symm.trans htarget)
      exact ⟨_, data.updated hadm (hvalid _ hmem) s.startedAt, apply_update_users⟩
  obtain ⟨row, hupdated, husers⟩ := hrow
  have hws' : ∀ x ∈ ws, x.table = .users := by
    intro x hx
    obtain rfl | ⟨old, -, rfl⟩ := hws
    · cases hx
    · rw [List.mem_singleton.mp hx]
      rfl
  obtain ⟨h₁, h₂, h₃⟩ := reassigned_view hws' w'.db tx u.user.id u
    (updatedRoles (seen w tx) rc u data.roleCodes)
  rw [view_nil schema w'.db hw] at h₁ h₂ h₃
  refine .intro hp ⟨u.user, mem_scopeRows.mpr ⟨hseen, hinscope⟩, rfl, hnull, row, hupdated,
    ⟨?_, fun hnone => ?_, fun codes hcodes code => ?_, fun t hu hr hl => (h₃ t hu hr).trans (hlog t hl)⟩⟩
  · refine h₁.trans (Eq.trans ?_ husers)
    exact foldl_apply_congr (hlog .users (by decide))
  · have hleaving : leaving u u.roles = [] := by
      refine List.filter_eq_nil_iff.mpr fun r hr hall => ?_
      exact of_decide_eq_true (List.all_eq_true.mp hall r hr) rfl
    have hjoining : joining u u.roles = [] := hleaving
    refine h₂.trans ?_
    rw [hnone]
    show List.filter _ _ ++ assigned u.user.id (joining u u.roles) = _
    simp only [updatedRoles, hleaving, hjoining, assigned, List.all_nil, List.filter_true,
      List.map_nil, List.append_nil]
    exact hlog .userRoles (by decide)
  · refine hasRole_reassigned hset hw hu ?_ ?_ code
    · exact (h₃ .roles (by decide) (by decide)).trans (hlog .roles (by decide))
    · refine h₂.trans ?_
      rw [hlog .userRoles (by decide), hcodes]
      rfl

end LmsBackend
