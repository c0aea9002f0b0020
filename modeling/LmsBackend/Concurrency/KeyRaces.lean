import LmsBackend.Concurrency.ServiceSteps

/-!
# Requests that race for a unique key

Any number of units of work, interleaved, each of which looks for a row with a key and, if
there is none, inserts one with another statement.

- `RaceKey`: the values of a unique constraint's columns. `hits`: the rows that the
  constraint compares; `stands`: those among them that the check takes notice of.
- `RaceRecord`: how far a request has come.
- `KeyFree`: a request inserts its row only while no committed row has the key.
- `BeforeRace`, `AfterRace`: the committed rows until one request has won, and from then on.
- `RaceInv`, `RaceInv.act`: what holds in every state of a run of that kind.
- `race_run`: the rule by which such runs are reasoned about.
-/

namespace LmsBackend

open Mvcc Interleave

/-! ## Keys -/

/-- The key that requests of one tenant race for. -/
inductive RaceKey
  | account (tenantId : Uuid) (email : String)
  | course (tenantId : Uuid) (slug : String)
  | enrollment (tenantId courseId userId : Uuid)
  | progress (tenantId lessonId userId : Uuid)
  deriving DecidableEq

namespace RaceKey

def tenantId : RaceKey → Uuid
  | account tid _ => tid
  | course tid _ => tid
  | enrollment tid _ _ => tid
  | progress tid _ _ => tid

/-- The table with the unique constraint. -/
def table : RaceKey → Table
  | account _ _ => .users
  | course _ _ => .courses
  | enrollment _ _ _ => .courseEnrollments
  | progress _ _ _ => .lessonProgress

theorem table_ne (k : RaceKey) : k.table ≠ .auditLogs := by
  cases k <;> rintro ⟨⟩

/-- The tables that the one who inserts the row writes besides. -/
def others : RaceKey → List Table
  | account _ _ => [.userRoles]
  | enrollment _ _ _ => [.courses]
  | _ => []

/-- The row has the key. -/
def hits : RaceKey → (t : Table) → Row t → Bool
  | account tid email, .users, u => decide (u.tenantId = tid) && decide (u.email = email)
  | course tid slug, .courses, c => decide (c.tenantId = tid) && decide (c.slug = slug)
  | enrollment _ courseId userId, .courseEnrollments, e =>
    decide (e.courseId = courseId) && decide (e.userId = userId)
  | progress _ lessonId userId, .lessonProgress, p =>
    decide (p.lessonId = lessonId) && decide (p.userId = userId)
  | _, _, _ => false

/-- A request that finds a row raises a conflict; it is only a progress row that it changes. -/
def conflicts : RaceKey → Bool
  | progress _ _ _ => false
  | _ => true

/-- A cancelled enrolment does not count. -/
def counts : (t : Table) → Row t → Bool
  | .courseEnrollments, e => decide (e.status ≠ .cancelled)
  | _, _ => true

/-- The row has the key, is the tenant's and counts: the check takes notice of it. -/
def stands (k : RaceKey) (t : Table) (r : Row t) : Bool :=
  k.hits t r && ((deletedAtOf t r).isNone && decide (tenantOf t r = some k.tenantId)) && counts t r

/-- Another row with the key cannot be inserted. -/
theorem refuses {k : RaceKey} {db : Database Row} {r r' : Row k.table} (h : r' ∈ db k.table)
    (hr : k.hits k.table r = true) (hr' : k.hits k.table r' = true) :
    (schema.checkInsert db k.table r).isSome = true := by
  rw [Option.isSome_iff_ne_none]
  intro hnone
  have hunique := (checkInsert_eq_none.mp hnone).2.1
  cases k with
  | account tid email =>
    have hfree := (uniqueError_users.mp hunique).2 r' h
    simp only [hits, table, Bool.and_eq_true, decide_eq_true_iff] at hr hr'
    exact hfree (hr'.1.trans hr.1.symm) (hr'.2.trans hr.2.symm)
  | course tid slug =>
    have hfree := (uniqueError_courses.mp hunique).2 r' h
    simp only [hits, table, Bool.and_eq_true, decide_eq_true_iff] at hr hr'
    exact hfree (hr'.1.trans hr.1.symm) (hr'.2.trans hr.2.symm)
  | enrollment tid courseId userId =>
    have hfree := (uniqueError_courseEnrollments.mp hunique).2 r' h
    simp only [hits, table, Bool.and_eq_true, decide_eq_true_iff] at hr hr'
    exact hfree (hr'.1.trans hr.1.symm) (hr'.2.trans hr.2.symm)
  | progress tid lessonId userId =>
    have hfree := (uniqueError_lessonProgress.mp hunique).2 r' h
    simp only [hits, table, Bool.and_eq_true, decide_eq_true_iff] at hr hr'
    exact hfree (hr'.1.trans hr.1.symm) (hr'.2.trans hr.2.symm)

end RaceKey

/-! ## Records -/

/-- How far a request has come: it has read this course; its check has found no row, or the
one with this primary key; it has inserted its own row, or been refused; it has committed
its row; it has written the row that it found; it has committed something else. -/
inductive RaceRecord
  | start
  | read (course : Course)
  | free
  | held (key : List Uuid)
  | inserted
  | refused
  | won
  | kept (key : List Uuid)
  | strayed
  deriving DecidableEq

/-- The check is still to come. -/
def RaceRecord.looking : RaceRecord → Prop
  | .start => True
  | .read _ => True
  | _ => False

/-- Nothing is committed as long as every request is in one of these states. -/
def RaceRecord.early (w₀ : World) : RaceRecord → Prop
  | .start => True
  | .read course => course ∈ w₀.db .courses
  | .free => True
  | .inserted => True
  | _ => False

/-- What the request has seen agrees with a committed row of this primary key. -/
def RaceRecord.agrees (key : List Uuid) : RaceRecord → Prop
  | .held key' => key' = key
  | .kept key' => key' = key
  | .inserted => False
  | _ => True

/-- What the check has found. -/
def lookedUp (k : RaceKey) (t : Table) (rows : List (Row t)) : RaceRecord :=
  ((rows.find? (k.stands t)).map fun r => .held (keyOf t r)).getD .free

/-- The course that a query before the check has found, if it is one for courses. -/
def courseRead : (t : Table) → List (Row t) → RaceRecord
  | .courses, course :: _ => .read course
  | _, _ => .start

/-- What an operation changes in a request's record. A request that is `held` has committed
nothing. -/
def raceNote (k : RaceKey) : Note RaceRecord
  | .start, _, .db (.select t _), rows =>
    if t = k.table then lookedUp k t rows else courseRead t rows
  | .read course, _, .db (.select t _), rows =>
    if t = k.table then lookedUp k t rows else .read course
  | .free, _, .db (.insert t _), .ok _ => if t = k.table then .inserted else .free
  | .free, _, .db (.insert t _), .error _ => if t = k.table then .refused else .free
  | .inserted, l, .db .commit, _ => if l.length = 1 then .won else .inserted
  | .kept key, _, .db .commit, _ => .kept key
  | _, _, .db .commit, _ => .strayed
  | .held key, _, .db (.update t _ _ _), _ => if t = k.table then .kept key else .held key
  | q, _, _, _ => q

/-- A request inserts its row only while no committed row has the key, and none is cut off. -/
def KeyFree {α ι : Type} (k : RaceKey) (P : Crowd α RaceRecord ι) (_ : ι) : Option Op → Prop
  | some (.db (.insert t _)) => t = k.table → ∀ r ∈ P.world.db t, k.hits t r = false
  | some _ => True
  | none => False

/-- The step inserts into the table. -/
def insertsInto (t : Table) : Option Op → Bool
  | some (.db (.insert t' _)) => decide (t' = t)
  | _ => false

theorem keyFree_iff {α ι : Type} {k : RaceKey} {P : Crowd α RaceRecord ι} {i : ι} {o : Option Op} :
    (o.isSome = true ∧ (insertsInto k.table o = true →
      ∀ r ∈ P.world.db k.table, k.hits k.table r = false)) ↔ KeyFree k P i o := by
  rcases o with _ | o
  · simp [KeyFree]
  · cases o with
    | db o =>
      cases o with
      | insert t r =>
        simp only [KeyFree, insertsInto, Option.isSome_some, true_and, decide_eq_true_iff]
        constructor
        · rintro h rfl
          exact h rfl
        · rintro h rfl
          exact h rfl
      | _ => simp [KeyFree, insertsInto]
    | _ => simp [KeyFree, insertsInto]

instance {α ι : Type} (k : RaceKey) (P : Crowd α RaceRecord ι) (i : ι) (o : Option Op) :
    Decidable (KeyFree k P i o) :=
  decidable_of_iff _ keyFree_iff

/-! ## Before and after -/

/-- No request has committed anything but audit rows. -/
def BeforeRace (w₀ : World) (db : Database Row) : Prop := ∀ t, t ≠ .auditLogs → db t = w₀.db t

/-- One request has committed its row, the first with the key; `key` is its primary key. -/
structure AfterRace (k : RaceKey) (w₀ : World) (key : List Uuid) (db : Database Row) : Prop where
  unused : ∀ r ∈ w₀.db k.table, k.hits k.table r = false
  row : ∃ r, db k.table = w₀.db k.table ++ [r] ∧ k.stands k.table r = true ∧
    keyOf k.table r = key ∧ ∀ r' ∈ w₀.db k.table, keyOf k.table r' ≠ key
  rest : ∀ t, t ≠ k.table → t ∉ k.others → t ≠ .auditLogs → db t = w₀.db t
  /-- a course keeps what a request looks at -/
  courses : k.table ≠ .courses → ∃ f : Course → Course, db .courses = (w₀.db .courses).map f ∧
    ∀ c, (f c).id = c.id ∧ (f c).tenantId = c.tenantId ∧ (f c).status = c.status ∧
      (f c).deletedAt = c.deletedAt

theorem BeforeRace.congr {w₀ : World} {db db' : Database Row} (h : BeforeRace w₀ db)
    (hdb : ∀ t, t ≠ .auditLogs → db' t = db t) : BeforeRace w₀ db' :=
  fun t ht => (hdb t ht).trans (h t ht)

theorem AfterRace.congr {k : RaceKey} {w₀ : World} {key : List Uuid} {db db' : Database Row}
    (h : AfterRace k w₀ key db) (hdb : ∀ t, t ≠ .auditLogs → db' t = db t) :
    AfterRace k w₀ key db' where
  unused := h.unused
  row := by
    rw [hdb _ k.table_ne]
    exact h.row
  rest t ht ho ha := (hdb t ha).trans (h.rest t ht ho ha)
  courses hc := by
    rw [hdb _ (by rintro ⟨⟩)]
    exact h.courses hc

theorem RaceKey.hits_of_stands {k : RaceKey} {t : Table} {r : Row t} (h : k.stands t r = true) :
    k.hits t r = true := by
  rw [stands, Bool.and_eq_true, Bool.and_eq_true] at h
  exact h.1.1

/-- Some committed row has the key. -/
theorem AfterRace.hit {k : RaceKey} {w₀ : World} {key : List Uuid} {db : Database Row}
    (h : AfterRace k w₀ key db) : ∃ r ∈ db k.table, k.hits k.table r = true := by
  obtain ⟨r, hrows, hstands, -⟩ := h.row
  refine ⟨r, ?_, RaceKey.hits_of_stands hstands⟩
  rw [hrows]
  exact List.mem_append_right _ List.mem_cons_self

/-- A committed row with the key is the one that has won. -/
theorem AfterRace.key_of_stands {k : RaceKey} {w₀ : World} {key : List Uuid} {db : Database Row}
    (h : AfterRace k w₀ key db) {r : Row k.table} (hr : r ∈ db k.table)
    (hstands : k.stands k.table r = true) : keyOf k.table r = key := by
  obtain ⟨r', hrows, -, hkey, -⟩ := h.row
  rw [hrows] at hr
  rcases List.mem_append.mp hr with hr | hr
  · have hhit := RaceKey.hits_of_stands hstands
    rw [h.unused r hr] at hhit
    cases hhit
  · rw [List.mem_singleton.mp hr, hkey]

/-- Exactly one committed row has the key. -/
theorem AfterRace.count {k : RaceKey} {w₀ : World} {key : List Uuid} {db : Database Row}
    (h : AfterRace k w₀ key db) : (db k.table).countP (k.hits k.table) = 1 := by
  obtain ⟨r, hrows, hstands, -⟩ := h.row
  have hold : (w₀.db k.table).countP (k.hits k.table) = 0 := by
    rw [List.countP_eq_zero]
    intro r' hr' hhit
    rw [h.unused r' hr'] at hhit
    cases hhit
  rw [hrows, List.countP_append, hold, List.countP_singleton,
    if_pos (RaceKey.hits_of_stands hstands)]

/-! ## What a request may do -/

/-- What a request may rely on: while its row is inserted and not committed, no other one
is, and a row that it has found stays. -/
def RaceRely (w₀ : World) (k : RaceKey) (q : RaceRecord) (w : World) : Prop :=
  w₀.nextUuid ≤ w.nextUuid ∧
    ((BeforeRace w₀ w.db ∧ q.early w₀) ∨ ∃ key, AfterRace k w₀ key w.db ∧ q.agrees key)

/-- The operations of a request, by how far it has come. -/
def RaceAllowed (w₀ : World) (k : RaceKey) (q : RaceRecord) (l : List Tx) : Op → Prop
  | .db .commit =>
    (∃ tx l', l = tx :: l' ∧ l' ≠ [] ∧ (q = .inserted ∨ ∃ key, q = .kept key) ∧
      ∀ x ∈ tx.writes, x.table = .auditLogs) ∨
    ∃ tx, l = [tx] ∧
      ((q = .inserted ∧ ∀ db, BeforeRace w₀ db → (∀ r ∈ db k.table, k.hits k.table r = false) →
          ∃ key, AfterRace k w₀ key (view schema db tx)) ∨
        ∃ key, q = .kept key ∧
          ∀ db, AfterRace k w₀ key db → AfterRace k w₀ key (view schema db tx))
  | .db .rollback => q = .inserted → ∃ tx l', l = tx :: l' ∧ l' ≠ [] ∧ tx.writes = []
  | .db (.select _ _) => q.looking → ∃ tx l', l = tx :: l' ∧ tx.writes = []
  | .db (.insert t r) => t = k.table → q = .free ∧ ∃ tx, l = [tx] ∧ tx.writes = [] ∧
      k.hits t (schema.coerce t r) = true ∧ ∀ db, BeforeRace w₀ db →
        (∀ r ∈ db t, k.hits t r = false) → insertError schema db tx t (schema.coerce t r) = none
  | .db (.update t _ _ _) => t = k.table → q ≠ .inserted
  | .db (.delete _ _) => False
  | .db _ => True
  | .now => True
  | .uuid4 => True
  | .draw => True
  | _ => False

/-! ## What a step does -/

section Steps

variable {env : Env} {k : RaceKey} {w₀ w : World} {tx : Tx} {l : List Tx} {q : RaceRecord}

/-- The transaction has inserted a row with the key and does nothing else to the table. -/
def Holding (k : RaceKey) (tx : Tx) : Prop :=
  (∃ r, .insert k.table r ∈ tx.writes ∧ k.hits k.table r = true) ∧
    ∀ x ∈ tx.writes, x.table = k.table → ∃ r, x = .insert k.table r

theorem Holding.push {x : Write Row (List Uuid)} (h : Holding k tx)
    (hx : x.table = k.table → ∃ r, x = .insert k.table r) : Holding k (tx.push x) := by
  obtain ⟨⟨r, hr, hhit⟩, hall⟩ := h
  refine ⟨⟨r, List.mem_append_left _ hr, hhit⟩, fun y hy ht => ?_⟩
  rcases List.mem_append.mp hy with hy | hy
  · exact hall y hy ht
  · rw [List.mem_singleton.mp hy] at ht ⊢
    exact hx ht

/-- Whatever is committed, a row with the key is in the transaction's view. -/
theorem Holding.view (h : Holding k tx) (db : Database Row) :
    ∃ r ∈ view schema db tx k.table, k.hits k.table r = true := by
  obtain ⟨⟨r, hr, hhit⟩, hall⟩ := h
  exact ⟨r, mem_foldl_insert hall (.inr hr), hhit⟩

/-- A transaction that holds the row is in the list of open ones. -/
def HoldsOne (k : RaceKey) (l : List Tx) : Prop := ∃ tx ∈ l, Holding k tx

theorem HoldsOne.statement {o : Mvcc.Op Row (List Uuid) Guc} (h : HoldsOne k l)
    (hend : o ≠ .commit ∧ o ≠ .rollback) (hdelete : ∀ t id, o ≠ .delete t id)
    (hupdate : ∀ t id p f, o = .update t id p f → t ≠ k.table) :
    HoldsOne k (exec env (.db o) (w, l)).2.2 := by
  obtain ⟨tx, hmem, hhold⟩ := h
  cases l with
  | nil => cases hmem
  | cons tx₁ txs =>
    cases o with
    | commit => exact absurd rfl hend.1
    | rollback => exact absurd rfl hend.2
    | delete t id => exact absurd rfl (hdelete t id)
    | begin => exact ⟨tx, List.mem_cons_of_mem _ hmem, hhold⟩
    | insert t r =>
      show HoldsOne k ((execTx schema w.db tx₁ (.insert t r)).2 :: txs)
      rcases List.mem_cons.mp hmem with rfl | hmem
      · refine ⟨_, List.mem_cons_self, ?_⟩
        simp only [execTx]
        split
        · exact hhold
        · refine hhold.push fun ht => ?_
          cases ht
          exact ⟨_, rfl⟩
      · exact ⟨tx, List.mem_cons_of_mem _ hmem, hhold⟩
    | update t id p f =>
      show HoldsOne k ((execTx schema w.db tx₁ (.update t id p f)).2 :: txs)
      rcases List.mem_cons.mp hmem with rfl | hmem
      · refine ⟨_, List.mem_cons_self, ?_⟩
        simp only [execTx]
        split
        · exact hhold
        · split
          · exact hhold
          · exact hhold.push fun ht => absurd ht (hupdate t id p f rfl)
      · exact ⟨tx, List.mem_cons_of_mem _ hmem, hhold⟩
    | _ =>
      rcases List.mem_cons.mp hmem with rfl | hmem
      · exact ⟨_, List.mem_cons_self, hhold⟩
      · exact ⟨tx, List.mem_cons_of_mem _ hmem, hhold⟩

/-- What one operation of a request, whose record was `q` and is `q'`, does. -/
inductive RaceStep (w₀ : World) (k : RaceKey) (w w' : World) (o : Op) (l l' : List Tx) :
    RaceRecord → RaceRecord → Prop
  | quiet {q : RaceRecord} (db : ∀ t, t ≠ .auditLogs → w'.db t = w.db t)
      (holds : q = .inserted → HoldsOne k l → HoldsOne k l') : RaceStep w₀ k w w' o l l' q q
  | read {course : Course} (db : w'.db = w.db) (found : course ∈ w.db .courses) :
      RaceStep w₀ k w w' o l l' .start (.read course)
  | looked {q q' : RaceRecord} (looking : q.looking) (db : w'.db = w.db)
      (found : q' = .free ∨ ∃ r ∈ w.db k.table, k.stands k.table r = true ∧
        q' = .held (keyOf k.table r)) : RaceStep w₀ k w w' o l l' q q'
  | insert {tx : Tx} {r : Row k.table} (stmt : o = .db (.insert k.table r)) (loc : l = [tx])
      (hits : k.hits k.table (schema.coerce k.table r) = true)
      (accepted : insertError schema w.db tx k.table (schema.coerce k.table r) = none)
      (db : w'.db = w.db) (holds : HoldsOne k l') : RaceStep w₀ k w w' o l l' .free .inserted
  | refuse {r : Row k.table} (stmt : o = .db (.insert k.table r))
      (taken : BeforeRace w₀ w.db → ¬ ∀ r ∈ w.db k.table, k.hits k.table r = false) :
      RaceStep w₀ k w w' o l l' .free .refused
  | win (db : BeforeRace w₀ w.db → (∀ r ∈ w.db k.table, k.hits k.table r = false) →
      ∃ key, AfterRace k w₀ key w'.db) : RaceStep w₀ k w w' o l l' .inserted .won
  | keep {q : RaceRecord} {key : List Uuid} (held : q = .held key ∨ q = .kept key)
      (db : AfterRace k w₀ key w.db → AfterRace k w₀ key w'.db) :
      RaceStep w₀ k w w' o l l' q (.kept key)

/-- The record changes by statements on the key's table and by commits only. -/
theorem raceNote_kept {o : Op} {a : o.Ans} (hcommit : o ≠ .db .commit)
    (hselect : ∀ t p, o = .db (.select t p) → ¬ q.looking)
    (hinsert : ∀ t r, o = .db (.insert t r) → t = k.table → q ≠ .free)
    (hupdate : ∀ t id p f, o = .db (.update t id p f) → t = k.table → ∀ key, q ≠ .held key) :
    raceNote k q l o a = q := by
  cases o with
  | db o =>
    cases o with
    | commit => exact absurd rfl hcommit
    | select t p =>
      cases q with
      | start => exact absurd trivial (hselect t p rfl)
      | read course => exact absurd trivial (hselect t p rfl)
      | _ => rfl
    | insert t r =>
      cases q with
      | free =>
        have ht : ¬ t = k.table := fun ht => hinsert t r rfl ht rfl
        cases a with
        | ok n => exact if_neg ht
        | error e => exact if_neg ht
      | _ => rfl
    | update t id p f =>
      cases q with
      | held key => exact if_neg fun ht => hupdate t id p f rfl ht key rfl
      | _ => rfl
    | _ => cases q <;> rfl
  | _ => cases q <;> rfl

/-- **One step** of a request. -/
theorem race_step {o : Op} (hallow : RaceAllowed w₀ k q l o) :
    RaceStep w₀ k w (exec env o (w, l)).2.1 o l (exec env o (w, l)).2.2 q
      (raceNote k q l o (exec env o (w, l)).1) := by
  cases o with
  | db o =>
    cases o with
    | commit =>
      rcases hallow with ⟨tx, l', rfl, hl, hq, haudit⟩ | ⟨tx, rfl, ⟨rfl, hwin⟩ | ⟨key, rfl, hkeep⟩⟩
      · have hdb : ∀ t, t ≠ .auditLogs → view schema w.db tx t = w.db t := fun t ht =>
          foldl_apply_other fun x hx => by rw [haudit x hx]; exact ht.symm
        rcases hq with rfl | ⟨key, rfl⟩
        · have hlength : (tx :: l').length ≠ 1 := fun h =>
            hl (List.length_eq_zero_iff.mp (Nat.succ.inj h))
          show RaceStep w₀ k w _ _ (tx :: l') l' .inserted
            (if (tx :: l').length = 1 then .won else .inserted)
          rw [if_neg hlength]
          refine .quiet hdb fun _ hholds => ?_
          -- the audit row's transaction does not hold the key
          obtain ⟨tx', hmem, hhold⟩ := hholds
          rcases List.mem_cons.mp hmem with rfl | hmem
          · obtain ⟨⟨r, hr, -⟩, -⟩ := hhold
            exact absurd (haudit _ hr) k.table_ne
          · exact ⟨tx', hmem, hhold⟩
        · exact .quiet hdb (by rintro ⟨⟩)
      · exact .win (hwin w.db)
      · exact .keep (.inr rfl) (hkeep w.db)
    | rollback =>
      rw [raceNote_kept (by rintro ⟨⟩) (by rintro t p ⟨⟩) (by rintro t r ⟨⟩)
        (by rintro t id p f ⟨⟩)]
      refine .quiet (fun t _ => ?_) fun hq hholds => ?_
      · rw [exec_db_world (by rintro ⟨⟩)]
      · obtain ⟨tx, l', rfl, hl, hw⟩ := hallow hq
        obtain ⟨tx', hmem, hhold⟩ := hholds
        rcases List.mem_cons.mp hmem with rfl | hmem
        · obtain ⟨⟨r, hr, -⟩, -⟩ := hhold
          rw [hw] at hr
          cases hr
        · exact ⟨tx', hmem, hhold⟩
    | delete t id => exact hallow.elim
    | select t p =>
      have hdb : (exec env (.db (.select t p)) (w, l)).2.1.db = w.db := by
        rw [exec_db_world (by rintro ⟨⟩)]
      have hquiet : RaceStep w₀ k w (exec env (.db (.select t p)) (w, l)).2.1 (.db (.select t p)) l
          (exec env (.db (.select t p)) (w, l)).2.2 q q := by
        refine .quiet (fun t _ => by rw [hdb]) fun _ hholds => ?_
        exact hholds.statement ⟨by rintro ⟨⟩, by rintro ⟨⟩⟩ (by rintro t id ⟨⟩)
          (by rintro t id p f ⟨⟩)
      by_cases hlook : q.looking
      · obtain ⟨tx, l', rfl, hw⟩ := hallow hlook
        -- what a query finds is committed
        have hmem : ∀ r ∈ (visible schema w.db tx t).filter (p (visible schema w.db tx)),
            r ∈ w.db t := by
          intro r hr
          have hview := (mem_visible.mp (List.mem_filter.mp hr).1).1
          rwa [view_nil schema w.db hw] at hview
        by_cases ht : t = k.table
        · subst ht
          have hnote : ∀ rows, raceNote k q (tx :: l') (.db (.select k.table p)) rows =
              lookedUp k k.table rows := by
            cases q with
            | start => exact fun _ => if_pos rfl
            | read course => exact fun _ => if_pos rfl
            | _ => exact hlook.elim
          rw [hnote]
          refine .looked hlook hdb ?_
          show lookedUp k k.table ((visible schema w.db tx k.table).filter
            (p (visible schema w.db tx))) = .free ∨ ∃ r ∈ w.db k.table,
              k.stands k.table r = true ∧ lookedUp k k.table ((visible schema w.db tx k.table).filter
                (p (visible schema w.db tx))) = .held (keyOf k.table r)
          generalize (visible schema w.db tx k.table).filter (p (visible schema w.db tx)) = rows
            at hmem
          unfold lookedUp
          cases hfind : rows.find? (k.stands k.table) with
          | none => exact .inl rfl
          | some r =>
            exact .inr ⟨r, hmem r (List.mem_of_find?_eq_some hfind), List.find?_some hfind, rfl⟩
        · cases q with
          | read course =>
            have hnote : ∀ rows, raceNote k (.read course) (tx :: l') (.db (.select t p)) rows =
                .read course := fun _ => if_neg ht
            rw [hnote]
            exact hquiet
          | start =>
            have hnote : ∀ rows, raceNote k .start (tx :: l') (.db (.select t p)) rows =
                courseRead t rows := fun _ => if_neg ht
            rw [hnote]
            show RaceStep w₀ k w _ _ _ _ .start (courseRead t
              ((visible schema w.db tx t).filter (p (visible schema w.db tx))))
            cases t with
            | courses =>
              cases hrows : (visible schema w.db tx .courses).filter
                  (p (visible schema w.db tx)) with
              | nil => exact hquiet
              | cons course rest =>
                exact .read hdb (hmem course (hrows ▸ List.mem_cons_self))
            | _ => exact hquiet
          | _ => exact hlook.elim
      · rw [raceNote_kept (by rintro ⟨⟩) (fun _ _ _ => hlook) (by rintro t r ⟨⟩)
          (by rintro t id p f ⟨⟩)]
        exact hquiet
    | insert t r =>
      have hdb : (exec env (.db (.insert t r)) (w, l)).2.1.db = w.db := by
        rw [exec_db_world (by rintro ⟨⟩)]
      by_cases ht : t = k.table
      · subst ht
        obtain ⟨rfl, tx, rfl, hw, hhit, hok⟩ := hallow rfl
        cases hins : insertError schema w.db tx k.table (schema.coerce k.table r) with
        | none =>
          have hexec : exec env (.db (.insert k.table r)) (w, [tx]) =
              (.ok 1, w, [tx.push (.insert k.table (schema.coerce k.table r))]) := by
            simp only [exec, Mvcc.exec, execTx, hins]
            rfl
          rw [hexec]
          have hnote : raceNote k .free [tx] (.db (.insert k.table r)) (.ok 1) = .inserted :=
            if_pos rfl
          rw [hnote]
          refine .insert rfl rfl hhit hins rfl ⟨_, List.mem_cons_self, ?_⟩
          refine ⟨⟨_, ?_, hhit⟩, fun x hx _ => ?_⟩
          · rw [Tx.push_writes, hw]
            exact List.mem_cons_self
          · rw [Tx.push_writes, hw, List.nil_append, List.mem_singleton] at hx
            exact ⟨_, hx⟩
        | some e =>
          have hexec : exec env (.db (.insert k.table r)) (w, [tx]) = (.error e, w, [tx]) := by
            simp only [exec, Mvcc.exec, execTx, hins]
          rw [hexec]
          have hnote : raceNote k .free [tx] (.db (.insert k.table r)) (.error e) = .refused :=
            if_pos rfl
          rw [hnote]
          refine .refuse rfl fun hbefore hfree => ?_
          rw [hok w.db hbefore hfree] at hins
          cases hins
      · rw [raceNote_kept (by rintro ⟨⟩) (by rintro t' p' ⟨⟩)
          (by rintro t' r' h ht'; cases h; exact absurd ht' ht) (by rintro t id p f ⟨⟩)]
        refine .quiet (fun t _ => by rw [hdb]) fun _ hholds => ?_
        exact hholds.statement ⟨by rintro ⟨⟩, by rintro ⟨⟩⟩ (by rintro t id ⟨⟩)
          (by rintro t id p f ⟨⟩)
    | update t id p f =>
      have hdb : (exec env (.db (.update t id p f)) (w, l)).2.1.db = w.db := by
        rw [exec_db_world (by rintro ⟨⟩)]
      by_cases hkeep : t = k.table ∧ ∃ key, q = .held key
      · obtain ⟨ht, key, rfl⟩ := hkeep
        have hnote : ∀ a, raceNote k (.held key) l (.db (.update t id p f)) a = .kept key :=
          fun _ => if_pos ht
        rw [hnote]
        exact .keep (.inl rfl) fun h => hdb ▸ h
      · rw [raceNote_kept (by rintro ⟨⟩) (by rintro t' p' ⟨⟩) (by rintro t' r' ⟨⟩)
          (by rintro t' id' p' f' h ht key hq; cases h; exact hkeep ⟨ht, key, hq⟩)]
        refine .quiet (fun t _ => by rw [hdb]) fun hq hholds => ?_
        refine hholds.statement ⟨by rintro ⟨⟩, by rintro ⟨⟩⟩ (by rintro t id ⟨⟩) ?_
        rintro t' id' p' f' h ht
        cases h
        exact hallow ht hq
    | _ =>
      rw [raceNote_kept (by rintro ⟨⟩) (by rintro t p ⟨⟩) (by rintro t r ⟨⟩)
        (by rintro t id p f ⟨⟩)]
      refine .quiet (fun t _ => by rw [exec_db_world (by rintro ⟨⟩)]) fun _ hholds => ?_
      exact hholds.statement ⟨by rintro ⟨⟩, by rintro ⟨⟩⟩ (by rintro t id ⟨⟩)
        (by rintro t id p f ⟨⟩)
  | now | uuid4 | draw =>
    rw [raceNote_kept (by rintro ⟨⟩) (by rintro t p ⟨⟩) (by rintro t r ⟨⟩)
        (by rintro t id p f ⟨⟩)]
    exact .quiet (fun _ _ => rfl) fun _ h => h
  | _ => exact hallow.elim

end Steps

/-! ## Every state of a run -/

section Runs

variable {env : Env} {α ι : Type} [DecidableEq ι] {k : RaceKey} {w₀ : World}
  {P : Crowd α RaceRecord ι} {i : ι}

/-- The row with the key is committed by one request at most, and by none while another one
holds it. -/
structure RaceInv (w₀ : World) (k : RaceKey) (P : Crowd α RaceRecord ι) : Prop where
  uuid : w₀.nextUuid ≤ P.world.nextUuid
  /-- until a request has won, no other one has got beyond its own insert -/
  phase : (BeforeRace w₀ P.world.db ∧ ∀ i, (P.thread i).seen.early w₀) ∨
    ∃ key, AfterRace k w₀ key P.world.db ∧ (∀ i, (P.thread i).seen.agrees key) ∧
      ∃ i, (P.thread i).seen = .won ∧ ∀ j, (P.thread j).seen = .won → j = i
  unused : ∀ i, (P.thread i).seen = .inserted →
    ∀ r ∈ w₀.db k.table, k.hits k.table r = false
  once : ∀ i j, (P.thread i).seen = .inserted → (P.thread j).seen = .inserted → i = j
  holds : ∀ i, (P.thread i).seen = .inserted → HoldsOne k (P.thread i).loc
  unrefused : ∀ i, (P.thread i).seen ≠ .refused

omit [DecidableEq ι] in
theorem RaceInv.rely (h : RaceInv w₀ k P) (i : ι) : RaceRely w₀ k (P.thread i).seen P.world := by
  refine ⟨h.uuid, h.phase.imp (fun hb => ⟨hb.1, hb.2 i⟩) ?_⟩
  rintro ⟨key, ha, hagrees, -⟩
  exact ⟨key, ha, hagrees i⟩

omit [DecidableEq ι] in
/-- Before the race is won, an accepted insert is the only one. -/
theorem RaceInv.alone (h : RaceInv w₀ k P) {r : Row k.table} {tx : Tx}
    (hfree : P.Free (machine env (raceNote k)) i (.db (.insert k.table r)))
    (hloc : (P.thread i).loc = [tx]) (hhit : k.hits k.table (schema.coerce k.table r) = true)
    (hok : insertError schema P.world.db tx k.table (schema.coerce k.table r) = none) {j : ι}
    (hji : j ≠ i) : (P.thread j).seen ≠ .inserted := by
  intro hj
  obtain ⟨tx', hmem, hhold⟩ := h.holds j hj
  obtain ⟨r', hr', hhit'⟩ := hhold.view (view schema P.world.db tx)
  refine hfree j hji ?_
  show waits (.db (.insert k.table r)) (P.world, (P.thread i).loc) (P.thread j).loc
  rw [hloc]
  show blocked schema P.world.db tx (P.thread j).loc (.insert k.table r) = true
  rw [blocked, hok, Option.isNone_none, Bool.true_and, List.any_eq_true]
  exact ⟨tx', hmem, RaceKey.refuses hr' hhit hhit'⟩

/-- A property of records that holds of the one that changes and of all the others. -/
theorem forall_seen {P' : Crowd α RaceRecord ι} {φ : RaceRecord → Prop}
    (hother : ∀ j, j ≠ i → P'.thread j = P.thread j) (hself : φ (P'.thread i).seen)
    (hall : ∀ j, j ≠ i → φ (P.thread j).seen) (j : ι) : φ (P'.thread j).seen := by
  by_cases hji : j = i
  · rw [hji]
    exact hself
  · rw [hother j hji]
    exact hall j hji

/-- The invariant after a step, from what the step did. -/
theorem RaceInv.of_step {P' : Crowd α RaceRecord ι} {o : Op} {q q' : RaceRecord} (h : RaceInv w₀ k P)
    (hopen : ∀ r ∈ w₀.db k.table, k.stands k.table r = false)
    (hq : (P.thread i).seen = q) (hq' : (P'.thread i).seen = q')
    (huuid : P.world.nextUuid ≤ P'.world.nextUuid)
    (hother : ∀ j, j ≠ i → P'.thread j = P.thread j)
    (hstep : RaceStep w₀ k P.world P'.world o (P.thread i).loc (P'.thread i).loc q q')
    (hok : KeyFree k P i (some o))
    (halone : ∀ r tx, o = .db (.insert k.table r) → (P.thread i).loc = [tx] →
      k.hits k.table (schema.coerce k.table r) = true →
      insertError schema P.world.db tx k.table (schema.coerce k.table r) = none →
      ∀ j, j ≠ i → (P.thread j).seen ≠ .inserted) : RaceInv w₀ k P' := by
  -- no committed row has the key, so nobody has won
  have hbefore : (∀ r ∈ P.world.db k.table, k.hits k.table r = false) →
      BeforeRace w₀ P.world.db ∧ ∀ i, (P.thread i).seen.early w₀ := by
    intro hnone
    refine h.phase.resolve_right ?_
    rintro ⟨key, hafter, -⟩
    obtain ⟨r, hr, hhit⟩ := hafter.hit
    rw [hnone r hr] at hhit
    cases hhit
  -- the others are where they were, and a record that is not `inserted` asks nothing
  have hrest : q' ≠ .inserted →
      (∀ j, (P'.thread j).seen = .inserted → j ≠ i ∧ (P.thread j).seen = .inserted) := by
    intro hne j hj
    have hji : j ≠ i := by
      rintro rfl
      exact hne (hq'.symm.trans hj)
    exact ⟨hji, by rwa [hother j hji] at hj⟩
  have hunrefused : q' ≠ .refused → ∀ j, (P'.thread j).seen ≠ .refused := by
    intro hne j hj
    by_cases hji : j = i
    · rw [hji, hq'] at hj
      exact hne hj
    · rw [hother j hji] at hj
      exact h.unrefused j hj
  cases hstep with
  | quiet db holds =>
    have hsame : ∀ j, (P'.thread j).seen = (P.thread j).seen := by
      intro j
      by_cases hj : j = i
      · rw [hj, hq, hq']
      · rw [hother j hj]
    refine ⟨h.uuid.trans huuid, ?_, ?_, ?_, fun j hj => ?_, ?_⟩
    · simp only [hsame]
      refine h.phase.imp (fun hb => ⟨hb.1.congr db, hb.2⟩) ?_
      rintro ⟨key, ha, hrest⟩
      exact ⟨key, ha.congr db, hrest⟩
    · simp only [hsame]
      exact h.unused
    · simp only [hsame]
      exact h.once
    · rw [hsame] at hj
      by_cases hji : j = i
      · subst hji
        exact holds (hq.symm.trans hj) (h.holds j hj)
      · rw [hother j hji]
        exact h.holds j hj
    · simp only [hsame]
      exact h.unrefused
  | @read course db found =>
    have hne : RaceRecord.read course ≠ .inserted := by rintro ⟨⟩
    refine ⟨h.uuid.trans huuid, ?_, fun j hj => h.unused j (hrest hne j hj).2,
      fun j j' hj hj' => h.once j j' (hrest hne j hj).2 (hrest hne j' hj').2, fun j hj => ?_,
      hunrefused (by rintro ⟨⟩)⟩
    · rw [db]
      rcases h.phase with ⟨hb, hall⟩ | ⟨key, ha, hagrees, i₀, hwon, hone⟩
      · refine .inl ⟨hb, forall_seen hother ?_ fun j _ => hall j⟩
        rw [hq']
        show course ∈ w₀.db .courses
        rw [← hb .courses (by rintro ⟨⟩)]
        exact found
      · have hne₀ : i₀ ≠ i := by
          rintro rfl
          cases hq.symm.trans hwon
        refine .inr ⟨key, ha, forall_seen hother ?_ fun j _ => hagrees j, i₀, ?_, fun j hj => ?_⟩
        · rw [hq']
          trivial
        · rw [hother i₀ hne₀]
          exact hwon
        · by_cases hji : j = i
          · rw [hji, hq'] at hj
            cases hj
          · rw [hother j hji] at hj
            exact hone j hj
    · obtain ⟨hji, hj⟩ := hrest hne j hj
      rw [hother j hji]
      exact h.holds j hj
  | @looked q q' looking db found =>
    have hne : q' ≠ .inserted := by
      rcases found with rfl | ⟨r, -, -, rfl⟩ <;> rintro ⟨⟩
    refine ⟨h.uuid.trans huuid, ?_, fun j hj => h.unused j (hrest hne j hj).2,
      fun j j' hj hj' => h.once j j' (hrest hne j hj).2 (hrest hne j' hj').2, fun j hj => ?_,
      hunrefused ?_⟩
    · rw [db]
      rcases h.phase with ⟨hb, hall⟩ | ⟨key, ha, hagrees, i₀, hwon, hone⟩
      · refine .inl ⟨hb, forall_seen hother ?_ fun j _ => hall j⟩
        rcases found with rfl | ⟨r, hr, hstands, -⟩
        · rw [hq']
          trivial
        · rw [hb _ k.table_ne] at hr
          rw [hopen r hr] at hstands
          cases hstands
      · have hne₀ : i₀ ≠ i := by
          rintro rfl
          rw [← hq, hwon] at looking
          exact looking
        refine .inr ⟨key, ha, forall_seen hother ?_ fun j _ => hagrees j, i₀, ?_, fun j hj => ?_⟩
        · rw [hq']
          rcases found with rfl | ⟨r, hr, hstands, rfl⟩
          · trivial
          · exact ha.key_of_stands hr hstands
        · rw [hother i₀ hne₀]
          exact hwon
        · by_cases hji : j = i
          · rw [hji, hq'] at hj
            rcases found with rfl | ⟨r, -, -, rfl⟩ <;> cases hj
          · rw [hother j hji] at hj
            exact hone j hj
    · obtain ⟨hji, hj⟩ := hrest hne j hj
      rw [hother j hji]
      exact h.holds j hj
    · rcases found with rfl | ⟨r, -, -, rfl⟩ <;> rintro ⟨⟩
  | @insert tx r stmt loc hits accepted db holds =>
    subst stmt
    obtain ⟨hb, hall⟩ := hbefore (hok rfl)
    have hnone := halone r tx rfl loc hits accepted
    have honly : ∀ j, (P'.thread j).seen = .inserted → j = i := by
      intro j hj
      by_contra hji
      rw [hother j hji] at hj
      exact hnone j hji hj
    have hunused : ∀ r ∈ w₀.db k.table, k.hits k.table r = false := by
      rw [← hb _ k.table_ne]
      exact hok rfl
    refine ⟨h.uuid.trans huuid, .inl ⟨db ▸ hb, forall_seen hother ?_ fun j _ => hall j⟩,
      fun j _ => hunused, fun j j' hj hj' => (honly j hj).trans (honly j' hj').symm,
      fun j hj => ?_, hunrefused (by rintro ⟨⟩)⟩
    · rw [hq']
      trivial
    · rw [honly j hj]
      exact holds
  | refuse stmt taken =>
    subst stmt
    exact absurd (hok rfl) (taken (hbefore (hok rfl)).1)
  | win db =>
    obtain ⟨hb, hall⟩ : BeforeRace w₀ P.world.db ∧ ∀ i, (P.thread i).seen.early w₀ := by
      refine h.phase.resolve_right ?_
      rintro ⟨key, -, hagrees, -⟩
      have hself := hagrees i
      rw [hq] at hself
      exact hself
    have hne : RaceRecord.won ≠ .inserted := by rintro ⟨⟩
    -- the one that has won was the only one to hold the key
    have hnone : ∀ j, (P'.thread j).seen ≠ .inserted := by
      intro j hj
      obtain ⟨hji, hj⟩ := hrest hne j hj
      exact hji (h.once j i hj hq)
    obtain ⟨key, hafter⟩ := db hb (hb _ k.table_ne ▸ h.unused i hq)
    have hearly : ∀ q : RaceRecord, q.early w₀ → q ≠ .inserted → q.agrees key := by
      intro q hearly hq
      cases q with
      | inserted => exact absurd rfl hq
      | start => trivial
      | read course => trivial
      | free => trivial
      | _ => exact hearly.elim
    refine ⟨h.uuid.trans huuid, .inr ⟨key, hafter, fun j => ?_, i, hq', fun j hj => ?_⟩,
      fun j hj => absurd hj (hnone j), fun j _ hj => absurd hj (hnone j),
      fun j hj => absurd hj (hnone j), hunrefused (by rintro ⟨⟩)⟩
    · by_cases hji : j = i
      · rw [hji, hq']
        trivial
      · have hj := hnone j
        rw [hother j hji] at hj ⊢
        exact hearly _ (hall j) hj
    · by_contra hji
      rw [hother j hji] at hj
      have hj' := hall j
      rw [hj] at hj'
      exact hj'
  | @keep q key held db =>
    obtain ⟨key', ha, hagrees, i₀, hwon, hone⟩ := h.phase.resolve_left fun hb => by
      have hself := hb.2 i
      rw [hq] at hself
      rcases held with rfl | rfl <;> exact hself
    have hkey : key = key' := by
      have hself := hagrees i
      rw [hq] at hself
      rcases held with rfl | rfl <;> exact hself
    subst hkey
    have hne₀ : i₀ ≠ i := by
      rintro rfl
      rcases held with rfl | rfl <;> cases hq.symm.trans hwon
    have hne : RaceRecord.kept key ≠ .inserted := by rintro ⟨⟩
    refine ⟨h.uuid.trans huuid, .inr ⟨key, db ha, forall_seen hother ?_ fun j _ => hagrees j, i₀, ?_,
      fun j hj => ?_⟩, fun j hj => h.unused j (hrest hne j hj).2,
      fun j j' hj hj' => h.once j j' (hrest hne j hj).2 (hrest hne j' hj').2, fun j hj => ?_,
      hunrefused (by rintro ⟨⟩)⟩
    · rw [hq']
      rfl
    · rw [hother i₀ hne₀]
      exact hwon
    · by_cases hji : j = i
      · rw [hji, hq'] at hj
        cases hj
      · rw [hother j hji] at hj
        exact hone j hj
    · obtain ⟨hji, hj⟩ := hrest hne j hj
      rw [hother j hji]
      exact h.holds j hj

/-- **One step** of a request keeps the invariant, if it inserts only while no committed row
has the key. -/
theorem RaceInv.act (h : RaceInv w₀ k P)
    (hopen : ∀ r ∈ w₀.db k.table, k.stands k.table r = false) {o : Op} {f : o.Ans → M α}
    (hallow : RaceAllowed w₀ k (P.thread i).seen (P.thread i).loc o)
    (hok : KeyFree k P i (some o)) (hfree : P.Free (machine env (raceNote k)) i o) :
    RaceInv w₀ k (P.act (machine env (raceNote k)) i o f) := by
  refine h.of_step hopen rfl (congrArg Thread.seen Pool.act_self) (exec_older o P.world _).uuid
    (fun j hj => Pool.act_other hj) ?_ hok fun r tx ho hloc hhit hins j hji => ?_
  · rw [Pool.act_self]
    exact race_step hallow
  · subst ho
    exact h.alone hfree hloc hhit hins hji

end Runs

/-! ## Requests of a race -/

section Requests

variable {env : Env} {α ι : Type} {k : RaceKey} {w₀ : World} {q : RaceRecord} {l : List Tx}

/-- What a request does in the company of others that race for the key. -/
abbrev Races (env : Env) (w₀ : World) (k : RaceKey) (Q : RaceRecord → List Tx → α → Prop)
    (E : RaceRecord → List Tx → Err → Prop) (q : RaceRecord) (l : List Tx) (p : M α) : Prop :=
  Does env (raceNote k) (RaceRely w₀ k) (RaceAllowed w₀ k) Q E q l p

/-- How the body of a request ends: it has inserted its row, or written the one that it
found. -/
def RaceEnds (w₀ : World) (k : RaceKey) (q : RaceRecord) (l : List Tx) : Prop :=
  ∃ tx, l = [tx] ∧ tx.pending = [] ∧
    ((q = .inserted ∧ ∀ db, BeforeRace w₀ db → (∀ r ∈ db k.table, k.hits k.table r = false) →
        ∃ key, AfterRace k w₀ key (view schema db tx)) ∨
      ∃ key, q = .kept key ∧ k.conflicts = false ∧
        ∀ db, AfterRace k w₀ key db → AfterRace k w₀ key (view schema db tx))

/-- How a request returns: with its row committed, or the progress row that it found. -/
def RaceReturns (k : RaceKey) (q : RaceRecord) : Prop :=
  q = .won ∨ ∃ key, q = .kept key ∧ k.conflicts = false

/-- How a request fails: its insert was refused, or it has found a row and raises a
conflict. -/
def RaceFails (k : RaceKey) (q : RaceRecord) (e : Err) : Prop :=
  q = .refused ∨
    k.conflicts = true ∧ (∃ key, q = .held key) ∧ ∃ message, e = .app .conflict message .none

/-- How the body of a request fails, with its transaction open. -/
abbrev FailsOpen (k : RaceKey) (q : RaceRecord) (l : List Tx) (e : Err) : Prop :=
  (∃ tx, l = [tx]) ∧ RaceFails k q e

theorem race_starts (q : RaceRecord) : Does.Starts (raceNote k) (RaceAllowed w₀ k) q where
  begin l := ⟨trivial, fun _ => by cases q <;> rfl⟩
  now l := ⟨trivial, fun _ => by cases q <;> rfl⟩
  set l f := ⟨trivial, fun _ => by cases q <;> rfl⟩

/-- After the check, queries change nothing. -/
theorem race_reads (hq : ¬ q.looking) : Does.Reads (raceNote k) (RaceAllowed w₀ k) q where
  select l t p := ⟨fun h => absurd h hq, fun _ => by
    cases q with
    | start => exact absurd trivial hq
    | read course => exact absurd trivial hq
    | _ => rfl⟩
  join l t₁ t₂ p := ⟨trivial, fun _ => by cases q <;> rfl⟩

theorem race_audits (hq : q = .inserted ∨ ∃ key, q = .kept key) (hl : l ≠ []) :
    Does.Audits (raceNote k) (RaceAllowed w₀ k) q l where
  uuid4 tx := ⟨trivial, fun _ => by cases q <;> rfl⟩
  add tx r := ⟨trivial, fun _ => by cases q <;> rfl⟩
  take tx := ⟨trivial, fun _ => by cases q <;> rfl⟩
  insert tx r := ⟨fun h => absurd h.symm k.table_ne, fun _ => by
    rcases hq with rfl | ⟨key, rfl⟩ <;> rfl⟩
  commit tx h := ⟨.inl ⟨tx, l, rfl, hl, hq, h⟩, fun _ => by
    rcases hq with rfl | ⟨key, rfl⟩
    · refine if_neg fun h => hl (List.length_eq_zero_iff.mp (Nat.succ.inj h))
    · rfl⟩
  rollback tx hw := ⟨fun _ => ⟨tx, l, rfl, hl, hw⟩, fun _ => by cases q <;> rfl⟩

/-- A request, from what its body does. -/
theorem race_request {β : Type} {rc : RequestContext} {body : Session → M β} {f : β → α}
    (hbody : ∀ s, Races env w₀ k (fun q l _ => RaceEnds w₀ k q l) (FailsOpen k) .start
      [boundTx env rc.tenantId rc.isSuperadmin] (body s)) :
    Races env w₀ k (fun q _ _ => RaceReturns k q) (fun q _ e => RaceFails k q e) .start []
      (getDb env (some rc) body >>= fun b => pure (f b)) := by
  refine Does.getDb (race_starts _) hbody ?_ ?_
  · rintro q l b ⟨tx, rfl, hp, hends⟩
    refine Does.commitSession_nil hp ⟨trivial, fun _ => by cases q <;> rfl⟩
      (.inr ⟨tx, rfl, ?_⟩) ?_
    · rcases hends with hins | ⟨key, hkept, -, hdb⟩
      · exact .inl hins
      · exact .inr ⟨key, hkept, hdb⟩
    · rcases hends with ⟨rfl, -⟩ | ⟨key, rfl, hk, -⟩
      · exact .inl rfl
      · exact .inr ⟨key, rfl, hk⟩
  · rintro q l e ⟨⟨tx, rfl⟩, hfails⟩
    have hrolled : ∀ a, raceNote k q [tx] (.db .rollback) a = q := fun _ => by cases q <;> rfl
    refine Does.rollback ?_ ?_
    · rintro rfl
      rcases hfails with h | ⟨-, ⟨key, h⟩, -⟩ <;> cases h
    · rw [hrolled]
      exact hfails

variable [DecidableEq ι] {P : Crowd α RaceRecord ι}

/-- **Run**: requests that insert only while no committed row has the key. -/
theorem race_run {p : ι → M α} (hopen : ∀ r ∈ w₀.db k.table, k.stands k.table r = false)
    (hp : ∀ i, Races env w₀ k (fun q _ _ => RaceReturns k q) (fun q _ e => RaceFails k q e) .start []
      (p i))
    (hrun : Reach (machine env (raceNote k)) (KeyFree k) (crowd w₀ .start p) P) :
    RaceInv w₀ k P ∧ Orderly (machine env (raceNote k)) (RaceRely w₀ k)
      (fun _ => RaceAllowed w₀ k) (fun _ q _ _ => RaceReturns k q)
      (fun _ q _ e => RaceFails k q e) P := by
  refine hrun.invariant (fun P h i => h.rely i) ?_ ?_ ?_ ?_
  · refine ⟨le_refl _, .inl ⟨fun _ _ => rfl, fun _ => trivial⟩, ?_, ?_, ?_, ?_⟩
    · rintro i ⟨⟩
    · rintro i j ⟨⟩
    · rintro i ⟨⟩
    · rintro i ⟨⟩
  · intro i p' hp'
    cases hp'
    exact hp i
  · intro P i o f hinv _ hok _ hallow hfree
    exact hinv.act hopen hallow hok hfree
  · intro P i _ _ hok _
    exact hok.elim

end Requests

end LmsBackend
