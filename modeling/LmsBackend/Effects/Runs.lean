import LmsBackend.Core.Events
import LmsBackend.Core.Security

/-!
# Runs of the core operations

What sessions, statements and the small services do to a state, as equations.

- `boundTx`: the transaction of a session right after its settings are bound.
- `insertAll`: what a flush writes, row by row until one is refused.
- `run_getDb`, `run_tenantSession`: a unit of work in terms of its body.
- `seen`: the database as the innermost transaction sees it; queries read it and
  leave the state alone.
-/

namespace LmsBackend

open Mvcc

variable {env : Env} {α β : Type}

/-! ## States -/

/-- The world after one more reading of the clock. -/
def World.tick (w : World) : World := { w with ticks := w.ticks + 1 }

@[simp] theorem World.tick_db (w : World) : w.tick.db = w.db := rfl
@[simp] theorem World.tick_ticks (w : World) : w.tick.ticks = w.ticks + 1 := rfl
@[simp] theorem World.tick_redis (w : World) : w.tick.redis = w.redis := rfl
@[simp] theorem World.tick_resetStore (w : World) : w.tick.resetStore = w.resetStore := rfl
@[simp] theorem World.tick_nextUuid (w : World) : w.tick.nextUuid = w.nextUuid := rfl

/-- The transaction of a session whose settings have just been bound. -/
def boundTx (env : Env) (tenantId : Option Uuid) (bypass : Bool) : Tx :=
  ⟨if env.settings.enableRowLevelSecurity then ⟨tenantId, bypass⟩ else {}, [], []⟩

/-- The transaction with one more row waiting. -/
def withPending (tx : Tx) (x : AnyRow Row) : Tx := { tx with pending := tx.pending ++ [x] }

/-- The rows that the innermost transaction sees. -/
def seen (w : World) (tx : Tx) : Database Row := visible schema w.db tx

/-- Run a program of the application. -/
abbrev runM (env : Env) (p : M α) (s : State) : Except Err α × State := p.run (exec env) s

/-- The operations of a run of the application. -/
abbrev traceM (env : Env) (p : M α) (s : State) : List (State × Op) := p.trace (exec env) s

/-- `Prog.run_bind`, on `do` notation. -/
theorem runM_bind (p : M α) (f : α → M β) (s : State) :
    runM env (p >>= f) s =
      match runM env p s with
      | (.ok a, s') => runM env (f a) s'
      | (.error e, s') => (.error e, s') := by
  rcases h : runM env p s with ⟨r, s'⟩
  cases r with
  | ok a => exact Prog.run_bind_ok h
  | error e => exact Prog.run_bind_error h

theorem runM_bind_ok {p : M α} {f : α → M β} {s s' : State} {a : α}
    (h : runM env p s = (.ok a, s')) : runM env (p >>= f) s = runM env (f a) s' :=
  Prog.run_bind_ok h

theorem runM_bind_error {p : M α} {f : α → M β} {s s' : State} {e : Err}
    (h : runM env p s = (.error e, s')) : runM env (p >>= f) s = (.error e, s') :=
  Prog.run_bind_error h

@[simp] theorem runM_pure (a : α) (s : State) : runM env (pure a) s = (.ok a, s) := rfl

@[simp] theorem runM_throwApp (kind : ErrorKind) (message : String) (details : Details)
    (s : State) : runM env (throwApp kind message details : M α) s =
      (.error (.app kind message details), s) := rfl

/-! ## Single operations -/

@[simp] theorem runM_now (w : World) (txs : List Tx) :
    runM env now (w, txs) = (.ok (env.clock w.ticks), (w.tick, txs)) := rfl

@[simp] theorem runM_uuid4 (w : World) (txs : List Tx) :
    runM env uuid4 (w, txs) = (.ok w.nextUuid, ({ w with nextUuid := w.nextUuid + 1 }, txs)) := rfl

@[simp] theorem runM_add (w : World) (tx : Tx) (txs : List Tx) (t : Table) (r : Row t) :
    runM env (add t r) (w, tx :: txs) =
      (.ok (), (w, { tx with pending := tx.pending ++ [⟨t, r⟩] } :: txs)) := rfl

@[simp] theorem runM_query (w : World) (tx : Tx) (txs : List Tx) (t : Table)
    (p : Row t → Bool) :
    runM env (query t p) (w, tx :: txs) = (.ok ((seen w tx t).filter p), (w, tx :: txs)) := rfl

@[simp] theorem runM_select (w : World) (tx : Tx) (txs : List Tx) (t : Table)
    (p : Database Row → Row t → Bool) :
    runM env (sql (.select t p)) (w, tx :: txs) =
      (.ok ((seen w tx t).filter (p (seen w tx))), (w, tx :: txs)) := rfl

/-- The pairs of an inner join. -/
def joined (db : Database Row) (t₁ t₂ : Table) (p : Row t₁ → Row t₂ → Bool) :
    List (Row t₁ × Row t₂) :=
  (db t₁).flatMap fun a => ((db t₂).filter (p a)).map (a, ·)

theorem mem_joined {db : Database Row} {t₁ t₂ : Table} {p : Row t₁ → Row t₂ → Bool}
    {x : Row t₁ × Row t₂} :
    x ∈ joined db t₁ t₂ p ↔ x.1 ∈ db t₁ ∧ x.2 ∈ db t₂ ∧ p x.1 x.2 = true := by
  obtain ⟨a, b⟩ := x
  constructor
  · intro h
    obtain ⟨a', ha, hx⟩ := List.mem_flatMap.mp h
    obtain ⟨b', hb, heq⟩ := List.mem_map.mp hx
    cases heq
    exact ⟨ha, (List.mem_filter.mp hb).1, (List.mem_filter.mp hb).2⟩
  · rintro ⟨ha, hb, hp⟩
    exact List.mem_flatMap.mpr ⟨a, ha, List.mem_map.mpr ⟨b, List.mem_filter.mpr ⟨hb, hp⟩, rfl⟩⟩

@[simp] theorem runM_join (w : World) (tx : Tx) (txs : List Tx) (t₁ t₂ : Table)
    (p : Row t₁ → Row t₂ → Bool) :
    runM env (sql (.join t₁ t₂ p)) (w, tx :: txs) =
      (.ok (joined (seen w tx) t₁ t₂ p), (w, tx :: txs)) := rfl

/-- `scalar_one_or_none` on some rows. -/
def scalar {α : Type} : List α → Except Err (Option α)
  | [] => .ok none
  | [a] => .ok (some a)
  | _ => .error (.unhandled .multipleResultsFound)

theorem runM_scalarOneOrNone (rows : List α) (s : State) :
    runM env (scalarOneOrNone rows) s = (scalar rows, s) := by
  match rows with
  | [] => rfl
  | [a] => rfl
  | _ :: _ :: _ => rfl

theorem scalar_eq_some {rows : List α} {a : α} (h : scalar rows = .ok (some a)) : rows = [a] := by
  match rows with
  | [] => cases h
  | [b] => cases h; rfl
  | _ :: _ :: _ => cases h

theorem scalar_eq_none {rows : List α} (h : scalar rows = .ok none) : rows = [] := by
  match rows with
  | [] => rfl
  | [b] => cases h
  | _ :: _ :: _ => cases h

/-- What `scalar_one_or_none` returns is all that there is. -/
theorem scalar_toList {rows : List α} {r : Option α} (h : scalar rows = .ok r) :
    r.toList = rows := by
  cases r with
  | none => rw [scalar_eq_none h]; rfl
  | some a => rw [scalar_eq_some h]; rfl

/-! ## Flushing and committing -/

/-- The write that inserts a row, as the columns store it. -/
def inserting (x : AnyRow Row) : Mvcc.Write Row (List Uuid) := .insert x.1 (schema.coerce x.1 x.2)

/-- Insert rows one after the other, until one is refused. -/
def insertAll (db : Database Row) : Tx → List (AnyRow Row) → Except DbError Unit × Tx
  | tx, [] => (.ok (), tx)
  | tx, x :: xs =>
    match insertError schema db tx x.1 (schema.coerce x.1 x.2) with
    | some e => (.error e, tx)
    | none => insertAll db (tx.push (inserting x)) xs

/-- Rows that were all inserted: the transaction has their writes. -/
theorem insertAll_ok {db : Database Row} {tx tx' : Tx} {xs : List (AnyRow Row)}
    (h : insertAll db tx xs = (.ok (), tx')) :
    tx' = { tx with writes := tx.writes ++ xs.map inserting } := by
  induction xs generalizing tx with
  | nil =>
    cases h
    simp
  | cons x xs ih =>
    unfold insertAll at h
    split at h
    · cases congrArg Prod.fst h
    · rw [ih h]
      simp [Tx.push]

theorem runM_insertRow (w : World) (tx : Tx) (txs : List Tx) (x : AnyRow Row) :
    runM env (insertRow x) (w, tx :: txs) =
      match insertError schema w.db tx x.1 (schema.coerce x.1 x.2) with
      | some e => (.error (.db e), (w, tx :: txs))
      | none => (.ok (), (w, tx.push (inserting x) :: txs)) := by
  have hsql : runM env (sql (.insert x.1 x.2)) (w, tx :: txs) =
      (.ok (execTx schema w.db tx (.insert x.1 x.2)).1,
        (w, (execTx schema w.db tx (.insert x.1 x.2)).2 :: txs)) := rfl
  unfold insertRow
  rw [runM_bind_ok hsql]
  simp only [execTx]
  cases insertError schema w.db tx x.1 (schema.coerce x.1 x.2) with
  | none => rfl
  | some e => rfl

theorem runM_insertAll (w : World) (txs : List Tx) :
    ∀ (xs : List (AnyRow Row)) (tx : Tx),
      runM env (Prog.forEach xs insertRow) (w, tx :: txs) =
        ((insertAll w.db tx xs).1.mapError .db, (w, (insertAll w.db tx xs).2 :: txs))
  | [], _ => rfl
  | x :: xs, tx => by
    show runM env (insertRow x >>= fun _ => Prog.forEach xs insertRow) (w, tx :: txs) = _
    rw [runM_bind, runM_insertRow]
    unfold insertAll
    cases insertError schema w.db tx x.1 (schema.coerce x.1 x.2) with
    | some e => rfl
    | none => exact runM_insertAll w txs xs _

/-- Every row that was inserted passed the checks, in the transaction of its turn. -/
theorem insertAll_cons_ok {db : Database Row} {tx tx' : Tx} {x : AnyRow Row}
    {xs : List (AnyRow Row)} (h : insertAll db tx (x :: xs) = (.ok (), tx')) :
    insertError schema db tx x.1 (schema.coerce x.1 x.2) = none ∧
      insertAll db (tx.push (inserting x)) xs = (.ok (), tx') := by
  unfold insertAll at h
  split at h
  · cases congrArg Prod.fst h
  · rename_i hnone
    exact ⟨hnone, h⟩

/-- The transaction with the rows that wait for its next flush inserted. -/
def flushed (db : Database Row) (tx : Tx) : Except DbError Unit × Tx :=
  insertAll db { tx with pending := [] } tx.pending

theorem runM_flush (w : World) (tx : Tx) (txs : List Tx) :
    runM env flush (w, tx :: txs) =
      ((flushed w.db tx).1.mapError .db, (w, (flushed w.db tx).2 :: txs)) :=
  runM_insertAll w txs tx.pending { tx with pending := [] }

/-- A flush that succeeds turns the waiting rows into writes. -/
theorem flushed_ok {db : Database Row} {tx tx' : Tx} (h : flushed db tx = (.ok (), tx')) :
    tx' = ⟨tx.guc, tx.writes ++ tx.pending.map inserting, []⟩ :=
  insertAll_ok h

theorem flushed_nil {db : Database Row} {tx : Tx} (h : tx.pending = []) :
    flushed db tx = (.ok (), tx) := by
  obtain ⟨guc, writes, pending⟩ := tx
  cases h
  rfl

theorem runM_flush_ok {w : World} {tx : Tx} {txs : List Tx} {s' : State}
    (h : runM env flush (w, tx :: txs) = (.ok (), s')) :
    s' = (w, ⟨tx.guc, tx.writes ++ tx.pending.map inserting, []⟩ :: txs) := by
  rw [runM_flush] at h
  rcases hf : flushed w.db tx with ⟨r, tx'⟩
  rw [hf] at h
  cases r with
  | ok u =>
    cases h
    rw [flushed_ok hf]
  | error e => cases congrArg Prod.fst h

/-- A flush that succeeds: the first row passed the checks. -/
theorem runM_flush_first {w : World} {tx : Tx} {txs : List Tx} {x : AnyRow Row}
    {xs : List (AnyRow Row)} {s' : State} (hp : tx.pending = x :: xs)
    (h : runM env flush (w, tx :: txs) = (.ok (), s')) :
    insertError schema w.db { tx with pending := [] } x.1 (schema.coerce x.1 x.2) = none := by
  rw [runM_flush, flushed, hp] at h
  rcases hf : insertAll w.db { tx with pending := [] } (x :: xs) with ⟨r, tx'⟩
  rw [hf] at h
  cases r with
  | ok u => exact (insertAll_cons_ok hf).1
  | error e => cases congrArg Prod.fst h

/-- `repo.add` of a row, where no other row waits: it is inserted if it passes the checks. -/
theorem runM_repoAdd {w : World} {tx : Tx} {txs : List Tx} (hp : tx.pending = []) (t : Table)
    (r : Row t) :
    runM env (repoAdd t r) (w, tx :: txs) =
      match insertError schema w.db tx t (schema.coerce t r) with
      | some e => (.error (.db e), (w, tx :: txs))
      | none => (.ok (), (w, tx.push (inserting ⟨t, r⟩) :: txs)) := by
  obtain ⟨guc, writes, pending⟩ := tx
  cases hp
  show runM env (add t r >>= fun _ => flush) (w, ⟨guc, writes, []⟩ :: txs) = _
  rw [runM_bind_ok (runM_add _ _ _ _ _), runM_flush]
  simp only [flushed, List.nil_append, insertAll]
  cases insertError schema w.db ⟨guc, writes, []⟩ t (schema.coerce t r) with
  | none => rfl
  | some e => rfl

/-- `repo.add` of a row, where no other row waits. -/
theorem runM_repoAdd_ok {w : World} {tx : Tx} {txs : List Tx} {t : Table} {r : Row t} {s' : State}
    (hp : tx.pending = []) (h : runM env (repoAdd t r) (w, tx :: txs) = (.ok (), s')) :
    s' = (w, tx.push (inserting ⟨t, r⟩) :: txs) := by
  obtain ⟨_, s₁, hadd, h⟩ := Prog.run_bind_eq_ok h
  cases (runM_add w tx txs t r).symm.trans hadd
  rw [runM_flush_ok h]
  simp [Tx.push, hp]

theorem runM_hashPassword_ok {w : World} {txs : List Tx} {plain hashed : String} {s' : State}
    (h : runM env (hashPassword env plain) (w, txs) = (.ok hashed, s')) :
    hashed = env.hash w.draws plain ∧ s' = ({ w with draws := w.draws + 1 }, txs) := by
  cases h
  exact ⟨rfl, rfl⟩

/-- The world after a commit is attempted. -/
def committed (w : World) (tx : Tx) : World :=
  match flushed w.db tx with
  | (.ok (), tx') => { w with db := view schema w.db tx' }
  | (.error _, _) => w

theorem runM_commitSession (w : World) (tx : Tx) (txs : List Tx) :
    runM env commitSession (w, tx :: txs) =
      (.ok ((flushed w.db tx).1.mapError .db), (committed w tx, txs)) := by
  have hflush : runM env (Prog.attempt flush : M (Except Err Unit)) (w, tx :: txs) =
      (.ok ((flushed w.db tx).1.mapError .db), (w, (flushed w.db tx).2 :: txs)) := by
    rw [runM, Prog.run_attempt]
    exact congrArg (fun r => (Except.ok r.1, r.2)) (runM_flush w tx txs)
  unfold commitSession
  rw [runM_bind_ok hflush, committed]
  rcases flushed w.db tx with ⟨r, tx'⟩
  cases r with
  | ok _ => rfl
  | error _ => rfl

/-- A commit with no row waiting makes the view of the transaction the committed rows. -/
theorem committed_nil {w : World} {tx : Tx} (h : tx.pending = []) :
    committed w tx = { w with db := view schema w.db tx } := by
  rw [committed, flushed_nil h]

/-- A commit with one row waiting that passes the checks. -/
theorem committed_one {w : World} {tx : Tx} {x : AnyRow Row} (hp : tx.pending = [x])
    (h : insertError schema w.db { tx with pending := [] } x.1 (schema.coerce x.1 x.2) = none) :
    committed w tx =
      { w with db := view schema w.db (({ tx with pending := [] } : Tx).push (inserting x)) } := by
  simp only [committed, flushed, hp, insertAll, h]

/-- A commit with one row waiting that does not pass them is undone. -/
theorem committed_refused {w : World} {tx : Tx} {x : AnyRow Row} {e : DbError}
    (hp : tx.pending = [x])
    (h : insertError schema w.db { tx with pending := [] } x.1 (schema.coerce x.1 x.2) = some e) :
    committed w tx = w := by
  simp only [committed, flushed, hp, insertAll, h]

theorem runM_updateRow (s : Session) (t : Table) (id : Uuid) (f : Row t → Row t) (w : World)
    (tx : Tx) (txs : List Tx) :
    runM env (updateRow s t id f) (w, tx :: txs) =
      match target schema w.db tx t [id] fun _ => true with
      | none => (.error (.unhandled .staleData), (w, tx :: txs))
      | some old =>
        match updateError schema w.db tx t old
            (schema.coerce t (touch s.startedAt t (f old))) with
        | some e => (.error (.db e), (w, tx :: txs))
        | none => (.ok (), (w, tx.push
            (.update t [id] (schema.coerce t (touch s.startedAt t (f old)))) :: txs)) := by
  have hsql : runM env (sql (.update t [id] (fun _ => true) fun r => touch s.startedAt t (f r)))
      (w, tx :: txs) = (.ok (execTx schema w.db tx (.update t [id] (fun _ => true) fun r =>
        touch s.startedAt t (f r))).1, (w, (execTx schema w.db tx (.update t [id] (fun _ => true)
          fun r => touch s.startedAt t (f r))).2 :: txs)) := rfl
  unfold updateRow
  rw [runM_bind_ok hsql]
  simp only [execTx]
  cases target schema w.db tx t [id] fun _ => true with
  | none => rfl
  | some old =>
    dsimp only
    cases updateError schema w.db tx t old (schema.coerce t (touch s.startedAt t (f old))) with
    | none => rfl
    | some e => rfl

/-- An update that succeeds found the row and wrote its new version. -/
theorem runM_updateRow_ok {s : Session} {t : Table} {id : Uuid} {f : Row t → Row t} {w : World}
    {tx : Tx} {txs : List Tx} {s' : State}
    (h : runM env (updateRow s t id f) (w, tx :: txs) = (.ok (), s')) :
    ∃ old, target schema w.db tx t [id] (fun _ => true) = some old ∧
      s' = (w, tx.push (.update t [id] (schema.coerce t (touch s.startedAt t (f old)))) :: txs) := by
  rw [runM_updateRow] at h
  cases htarget : target schema w.db tx t [id] fun _ => true with
  | none => rw [htarget] at h; cases congrArg Prod.fst h
  | some old =>
    rw [htarget] at h
    dsimp only at h
    split at h
    · cases congrArg Prod.fst h
    · cases h
      exact ⟨old, rfl, rfl⟩

/-! ## Units of work -/

theorem runM_beginSession (w : World) (txs : List Tx) :
    runM env beginSession (w, txs) =
      (.ok ⟨env.clock w.ticks⟩, (w.tick, ⟨{}, [], []⟩ :: txs)) := rfl

theorem runM_bindRls (w : World) (txs : List Tx) (tenantId : Option Uuid) (bypass : Bool) :
    runM env (bindRls env tenantId bypass) (w, ⟨{}, [], []⟩ :: txs) =
      (.ok (), (w, boundTx env tenantId bypass :: txs)) := by
  unfold bindRls boundTx
  split
  · cases tenantId with
    | none => rfl
    | some tid => rfl
  · rfl

/-- A request's unit of work: the answer is the body's, whatever the commit does. -/
theorem runM_getDb (rc : Option RequestContext) (body : Session → M α) (w : World)
    (txs : List Tx) :
    runM env (getDb env rc body) (w, txs) =
      match runM env (body ⟨env.clock w.ticks⟩) (w.tick, boundTx env (rc.bind (·.tenantId))
        ((rc.map (·.isSuperadmin)).getD false) :: txs) with
      | (.ok a, s) => (.ok a, (runM env commitSession s).2)
      | (.error e, s) => (.error e, (exec env (.db .rollback) s).2) := by
  unfold getDb
  rw [runM_bind_ok (runM_beginSession w txs)]
  rw [runM_bind_ok (show runM env (Prog.attempt _) _ = _ from Prog.run_attempt _ _),
    show Prog.run (exec env) _ _ = _ from runM_bind_ok (runM_bindRls w.tick txs _ _)]
  rcases runM env (body ⟨env.clock w.ticks⟩) _ with ⟨r, s⟩
  cases r with
  | ok a =>
    show runM env (commitSession >>= fun _ => pure a) s = _
    rw [runM_bind]
    obtain ⟨w', txs'⟩ := s
    cases txs' with
    | nil => rfl
    | cons tx txs' =>
      show _ = (Except.ok a, (runM env commitSession (w', tx :: txs')).2)
      rw [runM_commitSession]
      rfl
  | error e => rfl

/-- A unit of work of its own: a failing commit is raised. -/
theorem runM_tenantSession (tenantId : Option Uuid) (bypass : Bool) (body : Session → M α)
    (w : World) (txs : List Tx) :
    runM env (tenantSession env tenantId bypass body) (w, txs) =
      match runM env (body ⟨env.clock w.ticks⟩) (w.tick, boundTx env tenantId bypass :: txs) with
      | (.ok a, s) =>
        match runM env commitSession s with
        | (.ok (.ok ()), s') => (.ok a, s')
        | (.ok (.error e), s') => (.error e, s')
        | (.error e, s') => (.error e, s')
      | (.error e, s) => (.error e, (exec env (.db .rollback) s).2) := by
  unfold tenantSession
  rw [runM_bind_ok (runM_beginSession w txs)]
  rw [runM_bind_ok (show runM env (Prog.attempt _) _ = _ from Prog.run_attempt _ _),
    show Prog.run (exec env) _ _ = _ from runM_bind_ok (runM_bindRls w.tick txs _ _)]
  rcases runM env (body ⟨env.clock w.ticks⟩) _ with ⟨r, s⟩
  cases r with
  | ok a =>
    show runM env (commitSession >>= _) s = _
    rw [runM_bind]
    dsimp only
    rcases runM env commitSession s with ⟨r', s'⟩
    match r' with
    | .ok (.ok ()) => rfl
    | .ok (.error e) => rfl
    | .error e => rfl
  | error e => rfl

/-- A unit of work of its own whose body returns: it commits, unless the flush fails. -/
theorem runM_tenantSession_ok {tenantId : Option Uuid} {bypass : Bool} {body : Session → M α}
    {w w₁ : World} {tx : Tx} {txs : List Tx} {a : α}
    (h : runM env (body ⟨env.clock w.ticks⟩) (w.tick, boundTx env tenantId bypass :: txs) =
      (.ok a, (w₁, tx :: txs))) :
    runM env (tenantSession env tenantId bypass body) (w, txs) =
      (((flushed w₁.db tx).1.mapError Err.db).map fun _ => a, (committed w₁ tx, txs)) := by
  rw [runM_tenantSession, h]
  dsimp only
  rw [runM_commitSession]
  rcases (flushed w₁.db tx).1 with e | u
  · rfl
  · rfl

end LmsBackend
