import LmsBackend.Effects.Quiet
import LmsBackend.Lib.Interleave

/-!
# Requests that run at the same time

The interleaving of several units of work, one operation at a time, at READ COMMITTED:
a statement sees the rows committed before it, and waits for the row locks and the
uncommitted conflicting rows of the other requests (`Mvcc.blocked`). A request may be cut
off between two operations, which rolls its transactions back.

- `machine env note`: what the requests run on; `note` says what is recorded of them.
- `Does`: `Interleave.Follows` for the programs of the application.
- `Does.getDb`, `Does.tenantSession`: the units of work.
-/

namespace LmsBackend

open Mvcc Interleave

variable {env : Env} {σ α β : Type}

/-- What is recorded of a request, and how an operation changes it. -/
abbrev Note (σ : Type) := σ → List Tx → (o : Op) → o.Ans → σ

/-- The statement waits for what another request's transactions hold. -/
def waits (o : Op) (s : State) (others : List Tx) : Prop :=
  match o, s with
  | .db o, (w, tx :: _) => blocked schema w.db tx others o = true
  | _, _ => False

/-- What requests run on. -/
def machine (env : Env) (note : Note σ) : Machine Op Op.Ans World (List Tx) σ where
  exec := exec env
  waits := waits
  closed := []
  note := note

instance {note : Note σ} (o : Op) (s : State) (others : List Tx) :
    Decidable ((machine env note).waits o s others) := by
  show Decidable (waits o s others)
  unfold waits
  split <;> infer_instance

/-- The step is a commit. -/
def commits : Option Op → Bool
  | some (.db .commit) => true
  | _ => false

/-- Requests that run at the same time. -/
abbrev Crowd (α σ ι : Type) := Pool Op Op.Ans Err α World (List Tx) σ ι

/-- The requests of a crowd at the start: none has begun. -/
def crowd {ι : Type} (w : World) (q : σ) (p : ι → M α) : Crowd α σ ι where
  world := w
  thread i := { prog := some (p i), loc := [], seen := q }

/-- Before its commit a transaction leaves the world as it is. -/
theorem exec_db_world {o : Mvcc.Op Row (List Uuid) Guc} (h : o ≠ .commit) (w : World)
    (txs : List Tx) : (exec env (.db o) (w, txs)).2.1 = w := by
  cases o with
  | commit => exact absurd rfl h
  | _ => cases txs <;> rfl

/-- What a request does in any company that keeps `G`. -/
abbrev Does (env : Env) (note : Note σ) (G : σ → World → Prop) (allow : σ → List Tx → Op → Prop)
    (Q : σ → List Tx → α → Prop) (E : σ → List Tx → Err → Prop) (q : σ) (l : List Tx)
    (p : M α) : Prop :=
  Follows (machine env note) G allow Q E q l p

namespace Does

variable {note : Note σ} {G : σ → World → Prop} {allow : σ → List Tx → Op → Prop}
  {Q : σ → List Tx → α → Prop} {E : σ → List Tx → Err → Prop} {q : σ} {l : List Tx}

/-- One operation, in any world that the others may leave. -/
theorem op {o : Op} {f : o.Ans → M α} (ha : allow q l o)
    (h : ∀ w a w' l', G q w → exec env o (w, l) = (a, (w', l')) →
      Does env note G allow Q E (note q l o a) l' (f a)) :
    Does env note G allow Q E q l (perform o >>= f) :=
  ⟨ha, fun w hw => h w _ _ _ hw rfl⟩

/-- The operations by which a unit of work starts are allowed and leave the record. -/
structure Starts (note : Note σ) (allow : σ → List Tx → Op → Prop) (q : σ) : Prop where
  begin : ∀ l, allow q l (.db .begin) ∧ ∀ a, note q l (.db .begin) a = q
  now : ∀ l, allow q l .now ∧ ∀ a, note q l .now a = q
  set : ∀ l f, allow q l (.db (.set f)) ∧ ∀ a, note q l (.db (.set f)) a = q

theorem beginSession {f : Session → M α} (hs : Starts note allow q)
    (h : ∀ t, Does env note G allow Q E q (⟨{}, [], []⟩ :: l) (f ⟨t⟩)) :
    Does env note G allow Q E q l (beginSession >>= f) := by
  refine ⟨(hs.begin l).1, fun w hw => ?_⟩
  show Follows _ _ _ _ _ (note q l (.db .begin) ()) _ _
  rw [(hs.begin l).2]
  refine ⟨(hs.now _).1, fun w hw => ?_⟩
  show Follows _ _ _ _ _ (note q _ .now _) _ _
  rw [(hs.now _).2]
  exact h _

theorem bindRls {tenantId : Option Uuid} {bypass : Bool} {f : Unit → M α}
    (hs : Starts note allow q)
    (h : Does env note G allow Q E q (boundTx env tenantId bypass :: l) (f ())) :
    Does env note G allow Q E q (⟨{}, [], []⟩ :: l) (bindRls env tenantId bypass >>= f) := by
  unfold LmsBackend.bindRls
  unfold boundTx at h
  by_cases hrls : env.settings.enableRowLevelSecurity = true
  · rw [if_pos hrls] at h ⊢
    refine ⟨(hs.set _ _).1, fun w hw => ?_⟩
    show Follows _ _ _ _ _ (note q _ (.db (.set _)) ()) _ _
    rw [(hs.set _ _).2]
    cases tenantId with
    | none => exact h
    | some tid =>
      refine ⟨(hs.set _ _).1, fun w hw => ?_⟩
      show Follows _ _ _ _ _ (note q _ (.db (.set _)) ()) _ _
      rw [(hs.set _ _).2]
      exact h
  · rw [if_neg hrls] at h ⊢
    exact h

/-- The end of `get_db`, and what follows it. -/
def closing (f : β → M α) : Except Err β → M α
  | .ok b => commitSession >>= fun _ => f b
  | .error e => sql .rollback >>= fun _ => .raise e

/-- A failing commit is raised. -/
def concluding (p : M α) : Except Err Unit → M α
  | .ok () => p
  | .error e => .raise e

/-- The end of `tenant_session`, and what follows it. -/
def closingTenant (f : β → M α) : Except Err β → M α
  | .ok b => commitSession >>= concluding (f b)
  | .error e => sql .rollback >>= fun _ => .raise e

/-- A request's unit of work: its body, then the commit or the rollback. -/
theorem getDb {rc : Option RequestContext} {body : Session → M β} {R : σ → List Tx → β → Prop}
    {F : σ → List Tx → Err → Prop} {f : β → M α} (hs : Starts note allow q)
    (hbody : ∀ s, Does env note G allow R F q
      (boundTx env (rc.bind (·.tenantId)) ((rc.map (·.isSuperadmin)).getD false) :: l) (body s))
    (hok : ∀ q l b, R q l b → Does env note G allow Q E q l (commitSession >>= fun _ => f b))
    (herr : ∀ q l e, F q l e → Does env note G allow Q E q l (sql .rollback >>= fun _ => .raise e)) :
    Does env note G allow Q E q l (getDb env rc body >>= f) := by
  have hassoc : LmsBackend.getDb env rc body >>= f = LmsBackend.beginSession >>= fun s =>
      Prog.attempt (LmsBackend.bindRls env (rc.bind (·.tenantId))
        ((rc.map (·.isSuperadmin)).getD false) >>= fun _ => body s) >>= closing f := by
    unfold LmsBackend.getDb
    refine (bind_assoc _ _ _).trans (bind_congr fun s => ?_)
    refine (bind_assoc _ _ _).trans (bind_congr fun r => ?_)
    cases r with
    | ok b => exact bind_assoc _ _ _
    | error e => rfl
  rw [hassoc]
  refine beginSession hs fun t => ?_
  have hattempt : Does env note G allow (Caught R F) E q (⟨{}, [], []⟩ :: l)
      (Prog.attempt (LmsBackend.bindRls env (rc.bind (·.tenantId))
        ((rc.map (·.isSuperadmin)).getD false) >>= fun _ => body ⟨t⟩)) :=
    Follows.attempt (bindRls hs (hbody ⟨t⟩))
  refine hattempt.bind fun q' l' r hr => ?_
  cases r with
  | ok b => exact hok q' l' b hr
  | error e => exact herr q' l' e hr

/-- A unit of work of its own: a failing commit is raised. -/
theorem tenantSession {tenantId : Option Uuid} {bypass : Bool} {body : Session → M β}
    {R : σ → List Tx → β → Prop} {F : σ → List Tx → Err → Prop} {f : β → M α}
    (hs : Starts note allow q)
    (hbody : ∀ s, Does env note G allow R F q (boundTx env tenantId bypass :: l) (body s))
    (hok : ∀ q l b, R q l b → Does env note G allow Q E q l (commitSession >>= concluding (f b)))
    (herr : ∀ q l e, F q l e → Does env note G allow Q E q l (sql .rollback >>= fun _ => .raise e)) :
    Does env note G allow Q E q l (tenantSession env tenantId bypass body >>= f) := by
  have hassoc : LmsBackend.tenantSession env tenantId bypass body >>= f =
      LmsBackend.beginSession >>= fun s =>
      Prog.attempt (LmsBackend.bindRls env tenantId bypass >>= fun _ => body s) >>=
        closingTenant f := by
    unfold LmsBackend.tenantSession
    refine (bind_assoc _ _ _).trans (bind_congr fun s => ?_)
    refine (bind_assoc _ _ _).trans (bind_congr fun r => ?_)
    cases r with
    | ok b =>
      refine (bind_assoc _ _ _).trans (bind_congr fun r => ?_)
      cases r with
      | ok u => rfl
      | error e => rfl
    | error e => rfl
  rw [hassoc]
  refine beginSession hs fun t => ?_
  have hattempt : Does env note G allow (Caught R F) E q (⟨{}, [], []⟩ :: l)
      (Prog.attempt (LmsBackend.bindRls env tenantId bypass >>= fun _ => body ⟨t⟩)) :=
    Follows.attempt (bindRls hs (hbody ⟨t⟩))
  refine hattempt.bind fun q' l' r hr => ?_
  cases r with
  | ok b => exact hok q' l' b hr
  | error e => exact herr q' l' e hr

/-- A commit with no row waiting. -/
theorem commitSession_nil {tx : Tx} {f : Except Err Unit → M α} (hp : tx.pending = [])
    (htake : allow q (tx :: l) (.db .takePending) ∧ ∀ a, note q (tx :: l) (.db .takePending) a = q)
    (hcommit : allow q (tx :: l) (.db .commit))
    (h : Does env note G allow Q E (note q (tx :: l) (.db .commit) ()) l (f (.ok ()))) :
    Does env note G allow Q E q (tx :: l) (commitSession >>= f) := by
  obtain ⟨guc, writes, pending⟩ := tx
  cases hp
  refine ⟨htake.1, fun w hw => ?_⟩
  show Follows _ _ _ _ _ (note q _ (.db .takePending) _) _ _
  rw [htake.2]
  exact ⟨hcommit, fun w' hw' => h⟩

/-- A rollback, after which the exception goes on. -/
theorem rollback {tx : Tx} {e : Err} (ha : allow q (tx :: l) (.db .rollback))
    (h : E (note q (tx :: l) (.db .rollback) ()) l e) :
    Does env note G allow Q E q (tx :: l) (sql .rollback >>= fun _ => .raise e) :=
  ⟨ha, fun _ _ => h⟩

/-- A flush with no row waiting. -/
theorem flush_nil {tx : Tx} {f : Unit → M α} (hp : tx.pending = [])
    (htake : allow q (tx :: l) (.db .takePending) ∧ ∀ a, note q (tx :: l) (.db .takePending) a = q)
    (h : Does env note G allow Q E q (tx :: l) (f ())) :
    Does env note G allow Q E q (tx :: l) (flush >>= f) := by
  obtain ⟨guc, writes, pending⟩ := tx
  cases hp
  refine ⟨htake.1, fun w hw => ?_⟩
  show Follows _ _ _ _ _ (note q _ (.db .takePending) _) _ _
  rw [htake.2]
  exact h

/-- One row is inserted, or refused. -/
theorem insertRow {tx : Tx} {x : AnyRow Row} {f : Unit → M α}
    (ha : allow q (tx :: l) (.db (.insert x.1 x.2)))
    (hok : ∀ w, G q w → insertError schema w.db tx x.1 (schema.coerce x.1 x.2) = none →
      Does env note G allow Q E (note q (tx :: l) (.db (.insert x.1 x.2)) (.ok 1))
        (tx.push (inserting x) :: l) (f ()))
    (herr : ∀ w e, G q w → insertError schema w.db tx x.1 (schema.coerce x.1 x.2) = some e →
      E (note q (tx :: l) (.db (.insert x.1 x.2)) (.error e)) (tx :: l) (.db e)) :
    Does env note G allow Q E q (tx :: l) (insertRow x >>= f) := by
  have hassoc : LmsBackend.insertRow x >>= f = perform (.db (.insert x.1 x.2)) >>= fun r =>
      match r with
      | .ok _ => f ()
      | .error e => .raise (.db e) := by
    unfold LmsBackend.insertRow
    rw [bind_assoc]
    refine bind_congr fun r => ?_
    cases r with
    | ok n => rfl
    | error e => rfl
  rw [hassoc]
  refine op ha fun w r w' l' hw hexec => ?_
  cases hins : insertError schema w.db tx x.1 (schema.coerce x.1 x.2) with
  | some e =>
    simp only [exec, Mvcc.exec, execTx, hins] at hexec
    cases hexec
    exact herr w e hw hins
  | none =>
    simp only [exec, Mvcc.exec, execTx, hins] at hexec
    cases hexec
    exact hok w hw hins

/-- A flush inserts the rows that wait, one after the other. -/
theorem flush_rows {tx : Tx} {rows : List (AnyRow Row)} {f : Unit → M α} (hp : tx.pending = rows)
    (htake : allow q (tx :: l) (.db .takePending) ∧ ∀ a, note q (tx :: l) (.db .takePending) a = q)
    (h : Does env note G allow Q E q ({ tx with pending := [] } :: l)
      (Prog.forEach rows LmsBackend.insertRow >>= f)) :
    Does env note G allow Q E q (tx :: l) (flush >>= f) := by
  have hassoc : flush >>= f = perform (.db .takePending) >>= fun rows =>
      Prog.forEach rows LmsBackend.insertRow >>= f := by
    unfold flush
    rw [bind_assoc]
    rfl
  rw [hassoc]
  refine op htake.1 fun w r w' l' hw hexec => ?_
  cases hexec
  rw [htake.2]
  subst hp
  exact h

/-- A flush of one row. -/
theorem flush_one {tx : Tx} {x : AnyRow Row} {f : Unit → M α} (hp : tx.pending = [x])
    (htake : allow q (tx :: l) (.db .takePending) ∧ ∀ a, note q (tx :: l) (.db .takePending) a = q)
    (ha : allow q ({ tx with pending := [] } :: l) (.db (.insert x.1 x.2)))
    (hok : ∀ w, G q w →
      insertError schema w.db { tx with pending := [] } x.1 (schema.coerce x.1 x.2) = none →
      Does env note G allow Q E
        (note q ({ tx with pending := [] } :: l) (.db (.insert x.1 x.2)) (.ok 1))
        (({ tx with pending := [] } : Tx).push (inserting x) :: l) (f ()))
    (herr : ∀ w e, G q w →
      insertError schema w.db { tx with pending := [] } x.1 (schema.coerce x.1 x.2) = some e →
      E (note q ({ tx with pending := [] } :: l) (.db (.insert x.1 x.2)) (.error e))
        ({ tx with pending := [] } :: l) (.db e)) :
    Does env note G allow Q E q (tx :: l) (flush >>= f) := by
  have hone : (Prog.forEach [x] LmsBackend.insertRow >>= f : M α) =
      LmsBackend.insertRow x >>= f := by
    show (Prog.bind (LmsBackend.insertRow x) fun _ => .ret ()).bind f = _
    rw [Prog.bind_assoc]
    rfl
  refine flush_rows hp htake ?_
  rw [hone]
  exact insertRow ha hok herr

/-- The `UPDATE` of a changed object: the row is found and written, or the flush raises. -/
theorem updateRow {tx : Tx} {s : Session} {t : Table} {id : Uuid} {g : Row t → Row t}
    {f : Unit → M α}
    (ha : allow q (tx :: l) (.db (.update t [id] (fun _ => true) fun r => touch s.startedAt t (g r))))
    (hok : ∀ w old, G q w → target schema w.db tx t [id] (fun _ => true) = some old →
      updateError schema w.db tx t old (schema.coerce t (touch s.startedAt t (g old))) = none →
      Does env note G allow Q E
        (note q (tx :: l) (.db (.update t [id] (fun _ => true) fun r => touch s.startedAt t (g r)))
          (.ok 1))
        (tx.push (.update t [id] (schema.coerce t (touch s.startedAt t (g old)))) :: l) (f ()))
    (herr : ∀ w a e, G q w →
      (∀ old, target schema w.db tx t [id] (fun _ => true) = some old →
        updateError schema w.db tx t old (schema.coerce t (touch s.startedAt t (g old))) ≠ none) →
      E (note q (tx :: l)
        (.db (.update t [id] (fun _ => true) fun r => touch s.startedAt t (g r))) a) (tx :: l) e) :
    Does env note G allow Q E q (tx :: l) (updateRow s t id g >>= f) := by
  have hassoc : LmsBackend.updateRow s t id g >>= f =
      perform (.db (.update t [id] (fun _ => true) fun r => touch s.startedAt t (g r))) >>= fun r =>
      match r with
      | .ok 0 => .raise (.unhandled .staleData)
      | .ok _ => f ()
      | .error e => .raise (.db e) := by
    unfold LmsBackend.updateRow
    rw [bind_assoc]
    refine bind_congr fun r => ?_
    match r with
    | .ok 0 => rfl
    | .ok (n + 1) => rfl
    | .error e => rfl
  rw [hassoc]
  refine op ha fun w r w' l' hw hexec => ?_
  cases htarget : target schema w.db tx t [id] fun _ => true with
  | none =>
    simp only [exec, Mvcc.exec, execTx, htarget] at hexec
    cases hexec
    exact herr w (.ok 0) _ hw fun old hold => by rw [htarget] at hold; cases hold
  | some old =>
    cases herror : updateError schema w.db tx t old
        (schema.coerce t (touch s.startedAt t (g old))) with
    | some e =>
      simp only [exec, Mvcc.exec, execTx, htarget, herror] at hexec
      cases hexec
      refine herr w (.error e) _ hw fun old' hold => ?_
      rw [htarget] at hold
      cases hold
      rw [herror]
      exact Option.some_ne_none e
    | none =>
      simp only [exec, Mvcc.exec, execTx, htarget, herror] at hexec
      cases hexec
      exact hok w old hw htarget herror

/-! ## Reading -/

/-- Queries, clock readings and draws are allowed and leave the record. -/
structure Reads (note : Note σ) (allow : σ → List Tx → Op → Prop) (q : σ) : Prop where
  select : ∀ l t p, allow q l (.db (.select t p)) ∧ ∀ a, note q l (.db (.select t p)) a = q
  join : ∀ l t₁ t₂ p, allow q l (.db (.join t₁ t₂ p)) ∧ ∀ a, note q l (.db (.join t₁ t₂ p)) a = q

/-- A query, whatever rows it finds. -/
theorem query {t : Table} {p : Row t → Bool} {f : List (Row t) → M α} (hr : Reads note allow q)
    (h : ∀ rows, Does env note G allow Q E q l (f rows)) :
    Does env note G allow Q E q l (query t p >>= f) := by
  refine op (hr.select _ _ _).1 fun w rows w' l' _ hexec => ?_
  have hloc : l = l' := by
    cases l <;> exact congrArg (fun x => x.2.2) hexec
  rw [← hloc, (hr.select _ _ _).2]
  exact h rows

theorem join {t₁ t₂ : Table} {p : Row t₁ → Row t₂ → Bool} {f : List (Row t₁ × Row t₂) → M α}
    (hr : Reads note allow q) (h : ∀ rows, Does env note G allow Q E q l (f rows)) :
    Does env note G allow Q E q l (sql (.join t₁ t₂ p) >>= f) := by
  refine op (hr.join _ _ _ _).1 fun w rows w' l' _ hexec => ?_
  have hloc : l = l' := by
    cases l <;> exact congrArg (fun x => x.2.2) hexec
  rw [← hloc, (hr.join _ _ _ _).2]
  exact h rows

/-- The one row of a query, if it has at most one. -/
theorem scalarOneOrNone {rows : List β} {f : Option β → M α}
    (hmany : E q l (.unhandled .multipleResultsFound))
    (h : ∀ r, r = none ∨ (∃ b, r = some b ∧ rows = [b]) → Does env note G allow Q E q l (f r)) :
    Does env note G allow Q E q l (scalarOneOrNone rows >>= f) := by
  match rows with
  | [] => exact h none (.inl rfl)
  | [b] => exact h (some b) (.inr ⟨b, rfl, rfl⟩)
  | _ :: _ :: _ => exact hmany

end Does

end LmsBackend
