import LmsBackend.Lib.Prog

/-!
# Tables, transactions and row-level security

A relational store in which transactions run at READ COMMITTED: a statement
sees the rows committed when it starts, overlaid with the writes of its own
transaction, and of those only the rows that the row-level security policy
admits under the transaction's settings.

- `Database Row`: the committed rows of every table.
- `Tx`: an open transaction, that is its settings, its writes so far and the
  unit of work (`pending`) that its next flush inserts.
- `exec S o (db, txs)`: one statement of the innermost open transaction.
  Sessions nest: a unit of work may open another transaction of its own and
  finish it before it goes on.
- `touched S o db tx`: the rows a statement returns, inserts, updates or deletes.
  `touched_policy`: all of them are admitted by the policy.
- `blocked S o db tx others`: the statement has to wait for a row lock, or for a
  uniqueness conflict with an uncommitted row, of one of `others`.
-/

namespace Mvcc

variable {Table : Type} {Row : Table → Type} {Key Guc Err : Type}

/-- The committed rows of every table. -/
abbrev Database (Row : Table → Type) : Type := (t : Table) → List (Row t)

/-- A row together with its table. -/
abbrev AnyRow (Row : Table → Type) : Type := (t : Table) × Row t

/-- What a database fixes besides its rows: keys, policies and constraints. -/
structure Schema (Row : Table → Type) (Key Guc Err : Type) where
  /-- the primary key of a row -/
  key : (t : Table) → Row t → Key
  /-- the settings of a fresh transaction -/
  guc₀ : Guc
  /-- row-level security, used both for rows read and for rows written -/
  policy : Guc → (t : Table) → Row t → Bool
  /-- the value a column stores for the value it is given (rounding) -/
  coerce : (t : Table) → Row t → Row t
  /-- the constraint that inserting a row into these tables violates, if any -/
  checkInsert : Database Row → (t : Table) → Row t → Option Err
  /-- the constraint that replacing the first row by the second violates, if any -/
  checkUpdate : Database Row → (t : Table) → Row t → Row t → Option Err
  /-- a written row is not admitted by the policy -/
  policyError : Err
  /-- a statement outside a transaction -/
  noTransaction : Err

/-- One physical write of a transaction. -/
inductive Write (Row : Table → Type) (Key : Type)
  | insert (t : Table) (r : Row t)
  | update (t : Table) (k : Key) (r : Row t)
  | delete (t : Table) (k : Key)

/-- An open transaction. -/
structure Tx (Row : Table → Type) (Key Guc : Type) where
  guc : Guc
  writes : List (Write Row Key)
  pending : List (AnyRow Row)

/-- The statements of a session. -/
inductive Op (Row : Table → Type) (Key Guc : Type)
  | begin
  | set (f : Guc → Guc)
  | select (t : Table) (p : Database Row → Row t → Bool)
  | join (t₁ t₂ : Table) (p : Row t₁ → Row t₂ → Bool)
  | insert (t : Table) (r : Row t)
  | update (t : Table) (k : Key) (p : Row t → Bool) (f : Row t → Row t)
  | delete (t : Table) (k : Key)
  | add (t : Table) (r : Row t)
  | takePending
  | commit
  | rollback

/-- What a statement answers: rows, a row count or an error, or nothing. -/
@[reducible] def Op.Ans (Err : Type) : Op Row Key Guc → Type
  | .select t _ => List (Row t)
  | .join t₁ t₂ _ => List (Row t₁ × Row t₂)
  | .insert _ _ => Except Err Nat
  | .update _ _ _ _ => Except Err Nat
  | .delete _ _ => Except Err Nat
  | .takePending => List (AnyRow Row)
  | .begin => Unit
  | .set _ => Unit
  | .add _ _ => Unit
  | .commit => Unit
  | .rollback => Unit

variable [DecidableEq Table] [DecidableEq Key]

/-- Carry out one write. -/
def Write.apply (S : Schema Row Key Guc Err) (db : Database Row) : Write Row Key → Database Row
  | .insert t r => Function.update db t (db t ++ [r])
  | .update t k r => Function.update db t ((db t).map fun r' => if S.key t r' = k then r else r')
  | .delete t k => Function.update db t ((db t).filter fun r' => S.key t r' ≠ k)

/-- The rows a statement of `tx` may see or conflict with, policies aside. -/
def view (S : Schema Row Key Guc Err) (db : Database Row) (tx : Tx Row Key Guc) : Database Row :=
  tx.writes.foldl (Write.apply S) db

/-- The table of a write. -/
def Write.table : Write Row Key → Table
  | .insert t _ => t
  | .update t _ _ => t
  | .delete t _ => t

/-- The transaction after one more write. -/
def Tx.push (tx : Tx Row Key Guc) (w : Write Row Key) : Tx Row Key Guc :=
  { tx with writes := tx.writes ++ [w] }

@[simp] theorem Tx.push_guc (tx : Tx Row Key Guc) (w : Write Row Key) :
    (tx.push w).guc = tx.guc := rfl

@[simp] theorem Tx.push_writes (tx : Tx Row Key Guc) (w : Write Row Key) :
    (tx.push w).writes = tx.writes ++ [w] := rfl

@[simp] theorem Tx.push_pending (tx : Tx Row Key Guc) (w : Write Row Key) :
    (tx.push w).pending = tx.pending := rfl

/-- The rows of the view that the policy admits. -/
def visible (S : Schema Row Key Guc Err) (db : Database Row) (tx : Tx Row Key Guc) :
    Database Row :=
  fun t => (view S db tx t).filter (S.policy tx.guc t)

/-- The row an `UPDATE` or `DELETE` by key finds. -/
def target (S : Schema Row Key Guc Err) (db : Database Row) (tx : Tx Row Key Guc) (t : Table)
    (k : Key) (p : Row t → Bool) : Option (Row t) :=
  (visible S db tx t).find? fun r => decide (S.key t r = k) && p r

/-- Why a new row is refused, if it is. -/
def insertError (S : Schema Row Key Guc Err) (db : Database Row) (tx : Tx Row Key Guc) (t : Table)
    (r : Row t) : Option Err :=
  if S.policy tx.guc t r then S.checkInsert (view S db tx) t r else some S.policyError

/-- Why a new version of a row is refused, if it is. -/
def updateError (S : Schema Row Key Guc Err) (db : Database Row) (tx : Tx Row Key Guc) (t : Table)
    (old new : Row t) : Option Err :=
  if S.policy tx.guc t new then S.checkUpdate (view S db tx) t old new else some S.policyError

/-- A transaction without writes sees the committed rows. -/
theorem view_nil (S : Schema Row Key Guc Err) (db : Database Row) {tx : Tx Row Key Guc}
    (h : tx.writes = []) : view S db tx = db := by
  rw [view, h]
  rfl

theorem view_push (S : Schema Row Key Guc Err) (db : Database Row) (tx : Tx Row Key Guc)
    (w : Write Row Key) : view S db (tx.push w) = w.apply S (view S db tx) := by
  rw [view, Tx.push_writes, List.foldl_append]
  rfl

@[simp] theorem Write.apply_insert {S : Schema Row Key Guc Err} {db : Database Row} {t : Table}
    {r : Row t} : Write.apply S db (.insert t r) t = db t ++ [r] := Function.update_self _ _ _

@[simp] theorem Write.apply_update {S : Schema Row Key Guc Err} {db : Database Row} {t : Table}
    {k : Key} {r : Row t} : Write.apply S db (.update t k r) t =
      (db t).map fun r' => if S.key t r' = k then r else r' := Function.update_self _ _ _

@[simp] theorem Write.apply_delete {S : Schema Row Key Guc Err} {db : Database Row} {t : Table}
    {k : Key} : Write.apply S db (.delete t k) t = (db t).filter fun r' => S.key t r' ≠ k :=
  Function.update_self _ _ _

/-- A write changes its own table only. -/
theorem Write.apply_other {S : Schema Row Key Guc Err} {w : Write Row Key} {db : Database Row}
    {t : Table} (h : w.table ≠ t) : w.apply S db t = db t := by
  cases w with
  | insert t' r => exact Function.update_of_ne (Ne.symm h) _ _
  | update t' k r => exact Function.update_of_ne (Ne.symm h) _ _
  | delete t' k => exact Function.update_of_ne (Ne.symm h) _ _

/-- Writes to other tables leave a table alone. -/
theorem foldl_apply_other {S : Schema Row Key Guc Err} {ws : List (Write Row Key)}
    {db : Database Row} {t : Table} (h : ∀ w ∈ ws, w.table ≠ t) :
    ws.foldl (Write.apply S) db t = db t := by
  induction ws generalizing db with
  | nil => rfl
  | cons w ws ih =>
    rw [List.foldl_cons, ih fun w' hw' => h w' (List.mem_cons_of_mem w hw')]
    exact Write.apply_other (h w List.mem_cons_self)

/-- A write's effect on a table depends on that table only. -/
theorem Write.apply_congr {S : Schema Row Key Guc Err} (w : Write Row Key) {db db' : Database Row}
    {t : Table} (h : db t = db' t) : w.apply S db t = w.apply S db' t := by
  by_cases ht : w.table = t
  · subst ht
    cases w with
    | insert t r =>
      simp only [Write.apply, Write.table, Function.update_self] at h ⊢
      rw [h]
    | update t k r =>
      simp only [Write.apply, Write.table, Function.update_self] at h ⊢
      rw [h]
    | delete t k =>
      simp only [Write.apply, Write.table, Function.update_self] at h ⊢
      rw [h]
  · rw [Write.apply_other ht, Write.apply_other ht, h]

/-- What a transaction sees of a table depends on the committed rows of that table. -/
theorem foldl_apply_congr {S : Schema Row Key Guc Err} {ws : List (Write Row Key)}
    {db db' : Database Row} {t : Table} (h : db t = db' t) :
    ws.foldl (Write.apply S) db t = ws.foldl (Write.apply S) db' t := by
  induction ws generalizing db db' with
  | nil => exact h
  | cons w ws ih => exact ih (Write.apply_congr w h)

/-- Rows are only added by writes that insert. -/
theorem mem_foldl_insert {S : Schema Row Key Guc Err} {ws : List (Write Row Key)}
    {db : Database Row} {t : Table} {r : Row t}
    (hws : ∀ w ∈ ws, w.table = t → ∃ r', w = .insert t r') (h : r ∈ db t ∨ .insert t r ∈ ws) :
    r ∈ ws.foldl (Write.apply S) db t := by
  induction ws generalizing db with
  | nil => exact h.resolve_right (List.not_mem_nil)
  | cons w ws ih =>
    refine ih (fun w' hw' => hws w' (List.mem_cons_of_mem w hw')) ?_
    rcases h with h | h
    · left
      by_cases ht : w.table = t
      · obtain ⟨r', rfl⟩ := hws w List.mem_cons_self ht
        rw [Write.apply_insert]
        exact List.mem_append_left _ h
      · rwa [Write.apply_other ht]
    · rcases List.mem_cons.mp h with rfl | h
      · left
        rw [Write.apply_insert]
        exact List.mem_append_right _ List.mem_cons_self
      · exact .inr h

/-- One statement inside a transaction. -/
def execTx (S : Schema Row Key Guc Err) (db : Database Row) (tx : Tx Row Key Guc) :
    (o : Op Row Key Guc) → o.Ans Err × Tx Row Key Guc
  | .select t p => ((visible S db tx t).filter (p (visible S db tx)), tx)
  | .join t₁ t₂ p =>
    ((visible S db tx t₁).flatMap fun a => ((visible S db tx t₂).filter (p a)).map (a, ·), tx)
  | .insert t r =>
    match insertError S db tx t (S.coerce t r) with
    | some e => (.error e, tx)
    | none => (.ok 1, { tx with writes := tx.writes ++ [.insert t (S.coerce t r)] })
  | .update t k p f =>
    match target S db tx t k p with
    | none => (.ok 0, tx)
    | some old =>
      match updateError S db tx t old (S.coerce t (f old)) with
      | some e => (.error e, tx)
      | none => (.ok 1, { tx with writes := tx.writes ++ [.update t k (S.coerce t (f old))] })
  | .delete t k =>
    match target S db tx t k fun _ => true with
    | none => (.ok 0, tx)
    | some _ => (.ok 1, { tx with writes := tx.writes ++ [.delete t k] })
  | .takePending => (tx.pending, { tx with pending := [] })
  | .set f => ((), { tx with guc := f tx.guc })
  | .add t r => ((), { tx with pending := tx.pending ++ [⟨t, r⟩] })
  | .begin => ((), tx)
  | .commit => ((), tx)
  | .rollback => ((), tx)

/-- The answer of a statement issued outside a transaction. -/
def noTx (S : Schema Row Key Guc Err) : (o : Op Row Key Guc) → o.Ans Err
  | .select _ _ => []
  | .join _ _ _ => []
  | .insert _ _ => .error S.noTransaction
  | .update _ _ _ _ => .error S.noTransaction
  | .delete _ _ => .error S.noTransaction
  | .takePending => []
  | .begin => ()
  | .set _ => ()
  | .add _ _ => ()
  | .commit => ()
  | .rollback => ()

/-- One statement of the innermost open transaction. -/
def exec (S : Schema Row Key Guc Err) (o : Op Row Key Guc)
    (s : Database Row × List (Tx Row Key Guc)) :
    o.Ans Err × (Database Row × List (Tx Row Key Guc)) :=
  match o, s with
  | .begin, (db, txs) => ((), db, ⟨S.guc₀, [], []⟩ :: txs)
  | .commit, (db, tx :: txs) => ((), view S db tx, txs)
  | .rollback, (db, _ :: txs) => ((), db, txs)
  | o, (db, tx :: txs) => ((execTx S db tx o).1, db, (execTx S db tx o).2 :: txs)
  | o, (db, []) => (noTx S o, db, [])

/-! ## The rows a statement touches -/

/-- The rows a statement returns, inserts, updates (both versions) or deletes. -/
def touched (S : Schema Row Key Guc Err) (db : Database Row) (tx : Tx Row Key Guc) :
    Op Row Key Guc → List (AnyRow Row)
  | .select t p => ((visible S db tx t).filter (p (visible S db tx))).map fun r => ⟨t, r⟩
  | .join t₁ t₂ p =>
    ((visible S db tx t₁).flatMap fun a => ((visible S db tx t₂).filter (p a)).map (a, ·)).flatMap
      fun ab => [⟨t₁, ab.1⟩, ⟨t₂, ab.2⟩]
  | .insert t r =>
    match insertError S db tx t (S.coerce t r) with
    | some _ => []
    | none => [⟨t, S.coerce t r⟩]
  | .update t k p f =>
    match target S db tx t k p with
    | none => []
    | some old =>
      match updateError S db tx t old (S.coerce t (f old)) with
      | some _ => []
      | none => [⟨t, old⟩, ⟨t, S.coerce t (f old)⟩]
  | .delete t k => ((target S db tx t k fun _ => true).map fun r => ⟨t, r⟩).toList
  | _ => []

theorem mem_visible {S : Schema Row Key Guc Err} {db : Database Row}
    {tx : Tx Row Key Guc} {t : Table} {r : Row t} :
    r ∈ visible S db tx t ↔ r ∈ view S db tx t ∧ S.policy tx.guc t r = true :=
  List.mem_filter

theorem target_some {S : Schema Row Key Guc Err} {db : Database Row} {tx : Tx Row Key Guc}
    {t : Table} {k : Key} {p : Row t → Bool} {r : Row t} (h : target S db tx t k p = some r) :
    r ∈ view S db tx t ∧ S.policy tx.guc t r = true ∧ S.key t r = k ∧ p r = true := by
  have hmem := mem_visible.mp (List.mem_of_find?_eq_some h)
  have hkp := List.find?_some h
  rw [Bool.and_eq_true, decide_eq_true_iff] at hkp
  exact ⟨hmem.1, hmem.2, hkp.1, hkp.2⟩

theorem insertError_none {S : Schema Row Key Guc Err} {db : Database Row} {tx : Tx Row Key Guc}
    {t : Table} {r : Row t} (h : insertError S db tx t r = none) :
    S.policy tx.guc t r = true ∧ S.checkInsert (view S db tx) t r = none := by
  unfold insertError at h
  split at h
  · exact ⟨‹_›, h⟩
  · cases h

theorem updateError_none {S : Schema Row Key Guc Err} {db : Database Row} {tx : Tx Row Key Guc}
    {t : Table} {old new : Row t} (h : updateError S db tx t old new = none) :
    S.policy tx.guc t new = true ∧ S.checkUpdate (view S db tx) t old new = none := by
  unfold updateError at h
  split at h
  · exact ⟨‹_›, h⟩
  · cases h

/-- **Row-level security**: whatever the statement, the policy admits every row
it returns, inserts, updates or deletes. -/
theorem touched_policy (S : Schema Row Key Guc Err) (db : Database Row) (tx : Tx Row Key Guc)
    (o : Op Row Key Guc) : ∀ x ∈ touched S db tx o, S.policy tx.guc x.1 x.2 = true := by
  intro x hx
  cases o with
  | select t p =>
    obtain ⟨r, hr, rfl⟩ := List.mem_map.mp hx
    exact (mem_visible.mp (List.mem_filter.mp hr).1).2
  | join t₁ t₂ p =>
    obtain ⟨⟨a, b⟩, hab, hx⟩ := List.mem_flatMap.mp hx
    obtain ⟨a', ha, hb⟩ := List.mem_flatMap.mp hab
    obtain ⟨b', hb', heq⟩ := List.mem_map.mp hb
    cases heq
    rcases List.mem_cons.mp hx with rfl | hx
    · exact (mem_visible.mp ha).2
    · rw [List.mem_singleton.mp hx]
      exact (mem_visible.mp (List.mem_filter.mp hb').1).2
  | insert t r =>
    simp only [touched] at hx
    split at hx
    · cases hx
    · rename_i h
      rw [List.mem_singleton.mp hx]
      exact (insertError_none h).1
  | update t k p f =>
    simp only [touched] at hx
    split at hx
    · cases hx
    · rename_i old htarget
      split at hx
      · cases hx
      · rename_i h
        rcases List.mem_cons.mp hx with rfl | hx
        · exact (target_some htarget).2.1
        · rw [List.mem_singleton.mp hx]
          exact (updateError_none h).1
  | delete t k =>
    rw [touched, Option.mem_toList, Option.map_eq_some_iff] at hx
    obtain ⟨r, hr, rfl⟩ := hx
    exact (target_some hr).2.1
  | _ => cases hx

/-! ## Waiting for other transactions -/

/-- The transaction holds the lock of row `k` of `t`: it has written that row. -/
def Tx.locks (tx : Tx Row Key Guc) (t : Table) (k : Key) : Bool :=
  tx.writes.any fun
    | .insert _ _ => false
    | .update t' k' _ => decide (t' = t) && decide (k' = k)
    | .delete t' k' => decide (t' = t) && decide (k' = k)

/-- The statement waits: for the lock of the row it writes, or because its row
would conflict with an uncommitted row. -/
def blocked (S : Schema Row Key Guc Err) (db : Database Row) (tx : Tx Row Key Guc)
    (others : List (Tx Row Key Guc)) : Op Row Key Guc → Bool
  | .insert t r =>
    (insertError S db tx t (S.coerce t r)).isNone &&
      others.any fun tx' => (S.checkInsert (view S (view S db tx) tx') t (S.coerce t r)).isSome
  | .update t k p _ => (target S db tx t k p).isSome && others.any (·.locks t k)
  | .delete t k => (target S db tx t k fun _ => true).isSome && others.any (·.locks t k)
  | _ => false

end Mvcc
