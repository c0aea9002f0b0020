import LmsBackend.Concurrency.Threads
import LmsBackend.Core.Events

/-!
# The steps of the service methods

Rules for what the service methods are made of, in any company: the tenant of the
context, a query whose rows matter, `repo.add`, and `event_bus.publish`, which opens a
transaction of its own and swallows what goes wrong in it.
-/

namespace LmsBackend

open Mvcc Interleave

variable {env : Env} {σ α β : Type}

namespace Does

variable {note : Note σ} {G : σ → World → Prop} {allow : σ → List Tx → Op → Prop}
  {Q : σ → List Tx → α → Prop} {E : σ → List Tx → Err → Prop} {q : σ} {l : List Tx}

theorem requireTenantId {rc : RequestContext} {f : Uuid → M α}
    (hnone : rc.tenantId = none → ∀ message, E q l (.unhandled (.runtimeError message)))
    (h : ∀ tid, rc.tenantId = some tid → Does env note G allow Q E q l (f tid)) :
    Does env note G allow Q E q l (requireTenantId rc >>= f) := by
  unfold LmsBackend.requireTenantId
  cases htid : rc.tenantId with
  | none => exact hnone htid _
  | some tid => exact h tid htid

/-- A query, with the rows that the statement sees. -/
theorem select {tx : Tx} {t : Table} {p : Row t → Bool} {f : List (Row t) → M α}
    (ha : allow q (tx :: l) (.db (.select t fun _ => p)))
    (h : ∀ w, G q w → Does env note G allow Q E
      (note q (tx :: l) (.db (.select t fun _ => p)) ((visible schema w.db tx t).filter p))
      (tx :: l) (f ((visible schema w.db tx t).filter p))) :
    Does env note G allow Q E q (tx :: l) (LmsBackend.query t p >>= f) :=
  ⟨ha, fun w hw => h w hw⟩

/-- `repo.get_or_404`, with the row that the statement sees. -/
theorem repoGetOr404 {tx : Tx} {rc : RequestContext} {t : Table} {id : Uuid} {f : Row t → M α}
    (ha : allow q (tx :: l) (.db (.select t fun _ r => inScope rc t r && decide (keyOf t r = [id]))))
    (hok : ∀ w r, G q w → r ∈ visible schema w.db tx t → inScope rc t r = true → keyOf t r = [id] →
      Does env note G allow Q E
        (note q (tx :: l) (.db (.select t fun _ r => inScope rc t r && decide (keyOf t r = [id]))) [r])
        (tx :: l) (f r))
    (herr : ∀ w e, G q w →
      (∀ r, (visible schema w.db tx t).filter
        (fun r => inScope rc t r && decide (keyOf t r = [id])) ≠ [r]) →
      E (note q (tx :: l) (.db (.select t fun _ r => inScope rc t r && decide (keyOf t r = [id])))
        ((visible schema w.db tx t).filter fun r => inScope rc t r && decide (keyOf t r = [id])))
        (tx :: l) e) :
    Does env note G allow Q E q (tx :: l) (LmsBackend.repoGetOr404 rc t id >>= f) := by
  unfold LmsBackend.repoGetOr404 repoFind repoSelect
  simp only [bind_assoc]
  refine select ha fun w hw => ?_
  have hmem : ∀ r, (visible schema w.db tx t).filter
      (fun r => inScope rc t r && decide (keyOf t r = [id])) = [r] →
      r ∈ visible schema w.db tx t ∧ inScope rc t r = true ∧ keyOf t r = [id] := by
    intro r hr
    have hin := List.mem_filter.mp (hr ▸ List.mem_singleton_self r)
    rw [Bool.and_eq_true, decide_eq_true_iff] at hin
    exact hin
  have herr' := fun e h => herr w e hw h
  generalize hrows : (visible schema w.db tx t).filter
    (fun r => inScope rc t r && decide (keyOf t r = [id])) = rows at hmem herr'
  match rows with
  | [] => exact herr' _ (by rintro r ⟨⟩)
  | [r] =>
    obtain ⟨hvisible, hscope, hkey⟩ := hmem r rfl
    exact hok w r hw hvisible hscope hkey
  | _ :: _ :: _ => exact herr' _ (by rintro r ⟨⟩)

/-- `repo.add` of an object, with no other one waiting. -/
theorem repoAdd {tx : Tx} {t : Table} {r : Row t} {f : Unit → M α} (hp : tx.pending = [])
    (hadd : allow q (tx :: l) (.db (.add t r)) ∧ ∀ a, note q (tx :: l) (.db (.add t r)) a = q)
    (htake : ∀ l, allow q l (.db .takePending) ∧ ∀ a, note q l (.db .takePending) a = q)
    (ha : allow q (tx :: l) (.db (.insert t r)))
    (hok : ∀ w, G q w → insertError schema w.db tx t (schema.coerce t r) = none →
      Does env note G allow Q E (note q (tx :: l) (.db (.insert t r)) (.ok 1))
        (tx.push (inserting ⟨t, r⟩) :: l) (f ()))
    (herr : ∀ w e, G q w → insertError schema w.db tx t (schema.coerce t r) = some e →
      E (note q (tx :: l) (.db (.insert t r)) (.error e)) (tx :: l) (.db e)) :
    Does env note G allow Q E q (tx :: l) (LmsBackend.repoAdd t r >>= f) := by
  obtain ⟨guc, writes, pending⟩ := tx
  cases hp
  unfold LmsBackend.repoAdd LmsBackend.add LmsBackend.sql
  rw [bind_assoc]
  refine op hadd.1 fun w a w' l' hw hexec => ?_
  cases hexec
  rw [hadd.2]
  have hflush := @flush_one env σ α note G allow Q E q l ⟨guc, writes, [⟨t, r⟩]⟩ ⟨t, r⟩ f
    rfl (htake _) ha
  exact hflush hok herr

/-! ## Publishing -/

/-- The operations of the audit consumer are allowed in the transaction that it opens, and
leave the record. -/
structure Audits (note : Note σ) (allow : σ → List Tx → Op → Prop) (q : σ) (l : List Tx) :
    Prop where
  uuid4 : ∀ tx, allow q (tx :: l) .uuid4 ∧ ∀ a, note q (tx :: l) .uuid4 a = q
  add : ∀ tx r, allow q (tx :: l) (.db (.add .auditLogs r)) ∧
    ∀ a, note q (tx :: l) (.db (.add .auditLogs r)) a = q
  take : ∀ tx, allow q (tx :: l) (.db .takePending) ∧
    ∀ a, note q (tx :: l) (.db .takePending) a = q
  insert : ∀ tx r, allow q (tx :: l) (.db (.insert .auditLogs r)) ∧
    ∀ a, note q (tx :: l) (.db (.insert .auditLogs r)) a = q
  commit : ∀ tx : Tx, (∀ x ∈ tx.writes, x.table = .auditLogs) →
    allow q (tx :: l) (.db .commit) ∧ ∀ a, note q (tx :: l) (.db .commit) a = q
  rollback : ∀ tx : Tx, tx.writes = [] → allow q (tx :: l) (.db .rollback) ∧
    ∀ a, note q (tx :: l) (.db .rollback) a = q

/-- What `commitSession` does after its flush, and what follows it. -/
def sealing (f : Except Err Unit → M α) : Except Err Unit → M α
  | .ok () => sql .commit >>= fun _ => f (.ok ())
  | .error e => sql .rollback >>= fun _ => f (.error e)

/-- The commit of a transaction in which one row waits: the row is inserted and the
transaction committed, or it is refused and the transaction rolled back. -/
theorem commitSession_row {tx : Tx} {x : AnyRow Row} {f : Except Err Unit → M α}
    (hp : tx.pending = [x])
    (htake : allow q (tx :: l) (.db .takePending) ∧ ∀ a, note q (tx :: l) (.db .takePending) a = q)
    (ha : allow q ({ tx with pending := [] } :: l) (.db (.insert x.1 x.2)))
    (hok : ∀ w, G q w →
      insertError schema w.db { tx with pending := [] } x.1 (schema.coerce x.1 x.2) = none →
      Does env note G allow Q E
        (note q ({ tx with pending := [] } :: l) (.db (.insert x.1 x.2)) (.ok 1))
        (({ tx with pending := [] } : Tx).push (inserting x) :: l)
        (sql .commit >>= fun _ => f (.ok ())))
    (herr : ∀ w a e, G q w →
      insertError schema w.db { tx with pending := [] } x.1 (schema.coerce x.1 x.2) = some a →
      Does env note G allow Q E
        (note q ({ tx with pending := [] } :: l) (.db (.insert x.1 x.2)) (.error a))
        ({ tx with pending := [] } :: l) (sql .rollback >>= fun _ => f (.error e))) :
    Does env note G allow Q E q (tx :: l) (commitSession >>= f) := by
  have hassoc : commitSession >>= f = Prog.attempt flush >>= sealing f := by
    unfold commitSession
    rw [bind_assoc]
    refine bind_congr fun r => ?_
    cases r with
    | ok u => exact bind_assoc _ _ _
    | error e => exact bind_assoc _ _ _
  rw [hassoc]
  have hflush : Does env note G allow
      (fun q l _ => Does env note G allow Q E q l (sql .commit >>= fun _ => f (.ok ())))
      (fun q l e => Does env note G allow Q E q l (sql .rollback >>= fun _ => f (.error e)))
      q (tx :: l) flush := by
    rw [← bind_pure flush]
    exact flush_one hp htake ha hok fun w e hw hrefused => herr w e (.db e) hw hrefused
  refine (Follows.attempt hflush).bind fun q' l' r hr => ?_
  cases r with
  | ok u => exact hr
  | error e => exact hr

/-- The commit of one waiting row, whatever it is refused for. -/
theorem commitSession_one {tx : Tx} {x : AnyRow Row} {f : Except Err Unit → M α}
    (hp : tx.pending = [x])
    (htake : allow q (tx :: l) (.db .takePending) ∧ ∀ a, note q (tx :: l) (.db .takePending) a = q)
    (ha : allow q ({ tx with pending := [] } :: l) (.db (.insert x.1 x.2)))
    (hok : ∀ w, G q w →
      insertError schema w.db { tx with pending := [] } x.1 (schema.coerce x.1 x.2) = none →
      Does env note G allow Q E
        (note q ({ tx with pending := [] } :: l) (.db (.insert x.1 x.2)) (.ok 1))
        (({ tx with pending := [] } : Tx).push (inserting x) :: l)
        (sql .commit >>= fun _ => f (.ok ())))
    (herr : ∀ a e, Does env note G allow Q E
      (note q ({ tx with pending := [] } :: l) (.db (.insert x.1 x.2)) (.error a))
      ({ tx with pending := [] } :: l) (sql .rollback >>= fun _ => f (.error e))) :
    Does env note G allow Q E q (tx :: l) (commitSession >>= f) :=
  commitSession_row hp htake ha hok fun _ a e _ _ => herr a e

/-- Whatever becomes of the audit row, the publisher goes on where it was. -/
theorem publish {e : DomainEvent} {f : Unit → M α} (hs : Starts note allow q)
    (ha : Audits note allow q l) (h : Does env note G allow Q E q l (f ())) :
    Does env note G allow Q E q l (publish env e >>= f) := by
  unfold LmsBackend.publish
  rw [bind_assoc]
  have haudit : Does env note G allow (fun q' l' _ => q' = q ∧ l' = l)
      (fun q' l' _ => q' = q ∧ l' = l) q l (auditDomainEvent env e) := by
    unfold auditDomainEvent writeAudit
    cases e.tenantId with
    | none => exact ⟨rfl, rfl⟩
    | some tid =>
      show Does env note G allow _ _ q l (LmsBackend.tenantSession env (some tid) false _)
      rw [← bind_pure (LmsBackend.tenantSession _ _ _ _)]
      refine tenantSession (R := fun q' l' _ => q' = q ∧ ∃ tx : Tx, l' = tx :: l ∧
        tx.writes = [] ∧ ∃ r, tx.pending = [⟨.auditLogs, r⟩])
        (F := fun _ _ _ => False) hs ?_ ?_ fun _ _ _ h => h.elim
      · intro s
        refine op (ha.uuid4 _).1 fun w id w' l' _ hexec => ?_
        cases hexec
        rw [(ha.uuid4 _).2]
        refine ⟨(ha.add _ _).1, fun w _ => ?_⟩
        exact ⟨(ha.add _ _).2 (), _, rfl, rfl, _, rfl⟩
      · rintro q' l' - ⟨rfl, tx, rfl, hw, r, hp⟩
        refine commitSession_one hp (ha.take tx) (ha.insert _ r).1 (fun w _ _ => ?_) fun a e => ?_
        · rw [(ha.insert _ r).2]
          have haudit : ∀ x ∈ (({ tx with pending := [] } : Tx).push
              (inserting ⟨.auditLogs, r⟩)).writes, x.table = .auditLogs := by
            intro x hx
            rw [Tx.push_writes, hw, List.nil_append, List.mem_singleton] at hx
            rw [hx]
            rfl
          refine ⟨(ha.commit _ haudit).1, fun w _ => ?_⟩
          exact ⟨(ha.commit _ haudit).2 (), rfl⟩
        · rw [(ha.insert _ r).2]
          have hback := ha.rollback { tx with pending := [] } hw
          refine ⟨hback.1, fun w _ => ?_⟩
          exact ⟨hback.2 (), rfl⟩
  refine (Follows.attempt haudit).bind fun q' l' r hr => ?_
  cases r with
  | ok a =>
    obtain ⟨rfl, rfl⟩ := hr
    exact h
  | error e =>
    obtain ⟨rfl, rfl⟩ := hr
    exact h

end Does

end LmsBackend
