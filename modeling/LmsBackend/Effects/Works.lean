import LmsBackend.Effects.Quiet

/-!
# What the application does inside its transaction

- `World.Logged`: of the committed rows only the audit log may have changed.
- `runM_publish`: publishing an event always returns, and at most logs.
- `Works W p`: `p` works in the innermost transaction. It adds writes to the
  tables `W` to it and publishes events; what others see stays as it is.
-/

namespace LmsBackend

open Mvcc

variable {env : Env} {α β : Type}

/-- The committed rows are the same, up to the audit log. -/
def World.Logged (w w' : World) : Prop := ∀ t, t ≠ .auditLogs → w'.db t = w.db t

theorem World.Logged.refl (w : World) : w.Logged w := fun _ _ => rfl

theorem World.Logged.trans {w w' w'' : World} (h : w.Logged w') (h' : w'.Logged w'') :
    w.Logged w'' := fun t ht => (h' t ht).trans (h t ht)

theorem World.Still.logged {w w' : World} (h : w.Still w') : w.Logged w' :=
  fun t _ => by rw [h.db]

/-! ## Publishing -/

/-- A commit changes the tables of its transaction only. -/
theorem committed_other {w : World} {tx : Tx} {t : Table} (hw : ∀ x ∈ tx.writes, x.table ≠ t)
    (hp : ∀ x ∈ tx.pending, x.1 ≠ t) : (committed w tx).db t = w.db t := by
  unfold committed
  rcases h : flushed w.db tx with ⟨r, tx'⟩
  cases r with
  | error e => rfl
  | ok u =>
    rw [flushed_ok h]
    refine foldl_apply_other fun x hx => ?_
    rcases List.mem_append.mp hx with hx | hx
    · exact hw x hx
    · obtain ⟨y, hy, rfl⟩ := List.mem_map.mp hx
      exact hp y hy

theorem committed_reset {w : World} {tx : Tx} : (committed w tx).resetStore = w.resetStore ∧
    (committed w tx).redis = w.redis := by
  unfold committed
  rcases flushed w.db tx with ⟨r, tx'⟩
  cases r with
  | ok u => exact ⟨rfl, rfl⟩
  | error e => exact ⟨rfl, rfl⟩

/-- The audit session writes one row of the log, or fails. -/
theorem runM_writeAudit (tenantId : Uuid) (userId : Option Uuid) (d : Descriptor) (w : World)
    (txs : List Tx) : ∃ r w', runM env (writeAudit env tenantId userId d) (w, txs) = (r, (w', txs)) ∧
      w.Logged w' ∧ w'.resetStore = w.resetStore ∧ w'.redis = w.redis := by
  let row : AuditLog :=
    { id := w.nextUuid, tenantId, userId, action := d.action, resource := d.resource,
      resourceId := d.resourceId, oldValues := none, newValues := d.newValues,
      ipAddress := none, createdAt := env.clock w.ticks }
  let w₁ : World := { w.tick with nextUuid := w.nextUuid + 1 }
  let tx : Tx := { boundTx env (some tenantId) false with pending := [⟨.auditLogs, row⟩] }
  have hlog : w.Logged (committed w₁ tx) := by
    intro t ht
    refine @committed_other w₁ tx t (fun x hx => (by cases hx)) fun x hx => ?_
    rw [List.mem_singleton.mp hx]
    exact Ne.symm ht
  have hreset := @committed_reset w₁ tx
  have hbody : runM env (do
      add .auditLogs
        { id := ← uuid4, tenantId, userId, action := d.action, resource := d.resource,
          resourceId := d.resourceId, oldValues := none, newValues := d.newValues,
          ipAddress := none, createdAt := env.clock w.ticks })
      (w.tick, boundTx env (some tenantId) false :: txs) = (.ok (), (w₁, tx :: txs)) := rfl
  exact ⟨_, _, runM_tenantSession_ok hbody, hlog, hreset⟩

/-- Publishing an event always returns. -/
theorem runM_publish (e : DomainEvent) (w : World) (txs : List Tx) :
    ∃ w', runM env (publish env e) (w, txs) = (.ok (), (w', txs)) ∧ w.Logged w' ∧
      w'.resetStore = w.resetStore ∧ w'.redis = w.redis := by
  obtain ⟨tenantId, userId, kind⟩ := e
  cases tenantId with
  | none => exact ⟨w, rfl, World.Logged.refl w, rfl, rfl⟩
  | some tid =>
    obtain ⟨r, w', hrun, hw'⟩ :=
      @runM_writeAudit env tid userId (DomainEvent.audit ⟨some tid, userId, kind⟩) w txs
    refine ⟨w', ?_, hw'⟩
    have hattempt : runM env (Prog.attempt (auditDomainEvent env ⟨some tid, userId, kind⟩) :
        M (Except Err Unit)) (w, txs) = (.ok r, (w', txs)) := by
      rw [runM, Prog.run_attempt]
      show (Except.ok (runM env (writeAudit env tid userId _) (w, txs)).1,
        (runM env (writeAudit env tid userId _) (w, txs)).2) = _
      rw [hrun]
    unfold publish
    rw [runM_bind_ok hattempt]
    rfl

theorem publish_ok {e : DomainEvent} {w : World} {txs : List Tx} {s' : State}
    (h : runM env (publish env e) (w, txs) = (.ok (), s')) :
    ∃ w', s' = (w', txs) ∧ w.Logged w' ∧ w.Older w' := by
  obtain ⟨w', hrun, hlog, -, -⟩ := @runM_publish env e w txs
  have holder := @runM_older env _ (publish env e) (w, txs)
  rw [hrun] at h holder
  cases h
  exact ⟨w', rfl, hlog, holder⟩

/-! ## Working in a transaction -/

/-- A state that work on the tables `W` leads to, in the innermost transaction. -/
structure Worked (W : List Table) (w : World) (tx : Tx) (txs : List Tx) (w' : World) (tx' : Tx)
    (s' : State) : Prop where
  state : s' = (w', tx' :: txs)
  logged : w.Logged w'
  guc : tx'.guc = tx.guc
  writes : ∃ ws, tx'.writes = tx.writes ++ ws ∧ ∀ x ∈ ws, x.table ∈ W
  pending : ∀ x ∈ tx'.pending, x.1 ∈ W

/-- The program works on the tables `W` of the innermost transaction. -/
structure Works (env : Env) (W : List Table) (p : M α) : Prop where
  run : ∀ w tx txs, (∀ x ∈ tx.pending, x.1 ∈ W) →
    ∃ w' tx', Worked W w tx txs w' tx' (runM env p (w, tx :: txs)).2

namespace Works

variable {W : List Table}

theorem of_quiet {p : M α} (h : Quiet env p) : Works env W p := by
  refine ⟨fun w tx txs hp => ?_⟩
  obtain ⟨w', hrun, hstill, -⟩ := h.run w (tx :: txs)
  refine ⟨w', tx, ?_, hstill.logged, rfl, ⟨[], by simp, fun x hx => (by cases hx)⟩, hp⟩
  rw [hrun]

theorem pure (a : α) : Works env W (Pure.pure a : M α) := of_quiet (Quiet.pure a)

theorem raise (e : Err) : Works env W (.raise e : M α) := of_quiet (Quiet.raise e)

theorem bind {p : M α} {f : α → M β} (hp : Works env W p) (hf : ∀ a, Works env W (f a)) :
    Works env W (p >>= f) := by
  refine ⟨fun w tx txs hpend => ?_⟩
  obtain ⟨w₁, tx₁, h₁⟩ := hp.run w tx txs hpend
  rw [runM_bind]
  rcases hrun : runM env p (w, tx :: txs) with ⟨r, s₁⟩
  rw [hrun] at h₁
  obtain ⟨rfl, hlog₁, hguc₁, ⟨ws₁, hws₁, hW₁⟩, hpend₁⟩ := h₁
  cases r with
  | error e => exact ⟨w₁, tx₁, rfl, hlog₁, hguc₁, ⟨ws₁, hws₁, hW₁⟩, hpend₁⟩
  | ok a =>
    obtain ⟨w₂, tx₂, h₂⟩ := (hf a).run w₁ tx₁ txs hpend₁
    obtain ⟨ws₂, hws₂, hW₂⟩ := h₂.writes
    refine ⟨w₂, tx₂, h₂.state, hlog₁.trans h₂.logged, h₂.guc.trans hguc₁, ⟨ws₁ ++ ws₂, ?_, ?_⟩,
      h₂.pending⟩
    · rw [hws₂, hws₁, List.append_assoc]
    · intro x hx
      rcases List.mem_append.mp hx with hx | hx
      · exact hW₁ x hx
      · exact hW₂ x hx

theorem forEach {as : List α} {f : α → M Unit} (h : ∀ a, Works env W (f a)) :
    Works env W (Prog.forEach as f) := by
  induction as with
  | nil => exact pure ()
  | cons a as ih => exact (h a).bind fun _ => ih

theorem push {w : World} {tx : Tx} {txs : List Tx} {x : Mvcc.Write Row (List Uuid)}
    (hx : x.table ∈ W) (hp : ∀ x ∈ tx.pending, x.1 ∈ W) :
    Worked W w tx txs w (tx.push x) (w, tx.push x :: txs) :=
  ⟨rfl, World.Logged.refl w, rfl, ⟨[x], rfl, fun y hy => by rw [List.mem_singleton.mp hy]; exact hx⟩,
    hp⟩

theorem same {w : World} {tx : Tx} {txs : List Tx} (hp : ∀ x ∈ tx.pending, x.1 ∈ W) :
    Worked W w tx txs w tx (w, tx :: txs) :=
  ⟨rfl, World.Logged.refl w, rfl, ⟨[], by simp, fun _ hx => (by cases hx)⟩, hp⟩

theorem add {t : Table} {r : Row t} (ht : t ∈ W) : Works env W (add t r) := by
  refine ⟨fun w tx txs hp => ⟨w, { tx with pending := tx.pending ++ [⟨t, r⟩] }, rfl,
    World.Logged.refl w, rfl, ⟨[], by simp, fun _ hx => (by cases hx)⟩, fun x hx => ?_⟩⟩
  rcases List.mem_append.mp hx with hx | hx
  · exact hp x hx
  · rw [List.mem_singleton.mp hx]
    exact ht

theorem insertRow {x : AnyRow Row} (hx : x.1 ∈ W) : Works env W (insertRow x) := by
  refine ⟨fun w tx txs hp => ?_⟩
  rw [runM_insertRow]
  cases insertError schema w.db tx x.1 (schema.coerce x.1 x.2) with
  | some e => exact ⟨w, tx, same hp⟩
  | none => exact ⟨w, _, push hx hp⟩

theorem insertAll_worked {w : World} {txs : List Tx} (xs : List (AnyRow Row)) :
    ∀ tx : Tx, (∀ x ∈ xs, x.1 ∈ W) → (∀ x ∈ tx.pending, x.1 ∈ W) →
      Worked W w tx txs w (insertAll w.db tx xs).2 (w, (insertAll w.db tx xs).2 :: txs) := by
  induction xs with
  | nil => exact fun tx _ hp => same hp
  | cons x xs ih =>
    intro tx hxs hp
    unfold insertAll
    cases insertError schema w.db tx x.1 (schema.coerce x.1 x.2) with
    | some e => exact same hp
    | none =>
      obtain ⟨-, hlog, hguc, ⟨ws, hws, hW⟩, hp'⟩ :=
        ih (tx.push (inserting x)) (fun y hy => hxs y (List.mem_cons_of_mem x hy)) hp
      refine ⟨rfl, hlog, hguc, ⟨inserting x :: ws, ?_, fun y hy => ?_⟩, hp'⟩
      · rw [hws, Tx.push_writes, List.append_assoc]
        rfl
      · rcases List.mem_cons.mp hy with rfl | hy
        · exact hxs x List.mem_cons_self
        · exact hW y hy

theorem flush : Works env W flush := by
  refine ⟨fun w tx txs hp => ⟨w, (flushed w.db tx).2, ?_⟩⟩
  rw [runM_flush]
  obtain ⟨-, hlog, hguc, hws, hp'⟩ := @insertAll_worked W w txs tx.pending
    { tx with pending := [] } hp (fun _ hx => (by cases hx))
  exact ⟨rfl, hlog, hguc, hws, hp'⟩

theorem updateRow {s : Session} {t : Table} {id : Uuid} {f : Row t → Row t} (ht : t ∈ W) :
    Works env W (updateRow s t id f) := by
  refine ⟨fun w tx txs hp => ?_⟩
  rw [runM_updateRow]
  cases target schema w.db tx t [id] fun _ => true with
  | none => exact ⟨w, tx, same hp⟩
  | some old =>
    dsimp only
    cases updateError schema w.db tx t old (schema.coerce t (touch s.startedAt t (f old))) with
    | some e => exact ⟨w, tx, same hp⟩
    | none => exact ⟨w, _, push ht hp⟩

/-- A bare `UPDATE`. -/
theorem sqlUpdate {t : Table} {k : List Uuid} {p : Row t → Bool} {f : Row t → Row t} (ht : t ∈ W) :
    Works env W (sql (.update t k p f)) := by
  refine ⟨fun w tx txs hp => ?_⟩
  have hsql : runM env (sql (.update t k p f)) (w, tx :: txs) =
      (.ok (execTx schema w.db tx (.update t k p f)).1,
        (w, (execTx schema w.db tx (.update t k p f)).2 :: txs)) := rfl
  rw [hsql]
  simp only [execTx]
  cases target schema w.db tx t k p with
  | none => exact ⟨w, tx, same hp⟩
  | some old =>
    dsimp only
    cases updateError schema w.db tx t old (schema.coerce t (f old)) with
    | some e => exact ⟨w, tx, same hp⟩
    | none => exact ⟨w, _, push ht hp⟩

/-- A bare `DELETE`. -/
theorem sqlDelete {t : Table} {k : List Uuid} (ht : t ∈ W) :
    Works env W (sql (.delete t k)) := by
  refine ⟨fun w tx txs hp => ?_⟩
  have hsql : runM env (sql (.delete t k)) (w, tx :: txs) =
      (.ok (execTx schema w.db tx (.delete t k)).1,
        (w, (execTx schema w.db tx (.delete t k)).2 :: txs)) := rfl
  rw [hsql]
  simp only [execTx]
  cases target schema w.db tx t k fun _ => true with
  | none => exact ⟨w, tx, same hp⟩
  | some old => exact ⟨w, _, push ht hp⟩

theorem publish {e : DomainEvent} : Works env W (publish env e) := by
  refine ⟨fun w tx txs hp => ?_⟩
  obtain ⟨w', hrun, hlog, -, -⟩ := @runM_publish env e w (tx :: txs)
  rw [hrun]
  exact ⟨w', tx, rfl, hlog, rfl, ⟨[], by simp, fun _ hx => (by cases hx)⟩, hp⟩

/-- An operation on the reset tokens. -/
theorem perform {o : Op} (h : match o with
    | .resetSet _ _ _ | .resetDelete _ | .redisSet _ _ _ | .redisDelete _ => True
    | _ => False) : Works env W (perform o) := by
  refine ⟨fun w tx txs hp => ?_⟩
  cases o with
  | resetSet token value expires =>
    exact ⟨_, tx, rfl, World.Logged.refl w, rfl, ⟨[], by simp, fun _ hx => (by cases hx)⟩, hp⟩
  | resetDelete token =>
    exact ⟨_, tx, rfl, World.Logged.refl w, rfl, ⟨[], by simp, fun _ hx => (by cases hx)⟩, hp⟩
  | redisSet k v ttl =>
    exact ⟨_, tx, rfl, World.Logged.refl w, rfl, ⟨[], by simp, fun _ hx => (by cases hx)⟩, hp⟩
  | redisDelete k =>
    exact ⟨_, tx, rfl, World.Logged.refl w, rfl, ⟨[], by simp, fun _ hx => (by cases hx)⟩, hp⟩
  | _ => exact h.elim

end Works

end LmsBackend
