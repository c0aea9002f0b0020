import LmsBackend.Core.Platform
import LmsBackend.Effects.Exchanges
import LmsBackend.Effects.Reads
import LmsBackend.Lib.Hidden

/-!
# Working beside a tenant

Row-level security hides the rows of a tenant from the requests in other contexts, and what is
hidden is not written.

- `belongs B`: the rows of the tenant `B`, in all tables.
- `Avoids env B p`: `p` works in the innermost transaction, from which the rows of `B` are hidden,
  and leaves them alone.
- `Avoids.login` and others: so do the services, in another context than that of `B`.
-/

namespace LmsBackend

open Mvcc

variable {env : Env} {w w' w₀ : World} {req : Request} {rc : RequestContext} {s : Session}
  {tx : Tx} {txs : List Tx} {B : Uuid}

/-- The row belongs to the tenant. -/
def belongs (tenantId : Uuid) (t : Table) (r : Row t) : Bool :=
  decide (tenantOf t r = some tenantId)

/-- The rows of the tenant have keys of their own, as primary keys have. -/
abbrev OwnKeys (B : Uuid) (w : World) : Prop := KeysApart schema (belongs B) w.db

/-- The tables have primary keys. -/
theorem OwnKeys.of_nodup (h : ∀ t, ((w.db t).map (keyOf t)).Nodup) : OwnKeys B w := by
  intro t a ha b hb hkey
  obtain ⟨ha, hown⟩ := mem_hidden.mp ha
  rw [List.inj_on_of_nodup_map (h t) hb ha hkey]
  exact hown

/-- What a session in another context sees does not belong to the tenant. -/
theorem boundTx_hides (hrls : env.settings.enableRowLevelSecurity = true) {tenantId : Option Uuid}
    (hother : tenantId ≠ some B) (t : Table) (r : Row t)
    (h : schema.policy (boundTx env tenantId false).guc t r = true) : belongs B t r = false := by
  refine decide_eq_false fun htenant => ?_
  have ht : t ∈ rlsTables := (tenantOf_isSome_iff t r).mp (by rw [htenant]; rfl)
  rw [boundTx, if_pos hrls] at h
  obtain ⟨tid, hguc, htid⟩ := policy_tenant ht rfl h
  exact hother (hguc.trans (htid.symm.trans htenant))

/-! ## Working beside a tenant -/

/-- The program works in the innermost transaction and leaves the rows of the tenant alone. -/
structure Avoids {α : Type} (env : Env) (B : Uuid) (p : M α) : Prop where
  run : ∀ w tx txs, Secluded schema (belongs B) w.db tx →
    ∃ w' tx', (runM env p (w, tx :: txs)).2 = (w', tx' :: txs) ∧
      Secluded schema (belongs B) w'.db tx' ∧ hidden (belongs B) w'.db = hidden (belongs B) w.db

theorem keyOf_touch (now : Time) (t : Table) (r : Row t) : keyOf t (touch now t r) = keyOf t r := by
  cases t <;> rfl

theorem keyOf_coerce (t : Table) (r : Row t) : keyOf t (coerce t r) = keyOf t r := by
  cases t <;> rfl

/-- Inserts are checked for the primary key. -/
theorem checkInsert_fresh {t : Table} {r : Row t} (db : Database Row)
    (h : schema.checkInsert db t r = none) : ∀ r' ∈ db t, keyOf t r' ≠ keyOf t r :=
  fresh_key (checkInsert_eq_none.mp h).2.1

namespace Avoids

variable {α β : Type}

theorem of_quiet {p : M α} (h : Quiet env p) : Avoids env B p := by
  refine ⟨fun w tx txs hsec => ?_⟩
  obtain ⟨w', hrun, hstill, -⟩ := h.run w (tx :: txs)
  refine ⟨w', tx, congrArg Prod.snd hrun, ?_, ?_⟩
  · rw [hstill.db]
    exact hsec
  · rw [hstill.db]

theorem pure (a : α) : Avoids env B (Pure.pure a : M α) := of_quiet (Quiet.pure a)

theorem raise (e : Err) : Avoids env B (.raise e : M α) := of_quiet (Quiet.raise e)

theorem bind {p : M α} {f : α → M β} (hp : Avoids env B p) (hf : ∀ a, Avoids env B (f a)) :
    Avoids env B (p >>= f) := by
  refine ⟨fun w tx txs hsec => ?_⟩
  obtain ⟨w₁, tx₁, hstate, hsec₁, hsame₁⟩ := hp.run w tx txs hsec
  rw [runM_bind]
  rcases hrun : runM env p (w, tx :: txs) with ⟨r, s₁⟩
  rw [hrun] at hstate
  obtain rfl := hstate
  cases r with
  | error e => exact ⟨w₁, tx₁, rfl, hsec₁, hsame₁⟩
  | ok a =>
    obtain ⟨w₂, tx₂, hstate₂, hsec₂, hsame₂⟩ := (hf a).run w₁ tx₁ txs hsec₁
    exact ⟨w₂, tx₂, hstate₂, hsec₂, hsame₂.trans hsame₁⟩

theorem forEach {as : List α} {f : α → M Unit} (h : ∀ a, Avoids env B (f a)) :
    Avoids env B (Prog.forEach as f) := by
  induction as with
  | nil => exact pure ()
  | cons a as ih => exact (h a).bind fun _ => ih

theorem add {t : Table} {r : Row t} : Avoids env B (add t r) :=
  ⟨fun w _ _ hsec => ⟨w, _, rfl, ⟨hsec.hides, hsec.apart, hsec.spares⟩, rfl⟩⟩

/-! ### Statements -/

theorem insertRow {x : AnyRow Row} : Avoids env B (insertRow x) := by
  refine ⟨fun w tx txs hsec => ?_⟩
  rw [runM_insertRow]
  cases hinsert : insertError schema w.db tx x.1 (schema.coerce x.1 x.2) with
  | some e => exact ⟨w, tx, rfl, hsec, rfl⟩
  | none => exact ⟨w, _, rfl, hsec.insert checkInsert_fresh hinsert, rfl⟩

theorem insertAll_secluded {db : Database Row} (xs : List (AnyRow Row)) : ∀ tx : Tx,
    Secluded schema (belongs B) db tx → Secluded schema (belongs B) db (insertAll db tx xs).2 := by
  induction xs with
  | nil => exact fun tx hsec => hsec
  | cons x xs ih =>
    intro tx hsec
    unfold insertAll
    cases hinsert : insertError schema db tx x.1 (schema.coerce x.1 x.2) with
    | some e => exact hsec
    | none => exact ih _ (hsec.insert checkInsert_fresh hinsert)

theorem flushed_secluded {db : Database Row} {tx : Tx} (hsec : Secluded schema (belongs B) db tx) :
    Secluded schema (belongs B) db (flushed db tx).2 :=
  insertAll_secluded tx.pending _ ⟨hsec.hides, hsec.apart, hsec.spares⟩

theorem flush : Avoids env B flush := by
  refine ⟨fun w tx txs hsec => ⟨w, (flushed w.db tx).2, ?_, flushed_secluded hsec, rfl⟩⟩
  rw [runM_flush]

theorem repoAdd {t : Table} {r : Row t} : Avoids env B (repoAdd t r) := bind add fun _ => flush

/-- An update that does not touch the key. -/
theorem updateRow {t : Table} {id : Uuid} {f : Row t → Row t}
    (hf : ∀ r, keyOf t (f r) = keyOf t r) :
    Avoids env B (updateRow s t id f) := by
  refine ⟨fun w tx txs hsec => ?_⟩
  rw [runM_updateRow]
  cases htarget : target schema w.db tx t [id] fun _ => true with
  | none => exact ⟨w, tx, rfl, hsec, rfl⟩
  | some old =>
    dsimp only
    cases hupdate : updateError schema w.db tx t old
        (schema.coerce t (touch s.startedAt t (f old))) with
    | some e => exact ⟨w, tx, rfl, hsec, rfl⟩
    | none =>
      have hkey : keyOf t (schema.coerce t (touch s.startedAt t (f old))) = keyOf t old :=
        (keyOf_coerce _ _).trans ((keyOf_touch _ _ _).trans (hf old))
      exact ⟨w, _, rfl, hsec.update htarget hkey hupdate, rfl⟩

theorem sqlUpdate {t : Table} {k : List Uuid} {p : Row t → Bool} {f : Row t → Row t}
    (hf : ∀ r, keyOf t (f r) = keyOf t r) :
    Avoids env B (sql (.update t k p f)) := by
  refine ⟨fun w tx txs hsec => ?_⟩
  have hsql : runM env (sql (.update t k p f)) (w, tx :: txs) =
      (.ok (execTx schema w.db tx (.update t k p f)).1,
        (w, (execTx schema w.db tx (.update t k p f)).2 :: txs)) := rfl
  rw [hsql]
  simp only [execTx]
  cases htarget : target schema w.db tx t k p with
  | none => exact ⟨w, tx, rfl, hsec, rfl⟩
  | some old =>
    dsimp only
    cases hupdate : updateError schema w.db tx t old (schema.coerce t (f old)) with
    | some e => exact ⟨w, tx, rfl, hsec, rfl⟩
    | none =>
      have hkey : keyOf t (schema.coerce t (f old)) = keyOf t old :=
        (keyOf_coerce _ _).trans (hf old)
      exact ⟨w, _, rfl, hsec.update htarget hkey hupdate, rfl⟩

theorem sqlDelete {t : Table} {k : List Uuid} : Avoids env B (sql (.delete t k)) := by
  refine ⟨fun w tx txs hsec => ?_⟩
  have hsql : runM env (sql (.delete t k)) (w, tx :: txs) =
      (.ok (execTx schema w.db tx (.delete t k)).1,
        (w, (execTx schema w.db tx (.delete t k)).2 :: txs)) := rfl
  rw [hsql]
  simp only [execTx]
  cases htarget : target schema w.db tx t k fun _ => true with
  | none => exact ⟨w, tx, rfl, hsec, rfl⟩
  | some old => exact ⟨w, _, rfl, hsec.delete htarget, rfl⟩

/-- A commit, whether its flush succeeds or not. -/
theorem committed_same (hsec : Secluded schema (belongs B) w.db tx) :
    hidden (belongs B) (committed w tx).db = hidden (belongs B) w.db ∧
      OwnKeys B (committed w tx) := by
  have hflush := flushed_secluded hsec
  unfold committed
  rcases hf : flushed w.db tx with ⟨r, tx'⟩
  rw [hf] at hflush
  cases r with
  | error e => exact ⟨rfl, hsec.apart⟩
  | ok u => exact hflush.view

/-- The audit row of another tenant's event. -/
theorem publish {tid : Uuid} {userId : Option Uuid} {kind : EventKind}
    (hrls : env.settings.enableRowLevelSecurity = true) (hother : tid ≠ B) :
    Avoids env B (publish env ⟨some tid, userId, kind⟩) := by
  refine ⟨fun w tx txs hsec => ?_⟩
  let d := (DomainEvent.mk (some tid) userId kind).audit
  let row : AuditLog :=
    { id := w.nextUuid, tenantId := tid, userId, action := d.action, resource := d.resource,
      resourceId := d.resourceId, oldValues := none, newValues := d.newValues,
      ipAddress := none, createdAt := env.clock w.ticks }
  let w₁ : World := { w.tick with nextUuid := w.nextUuid + 1 }
  let own : Tx := { boundTx env (some tid) false with pending := [⟨.auditLogs, row⟩] }
  have hbody : runM env (do
      LmsBackend.add .auditLogs
        { id := ← uuid4, tenantId := tid, userId, action := d.action, resource := d.resource,
          resourceId := d.resourceId, oldValues := none, newValues := d.newValues,
          ipAddress := none, createdAt := env.clock w.ticks })
      (w.tick, boundTx env (some tid) false :: tx :: txs) = (.ok (), (w₁, own :: tx :: txs)) := rfl
  have hown : Secluded schema (belongs B) w₁.db own :=
    ⟨boundTx_hides hrls fun h => hother (Option.some.inj h), hsec.apart, fun x hx => by cases hx⟩
  obtain ⟨hsame, hkeys⟩ := committed_same hown
  have haudit : runM env (writeAudit env tid userId d) (w, tx :: txs) =
      (((flushed w₁.db own).1.mapError Err.db).map fun _ => (), (committed w₁ own, tx :: txs)) :=
    runM_tenantSession_ok hbody
  have hattempt : runM env (Prog.attempt (auditDomainEvent env ⟨some tid, userId, kind⟩) :
      M (Except Err Unit)) (w, tx :: txs) =
        (.ok (((flushed w₁.db own).1.mapError Err.db).map fun _ => ()),
          (committed w₁ own, tx :: txs)) := by
    rw [runM, Prog.run_attempt]
    show (Except.ok (runM env (writeAudit env tid userId d) (w, tx :: txs)).1,
      (runM env (writeAudit env tid userId d) (w, tx :: txs)).2) = _
    rw [haudit]
  refine ⟨committed w₁ own, tx, ?_, hsec.of_same hsame hkeys, hsame⟩
  unfold LmsBackend.publish
  rw [runM_bind_ok hattempt]
  rfl

/-- An operation on the reset tokens. -/
theorem perform {o : Op} (h : match o with
    | .resetSet _ _ _ | .resetDelete _ | .redisSet _ _ _ | .redisDelete _ => True
    | _ => False) : Avoids env B (perform o) := by
  refine ⟨fun w tx txs hsec => ?_⟩
  cases o with
  | resetSet token value expires => exact ⟨_, tx, rfl, hsec, rfl⟩
  | resetDelete token => exact ⟨_, tx, rfl, hsec, rfl⟩
  | redisSet k v ttl => exact ⟨_, tx, rfl, hsec, rfl⟩
  | redisDelete k => exact ⟨_, tx, rfl, hsec, rfl⟩
  | _ => exact h.elim

/-! ### The services of the accounts -/

/-- In another context than the tenant's, `require_tenant_id` gives another tenant. -/
theorem requireTenantId {f : Uuid → M β} (hother : rc.tenantId ≠ some B)
    (hf : ∀ tid, tid ≠ B → Avoids env B (f tid)) :
    Avoids env B (requireTenantId rc >>= f) := by
  unfold LmsBackend.requireTenantId
  cases htid : rc.tenantId with
  | none => exact raise _
  | some tid =>
    refine hf tid ?_
    rintro rfl
    exact hother htid

theorem register {data : RegisterRequest} (hrls : env.settings.enableRowLevelSecurity = true)
    (hother : rc.tenantId ≠ some B) : Avoids env B (register env rc s data) := by
  refine requireTenantId hother fun tid htid => (of_quiet Quiet.findUser).bind fun u => ?_
  cases u with
  | some _ => exact raise _
  | none =>
    refine bind (of_quiet ?_) fun student => (of_quiet Quiet.hashPassword).bind fun hashed => ?_
    · exact Quiet.query.bind fun _ => (Quiet.join.bind fun _ => Quiet.pure _).bind fun _ =>
        Quiet.scalarOneOrNone
    · refine (of_quiet Quiet.uuid4).bind fun id => bind ?_ fun _ => bind flush fun _ =>
        (publish hrls htid).bind fun _ => pure _
      exact bind add fun _ => forEach fun _ => add

theorem issueTokens {userId tenantId : Uuid} {userAgent ip : Option String} :
    Avoids env B (issueTokens env userId tenantId userAgent ip) := by
  have hencode : ∀ {type : String} {ttl : Nat} {jti : Uuid},
      Avoids env B (encode env userId tenantId type ttl jti) :=
    (of_quiet Quiet.now).bind fun _ => pure _
  refine bind ?_ fun r => ?_
  · exact (of_quiet Quiet.uuid4).bind fun _ => hencode.bind fun _ => pure _
  · refine (of_quiet Quiet.now).bind fun _ => (of_quiet Quiet.uuid4).bind fun _ => ?_
    refine bind add fun _ => bind ?_ fun _ => pure _
    exact (of_quiet Quiet.uuid4).bind fun _ => hencode

theorem login {data : LoginRequest} {userAgent ip : Option String}
    (hrls : env.settings.enableRowLevelSecurity = true) (hother : rc.tenantId ≠ some B) :
    Avoids env B (login env rc s data userAgent ip) := by
  refine requireTenantId hother fun tid htid => bind (of_quiet ?_) fun user => ?_
  · refine Quiet.findUser.bind fun u => ?_
    cases u with
    | none => exact Quiet.raise _
    | some u =>
      dsimp only
      split
      · split
        · exact Quiet.pure _
        · exact Quiet.raise _
      · exact Quiet.raise _
  · refine bind issueTokens fun tokens => (of_quiet Quiet.now).bind fun _ => ?_
    exact bind (updateRow fun _ => rfl) fun _ => bind flush fun _ =>
      (publish hrls htid).bind fun _ => pure _

theorem revokeSession {session : UserSession} : Avoids env B (revokeSession s session) :=
  (of_quiet Quiet.now).bind fun _ => updateRow fun _ => rfl

theorem getByJti {jti : Uuid} : Avoids env B (getByJti jti) :=
  of_quiet (Quiet.query.bind fun _ => Quiet.scalarOneOrNone)

theorem refresh {token : String} : Avoids env B (refresh env rc s token) := by
  refine (of_quiet Quiet.decodeToken).bind fun r => ?_
  cases r with
  | error m => exact raise _
  | ok payload =>
    refine bind getByJti fun session => ?_
    cases session with
    | none => exact raise _
    | some session =>
      dsimp only
      split
      · exact raise _
      · refine (of_quiet Quiet.now).bind fun _ => ?_
        split
        · exact raise _
        · exact (of_quiet Quiet.getUserOr404).bind fun user =>
            bind revokeSession fun _ => issueTokens

theorem logout {token : Option String} : Avoids env B (logout env s token) := by
  unfold LmsBackend.logout
  split
  · exact pure _
  · refine (of_quiet Quiet.decodeToken).bind fun r => ?_
    cases r with
    | error m => exact pure _
    | ok payload =>
      refine bind getByJti fun session => ?_
      cases session with
      | none => exact pure _
      | some session =>
        dsimp only
        split
        · exact revokeSession
        · exact pure _

theorem lookupReset {token : String} : Avoids env B (lookupReset env token) := by
  unfold LmsBackend.lookupReset getReset
  split
  · refine (of_quiet (@Quiet.perform _ (.redisGet _) trivial)).bind fun r => ?_
    split
    · exact pure _
    · exact pure _
  · refine (of_quiet (@Quiet.perform _ (.resetGet _) trivial)).bind fun r => ?_
    cases r with
    | none => exact pure _
    | some e =>
      refine (of_quiet Quiet.now).bind fun _ => ?_
      split
      · exact (perform trivial).bind fun _ => pure _
      · exact pure _

theorem resetPassword {token newPassword : String} :
    Avoids env B (resetPassword env rc s token newPassword) := by
  have huuid : ∀ text, Avoids env B (uuidOf text) := by
    intro text
    unfold uuidOf
    split
    · exact pure _
    · exact raise _
  have hrow : ∀ uid row, Avoids env B (revokeRow s uid row) := by
    intro uid row
    refine bind (sqlUpdate fun _ => rfl) fun r => ?_
    cases r with
    | ok _ => exact pure _
    | error _ => exact raise _
  have hdelete : Avoids env B (deleteReset env token) := by
    unfold deleteReset
    split
    · exact perform trivial
    · exact perform trivial
  refine bind lookupReset fun found => ?_
  split
  · exact raise _
  · refine (huuid _).bind fun tid => (of_quiet Quiet.requireTenantId).bind fun tid' => ?_
    split
    · exact raise _
    · refine (huuid _).bind fun uid => (of_quiet Quiet.findUser).bind fun u => ?_
      cases u with
      | none => exact raise _
      | some u =>
        refine (of_quiet Quiet.hashPassword).bind fun hashed => bind (updateRow fun _ => rfl) fun _ => ?_
        exact ((of_quiet Quiet.query).bind fun rows => forEach fun row => hrow _ row).bind
          fun _ => hdelete

end Avoids

end LmsBackend
