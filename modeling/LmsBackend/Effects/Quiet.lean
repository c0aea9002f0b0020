import LmsBackend.Core.Middleware
import LmsBackend.Effects.Runs

/-!
# What parts of the application leave alone

- `World.Still`: nothing changed that the database or the reset tokens show.
- `Quiet`: a program that leaves the open transactions and the world still. All
  lookups, the guards and the middleware are quiet.
- `Works`: a program that works in the innermost transaction; of the committed
  rows it changes at most the audit log, through `publish`.
-/

namespace LmsBackend

open Mvcc

variable {env : Env} {α β : Type}

/-! ## Counters -/

/-- Clock readings and identifiers are never reused. -/
structure World.Older (w w' : World) : Prop where
  ticks : w.ticks ≤ w'.ticks
  uuid : w.nextUuid ≤ w'.nextUuid

theorem World.Older.refl (w : World) : w.Older w := ⟨le_refl _, le_refl _⟩

theorem World.Older.trans {w w' w'' : World} (h : w.Older w') (h' : w'.Older w'') : w.Older w'' :=
  ⟨h.ticks.trans h'.ticks, h.uuid.trans h'.uuid⟩

/-- Every run moves the counters forward. -/
theorem runM_older (p : M α) (s : State) : s.1.Older (runM env p s).2.1 := by
  refine Prog.run_rel (fun s s' : State => s.1.Older s'.1) (fun s => World.Older.refl s.1)
    (fun _ _ _ => World.Older.trans) (fun o s => ?_) p s
  obtain ⟨w, txs⟩ := s
  cases o with
  | now => exact ⟨Nat.le_succ _, le_refl _⟩
  | uuid4 => exact ⟨le_refl _, Nat.le_succ _⟩
  | _ => exact ⟨le_refl _, le_refl _⟩

/-- No operation turns the clock back. -/
theorem exec_older (o : Op) (w : World) (txs : List Tx) : w.Older (exec env o (w, txs)).2.1 :=
  @runM_older env _ (perform o) (w, txs)

/-! ## Quiet programs -/

/-- The database and the reset tokens are the same. -/
structure World.Still (w w' : World) : Prop where
  db : w'.db = w.db
  resetStore : w'.resetStore = w.resetStore
  resetKeys : ∀ token, w'.redis (.reset token) = w.redis (.reset token)

theorem World.Still.refl (w : World) : w.Still w := ⟨rfl, rfl, fun _ => rfl⟩

theorem World.Still.trans {w w' w'' : World} (h : w.Still w') (h' : w'.Still w'') : w.Still w'' :=
  ⟨h'.db.trans h.db, h'.resetStore.trans h.resetStore,
    fun token => (h'.resetKeys token).trans (h.resetKeys token)⟩

theorem World.Still.seen {w w' : World} (h : w.Still w') (tx : Tx) : seen w' tx = seen w tx := by
  rw [LmsBackend.seen, LmsBackend.seen, h.db]

/-- The program leaves the world still and the open transactions as they are. -/
structure Quiet (env : Env) (p : M α) : Prop where
  still : ∀ s : State, s.1.Still (runM env p s).2.1
  stack : ∀ s : State, (runM env p s).2.2 = s.2

namespace Quiet

theorem pure (a : α) : Quiet env (Pure.pure a : M α) :=
  ⟨fun s => World.Still.refl s.1, fun _ => rfl⟩

theorem raise (e : Err) : Quiet env (.raise e : M α) :=
  ⟨fun s => World.Still.refl s.1, fun _ => rfl⟩

theorem throwApp (kind : ErrorKind) (message : String) (details : Details) :
    Quiet env (throwApp kind message details : M α) := raise _

theorem bind {p : M α} {f : α → M β} (hp : Quiet env p) (hf : ∀ a, Quiet env (f a)) :
    Quiet env (p >>= f) := by
  constructor
  · intro s
    have h := hp.still s
    rw [runM_bind]
    rcases hrun : runM env p s with ⟨r, s'⟩
    rw [hrun] at h
    cases r with
    | ok a => exact h.trans ((hf a).still s')
    | error e => exact h
  · intro s
    have h := hp.stack s
    rw [runM_bind]
    rcases hrun : runM env p s with ⟨r, s'⟩
    rw [hrun] at h
    cases r with
    | ok a => exact ((hf a).stack s').trans h
    | error e => exact h

/-- The operations that only read, or only touch what no claim is about. -/
def reading : Op → Prop
  | .db (.select _ _) => True
  | .db (.join _ _ _) => True
  | .now => True
  | .uuid4 => True
  | .draw => True
  | .redisGet _ => True
  | .redisSet k _ _ => ∀ token, k ≠ .reset token
  | .redisDelete k => ∀ token, k ≠ .reset token
  | .redisIncr k => ∀ token, k ≠ .reset token
  | .redisExpire k _ => ∀ token, k ≠ .reset token
  | .redisTtl _ => True
  | .resetGet _ => True
  | .enter _ => True
  | _ => False

theorem perform {o : Op} (h : reading o) : Quiet env (perform o) := by
  have hredis : ∀ (w : World) (k : RedisKey) (e : Option RedisEntry), (∀ token, k ≠ .reset token) →
      w.Still { w with redis := Function.update w.redis k e } := fun w k e hk =>
    ⟨rfl, rfl, fun token => Function.update_of_ne (Ne.symm (hk token)) _ _⟩
  cases o with
  | db o =>
    cases o with
    | select t p =>
      constructor <;> rintro ⟨w, _ | ⟨tx, txs⟩⟩ <;> first | rfl | exact World.Still.refl w
    | join t₁ t₂ p =>
      constructor <;> rintro ⟨w, _ | ⟨tx, txs⟩⟩ <;> first | rfl | exact World.Still.refl w
    | _ => exact h.elim
  | redisSet k v ttl => exact ⟨fun s => hredis s.1 k _ h, fun _ => rfl⟩
  | redisDelete k => exact ⟨fun s => hredis s.1 k _ h, fun _ => rfl⟩
  | redisIncr k => exact ⟨fun s => hredis s.1 k _ h, fun _ => rfl⟩
  | redisExpire k ttl => exact ⟨fun s => hredis s.1 k _ h, fun _ => rfl⟩
  | resetSet token value expires => exact h.elim
  | resetDelete token => exact h.elim
  | _ => exact ⟨fun s => ⟨rfl, rfl, fun _ => rfl⟩, fun _ => rfl⟩

theorem now : Quiet env now := perform trivial

theorem uuid4 : Quiet env uuid4 := perform trivial

theorem draw : Quiet env (LmsBackend.perform .draw) := perform trivial

theorem query {t : Table} {p : Row t → Bool} : Quiet env (query t p) := perform trivial

theorem join {t₁ t₂ : Table} {p : Row t₁ → Row t₂ → Bool} :
    Quiet env (sql (.join t₁ t₂ p)) := perform trivial

theorem scalarOneOrNone {rows : List α} : Quiet env (scalarOneOrNone rows) := by
  match rows with
  | [] => exact pure _
  | [_] => exact pure _
  | _ :: _ :: _ => exact raise _

theorem decodeToken {token type : String} : Quiet env (decodeToken env token type) := by
  unfold LmsBackend.decodeToken
  split
  · exact pure _
  · exact now.bind fun _ => pure _

theorem requireTenantId {rc : RequestContext} : Quiet env (requireTenantId rc) := by
  unfold LmsBackend.requireTenantId
  split
  · exact pure _
  · exact raise _

/-- A quiet program keeps the state, up to a later world that stands still. -/
theorem run {p : M α} (h : Quiet env p) (w : World) (txs : List Tx) :
    ∃ w', runM env p (w, txs) = ((runM env p (w, txs)).1, (w', txs)) ∧ w.Still w' ∧ w.Older w' :=
  ⟨(runM env p (w, txs)).2.1, Prod.ext rfl (Prod.ext rfl (h.stack (w, txs))), h.still (w, txs),
    runM_older p (w, txs)⟩

/-! ## Quiet units of work -/

/-- A flush with nothing to write. -/
theorem runM_flush_nil (w : World) (tx : Tx) (txs : List Tx) (h : tx.pending = []) :
    runM env flush (w, tx :: txs) = (.ok (), (w, tx :: txs)) := by
  obtain ⟨guc, writes, pending⟩ := tx
  cases h
  rfl

/-- A commit with nothing to write. -/
theorem runM_commitSession_nil (w : World) (tx : Tx) (txs : List Tx) (hp : tx.pending = [])
    (hw : tx.writes = []) :
    runM env commitSession (w, tx :: txs) = (.ok (.ok ()), (w, txs)) := by
  obtain ⟨guc, writes, pending⟩ := tx
  cases hp
  cases hw
  rfl

theorem tenantSession {tenantId : Option Uuid} {bypass : Bool} {body : Session → M α}
    (h : ∀ s, Quiet env (body s)) : Quiet env (tenantSession env tenantId bypass body) := by
  have key : ∀ w txs, w.Still (runM env (LmsBackend.tenantSession env tenantId bypass body) (w, txs)).2.1 ∧
      (runM env (LmsBackend.tenantSession env tenantId bypass body) (w, txs)).2.2 = txs := by
    intro w txs
    rw [runM_tenantSession]
    have hstill := (h ⟨env.clock w.ticks⟩).still (w.tick, boundTx env tenantId bypass :: txs)
    have hstack := (h ⟨env.clock w.ticks⟩).stack (w.tick, boundTx env tenantId bypass :: txs)
    have htick : w.Still w.tick := ⟨rfl, rfl, fun _ => rfl⟩
    rcases hrun : runM env (body ⟨env.clock w.ticks⟩)
      (w.tick, boundTx env tenantId bypass :: txs) with ⟨r, w', txs'⟩
    rw [hrun] at hstill hstack
    cases hstack
    cases r with
    | ok a =>
      dsimp only
      rw [runM_commitSession_nil w' _ txs rfl rfl]
      exact ⟨htick.trans hstill, rfl⟩
    | error e => exact ⟨htick.trans hstill, rfl⟩
  exact ⟨fun s => (key s.1 s.2).1, fun s => (key s.1 s.2).2⟩

/-- A quiet body answers the same in a unit of work of its own. -/
theorem runM_tenantSession_fst {tenantId : Option Uuid} {bypass : Bool} {body : Session → M α}
    (h : ∀ s, Quiet env (body s)) (w : World) (txs : List Tx) :
    (runM env (LmsBackend.tenantSession env tenantId bypass body) (w, txs)).1 =
      (runM env (body ⟨env.clock w.ticks⟩) (w.tick, boundTx env tenantId bypass :: txs)).1 := by
  rw [runM_tenantSession]
  obtain ⟨w', hrun, -, -⟩ := (h ⟨env.clock w.ticks⟩).run w.tick (boundTx env tenantId bypass :: txs)
  rcases hbody : (runM env (body ⟨env.clock w.ticks⟩)
    (w.tick, boundTx env tenantId bypass :: txs)).1 with e | a
  · rw [hrun, hbody]
  · rw [hrun, hbody]
    dsimp only
    rw [runM_commitSession_nil w' _ txs rfl rfl]

/-- A quiet body answers the same in a request's session. -/
theorem runM_getDb_fst {rc : Option RequestContext} {body : Session → M α} (w : World)
    (txs : List Tx) : (runM env (getDb env rc body) (w, txs)).1 =
      (runM env (body ⟨env.clock w.ticks⟩) (w.tick, boundTx env (rc.bind (·.tenantId))
        ((rc.map (·.isSuperadmin)).getD false) :: txs)).1 := by
  rw [runM_getDb]
  rcases runM env (body ⟨env.clock w.ticks⟩) _ with ⟨r, s⟩
  cases r <;> rfl

/-! ## The middleware -/

theorem cacheSlug {identifier : String} {tenantId : Uuid} :
    Quiet env (cacheSlug env identifier tenantId) := by
  unfold LmsBackend.cacheSlug
  split
  · exact perform fun token => by simp
  · exact pure _

theorem resolveSlug {identifier : String} : Quiet env (resolveSlug env identifier) := by
  refine tenantSession fun _ => (query.bind fun _ => scalarOneOrNone).bind fun t => ?_
  cases t with
  | none => exact pure _
  | some t =>
    dsimp only
    split
    · exact cacheSlug.bind fun _ => pure _
    · exact pure _

theorem resolveTenantId {identifier : String} : Quiet env (resolveTenantId env identifier) := by
  unfold LmsBackend.resolveTenantId
  split
  · exact pure _
  · split
    · refine (perform trivial : Quiet env (LmsBackend.perform (.redisGet _))).bind fun cached => ?_
      split
      · exact pure _
      · exact resolveSlug
    · exact resolveSlug

theorem requestContext {headers : Headers} {client : Option String} :
    Quiet env (requestContext env headers client) := by
  have hid : Quiet env (requestId headers) := by
    unfold requestId
    split
    · exact pure _
    · exact uuid4.bind fun _ => pure _
  have hheader : Quiet env (resolveFromHeader env headers) := by
    unfold resolveFromHeader
    split
    · exact resolveTenantId.bind fun _ => pure _
    · exact pure _
  have hidentity : Quiet env (resolveIdentity env headers) := by
    unfold resolveIdentity
    split
    · refine decodeToken.bind fun r => ?_
      cases r with
      | ok p => exact pure _
      | error m => exact hheader
    · exact hheader
  exact hid.bind fun _ => hidentity.bind fun _ => pure _

theorem rateLimit {spec : Nat × Nat} {path : String} {rc : RequestContext} :
    Quiet env (rateLimit env spec path rc) := by
  have hwindow : ∀ n, Quiet env (startWindow (.rate path (rateIdentity rc)) n spec.2) := by
    intro n
    unfold startWindow
    split
    · exact perform fun token => by simp
    · exact pure _
  unfold LmsBackend.rateLimit
  split
  · refine (perform (fun token => by simp) :
      Quiet env (LmsBackend.perform (.redisIncr _))).bind fun n => (hwindow n).bind fun _ => ?_
    split
    · exact (perform trivial : Quiet env (LmsBackend.perform (.redisTtl _))).bind fun _ => raise _
    · exact pure _
  · exact pure _

end Quiet

end LmsBackend
