import LmsBackend.Api.Router

/-!
# Footprints

What a part of the application may do to the database, whatever the database
answers, and what follows for its runs.

- `Footprint`: the settings its transactions may have, the tables it may write,
  the tenants whose platform rows it may read, the callers it may hand to a
  path operation function, and the reset tokens whose entries it may change.
- `Covers F Q p`: as long as the answers are ones that a database under `F`
  gives, `p` stays within `F` and returns values satisfying `Q`.
- `Covers.run_frame`: a table outside the footprint is the same after a run.
- `Covers.run_resets`: so is the entry of a reset token outside the footprint.
- `Covers.trace_touched`: every row a run touches is admitted by the policy under
  one of the footprint's settings.
-/

namespace LmsBackend

open Mvcc

/-- The tenant a platform row belongs to. -/
def platformOwner : (t : Table) → Row t → Option Uuid
  | .tenants, r => some r.id
  | .tenantModules, r => some r.tenantId
  | _, _ => none

/-- A set of module codes, to be cached, has the core modules. -/
def RedisValue.HasCore : RedisValue → Prop
  | .codes cs => ∀ c ∈ coreModuleCodes, c.value ∈ cs
  | _ => True

/-- Every cached set of module codes has the core modules. -/
def World.CoreCached (w : World) : Prop :=
  ∀ tenantId e, w.redis (.enabled tenantId) = some e → e.value.HasCore

/-- What a part of the application may do. -/
structure Footprint where
  guc : Guc → Prop
  writes : Table → Prop
  platform : Uuid → Prop
  callers : Option Caller → Prop
  resets : String → Prop
  /-- a fresh transaction has one of the settings -/
  guc_fresh : guc {}

namespace Footprint

/-- The rows a query under the footprint may ask for. -/
def reads (F : Footprint) (t : Table) (r : Row t) : Prop :=
  ∀ tid, platformOwner t r = some tid → F.platform tid

/-- The rows that row-level security shows under one of the footprint's settings. -/
def sees (F : Footprint) (t : Table) (r : Row t) : Prop :=
  ∃ g, F.guc g ∧ policy g t r = true

/-- The operations within the footprint. -/
def permits (F : Footprint) : Op → Prop
  | .db (.set f) => ∀ g, F.guc g → F.guc (f g)
  | .db (.select t p) => ∀ db r, p db r = true → F.reads t r
  | .db (.join t₁ t₂ p) => ∀ a b, p a b = true → F.reads t₁ a ∧ F.reads t₂ b
  | .db (.insert t _) => F.writes t
  | .db (.update t _ _ _) => F.writes t
  | .db (.delete t _) => F.writes t
  | .db (.add t _) => F.writes t
  | .enter c => F.callers c
  | .redisSet (.reset token) _ _ => F.resets token
  | .redisSet (.enabled _) v _ => v.HasCore
  | .redisDelete (.reset token) => F.resets token
  | .redisIncr (.reset token) => F.resets token
  | .redisExpire (.reset token) _ => F.resets token
  | .resetSet token _ _ => F.resets token
  | .resetDelete token => F.resets token
  | _ => True

/-- The answers of a database that was used within the footprint. -/
def answers (F : Footprint) : (o : Op) → o.Ans → Prop
  | .db (.select t p), rows => ∀ r ∈ rows, (∃ db, p db r = true) ∧ F.sees t r
  | .db (.join t₁ t₂ p), rows => ∀ x ∈ rows, p x.1 x.2 = true ∧ F.sees t₁ x.1 ∧ F.sees t₂ x.2
  | .db .takePending, rows => ∀ x ∈ rows, F.writes x.1
  | _, _ => True

/-- A transaction that was used within the footprint. -/
structure OwnTx (F : Footprint) (tx : Tx) : Prop where
  guc : F.guc tx.guc
  writes : ∀ w ∈ tx.writes, F.writes w.table
  pending : ∀ x ∈ tx.pending, F.writes x.1

/-- A state reached within the footprint from a database. -/
structure Inv (F : Footprint) (db₀ : Database Row) (s : State) : Prop where
  txs : ∀ tx ∈ s.2, F.OwnTx tx
  frame : ∀ t, ¬ F.writes t → s.1.db t = db₀ t

/-- A transaction that has just begun. -/
theorem OwnTx.fresh (F : Footprint) : F.OwnTx ⟨{}, [], []⟩ :=
  ⟨F.guc_fresh, (fun _ hw => (by cases hw)), (fun _ hx => (by cases hx))⟩

theorem OwnTx.view_other {F : Footprint} {tx : Tx} (h : F.OwnTx tx) {db : Database Row} {t : Table}
    (ht : ¬ F.writes t) : view schema db tx t = db t :=
  foldl_apply_other fun w hw heq => ht (heq ▸ h.writes w hw)

/-- One statement of a transaction keeps it within the footprint, and its answer
is one the footprint allows. -/
theorem OwnTx.step {F : Footprint} {tx : Tx} (h : F.OwnTx tx) (db : Database Row)
    {o : Mvcc.Op Row (List Uuid) Guc} (ho : F.permits (.db o)) :
    F.answers (.db o) (execTx schema db tx o).1 ∧ F.OwnTx (execTx schema db tx o).2 := by
  have hsees : ∀ {t : Table} {r : Row t}, r ∈ visible schema db tx t → F.sees t r :=
    fun hr => ⟨tx.guc, h.guc, (mem_visible.mp hr).2⟩
  have hwrite : ∀ w, F.writes w.table →
      F.OwnTx { tx with writes := tx.writes ++ [w] } := by
    intro w hw
    refine ⟨h.guc, fun w' hw' => ?_, h.pending⟩
    rcases List.mem_append.mp hw' with hw' | hw'
    · exact h.writes w' hw'
    · rw [List.mem_singleton.mp hw']; exact hw
  cases o with
  | select t p =>
    refine ⟨fun r hr => ?_, h⟩
    obtain ⟨hvis, hp⟩ := List.mem_filter.mp hr
    exact ⟨⟨_, hp⟩, hsees hvis⟩
  | join t₁ t₂ p =>
    refine ⟨fun x hx => ?_, h⟩
    obtain ⟨a, ha, hx⟩ := List.mem_flatMap.mp hx
    obtain ⟨b, hb, rfl⟩ := List.mem_map.mp hx
    obtain ⟨hbvis, hp⟩ := List.mem_filter.mp hb
    exact ⟨hp, hsees ha, hsees hbvis⟩
  | insert t r =>
    simp only [execTx]
    split
    · exact ⟨trivial, h⟩
    · exact ⟨trivial, hwrite _ ho⟩
  | update t k p f =>
    simp only [execTx]
    split
    · exact ⟨trivial, h⟩
    · split
      · exact ⟨trivial, h⟩
      · exact ⟨trivial, hwrite _ ho⟩
  | delete t k =>
    simp only [execTx]
    split
    · exact ⟨trivial, h⟩
    · exact ⟨trivial, hwrite _ ho⟩
  | takePending => exact ⟨h.pending, ⟨h.guc, h.writes, (fun _ hx => (by cases hx))⟩⟩
  | set f => exact ⟨trivial, ⟨ho _ h.guc, h.writes, h.pending⟩⟩
  | add t r =>
    refine ⟨trivial, ⟨h.guc, h.writes, fun x hx => ?_⟩⟩
    rcases List.mem_append.mp hx with hx | hx
    · exact h.pending x hx
    · rw [List.mem_singleton.mp hx]; exact ho
  | begin => exact ⟨trivial, h⟩
  | commit => exact ⟨trivial, h⟩
  | rollback => exact ⟨trivial, h⟩

/-- What a statement outside a transaction answers is allowed as well. -/
theorem answers_noTx {F : Footprint} (o : Mvcc.Op Row (List Uuid) Guc) :
    F.answers (.db o) (noTx schema o) := by
  cases o <;> first | trivial | exact fun x hx => (by cases hx)

/-- **Step lemma**: an operation within the footprint keeps the invariant. -/
theorem Inv.step {F : Footprint} {env : Env} {db₀ : Database Row} (o : Op) (s : State)
    (ho : F.permits o) (h : F.Inv db₀ s) :
    F.answers o (exec env o s).1 ∧ F.Inv db₀ (exec env o s).2 := by
  obtain ⟨w, txs⟩ := s
  cases o with
  | db o =>
    cases txs with
    | nil =>
      cases o with
      | begin =>
        refine ⟨trivial, ⟨fun tx htx => ?_, h.frame⟩⟩
        rw [List.mem_singleton.mp htx]
        exact OwnTx.fresh F
      | _ => exact ⟨answers_noTx _, h⟩
    | cons tx txs =>
      have hown := h.txs tx List.mem_cons_self
      have hrest : ∀ tx' ∈ txs, F.OwnTx tx' := fun tx' htx' =>
        h.txs tx' (List.mem_cons_of_mem tx htx')
      have hcons : ∀ {tx' : Tx}, F.OwnTx tx' → ∀ tx'' ∈ tx' :: txs, F.OwnTx tx'' := by
        intro tx' htx' tx'' htx''
        rcases List.mem_cons.mp htx'' with rfl | htx''
        · exact htx'
        · exact hrest tx'' htx''
      cases o with
      | begin =>
        refine ⟨trivial, ⟨fun tx' htx' => ?_, h.frame⟩⟩
        rcases List.mem_cons.mp htx' with rfl | htx'
        · exact OwnTx.fresh F
        · exact h.txs tx' htx'
      | commit =>
        exact ⟨trivial, ⟨hrest, fun t ht => (hown.view_other ht).trans (h.frame t ht)⟩⟩
      | rollback => exact ⟨trivial, ⟨hrest, h.frame⟩⟩
      | _ =>
        obtain ⟨hans, hown'⟩ := hown.step w.db ho
        exact ⟨hans, ⟨hcons hown', h.frame⟩⟩
  | enter c => exact ⟨trivial, h⟩
  | _ => exact ⟨trivial, ⟨h.txs, h.frame⟩⟩

/-- The entry of the token is the same in both stores. -/
structure SameReset (token : String) (w w' : World) : Prop where
  memory : w'.resetStore token = w.resetStore token
  redis : w'.redis (.reset token) = w.redis (.reset token)

/-- An operation within the footprint leaves the entries of the other tokens. -/
theorem permits_resets {F : Footprint} {env : Env} {token : String} (htoken : ¬ F.resets token)
    {o : Op} (s : State) (ho : F.permits o) : SameReset token s.1 (exec env o s).2.1 := by
  obtain ⟨w, txs⟩ := s
  have hkey : ∀ k (e : Option RedisEntry), (∀ t, k = .reset t → F.resets t) →
      SameReset token w { w with redis := Function.update w.redis k e } := by
    intro k e hk
    refine ⟨rfl, Function.update_of_ne ?_ _ _⟩
    rintro rfl
    exact htoken (hk token rfl)
  have hown : ∀ t (e : Option (String × Time)), F.resets t →
      SameReset token w { w with resetStore := Function.update w.resetStore t e } := by
    intro t e ht
    refine ⟨Function.update_of_ne ?_ _ _, rfl⟩
    rintro rfl
    exact htoken ht
  cases o with
  | db o => cases o <;> cases txs <;> exact ⟨rfl, rfl⟩
  | redisSet k v ttl => exact hkey k _ fun t ht => by subst ht; exact ho
  | redisDelete k => exact hkey k _ fun t ht => by subst ht; exact ho
  | redisIncr k => exact hkey k _ fun t ht => by subst ht; exact ho
  | redisExpire k ttl => exact hkey k _ fun t ht => by subst ht; exact ho
  | resetSet t v e => exact hown t _ ho
  | resetDelete t => exact hown t _ ho
  | _ => exact ⟨rfl, rfl⟩

theorem RedisEntry.incr_hasCore (e : Option RedisEntry) : (RedisEntry.incr e).value.HasCore := by
  unfold RedisEntry.incr
  split <;> exact trivial

/-- An operation within the footprint keeps the core modules in the cached sets. -/
theorem permits_coreCached {F : Footprint} {env : Env} {o : Op} (s : State) (ho : F.permits o)
    (h : s.1.CoreCached) : (exec env o s).2.1.CoreCached := by
  obtain ⟨w, txs⟩ := s
  have hkey : ∀ k (new : Option RedisEntry),
      (∀ t, k = .enabled t → ∀ e, new = some e → e.value.HasCore) →
      World.CoreCached { w with redis := Function.update w.redis k new } := by
    intro k new hk t e he
    by_cases hkt : RedisKey.enabled t = k
    · subst hkt
      refine hk t rfl e ?_
      rw [← he]
      exact (Function.update_self (RedisKey.enabled t) new w.redis).symm
    · exact h t e ((Function.update_of_ne hkt _ _).symm.trans he)
  cases o with
  | db o => cases o <;> cases txs <;> exact h
  | redisSet k v ttl =>
    refine hkey k _ fun t hk e he => ?_
    subst hk
    cases he
    exact ho
  | redisDelete k => exact hkey k _ fun _ _ e he => by cases he
  | redisIncr k =>
    refine hkey k _ fun _ _ e he => ?_
    cases he
    exact RedisEntry.incr_hasCore _
  | redisExpire k ttl =>
    -- EXPIRE keeps the value that was there
    refine hkey k _ fun t hk e he => ?_
    subst hk
    obtain ⟨old, hold, rfl⟩ := Option.map_eq_some_iff.mp he
    exact h t old (Option.filter_eq_some_iff.mp hold).1
  | _ => exact h

end Footprint

/-- The program stays within the footprint and returns values satisfying `Q`, as
long as the answers are ones the footprint allows. -/
structure Covers {α : Type} (F : Footprint) (Q : α → Prop) (p : M α) : Prop where
  all : Prog.All F.permits F.answers Q p

/-- The rows that a statement of a running program touches. -/
def touchedBy (s : State) : Op → List (AnyRow Row)
  | .db o =>
    match s.2 with
    | tx :: _ => touched schema s.1.db tx o
    | [] => []
  | _ => []

namespace Covers

variable {α β : Type} {F : Footprint} {Q : α → Prop}

/-! ## Composition -/

theorem pure {a : α} (h : Q a) : Covers F Q (Pure.pure a : M α) := ⟨h⟩

theorem raise (e : Err) : Covers F Q (.raise e) := ⟨trivial⟩

theorem throwApp (kind : ErrorKind) (message : String) (details : Details) :
    Covers F Q (throwApp kind message details) := ⟨trivial⟩

theorem bind {p : M α} {f : α → M β} {R : β → Prop} (hp : Covers F Q p)
    (hf : ∀ a, Q a → Covers F R (f a)) : Covers F R (p >>= f) :=
  ⟨Prog.All.bind hp.all fun a ha => (hf a ha).all⟩

/-- The sequence rule where nothing is known of the first value. -/
theorem seq {p : M α} {f : α → M β} {R : β → Prop} (hp : Covers F (fun _ => True) p)
    (hf : ∀ a, Covers F R (f a)) : Covers F R (p >>= f) :=
  hp.bind fun a _ => hf a

theorem mono {p : M α} {R : α → Prop} (hp : Covers F Q p) (h : ∀ a, Q a → R a) : Covers F R p :=
  ⟨hp.all.imp h⟩

theorem weaken {p : M α} (hp : Covers F Q p) : Covers F (fun _ => True) p :=
  hp.mono fun _ _ => trivial

theorem attempt {p : M α} (hp : Covers F Q p) :
    Covers F (fun r => ∀ a, r = .ok a → Q a) (Prog.attempt p : M (Except Err α)) :=
  ⟨Prog.all_attempt hp.all (fun _ h _ heq => by cases heq; exact h) fun _ _ heq => (by cases heq)⟩

theorem forEach {as : List β} {f : β → M Unit} (h : ∀ a ∈ as, Covers F (fun _ => True) (f a)) :
    Covers F (fun _ => True) (Prog.forEach as f) :=
  ⟨Prog.all_forEach fun a ha => (h a ha).all⟩

/-- An operation, with what the footprint allows as its answer. -/
theorem perform' (o : Op) {Q : o.Ans → Prop} (h : F.permits o) (hQ : ∀ a, F.answers o a → Q a) :
    Covers F Q (perform o) :=
  ⟨h, hQ⟩

theorem perform (o : Op) (h : F.permits o) : Covers F (fun _ => True) (perform o) :=
  perform' o h fun _ _ => trivial

theorem now : Covers F (fun _ => True) now := perform .now trivial

theorem uuid4 : Covers F (fun _ => True) uuid4 := perform .uuid4 trivial

theorem sqlBegin : Covers F (fun _ => True) (sql .begin) := perform (.db .begin) trivial

theorem sqlCommit : Covers F (fun _ => True) (sql .commit) := perform (.db .commit) trivial

theorem sqlRollback : Covers F (fun _ => True) (sql .rollback) := perform (.db .rollback) trivial

theorem sqlSet {f : Guc → Guc} (h : ∀ g, F.guc g → F.guc (f g)) :
    Covers F (fun _ => True) (sql (.set f)) := perform (.db (.set f)) h

theorem sqlInsert {t : Table} {r : Row t} (h : F.writes t) :
    Covers F (fun _ => True) (sql (.insert t r)) := perform (.db (.insert t r)) h

theorem sqlUpdate {t : Table} {k : List Uuid} {p : Row t → Bool} {f : Row t → Row t}
    (h : F.writes t) : Covers F (fun _ => True) (sql (.update t k p f)) :=
  perform (.db (.update t k p f)) h

theorem sqlDelete {t : Table} {k : List Uuid} (h : F.writes t) :
    Covers F (fun _ => True) (sql (.delete t k)) := perform (.db (.delete t k)) h

theorem add {t : Table} {r : Row t} (h : F.writes t) : Covers F (fun _ => True) (add t r) :=
  perform (.db (.add t r)) h

/-- Joined rows satisfy the join condition and are seen. -/
theorem sqlJoin {t₁ t₂ : Table} {p : Row t₁ → Row t₂ → Bool}
    (h : ∀ a b, p a b = true → F.reads t₁ a ∧ F.reads t₂ b) :
    Covers F (fun rows => ∀ x ∈ rows, p x.1 x.2 = true ∧ F.sees t₁ x.1 ∧ F.sees t₂ x.2)
      (sql (.join t₁ t₂ p)) :=
  perform' (.db (.join t₁ t₂ p)) h fun _ h => h

/-! ## Runs -/

theorem inv_start (w : World) : F.Inv w.db (w, []) :=
  ⟨(fun _ htx => (by cases htx)), fun _ _ => rfl⟩

/-- A table outside the footprint is the same after a run. -/
theorem run_frame {env : Env} {p : M α} (h : Covers F Q p) (w : World) {t : Table}
    (ht : ¬ F.writes t) : (p.run (exec env) (w, [])).2.1.db t = w.db t :=
  (h.all.run_inv (F.Inv w.db) Footprint.Inv.step (inv_start w)).frame t ht

/-- The entry of a token outside the footprint is the same after a run. -/
theorem run_resets {env : Env} {p : M α} (h : Covers F Q p) (w : World) {token : String}
    (ht : ¬ F.resets token) :
    Footprint.SameReset token w (p.run (exec env) (w, [])).2.1 := by
  refine (h.all.run_inv (fun s => F.Inv w.db s ∧ Footprint.SameReset token w s.1) ?_
    ⟨inv_start w, rfl, rfl⟩).2
  rintro o s ho ⟨hinv, hsame⟩
  have hstep := @Footprint.Inv.step F env w.db o s ho hinv
  have hkept := @Footprint.permits_resets F env token ht o s ho
  exact ⟨hstep.1, hstep.2, hkept.memory.trans hsame.memory, hkept.redis.trans hsame.redis⟩

/-- A run keeps the core modules in the cached sets. -/
theorem run_coreCached {env : Env} {p : M α} (h : Covers F Q p) {w : World} (hw : w.CoreCached) :
    (p.run (exec env) (w, [])).2.1.CoreCached := by
  refine (h.all.run_inv (fun s => F.Inv w.db s ∧ s.1.CoreCached) ?_ ⟨inv_start w, hw⟩).2
  rintro o s ho ⟨hinv, hcore⟩
  obtain ⟨hans, hinv'⟩ := @Footprint.Inv.step F env w.db o s ho hinv
  exact ⟨hans, hinv', Footprint.permits_coreCached s ho hcore⟩

/-- A value that a run returns satisfies `Q`. -/
theorem run_ok {env : Env} {p : M α} (h : Covers F Q p) {w : World} {s : State} {a : α}
    (hr : p.run (exec env) (w, []) = (.ok a, s)) : Q a :=
  Prog.All.run_ok h.all (F.Inv w.db) Footprint.Inv.step (inv_start w) hr

/-- Every row that a run touches is seen under the footprint. -/
theorem trace_touched {env : Env} {p : M α} (h : Covers F Q p) (w : World) :
    ∀ e ∈ p.trace (exec env) (w, []), F.permits e.2 ∧ ∀ x ∈ touchedBy e.1 e.2, F.sees x.1 x.2 := by
  intro e he
  obtain ⟨hinv, hperm⟩ :=
    Prog.All.trace_inv h.all (F.Inv w.db) Footprint.Inv.step (inv_start w) e he
  obtain ⟨⟨w', txs⟩, o⟩ := e
  refine ⟨hperm, fun x hx => ?_⟩
  cases o with
  | db o =>
    cases txs with
    | nil => cases hx
    | cons tx txs =>
      exact ⟨tx.guc, (hinv.txs tx List.mem_cons_self).guc, touched_policy schema w'.db tx o x hx⟩
  | _ => cases hx

end Covers

end LmsBackend
