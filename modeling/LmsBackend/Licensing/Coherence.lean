import LmsBackend.Concurrency.Threads
import LmsBackend.Core.Platform
import LmsBackend.Licensing.Entitlements

/-!
# Coherence of the licensing cache

Toggles of a tenant's modules interleaved with checks of the tenant's modules. A check
reads the rows in two queries and then caches what it found; a toggle drops the cache entry
before its transaction commits.

- `Coherent`: the cached set of the tenant, if there is one, is what the committed rows say.
- `LicenceRecord`: how far a check or a toggle has come.
- `Undisturbed`: a toggle commits while no check is between its first query and its caching,
  and a check caches while no toggle is between dropping the entry and its commit.
- `licences_coherent`: in an undisturbed run the cache is coherent in every state.
- `licence_cache_stale`: without it, a disabled module stays enabled in the cache.
-/

namespace LmsBackend

open Mvcc Interleave

variable {env : Env} {ι : Type} [DecidableEq ι] {T : Uuid}

/-! ## Coherence -/

/-- The cached set of the tenant, if there is one, is what `_compute_enabled` gives on the
committed rows. -/
def Coherent (env : Env) (T : Uuid) (w : World) : Prop :=
  ∀ cs, cachedIn env w T = some (.codes cs) →
    ∀ code, code ∈ cs ↔ code ∈ entitledIn w.db T (env.clock w.ticks)

/-- The instant is not passed by the clock from the reading `t₀` on. -/
def Steady (env : Env) (t₀ : Nat) (e : Time) : Prop :=
  ∀ i j, t₀ ≤ i → t₀ ≤ j → (e < env.clock i ↔ e < env.clock j)

/-- No licence lapses from the reading `t₀` on. -/
structure Lasting (env : Env) (t₀ : Nat) (w : World) : Prop where
  ticks : t₀ ≤ w.ticks
  steady : ∀ tm ∈ w.db .tenantModules, ∀ e, tm.expiresAt = some e → Steady env t₀ e

/-- The codes of the enabled flags, the first query of `_compute_enabled`. -/
def enabledFlags (db : Database Row) (T : Uuid) : List String :=
  joinedCodesIn db T fun m tm => tm.enabled && m.isActive

/-- The codes of the lapsed flags, its second query. -/
def lapsedFlags (db : Database Row) (T : Uuid) (now : Time) : List String :=
  joinedCodesIn db T fun _ tm => tm.expiresAt.any (· < now)

/-- While no licence lapses, the moment of the second query does not matter. -/
theorem Lasting.lapsed {t₀ : Nat} {w : World} (h : Lasting env t₀ w) {i j : Nat} (hi : t₀ ≤ i)
    (hj : t₀ ≤ j) (code : String) :
    code ∈ lapsedFlags w.db T (env.clock i) ↔ code ∈ lapsedFlags w.db T (env.clock j) := by
  have hone : ∀ i j, t₀ ≤ i → t₀ ≤ j → code ∈ lapsedFlags w.db T (env.clock i) →
      code ∈ lapsedFlags w.db T (env.clock j) := by
    intro i j hi hj hmem
    obtain ⟨m, hm, tm, htm, hcode, hid, htenant, hexp⟩ := mem_joinedCodesIn.mp hmem
    refine mem_joinedCodesIn.mpr ⟨m, hm, tm, htm, hcode, hid, htenant, ?_⟩
    dsimp only at hexp ⊢
    cases he : tm.expiresAt with
    | none =>
      rw [he] at hexp
      cases hexp
    | some e =>
      rw [he, Option.any_some, decide_eq_true_iff] at hexp
      rw [Option.any_some, decide_eq_true_iff]
      exact (h.steady tm htm e he i j hi hj).mp hexp
  exact ⟨hone i j hi hj, hone j i hj hi⟩

theorem Lasting.entitled {t₀ : Nat} {w : World} (h : Lasting env t₀ w) {i j : Nat} (hi : t₀ ≤ i)
    (hj : t₀ ≤ j) (code : String) :
    code ∈ entitledIn w.db T (env.clock i) ↔ code ∈ entitledIn w.db T (env.clock j) := by
  unfold entitledIn
  simp only [List.mem_append, List.mem_filter, decide_eq_true_iff]
  rw [show (code ∈ joinedCodesIn w.db T fun _ tm => tm.expiresAt.any (· < env.clock i)) ↔
    (code ∈ joinedCodesIn w.db T fun _ tm => tm.expiresAt.any (· < env.clock j)) from
      h.lapsed hi hj code]

/-! ## Checks and toggles -/

/-- A task of one request: `set_module` for the tenant, or `enabled_codes` in a session. -/
inductive LicenceTask
  | toggle (code : ModuleCode) (enabled : Bool)
  | check (rc : RequestContext)

/-- The program of a task; a toggle answers no codes. -/
def LicenceTask.program (env : Env) (T : Uuid) : LicenceTask → M (List String)
  | .toggle code enabled => do
    setModule env T code enabled
    return []
  | .check rc => getDb env (some rc) fun _ => enabledCodes env T

/-- How far a task has come: a check has the answer of its first query, or of both; a toggle
has dropped the cache entry; or neither. -/
inductive LicenceRecord
  | start
  | first (codes : List String)
  | second (codes lapsed : List String)
  | dropped
  | ended
  deriving DecidableEq

/-- What an operation of a task changes in its record. -/
def licenceNote : Note LicenceRecord
  | .start, _, .db (.join .modules .tenantModules _), rows => .first (rows.map (·.1.code))
  | .first codes, _, .db (.join .modules .tenantModules _), rows =>
    .second codes (rows.map (·.1.code))
  | _, _, .redisDelete (.enabled _), _ => .dropped
  | _, _, .redisSet (.enabled _) _ _, _ => .ended
  | _, _, .db .commit, _ => .ended
  | _, _, .db .rollback, _ => .ended
  | q, _, _, _ => q

/-- The check is between its first query and the end of its caching. -/
def LicenceRecord.reading : LicenceRecord → Prop
  | .first _ => True
  | .second _ _ => True
  | _ => False

/-- The step does not put a check between a toggle's dropping of the entry and its commit,
nor a toggle's commit between a check's first query and its caching. -/
def Undisturbed (P : Crowd (List String) LicenceRecord ι) (i : ι) : Option Op → Prop
  | some (.db .commit) => (P.thread i).seen = .dropped →
      ∀ j, (P.thread j).prog ≠ none → ¬ (P.thread j).seen.reading
  | some (.redisSet (.enabled _) _ _) =>
      ∀ j, (P.thread j).prog ≠ none → (P.thread j).seen ≠ .dropped
  | _ => True

instance (q : LicenceRecord) : Decidable q.reading := by
  unfold LicenceRecord.reading
  split <;> infer_instance

/-- The step caches a tenant's codes. -/
def caches : Option Op → Bool
  | some (.redisSet (.enabled _) _ _) => true
  | _ => false

omit [DecidableEq ι] in
theorem undisturbed_iff {P : Crowd (List String) LicenceRecord ι} {i : ι} {o : Option Op} :
    ((commits o = true → (P.thread i).seen = .dropped →
        ∀ j, (P.thread j).prog ≠ none → ¬ (P.thread j).seen.reading) ∧
      (caches o = true → ∀ j, (P.thread j).prog ≠ none → (P.thread j).seen ≠ .dropped)) ↔
      Undisturbed P i o := by
  rcases o with _ | o
  · simp [commits, caches, Undisturbed]
  · cases o with
    | db o => cases o <;> simp [commits, caches, Undisturbed]
    | redisSet k v ttl => cases k <;> simp [commits, caches, Undisturbed]
    | _ => simp [commits, caches, Undisturbed]

instance [Fintype ι] (P : Crowd (List String) LicenceRecord ι) (i : ι) (o : Option Op) :
    Decidable (Undisturbed P i o) :=
  decidable_of_iff _ undisturbed_iff

/-! ## What a task does -/

/-- A write of a toggle: a flag whose expiry does not pass. -/
def FlagWrite (env : Env) (t₀ : Nat) (x : Mvcc.Write Row (List Uuid)) : Prop :=
  ∃ row : TenantModule, (x = .insert .tenantModules row ∨ ∃ k, x = .update .tenantModules k row) ∧
    ∀ e, row.expiresAt = some e → Steady env t₀ e

/-- The condition of a query of `_compute_enabled`. -/
def flagCondition (T : Uuid) (p : Module → TenantModule → Bool) (m : Module) (tm : TenantModule) :
    Bool :=
  decide (tm.moduleId = m.id) && decide (tm.tenantId = T) && p m tm

/-- The operations of a task, by what it has done before. -/
def LicenceAllowed (env : Env) (t₀ : Nat) (T : Uuid) (q : LicenceRecord) (l : List Tx) : Op → Prop
  | .db (.join t₁ t₂ p) => ∃ p', (.join t₁ t₂ p : Mvcc.Op Row (List Uuid) Guc) =
      .join .modules .tenantModules (flagCondition T p') ∧ (∃ tx, l = [tx] ∧ tx.writes = []) ∧
    (q = .start ∧ p' = (fun m tm => tm.enabled && m.isActive) ∨
      ∃ codes i, q = .first codes ∧ t₀ ≤ i ∧ p' = fun _ tm => tm.expiresAt.any (· < env.clock i))
  | .db .commit => ∃ tx, l = [tx] ∧
    (tx.writes = [] ∨ q = .dropped ∧ ∀ x ∈ tx.writes, FlagWrite env t₀ x)
  | .db _ => True
  | .now => True
  | .uuid4 => True
  | .redisGet _ => True
  | .redisSet k v _ => ∃ codes lapsed, q = .second codes lapsed ∧ k = .enabled T ∧
    v = .codes (sortedSet (codes.filter (· ∉ lapsed) ++ coreModuleCodes.map (·.value)))
  | .redisDelete k => k = .enabled T
  | _ => False

section Tasks

variable {t₀ : Nat}

theorem licence_starts {q : LicenceRecord} : Does.Starts licenceNote (LicenceAllowed env t₀ T) q where
  begin l := ⟨trivial, fun a => by cases q <;> rfl⟩
  now l := ⟨trivial, fun a => by cases q <;> rfl⟩
  set l f := ⟨trivial, fun a => by cases q <;> rfl⟩

/-- A task with nothing to write commits. -/
theorem licence_commit {α : Type} {q : LicenceRecord} {tx : Tx} {f : Except Err Unit → M α}
    {Q : LicenceRecord → List Tx → α → Prop} {E : LicenceRecord → List Tx → Err → Prop}
    (hp : tx.pending = [])
    (hw : tx.writes = [] ∨ q = .dropped ∧ ∀ x ∈ tx.writes, FlagWrite env t₀ x)
    (h : Does env licenceNote (fun _ => Lasting env t₀) (LicenceAllowed env t₀ T) Q E .ended [] (f (.ok ()))) :
    Does env licenceNote (fun _ => Lasting env t₀) (LicenceAllowed env t₀ T) Q E q [tx]
      (commitSession >>= f) := by
  refine Does.commitSession_nil hp ⟨trivial, fun a => by cases q <;> rfl⟩ ⟨tx, rfl, hw⟩ ?_
  have hnote : licenceNote q [tx] (.db .commit) () = .ended := by cases q <;> rfl
  rw [hnote]
  exact h

theorem licence_rollback {α : Type} {q : LicenceRecord} {tx : Tx} {e : Err} :
    Does env licenceNote (fun _ => Lasting env t₀) (LicenceAllowed env t₀ T) (fun _ _ _ => True)
      (fun _ _ _ => True) q [tx] (sql .rollback >>= fun _ => (.raise e : M α)) :=
  Does.rollback trivial trivial

/-- A check reads the cache, then the flags in two queries, and caches what they say. -/
theorem check_does (hredis : env.settings.hasRedis = true) {tx : Tx} (hw : tx.writes = [])
    (hp : tx.pending = []) :
    Does env licenceNote (fun _ => Lasting env t₀) (LicenceAllowed env t₀ T)
      (fun _ l _ => ∃ tx, l = [tx] ∧ tx.writes = [] ∧ tx.pending = [])
      (fun _ l _ => ∃ tx, l = [tx]) .start [tx] (enabledCodes env T) := by
  have hcache : ∀ codes, cacheCodes env T codes =
      perform (.redisSet (.enabled T) (.codes (sortedSet codes)) enabledTtl) := by
    intro codes
    rw [cacheCodes, if_pos hredis]
  have hcompute : Does env licenceNote (fun _ => Lasting env t₀) (LicenceAllowed env t₀ T)
      (fun _ l _ => ∃ tx, l = [tx] ∧ tx.writes = [] ∧ tx.pending = [])
      (fun _ l _ => ∃ tx, l = [tx]) .start [tx] (do
        let codes ← computeEnabled T
        cacheCodes env T codes
        return codes) := by
    simp only [hcache]
    refine ⟨trivial, fun w hlast => ?_⟩
    refine ⟨⟨_, rfl, ⟨tx, rfl, hw⟩, .inl ⟨rfl, rfl⟩⟩, fun w₁ _ => ?_⟩
    refine ⟨⟨_, rfl, ⟨tx, rfl, hw⟩, .inr ⟨_, w.ticks, rfl, hlast.ticks, rfl⟩⟩, fun w₂ _ => ?_⟩
    exact ⟨⟨_, _, rfl, rfl, rfl⟩, fun _ _ => ⟨tx, rfl, hw, hp⟩⟩
  unfold enabledCodes cachedCodes
  rw [if_pos hredis]
  refine Does.op trivial fun w cached w' l' _ hexec => ?_
  cases hexec
  show Does env licenceNote _ _ _ _ .start [tx] _
  split
  · exact ⟨tx, rfl, hw, hp⟩
  · exact hcompute

/-- The flag that a toggle saves is a flag whose expiry does not pass. -/
theorem saveLicense_does {α : Type} {Q : LicenceRecord → List Tx → α → Prop} {tx : Tx} {s : Session}
    {moduleId : Uuid} {found : Option TenantModule} {enabled : Bool} {f : Unit → M α}
    (hw : tx.writes = []) (hp : tx.pending = [])
    (h : ∀ tx : Tx, tx.pending = [] → (∀ x ∈ tx.writes, FlagWrite env t₀ x) →
      Does env licenceNote (fun _ => Lasting env t₀) (LicenceAllowed env t₀ T) Q
        (fun _ l _ => ∃ tx, l = [tx]) .start [tx] (f ())) :
    Does env licenceNote (fun _ => Lasting env t₀) (LicenceAllowed env t₀ T) Q
      (fun _ l _ => ∃ tx, l = [tx]) .start [tx]
      (saveLicense s T moduleId found enabled >>= fun _ => flush >>= f) := by
  cases found with
  | none =>
    simp only [saveLicense, bind_assoc]
    refine Does.op trivial fun w now w' l' _ hexec => ?_
    cases hexec
    refine Does.op trivial fun w₁ id w' l' _ hexec => ?_
    cases hexec
    refine Does.op trivial fun w₂ u w' l' _ hexec => ?_
    cases hexec
    set row : TenantModule := ⟨w₁.nextUuid, T, moduleId, enabled,
      if enabled = true then some (env.clock w.ticks) else none, none⟩ with hrow
    have hpending : (withPending tx ⟨.tenantModules, row⟩).pending = [⟨.tenantModules, row⟩] := by
      simp [withPending, hp]
    show Does env licenceNote _ _ _ _ .start [withPending tx ⟨.tenantModules, row⟩] (flush >>= f)
    refine Does.flush_one hpending ⟨trivial, fun _ => rfl⟩ trivial (fun w₃ _ hins => ?_)
      fun _ _ _ _ => ⟨_, rfl⟩
    refine h _ rfl fun x hx => ?_
    have hwrites : x ∈ tx.writes ++ [inserting ⟨.tenantModules, row⟩] := hx
    rw [hw, List.nil_append, List.mem_singleton] at hwrites
    exact ⟨row, .inl hwrites, fun e he => (by cases he)⟩
  | some tm =>
    simp only [saveLicense, bind_assoc]
    refine Does.op trivial fun w now w' l' _ hexec => ?_
    cases hexec
    show Does env licenceNote _ _ _ _ .start [tx] _
    refine Does.updateRow trivial (fun w₁ old hlast₁ htarget _ => ?_) fun _ _ _ _ _ => ⟨tx, rfl⟩
    refine Does.flush_nil (by rw [Tx.push_pending, hp]) ⟨trivial, fun _ => rfl⟩ ?_
    refine h _ (by rw [Tx.push_pending, hp]) fun x hx => ?_
    rw [Tx.push_writes, hw, List.nil_append, List.mem_singleton] at hx
    have hold : old ∈ w₁.db .tenantModules := by
      have hmem := (target_some htarget).1
      rw [view_nil schema _ hw] at hmem
      exact hmem
    exact ⟨_, .inr ⟨_, hx⟩, fun e he => hlast₁.steady old hold e he⟩

/-- A toggle looks up the module and the tenant's flag, saves the flag and drops the entry. -/
theorem setLicense_does (hredis : env.settings.hasRedis = true) {tx : Tx} {s : Session}
    {code : ModuleCode} {enabled : Bool} (hw : tx.writes = []) (hp : tx.pending = []) :
    Does env licenceNote (fun _ => Lasting env t₀) (LicenceAllowed env t₀ T)
      (fun q l _ => ∃ tx, l = [tx] ∧ tx.pending = [] ∧ q = .dropped ∧
        ∀ x ∈ tx.writes, FlagWrite env t₀ x)
      (fun _ l _ => ∃ tx, l = [tx]) .start [tx] (setLicense env s T code enabled) := by
  have hscalar : ∀ {α : Type} (rows : List α) (r : Option α → M Unit),
      (∀ a, Does env licenceNote (fun _ => Lasting env t₀) (LicenceAllowed env t₀ T)
        (fun q l _ => ∃ tx, l = [tx] ∧ tx.pending = [] ∧ q = .dropped ∧
          ∀ x ∈ tx.writes, FlagWrite env t₀ x)
        (fun _ l _ => ∃ tx, l = [tx]) .start [tx] (r a)) →
      Does env licenceNote (fun _ => Lasting env t₀) (LicenceAllowed env t₀ T)
        (fun q l _ => ∃ tx, l = [tx] ∧ tx.pending = [] ∧ q = .dropped ∧
          ∀ x ∈ tx.writes, FlagWrite env t₀ x)
        (fun _ l _ => ∃ tx, l = [tx]) .start [tx] (scalarOneOrNone rows >>= r) := by
    intro α rows r h
    match rows with
    | [] => exact h none
    | [a] => exact h (some a)
    | _ :: _ :: _ => exact ⟨tx, rfl⟩
  unfold setLicense
  refine Does.op trivial fun w ms w' l' _ hexec => ?_
  cases hexec
  show Does env licenceNote _ _ _ _ .start [tx] _
  refine hscalar _ _ fun m => ?_
  cases m with
  | none => exact ⟨tx, rfl⟩
  | some m =>
    refine Does.op trivial fun w₁ tms w' l' _ hexec => ?_
    cases hexec
    show Does env licenceNote _ _ _ _ .start [tx] _
    refine hscalar _ _ fun found => ?_
    refine saveLicense_does hw hp fun tx' hp' hw' => ?_
    rw [invalidate, if_pos hredis]
    exact ⟨rfl, fun w₂ _ => ⟨tx', rfl, hp', rfl, hw'⟩⟩

/-- What each task does, from its start to its end. -/
theorem program_does (hredis : env.settings.hasRedis = true) (task : LicenceTask) :
    Does env licenceNote (fun _ => Lasting env t₀) (LicenceAllowed env t₀ T) (fun _ _ _ => True)
      (fun _ _ _ => True) .start [] (task.program env T) := by
  cases task with
  | check rc =>
    rw [LicenceTask.program, ← bind_pure (getDb env (some rc) fun _ => enabledCodes env T)]
    refine Does.getDb licence_starts (fun s => check_does hredis rfl rfl) ?_ ?_
    · rintro q l codes ⟨tx, rfl, hw, hp⟩
      exact licence_commit hp (.inl hw) trivial
    · rintro q l e ⟨tx, rfl⟩
      exact licence_rollback
  | toggle code enabled =>
    rw [LicenceTask.program, setModule]
    by_cases hcore : code = .auth ∧ enabled = false
    · rw [if_pos hcore]
      trivial
    · rw [if_neg hcore]
      refine Does.tenantSession
        (R := fun q l _ => ∃ tx, l = [tx] ∧ tx.pending = [] ∧ q = .dropped ∧
          ∀ x ∈ tx.writes, FlagWrite env t₀ x)
        (F := fun _ l _ => ∃ tx, l = [tx]) licence_starts (fun s => ?_) ?_ ?_
      · refine Does.op trivial fun w tenants w' l' _ hexec => ?_
        cases hexec
        split
        · exact ⟨_, rfl⟩
        · exact setLicense_does hredis rfl rfl
      · rintro q l u ⟨tx, rfl, hp, rfl, hw⟩
        exact licence_commit hp (.inr ⟨rfl, hw⟩) trivial
      · rintro q l e ⟨tx, rfl⟩
        exact licence_rollback

end Tasks

/-! ## Every state of a run -/

/-- What a live task's record says about the world. -/
def LicenceRecord.Agrees (env : Env) (t₀ : Nat) (T : Uuid) (w : World) : LicenceRecord → Prop
  | .first codes => codes = enabledFlags w.db T
  | .second codes lapsed => codes = enabledFlags w.db T ∧
    ∃ i, t₀ ≤ i ∧ lapsed = lapsedFlags w.db T (env.clock i)
  | .dropped => w.redis (.enabled T) = none
  | _ => True

/-- No licence lapses, the cache is coherent, and what the live tasks have read or dropped
is still so. -/
structure LicenceInv (env : Env) (t₀ : Nat) (T : Uuid)
    (P : Crowd (List String) LicenceRecord ι) : Prop where
  lasting : Lasting env t₀ P.world
  coherent : Coherent env T P.world
  agrees : ∀ i, (P.thread i).prog ≠ none → (P.thread i).seen.Agrees env t₀ T P.world

section Runs

variable {t₀ : Nat} {P : Crowd (List String) LicenceRecord ι}

/-- Time that passes keeps a coherent cache coherent: what is still cached was cached before. -/
theorem Coherent.later (henv : env.Lawful) {w w' : World} (hdb : w'.db = w.db)
    (hredis : w'.redis = w.redis) (hticks : w.ticks ≤ w'.ticks) (hlast : Lasting env t₀ w)
    (h : Coherent env T w) : Coherent env T w' := by
  intro cs hcs code
  have hbefore : cachedIn env w T = some (.codes cs) := by
    unfold cachedIn World.redisAt at hcs ⊢
    by_cases hon : env.settings.hasRedis = true
    · rw [if_pos hon, Option.map_eq_some_iff] at hcs ⊢
      obtain ⟨e, he, hvalue⟩ := hcs
      rw [hredis, Option.filter_eq_some_iff] at he
      refine ⟨e, Option.filter_eq_some_iff.mpr ⟨he.1, ?_⟩, hvalue⟩
      have hle := henv.clock_mono _ _ hticks
      have hlive := he.2
      unfold RedisEntry.live at hlive ⊢
      cases hexp : e.expiresAt with
      | none => rfl
      | some t =>
        rw [hexp, decide_eq_true_iff] at hlive
        exact decide_eq_true (hle.trans_lt hlive)
    · rw [if_neg hon] at hcs
      cases hcs
  rw [h cs hbefore code, hdb]
  exact hlast.entitled hlast.ticks (hlast.ticks.trans hticks) code

theorem Lasting.later {w w' : World} (hdb : w'.db = w.db) (hticks : w.ticks ≤ w'.ticks)
    (h : Lasting env t₀ w) : Lasting env t₀ w' :=
  ⟨h.ticks.trans hticks, by rw [hdb]; exact h.steady⟩

/-- Without an entry the cache is coherent. -/
theorem Coherent.of_none {w : World} (h : w.redis (.enabled T) = none) : Coherent env T w := by
  intro cs hcs
  unfold cachedIn World.redisAt at hcs
  rw [h] at hcs
  by_cases hon : env.settings.hasRedis = true
  · rw [if_pos hon] at hcs
    cases hcs
  · rw [if_neg hon] at hcs
    cases hcs

theorem LicenceRecord.Agrees.congr {w w' : World} {q : LicenceRecord} (hdb : w'.db = w.db)
    (hredis : w'.redis = w.redis) (h : q.Agrees env t₀ T w) : q.Agrees env t₀ T w' := by
  unfold LicenceRecord.Agrees at h ⊢
  rw [hdb, hredis]
  exact h

/-- The invariant after an operation, from what the operation did to the world. -/
theorem LicenceInv.act_of {i : ι} {o : Op} {k : o.Ans → M (List String)} {w' : World}
    {q' : LicenceRecord} (h : LicenceInv env t₀ T P)
    (hworld : (P.act (machine env licenceNote) i o k).world = w')
    (hseen : ((P.act (machine env licenceNote) i o k).thread i).seen = q')
    (hlast : Lasting env t₀ w') (hcoh : Coherent env T w') (hself : q'.Agrees env t₀ T w')
    (hothers : ∀ j, j ≠ i → (P.thread j).prog ≠ none → (P.thread j).seen.Agrees env t₀ T P.world →
      (P.thread j).seen.Agrees env t₀ T w') :
    LicenceInv env t₀ T (P.act (machine env licenceNote) i o k) := by
  refine ⟨hworld ▸ hlast, hworld ▸ hcoh, fun j hlive => ?_⟩
  rw [hworld]
  by_cases hij : j = i
  · subst hij
    rw [hseen]
    exact hself
  · rw [Pool.act_other hij] at hlive ⊢
    exact hothers j hij hlive (h.agrees j hlive)

/-- An operation that changes neither rows nor cache. -/
theorem LicenceInv.act_still (henv : env.Lawful) {i : ι} {o : Op} {k : o.Ans → M (List String)}
    {w' : World} {q' : LicenceRecord} (h : LicenceInv env t₀ T P)
    (hworld : (P.act (machine env licenceNote) i o k).world = w')
    (hseen : ((P.act (machine env licenceNote) i o k).thread i).seen = q')
    (hdb : w'.db = P.world.db) (hredis : w'.redis = P.world.redis)
    (hticks : P.world.ticks ≤ w'.ticks) (hself : q'.Agrees env t₀ T P.world) :
    LicenceInv env t₀ T (P.act (machine env licenceNote) i o k) :=
  h.act_of hworld hseen (h.lasting.later hdb hticks)
    (h.coherent.later henv hdb hredis hticks h.lasting) (hself.congr hdb hredis)
    fun _ _ _ hj => hj.congr hdb hredis

/-- A query of `_compute_enabled` outside of any write answers the committed flags. -/
theorem join_flags {w : World} {tx : Tx} (htx : tx.writes = []) (p : Module → TenantModule → Bool) :
    ((exec env (.db (.join .modules .tenantModules (flagCondition T p))) (w, [tx])).1.map
      fun x => x.1.code) = joinedCodesIn w.db T p := by
  show ((joined (seen w tx) .modules .tenantModules (flagCondition T p)).map fun x => x.1.code) = _
  unfold joined joinedCodesIn flagCondition
  rw [seen_platform (by decide) htx, seen_platform (by decide) htx]
  rfl

/-- The world with this entry in the tenant's cache. -/
def World.cacheEnabled (w : World) (T : Uuid) (e : RedisEntry) : World :=
  { w with redis := Function.update w.redis (.enabled T) (some e) }

/-- What is cached right after a set was cached. -/
theorem cachedIn_set {w : World} {codes cs : List String} {e : Option Time}
    (hcached : cachedIn env (w.cacheEnabled T ⟨.codes codes, e⟩) T = some (.codes cs)) :
    cs = codes := by
  unfold cachedIn World.redisAt at hcached
  by_cases hon : env.settings.hasRedis = true
  · rw [if_pos hon, Option.map_eq_some_iff] at hcached
    obtain ⟨entry, hentry, hvalue⟩ := hcached
    have hset : (w.cacheEnabled T ⟨.codes codes, e⟩).redis (.enabled T) =
        some ⟨.codes codes, e⟩ := Function.update_self _ _ _
    have hsome := hset.symm.trans (Option.filter_eq_some_iff.mp hentry).1
    cases hsome
    cases hvalue
    rfl
  · rw [if_neg hon] at hcached
    cases hcached

/-- The flags that a toggle commits do not lapse either. -/
theorem Lasting.committed {w : World} {tx : Tx} (h : Lasting env t₀ w)
    (hw : ∀ x ∈ tx.writes, FlagWrite env t₀ x) :
    Lasting env t₀ { w with db := view schema w.db tx } := by
  refine ⟨h.ticks, ?_⟩
  show ∀ tm ∈ tx.writes.foldl (Write.apply schema) w.db .tenantModules, _
  have hsteady := h.steady
  revert hsteady hw
  generalize tx.writes = xs
  generalize w.db = db
  intro hw hsteady
  induction xs generalizing db with
  | nil => exact hsteady
  | cons x xs ih =>
    rw [List.foldl_cons]
    refine ih _ (fun y hy => hw y (List.mem_cons_of_mem x hy)) ?_
    obtain ⟨row, hx, hrow⟩ := hw x List.mem_cons_self
    rcases hx with rfl | ⟨key, rfl⟩
    · rw [Write.apply_insert]
      intro tm htm
      rcases List.mem_append.mp htm with htm | htm
      · exact hsteady tm htm
      · rw [List.mem_singleton.mp htm]
        exact hrow
    · rw [Write.apply_update]
      intro tm htm
      obtain ⟨old, hold, rfl⟩ := List.mem_map.mp htm
      by_cases hkey : schema.key .tenantModules old = key
      · rw [if_pos hkey]
        exact hrow
      · rw [if_neg hkey]
        exact hsteady old hold

/-- **One step** of a task keeps the invariant. -/
theorem LicenceInv.act (henv : env.Lawful) {i : ι} {o : Op} {k : o.Ans → M (List String)}
    (h : LicenceInv env t₀ T P) (hok : Undisturbed P i (some o))
    (hprog : (P.thread i).prog = some (.call o k))
    (hallow : LicenceAllowed env t₀ T (P.thread i).seen (P.thread i).loc o) :
    LicenceInv env t₀ T (P.act (machine env licenceNote) i o k) := by
  have hlive : (P.thread i).prog ≠ none := by
    rw [hprog]
    exact Option.some_ne_none _
  have hself := h.agrees i hlive
  have hseen : ((P.act (machine env licenceNote) i o k).thread i).seen =
      licenceNote (P.thread i).seen (P.thread i).loc o
        (exec env o (P.world, (P.thread i).loc)).1 :=
    congrArg Thread.seen Pool.act_self
  cases o with
  | db o =>
    have hworld : o ≠ .commit → (P.act (machine env licenceNote) i (.db o) k).world = P.world :=
      fun hne => @exec_db_world env o hne _ _
    have hkept : o ≠ .commit → (∀ q l a, licenceNote q l (.db o) a = q) →
        LicenceInv env t₀ T (P.act (machine env licenceNote) i (.db o) k) :=
      fun hne hnote => h.act_still henv (hworld hne) (hseen.trans (hnote _ _ _)) rfl rfl
        (le_refl _) hself
    have hends : o = .commit ∨ o = .rollback → ∀ q l a, licenceNote q l (.db o) a = .ended := by
      rintro (rfl | rfl) q l a <;> cases q <;> rfl
    cases o with
    | commit =>
      obtain ⟨tx, hloc, hwrites⟩ := hallow
      have hdb : (P.act (machine env licenceNote) i (.db .commit) k).world =
          { P.world with db := view schema P.world.db tx } := by
        show (exec env (.db .commit) (P.world, (P.thread i).loc)).2.1 = _
        rw [hloc]
        rfl
      rcases hwrites with hw | ⟨hdropped, hw⟩
      · rw [view_nil schema _ hw] at hdb
        exact h.act_still henv hdb (hseen.trans (hends (.inl rfl) _ _ _)) rfl rfl (le_refl _) trivial
      · -- nothing is cached, and no live check has read the flags before the commit
        rw [hdropped] at hself
        refine h.act_of hdb (hseen.trans (hends (.inl rfl) _ _ _)) (h.lasting.committed hw)
          (Coherent.of_none hself) trivial fun j _ hj hagrees => ?_
        have hidle := hok hdropped j hj
        cases hq : (P.thread j).seen with
        | first codes => exact absurd (hq ▸ trivial) hidle
        | second codes lapsed => exact absurd (hq ▸ trivial) hidle
        | dropped => exact hself
        | start => trivial
        | ended => trivial
    | join t₁ t₂ p =>
      obtain ⟨p', hjoin, ⟨tx, hloc, hw⟩, hquery⟩ := hallow
      cases hjoin
      rw [hloc] at hseen
      rcases hquery with ⟨hstart, rfl⟩ | ⟨codes, j, hfirst, hj, rfl⟩
      · rw [hstart] at hseen
        exact h.act_still henv (hworld (by rintro ⟨⟩)) hseen rfl rfl (le_refl _) (join_flags hw _)
      · rw [hfirst] at hself hseen
        exact h.act_still henv (hworld (by rintro ⟨⟩)) hseen rfl rfl (le_refl _)
          ⟨hself, j, hj, join_flags hw _⟩
    | rollback =>
      exact h.act_still henv (hworld (by rintro ⟨⟩)) (hseen.trans (hends (.inr rfl) _ _ _)) rfl rfl
        (le_refl _) trivial
    | _ => exact hkept (by rintro ⟨⟩) fun q l a => by cases q <;> rfl
  | redisSet key v ttl =>
    -- no toggle is waiting to commit, so what the check has read is what is committed
    obtain ⟨codes, lapsed, hread, rfl, rfl⟩ := hallow
    rw [hread] at hself hseen
    obtain ⟨hcodes, j, hj, hlapsed⟩ := hself
    set v : RedisValue := .codes (sortedSet (codes.filter (· ∉ lapsed) ++
      coreModuleCodes.map (·.value))) with hv
    have hworld : (P.act (machine env licenceNote) i (.redisSet (.enabled T) v ttl) k).world =
        P.world.cacheEnabled T ⟨v, some (env.clock P.world.ticks + ttl)⟩ := rfl
    refine h.act_of hworld hseen ⟨h.lasting.ticks, h.lasting.steady⟩ ?_ trivial
      fun j _ hj hagrees => ?_
    · intro cs hcs code
      obtain rfl := cachedIn_set hcs
      rw [mem_sortedSet, hcodes, hlapsed]
      exact h.lasting.entitled hj h.lasting.ticks code
    · have hnot := hok j hj
      cases hq : (P.thread j).seen with
      | dropped => exact absurd hq hnot
      | first codes => exact (hq ▸ hagrees : LicenceRecord.Agrees env t₀ T P.world (.first codes))
      | second codes lapsed =>
        exact (hq ▸ hagrees : LicenceRecord.Agrees env t₀ T P.world (.second codes lapsed))
      | start => trivial
      | ended => trivial
  | redisDelete key =>
    obtain rfl : key = .enabled T := hallow
    have hworld : (P.act (machine env licenceNote) i (.redisDelete (.enabled T)) k).world =
        { P.world with redis := Function.update P.world.redis (.enabled T) none } := rfl
    have hnote : ∀ q l a, licenceNote q l (.redisDelete (.enabled T)) a = .dropped :=
      fun q l a => by cases q <;> rfl
    have hnone : Function.update P.world.redis (.enabled T) none (.enabled T) = none :=
      Function.update_self _ _ _
    refine h.act_of hworld (hseen.trans (hnote _ _ _)) ⟨h.lasting.ticks, h.lasting.steady⟩
      (Coherent.of_none hnone) hnone fun j _ _ hagrees => ?_
    cases hq : (P.thread j).seen with
    | dropped => exact hnone
    | first codes => exact (hq ▸ hagrees : LicenceRecord.Agrees env t₀ T P.world (.first codes))
    | second codes lapsed =>
      exact (hq ▸ hagrees : LicenceRecord.Agrees env t₀ T P.world (.second codes lapsed))
    | start => trivial
    | ended => trivial
  | now =>
    have hnote : ∀ q l a, licenceNote q l .now a = q := fun q l a => by cases q <;> rfl
    exact h.act_still henv rfl (hseen.trans (hnote _ _ _)) rfl rfl (Nat.le_succ _) hself
  | uuid4 =>
    have hnote : ∀ q l a, licenceNote q l .uuid4 a = q := fun q l a => by cases q <;> rfl
    exact h.act_still henv rfl (hseen.trans (hnote _ _ _)) rfl rfl (le_refl _) hself
  | redisGet key =>
    have hnote : ∀ q l a, licenceNote q l (.redisGet key) a = q := fun q l a => by cases q <;> rfl
    exact h.act_still henv rfl (hseen.trans (hnote _ _ _)) rfl rfl (le_refl _) hself
  | _ => exact hallow.elim

theorem LicenceInv.cut (h : LicenceInv env t₀ T P) (i : ι) :
    LicenceInv env t₀ T (P.cut (machine env licenceNote) i) := by
  refine ⟨h.lasting, h.coherent, fun j hlive => ?_⟩
  by_cases hij : j = i
  · subst hij
    rw [Pool.cut_self] at hlive
    exact absurd rfl hlive
  · rw [Pool.cut_other hij] at hlive ⊢
    exact h.agrees j hlive

end Runs

/-- **Coherence of the licensing cache**: in every state of an undisturbed run of checks and
toggles, during which no licence lapses, the tenant's cache entry is absent or says what the
committed rows say, and so does `tenant_has_module`. -/
theorem licences_coherent (henv : env.Lawful) {w₀ : World} (tasks : ι → LicenceTask)
    (hlast : Lasting env w₀.ticks w₀) (hcoh : Coherent env T w₀)
    {P : Crowd (List String) LicenceRecord ι}
    (hrun : Reach (machine env licenceNote) Undisturbed
      (crowd w₀ .start fun i => (tasks i).program env T) P) :
    Coherent env T P.world ∧ ∀ code, hasModule env P.world T code ↔
      code ∈ coreModuleCodes ∨ code.value ∈ entitledIn P.world.db T (env.clock P.world.ticks) := by
  have hcoherent : Coherent env T P.world := by
    by_cases hredis : env.settings.hasRedis = true
    · have horderly : Orderly (machine env licenceNote) (fun _ => Lasting env w₀.ticks)
          (fun _ => LicenceAllowed env w₀.ticks T) (fun _ _ _ _ => True) (fun _ _ _ _ => True)
          (crowd w₀ .start fun i => (tasks i).program env T) := by
        intro i p hp
        cases hp
        exact program_does hredis (tasks i)
      have hstart : LicenceInv env w₀.ticks T
          (crowd w₀ .start fun i => (tasks i).program env T) :=
        ⟨hlast, hcoh, fun _ _ => trivial⟩
      exact (hrun.invariant (fun _ h _ => h.lasting) hstart horderly
        (fun P i o k h _ hok hprog hallow _ => h.act henv hok hprog hallow)
        fun P i h _ _ _ => h.cut i).1.coherent
    · intro cs hcs
      rw [cachedIn, if_neg hredis] at hcs
      cases hcs
  refine ⟨hcoherent, fun code => or_congr_right ?_⟩
  by_cases hcached : ∃ cs, cachedIn env P.world T = some (.codes cs)
  · obtain ⟨cs, hcs⟩ := hcached
    rw [enabledIn_eq, hcs]
    exact hcoherent cs hcs code.value
  · rw [enabledIn_uncached fun cs hcs => hcached ⟨cs, hcs⟩]

/-- A tenant that has the courses. -/
def licensedWorld : World := World.fresh 100 fun
  | .tenants => [{ id := 1, name := "ABC Academy", slug := "abc-academy" }]
  | .modules => [{ id := 2, code := "COURSES", name := "Course catalog & enrollment" }]
  | .tenantModules => [{ id := 3, tenantId := 1, moduleId := 2 }]
  | _ => []

theorem licensedWorld_lasting (env : Env) : Lasting env licensedWorld.ticks licensedWorld := by
  refine ⟨le_refl _, fun tm htm e he => ?_⟩
  rw [List.mem_singleton.mp htm] at he
  cases he

/-- A platform with Redis. -/
abbrev cachingEnv : Env := Env.reference { redisUrl := some "redis://redis:6379/0" }

/-- A check of the tenant's modules, and a toggle that switches the courses off. -/
def licenceRace : Fin 2 → LicenceTask
  | 0 => .check { requestId := "r", tenantId := some 1 }
  | 1 => .toggle .courses false

/-- The check runs within the toggle before it drops the entry. -/
theorem licences_coherent_raced : ∃ P : Crowd (List String) LicenceRecord (Fin 2),
    (∀ i, (P.thread i).result.isSome) ∧ Coherent cachingEnv 1 P.world := by
  obtain ⟨P, hrun, hdone⟩ : ∃ P, Reach (machine cachingEnv licenceNote) Undisturbed
      (crowd licensedWorld .start fun i => (licenceRace i).program cachingEnv 1) P ∧
      ∀ i, (P.thread i).result.isSome :=
    Reach.of_play (List.replicate 6 1 ++ List.replicate 11 0 ++ List.replicate 6 1)
      (by decide +kernel)
  have hcoherent := licences_coherent (reference_lawful _) licenceRace (licensedWorld_lasting _)
    (Coherent.of_none rfl) hrun
  exact ⟨P, hdone, hcoherent.1⟩

/-- The check reads both queries, the toggle writes and drops the entry, the check caches
what it has read, and the toggle commits: the cache has the courses, the rows do not. -/
theorem licence_cache_stale : Lasting cachingEnv licensedWorld.ticks licensedWorld ∧
    Coherent cachingEnv 1 licensedWorld ∧
    ∃ P : Crowd (List String) LicenceRecord (Fin 2),
      Reach (machine cachingEnv licenceNote) (fun _ _ _ => True)
        (crowd licensedWorld .start fun i => (licenceRace i).program cachingEnv 1) P ∧
      (∀ i, (P.thread i).result.isSome) ∧ hasModule cachingEnv P.world 1 .courses ∧
      "COURSES" ∉ entitledIn P.world.db 1 (cachingEnv.clock P.world.ticks) :=
  ⟨licensedWorld_lasting _, Coherent.of_none rfl,
    Reach.of_play (List.replicate 8 0 ++ List.replicate 10 1 ++ List.replicate 3 0 ++
      List.replicate 2 1) (by decide +kernel)⟩

end LmsBackend
