import LmsBackend.Core.Platform
import LmsBackend.RateLimit.Steps

/-!
# Counters that do not expire

Any number of rate-limited requests, interleaved and cut off at any point. A counter is
created by `INCR` and gets its expiry by the `EXPIRE` of the call that created it.

- `KeysInv`: a counter expires within its window, or the call that is to say so is alive.
- `rate_keys_expire`: if no call is cut off before its `EXPIRE`, every counter of a
  quiescent state expires within its window, and a client is then admitted again.
- `rate_key_stays`: a call that is cut off there leaves a counter for ever.
-/

namespace LmsBackend

open Mvcc Interleave

variable {env : Env} {ι : Type} [DecidableEq ι] {spec : String → Nat × Nat} {w : World}

/-- A rate-limited request of a route, or another program, which leaves the counters alone. -/
inductive LimitTask
  | limited (path : String) (rc : RequestContext)
  | other (p : M Unit) (spares : ∀ path identity, KeepsOff (.rate path identity) p)

/-- The program of a task, with the limit of each route. -/
def LimitTask.program (env : Env) (spec : String → Nat × Nat) : LimitTask → M Unit
  | .limited path rc => rateLimit env (spec path) path rc
  | .other p _ => p

/-- What the requests run on; nothing is recorded of them. -/
abbrev plainly (env : Env) : Machine Op Op.Ans World (List Tx) Unit :=
  machine env fun _ _ _ _ => ()

/-- The counter expires within a window from now. -/
def ExpiresWithin (now : Time) (seconds : Nat) (e : RedisEntry) : Prop :=
  ∃ x, e.expiresAt = some x ∧ x ≤ now + seconds

/-- Every counter of the world expires within its route's window. -/
def CountersExpire (env : Env) (spec : String → Nat × Nat) (w : World) : Prop :=
  ∀ path identity e, w.redis (.rate path identity) = some e →
    ExpiresWithin (env.clock w.ticks) (spec path).2 e

/-- What holds between any two steps. -/
structure KeysInv (env : Env) (spec : String → Nat × Nat) (tasks : ι → LimitTask)
    (P : Crowd Unit Unit ι) : Prop where
  phase : ∀ i path rc, tasks i = .limited path rc →
    ∃ c, Phase (spec path) (.rate path (rateIdentity rc)) c (P.thread i).prog
  other : ∀ i p h, tasks i = .other p h → ∀ p', (P.thread i).prog = some p' →
    ∀ path identity, KeepsOff (.rate path identity) p'
  keys : ∀ path identity e, P.world.redis (.rate path identity) = some e →
    ExpiresWithin (env.clock P.world.ticks) (spec path).2 e ∨
      ∃ i rc, tasks i = .limited path rc ∧ rateIdentity rc = identity ∧
        Expiring (P.thread i).prog

theorem incr_expiresAt (e : RedisEntry) : (RedisEntry.incr (some e)).expiresAt = e.expiresAt := by
  obtain ⟨v, x⟩ := e
  cases v <;> rfl

theorem ExpiresWithin.later {now now' : Time} {seconds : Nat} {e : RedisEntry}
    (h : ExpiresWithin now seconds e) (hle : now ≤ now') : ExpiresWithin now' seconds e := by
  obtain ⟨x, hx, hbound⟩ := h
  exact ⟨x, hx, hbound.trans (Nat.add_le_add_right hle _)⟩

omit [DecidableEq ι] in
theorem keysInv_start {tasks : ι → LimitTask} (hstart : CountersExpire env spec w) :
    KeysInv env spec tasks (crowd w () fun i => (tasks i).program env spec) where
  phase i path rc htask := by
    show ∃ c, Phase _ _ c (some ((tasks i).program env spec))
    rw [htask, LimitTask.program]
    by_cases hon : env.settings.rateLimitEnabled = true ∧ env.settings.hasRedis = true
    · rw [rateLimit_steps hon.1 hon.2]
      exact ⟨none, .ask⟩
    · rw [rateLimit_off hon]
      exact ⟨some 0, .admitted 0 (Nat.zero_le _)⟩
  other i p h htask p' hp' := by
    have hprog : some ((tasks i).program env spec) = some p' := hp'
    rw [htask] at hprog
    cases hprog
    exact h
  keys path identity e he := .inl (hstart path identity e he)

section Steps

variable {tasks : ι → LimitTask} {P : Crowd Unit Unit ι} {i j : ι} {o : Op} {k : o.Ans → M Unit}

/-- The counters after an operation of a task `i`: `hkeys` says what the operation does to
them, given that a call that is about to set an expiry is another one than `i`. -/
theorem keysInv_of (hinv : KeysInv env spec tasks P)
    (hphase : ∀ path rc, tasks i = .limited path rc →
      ∃ c, Phase (spec path) (.rate path (rateIdentity rc)) c
        (some (k (exec env o (P.world, (P.thread i).loc)).1)))
    (hother : ∀ p h, tasks i = .other p h → ∀ path identity, KeepsOff (.rate path identity)
      (k (exec env o (P.world, (P.thread i).loc)).1))
    (hkeys : ∀ path identity e,
      (exec env o (P.world, (P.thread i).loc)).2.1.redis (.rate path identity) = some e →
      ExpiresWithin (env.clock (exec env o (P.world, (P.thread i).loc)).2.1.ticks) (spec path).2 e ∨
      (∃ rc, tasks i = .limited path rc ∧ rateIdentity rc = identity ∧
        Expiring (some (k (exec env o (P.world, (P.thread i).loc)).1))) ∨
      ∃ j rc, j ≠ i ∧ tasks j = .limited path rc ∧ rateIdentity rc = identity ∧
        Expiring (P.thread j).prog) :
    KeysInv env spec tasks (P.act (plainly env) i o k) := by
  have hself : ((P.act (plainly env) i o k).thread i).prog =
      some (k (exec env o (P.world, (P.thread i).loc)).1) := by
    rw [Pool.act_self]
    rfl
  have hrest : ∀ {j}, j ≠ i → (P.act (plainly env) i o k).thread j = P.thread j :=
    fun hij => Pool.act_other hij
  constructor
  · intro j path rc htask
    by_cases hij : j = i
    · subst hij
      rw [hself]
      exact hphase path rc htask
    · rw [hrest hij]
      exact hinv.phase j path rc htask
  · intro j p h htask p' hp'
    by_cases hij : j = i
    · subst hij
      rw [hself] at hp'
      cases hp'
      exact hother p h htask
    · rw [hrest hij] at hp'
      exact hinv.other j p h htask p' hp'
  · intro path identity e he
    rcases hkeys path identity e he with hexp | ⟨rc, htask, hid, hexp⟩ | ⟨j, rc, hij, htask, hid, hexp⟩
    · exact .inl hexp
    · refine .inr ⟨i, rc, htask, hid, ?_⟩
      rw [hself]
      exact hexp
    · refine .inr ⟨j, rc, htask, hid, ?_⟩
      rw [hrest hij]
      exact hexp

omit [DecidableEq ι] in
/-- A counter that the operation of a task leaves alone, the task not being about to set
its expiry. -/
theorem keys_spared (hlaw : env.Lawful) (hinv : KeysInv env spec tasks P) {path identity : String}
    {e : RedisEntry}
    (hsame : (exec env o (P.world, (P.thread i).loc)).2.1.redis (.rate path identity) =
      P.world.redis (.rate path identity))
    (hi : ∀ rc, tasks i = .limited path rc → rateIdentity rc = identity →
      ¬ Expiring (P.thread i).prog)
    (he : (exec env o (P.world, (P.thread i).loc)).2.1.redis (.rate path identity) = some e) :
    ExpiresWithin (env.clock (exec env o (P.world, (P.thread i).loc)).2.1.ticks) (spec path).2 e ∨
      ∃ j rc, j ≠ i ∧ tasks j = .limited path rc ∧ rateIdentity rc = identity ∧
        Expiring (P.thread j).prog := by
  rw [hsame] at he
  rcases hinv.keys path identity e he with hexp | ⟨j, rc, htask, hid, hexp⟩
  · exact .inl (hexp.later (hlaw.clock_mono _ _ (exec_older o _ _).ticks))
  · refine .inr ⟨j, rc, ?_, htask, hid, hexp⟩
    rintro rfl
    exact hi rc htask hid hexp

/-- **Step**: every operation of a task keeps the invariant. -/
theorem keysInv_act (hlaw : env.Lawful) (hinv : KeysInv env spec tasks P)
    (hprog : (P.thread i).prog = some (.call o k)) :
    KeysInv env spec tasks (P.act (plainly env) i o k) := by
  cases htask : tasks i with
  | other p h =>
    have hspares := hinv.other i p h htask _ hprog
    have hnot : ∀ {path rc} {R : Prop}, tasks i = .limited path rc → R := by
      intro path rc R htask'
      rw [htask] at htask'
      cases htask'
    refine keysInv_of hinv (fun path rc htask' => hnot htask') ?_ ?_
    · intro p' h' _ path identity
      exact (hspares path identity).2 _ trivial
    · intro path identity e he
      have hsame := @exec_spares env _ o (hspares path identity).1 P.world (P.thread i).loc
      rcases keys_spared hlaw hinv hsame (fun rc htask' _ => hnot htask') he with hexp | hj
      · exact .inl hexp
      · exact .inr (.inr hj)
  | limited path rc =>
    obtain ⟨c, hphase⟩ := hinv.phase i path rc htask
    have hnot : ∀ {p h} {R : Prop}, tasks i = .other p h → R := by
      intro p h R htask'
      rw [htask] at htask'
      cases htask'
    have hsame : ∀ {path' rc'}, tasks i = .limited path' rc' → path' = path ∧ rc' = rc := by
      intro path' rc' htask'
      rw [htask] at htask'
      cases htask'
      exact ⟨rfl, rfl⟩
    rw [hprog] at hphase
    cases hphase with
    | ask =>
      have hask : ¬ Expiring (P.thread i).prog := by
        rw [hprog]
        rintro ⟨key, ttl, f, heq⟩
        cases heq
      refine keysInv_of hinv ?_ (fun p h htask' => hnot htask') ?_
      · intro path' rc' htask'
        obtain ⟨rfl, rfl⟩ := hsame htask'
        exact ⟨_, .of_counted _⟩
      · intro path' identity e he
        by_cases hkey : RedisKey.rate path' identity = .rate path (rateIdentity rc)
        · cases hkey
          cases hlive : P.world.redisAt (env.clock P.world.ticks) (.rate path (rateIdentity rc)) with
          | some e₀ =>
            -- a live counter keeps its expiry
            have hnew : e.expiresAt = e₀.expiresAt := by
              have hupdate : Function.update P.world.redis (.rate path (rateIdentity rc))
                  (some (RedisEntry.incr (P.world.redisAt (env.clock P.world.ticks)
                    (.rate path (rateIdentity rc))))) (.rate path (rateIdentity rc)) = some e := he
              rw [Function.update_self, hlive] at hupdate
              cases hupdate
              exact incr_expiresAt e₀
            rcases hinv.keys _ _ e₀ (redisAt_some hlive).1 with ⟨x, hx, hle⟩ |
              ⟨j, rc', htask', hid, hexp⟩
            · exact .inl ⟨x, hnew.trans hx, hle⟩
            · refine .inr (.inr ⟨j, rc', ?_, htask', hid, hexp⟩)
              rintro rfl
              exact hask hexp
          | none =>
            -- the call that created the counter is to set its expiry
            refine .inr (.inl ⟨rc, htask, rfl, ?_⟩)
            have hone : (exec env (.redisIncr (.rate path (rateIdentity rc)))
                (P.world, (P.thread i).loc)).1 = 1 := by
              show RedisEntry.count (RedisEntry.incr _) = 1
              rw [hlive]
              rfl
            rw [hone]
            exact ⟨_, _, _, rfl⟩
        · have hother : (exec env (.redisIncr (.rate path (rateIdentity rc)))
              (P.world, (P.thread i).loc)).2.1.redis (.rate path' identity) =
              P.world.redis (.rate path' identity) := Function.update_of_ne hkey _ _
          rcases keys_spared hlaw hinv hother (fun _ _ _ => hask) he with hexp | hj
          · exact .inl hexp
          · exact .inr (.inr hj)
    | expire =>
      refine keysInv_of hinv ?_ (fun p h htask' => hnot htask') ?_
      · intro path' rc' htask'
        obtain ⟨rfl, rfl⟩ := hsame htask'
        exact ⟨_, .of_verdict 1⟩
      · intro path' identity e he
        by_cases hkey : RedisKey.rate path' identity = .rate path (rateIdentity rc)
        · cases hkey
          have hupdate : Function.update P.world.redis (.rate path (rateIdentity rc))
              ((P.world.redisAt (env.clock P.world.ticks) (.rate path (rateIdentity rc))).map
                (·.expireAt (env.clock P.world.ticks + (spec path).2)))
              (.rate path (rateIdentity rc)) = some e := he
          rw [Function.update_self, Option.map_eq_some_iff] at hupdate
          obtain ⟨e₀, -, rfl⟩ := hupdate
          exact .inl ⟨_, rfl, le_refl _⟩
        · have hother : (exec env (.redisExpire (.rate path (rateIdentity rc)) (spec path).2)
              (P.world, (P.thread i).loc)).2.1.redis (.rate path' identity) =
              P.world.redis (.rate path' identity) := Function.update_of_ne hkey _ _
          have hmine : ∀ rc', tasks i = .limited path' rc' → rateIdentity rc' = identity →
              ¬ Expiring (P.thread i).prog := by
            intro rc' htask' hid
            obtain ⟨rfl, rfl⟩ := hsame htask'
            exact absurd (congrArg _ hid.symm) hkey
          rcases keys_spared hlaw hinv hother hmine he with hexp | hj
          · exact .inl hexp
          · exact .inr (.inr hj)
    | refuse c hlimit =>
      refine keysInv_of hinv ?_ (fun p h htask' => hnot htask') ?_
      · intro path' rc' htask'
        obtain ⟨rfl, rfl⟩ := hsame htask'
        exact ⟨_, .refused c hlimit _⟩
      · intro path' identity e he
        have hask : ¬ Expiring (P.thread i).prog := by
          rw [hprog]
          rintro ⟨key, ttl, f, heq⟩
          cases heq
        rcases keys_spared hlaw hinv rfl (fun _ _ _ => hask) he with hexp | hj
        · exact .inl hexp
        · exact .inr (.inr hj)

/-- A cut before another step than `EXPIRE` keeps the invariant. -/
theorem keysInv_cut (hinv : KeysInv env spec tasks P) (hok : ¬ Expiring (P.thread i).prog) :
    KeysInv env spec tasks (P.cut (plainly env) i) := by
  have hself : ((P.cut (plainly env) i).thread i).prog = none := by
    rw [Pool.cut_self]
  have hrest : ∀ {j}, j ≠ i → (P.cut (plainly env) i).thread j = P.thread j :=
    fun hij => Pool.cut_other hij
  constructor
  · intro j path rc htask
    by_cases hij : j = i
    · subst hij
      rw [hself]
      exact ⟨none, .gone⟩
    · rw [hrest hij]
      exact hinv.phase j path rc htask
  · intro j p h htask p' hp'
    by_cases hij : j = i
    · subst hij
      rw [hself] at hp'
      cases hp'
    · rw [hrest hij] at hp'
      exact hinv.other j p h htask p' hp'
  · intro path identity e he
    rcases hinv.keys path identity e he with hexp | ⟨j, rc, htask, hid, hexp⟩
    · exact .inl hexp
    · refine .inr ⟨j, rc, htask, hid, ?_⟩
      have hij : j ≠ i := by
        rintro rfl
        exact hok hexp
      rw [hrest hij]
      exact hexp

/-- **Run**: the invariant holds in every state of a run in which every `EXPIRE` runs. -/
theorem keysInv_run (hlaw : env.Lawful) (hstart : CountersExpire env spec w)
    (hrun : Reach (plainly env) ExpireRuns (crowd w () fun i => (tasks i).program env spec) P) :
    KeysInv env spec tasks P := by
  induction hrun with
  | start => exact keysInv_start hstart
  | step reach ok step ih =>
    cases step with
    | act prog free => exact keysInv_act hlaw ih prog
    | cut running => exact keysInv_cut ih ok

end Steps

/-- A client whose counter has expired is admitted. -/
theorem admitted_after {path : String} {rc : RequestContext} {limit : Nat × Nat} {w : World}
    (hexpired : w.redisAt (env.clock w.ticks) (.rate path (rateIdentity rc)) = none)
    (hlimit : 0 < limit.1) (txs : List Tx) :
    (runM env (rateLimit env limit path rc) (w, txs)).1 = .ok () := by
  by_cases hon : env.settings.rateLimitEnabled = true ∧ env.settings.hasRedis = true
  · rw [rateLimit_steps hon.1 hon.2]
    show (runM env (counted limit _ (RedisEntry.count (RedisEntry.incr
      (w.redisAt (env.clock w.ticks) (.rate path (rateIdentity rc)))))) _).1 = _
    rw [hexpired]
    show (runM env (verdict limit _ 1) _).1 = _
    rw [verdict, if_neg (by omega)]
    rfl
  · rw [rateLimit_off hon]
    rfl

/-- **No counter stays for ever** where every `EXPIRE` runs: in a state in which no request
is under way every counter expires within its route's window, and once a window has passed
its client is admitted. -/
theorem rate_keys_expire (hlaw : env.Lawful) {tasks : ι → LimitTask} {P : Crowd Unit Unit ι}
    (hstart : CountersExpire env spec w)
    (hrun : Reach (plainly env) ExpireRuns (crowd w () fun i => (tasks i).program env spec) P)
    (hquiet : ∀ i, ¬ (P.thread i).running) :
    CountersExpire env spec P.world ∧
      ∀ path rc w' txs, w'.redis (.rate path (rateIdentity rc)) =
          P.world.redis (.rate path (rateIdentity rc)) →
        env.clock P.world.ticks + (spec path).2 ≤ env.clock w'.ticks → 0 < (spec path).1 →
        (runM env (rateLimit env (spec path) path rc) (w', txs)).1 = .ok () := by
  have hinv := keysInv_run hlaw hstart hrun
  have hexpire : CountersExpire env spec P.world := by
    intro path identity e he
    rcases hinv.keys path identity e he with hexp | ⟨i, rc, -, -, key, ttl, f, hprog⟩
    · exact hexp
    · exact absurd ⟨_, _, hprog⟩ (hquiet i)
  refine ⟨hexpire, fun path rc w' txs hredis htime hlimit => ?_⟩
  refine admitted_after ?_ hlimit txs
  unfold World.redisAt
  rw [Option.filter_eq_none_iff]
  intro e he hlive
  rw [hredis] at he
  obtain ⟨x, hx, hle⟩ := hexpire path (rateIdentity rc) e he
  rw [RedisEntry.live, hx] at hlive
  exact absurd (of_decide_eq_true hlive) (Nat.not_lt.mpr (hle.trans htime))

/-! ## One login -/

namespace ExpiryExample

def platform : Env := Env.reference { redisUrl := some "redis" }

def world : World := World.fresh 0 fun _ => []

/-- Ten requests a minute on every route. -/
def limits (_ : String) : Nat × Nat := (10, 60)

def context : RequestContext := { requestId := "r", ipAddress := some "10.0.0.1" }

def login (_ : Unit) : LimitTask := .limited "/login" context

end ExpiryExample

theorem rate_keys_expire_login :
    ∃ P, Reach (plainly ExpiryExample.platform) ExpireRuns
        (crowd ExpiryExample.world () fun i =>
          (ExpiryExample.login i).program ExpiryExample.platform ExpiryExample.limits) P ∧
      P.world.redis (.rate "/login" "10.0.0.1") ≠ none ∧
      CountersExpire ExpiryExample.platform ExpiryExample.limits P.world := by
  obtain ⟨P, hrun, hquiet, hkey⟩ : ∃ P, Reach (plainly ExpiryExample.platform) ExpireRuns
      (crowd ExpiryExample.world () fun i =>
        (ExpiryExample.login i).program ExpiryExample.platform ExpiryExample.limits) P ∧
      (∀ i, ¬ (P.thread i).running) ∧ P.world.redis (.rate "/login" "10.0.0.1") ≠ none :=
    Reach.of_play [(), ()] (by decide +kernel)
  have hstart : CountersExpire ExpiryExample.platform ExpiryExample.limits
      ExpiryExample.world := by
    intro path identity e he
    cases he
  exact ⟨P, hrun, hkey, (rate_keys_expire (reference_lawful _) hstart hrun hquiet).1⟩

/-- A login that is cut off between its `INCR` and its `EXPIRE` leaves a counter without an
expiry. -/
theorem rate_key_stays :
    ∃ P, Reach (plainly ExpiryExample.platform) (fun _ _ _ => True)
        (crowd ExpiryExample.world () fun i =>
          (ExpiryExample.login i).program ExpiryExample.platform ExpiryExample.limits) P ∧
      (∀ i, ¬ (P.thread i).running) ∧
      P.world.redis (.rate "/login" "10.0.0.1") = some ⟨.count 1, none⟩ ∧
      ¬ CountersExpire ExpiryExample.platform ExpiryExample.limits P.world := by
  obtain ⟨P, hrun, hrunning, hkey⟩ : ∃ P, Reach (plainly ExpiryExample.platform)
      (fun _ _ _ => True) (crowd ExpiryExample.world () fun i =>
        (ExpiryExample.login i).program ExpiryExample.platform ExpiryExample.limits) P ∧
      (P.thread ()).running ∧
      P.world.redis (.rate "/login" "10.0.0.1") = some ⟨.count 1, none⟩ :=
    Reach.of_play [()] (by decide +kernel)
  refine ⟨P.cut (plainly ExpiryExample.platform) (), hrun.step trivial (.cut hrunning), ?_,
    hkey, ?_⟩
  · rintro ⟨⟩ ⟨o, k, hprog⟩
    rw [Pool.cut_self] at hprog
    cases hprog
  · intro h
    obtain ⟨x, hx, -⟩ := h "/login" "10.0.0.1" _ hkey
    cases hx

end LmsBackend
