import LmsBackend.Core.Platform
import LmsBackend.Lib.Windows
import LmsBackend.RateLimit.Steps

/-!
# What a rate limit admits

Any number of calls of one rate limiter that count on the same key, interleaved with
programs that leave the key alone and during which time may pass.

- `watching env K`: what they run on. It keeps the ledger of the windows of the key `K`
  and, for each call, the stamp of its hit; neither has any influence on the run.
- `WindowInv`: the counter in Redis is that of the ledger's last window, and the stamps
  number the hits of each window.
- `rate_limit_bound`: a window admits `min n times` of its `n` calls, and an interval of
  the window's length at most twice `times`.
-/

namespace LmsBackend

open Mvcc Interleave Windows

variable {env : Env} {ι : Type} [DecidableEq ι] {K : RedisKey} {spec : Nat × Nat}
  {path identity : String}

/-! ## The ledger of a counter -/

/-- The hit of a call: its window, its number in the window, and the instant of the step
that decided or, for the first of a window, admitted it. -/
structure Stamp where
  window : Nat
  count : Nat
  time : Nat
  deriving DecidableEq

/-- The windows after an operation: `INCR` opens one unless there is a live entry, and
`EXPIRE` says when the last one closes. -/
def ledgerAfter (env : Env) (K : RedisKey) (w : World) (L : Ledger) : Op → Ledger
  | .redisIncr k =>
    if k = K then
      if (w.redisAt (env.clock w.ticks) K).isSome then L.hit else L.openAt (env.clock w.ticks)
    else L
  | .redisExpire k ttl =>
    if k = K ∧ (w.redisAt (env.clock w.ticks) K).isSome then L.closeAt (env.clock w.ticks + ttl)
    else L
  | _ => L

/-- The stamp of a thread after an operation; `L` is the ledger after it. -/
def stampAfter (env : Env) (K : RedisKey) (w : World) (L : Ledger) (l : Option Stamp) :
    (o : Op) → o.Ans → Option Stamp
  | .redisIncr k, count =>
    if k = K then some ⟨L.size - 1, count, env.clock w.ticks⟩ else l
  | .redisExpire k _, _ =>
    if k = K then l.map fun st => ⟨st.window, st.count, env.clock w.ticks⟩ else l
  | _, _ => l

/-- One operation, with what it does to the ledger and the stamp. -/
def watchedExec (env : Env) (K : RedisKey) (o : Op)
    (s : (World × Ledger) × (List Tx × Option Stamp)) :
    o.Ans × ((World × Ledger) × (List Tx × Option Stamp)) :=
  let r := exec env o (s.1.1, s.2.1)
  let L := ledgerAfter env K s.1.1 s.1.2 o
  (r.1, ((r.2.1, L), (r.2.2, stampAfter env K s.1.1 L s.2.2 o r.1)))

/-- What the calls run on. -/
def watching (env : Env) (K : RedisKey) :
    Machine Op Op.Ans (World × Ledger) (List Tx × Option Stamp) Unit where
  exec := watchedExec env K
  waits o s l := LmsBackend.waits o (s.1.1, s.2.1) l.1
  closed := ([], none)
  note _ _ _ _ := ()

/-- The calls of the rate limiter of a route that count under one identity, and other
programs, which leave that counter alone. -/
inductive RateTask (path identity : String)
  | limited (rc : RequestContext) (counts : rateIdentity rc = identity)
  | other (p : M Unit) (spares : KeepsOff (.rate path identity) p)

/-- The program of a task. -/
def RateTask.program (env : Env) (spec : Nat × Nat) : RateTask path identity → M Unit
  | .limited rc _ => rateLimit env spec path rc
  | .other p _ => p

/-- Tasks that run at the same time. -/
abbrev RatePool (ι : Type) :=
  Pool Op Op.Ans Err Unit (World × Ledger) (List Tx × Option Stamp) Unit ι

/-- None of the tasks has begun, and no window was opened. -/
def RatePool.start (env : Env) (spec : Nat × Nat) (w : World)
    (tasks : ι → RateTask path identity) : RatePool ι where
  world := (w, Ledger.empty)
  thread i := { prog := some ((tasks i).program env spec), loc := ([], none), seen := () }

/-- The stamp of a task's hit. -/
def RatePool.stamp (P : RatePool ι) (i : ι) : Option Stamp := (P.thread i).loc.2

/-! ## The invariant -/

/-- The counter's entry is that of the ledger's last window. -/
structure EntryOf (env : Env) (K : RedisKey) (w : World) (L : Ledger) : Prop where
  none : L.size = 0 → w.redisAt (env.clock w.ticks) K = none
  last : ∀ k, k + 1 = L.size → w.redis K = some ⟨.count (L.hits k), L.closes k⟩

/-- A stamp lies in its window, as one of its hits. -/
structure StampIn (now : Time) (L : Ledger) (st : Stamp) : Prop where
  window : st.window < L.size
  count : 1 ≤ st.count ∧ st.count ≤ L.hits st.window
  opened : L.opened st.window ≤ st.time
  past : st.time ≤ now
  closes : ∀ c, L.closes st.window = some c → st.time ≤ c

/-- What holds between any two steps. -/
structure WindowInv (env : Env) (spec : Nat × Nat) (tasks : ι → RateTask path identity)
    (P : RatePool ι) : Prop where
  phase : ∀ i rc h, tasks i = .limited rc h →
    Phase spec (.rate path identity) ((P.stamp i).map (·.count)) (P.thread i).prog
  other : ∀ i p h, tasks i = .other p h → P.stamp i = none ∧
    ∀ p', (P.thread i).prog = some p' → KeepsOff (.rate path identity) p'
  entry : EntryOf env (.rate path identity) P.world.1 P.world.2
  separated : P.world.2.Separated spec.2
  opened : ∀ k < P.world.2.size, P.world.2.opened k ≤ env.clock P.world.1.ticks
  hits : ∀ k < P.world.2.size, 1 ≤ P.world.2.hits k
  stamps : ∀ i st, P.stamp i = some st → StampIn (env.clock P.world.1.ticks) P.world.2 st
  expiring : ∀ i st, P.stamp i = some st → Expiring (P.thread i).prog →
    st.count = 1 ∧ st.window + 1 = P.world.2.size ∧ P.world.2.closes st.window = none
  distinct : ∀ i j st st', P.stamp i = some st → P.stamp j = some st' →
    st.window = st'.window → st.count = st'.count → i = j
  all : ∀ k < P.world.2.size, ∀ c, 1 ≤ c → c ≤ P.world.2.hits k → c ≤ spec.1 →
    ∃ i st, P.stamp i = some st ∧ st.window = k ∧ st.count = c

/-- A stamp stays one of its window's hits while time passes. -/
theorem StampIn.later {now now' : Time} {L : Ledger} {st : Stamp} (h : StampIn now L st)
    (hle : now ≤ now') : StampIn now' L st :=
  ⟨h.window, h.count, h.opened, h.past.trans hle, h.closes⟩

/-- A hit of an earlier window stays one when a window is opened. -/
theorem StampIn.openAt {now t : Time} {L : Ledger} {st : Stamp} (h : StampIn now L st) :
    StampIn now (L.openAt t) st := by
  have hne : st.window ≠ L.size := Nat.ne_of_lt h.window
  constructor
  · exact Nat.lt_succ_of_lt h.window
  · show 1 ≤ st.count ∧ st.count ≤ Function.update L.hits L.size 1 st.window
    rw [Function.update_of_ne hne]
    exact h.count
  · show Function.update L.opened L.size t st.window ≤ st.time
    rw [Function.update_of_ne hne]
    exact h.opened
  · exact h.past
  · intro c hc
    refine h.closes c ?_
    rw [← hc]
    exact (Function.update_of_ne hne _ _).symm

theorem StampIn.hit {now : Time} {L : Ledger} {st : Stamp} (h : StampIn now L st) :
    StampIn now L.hit st := by
  refine ⟨h.window, ⟨h.count.1, ?_⟩, h.opened, h.past, h.closes⟩
  show st.count ≤ Function.update L.hits (L.size - 1) (L.hits (L.size - 1) + 1) st.window
  by_cases hlast : st.window = L.size - 1
  · rw [hlast, Function.update_self]
    have hle := h.count.2
    rw [hlast] at hle
    exact Nat.le_succ_of_le hle
  · rw [Function.update_of_ne hlast]
    exact h.count.2

/-- A window that closes no earlier than now keeps its hits. -/
theorem StampIn.closeAt {now t : Time} {L : Ledger} {st : Stamp} (h : StampIn now L st)
    (ht : now ≤ t) : StampIn now (L.closeAt t) st := by
  refine ⟨h.window, h.count, h.opened, h.past, fun c hc => ?_⟩
  have hclose : Function.update L.closes (L.size - 1) (some t) st.window = some c := hc
  by_cases hlast : st.window = L.size - 1
  · rw [hlast, Function.update_self] at hclose
    cases hclose
    exact h.past.trans ht
  · rw [Function.update_of_ne hlast] at hclose
    exact h.closes c hclose

/-! ## The steps of the pool -/

section Steps

variable {tasks : ι → RateTask path identity} {P : RatePool ι} {i j : ι} {o : Op}
  {k : o.Ans → M Unit}

theorem stamp_act_other (h : j ≠ i) :
    RatePool.stamp (P.act (watching env K) i o k) j = P.stamp j := by
  unfold RatePool.stamp
  rw [Pool.act_other h]

theorem stamp_act_self : RatePool.stamp (P.act (watching env K) i o k) i =
    stampAfter env K P.world.1 (ledgerAfter env K P.world.1 P.world.2 o) (P.stamp i) o
      (exec env o (P.world.1, (P.thread i).loc.1)).1 := by
  unfold RatePool.stamp
  rw [Pool.act_self]
  rfl

theorem prog_act_self : ((P.act (watching env K) i o k).thread i).prog =
    some (k (exec env o (P.world.1, (P.thread i).loc.1)).1) := by
  rw [Pool.act_self]
  rfl

theorem ledgerAfter_spares (h : o.spares K) (w : World) (L : Ledger) :
    ledgerAfter env K w L o = L := by
  cases o with
  | redisIncr k => exact if_neg h
  | redisExpire k ttl => exact if_neg fun hk => h hk.1
  | _ => rfl

theorem stampAfter_spares (h : o.spares K) (w : World) (L : Ledger) (l : Option Stamp)
    (a : o.Ans) : stampAfter env K w L l o a = l := by
  cases o with
  | redisIncr k => exact if_neg h
  | redisExpire k ttl => exact if_neg h
  | _ => rfl

omit [DecidableEq ι] in
/-- Nothing is known of a task before it begins. -/
theorem windowInv_start (henabled : env.settings.rateLimitEnabled = true)
    (hredis : env.settings.hasRedis = true) {w : World}
    (hstart : w.redisAt (env.clock w.ticks) (.rate path identity) = none) :
    WindowInv env spec tasks (RatePool.start env spec w tasks) where
  phase i rc h htask := by
    show Phase spec _ none (some ((tasks i).program env spec))
    rw [htask, RateTask.program, rateLimit_steps henabled hredis, h]
    exact .ask
  other i p h htask := by
    refine ⟨rfl, fun p' hp' => ?_⟩
    have hprog : some ((tasks i).program env spec) = some p' := hp'
    rw [htask] at hprog
    cases hprog
    exact h
  entry := ⟨fun _ => hstart, fun k hk => absurd hk (Nat.succ_ne_zero k)⟩
  separated := Ledger.separated_empty
  opened k hk := absurd hk (Nat.not_lt_zero k)
  hits k hk := absurd hk (Nat.not_lt_zero k)
  stamps i st hst := absurd hst.symm (Option.some_ne_none st)
  expiring i st hst := absurd hst.symm (Option.some_ne_none st)
  distinct i j st st' hst := absurd hst.symm (Option.some_ne_none st)
  all k hk := absurd hk (Nat.not_lt_zero k)

/-- The stamps of a pool in which only those of one task have changed. -/
theorem stamp_act_cases {st : Stamp}
    (h : RatePool.stamp (P.act (watching env K) i o k) j = some st) :
    (j ≠ i ∧ P.stamp j = some st) ∨ (j = i ∧
      stampAfter env K P.world.1 (ledgerAfter env K P.world.1 P.world.2 o) (P.stamp i) o
        (exec env o (P.world.1, (P.thread i).loc.1)).1 = some st) := by
  by_cases hij : j = i
  · subst hij
    rw [stamp_act_self] at h
    exact .inr ⟨rfl, h⟩
  · rw [stamp_act_other hij] at h
    exact .inl ⟨hij, h⟩

/-- The other tasks are where they were. -/
theorem prog_act_other (h : j ≠ i) :
    ((P.act (watching env K) i o k).thread j).prog = (P.thread j).prog := by
  rw [Pool.act_other h]

variable (hlaw : env.Lawful) (hinv : WindowInv env spec tasks P)
include hlaw hinv

/-- An operation that leaves the counter alone, by a task that keeps its stamp. -/
theorem windowInv_spares (hspares : o.spares (.rate path identity))
    (hphase : ∀ rc h, tasks i = .limited rc h → Phase spec (.rate path identity)
      ((P.stamp i).map (·.count))
      (some (k (exec env o (P.world.1, (P.thread i).loc.1)).1)))
    (hother : ∀ p h, tasks i = .other p h → KeepsOff (.rate path identity)
      (k (exec env o (P.world.1, (P.thread i).loc.1)).1))
    (hexpiring : ¬ Expiring (some (k (exec env o (P.world.1, (P.thread i).loc.1)).1)) ∨
      P.stamp i = none) :
    WindowInv env spec tasks (P.act (watching env (.rate path identity)) i o k) := by
  have hstamp : ∀ j, RatePool.stamp (P.act (watching env (.rate path identity)) i o k) j =
      P.stamp j := by
    intro j
    by_cases hij : j = i
    · subst hij
      rw [stamp_act_self, stampAfter_spares hspares]
    · exact stamp_act_other hij
  have hredis := @exec_spares env (.rate path identity) o hspares P.world.1 (P.thread i).loc.1
  have htime := hlaw.clock_mono _ _ (@exec_older env o P.world.1 (P.thread i).loc.1).ticks
  have hledger : (P.act (watching env (.rate path identity)) i o k).world.2 = P.world.2 :=
    ledgerAfter_spares hspares _ _
  constructor
  · intro j rc h htask
    rw [hstamp]
    by_cases hij : j = i
    · subst hij
      rw [prog_act_self]
      exact hphase rc h htask
    · rw [prog_act_other hij]
      exact hinv.phase j rc h htask
  · intro j p h htask
    rw [hstamp]
    refine ⟨(hinv.other j p h htask).1, fun p' hp' => ?_⟩
    by_cases hij : j = i
    · subst hij
      rw [prog_act_self] at hp'
      cases hp'
      exact hother p h htask
    · rw [prog_act_other hij] at hp'
      exact (hinv.other j p h htask).2 p' hp'
  · rw [hledger]
    refine ⟨fun hsize => redisAt_none hredis htime (hinv.entry.none hsize), fun n hn => ?_⟩
    exact hredis.trans (hinv.entry.last n hn)
  · rw [hledger]
    exact hinv.separated
  · rw [hledger]
    exact fun n hn => (hinv.opened n hn).trans htime
  · rw [hledger]
    exact hinv.hits
  · intro j st hst
    rw [hledger]
    rw [hstamp] at hst
    exact (hinv.stamps j st hst).later htime
  · intro j st hst hexp
    rw [hledger]
    rw [hstamp] at hst
    by_cases hij : j = i
    · subst hij
      rw [prog_act_self] at hexp
      rcases hexpiring with hno | hnone
      · exact absurd hexp hno
      · rw [hnone] at hst
        cases hst
    · rw [prog_act_other hij] at hexp
      exact hinv.expiring j st hst hexp
  · intro j j' st st' hst hst'
    rw [hstamp] at hst hst'
    exact hinv.distinct j j' st st' hst hst'
  · intro n hn c h1 hc hle
    rw [hledger] at hn hc
    obtain ⟨j, st, hst, hw⟩ := hinv.all n hn c h1 hc hle
    exact ⟨j, st, (hstamp j).trans hst, hw⟩

/-- What a hit makes of the ledger `L`: its window is the last one of `L'`, and it is number
`n` there. -/
structure HitBy (env : Env) (spec : Nat × Nat) (K : RedisKey) (w : World) (L L' : Ledger)
    (n : Nat) : Prop where
  entry : EntryOf env K (exec env (.redisIncr K) (w, [])).2.1 L'
  separated : L'.Separated spec.2
  opened : ∀ k < L'.size, L'.opened k ≤ env.clock w.ticks
  hits : ∀ k < L'.size, 1 ≤ L'.hits k
  old : ∀ st, StampIn (env.clock w.ticks) L st → StampIn (env.clock w.ticks) L' st
  new : StampIn (env.clock w.ticks) L' ⟨L'.size - 1, n, env.clock w.ticks⟩
  fresh : ∀ st, StampIn (env.clock w.ticks) L st → st.window = L'.size - 1 → st.count ≠ n
  pending : ∀ k, k + 1 = L.size → L.closes k = none → k + 1 = L'.size ∧ L'.closes k = none
  first : n = 1 → L'.closes (L'.size - 1) = none
  all : ∀ k < L'.size, ∀ c, 1 ≤ c → c ≤ L'.hits k →
    (k = L'.size - 1 ∧ c = n) ∨ (k < L.size ∧ c ≤ L.hits k)

omit hlaw in
/-- A call's hit keeps the invariant. -/
theorem windowInv_hit {n : Nat} {L' : Ledger} {rc : RequestContext} {hc : rateIdentity rc = identity}
    (htask : tasks i = .limited rc hc) (hnone : P.stamp i = none)
    (hanswer : (exec env (.redisIncr (.rate path identity))
      (P.world.1, (P.thread i).loc.1)).1 = n)
    (hledger : ledgerAfter env (.rate path identity) P.world.1 P.world.2
      (.redisIncr (.rate path identity)) = L')
    (hhit : HitBy env spec (.rate path identity) P.world.1 P.world.2 L' n) :
    WindowInv env spec tasks (P.act (watching env (.rate path identity)) i
      (.redisIncr (.rate path identity)) (counted spec (.rate path identity))) := by
  have hsize : 0 < L'.size := Nat.zero_lt_of_lt hhit.new.window
  have hL : (P.act (watching env (.rate path identity)) i (.redisIncr (.rate path identity))
      (counted spec (.rate path identity))).world.2 = L' := hledger
  have hself : RatePool.stamp (P.act (watching env (.rate path identity)) i
      (.redisIncr (.rate path identity)) (counted spec (.rate path identity))) i =
      some ⟨L'.size - 1, n, env.clock P.world.1.ticks⟩ := by
    rw [stamp_act_self, hledger, hanswer]
    exact if_pos rfl
  have hcases : ∀ {j : ι} {st : Stamp}, RatePool.stamp (P.act (watching env (.rate path identity)) i
      (.redisIncr (.rate path identity)) (counted spec (.rate path identity))) j = some st →
      (j ≠ i ∧ P.stamp j = some st) ∨
        (j = i ∧ st = ⟨L'.size - 1, n, env.clock P.world.1.ticks⟩) := by
    intro j st hst
    by_cases hij : j = i
    · subst hij
      rw [hself] at hst
      cases hst
      exact .inr ⟨rfl, rfl⟩
    · rw [stamp_act_other hij] at hst
      exact .inl ⟨hij, hst⟩
  constructor
  · intro j rc' h htask'
    by_cases hij : j = i
    · subst hij
      rw [hself, prog_act_self, hanswer]
      exact .of_counted n
    · rw [stamp_act_other hij, prog_act_other hij]
      exact hinv.phase j rc' h htask'
  · intro j p h htask'
    have hij : j ≠ i := by
      rintro rfl
      rw [htask] at htask'
      cases htask'
    rw [stamp_act_other hij, prog_act_other hij]
    exact hinv.other j p h htask'
  · rw [hL]
    exact hhit.entry
  · rw [hL]
    exact hhit.separated
  · rw [hL]
    exact hhit.opened
  · rw [hL]
    exact hhit.hits
  · intro j st hst
    rw [hL]
    obtain ⟨-, hst⟩ | ⟨-, rfl⟩ := hcases hst
    · exact hhit.old st (hinv.stamps j st hst)
    · exact hhit.new
  · intro j st hst hexp
    rw [hL]
    obtain ⟨hij, hst⟩ | ⟨rfl, rfl⟩ := hcases hst
    · rw [prog_act_other hij] at hexp
      obtain ⟨hone, hlast, hopen⟩ := hinv.expiring j st hst hexp
      exact ⟨hone, hhit.pending st.window hlast hopen⟩
    · -- only the first hit of a window sets an expiry
      rw [prog_act_self, hanswer] at hexp
      have hone : n = 1 := by
        by_contra hne
        rw [counted, if_neg hne] at hexp
        exact not_expiring_verdict n hexp
      exact ⟨hone, Nat.sub_add_cancel hsize, hhit.first hone⟩
  · intro j j' st st' hst hst' hw hcount
    obtain ⟨-, hold⟩ | ⟨hji, rfl⟩ := hcases hst
    · obtain ⟨-, hold'⟩ | ⟨-, rfl⟩ := hcases hst'
      · exact hinv.distinct j j' st st' hold hold' hw hcount
      · exact absurd hcount (hhit.fresh st (hinv.stamps j st hold) hw)
    · obtain ⟨-, hold'⟩ | ⟨hji', -⟩ := hcases hst'
      · exact absurd hcount.symm (hhit.fresh st' (hinv.stamps j' st' hold') hw.symm)
      · exact hji.trans hji'.symm
  · intro m hm c h1 hc hle
    rw [hL] at hm hc
    obtain ⟨hlast, hn⟩ | ⟨hold, hhits⟩ := hhit.all m hm c h1 hc
    · exact ⟨i, _, hself, hlast.symm, hn.symm⟩
    · obtain ⟨j, st, hst, hw⟩ := hinv.all m hold c h1 hhits hle
      have hij : j ≠ i := by
        rintro rfl
        rw [hnone] at hst
        cases hst
      exact ⟨j, st, (stamp_act_other hij).trans hst, hw⟩

omit [DecidableEq ι] hlaw in
/-- A hit on a live counter is one more in the last window. -/
theorem hit_live {e : RedisEntry}
    (hlive : P.world.1.redisAt (env.clock P.world.1.ticks) (.rate path identity) = some e) :
    (exec env (.redisIncr (.rate path identity)) (P.world.1, (P.thread i).loc.1)).1 =
        P.world.2.hits (P.world.2.size - 1) + 1 ∧
      HitBy env spec (.rate path identity) P.world.1 P.world.2 P.world.2.hit
        (P.world.2.hits (P.world.2.size - 1) + 1) := by
  have hsize : 0 < P.world.2.size := by
    by_contra h
    rw [hinv.entry.none (by omega)] at hlive
    cases hlive
  have hsub : P.world.2.size - 1 < P.world.2.size := Nat.sub_lt hsize Nat.one_pos
  have hadd : P.world.2.size - 1 + 1 = P.world.2.size := Nat.sub_add_cancel hsize
  obtain ⟨he, hnow⟩ := redisAt_some hlive
  have hlast := hinv.entry.last (P.world.2.size - 1) hadd
  rw [hlast] at he
  cases he
  have hincr : RedisEntry.incr (P.world.1.redisAt (env.clock P.world.1.ticks)
      (.rate path identity)) = ⟨.count (P.world.2.hits (P.world.2.size - 1) + 1),
        P.world.2.closes (P.world.2.size - 1)⟩ := by
    rw [hlive]
    rfl
  have hself : P.world.2.hit.hits (P.world.2.size - 1) =
      P.world.2.hits (P.world.2.size - 1) + 1 := Function.update_self _ _ _
  have hother : ∀ n, n ≠ P.world.2.size - 1 → P.world.2.hit.hits n = P.world.2.hits n :=
    fun n hn => Function.update_of_ne hn _ _
  refine ⟨?_, ?_⟩
  · show RedisEntry.count (RedisEntry.incr _) = _
    rw [hincr]
    rfl
  constructor
  · refine ⟨fun hzero => absurd hzero hsize.ne', fun n hn => ?_⟩
    have hnlast : n = P.world.2.size - 1 := by
      have : n + 1 = P.world.2.size := hn
      omega
    subst hnlast
    show Function.update P.world.1.redis _ (some (RedisEntry.incr _)) _ = _
    rw [Function.update_self, hincr, hself]
    rfl
  · exact hinv.separated.hit
  · exact hinv.opened
  · intro n hn
    by_cases hlast' : n = P.world.2.size - 1
    · rw [hlast', hself]
      exact Nat.le_add_left 1 _
    · rw [hother n hlast']
      exact hinv.hits n hn
  · exact fun st hst => hst.hit
  · refine ⟨hsub, ⟨Nat.le_add_left 1 _, hself.ge⟩, hinv.opened _ hsub, le_refl _, ?_⟩
    intro c hc
    have hexp : P.world.2.closes (P.world.2.size - 1) = some c := hc
    rw [RedisEntry.live, hexp] at hnow
    exact (of_decide_eq_true hnow).le
  · intro st hst hw hcount
    have hle := hst.count.2
    have hw' : st.window = P.world.2.size - 1 := hw
    rw [hw', hcount] at hle
    omega
  · exact fun n hn hopen => ⟨hn, hopen⟩
  · intro hone
    have hpos := hinv.hits _ hsub
    omega
  · intro n hn c h1 hc
    by_cases hlast' : n = P.world.2.size - 1
    · rw [hlast', hself] at hc
      by_cases hnew : c = P.world.2.hits (P.world.2.size - 1) + 1
      · exact .inl ⟨hlast', hnew⟩
      · refine .inr ⟨hn, ?_⟩
        rw [hlast']
        omega
    · rw [hother n hlast'] at hc
      exact .inr ⟨hn, hc⟩

omit [DecidableEq ι] hlaw in
/-- A hit without a live counter opens a window. -/
theorem hit_opens
    (hdead : P.world.1.redisAt (env.clock P.world.1.ticks) (.rate path identity) = none) :
    (exec env (.redisIncr (.rate path identity)) (P.world.1, (P.thread i).loc.1)).1 = 1 ∧
      HitBy env spec (.rate path identity) P.world.1 P.world.2
        (P.world.2.openAt (env.clock P.world.1.ticks)) 1 := by
  have hincr : RedisEntry.incr (P.world.1.redisAt (env.clock P.world.1.ticks)
      (.rate path identity)) = ⟨.count 1, none⟩ := by
    rw [hdead]
    rfl
  -- the last window has closed
  have hclosed : ∀ n, n + 1 = P.world.2.size →
      ∃ c, P.world.2.closes n = some c ∧ c ≤ env.clock P.world.1.ticks :=
    fun n hn => redisAt_expired (hinv.entry.last n hn) hdead
  refine ⟨?_, ?_⟩
  · show RedisEntry.count (RedisEntry.incr _) = _
    rw [hincr]
    rfl
  constructor
  · refine ⟨fun hzero => absurd hzero (Nat.succ_ne_zero _), fun n hn => ?_⟩
    have hnlast : n = P.world.2.size := Nat.succ_injective hn
    subst hnlast
    show Function.update P.world.1.redis _ (some (RedisEntry.incr _)) _ = _
    rw [Function.update_self, hincr]
    simp [Ledger.openAt]
  · exact hinv.separated.openAt hclosed
  · intro n hn
    by_cases hnew : n = P.world.2.size
    · simp [Ledger.openAt, hnew]
    · have hold : n < P.world.2.size := by
        have : n < P.world.2.size + 1 := hn
        omega
      simp only [Ledger.openAt, Function.update_of_ne hnew]
      exact hinv.opened n hold
  · intro n hn
    by_cases hnew : n = P.world.2.size
    · simp [Ledger.openAt, hnew]
    · have hold : n < P.world.2.size := by
        have : n < P.world.2.size + 1 := hn
        omega
      simp only [Ledger.openAt, Function.update_of_ne hnew]
      exact hinv.hits n hold
  · exact fun st hst => hst.openAt
  · constructor
    · exact Nat.lt_succ_self _
    · simp [Ledger.openAt]
    · simp [Ledger.openAt]
    · exact le_refl _
    · intro c hc
      simp [Ledger.openAt] at hc
  · intro st hst hw
    have hlt := hst.window
    have hw' : st.window = P.world.2.size := hw
    omega
  · intro n hn hopen
    obtain ⟨c, hc, -⟩ := hclosed n hn
    rw [hopen] at hc
    cases hc
  · intro _
    simp [Ledger.openAt]
  · intro n hn c h1 hc
    by_cases hnew : n = P.world.2.size
    · simp only [Ledger.openAt, hnew, Function.update_self] at hc
      exact .inl ⟨hnew, Nat.le_antisymm hc h1⟩
    · have hold : n < P.world.2.size := by
        have : n < P.world.2.size + 1 := hn
        omega
      simp only [Ledger.openAt, Function.update_of_ne hnew] at hc
      exact .inr ⟨hold, hc⟩

omit hlaw in
/-- The first hit of a window says when the window closes. -/
theorem windowInv_expire {rc : RequestContext} {hc : rateIdentity rc = identity} {st : Stamp}
    (htask : tasks i = .limited rc hc) (hst : P.stamp i = some st)
    (hexp : st.count = 1 ∧ st.window + 1 = P.world.2.size ∧ P.world.2.closes st.window = none) :
    WindowInv env spec tasks (P.act (watching env (.rate path identity)) i
      (.redisExpire (.rate path identity) spec.2) fun _ => verdict spec (.rate path identity) 1) := by
  obtain ⟨hone, hlast, hopen⟩ := hexp
  have hsub : P.world.2.size - 1 = st.window := by omega
  have hsize : st.window < P.world.2.size := by omega
  have hentry := hinv.entry.last st.window hlast
  rw [hopen] at hentry
  have hlive : P.world.1.redisAt (env.clock P.world.1.ticks) (.rate path identity) =
      some ⟨.count (P.world.2.hits st.window), none⟩ := by
    rw [World.redisAt, hentry]
    rfl
  have hL : (P.act (watching env (.rate path identity)) i
      (.redisExpire (.rate path identity) spec.2)
      fun _ => verdict spec (.rate path identity) 1).world.2 =
        P.world.2.closeAt (env.clock P.world.1.ticks + spec.2) := by
    show ledgerAfter env _ P.world.1 P.world.2 (.redisExpire _ _) = _
    exact if_pos ⟨rfl, by rw [hlive]; rfl⟩
  have hself : RatePool.stamp (P.act (watching env (.rate path identity)) i
      (.redisExpire (.rate path identity) spec.2)
      fun _ => verdict spec (.rate path identity) 1) i =
        some ⟨st.window, st.count, env.clock P.world.1.ticks⟩ := by
    rw [stamp_act_self, hst]
    exact if_pos rfl
  have hcases : ∀ {j : ι} {st' : Stamp}, RatePool.stamp (P.act (watching env (.rate path identity)) i
      (.redisExpire (.rate path identity) spec.2)
      fun _ => verdict spec (.rate path identity) 1) j = some st' →
      ∃ st₀, P.stamp j = some st₀ ∧ st'.window = st₀.window ∧ st'.count = st₀.count ∧
        (j ≠ i ∧ st' = st₀ ∨ j = i ∧ st₀ = st ∧ st'.time = env.clock P.world.1.ticks) := by
    intro j st' hst'
    by_cases hij : j = i
    · subst hij
      rw [hself] at hst'
      cases hst'
      exact ⟨st, hst, rfl, rfl, .inr ⟨rfl, rfl, rfl⟩⟩
    · rw [stamp_act_other hij] at hst'
      exact ⟨st', hst', rfl, rfl, .inl ⟨hij, rfl⟩⟩
  have hclose : (P.world.2.closeAt (env.clock P.world.1.ticks + spec.2)).closes st.window =
      some (env.clock P.world.1.ticks + spec.2) := by
    rw [← hsub]
    exact Function.update_self _ _ _
  constructor
  · intro j rc' h htask'
    by_cases hij : j = i
    · subst hij
      rw [hself, prog_act_self]
      show Phase spec _ (some st.count) (some (verdict spec _ 1))
      rw [hone]
      exact .of_verdict 1
    · rw [stamp_act_other hij, prog_act_other hij]
      exact hinv.phase j rc' h htask'
  · intro j p h htask'
    have hij : j ≠ i := by
      rintro rfl
      rw [htask] at htask'
      cases htask'
    rw [stamp_act_other hij, prog_act_other hij]
    exact hinv.other j p h htask'
  · rw [hL]
    refine ⟨fun hzero => absurd hzero (Nat.ne_zero_of_lt hsize), fun n hn => ?_⟩
    have hnlast : n = st.window := by
      have : n + 1 = P.world.2.size := hn
      omega
    subst hnlast
    rw [hclose]
    show Function.update P.world.1.redis _ ((P.world.1.redisAt _ _).map _) _ = _
    rw [Function.update_self, hlive]
    rfl
  · rw [hL]
    refine hinv.separated.closeAt (Nat.zero_lt_of_lt hsize) ?_
    rw [hsub]
    exact Nat.add_le_add_right (hinv.opened _ hsize) _
  · rw [hL]
    exact hinv.opened
  · rw [hL]
    exact hinv.hits
  · intro j st' hst'
    rw [hL]
    obtain ⟨st₀, hst₀, hw, hcount, ⟨-, rfl⟩ | ⟨-, rfl, htime⟩⟩ := hcases hst'
    · exact (hinv.stamps j st' hst₀).closeAt (Nat.le_add_right _ _)
    · have hin := (hinv.stamps j st₀ hst₀).closeAt
        (Nat.le_add_right (env.clock P.world.1.ticks) spec.2)
      constructor
      · rw [hw]
        exact hin.window
      · rw [hw, hcount]
        exact hin.count
      · rw [hw, htime]
        exact hinv.opened _ hsize
      · exact htime.le
      · intro c hcl
        rw [hw, hclose] at hcl
        cases hcl
        rw [htime]
        exact Nat.le_add_right _ _
  · intro j st' hst' hexp'
    obtain ⟨st₀, hst₀, hw, hcount, ⟨hij, rfl⟩ | ⟨rfl, -, -⟩⟩ := hcases hst'
    · -- no other call sets the expiry of this window
      rw [prog_act_other hij] at hexp'
      obtain ⟨hone', hlast', -⟩ := hinv.expiring j st' hst₀ hexp'
      exact absurd (hinv.distinct j i st' st hst₀ hst (by omega) (hone'.trans hone.symm)) hij
    · rw [prog_act_self] at hexp'
      exact absurd hexp' (not_expiring_verdict 1)
  · intro j j' st₁ st₂ hst₁ hst₂ hw hcount
    obtain ⟨st₃, hst₃, hw₃, hcount₃, -⟩ := hcases hst₁
    obtain ⟨st₄, hst₄, hw₄, hcount₄, -⟩ := hcases hst₂
    exact hinv.distinct j j' st₃ st₄ hst₃ hst₄ (hw₃.symm.trans (hw.trans hw₄))
      (hcount₃.symm.trans (hcount.trans hcount₄))
  · intro m hm c h1 hc hle
    rw [hL] at hm hc
    obtain ⟨j, st', hst', hw, hcount⟩ := hinv.all m hm c h1 hc hle
    by_cases hij : j = i
    · subst hij
      rw [hst] at hst'
      cases hst'
      exact ⟨j, _, hself, hw, hcount⟩
    · exact ⟨j, st', (stamp_act_other hij).trans hst', hw, hcount⟩

/-- **Step**: every operation of a task keeps the invariant. -/
theorem windowInv_act (hprog : (P.thread i).prog = some (.call o k)) :
    WindowInv env spec tasks (P.act (watching env (.rate path identity)) i o k) := by
  cases htask : tasks i with
  | other p h =>
    obtain ⟨hnone, hspares⟩ := hinv.other i p h htask
    obtain ⟨hop, hrest⟩ := hspares _ hprog
    refine windowInv_spares hlaw hinv hop ?_ ?_ (.inr hnone)
    · intro rc hc htask'
      rw [htask] at htask'
      cases htask'
    · exact fun p' h' _ => hrest _ trivial
  | limited rc hc =>
    have hphase := hinv.phase i rc hc htask
    rw [hprog] at hphase
    have hnotother : ∀ {R : Prop} (p : M Unit) (h : KeepsOff (.rate path identity) p),
        tasks i = .other p h → R := by
      intro R p h htask'
      rw [htask] at htask'
      cases htask'
    generalize hcount : (P.stamp i).map (·.count) = c at hphase
    cases hphase with
    | ask =>
      have hnone : P.stamp i = none := Option.map_eq_none_iff.mp hcount
      cases hnow : P.world.1.redisAt (env.clock P.world.1.ticks) (.rate path identity) with
      | none =>
        obtain ⟨hanswer, hhit⟩ := @hit_opens env ι spec path identity tasks P i hinv hnow
        refine windowInv_hit hinv htask hnone hanswer ?_ hhit
        rw [ledgerAfter, if_pos rfl, hnow]
        rfl
      | some e =>
        obtain ⟨hanswer, hhit⟩ := @hit_live env ι spec path identity tasks P i hinv e hnow
        refine windowInv_hit hinv htask hnone hanswer ?_ hhit
        rw [ledgerAfter, if_pos rfl, hnow]
        rfl
    | expire =>
      obtain ⟨st, hst, -⟩ := Option.map_eq_some_iff.mp hcount
      exact windowInv_expire hinv htask hst (hinv.expiring i st hst ⟨_, _, _, hprog⟩)
    | refuse c hlimit =>
      refine windowInv_spares hlaw hinv trivial ?_ hnotother (.inl ?_)
      · intro rc' hc' _
        rw [hcount]
        exact .refused c hlimit _
      · rintro ⟨key, ttl, f, hexp⟩
        cases hexp

omit hlaw in
/-- A cut before another step than `EXPIRE` keeps the invariant. -/
theorem windowInv_cut (hrunning : (P.thread i).running) (hok : ¬ Expiring (P.thread i).prog) :
    WindowInv env spec tasks (P.cut (watching env (.rate path identity)) i) := by
  have hself : RatePool.stamp (P.cut (watching env (.rate path identity)) i) i = none := by
    unfold RatePool.stamp
    rw [Pool.cut_self]
    rfl
  have hother : ∀ {j}, j ≠ i →
      (P.cut (watching env (.rate path identity)) i).thread j = P.thread j :=
    fun hij => Pool.cut_other hij
  have hstamp : ∀ {j}, j ≠ i →
      RatePool.stamp (P.cut (watching env (.rate path identity)) i) j = P.stamp j := by
    intro j hij
    unfold RatePool.stamp
    rw [hother hij]
  have hgone : ((P.cut (watching env (.rate path identity)) i).thread i).prog = none := by
    rw [Pool.cut_self]
  have hcases : ∀ {j : ι} {st : Stamp},
      RatePool.stamp (P.cut (watching env (.rate path identity)) i) j = some st →
      j ≠ i ∧ P.stamp j = some st := by
    intro j st hst
    by_cases hij : j = i
    · subst hij
      rw [hself] at hst
      cases hst
    · rw [hstamp hij] at hst
      exact ⟨hij, hst⟩
  constructor
  · intro j rc h htask
    by_cases hij : j = i
    · subst hij
      rw [hself, hgone]
      exact .gone
    · rw [hstamp hij, hother hij]
      exact hinv.phase j rc h htask
  · intro j p h htask
    by_cases hij : j = i
    · subst hij
      refine ⟨hself, fun p' hp' => ?_⟩
      rw [hgone] at hp'
      cases hp'
    · rw [hstamp hij, hother hij]
      exact hinv.other j p h htask
  · exact hinv.entry
  · exact hinv.separated
  · exact hinv.opened
  · exact hinv.hits
  · exact fun j st hst => hinv.stamps j st (hcases hst).2
  · intro j st hst hexp
    obtain ⟨hij, hst'⟩ := hcases hst
    rw [hother hij] at hexp
    exact hinv.expiring j st hst' hexp
  · intro j j' st st' hst hst'
    exact hinv.distinct j j' st st' (hcases hst).2 (hcases hst').2
  · intro m hm c h1 hc hle
    obtain ⟨j, st, hst, hw, hcount⟩ := hinv.all m hm c h1 hc hle
    refine ⟨j, st, ?_, hw, hcount⟩
    by_cases hij : j = i
    · -- a call that is cut off after its hit was about to be turned away
      subst hij
      exfalso
      obtain ⟨o, k, hprog⟩ := hrunning
      cases htask : tasks j with
      | other p h =>
        rw [(hinv.other j p h htask).1] at hst
        cases hst
      | limited rc h =>
        have hphase := hinv.phase j rc h htask
        rw [hst, hprog] at hphase
        generalize hn : (some st).map (·.count) = n at hphase
        cases hphase with
        | ask => cases hn
        | expire => exact hok ⟨_, _, _, hprog⟩
        | refuse n hlimit =>
          have hcount' : st.count = n := Option.some.inj hn
          omega
    · exact (hstamp hij).trans hst

end Steps

/-! ## What is admitted -/

section Bound

variable [Fintype ι] {tasks : ι → RateTask path identity} {P : RatePool ι} {w₀ : World}

/-- The window of a task's hit. -/
def RatePool.window (P : RatePool ι) (i : ι) : Nat := ((P.stamp i).map (·.window)).getD 0

/-- The number of a task's hit in its window. -/
def RatePool.count (P : RatePool ι) (i : ι) : Nat := ((P.stamp i).map (·.count)).getD 0

/-- The instant of a task's hit. -/
def RatePool.time (P : RatePool ι) (i : ι) : Nat := ((P.stamp i).map (·.time)).getD 0

/-- The calls of the limiter that have returned: they were admitted. -/
def RatePool.admitted (P : RatePool ι) : Finset ι :=
  Finset.univ.filter fun i => (P.stamp i).isSome ∧ (P.thread i).result = some ()

omit [Fintype ι] in
/-- **Run**: the invariant holds in every state of a run in which every `EXPIRE` runs. -/
theorem windowInv_run (hlaw : env.Lawful) (henabled : env.settings.rateLimitEnabled = true)
    (hredis : env.settings.hasRedis = true)
    (hstart : w₀.redisAt (env.clock w₀.ticks) (.rate path identity) = none)
    (hrun : Reach (watching env (.rate path identity)) ExpireRuns
      (RatePool.start env spec w₀ tasks) P) : WindowInv env spec tasks P := by
  induction hrun with
  | start => exact windowInv_start henabled hredis hstart
  | step reach ok step ih =>
    cases step with
    | act prog free => exact windowInv_act hlaw ih prog
    | cut running => exact windowInv_cut ih running ok

omit [DecidableEq ι] in
/-- A call that was admitted has a number within the limit. -/
theorem WindowInv.of_admitted (hinv : WindowInv env spec tasks P) {i : ι} (hi : i ∈ P.admitted) :
    ∃ st, P.stamp i = some st ∧ st.count ≤ spec.1 := by
  obtain ⟨-, hsome, hresult⟩ := Finset.mem_filter.mp hi
  obtain ⟨st, hst⟩ := Option.isSome_iff_exists.mp hsome
  refine ⟨st, hst, ?_⟩
  cases htask : tasks i with
  | other p h =>
    rw [(hinv.other i p h htask).1] at hst
    cases hst
  | limited rc h =>
    have hphase := hinv.phase i rc h htask
    rw [hst] at hphase
    unfold Thread.result at hresult
    generalize (P.thread i).prog = prog at hphase hresult
    generalize hn : (some st).map (·.count) = n at hphase
    cases hphase with
    | admitted c hle => exact (Option.some.inj hn).trans_le hle
    | gone => cases hn
    | _ => cases hresult

omit [DecidableEq ι] in
/-- A call within the limit that has finished was admitted. -/
theorem WindowInv.admitted_of (hinv : WindowInv env spec tasks P) {i : ι} {st : Stamp}
    (hst : P.stamp i = some st) (hle : st.count ≤ spec.1) (hdone : ¬ (P.thread i).running) :
    i ∈ P.admitted := by
  refine Finset.mem_filter.mpr ⟨Finset.mem_univ i, by rw [hst]; rfl, ?_⟩
  cases htask : tasks i with
  | other p h =>
    rw [(hinv.other i p h htask).1] at hst
    cases hst
  | limited rc h =>
    have hphase := hinv.phase i rc h htask
    rw [hst] at hphase
    unfold Thread.result
    unfold Thread.running at hdone
    generalize (P.thread i).prog = prog at hphase hdone ⊢
    generalize hn : (some st).map (·.count) = n at hphase
    cases hphase with
    | ask => cases hn
    | expire => exact absurd ⟨_, _, rfl⟩ hdone
    | refuse c hlimit => exact absurd ⟨_, _, rfl⟩ hdone
    | refused c hlimit e =>
      have hcount : st.count = c := Option.some.inj hn
      omega
    | admitted c _ => rfl
    | gone => cases hn

omit [Fintype ι] [DecidableEq ι] in
theorem RatePool.stamped {i : ι} {st : Stamp} (h : P.stamp i = some st) :
    P.window i = st.window ∧ P.count i = st.count ∧ P.time i = st.time := by
  unfold RatePool.window RatePool.count RatePool.time
  rw [h]
  exact ⟨rfl, rfl, rfl⟩

omit [DecidableEq ι] in
/-- The admitted hits of one window have different numbers. -/
theorem WindowInv.count_inj (hinv : WindowInv env spec tasks P) (n : Nat) :
    Set.InjOn P.count ↑(P.admitted.filter fun i => P.window i = n) := by
  intro i hi j hj hcount
  obtain ⟨hia, hiw⟩ := Finset.mem_filter.mp hi
  obtain ⟨hja, hjw⟩ := Finset.mem_filter.mp hj
  obtain ⟨st, hst, -⟩ := hinv.of_admitted hia
  obtain ⟨st', hst', -⟩ := hinv.of_admitted hja
  obtain ⟨hw, hc, -⟩ := RatePool.stamped hst
  obtain ⟨hw', hc', -⟩ := RatePool.stamped hst'
  exact hinv.distinct i j st st' hst hst' (by omega) (by omega)

omit [DecidableEq ι] in
/-- A window admits no more than the limit. -/
theorem WindowInv.card_window (hinv : WindowInv env spec tasks P) (n : Nat) :
    (P.admitted.filter fun i => P.window i = n).card ≤ spec.1 := by
  rw [← Finset.card_image_of_injOn (hinv.count_inj n)]
  have hsub : (P.admitted.filter fun i => P.window i = n).image P.count ⊆
      Finset.Icc 1 spec.1 := by
    intro c hc
    obtain ⟨i, hi, rfl⟩ := Finset.mem_image.mp hc
    obtain ⟨st, hst, hle⟩ := hinv.of_admitted (Finset.mem_filter.mp hi).1
    obtain ⟨-, hcount, -⟩ := RatePool.stamped hst
    rw [Finset.mem_Icc, hcount]
    exact ⟨(hinv.stamps i st hst).count.1, hle⟩
  have hcard := Finset.card_le_card hsub
  rwa [Nat.card_Icc, Nat.add_sub_cancel] at hcard

omit [DecidableEq ι] in
/-- A window whose calls have finished has admitted `min n times` of its `n` calls. -/
theorem WindowInv.card_done (hinv : WindowInv env spec tasks P) {n : Nat}
    (hn : n < P.world.2.size)
    (hdone : ∀ i st, P.stamp i = some st → st.window = n → ¬ (P.thread i).running) :
    (P.admitted.filter fun i => P.window i = n).card = min (P.world.2.hits n) spec.1 := by
  refine card_of_numbered (hinv.count_inj n) ?_ ?_
  · intro i hi
    obtain ⟨hia, hiw⟩ := Finset.mem_filter.mp hi
    obtain ⟨st, hst, hle⟩ := hinv.of_admitted hia
    obtain ⟨hw, hcount, -⟩ := RatePool.stamped hst
    have hin := (hinv.stamps i st hst).count
    rw [← hw, hiw] at hin
    rw [hcount]
    exact ⟨hin.1, le_min hin.2 hle⟩
  · intro c h1 hc
    obtain ⟨i, st, hst, hw, rfl⟩ := hinv.all n hn c h1 (hc.trans (min_le_left _ _))
      (hc.trans (min_le_right _ _))
    obtain ⟨hwindow, hcount, -⟩ := RatePool.stamped hst
    refine ⟨i, Finset.mem_filter.mpr ⟨?_, hwindow.trans hw⟩, hcount⟩
    exact hinv.admitted_of hst (hc.trans (min_le_right _ _)) (hdone i st hst hw)

/-- An interval of the window's length holds at most twice the limit. -/
theorem WindowInv.card_interval (hinv : WindowInv env spec tasks P) (a : Nat) :
    (P.admitted.filter fun i => a ≤ P.time i ∧ P.time i < a + spec.2).card ≤ 2 * spec.1 := by
  refine card_interval_le hinv.separated ?_ ?_ ?_ hinv.card_window a
  · intro i hi
    obtain ⟨st, hst, -⟩ := hinv.of_admitted hi
    obtain ⟨hw, -, -⟩ := RatePool.stamped hst
    exact hw.trans_lt (hinv.stamps i st hst).window
  · intro i hi
    obtain ⟨st, hst, -⟩ := hinv.of_admitted hi
    obtain ⟨hw, -, ht⟩ := RatePool.stamped hst
    rw [hw, ht]
    exact (hinv.stamps i st hst).opened
  · intro i hi c hc
    obtain ⟨st, hst, -⟩ := hinv.of_admitted hi
    obtain ⟨hw, -, ht⟩ := RatePool.stamped hst
    rw [hw] at hc
    rw [ht]
    exact (hinv.stamps i st hst).closes c hc

end Bound

/-! ## Two calls under a limit of one -/

namespace RateExample

def platform : Env := Env.reference { redisUrl := some "redis" }

def calls (_ : Bool) : RateTask "/login" "10.0.0.1" :=
  .limited { requestId := "r", ipAddress := some "10.0.0.1" } (by decide)

def world : World := World.fresh 0 fun _ => []

instance (o : Op) (s : (World × Ledger) × (List Tx × Option Stamp))
    (l : List Tx × Option Stamp) :
    Decidable ((watching platform (.rate "/login" "10.0.0.1")).waits o s l) :=
  inferInstanceAs (Decidable ((machine (σ := Unit) platform fun _ _ _ _ => ()).waits o
    (s.1.1, s.2.1) l.1))

end RateExample

end LmsBackend
