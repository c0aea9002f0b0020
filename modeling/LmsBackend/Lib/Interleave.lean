import Mathlib.Data.Fintype.Basic
import LmsBackend.Lib.Prog

/-!
# Interleaved programs

Threads that run programs over one shared world, one operation at a time and in any
order. Each thread has a local state of its own (its open transactions, say); an
operation may have to wait for what another thread holds; and a thread may be cut off
between two operations, which closes what it held. Of each thread a record is kept, which
has no influence on the run.

- `Step m P i o P'`: thread `i` performs `o`, or is cut off (`none`).
- `Reach m Ok P₀ P`: the runs whose steps all satisfy `Ok`; `Pool.play` computes the one of
  a schedule.
- `Follows m G allow Q E q l p`: whatever the other threads do to the world in between, as
  long as they keep `G`, the program `p` performs allowed operations only.
- `Reach.invariant`: a property of the whole pool that every allowed step keeps holds in
  every state of a run.
-/

namespace Interleave

variable {Op : Type} {Ans : Op → Type} {ε α β W L σ ι : Type}

/-! ## Threads and steps -/

/-- What threads run on, and what is recorded of them. -/
structure Machine (Op : Type) (Ans : Op → Type) (W L σ : Type) where
  /-- carry out one operation of a thread -/
  exec : (o : Op) → W × L → Ans o × (W × L)
  /-- the operation has to wait for a thread with the second local state -/
  waits : Op → W × L → L → Prop
  /-- the local state of a thread that was cut off -/
  closed : L
  /-- the record of a thread after one more operation -/
  note : σ → L → (o : Op) → Ans o → σ

/-- A thread: what it still has to do (`none` once it was cut off), its local state and
the record of what it has done. -/
structure Thread (Op : Type) (Ans : Op → Type) (ε α L σ : Type) where
  prog : Option (Prog Op Ans ε α)
  loc : L
  seen : σ

/-- A world and the threads that run in it. -/
structure Pool (Op : Type) (Ans : Op → Type) (ε α W L σ ι : Type) where
  world : W
  thread : ι → Thread Op Ans ε α L σ

/-- The thread has more to do. -/
def Thread.running (t : Thread Op Ans ε α L σ) : Prop := ∃ o k, t.prog = some (.call o k)

instance (t : Thread Op Ans ε α L σ) : Decidable t.running :=
  match h : t.prog with
  | some (.call o k) => isTrue ⟨o, k, h⟩
  | some (.ret a) => isFalse (by rintro ⟨o, k, hrun⟩; cases h.symm.trans hrun)
  | some (.raise e) => isFalse (by rintro ⟨o, k, hrun⟩; cases h.symm.trans hrun)
  | none => isFalse (by rintro ⟨o, k, hrun⟩; cases h.symm.trans hrun)

/-- What a thread has returned, if it has. -/
def Thread.result (t : Thread Op Ans ε α L σ) : Option α :=
  match t.prog with
  | some (.ret a) => some a
  | _ => none

/-- What a thread has raised, if it has. -/
def Thread.failure (t : Thread Op Ans ε α L σ) : Option ε :=
  match t.prog with
  | some (.raise e) => some e
  | _ => none

theorem Thread.result_eq_some {t : Thread Op Ans ε α L σ} {a : α} :
    t.result = some a ↔ t.prog = some (.ret a) := by
  unfold result
  split
  · rename_i b h
    rw [h, Option.some_inj, Option.some_inj, Prog.ret.injEq]
  · rename_i h
    exact ⟨fun heq => (by cases heq), fun heq => absurd heq (h a)⟩

theorem Thread.failure_eq_some {t : Thread Op Ans ε α L σ} {e : ε} :
    t.failure = some e ↔ t.prog = some (.raise e) := by
  unfold failure
  split
  · rename_i b h
    rw [h, Option.some_inj, Option.some_inj, Prog.raise.injEq]
  · rename_i h
    exact ⟨fun heq => (by cases heq), fun heq => absurd heq (h e)⟩

variable [DecidableEq ι]

/-- The pool after thread `i` has performed `o`. -/
def Pool.act (m : Machine Op Ans W L σ) (P : Pool Op Ans ε α W L σ ι) (i : ι) (o : Op)
    (k : Ans o → Prog Op Ans ε α) : Pool Op Ans ε α W L σ ι :=
  let t := P.thread i
  let r := m.exec o (P.world, t.loc)
  { world := r.2.1
    thread := Function.update P.thread i
      { prog := some (k r.1), loc := r.2.2, seen := m.note t.seen t.loc o r.1 } }

/-- The pool after thread `i` was cut off. -/
def Pool.cut (m : Machine Op Ans W L σ) (P : Pool Op Ans ε α W L σ ι) (i : ι) :
    Pool Op Ans ε α W L σ ι :=
  { P with
    thread := Function.update P.thread i
      { prog := none, loc := m.closed, seen := (P.thread i).seen } }

/-- The operation need not wait for any other thread. -/
def Pool.Free (m : Machine Op Ans W L σ) (P : Pool Op Ans ε α W L σ ι) (i : ι) (o : Op) : Prop :=
  ∀ j, j ≠ i → ¬ m.waits o (P.world, (P.thread i).loc) (P.thread j).loc

/-- One step of a pool: an operation of a thread that need not wait, or a thread is cut off. -/
inductive Step (m : Machine Op Ans W L σ) :
    Pool Op Ans ε α W L σ ι → ι → Option Op → Pool Op Ans ε α W L σ ι → Prop
  | act {P : Pool Op Ans ε α W L σ ι} {i : ι} {o : Op} {k : Ans o → Prog Op Ans ε α}
      (prog : (P.thread i).prog = some (.call o k)) (free : P.Free m i o) :
      Step m P i (some o) (P.act m i o k)
  | cut {P : Pool Op Ans ε α W L σ ι} {i : ι} (running : (P.thread i).running) :
      Step m P i none (P.cut m i)

/-- The pools that a run from `P₀` reaches if each of its steps satisfies `Ok`. -/
inductive Reach (m : Machine Op Ans W L σ)
    (Ok : Pool Op Ans ε α W L σ ι → ι → Option Op → Prop) (P₀ : Pool Op Ans ε α W L σ ι) :
    Pool Op Ans ε α W L σ ι → Prop
  | start : Reach m Ok P₀ P₀
  | step {P P' : Pool Op Ans ε α W L σ ι} {i : ι} {o : Option Op} (reach : Reach m Ok P₀ P)
      (ok : Ok P i o) (step : Step m P i o P') : Reach m Ok P₀ P'

/-- A run whose steps satisfy one condition is a run of any weaker one. -/
theorem Reach.imp {m : Machine Op Ans W L σ}
    {Ok Ok' : Pool Op Ans ε α W L σ ι → ι → Option Op → Prop} {P₀ P : Pool Op Ans ε α W L σ ι}
    (h : Reach m Ok P₀ P) (himp : ∀ P i o, Ok P i o → Ok' P i o) : Reach m Ok' P₀ P := by
  induction h with
  | start => exact .start
  | step reach ok step ih => exact ih.step (himp _ _ _ ok) step

/-- If no thread may be cut off, none has been. -/
theorem Reach.uncut {m : Machine Op Ans W L σ}
    {Ok : Pool Op Ans ε α W L σ ι → ι → Option Op → Prop} {P₀ P : Pool Op Ans ε α W L σ ι}
    (hr : Reach m Ok P₀ P) (hok : ∀ P i, ¬ Ok P i none) (hstart : ∀ i, (P₀.thread i).prog ≠ none)
    (i : ι) : (P.thread i).prog ≠ none := by
  induction hr with
  | start => exact hstart i
  | @step P P' j o reach ok step ih =>
    cases step with
    | cut running => exact absurd ok (hok P j)
    | act prog free =>
      show (Function.update P.thread j _ i).prog ≠ none
      by_cases hij : i = j
      · subst hij
        rw [Function.update_self]
        exact Option.some_ne_none _
      · rw [Function.update_of_ne hij]
        exact ih

section Pools

variable {m : Machine Op Ans W L σ} {P P₀ : Pool Op Ans ε α W L σ ι} {i j : ι} {o : Op}
  {k : Ans o → Prog Op Ans ε α}

theorem Pool.act_self : (P.act m i o k).thread i =
    { prog := some (k (m.exec o (P.world, (P.thread i).loc)).1)
      loc := (m.exec o (P.world, (P.thread i).loc)).2.2
      seen := m.note (P.thread i).seen (P.thread i).loc o
        (m.exec o (P.world, (P.thread i).loc)).1 } :=
  Function.update_self _ _ _

theorem Pool.act_other (h : j ≠ i) : (P.act m i o k).thread j = P.thread j :=
  Function.update_of_ne h _ _

theorem Pool.cut_self : (P.cut m i).thread i =
    { prog := none, loc := m.closed, seen := (P.thread i).seen } :=
  Function.update_self _ _ _

theorem Pool.cut_other (h : j ≠ i) : (P.cut m i).thread j = P.thread j :=
  Function.update_of_ne h _ _

end Pools

/-! ## Playing a schedule -/

section Schedules

variable [Fintype ι] (m : Machine Op Ans W L σ) [∀ o s l, Decidable (m.waits o s l)]
  (Ok : Pool Op Ans ε α W L σ ι → ι → Option Op → Prop) [∀ P i o, Decidable (Ok P i o)]

/-- The pool after the next operation of thread `i`; `none` if it has none, has to wait or
may not perform it. -/
def Pool.next (P : Pool Op Ans ε α W L σ ι) (i : ι) : Option (Pool Op Ans ε α W L σ ι) :=
  match (P.thread i).prog with
  | some (.call o k) =>
    if Ok P i (some o) ∧
      ∀ j, j ≠ i → ¬ m.waits o (P.world, (P.thread i).loc) (P.thread j).loc then
      some (P.act m i o k)
    else none
  | _ => none

/-- The pool after the threads of the schedule have performed one operation each, in turn. -/
def Pool.play (P : Pool Op Ans ε α W L σ ι) : List ι → Option (Pool Op Ans ε α W L σ ι)
  | [] => some P
  | i :: is => (P.next m Ok i).bind fun P' => P'.play is

variable {m Ok} {P P' P₀ : Pool Op Ans ε α W L σ ι}

theorem Reach.next {i : ι} (hr : Reach m Ok P₀ P) (h : P.next m Ok i = some P') :
    Reach m Ok P₀ P' := by
  unfold Pool.next at h
  split at h
  · rename_i o k hprog
    by_cases hgo : Ok P i (some o) ∧
        ∀ j, j ≠ i → ¬ m.waits o (P.world, (P.thread i).loc) (P.thread j).loc
    · rw [if_pos hgo] at h
      cases h
      exact hr.step hgo.1 (.act hprog hgo.2)
    · rw [if_neg hgo] at h
      cases h
  · cases h

/-- A schedule that can be played is a run. -/
theorem Reach.play (is : List ι) (hr : Reach m Ok P₀ P) (h : P.play m Ok is = some P') :
    Reach m Ok P₀ P' := by
  induction is generalizing P with
  | nil =>
    cases h
    exact hr
  | cons i is ih =>
    obtain ⟨P₁, hnext, hrest⟩ := Option.bind_eq_some_iff.mp h
    exact ih (hr.next hnext) hrest

/-- What can be decided of the pool that a schedule leads to. -/
theorem Reach.of_play {φ : Pool Op Ans ε α W L σ ι → Prop} [DecidablePred φ] (is : List ι)
    (h : ((P₀.play m Ok is).any fun P => decide (φ P)) = true) : ∃ P, Reach m Ok P₀ P ∧ φ P := by
  obtain ⟨P, hplay, hφ⟩ := (Option.any_eq_true _ _).mp h
  exact ⟨P, Reach.start.play is hplay, of_decide_eq_true hφ⟩

end Schedules

/-! ## What a thread does in any company -/

section Follows

variable (m : Machine Op Ans W L σ) (G : σ → W → Prop) (allow : σ → L → Op → Prop)

/-- In any company that keeps `G`, the program performs allowed operations only; a value it
returns satisfies `Q` and an exception it raises satisfies `E`, with the record and the
local state it ends with. Between two operations the world may change in any way that
keeps `G`, which may say more of it the further the record says that the thread has come. -/
def Follows (Q : σ → L → α → Prop) (E : σ → L → ε → Prop) : σ → L → Prog Op Ans ε α → Prop
  | q, l, .ret a => Q q l a
  | q, l, .raise e => E q l e
  | q, l, .call o k => allow q l o ∧ ∀ w, G q w →
      Follows Q E (m.note q l o (m.exec o (w, l)).1) (m.exec o (w, l)).2.2
        (k (m.exec o (w, l)).1)

variable {m G allow} {Q Q' : σ → L → α → Prop} {E E' : σ → L → ε → Prop} {q : σ} {l : L}

theorem Follows.imp {p : Prog Op Ans ε α} (h : Follows m G allow Q E q l p)
    (hQ : ∀ q l a, Q q l a → Q' q l a) (hE : ∀ q l e, E q l e → E' q l e) :
    Follows m G allow Q' E' q l p := by
  induction p generalizing q l with
  | ret a => exact hQ _ _ _ h
  | raise e => exact hE _ _ _ h
  | call o k ih => exact ⟨h.1, fun w hw => ih _ (h.2 w hw)⟩

/-- The sequence rule. -/
theorem Follows.bind {R : σ → L → β → Prop} {p : Prog Op Ans ε α} {f : α → Prog Op Ans ε β}
    (hp : Follows m G allow Q E q l p)
    (hf : ∀ q l a, Q q l a → Follows m G allow R E q l (f a)) :
    Follows m G allow R E q l (p.bind f) := by
  induction p generalizing q l with
  | ret a => exact hf _ _ _ hp
  | raise e => exact hp
  | call o k ih => exact ⟨hp.1, fun w hw => ih _ (hp.2 w hw)⟩

/-- The value or the exception of a program that `try` has caught. -/
def Caught {ε' : Type} (Q : σ → L → α → Prop) (E : σ → L → ε' → Prop) (q : σ) (l : L) :
    Except ε' α → Prop
  | .ok a => Q q l a
  | .error e => E q l e

/-- What follows `try` gets the value or the exception. -/
theorem Follows.attempt {ε' : Type} {E' : σ → L → ε' → Prop} {p : Prog Op Ans ε α}
    (hp : Follows m G allow Q E q l p) :
    Follows m G allow (Caught Q E) E' q l (p.attempt : Prog Op Ans ε' (Except ε α)) := by
  induction p generalizing q l with
  | ret a => exact hp
  | raise e => exact hp
  | call o k ih => exact ⟨hp.1, fun w hw => ih _ (hp.2 w hw)⟩

/-- A loop that keeps a property of record and local state. -/
theorem Follows.forEach {J : σ → L → Prop} {as : List β} {f : β → Prog Op Ans ε Unit}
    (hstart : J q l)
    (hf : ∀ b ∈ as, ∀ q l, J q l → Follows m G allow (fun q l _ => J q l) E q l (f b)) :
    Follows m G allow (fun q l _ => J q l) E q l (Prog.forEach as f) := by
  induction as generalizing q l with
  | nil => exact hstart
  | cons b as ih =>
    refine (hf b List.mem_cons_self q l hstart).bind fun q' l' _ h' => ?_
    exact ih h' fun b' hb' => hf b' (List.mem_cons_of_mem b hb')

/-- A program whose operations change neither record nor local state. -/
theorem Follows.of_all {φ : Op → Prop} {ρ : (o : Op) → Ans o → Prop} {R : α → Prop}
    {p : Prog Op Ans ε α} (hp : Prog.All φ ρ R p)
    (hop : ∀ o, φ o → allow q l o ∧ ∀ w, G q w → ρ o (m.exec o (w, l)).1 ∧
      (m.exec o (w, l)).2.2 = l ∧ m.note q l o (m.exec o (w, l)).1 = q)
    (hE : ∀ e, E q l e) :
    Follows m G allow (fun q' l' a => q' = q ∧ l' = l ∧ R a) E q l p := by
  induction p with
  | ret a => exact ⟨rfl, rfl, hp⟩
  | raise e => exact hE e
  | call o k ih =>
    obtain ⟨hallow, hexec⟩ := hop o hp.1
    refine ⟨hallow, fun w hw => ?_⟩
    obtain ⟨hans, hloc, hnote⟩ := hexec w hw
    rw [hloc, hnote]
    exact ih _ (hp.2 _ hans)

end Follows

/-! ## The invariant rule -/

section Invariant

variable {m : Machine Op Ans W L σ} {G : σ → W → Prop} {allow : ι → σ → L → Op → Prop}
  {Q : ι → σ → L → α → Prop} {E : ι → σ → L → ε → Prop}
  {Ok : Pool Op Ans ε α W L σ ι → ι → Option Op → Prop} {P P₀ : Pool Op Ans ε α W L σ ι}

/-- Every thread that was not cut off does, from here on, what it may do. -/
def Orderly (m : Machine Op Ans W L σ) (G : σ → W → Prop) (allow : ι → σ → L → Op → Prop)
    (Q : ι → σ → L → α → Prop) (E : ι → σ → L → ε → Prop) (P : Pool Op Ans ε α W L σ ι) : Prop :=
  ∀ i p, (P.thread i).prog = some p →
    Follows m G (allow i) (Q i) (E i) (P.thread i).seen (P.thread i).loc p

omit [DecidableEq ι] in
/-- The operation that an orderly thread performs next is allowed. -/
theorem Orderly.allowed (h : Orderly m G allow Q E P) {i : ι} {o : Op}
    {k : Ans o → Prog Op Ans ε α} (hprog : (P.thread i).prog = some (.call o k)) :
    allow i (P.thread i).seen (P.thread i).loc o :=
  (h i _ hprog).1

theorem Orderly.act (h : Orderly m G allow Q E P) {i : ι} (hG : G (P.thread i).seen P.world)
    {o : Op} {k : Ans o → Prog Op Ans ε α} (hprog : (P.thread i).prog = some (.call o k)) :
    Orderly m G allow Q E (P.act m i o k) := by
  intro j p hp
  by_cases hij : j = i
  · subst hij
    rw [Pool.act_self] at hp ⊢
    cases hp
    exact (h j _ hprog).2 P.world hG
  · rw [Pool.act_other hij] at hp ⊢
    exact h j p hp

theorem Orderly.cut (h : Orderly m G allow Q E P) (i : ι) :
    Orderly m G allow Q E (P.cut m i) := by
  intro j p hp
  by_cases hij : j = i
  · subst hij
    rw [Pool.cut_self] at hp
    cases hp
  · rw [Pool.cut_other hij] at hp ⊢
    exact h j p hp

/-- **Invariant rule**: a property of the pool that implies `G`, holds at the start and is
kept by every allowed operation and by every cut holds in every state of a run. -/
theorem Reach.invariant {I : Pool Op Ans ε α W L σ ι → Prop}
    (hr : Reach m Ok P₀ P) (hG : ∀ P, I P → ∀ i, G (P.thread i).seen P.world) (hstart : I P₀)
    (horderly : Orderly m G allow Q E P₀)
    (hact : ∀ P i o k, I P → Orderly m G allow Q E P → Ok P i (some o) →
      (P.thread i).prog = some (.call o k) → allow i (P.thread i).seen (P.thread i).loc o →
      P.Free m i o → I (P.act m i o k))
    (hcut : ∀ P i, I P → Orderly m G allow Q E P → Ok P i none → (P.thread i).running →
      I (P.cut m i)) :
    I P ∧ Orderly m G allow Q E P := by
  induction hr with
  | start => exact ⟨hstart, horderly⟩
  | step reach ok step ih =>
    obtain ⟨hinv, hord⟩ := ih
    cases step with
    | act prog free =>
      exact ⟨hact _ _ _ _ hinv hord ok prog (hord.allowed prog) free, hord.act (hG _ hinv _) prog⟩
    | cut running => exact ⟨hcut _ _ hinv hord ok running, hord.cut _⟩

end Invariant

end Interleave
